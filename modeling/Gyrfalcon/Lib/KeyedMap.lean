import Gyrfalcon.Lib.LastWrite

/-!
# Maps whose values carry their key

In a `Keyed` map every value is stored under its own key, so the map can be
rebuilt from its values alone, in whatever order they come
(`perm_entries_rebuild`).
-/

namespace KeyedMap

open LastWrite

variable {K V : Type}

def values (m : HashMap K V) : List V := m.entries.map Sigma.snd

variable [DecidableEq K]

/-- Every value is stored under its key. -/
def Keyed (key : V → K) (m : HashMap K V) : Prop :=
  ∀ k v, m.lookup k = some v → key v = k

/-- The values, inserted one after the other into an empty map. -/
def rebuild (key : V → K) (vs : List V) : HashMap K V :=
  vs.foldl (fun m v => m.insert (key v) v) ∅

variable {key : V → K} {m : HashMap K V}

theorem keyed_empty : Keyed key (∅ : HashMap K V) := by
  intro k v h
  rw [AList.lookup_empty] at h
  cases h

theorem Keyed.insert (h : Keyed key m) (v : V) : Keyed key (m.insert (key v) v) := by
  intro k v' hlookup
  by_cases hk : k = key v
  · subst hk
    rw [AList.lookup_insert] at hlookup
    cases hlookup
    rfl
  · rw [AList.lookup_insert_ne hk] at hlookup
    exact h k v' hlookup

theorem Keyed.erase (h : Keyed key m) (k : K) : Keyed key (m.erase k) := by
  intro k' v hlookup
  by_cases hk : k' = k
  · subst hk
    rw [AList.lookup_erase] at hlookup
    cases hlookup
  · rw [AList.lookup_erase_ne hk] at hlookup
    exact h k' v hlookup

theorem mem_values_iff (v : V) : v ∈ values m ↔ ∃ k, m.lookup k = some v := by
  simp only [values, List.mem_map, Sigma.exists]
  constructor
  · rintro ⟨k, v', hmem, rfl⟩
    exact ⟨k, AList.mem_lookup_iff.mpr hmem⟩
  · rintro ⟨k, hlookup⟩
    exact ⟨k, v, AList.mem_lookup_iff.mp hlookup, rfl⟩

/-- No key comes twice among the values. -/
theorem Keyed.nodup_map_values (h : Keyed key m) : ((values m).map key).Nodup := by
  have hkeys : (values m).map key = m.keys := by
    rw [values, List.map_map]
    refine List.map_congr_left fun entry hentry => ?_
    exact h entry.1 entry.2 (AList.mem_lookup_iff.mpr hentry)
  rw [hkeys]
  exact m.keys_nodup

theorem lookup_rebuild_eq_some_iff {vs : List V} (h : (vs.map key).Nodup) (k : K) (v : V) :
    (rebuild key vs).lookup k = some v ↔ v ∈ vs ∧ key v = k := by
  induction vs using List.reverseRecOn with
  | nil => simp [rebuild]
  | append_singleton vs last ih =>
    rw [List.map_append, List.nodup_append] at h
    have hfresh : ∀ v ∈ vs, key v ≠ key last := fun v hv =>
      h.2.2 (key v) (List.mem_map_of_mem hv) (key last) (by simp)
    have hstep : rebuild key (vs ++ [last]) = (rebuild key vs).insert (key last) last :=
      List.foldl_concat _ _ _ _
    rw [hstep, List.mem_append, List.mem_singleton]
    by_cases hk : k = key last
    · subst hk
      rw [AList.lookup_insert, Option.some.injEq]
      constructor
      · rintro rfl
        exact ⟨Or.inr rfl, rfl⟩
      · rintro ⟨hv | rfl, hkey⟩
        · exact absurd hkey (hfresh v hv)
        · rfl
    · rw [AList.lookup_insert_ne hk, ih h.1]
      constructor
      · rintro ⟨hv, hkey⟩
        exact ⟨Or.inl hv, hkey⟩
      · rintro ⟨hv | rfl, hkey⟩
        · exact ⟨hv, hkey⟩
        · exact absurd hkey.symm hk

/-- **Rebuilding.**  From its values in any order, a keyed map comes back with the
same entries. -/
theorem perm_entries_rebuild (h : Keyed key m) {vs : List V} (hvs : vs.Perm (values m)) :
    (rebuild key vs).entries.Perm m.entries := by
  have hnodup : (vs.map key).Nodup := (hvs.map key).nodup_iff.mpr h.nodup_map_values
  refine List.lookup_ext (rebuild key vs).nodupKeys m.nodupKeys fun k v => ?_
  show (rebuild key vs).lookup k = some v ↔ m.lookup k = some v
  rw [lookup_rebuild_eq_some_iff hnodup, hvs.mem_iff, mem_values_iff]
  constructor
  · rintro ⟨⟨k', hlookup⟩, hkey⟩
    rw [← hkey, h k' v hlookup]
    exact hlookup
  · intro hlookup
    exact ⟨⟨k, hlookup⟩, h k v hlookup⟩

end KeyedMap
