import Mathlib.Data.List.Nodup

/-!
# Keeping the first of each key

`keepNew key seen l` walks a list with a set of keys already seen and keeps an
item when its key is new.  Two keys keep the same items when they tell the same
items apart (`keepNew_congr`); a coarser key loses some
(`map_keepNew_eq_iff`).
-/

namespace FirstSeen

variable {α κ μ : Type*} [DecidableEq κ] [DecidableEq μ]

/-- An item is kept when inserting its key into `seen` adds something. -/
def keepNew (key : α → κ) : List κ → List α → List α
  | _, [] => []
  | seen, a :: as =>
    if key a ∈ seen then keepNew key seen as else a :: keepNew key (key a :: seen) as

theorem map_keepNew (key : α → κ) (seen : List κ) (l : List α) :
    (keepNew key seen l).map key = keepNew id seen (l.map key) := by
  induction l generalizing seen with
  | nil => rfl
  | cons a as ih =>
    by_cases ha : key a ∈ seen
    · simp [keepNew, ha, ih]
    · simp [keepNew, ha, ih]

theorem mem_of_mem_keepNew {key : α → κ} {seen : List κ} {l : List α} {a : α}
    (h : a ∈ keepNew key seen l) : a ∈ l ∧ key a ∉ seen := by
  induction l generalizing seen with
  | nil => simp [keepNew] at h
  | cons b as ih =>
    by_cases hb : key b ∈ seen
    · rw [keepNew, if_pos hb] at h
      obtain ⟨hmem, hseen⟩ := ih h
      exact ⟨List.mem_cons_of_mem b hmem, hseen⟩
    · rw [keepNew, if_neg hb] at h
      rcases List.mem_cons.mp h with rfl | h
      · exact ⟨List.mem_cons_self, hb⟩
      · obtain ⟨hmem, hseen⟩ := ih h
        exact ⟨List.mem_cons_of_mem b hmem, fun hkey => hseen (List.mem_cons_of_mem _ hkey)⟩

/-- Every key of the list is kept once. -/
theorem nodup_map_keepNew (key : α → κ) (seen : List κ) (l : List α) :
    ((keepNew key seen l).map key).Nodup := by
  induction l generalizing seen with
  | nil => exact List.nodup_nil
  | cons a as ih =>
    by_cases ha : key a ∈ seen
    · rw [keepNew, if_pos ha]
      exact ih seen
    · rw [keepNew, if_neg ha, List.map_cons, List.nodup_cons]
      refine ⟨?_, ih _⟩
      intro hmem
      obtain ⟨b, hb, hkey⟩ := List.mem_map.mp hmem
      exact (mem_of_mem_keepNew hb).2 (hkey ▸ List.mem_cons_self)

/-- Every key of the list that was not seen before is kept. -/
theorem exists_mem_keepNew (key : α → κ) {seen : List κ} {l : List α} {a : α} (ha : a ∈ l)
    (hseen : key a ∉ seen) : ∃ b ∈ keepNew key seen l, key b = key a := by
  induction l generalizing seen with
  | nil => cases ha
  | cons b as ih =>
    by_cases hb : key b ∈ seen
    · rw [keepNew, if_pos hb]
      rcases List.mem_cons.mp ha with rfl | ha
      · exact absurd hb hseen
      · exact ih ha hseen
    · rw [keepNew, if_neg hb]
      by_cases heq : key b = key a
      · exact ⟨b, List.mem_cons_self, heq⟩
      · have hmem : a ∈ as := by
          rcases List.mem_cons.mp ha with rfl | ha
          · exact absurd rfl heq
          · exact ha
        have hnew : key a ∉ key b :: seen := by
          simpa [Ne.symm heq] using hseen
        obtain ⟨c, hc, hkey⟩ := ih hmem hnew
        exact ⟨c, List.mem_cons_of_mem b hc, hkey⟩

/-- Keys that tell the same items apart keep the same items. -/
theorem keepNew_congr {f : α → κ} {g : α → μ} {l : List α}
    (h : ∀ a ∈ l, ∀ b ∈ l, f a = f b ↔ g a = g b) : keepNew f [] l = keepNew g [] l := by
  have hgen : ∀ (l : List α) (sf : List κ) (sg : List μ),
      (∀ a ∈ l, ∀ b ∈ l, f a = f b ↔ g a = g b) → (∀ a ∈ l, f a ∈ sf ↔ g a ∈ sg) →
        keepNew f sf l = keepNew g sg l := by
    intro l
    induction l with
    | nil => intro _ _ _ _; rfl
    | cons a as ih =>
      intro sf sg h hseen
      have htail : ∀ b ∈ as, ∀ c ∈ as, f b = f c ↔ g b = g c := fun b hb c hc =>
        h b (List.mem_cons_of_mem a hb) c (List.mem_cons_of_mem a hc)
      by_cases ha : f a ∈ sf
      · rw [keepNew, keepNew, if_pos ha, if_pos ((hseen a List.mem_cons_self).mp ha)]
        exact ih sf sg htail fun b hb => hseen b (List.mem_cons_of_mem a hb)
      · rw [keepNew, keepNew, if_neg ha, if_neg (mt (hseen a List.mem_cons_self).mpr ha)]
        refine congrArg (a :: ·) (ih (f a :: sf) (g a :: sg) htail fun b hb => ?_)
        rw [List.mem_cons, List.mem_cons, h b (List.mem_cons_of_mem a hb) a List.mem_cons_self,
          hseen b (List.mem_cons_of_mem a hb)]
  exact hgen l [] [] h fun _ _ => by simp

/-- **A coarser key.**  Read through a function that tells the items of the list
apart, it keeps every item once if and only if it tells them apart itself. -/
theorem map_keepNew_eq_iff [DecidableEq α] {β : Type*} {f : α → β} {l : List α}
    (hf : ∀ a ∈ l, ∀ b ∈ l, f a = f b → a = b) (key : α → κ) :
    (keepNew key [] l).map f = (keepNew id [] l).map f ↔
      ∀ a ∈ l, ∀ b ∈ l, key a = key b → a = b := by
  constructor
  · intro h a ha b hb hkey
    have hkept : ∀ c ∈ l, c ∈ keepNew key [] l := by
      intro c hc
      obtain ⟨c', hc', rfl⟩ := exists_mem_keepNew id hc List.not_mem_nil
      have hmem := List.mem_map_of_mem (f := f) hc'
      rw [← h] at hmem
      obtain ⟨d, hd, heq⟩ := List.mem_map.mp hmem
      rw [hf c' hc d (mem_of_mem_keepNew hd).1 heq.symm]
      exact hd
    exact List.inj_on_of_nodup_map (nodup_map_keepNew key [] l) (hkept a ha) (hkept b hb) hkey
  · intro h
    rw [keepNew_congr (g := id) fun a ha b hb => ⟨h a ha b hb, fun heq => congrArg key heq⟩]

end FirstSeen
