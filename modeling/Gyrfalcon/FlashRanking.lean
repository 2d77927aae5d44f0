import Gyrfalcon.FlashSelection
import Gyrfalcon.Lib.StableSort

/-!
# Ranking against routing

`rank_all_sources` and `route` compare sources with two comparators: only the
second one prefers Kamino at equal fees.  With Save live the two agree on the
best source in every order of iteration, if and only if the lowest fee is not
shared across providers with Save at least as deep.
-/

namespace Gyrfalcon

namespace MultiSourceRouter

/-- An eligible reserve as a source. -/
def toSource (e : Pubkey × ReserveInfo × Nat) : FlashSource := ⟨.kamino, e.1, e.2.2⟩

variable {self other : MultiSourceRouter} {mint : Pubkey} {amount : Nat}

/-! ## The ranking -/

/-- With Save live, the ranking sorts the eligible reserves. -/
theorem rankAllSources_eq (hlive : self.saveLiveVerified = true) :
    self.rankAllSources mint amount =
      ((self.eligible mint amount).map toSource).insertionSort
        fun a b => self.compareRanked a b ≠ .gt := by
  have hgate : ∀ l : List (Sigma fun _ : Pubkey => ReserveInfo),
      l.filter (fun e => e.2.provider ≠ .solend || self.saveLiveVerified) = l := by
    intro l
    simp [hlive]
  rw [rankAllSources, eligible, hgate, List.map_filterMap]
  congr 1
  refine List.filterMap_congr fun e _ => ?_
  cases e.2.feeBps <;> rfl

theorem depthOf_toSource {e : Pubkey × ReserveInfo × Nat} (h : e ∈ self.eligible mint amount) :
    self.depthOf (toSource e) = e.2.1.availableLiquidity := by
  have hfund := (mem_eligible_iff _ _ _ _ _ _).mp h
  rw [depthOf, toSource, hfund.tracked]
  rfl

/-- The lower fee first, then the deeper reserve. -/
theorem compareRanked_ne_gt_iff (self : MultiSourceRouter) (a b : FlashSource) :
    self.compareRanked a b ≠ .gt ↔
      a.feeBps < b.feeBps ∨ a.feeBps = b.feeBps ∧ self.depthOf b ≤ self.depthOf a := by
  rw [compareRanked, Ne, Ordering.then_eq_gt, Nat.compare_eq_gt, Nat.compare_eq_eq,
    Nat.compare_eq_gt]
  omega

instance (self : MultiSourceRouter) :
    Std.Total fun a b : FlashSource => self.compareRanked a b ≠ .gt where
  total a b := by
    simp only [compareRanked_ne_gt_iff]
    omega

instance (self : MultiSourceRouter) :
    IsTrans FlashSource fun a b => self.compareRanked a b ≠ .gt where
  trans a b c hab hbc := by
    simp only [compareRanked_ne_gt_iff] at hab hbc ⊢
    omega

/-- The first of the ranking is an eligible reserve of the lowest fee, and the
deepest of those. -/
theorem head_rankAllSources (hlive : self.saveLiveVerified = true) {source : FlashSource}
    (h : (self.rankAllSources mint amount).head? = some source) :
    ∃ b ∈ self.eligible mint amount, source = toSource b ∧
      ∀ c ∈ self.eligible mint amount, b.2.2 < c.2.2 ∨ b.2.2 = c.2.2 ∧
        c.2.1.availableLiquidity ≤ b.2.1.availableLiquidity := by
  rw [rankAllSources_eq hlive] at h
  obtain ⟨hmem, hfirst⟩ := StableSort.head_insertionSort _ h
  obtain ⟨b, hb, rfl⟩ := List.mem_map.mp hmem
  refine ⟨b, hb, rfl, fun c hc => ?_⟩
  have hranked := hfirst (toSource c) (List.mem_map_of_mem hc)
  rw [compareRanked_ne_gt_iff, depthOf_toSource hb, depthOf_toSource hc] at hranked
  exact hranked

/-- The ranking is empty exactly when there is no route. -/
theorem head_rankAllSources_isSome (mint : Pubkey) (amount : Nat)
    (hlive : self.saveLiveVerified = true) :
    (self.rankAllSources mint amount).head?.isSome ↔ (self.route mint amount).isSome := by
  rw [route, Option.isSome_map, Extremum.minBy_isSome, rankAllSources_eq hlive,
    StableSort.isSome_head_insertionSort, Ne, List.map_eq_nil_iff]

/-- The ranking keeps the order of sources of one fee and one depth: the first
that is iterated comes before the others. -/
theorem eq_of_head_rankAllSources (hlive : self.saveLiveVerified = true)
    {a b : Pubkey × ReserveInfo × Nat} {rest : List (Pubkey × ReserveInfo × Nat)}
    (hfirst : self.eligible mint amount = b :: rest) (ha : a ∈ self.eligible mint amount)
    (hfee : a.2.2 = b.2.2) (hdepth : a.2.1.availableLiquidity = b.2.1.availableLiquidity)
    (h : (self.rankAllSources mint amount).head? = some (toSource a)) : a = b := by
  have hb : b ∈ self.eligible mint amount := by
    rw [hfirst]
    exact List.mem_cons_self
  let tied : FlashSource → Bool := fun s =>
    s.feeBps = b.2.2 ∧ self.depthOf s = b.2.1.availableLiquidity
  have htied : ∀ c ∈ self.eligible mint amount, c.2.2 = b.2.2 →
      c.2.1.availableLiquidity = b.2.1.availableLiquidity → tied (toSource c) = true := by
    intro c hc hfee hdepth
    exact decide_eq_true ⟨hfee, (depthOf_toSource hc).trans hdepth⟩
  have hstable := StableSort.filter_insertionSort
    (fun a b : FlashSource => self.compareRanked a b ≠ .gt) tied (by
      intro s t hs ht
      obtain ⟨hsfee, hsdepth⟩ := of_decide_eq_true hs
      obtain ⟨htfee, htdepth⟩ := of_decide_eq_true ht
      rw [compareRanked_ne_gt_iff]
      exact Or.inr ⟨hsfee.trans htfee.symm, (htdepth.trans hsdepth.symm).le⟩)
    ((self.eligible mint amount).map toSource)
  rw [← rankAllSources_eq hlive] at hstable
  obtain ⟨others, hothers⟩ := List.head?_eq_some_iff.mp h
  rw [hothers, List.filter_cons_of_pos (htied a ha hfee hdepth), hfirst, List.map_cons,
    List.filter_cons_of_pos (htied b hb rfl rfl)] at hstable
  exact eq_of_mem_eligible ha hb (congrArg FlashSource.reserve (List.cons.inj hstable).1)

/-! ## Agreement -/

/-- In every order of iteration, `route` is the first of the ranking: none where
the ranking is empty. -/
def RankingAgrees (self : MultiSourceRouter) (mint : Pubkey) (amount : Nat) : Prop :=
  ∀ other, self.SameEntries other →
    other.route mint amount = (other.rankAllSources mint amount).head?

/-- No two eligible reserves are equal in fee, provider and liquidity. -/
def NoTies (self : MultiSourceRouter) (mint : Pubkey) (amount : Nat) : Prop :=
  ∀ key key' info info' feeBps, self.CanFund mint amount key info feeBps →
    self.CanFund mint amount key' info' feeBps → info.provider = info'.provider →
    info.availableLiquidity = info'.availableLiquidity → key = key'

/-- Where a Save reserve has the lowest fee and a Kamino reserve has it too,
some Kamino reserve of that fee is deeper. -/
def KaminoDeeper (self : MultiSourceRouter) (mint : Pubkey) (amount : Nat) : Prop :=
  ∀ key info feeBps, self.CanFund mint amount key info feeBps → info.provider = .solend →
    (∀ key' info' feeBps', self.CanFund mint amount key' info' feeBps' → feeBps ≤ feeBps') →
    (∃ key' info', self.CanFund mint amount key' info' feeBps ∧ info'.provider = .kamino) →
    ∃ key' info', self.CanFund mint amount key' info' feeBps ∧ info'.provider = .kamino ∧
      info.availableLiquidity < info'.availableLiquidity

/-- If Save is ranked first, no Kamino reserve has its fee. -/
theorem solend_of_ranked_first (hdeeper : self.KaminoDeeper mint amount) {key key' : Pubkey}
    {info info' : ReserveInfo} {feeBps : Nat} (hfund : self.CanFund mint amount key info feeBps)
    (hsolend : info.provider = .solend)
    (hlowest : ∀ e ∈ self.eligible mint amount, feeBps < e.2.2 ∨
      feeBps = e.2.2 ∧ e.2.1.availableLiquidity ≤ info.availableLiquidity)
    (hfund' : self.CanFund mint amount key' info' feeBps) : info'.provider = .solend := by
  cases hp : info'.provider with
  | solend => rfl
  | kamino =>
    have hcheapest : ∀ key'' info'' feeBps', self.CanFund mint amount key'' info'' feeBps' →
        feeBps ≤ feeBps' := by
      intro key'' info'' feeBps' hfund''
      have hrank := hlowest (key'', info'', feeBps') ((mem_eligible_iff _ _ _ _ _ _).mpr hfund'')
      dsimp only at hrank
      omega
    obtain ⟨key'', info'', hfund'', -, hlt⟩ :=
      hdeeper key info feeBps hfund hsolend hcheapest ⟨key', info', hfund', hp⟩
    have hrank := hlowest (key'', info'', feeBps) ((mem_eligible_iff _ _ _ _ _ _).mpr hfund'')
    dsimp only at hrank
    omega

/-- A routed and a first-ranked source are one, if Kamino is deeper where Save
shares the lowest fee. -/
theorem route_eq_head (hlive : self.saveLiveVerified = true) (hties : self.NoTies mint amount)
    (hdeeper : self.KaminoDeeper mint amount) {source first : FlashSource}
    (hroute : self.route mint amount = some source)
    (hfirst : (self.rankAllSources mint amount).head? = some first) : source = first := by
  obtain ⟨info, hfund, hbest⟩ := route_least hroute
  obtain ⟨⟨key, info', feeBps⟩, hb, rfl, hlowest⟩ := head_rankAllSources hlive hfirst
  have hfund' := (mem_eligible_iff _ _ _ _ _ _).mp hb
  have hnot := hbest key info' feeBps hfund'
  have hle := hlowest (source.reserve, info, source.feeBps)
    ((mem_eligible_iff _ _ _ _ _ _).mpr hfund)
  have hfee : feeBps = source.feeBps ∧ info.availableLiquidity ≤ info'.availableLiquidity :=
    hle.resolve_left fun hlt => hnot (Or.inl hlt)
  obtain ⟨rfl, hdepth⟩ := hfee
  have hsame : info.provider = info'.provider → source.reserve = key := by
    intro hprovider
    have hle : info'.availableLiquidity ≤ info.availableLiquidity := by
      by_contra hlt
      exact hnot (Or.inr ⟨rfl, Or.inr ⟨hprovider.symm, Nat.lt_of_not_le hlt⟩⟩)
    exact hties _ _ _ _ _ hfund hfund' hprovider (Nat.le_antisymm hdepth hle)
  have hkey : source.reserve = key := by
    cases hp : info.provider with
    | kamino =>
      cases hp' : info'.provider with
      | kamino => exact hsame (hp.trans hp'.symm)
      | solend =>
        have hsolend := solend_of_ranked_first hdeeper hfund' hp' hlowest hfund
        rw [hp] at hsolend
        cases hsolend
    | solend =>
      cases hp' : info'.provider with
      | kamino => exact absurd (Or.inr ⟨rfl, Or.inl ⟨hp', hp⟩⟩) hnot
      | solend => exact hsame (hp.trans hp'.symm)
  obtain ⟨protocol, reserve, fee⟩ := source
  cases protocol
  rw [← hkey]
  rfl

theorem SameEntries.noTies (h : self.SameEntries other) (hties : self.NoTies mint amount) :
    other.NoTies mint amount := by
  simpa only [NoTies, h.canFund_iff] using hties

theorem SameEntries.kaminoDeeper (h : self.SameEntries other)
    (hdeeper : self.KaminoDeeper mint amount) : other.KaminoDeeper mint amount := by
  simpa only [KaminoDeeper, h.canFund_iff] using hdeeper

/-- Where a Kamino reserve has the lowest fee, one of that fee is routed. -/
theorem route_kamino {source : FlashSource} (hroute : self.route mint amount = some source)
    {key : Pubkey} {info : ReserveInfo} {feeBps : Nat}
    (hfund : self.CanFund mint amount key info feeBps) (hkamino : info.provider = .kamino)
    (hlowest : ∀ key' info' feeBps', self.CanFund mint amount key' info' feeBps' →
      feeBps ≤ feeBps') :
    source.feeBps = feeBps ∧ ∃ routed, self.CanFund mint amount source.reserve routed feeBps ∧
      routed.provider = .kamino := by
  obtain ⟨routed, hrouted, hbest⟩ := route_least hroute
  have hnot := hbest key info feeBps hfund
  have hfee : source.feeBps = feeBps := by
    refine Nat.le_antisymm ?_ (hlowest _ _ _ hrouted)
    by_contra hlt
    exact hnot (Or.inl (Nat.lt_of_not_le hlt))
  rw [hfee] at hrouted
  refine ⟨hfee, routed, hrouted, ?_⟩
  cases hp : routed.provider with
  | kamino => rfl
  | solend => exact absurd (Or.inr ⟨hfee.symm, Or.inl ⟨hkamino, hp⟩⟩) hnot

theorem kaminoDeeper_of_rankingAgrees (hlive : self.saveLiveVerified = true)
    (hagrees : self.RankingAgrees mint amount) : self.KaminoDeeper mint amount := by
  rintro key info feeBps hfund hsolend hlowest ⟨key₀, info₀, hfund₀, hkamino₀⟩
  obtain ⟨other, hother, rest, hfirst⟩ :=
    exists_order_first ((mem_eligible_iff _ _ _ _ _ _).mpr hfund)
  have hlive' : other.saveLiveVerified = true := hother.1.trans hlive
  have hfunds : (other.route mint amount).isSome :=
    (route_isSome_iff _ _ _).mpr ⟨key, info, feeBps, hother.canFund_iff.mpr hfund⟩
  obtain ⟨source, hroute⟩ := Option.isSome_iff_exists.mp hfunds
  obtain ⟨hfee, routed, hrouted, hkamino⟩ :=
    route_kamino hroute (hother.canFund_iff.mpr hfund₀) hkamino₀ fun _ _ _ h =>
      hlowest _ _ _ (hother.canFund_iff.mp h)
  refine ⟨source.reserve, routed, hother.canFund_iff.mp hrouted, hkamino, ?_⟩
  by_contra hdepth
  have hmem := (mem_eligible_iff _ _ _ _ _ _).mpr hrouted
  have hranked : (other.rankAllSources mint amount).head? =
      some (toSource (source.reserve, routed, feeBps)) := by
    rw [← hagrees other hother, hroute, ← hfee]
    rfl
  obtain ⟨b, hb, hsource, hdeepest⟩ := head_rankAllSources hlive' hranked
  obtain rfl := eq_of_mem_eligible hmem hb (congrArg FlashSource.reserve hsource)
  have hle := hdeepest (key, info, feeBps)
    ((mem_eligible_iff _ _ _ _ _ _).mpr (hother.canFund_iff.mpr hfund))
  dsimp only at hle
  have heq := eq_of_head_rankAllSources hlive' hfirst hmem rfl
    (show routed.availableLiquidity = info.availableLiquidity by omega) hranked
  obtain rfl : routed = info := congrArg (fun e => e.2.1) heq
  rw [hkamino] at hsolend
  cases hsolend

/-- **When ranking and routing agree.**  With Save live and no ties, if and only
if Save never shares the lowest fee with Kamino at Kamino's depth or more. -/
theorem rankingAgrees_iff (self : MultiSourceRouter) (mint : Pubkey) (amount : Nat)
    (hlive : self.saveLiveVerified = true) (hties : self.NoTies mint amount) :
    self.RankingAgrees mint amount ↔ self.KaminoDeeper mint amount := by
  refine ⟨kaminoDeeper_of_rankingAgrees hlive, ?_⟩
  intro hdeeper other hother
  have hlive' : other.saveLiveVerified = true := hother.1.trans hlive
  have hsome := head_rankAllSources_isSome mint amount hlive'
  cases hroute : other.route mint amount with
  | none =>
    rw [hroute] at hsome
    cases hfirst : (other.rankAllSources mint amount).head? with
    | none => rfl
    | some first => simp [hfirst] at hsome
  | some source =>
    rw [hroute] at hsome
    obtain ⟨first, hfirst⟩ := Option.isSome_iff_exists.mp (hsome.mpr rfl)
    rw [hfirst, route_eq_head hlive' (hother.noTies hties) (hother.kaminoDeeper hdeeper) hroute
      hfirst]

/-- A Kamino and a Save reserve of mint 9, both without a fee, Save live. -/
def twoSources (kaminoDepth saveDepth : Nat) : MultiSourceRouter :=
  ((new.addReserve (Bytes32.fill 1) .kamino (Bytes32.fill 9) kaminoDepth (some 0)).addReserve
    (Bytes32.fill 2) .solend (Bytes32.fill 9) saveDepth (some 0)).setSaveLiveVerified true

theorem eligible_twoSources {kaminoDepth saveDepth : Nat} (hkamino : 50 ≤ kaminoDepth)
    (hsave : 50 ≤ saveDepth) :
    (twoSources kaminoDepth saveDepth).eligible (Bytes32.fill 9) 50 =
      [(Bytes32.fill 2, ⟨.solend, Bytes32.fill 9, saveDepth, some 0⟩, 0),
        (Bytes32.fill 1, ⟨.kamino, Bytes32.fill 9, kaminoDepth, some 0⟩, 0)] := by
  have hentries : (twoSources kaminoDepth saveDepth).reserves.entries =
      [⟨Bytes32.fill 2, ⟨.solend, Bytes32.fill 9, saveDepth, some 0⟩⟩,
        ⟨Bytes32.fill 1, ⟨.kamino, Bytes32.fill 9, kaminoDepth, some 0⟩⟩] := rfl
  rw [eligible, hentries]
  simp [hkamino, hsave, twoSources, setSaveLiveVerified]

theorem noTies_twoSources {kaminoDepth saveDepth : Nat} (hkamino : 50 ≤ kaminoDepth)
    (hsave : 50 ≤ saveDepth) : (twoSources kaminoDepth saveDepth).NoTies (Bytes32.fill 9) 50 := by
  intro key key' info info' feeBps hfund hfund' hprovider _
  rw [← mem_eligible_iff, eligible_twoSources hkamino hsave] at hfund hfund'
  simp only [List.mem_cons, Prod.mk.injEq, List.not_mem_nil, or_false] at hfund hfund'
  rcases hfund with ⟨rfl, rfl, -⟩ | ⟨rfl, rfl, -⟩ <;>
    rcases hfund' with ⟨rfl, rfl, -⟩ | ⟨rfl, rfl, -⟩
  · rfl
  · cases hprovider
  · cases hprovider
  · rfl

/-- A Kamino reserve deeper than the Save reserve of its fee. -/
theorem rankingAgrees_iff_deeper : (twoSources 200 100).RankingAgrees (Bytes32.fill 9) 50 := by
  refine (rankingAgrees_iff _ _ _ rfl (noTies_twoSources (by decide) (by decide))).mpr ?_
  intro key info feeBps hfund hsolend _ _
  rw [← mem_eligible_iff, eligible_twoSources (by decide) (by decide)] at hfund
  simp only [List.mem_cons, Prod.mk.injEq, List.not_mem_nil, or_false] at hfund
  rcases hfund with ⟨rfl, rfl, rfl⟩ | ⟨rfl, rfl, rfl⟩
  · refine ⟨Bytes32.fill 1, ⟨.kamino, Bytes32.fill 9, 200, some 0⟩, ?_, rfl, by decide⟩
    rw [← mem_eligible_iff, eligible_twoSources (by decide) (by decide)]
    simp
  · cases hsolend

/-- Two sources without a fee, Save the deeper: the ranking puts Save first and
`route` picks Kamino. -/
theorem ranking_differs_from_route :
    (twoSources 100 200).saveLiveVerified = true ∧
      (twoSources 100 200).NoTies (Bytes32.fill 9) 50 ∧
      (twoSources 100 200).route (Bytes32.fill 9) 50 = some ⟨.kamino, Bytes32.fill 1, 0⟩ ∧
      ((twoSources 100 200).rankAllSources (Bytes32.fill 9) 50).head? =
        some ⟨.kamino, Bytes32.fill 2, 0⟩ := by
  refine ⟨rfl, noTies_twoSources (by decide) (by decide), ?_, ?_⟩
  · decide +kernel
  · decide +kernel

end MultiSourceRouter

end Gyrfalcon
