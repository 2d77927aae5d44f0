import Mathlib.Algebra.Order.Field.Basic
import Mathlib.Algebra.Order.Field.Rat
import Mathlib.Data.Int.Order.Basic
import Mathlib.Tactic.FieldSimp
import Mathlib.Tactic.Linarith
import Mathlib.Tactic.Ring

/-!
# Shares in a pool

A pool holds a total, in units of `1 / w`, and has issued shares.  Shares are
bought and redeemed at a rate that is rounded down: buying rounds in favour of
the pool, redeeming against it, by what `Fair` allows, and `Kept` sums this up
over any number of steps.  Debts are shares too, in units of an index that grows
with the interest: the last part is how far they drift from their total.
-/

namespace Shares

/-! ## Buying and redeeming at a rounded rate -/

section Rounding

variable {w total shares : Nat}

/-- The shares for an amount, at the rate of `shares` to `total` or below it. -/
theorem minted_le {rate : Nat} (amount : Nat) (hw : 0 < w) (hrate : rate * total ≤ w * shares * w) :
    w * amount * rate / w / w * total ≤ amount * w * shares := by
  refine Nat.le_of_mul_le_mul_right ?_ hw
  have hexact : w * amount * rate / w = amount * rate := by
    rw [mul_assoc, Nat.mul_div_cancel_left _ hw]
  rw [hexact]
  calc amount * rate / w * total * w = amount * rate / w * w * total := by ring
    _ ≤ amount * rate * total := Nat.mul_le_mul_right _ (Nat.div_mul_le_self _ _)
    _ = amount * (rate * total) := by ring
    _ ≤ amount * (w * shares * w) := Nat.mul_le_mul_left _ hrate
    _ = amount * w * shares * w := by ring

/-- The amount for shares, at the rate of `shares` to `total` or less than one below it. -/
theorem paid_le {rate : Nat} (burned : Nat) (hw : 0 < w)
    (hrate : w * shares * w < (rate + 1) * total) :
    w * burned * w / rate / w * (w * shares * w) ≤
      (burned * w + w * burned * w / rate / w) * total := by
  obtain ⟨paid, hpaid⟩ : ∃ paid, w * burned * w / rate / w = paid := ⟨_, rfl⟩
  rw [hpaid]
  have hle : paid * rate ≤ burned * w := by
    refine Nat.le_of_mul_le_mul_right ?_ hw
    calc paid * rate * w = paid * w * rate := by ring
      _ ≤ w * burned * w / rate * rate :=
        Nat.mul_le_mul_right _ (hpaid ▸ Nat.div_mul_le_self _ _)
      _ ≤ w * burned * w := Nat.div_mul_le_self _ _
      _ = burned * w * w := by ring
  calc paid * (w * shares * w) ≤ paid * ((rate + 1) * total) := Nat.mul_le_mul_left _ hrate.le
    _ = (paid * rate + paid) * total := by ring
    _ ≤ (burned * w + paid) * total := Nat.mul_le_mul_right _ (Nat.add_le_add_right hle _)

/-- **A round trip.**  Shares bought for an amount no larger than they are worth
redeem for no more than the amount. -/
theorem roundTrip_le {amount minted paid total' shares' : Nat} (hw : 0 < w)
    (hshares : 0 < shares') (hminted : minted * total' ≤ amount * w * shares')
    (hpaid : paid * (w * shares' * w) ≤ (minted * w + paid) * total')
    (hsmall : amount * (amount + 1) < minted * w) : paid ≤ amount := by
  by_contra hmore
  have hlt : amount + 1 ≤ paid := Nat.lt_of_not_le hmore
  have hfree : paid * (minted * w) ≤ (minted * w + paid) * amount := by
    refine Nat.le_of_mul_le_mul_right ?_ (Nat.mul_pos hw hshares)
    calc paid * (minted * w) * (w * shares') = minted * (paid * (w * shares' * w)) := by ring
      _ ≤ minted * ((minted * w + paid) * total') := Nat.mul_le_mul_left _ hpaid
      _ = (minted * w + paid) * (minted * total') := by ring
      _ ≤ (minted * w + paid) * (amount * w * shares') := Nat.mul_le_mul_left _ hminted
      _ = (minted * w + paid) * amount * (w * shares') := by ring
  obtain ⟨excess, rfl⟩ := Nat.exists_eq_add_of_le hlt
  have hexcess : excess * amount ≤ excess * (minted * w) :=
    Nat.mul_le_mul_left _ (le_trans (Nat.le_mul_of_pos_right _ (Nat.succ_pos _)) hsmall.le)
  linarith

end Rounding

/-! ## Steps and runs -/

/-- What a pool holds and the shares it has issued. -/
structure Pool where
  total : Int
  shares : Int

variable {w : Int} {p q r : Pool}

/-- A step that pays out `paid` lowers the price of a share by at most the part
`paid / (w * shares)` of it. -/
def Fair (w paid : Int) (p q : Pool) : Prop :=
  p.total * (q.shares * w - paid) ≤ q.total * p.shares * w

/-- A step that adds to the total and issues nothing. -/
theorem Fair.of_le (hw : 0 ≤ w) (hshares : 0 ≤ p.shares) (hissued : q.shares = p.shares)
    (htotal : p.total ≤ q.total) : Fair w 0 p q := by
  unfold Fair
  rw [hissued, sub_zero]
  calc p.total * (p.shares * w) ≤ q.total * (p.shares * w) :=
        mul_le_mul_of_nonneg_right htotal (mul_nonneg hshares hw)
    _ = q.total * p.shares * w := by ring

/-- Shares that are given up for nothing. -/
theorem Fair.of_burn (hw : 0 ≤ w) (hpos : 0 ≤ p.total) (htotal : q.total = p.total)
    (hshares : q.shares ≤ p.shares) : Fair w 0 p q := by
  unfold Fair
  rw [htotal, sub_zero, mul_assoc]
  exact mul_le_mul_of_nonneg_left (mul_le_mul_of_nonneg_right hshares hw) hpos

/-- Shares that are bought below their worth. -/
theorem Fair.of_mint {amount minted : Int} (hw : 0 ≤ w) (htotal : q.total = p.total + amount * w)
    (hshares : q.shares = p.shares + minted) (h : minted * p.total ≤ amount * w * p.shares) :
    Fair w 0 p q := by
  unfold Fair
  rw [htotal, hshares, sub_zero]
  calc p.total * ((p.shares + minted) * w) = (p.total * p.shares + minted * p.total) * w := by ring
    _ ≤ (p.total * p.shares + amount * w * p.shares) * w :=
      mul_le_mul_of_nonneg_right (add_le_add_right h _) hw
    _ = (p.total + amount * w) * p.shares * w := by ring

/-- Shares that are redeemed above their worth by what rounding allows. -/
theorem Fair.of_redeem {paid : Int} (burned : Int) (htotal : q.total = p.total - w * paid)
    (hshares : q.shares = p.shares - burned)
    (h : paid * (w * p.shares * w) ≤ (burned * w + paid) * p.total) : Fair w paid p q := by
  unfold Fair
  rw [htotal, hshares]
  linarith

/-- The price has fallen from that of `p` by at most the part `paid / (w * floor)`. -/
def Kept (w floor paid : Int) (p q : Pool) : Prop :=
  0 < q.total ∧ p.total * q.shares * (floor * w - paid) ≤ q.total * p.shares * (floor * w)

theorem Kept.refl {floor : Int} (h : 0 < p.total) : Kept w floor 0 p p :=
  ⟨h, le_of_eq (by ring)⟩

/-- **One more step.** -/
theorem Kept.step {floor paid more : Int} (hw : 0 < w) (hstart : 0 < p.total)
    (hp : 0 ≤ p.shares) (hpaid : 0 ≤ paid) (hmore : 0 ≤ more) (hfloor : 0 < floor)
    (hq : floor ≤ q.shares) (hr : floor ≤ r.shares) (hlt : paid + more < floor * w)
    (h : Kept w floor paid p q) (hfair : Fair w more q r) : Kept w floor (paid + more) p r := by
  obtain ⟨htotal, hkept⟩ := h
  unfold Fair at hfair
  have hqpos : 0 < q.shares := lt_of_lt_of_le hfloor hq
  have hscale : floor * w ≤ r.shares * w := mul_le_mul_of_nonneg_right hr hw.le
  have hleft : 0 < r.shares * w - more := by linarith
  have hnext : 0 < r.total := by
    have hprod : 0 < r.total * (q.shares * w) := by
      rw [← mul_assoc]
      exact lt_of_lt_of_le (mul_pos htotal hleft) hfair
    exact pos_of_mul_pos_left hprod (mul_pos hqpos hw).le
  refine ⟨hnext, ?_⟩
  refine le_of_mul_le_mul_right ?_ (mul_pos hqpos hw)
  have hparts : r.shares * w * (floor * w - (paid + more)) ≤
      (floor * w - paid) * (r.shares * w - more) := by
    have hprod : 0 ≤ more * (r.shares * w - floor * w + paid) :=
      mul_nonneg hmore (by linarith)
    linarith
  calc p.total * r.shares * (floor * w - (paid + more)) * (q.shares * w)
      = p.total * q.shares * (r.shares * w * (floor * w - (paid + more))) := by ring
    _ ≤ p.total * q.shares * ((floor * w - paid) * (r.shares * w - more)) :=
      mul_le_mul_of_nonneg_left hparts (mul_pos hstart hqpos).le
    _ = p.total * q.shares * (floor * w - paid) * (r.shares * w - more) := by ring
    _ ≤ q.total * p.shares * (floor * w) * (r.shares * w - more) :=
      mul_le_mul_of_nonneg_right hkept hleft.le
    _ = q.total * (r.shares * w - more) * (p.shares * (floor * w)) := by ring
    _ ≤ r.total * q.shares * w * (p.shares * (floor * w)) :=
      mul_le_mul_of_nonneg_right hfair (mul_nonneg hp (mul_pos hfloor hw).le)
    _ = r.total * p.shares * (floor * w) * (q.shares * w) := by ring

/-! ## Debts against an index -/

section Index

variable {w : Nat}

/-- **One accrual.**  A total and an index that grow by the same rate, each rounded
down, drift apart by at most one unit. -/
theorem ratio_le_grown (total : Nat) {index rate : Nat} (hw : 0 < w) (hindex : w ≤ index)
    (hrate : w ≤ rate) :
    (total : ℚ) / index ≤ (total * rate / w : Nat) / (index * rate / w : Nat) + 1 / w := by
  obtain ⟨total', htotal'⟩ : ∃ total', total * rate / w = total' := ⟨_, rfl⟩
  obtain ⟨index', hindex'⟩ : ∃ index', index * rate / w = index' := ⟨_, rfl⟩
  rw [htotal', hindex']
  have hlost : total * rate < w * (total' + 1) := htotal' ▸ Nat.lt_mul_div_succ _ hw
  have hfloor : index' * w ≤ index * rate := hindex' ▸ Nat.div_mul_le_self _ _
  have hgrown : w ≤ index' := by
    rw [← hindex', Nat.le_div_iff_mul_le hw]
    exact Nat.mul_le_mul hindex hrate
  have hcross : total * (index' * w) ≤ (total' * w + index') * index := by
    calc total * (index' * w) ≤ total * (index * rate) := Nat.mul_le_mul_left _ hfloor
      _ = index * (total * rate) := by ring
      _ ≤ index * (w * (total' + 1)) := Nat.mul_le_mul_left _ hlost.le
      _ = (total' * w + w) * index := by ring
      _ ≤ (total' * w + index') * index :=
        Nat.mul_le_mul_right _ (Nat.add_le_add_left hgrown _)
  have hw' : (0 : ℚ) < w := by exact_mod_cast hw
  have hi : (0 : ℚ) < index := by exact_mod_cast hw.trans_le hindex
  have hi' : (0 : ℚ) < index' := by exact_mod_cast hw.trans_le hgrown
  have hsum : (total' : ℚ) / index' + 1 / w = (total' * w + index') / (index' * w) := by
    field_simp
  rw [hsum, div_le_div_iff₀ hi (mul_pos hi' hw')]
  exact_mod_cast hcross

/-- **Catching up.**  A debt that follows the index by their rounded ratio is not a
larger share than before. -/
theorem caughtUp_le {debt index index' : Nat} (hw : 0 < w) (hindex : 0 < index)
    (hle : index ≤ index') :
    ((debt * (index' * w / index) / w : Nat) : ℚ) / index' ≤ (debt : ℚ) / index := by
  have hcross : debt * (index' * w / index) / w * index ≤ debt * index' := by
    refine Nat.le_of_mul_le_mul_right ?_ hw
    calc debt * (index' * w / index) / w * index * w
        = debt * (index' * w / index) / w * w * index := by ring
      _ ≤ debt * (index' * w / index) * index :=
        Nat.mul_le_mul_right _ (Nat.div_mul_le_self _ _)
      _ = debt * (index' * w / index * index) := by ring
      _ ≤ debt * (index' * w) := Nat.mul_le_mul_left _ (Nat.div_mul_le_self _ _)
      _ = debt * index' * w := by ring
  have hi : (0 : ℚ) < index := by exact_mod_cast hindex
  have hi' : (0 : ℚ) < index' := by exact_mod_cast hindex.trans_le hle
  rw [div_le_div_iff₀ hi' hi]
  exact_mod_cast hcross

end Index

end Shares
