import Mathlib.Data.List.Basic
import Mathlib.Tactic.Ring

/-!
# Byte readers

Little-endian integers and readers that consume a prefix of a byte string.
`Reads r bytes a` says that `r` reads `a` off `bytes` and leaves whatever
follows untouched; the rules below compose such facts along a `do` block.
-/

namespace ByteCodec

/-! ## Little-endian integers -/

/-- The `w` low bytes of `n`, lowest first. -/
def leBytes : Nat → Nat → List UInt8
  | 0, _ => []
  | w + 1, n => UInt8.ofNat n :: leBytes w (n / 256)

/-- The number whose bytes are `bytes`, lowest first. -/
def leVal : List UInt8 → Nat
  | [] => 0
  | b :: bytes => b.toNat + 256 * leVal bytes

@[simp] theorem length_leBytes (w n : Nat) : (leBytes w n).length = w := by
  induction w generalizing n with
  | zero => rfl
  | succ w ih => simp [leBytes, ih]

theorem leVal_leBytes (w n : Nat) : leVal (leBytes w n) = n % 256 ^ w := by
  induction w generalizing n with
  | zero => simp [leBytes, leVal, Nat.mod_one]
  | succ w ih =>
    rw [leBytes, leVal, ih, pow_succ, mul_comm (256 ^ w), Nat.mod_mul]
    simp

theorem leVal_lt (bytes : List UInt8) : leVal bytes < 256 ^ bytes.length := by
  induction bytes with
  | nil => simp [leVal]
  | cons b bytes ih =>
    have hb := b.toNat_lt
    rw [leVal, List.length_cons, pow_succ]
    omega

theorem leBytes_leVal (bytes : List UInt8) : leBytes bytes.length (leVal bytes) = bytes := by
  induction bytes with
  | nil => rfl
  | cons b bytes ih =>
    have hb := b.toNat_lt
    have hdiv : (b.toNat + 256 * leVal bytes) / 256 = leVal bytes := by omega
    have hlow : UInt8.ofNat (b.toNat + 256 * leVal bytes) = b := by
      rw [← UInt8.toNat_inj, UInt8.toNat_ofNat']
      omega
    rw [List.length_cons, leVal, leBytes, hlow, hdiv, ih]

/-! ## Readers -/

/-- A reader takes a prefix of the input or fails. -/
abbrev Reader (E α : Type) := StateT (List UInt8) (Except E) α

variable {E α β : Type}

/-- The next byte. -/
def readByte (e : E) : Reader E UInt8 := fun input =>
  match input with
  | [] => .error e
  | b :: rest => .ok (b, rest)

/-- The next `n` bytes. -/
def readBytes (n : Nat) (e : E) : Reader E { bytes : List UInt8 // bytes.length = n } :=
  fun input =>
    if h : input.length < n then .error e
    else .ok (⟨input.take n, by simp; omega⟩, input.drop n)

/-- `r` reads `a` off `bytes`, whatever follows. -/
def Reads (r : Reader E α) (bytes : List UInt8) (a : α) : Prop :=
  ∀ rest, r.run (bytes ++ rest) = .ok (a, rest)

theorem Reads.pure (a : α) : Reads (pure a : Reader E α) [] a := fun _ => rfl

theorem Reads.bind {r : Reader E α} {f : α → Reader E β} {bytes bytes' : List UInt8} {a : α}
    {b : β} (hr : Reads r bytes a) (hf : Reads (f a) bytes' b) :
    Reads (r >>= f) (bytes ++ bytes') b := by
  intro rest
  rw [StateT.run_bind, List.append_assoc, hr (bytes' ++ rest)]
  exact hf rest

/-- A read followed by a step that consumes nothing. -/
theorem Reads.bind_nil {r : Reader E α} {f : α → Reader E β} {bytes : List UInt8} {a : α} {b : β}
    (hr : Reads r bytes a) (hf : Reads (f a) [] b) : Reads (r >>= f) bytes b := by
  have h := hr.bind hf
  rw [List.append_nil] at h
  exact h

/-- The last read of a block. -/
theorem Reads.map {r : Reader E α} {bytes : List UInt8} {a : α} (g : α → β)
    (hr : Reads r bytes a) : Reads (r >>= fun a => Pure.pure (g a)) bytes (g a) :=
  hr.bind_nil (Reads.pure (g a))

theorem reads_readByte (e : E) (b : UInt8) : Reads (readByte e) [b] b := fun _ => rfl

theorem reads_readBytes {n : Nat} (e : E) (bytes : List UInt8) (h : bytes.length = n) :
    Reads (readBytes n e) bytes ⟨bytes, h⟩ := by
  intro rest
  have hlen : ¬ (bytes ++ rest).length < n := by simp [h]
  have htake : (bytes ++ rest).take n = bytes := List.take_left' h
  have hdrop : (bytes ++ rest).drop n = rest := List.drop_left' h
  simp only [readBytes, StateT.run, hlen, ↓reduceDIte, htake, hdrop]

end ByteCodec
