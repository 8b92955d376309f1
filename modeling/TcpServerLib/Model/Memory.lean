import Mathlib.Algebra.Group.Nat.Defs
import TcpServerLib.Machine.CircularQueue

/-! # Byte blocks and 16-bit counters

The ring and the demarcars copy with `memcpy` and count in `uint16_t`. Both are executed with
their obligations checked: a copy that leaves one of its two blocks, and a sum or difference that
wraps, stop the program with the trap that names what went wrong. A run that ends in no trap is
therefore a run of the C code in which nothing of the kind happened.
-/

namespace TcpServerLib.Model

open Machine

abbrev Bytes := List UInt8

inductive Trap where
  | outOfBounds
  | wrap
  | divideByZero
  | assertion
deriving DecidableEq, Repr

def addU16 (a b : UInt16) : Except Trap UInt16 :=
  if a.toNat + b.toNat < 2 ^ 16 then .ok (a + b) else .error .wrap

def subU16 (a b : UInt16) : Except Trap UInt16 :=
  if b ≤ a then .ok (a - b) else .error .wrap

/-- `memcpy (&dst[d], &src[s], n)`. -/
def memcpy (dst : Bytes) (d : ℕ) (src : Bytes) (s n : ℕ) : Except Trap Bytes :=
  if d + n ≤ dst.length ∧ s + n ≤ src.length then .ok (splice dst d ((src.drop s).take n))
  else .error .outOfBounds

theorem addU16_ok {a b : UInt16} (small : a.toNat + b.toNat < 2 ^ 16) :
    ∃ c, addU16 a b = .ok c ∧ c.toNat = a.toNat + b.toNat :=
  ⟨a + b, if_pos small, by rw [UInt16.toNat_add, Nat.mod_eq_of_lt small]⟩

theorem subU16_ok {a b : UInt16} (ordered : b.toNat ≤ a.toNat) :
    ∃ c, subU16 a b = .ok c ∧ c.toNat = a.toNat - b.toNat :=
  ⟨a - b, if_pos ordered, UInt16.toNat_sub_of_le _ _ ordered⟩

theorem memcpy_ok {dst src : Bytes} {d s n : ℕ} (inside : d + n ≤ dst.length)
    (source : s + n ≤ src.length) : memcpy dst d src s n = .ok (splice dst d ((src.drop s).take n)) :=
  if_pos ⟨inside, source⟩

theorem memcpy_overflows {dst src : Bytes} {d s n : ℕ} (outside : dst.length < d + n) :
    memcpy dst d src s n = .error .outOfBounds :=
  if_neg fun inside => by omega

end TcpServerLib.Model
