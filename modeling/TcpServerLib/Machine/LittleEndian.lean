import Mathlib.Algebra.Order.Ring.Nat
import Mathlib.Tactic.Common
import Mathlib.Tactic.Ring

/-! # Numbers in memory

The bytes of a number, the lowest first.
-/

namespace TcpServerLib.Machine

def encodeLE : ℕ → ℕ → List UInt8
  | 0, _ => []
  | width + 1, n => UInt8.ofNat n :: encodeLE width (n / 256)

def decodeLE : List UInt8 → ℕ
  | [] => 0
  | byte :: bytes => byte.toNat + 256 * decodeLE bytes

@[simp] theorem length_encodeLE (width n : ℕ) : (encodeLE width n).length = width := by
  induction width generalizing n with
  | zero => rfl
  | succ width ih => rw [encodeLE, List.length_cons, ih]

theorem decodeLE_encodeLE {width n : ℕ} (small : n < 256 ^ width) : decodeLE (encodeLE width n) = n := by
  induction width generalizing n with
  | zero =>
    rw [pow_zero] at small
    rw [encodeLE, decodeLE]
    omega
  | succ width ih =>
    have higher : n / 256 < 256 ^ width := Nat.div_lt_of_lt_mul (by rwa [← pow_succ'])
    have lowest : (UInt8.ofNat n).toNat = n % 256 := UInt8.toNat_ofNat'
    rw [encodeLE, decodeLE, ih higher, lowest]
    exact Nat.mod_add_div n 256

end TcpServerLib.Machine
