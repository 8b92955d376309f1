import Mathlib.Data.List.TakeWhile
import Mathlib.Data.Nat.Digits.Lemmas
import Mathlib.Tactic.Common

/-! # Strings in fields of fixed size

A field of `n` bytes holds a string of fewer than `n`, with zeros behind it. Numbers are written
into such fields in decimal and read back from them.
-/

namespace TcpServerLib.Machine

/-- A string that a field of `n` bytes has room for, with its terminator. -/
structure CString (n : ℕ) where
  bytes : List UInt8
  fits : bytes.length < n
  noNul : 0 ∉ bytes
deriving DecidableEq

def pad (n : ℕ) (s : List UInt8) : List UInt8 :=
  s ++ List.replicate (n - s.length) 0

/-- The string that starts at the first byte of a field. -/
def unpad (field : List UInt8) : List UInt8 :=
  field.takeWhile (· ≠ 0)

theorem length_pad {n : ℕ} {s : List UInt8} (fits : s.length ≤ n) : (pad n s).length = n := by
  rw [pad, List.length_append, List.length_replicate]
  omega

theorem unpad_pad {n : ℕ} {s : List UInt8} (noNul : 0 ∉ s) : unpad (pad n s) = s := by
  have kept : ∀ byte ∈ s, decide (byte ≠ 0) = true := by
    intro byte member
    refine decide_eq_true ?_
    rintro rfl
    exact noNul member
  rw [unpad, pad, List.takeWhile_append_of_pos kept, List.takeWhile_replicate]
  simp

/-- The `i`-th unit of `size` bytes. -/
def unit (size : ℕ) (buffer : List UInt8) (i : ℕ) : List UInt8 :=
  (buffer.drop (size * i)).take size

theorem unit_flatMap {α : Type*} {size : ℕ} {encode : α → List UInt8}
    (sized : ∀ a, (encode a).length = size)
    {list : List α} {i : ℕ} (within : i < list.length) (rest : List UInt8) :
    unit size (list.flatMap encode ++ rest) i = encode (list.get ⟨i, within⟩) := by
  induction list generalizing i with
  | nil => exact absurd within (Nat.not_lt_zero i)
  | cons a list ih =>
    rw [List.flatMap_cons, List.append_assoc]
    cases i with
    | zero =>
      rw [unit, Nat.mul_zero, List.drop_zero, ← sized a, List.take_left]
      rfl
    | succ i =>
      have skipped : size * (i + 1) = (encode a).length + size * i := by rw [sized]; ring
      rw [unit, skipped, List.drop_length_add_append]
      exact ih (Nat.lt_of_succ_lt_succ within)

theorem length_flatMap_sized {α : Type*} {size : ℕ} {encode : α → List UInt8}
    (sized : ∀ a, (encode a).length = size)
    (list : List α) : (list.flatMap encode).length = size * list.length := by
  induction list with
  | nil => rfl
  | cons a list ih =>
    rw [List.flatMap_cons, List.length_append, ih, sized, List.length_cons]
    ring

/-- The digits of a number, as `printf` writes them. -/
def decimal (n : ℕ) : List UInt8 :=
  if n = 0 then [48] else (Nat.digits 10 n).reverse.map fun digit => 48 + UInt8.ofNat digit

/-- `sprintf (.., "%d", n)`. -/
def sprintfD (n : ℤ) : List UInt8 :=
  if n < 0 then 45 :: decimal n.natAbs else decimal n.natAbs

def isDigit (byte : UInt8) : Bool :=
  48 ≤ byte && byte ≤ 57

/-- The number that leading digits denote. -/
def readDigits (s : List UInt8) : ℕ :=
  (s.takeWhile isDigit).foldl (fun n byte => 10 * n + (byte.toNat - 48)) 0

/-- `atoi`, on a string that does not begin with white space. -/
def atoi : List UInt8 → ℤ
  | 45 :: s => -(readDigits s : ℤ)
  | 43 :: s => readDigits s
  | s => readDigits s

theorem toNat_digit {digit : ℕ} (small : digit < 10) : (48 + UInt8.ofNat digit).toNat = 48 + digit := by
  have zero : (48 : UInt8).toNat = 48 := rfl
  rw [UInt8.toNat_add, UInt8.toNat_ofNat', zero]
  omega

theorem isDigit_digit {digit : ℕ} (small : digit < 10) : isDigit (48 + UInt8.ofNat digit) = true := by
  have value := toNat_digit small
  rw [isDigit, Bool.and_eq_true, decide_eq_true_iff, decide_eq_true_iff, UInt8.le_iff_toNat_le,
    UInt8.le_iff_toNat_le, value]
  exact ⟨Nat.le_add_right 48 digit, by change 48 + digit ≤ 57; omega⟩

/-- Digits read from the most significant one on. -/
theorem foldl_digits (digits : List ℕ) (small : ∀ digit ∈ digits, digit < 10) :
    (digits.reverse.map fun digit => 48 + UInt8.ofNat digit).foldl (fun n byte => 10 * n + (byte.toNat - 48)) 0 =
      Nat.ofDigits 10 digits := by
  rw [List.map_reverse, List.foldl_reverse]
  induction digits with
  | nil => rfl
  | cons digit digits ih =>
    rw [List.map_cons, List.foldr_cons, ih fun d member => small d (List.mem_cons_of_mem _ member),
      Nat.ofDigits_cons, toNat_digit (small digit List.mem_cons_self)]
    omega

theorem decimal_digits (n : ℕ) : ∀ byte ∈ decimal n, isDigit byte = true := by
  intro byte member
  rw [decimal] at member
  split at member
  · rw [List.mem_singleton.mp member]
    rfl
  · obtain ⟨digit, among, rfl⟩ := List.mem_map.mp member
    exact isDigit_digit (Nat.digits_lt_base (by decide) (List.mem_reverse.mp among))

theorem readDigits_decimal (n : ℕ) : readDigits (decimal n) = n := by
  rw [readDigits, List.takeWhile_eq_self_iff.mpr (decimal_digits n), decimal]
  split
  · next zero => rw [zero]; rfl
  · rw [foldl_digits _ fun digit member => Nat.digits_lt_base (by decide) member, Nat.ofDigits_digits]

theorem decimal_ne_nil (n : ℕ) : decimal n ≠ [] := by
  rw [decimal]
  split
  · exact List.cons_ne_nil _ _
  · next positive =>
    intro empty
    rw [List.map_eq_nil_iff, List.reverse_eq_nil_iff, Nat.digits_eq_nil_iff_eq_zero] at empty
    exact positive empty

theorem atoi_digits {s : List UInt8} (digits : ∀ byte ∈ s, isDigit byte = true) : atoi s = readDigits s := by
  unfold atoi
  split
  · exact absurd (digits 45 List.mem_cons_self) (by decide)
  · exact absurd (digits 43 List.mem_cons_self) (by decide)
  · rfl

/-- A number that is written is read back. -/
theorem atoi_sprintfD (n : ℤ) : atoi (sprintfD n) = n := by
  rw [sprintfD]
  split
  · next negative =>
    rw [atoi, readDigits_decimal]
    omega
  · rw [atoi_digits (decimal_digits n.natAbs), readDigits_decimal]
    omega

theorem sprintfD_noNul (n : ℤ) : 0 ∉ sprintfD n := by
  have digits (n : ℕ) : 0 ∉ decimal n := fun member => absurd (decimal_digits n 0 member) (by decide)
  rw [sprintfD]
  split
  · rintro (_ | ⟨_, member⟩)
    exact digits _ member
  · exact digits _

/-- A 32-bit number takes at most eleven characters. -/
theorem length_sprintfD {n : ℤ} (small : n.natAbs ≤ 2 ^ 31) : (sprintfD n).length ≤ 11 := by
  have digits : (decimal n.natAbs).length ≤ 10 := by
    rw [decimal]
    split
    · exact Nat.le_of_ble_eq_true rfl
    · rw [List.length_map, List.length_reverse]
      exact (Nat.digits_length_le_iff (by decide) n.natAbs).mpr (by omega)
  rw [sprintfD]
  split
  · exact Nat.succ_le_succ digits
  · exact Nat.le_succ_of_le digits

end TcpServerLib.Machine
