import TcpServerLib.Machine.CString

/-! # Addresses in dotted decimal

Four octets with dots between them, each in decimal and without leading zeros.
-/

namespace TcpServerLib.Machine

/-- The octet that a text stands for. -/
def readOctet (text : List UInt8) : Option UInt8 :=
  if text ≠ [] ∧ text.all isDigit ∧ (text.head? = some 48 → text = [48]) ∧ readDigits text < 256 then
    some (UInt8.ofNat (readDigits text))
  else none

/-- The address with these octets, the most significant one first. -/
def address (a b c d : UInt8) : UInt32 :=
  UInt32.ofNat (a.toNat * 16777216 + b.toNat * 65536 + c.toNat * 256 + d.toNat)

/-- The address that a text stands for. -/
def inetPton (text : List UInt8) : Option UInt32 :=
  match (text.splitOn 46).map readOctet with
  | [some a, some b, some c, some d] => some (address a b c d)
  | _ => none

/-- An address as it is usually written. -/
def dotted (a b c d : UInt8) : List UInt8 :=
  [46].intercalate [decimal a.toNat, decimal b.toNat, decimal c.toNat, decimal d.toNat]

/-- Only zero begins with the digit zero. -/
theorem decimal_leading {n : ℕ} (leading : (decimal n).head? = some 48) : decimal n = [48] := by
  rw [decimal] at leading ⊢
  split
  · rfl
  · next positive =>
    rw [if_neg positive] at leading
    exfalso
    have nonempty : Nat.digits 10 n ≠ [] := Nat.digits_ne_nil_iff_ne_zero.mpr positive
    rw [List.head?_map, List.head?_reverse, List.getLast?_eq_some_getLast nonempty, Option.map_some] at leading
    have small : (Nat.digits 10 n).getLast nonempty < 10 :=
      Nat.digits_lt_base (by decide) (List.getLast_mem nonempty)
    have value := toNat_digit small
    rw [Option.some.inj leading] at value
    have nonzero := Nat.getLast_digit_ne_zero 10 positive
    have zero : (48 : UInt8).toNat = 48 := rfl
    omega

theorem readOctet_decimal (octet : UInt8) : readOctet (decimal octet.toNat) = some octet := by
  rw [readOctet, readDigits_decimal, if_pos, UInt8.ofNat_toNat]
  exact ⟨decimal_ne_nil _, List.all_eq_true.mpr (decimal_digits _), decimal_leading, octet.toNat_lt⟩

/-- An address that is written as usual is read back. -/
theorem inetPton_dotted (a b c d : UInt8) : inetPton (dotted a b c d) = some (address a b c d) := by
  have apart : ∀ text ∈ [decimal a.toNat, decimal b.toNat, decimal c.toNat, decimal d.toNat],
      (46 : UInt8) ∉ text := by
    have digits (n : ℕ) : (46 : UInt8) ∉ decimal n :=
      fun member => absurd (decimal_digits n 46 member) (by decide)
    intro text member
    simp only [List.mem_cons, List.not_mem_nil, or_false] at member
    rcases member with rfl | rfl | rfl | rfl <;> exact digits _
  rw [inetPton, dotted, List.splitOn_intercalate 46 apart (List.cons_ne_nil _ _)]
  simp only [List.map_cons, List.map_nil, readOctet_decimal]

end TcpServerLib.Machine
