import Mathlib.Data.List.Count
import Mathlib.Logic.Function.Basic

/-! # Reference counts

The count of an object is `none` once the object has been freed, which the release of the last
reference does. The books balance when every count is the number of the holders of the object and
of the references that somebody has in hand at the moment, the credit.
-/

namespace TcpServerLib.Machine

variable {κ : Type*} [DecidableEq κ]

namespace RefCount

/-- One more reference for every occurrence in a list. -/
def acquire (list : List κ) (count : κ → Option ℕ) : κ → Option ℕ :=
  fun k => (count k).map (· + list.count k)

def release (k : κ) (count : κ → Option ℕ) : κ → Option ℕ :=
  Function.update count k ((count k).bind fun n => if n ≤ 1 then none else some (n - 1))

end RefCount

def Balanced (count : κ → Option ℕ) (holders : κ → ℕ) (credit : List κ) : Prop :=
  ∀ k, (count k).getD 0 = holders k + credit.count k

namespace Balanced

variable {count : κ → Option ℕ} {holders : κ → ℕ} {credit : List κ} {k : κ}

/-- A freed object is held by nobody. -/
theorem freed (balanced : Balanced count holders credit) (gone : count k = none) :
    holders k = 0 ∧ credit.count k = 0 := by
  have balance := balanced k
  rw [gone, Option.getD_none] at balance
  exact Nat.add_eq_zero_iff.mp balance.symm

theorem alive (balanced : Balanced count holders credit) (held : 0 < holders k) : ∃ n, count k = some n := by
  cases found : count k with
  | none => exact absurd (balanced.freed found).1 (Nat.pos_iff_ne_zero.mp held)
  | some n => exact ⟨n, rfl⟩

/-- An object that has had a holder is freed exactly when it has none. -/
theorem freed_iff (balanced : Balanced count holders []) (had : count k ≠ some 0) :
    count k = none ↔ holders k = 0 := by
  constructor
  · exact fun gone => (balanced.freed gone).1
  · intro unheld
    have balance := balanced k
    rw [unheld, List.count_nil] at balance
    cases found : count k with
    | none => rfl
    | some n =>
      rw [found, Option.getD_some] at balance
      exact absurd (found.trans (congrArg some balance)) had

theorem acquire (balanced : Balanced count holders credit) {list : List κ}
    (alive : ∀ k ∈ list, ∃ n, count k = some n) :
    Balanced (RefCount.acquire list count) holders (list ++ credit) := by
  intro k
  rw [RefCount.acquire, List.count_append]
  have balance := balanced k
  cases found : count k with
  | none =>
    have absent : list.count k = 0 := by
      rw [List.count_eq_zero]
      intro member
      obtain ⟨n, found'⟩ := alive k member
      exact absurd (found.symm.trans found') (by simp)
    rw [found, Option.getD_none] at balance
    rw [Option.map_none, Option.getD_none, absent, Nat.zero_add, balance]
  | some n =>
    rw [found, Option.getD_some] at balance
    rw [Option.map_some, Option.getD_some, balance]
    omega

theorem release (balanced : Balanced count holders (k :: credit)) :
    Balanced (RefCount.release k count) holders credit := by
  intro j
  have balance := balanced j
  rw [RefCount.release, Function.update_apply]
  split_ifs with same
  · subst same
    rw [List.count_cons_self] at balance
    cases found : count j with
    | none =>
      rw [found, Option.getD_none] at balance
      omega
    | some n =>
      rw [found, Option.getD_some] at balance
      rw [Option.bind_some]
      split_ifs with last
      · rw [Option.getD_none]
        omega
      · rw [Option.getD_some]
        omega
  · rwa [List.count_cons_of_ne (Ne.symm same)] at balance

/-- References go from holders into the credit and back. -/
theorem transfer (balanced : Balanced count holders credit) {holders' : κ → ℕ} {credit' : List κ}
    (moved : ∀ k, holders' k + credit'.count k = holders k + credit.count k) :
    Balanced count holders' credit' := by
  intro k
  rw [moved]
  exact balanced k

end Balanced

end TcpServerLib.Machine
