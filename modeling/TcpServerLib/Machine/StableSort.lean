import Mathlib.Algebra.Order.Group.Int
import Mathlib.Data.List.Sort

/-! # Stable sorting by insertion

An entry that is put into a sorted list behind all its equals makes the stable sort of some entries
into that of one entry more. Entries that are all different have one stable sort only.
-/

namespace TcpServerLib.Machine

variable {α β : Type*} {x y z : α} {l l' m m' : List α}

/-- A total preorder, told by three numbers. -/
structure ThreeWay (compFn : α → α → ℤ) : Prop where
  values : ∀ x y, compFn x y = -1 ∨ compFn x y = 0 ∨ compFn x y = 1
  swap : ∀ x y, compFn y x = -compFn x y
  trans : ∀ x y z, compFn x y ≤ 0 → compFn y z ≤ 0 → compFn x z ≤ 0

namespace ThreeWay

variable {compFn : α → α → ℤ} (comparison : ThreeWay compFn)
include comparison

theorem eq_neg_one_iff : compFn x y = -1 ↔ ¬ compFn y x ≤ 0 := by
  rw [comparison.swap x y]
  rcases comparison.values x y with value | value | value <;> rw [value] <;> decide

theorem total (x y : α) : compFn x y ≤ 0 ∨ compFn y x ≤ 0 := by
  rw [comparison.swap x y]
  omega

/-- The comparison of what the entries are compared by. -/
theorem comap (f : β → α) : ThreeWay fun x y => compFn (f x) (f y) :=
  ⟨fun x y => comparison.values (f x) (f y), fun x y => comparison.swap (f x) (f y),
    fun x y z => comparison.trans (f x) (f y) (f z)⟩

end ThreeWay

theorem pair_sublist_or (memberX : x ∈ l) (memberY : y ∈ l) (other : x ≠ y) : [x, y].Sublist l ∨
    [y, x].Sublist l := by
  obtain ⟨before, behind, rfl⟩ := List.append_of_mem memberX
  rcases List.mem_append.mp memberY with early | late
  · exact .inr ((List.singleton_sublist.mpr early).append (List.singleton_sublist.mpr List.mem_cons_self))
  · have late : y ∈ behind := (List.mem_cons.mp late).resolve_left other.symm
    exact .inl (List.sublist_append_of_sublist_right ((List.singleton_sublist.mpr late).cons_cons x))

theorem not_pair_sublist_swap (nodup : l.Nodup) (first : [x, y].Sublist l) : ¬ [y, x].Sublist l := by
  intro second
  induction l with
  | nil => cases first
  | cons a l ih =>
    obtain ⟨new, nodup⟩ := List.nodup_cons.mp nodup
    rcases List.sublist_cons_iff.mp first with within | ⟨_, headX, memberY⟩
    · rcases List.sublist_cons_iff.mp second with turned | ⟨_, headY, _⟩
      · exact ih nodup within turned
      · obtain rfl := (List.cons.inj headY).1
        exact new (within.subset (by simp))
    · obtain ⟨rfl, rfl⟩ := List.cons.inj headX
      rcases List.sublist_cons_iff.mp second with turned | ⟨_, headY, _⟩
      · exact new (turned.subset (by simp))
      · obtain rfl := (List.cons.inj headY).1
        exact new (List.singleton_sublist.mp memberY)

theorem pair_sublist_concat (pair : [x, y].Sublist (l ++ [z])) : [x, y].Sublist l ∨ x ∈ l ∧ y = z := by
  obtain ⟨first, second, split, early, late⟩ := List.sublist_append_iff.mp pair
  rcases List.sublist_singleton.mp late with rfl | rfl
  · rw [List.append_nil] at split
    exact .inl (split ▸ early)
  · have split : [x] ++ [y] = first ++ [z] := split
    obtain ⟨rfl, last⟩ := List.append_inj' split rfl
    exact .inr ⟨List.singleton_sublist.mp early, (List.cons.inj last).1⟩

variable {le : α → α → Bool} {new : α}

/-- `m` has the entries of `l` in order, and what may stay in its order has stayed. -/
structure IsStableSort (le : α → α → Bool) (l m : List α) : Prop where
  perm : m.Perm l
  sorted : m.Pairwise (le · ·)
  stable : ∀ x y, le x y → [x, y].Sublist l → [x, y].Sublist m

/-- `m` has come to be `m'` by one more entry. -/
structure StablyInserted (le : α → α → Bool) (new : α) (m m' : List α) : Prop where
  perm : m'.Perm (new :: m)
  sorted : m'.Pairwise (le · ·)
  order : m.Sublist m'
  behind : ∀ x ∈ m, le new x → le x new → [x, new].Sublist m'

theorem isStableSort_nil : IsStableSort le [] [] := ⟨.nil, .nil, fun _ _ _ pair => pair⟩

theorem isStableSort_mergeSort (trans : ∀ x y z, le x y → le y z → le x z)
    (total : ∀ x y, le x y || le y x) (l : List α) :
    IsStableSort le l (l.mergeSort le) :=
  ⟨List.mergeSort_perm l le, List.pairwise_mergeSort trans total l, fun _ _ =>
    List.pair_sublist_mergeSort trans total⟩

/-- One entry more at the end of the list. -/
theorem IsStableSort.concat (sort : IsStableSort le l m) (inserted : StablyInserted le new m m') :
    IsStableSort le (l ++ [new]) m' := by
  constructor
  · calc
      m'.Perm (new :: m) := inserted.perm
      List.Perm _ (new :: l) := sort.perm.cons new
      List.Perm _ (l ++ [new]) := (List.perm_append_singleton new l).symm
  · exact inserted.sorted
  · intro x y order pair
    rcases pair_sublist_concat pair with within | ⟨member, rfl⟩
    · exact (sort.stable x y order within).trans inserted.order
    · have member : x ∈ m := sort.perm.mem_iff.mpr member
      by_cases equal : le y x
      · exact inserted.behind x member equal order
      · have other : x ≠ y := by
          rintro rfl
          exact equal order
        have memberX : x ∈ m' := inserted.order.subset member
        have memberY : y ∈ m' := inserted.perm.mem_iff.mpr List.mem_cons_self
        refine (pair_sublist_or memberX memberY other).resolve_right fun turned => equal ?_
        exact List.pairwise_iff_forall_sublist.mp inserted.sorted turned

/-- What two entries of a stable sort are to each other, in terms of the entries as they were. -/
theorem IsStableSort.pairwise (sort : IsStableSort le l m) (nodup : l.Nodup) :
    m.Pairwise fun x y => le x y ∧ (le y x → [x, y].Sublist l) := by
  refine List.pairwise_iff_forall_sublist.mpr fun {x y} pair =>
    ⟨List.pairwise_iff_forall_sublist.mp sort.sorted pair, fun equal => ?_⟩
  have nodup' : m.Nodup := sort.perm.nodup_iff.mpr nodup
  have memberX : x ∈ l := sort.perm.mem_iff.mp (pair.subset (by simp))
  have memberY : y ∈ l := sort.perm.mem_iff.mp (pair.subset (by simp))
  have other : x ≠ y := by
    rintro rfl
    exact not_pair_sublist_swap nodup' pair pair
  refine (pair_sublist_or memberX memberY other).resolve_right fun turned => ?_
  exact not_pair_sublist_swap nodup' pair (sort.stable y x equal turned)

theorem IsStableSort.unique (sort : IsStableSort le l m) (sort' : IsStableSort le l m')
    (nodup : l.Nodup) : m = m' := by
  refine List.Perm.eq_of_pairwise ?_ (sort.pairwise nodup) (sort'.pairwise nodup)
    (sort.perm.trans sort'.perm.symm)
  intro x y _ _ first second
  exact (not_pair_sublist_swap nodup (first.2 second.1) (second.2 first.1)).elim

end TcpServerLib.Machine
