import Mathlib.Data.List.Sort

/-! # Glue threads

A glue thread is a doubly linked list through a field of its entries: the head stands for the list,
and an entry is in one list at most. A list model keeps the entries in their order; `remove_glthread`
erases the entry from whatever list it is in.
-/

namespace TcpServerLib.Model

variable {α : Type*}

/-- `glthread->right`, from an entry of the list. -/
def glthreadRight [DecidableEq α] (entry : α) (list : List α) : Option α :=
  (list.dropWhile (· ≠ entry)).tail.head?

/-- The loop of `glthread_priority_insert`: before the first entry that the new one compares less than. -/
def insertBeforeGreater (compFn : α → α → ℤ) (entry : α) : List α → List α
  | [] => [entry]
  | curr :: rest => if compFn entry curr ≠ -1 then curr :: insertBeforeGreater compFn entry rest
      else entry :: curr :: rest

def glthreadPriorityInsert (compFn : α → α → ℤ) (entry : α) : List α → List α
  | [] => [entry]
  | [only] => if compFn entry only = -1 then [entry, only] else [only, entry]
  | list => insertBeforeGreater compFn entry list

variable {compFn : α → α → ℤ} {entry : α} {list : List α}

/-- The special cases are what the loop does as well. -/
theorem glthreadPriorityInsert_eq : glthreadPriorityInsert compFn entry list =
    insertBeforeGreater compFn entry list := by
  match list with
  | [] => rfl
  | [only] =>
    rw [glthreadPriorityInsert, insertBeforeGreater, insertBeforeGreater, ite_not]
  | _ :: _ :: _ => rfl

/-- The new entry splits the list: it is less than the first entry behind it, and than none before it. -/
theorem glthreadPriorityInsert_split (compFn : α → α → ℤ) (entry : α) (list : List α) :
    ∃ before behind,
    list = before ++ behind ∧ glthreadPriorityInsert compFn entry list = before ++ entry :: behind ∧
      (∀ x ∈ before, compFn entry x ≠ -1) ∧ ∀ x ∈ behind.head?, compFn entry x = -1 := by
  rw [glthreadPriorityInsert_eq]
  induction list with
  | nil =>
    exact ⟨[], [], rfl, rfl, fun _ member => (List.not_mem_nil member).elim,
      fun _ member => by cases member⟩
  | cons curr rest ih =>
    by_cases less : compFn entry curr = -1
    · refine ⟨[], curr :: rest, rfl, if_neg (not_not.mpr less), fun _ member =>
        (List.not_mem_nil member).elim, ?_⟩
      intro x member
      cases member
      exact less
    · obtain ⟨before, behind, rfl, inserted, greater, head⟩ := ih
      refine ⟨curr :: before, behind, rfl, ?_, ?_, head⟩
      · rw [insertBeforeGreater, if_pos less, inserted, List.cons_append]
      · intro x member
        rcases List.mem_cons.mp member with rfl | member
        · exact less
        · exact greater x member

/-- An insertion compares the new entry with those of the list. -/
theorem map_glthreadPriorityInsert {β : Type*} {compFn' : β → β → ℤ} (f : α → β)
    (same : ∀ x, compFn' (f entry) (f x) = compFn entry x) :
    glthreadPriorityInsert compFn' (f entry) (list.map f) = (glthreadPriorityInsert compFn entry list).map f := by
  rw [glthreadPriorityInsert_eq, glthreadPriorityInsert_eq]
  induction list with
  | nil => rfl
  | cons curr rest ih =>
    rw [List.map_cons, insertBeforeGreater, insertBeforeGreater, same, ih]
    split_ifs <;> rfl

theorem perm_glthreadPriorityInsert : (glthreadPriorityInsert compFn entry list).Perm (entry :: list) := by
  obtain ⟨before, behind, rfl, inserted, _⟩ := glthreadPriorityInsert_split compFn entry list
  rw [inserted]
  exact List.perm_middle

@[simp] theorem mem_glthreadPriorityInsert {x : α} :
    x ∈ glthreadPriorityInsert compFn entry list ↔ x = entry ∨ x ∈ list := by
  rw [perm_glthreadPriorityInsert.mem_iff, List.mem_cons]

theorem nodup_glthreadPriorityInsert (new : entry ∉ list) (nodup : list.Nodup) :
    (glthreadPriorityInsert compFn entry list).Nodup :=
  perm_glthreadPriorityInsert.nodup_iff.mpr (List.nodup_cons.mpr ⟨new, nodup⟩)

/-- An insertion keeps the list in an order that the comparison decides. -/
theorem pairwise_glthreadPriorityInsert {r : α → α → Prop} (trans : ∀ x y z, r x y → r y z → r x z)
    (less : ∀ x, compFn entry x = -1 → r entry x) (other : ∀ x, compFn entry x ≠ -1 → r x entry)
    (sorted : list.Pairwise r) :
    (glthreadPriorityInsert compFn entry list).Pairwise r := by
  obtain ⟨before, behind, rfl, inserted, greater, head⟩ := glthreadPriorityInsert_split compFn entry list
  obtain ⟨first, second, across⟩ := List.pairwise_append.mp sorted
  rw [inserted]
  refine List.pairwise_append.mpr ⟨first, List.pairwise_cons.mpr ⟨?_, second⟩, ?_⟩
  · intro x member
    cases behind with
    | nil => cases member
    | cons next rest =>
      have next_less := less next (head next rfl)
      rcases List.mem_cons.mp member with rfl | member
      · exact next_less
      · exact trans _ _ _ next_less ((List.pairwise_cons.mp second).1 x member)
  · intro x member y there
    rcases List.mem_cons.mp there with rfl | there
    · exact other x (greater x member)
    · exact across x member y there

@[simp] theorem glthreadRight_head [DecidableEq α] : glthreadRight entry (entry :: list) = list.head? := by
  rw [glthreadRight, List.dropWhile_cons_of_neg (by simp), List.tail_cons]

theorem glthreadRight_append [DecidableEq α] {before behind : List α} (absent : entry ∉ before) :
    glthreadRight entry (before ++ entry :: behind) = behind.head? := by
  have skipped : ∀ x ∈ before, decide (x ≠ entry) = true := by
    intro x member
    apply decide_eq_true
    rintro rfl
    exact absent member
  rw [glthreadRight, List.dropWhile_append_of_pos skipped]
  exact glthreadRight_head

/-- The persons of `test.c`, who are compared by their ages. -/
structure Person where
  age : Int32

def seniorCitizen (p1 p2 : Person) : ℤ :=
  if p1.age = p2.age then 0
  else if p1.age < p2.age then 1
  else -1

end TcpServerLib.Model
