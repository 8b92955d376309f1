import Mathlib.Data.List.DropRight
import Mathlib.Data.List.TakeWhile
import Mathlib.Tactic.Common

/-! # Words and trimmed strings

The words of a string are its longest parts without separators. Joined with one separator between
each two of them, they are the words of the joined string again.
-/

namespace TcpServerLib.Machine

variable {α : Type*}

def trim (drop : α → Bool) (s : List α) : List α :=
  (s.rdropWhile drop).dropWhile drop

/-- Only what is to be dropped is missing from the ends, and none of it is left there. -/
structure Trimmed (drop : α → Bool) (s t : List α) : Prop where
  around : ∃ front back, s = front ++ t ++ back ∧ (∀ a ∈ front, drop a = true) ∧
    ∀ a ∈ back, drop a = true
  head : ∀ a ∈ t.head?, drop a = false
  last : ∀ a ∈ t.getLast?, drop a = false

section

variable {drop : α → Bool} {s t : List α}

theorem rdropWhile_of_last (last : ∀ a ∈ s.getLast?, drop a = false) : s.rdropWhile drop = s := by
  rw [List.rdropWhile_eq_self_iff]
  intro nonempty
  rw [last _ (List.getLast?_eq_some_getLast nonempty)]
  exact Bool.false_ne_true

theorem dropWhile_of_head (head : ∀ a ∈ s.head?, drop a = false) : s.dropWhile drop = s := by
  cases s with
  | nil => rfl
  | cons a s => rw [List.dropWhile_cons_of_neg (by rw [head a rfl]; exact Bool.false_ne_true)]

theorem trim_of_ends (head : ∀ a ∈ s.head?, drop a = false) (last : ∀ a ∈ s.getLast?, drop a = false) :
    trim drop s = s := by
  rw [trim, rdropWhile_of_last last, dropWhile_of_head head]

theorem trimmed_trim (drop : α → Bool) (s : List α) : Trimmed drop s (trim drop s) := by
  have split := List.takeWhile_append_dropWhile (p := drop) (l := s.rdropWhile drop)
  constructor
  · refine ⟨(s.rdropWhile drop).takeWhile drop, s.rtakeWhile drop, ?_, ?_, ?_⟩
    · rw [trim, split, List.rdropWhile_append_rtakeWhile]
    · exact fun a member => List.mem_takeWhile_imp member
    · exact fun a member => List.mem_rtakeWhile_imp member
  · intro a member
    have first := List.head?_dropWhile_not drop (s.rdropWhile drop)
    rw [show ((s.rdropWhile drop).dropWhile drop).head? = some a from member] at first
    simpa using first
  · intro a member
    have last : a ∈ (s.rdropWhile drop).getLast? := by
      rw [← split, List.getLast?_append, show ((s.rdropWhile drop).dropWhile drop).getLast? =
        some a from member]
      rfl
    obtain ⟨nonempty, rfl⟩ := List.mem_getLast?_eq_getLast last
    simpa using List.rdropWhile_last_not drop s nonempty

end

variable [DecidableEq α]

def words (sep : α) (s : List α) : List (List α) :=
  (s.splitOn sep).filter (· ≠ [])

def join (sep : α) (ws : List (List α)) : List α :=
  [sep].intercalate ws

section

variable {sep : α} {s w : List α}

@[simp] theorem words_nil (sep : α) : words sep [] = [] := rfl

@[simp] theorem words_sep (sep : α) (s : List α) : words sep (sep :: s) = words sep s := by
  have split : (sep :: s).splitOn sep = [] :: s.splitOn sep :=
    List.splitOn_append_cons_self_of_not_mem (List.not_mem_nil : sep ∉ ([] : List α)) s
  rw [words, split]
  rfl

theorem words_word (free : sep ∉ w) (nonempty : w ≠ []) : words sep w = [w] := by
  rw [words, List.splitOn_eq_singleton free]
  exact List.filter_cons_of_pos (by simpa using nonempty)

theorem words_word_sep (free : sep ∉ w) (nonempty : w ≠ []) (s : List α) :
    words sep (w ++ sep :: s) = w :: words sep s := by
  rw [words, List.splitOn_append_cons_self_of_not_mem free]
  exact List.filter_cons_of_pos (by simpa using nonempty)

/-- A string is empty, begins with a separator, is a word, or begins with a word and a separator. -/
theorem words_induction {motive : List α → Prop} (sep : α) (nil : motive [])
    (skip : ∀ s, motive s → motive (sep :: s)) (word : ∀ w, sep ∉ w → w ≠ [] → motive w)
    (more : ∀ w s, sep ∉ w → w ≠ [] → motive s → motive (w ++ sep :: s)) : ∀ s, motive s := by
  intro s
  induction length : s.length using Nat.strong_induction_on generalizing s with
  | _ n ih =>
    have split := List.takeWhile_append_dropWhile (p := (· ≠ sep)) (l := s)
    have free : sep ∉ s.takeWhile (· ≠ sep) := fun member => by simpa using List.mem_takeWhile_imp member
    match first : s.takeWhile (· ≠ sep), rest : s.dropWhile (· ≠ sep) with
    | w, [] =>
      rw [rest, List.append_nil] at split
      match s with
      | [] => exact nil
      | a :: s => exact word _ (split ▸ free) (by simp)
    | w, a :: others =>
      have same : a = sep := by
        have stopped := List.head?_dropWhile_not (· ≠ sep) s
        rw [rest] at stopped
        simpa using stopped
      have shorter : others.length < n := by
        rw [← length, ← split, rest, List.length_append, List.length_cons]
        omega
      rw [first, rest, same] at split
      rw [first] at free
      rw [← split]
      match w with
      | [] => exact skip _ (ih _ shorter _ rfl)
      | b :: w => exact more _ _ free (by simp) (ih _ shorter _ rfl)

theorem mem_words (member : w ∈ words sep s) : w ≠ [] ∧ sep ∉ w := by
  induction s using words_induction sep with
  | nil => cases member
  | skip s ih => exact ih (words_sep sep s ▸ member)
  | word w' free nonempty =>
    rw [words_word free nonempty, List.mem_singleton] at member
    exact ⟨member ▸ nonempty, member ▸ free⟩
  | more w' s free nonempty ih =>
    rw [words_word_sep free nonempty] at member
    rcases List.mem_cons.mp member with rfl | later
    · exact ⟨nonempty, free⟩
    · exact ih later

theorem words_subset (member : w ∈ words sep s) {a : α} (inside : a ∈ w) : a ∈ s := by
  induction s using words_induction sep with
  | nil => cases member
  | skip s ih => exact List.mem_cons_of_mem _ (ih (words_sep sep s ▸ member))
  | word w' free nonempty =>
    rw [words_word free nonempty, List.mem_singleton] at member
    exact member ▸ inside
  | more w' s free nonempty ih =>
    rw [words_word_sep free nonempty] at member
    rcases List.mem_cons.mp member with rfl | later
    · exact List.mem_append_left _ inside
    · exact List.mem_append_right _ (List.mem_cons_of_mem _ (ih later))

omit [DecidableEq α] in
theorem join_cons_cons (w w' : List α) (ws : List (List α)) : join sep (w :: w' :: ws) =
    w ++ sep :: join sep (w' :: ws) := by
  rw [join, List.intercalate_cons_cons, List.append_assoc]
  rfl

theorem words_join {ws : List (List α)} (good : ∀ w ∈ ws, w ≠ [] ∧ sep ∉ w) :
    words sep (join sep ws) = ws := by
  induction ws with
  | nil => rfl
  | cons w ws ih =>
    obtain ⟨nonempty, free⟩ := good w List.mem_cons_self
    have rest := ih fun w' member => good w' (List.mem_cons_of_mem _ member)
    cases ws with
    | nil => rw [join, List.intercalate_singleton, words_word free nonempty]
    | cons w' ws => rw [join_cons_cons, words_word_sep free nonempty, rest]

theorem length_join_words_le (sep : α) (s : List α) : (join sep (words sep s)).length ≤ s.length := by
  induction s using words_induction sep with
  | nil => exact Nat.le_refl _
  | skip s ih =>
    rw [words_sep]
    exact Nat.le_succ_of_le ih
  | word w free nonempty => rw [words_word free nonempty, join, List.intercalate_singleton]
  | more w s free nonempty ih =>
    rw [words_word_sep free nonempty]
    cases rest : words sep s with
    | nil =>
      rw [join, List.intercalate_singleton, List.length_append]
      omega
    | cons w' ws =>
      rw [rest] at ih
      rw [join_cons_cons, List.length_append, List.length_append, List.length_cons, List.length_cons]
      omega

omit [DecidableEq α] in
theorem mem_join {ws : List (List α)} {a : α} (member : a ∈ join sep ws) : a = sep ∨
    ∃ w ∈ ws, a ∈ w := by
  induction ws with
  | nil => cases member
  | cons w ws ih =>
    cases ws with
    | nil =>
      rw [join, List.intercalate_singleton] at member
      exact .inr ⟨w, List.mem_cons_self, member⟩
    | cons w' ws =>
      rw [join_cons_cons] at member
      rcases List.mem_append.mp member with here | later
      · exact .inr ⟨w, List.mem_cons_self, here⟩
      · rcases List.mem_cons.mp later with same | later
        · exact .inl same
        · rcases ih later with same | ⟨v, listed, inside⟩
          · exact .inl same
          · exact .inr ⟨v, List.mem_cons_of_mem _ listed, inside⟩

theorem head?_join_words (start : s.head? ≠ some sep) : (join sep (words sep s)).head? = s.head? := by
  induction s using words_induction sep with
  | nil => rfl
  | skip s ih => exact absurd rfl start
  | word w free nonempty => rw [words_word free nonempty, join, List.intercalate_singleton]
  | more w s free nonempty ih =>
    rw [words_word_sep free nonempty]
    cases words sep s with
    | nil => rw [join, List.intercalate_singleton, List.head?_append_of_ne_nil _ nonempty]
    | cons w' ws =>
      rw [join_cons_cons, List.head?_append_of_ne_nil _ nonempty,
        List.head?_append_of_ne_nil _ nonempty]

theorem getLast?_join_words (stop : s.getLast? ≠ some sep) : (join sep (words sep s)).getLast? =
    s.getLast? := by
  induction s using words_induction sep with
  | nil => rfl
  | skip s ih =>
    cases s with
    | nil => exact absurd rfl stop
    | cons a s =>
      rw [List.getLast?_cons_cons] at stop ⊢
      rw [words_sep]
      exact ih stop
  | word w free nonempty => rw [words_word free nonempty, join, List.intercalate_singleton]
  | more w s free nonempty ih =>
    rw [words_word_sep free nonempty]
    cases s with
    | nil => exact absurd (List.getLast?_concat ..) stop
    | cons a s =>
      have behind : (w ++ sep :: a :: s).getLast? = (a :: s).getLast? := by
        rw [List.getLast?_append_cons, List.getLast?_cons_cons]
      rw [behind] at stop ⊢
      have last := ih stop
      cases rest : words sep (a :: s) with
      | nil =>
        rw [rest] at last
        cases List.getLast?_eq_none_iff.mp last.symm
      | cons w' ws =>
        rw [rest] at last
        rw [join_cons_cons, List.getLast?_append_cons, ← last]
        cases joined : join sep (w' :: ws) with
        | nil =>
          rw [joined] at last
          cases List.getLast?_eq_none_iff.mp last.symm
        | cons b joined => rw [List.getLast?_cons_cons]

/-- A trimmed string stays trimmed when its words are joined. -/
theorem trim_join_words {drop : α → Bool} (dropped : drop sep = true)
    (head : ∀ a ∈ s.head?, drop a = false)
    (last : ∀ a ∈ s.getLast?, drop a = false) : trim drop (join sep (words sep s)) =
      join sep (words sep s) := by
  have start : s.head? ≠ some sep := fun same => by cases (head sep same).symm.trans dropped
  have stop : s.getLast? ≠ some sep := fun same => by cases (last sep same).symm.trans dropped
  apply trim_of_ends
  · rw [head?_join_words start]
    exact head
  · rw [getLast?_join_words stop]
    exact last

end

end TcpServerLib.Machine
