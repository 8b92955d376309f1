import Mathlib.Data.List.Basic
import Mathlib.Order.Basic

/-! # Cutting a stream into messages

A framing reads the length of the first message off the front of a stream, as soon as enough of
the stream is there, and later input does not change its verdict. `Splits` is the greedy cut: it
relates a stream to its complete messages and to the rest in which no message is complete. The cut
of a whole stream is the cut of any prefix continued on the rest the prefix leaves, so a receiver
may cut after every piece of input it gets.
-/

namespace TcpServerLib.Machine

variable {α : Type*}

/-- `overhead` bounds how far past its own length a message may stay unrecognised. -/
structure Framing (α : Type*) where
  next : List α → Option ℕ
  overhead : ℕ
  within : ∀ {s n}, next s = some n → n ≤ s.length
  stable : ∀ {s n} (t), next s = some n → next (s ++ t) = some n
  lag : ∀ {s t n}, next s = none → next (s ++ t) = some n → s.length ≤ n + overhead

namespace Framing

variable {F : Framing α} {s t rest : List α} {messages : List (List α)} {n : ℕ}

inductive Splits (F : Framing α) : List α → List (List α) → List α → Prop
  | rest {s : List α} (incomplete : F.next s = none) : Splits F s [] s
  | message {s rest : List α} {n : ℕ} {messages : List (List α)} (complete : F.next s = some n)
      (tail : Splits F (s.drop n) messages rest) : Splits F s (s.take n :: messages) rest

theorem Splits.incomplete (split : F.Splits s messages rest) : F.next rest = none := by
  induction split with
  | rest incomplete => exact incomplete
  | message _ _ ih => exact ih

/-- A message of no bytes would be the first of what is left again. -/
theorem Splits.next_ne_zero (split : F.Splits s messages rest) : F.next s ≠ some 0 := by
  induction split with
  | rest incomplete => simp [incomplete]
  | message complete _ ih =>
    intro zero
    obtain rfl := Option.some.inj (complete.symm.trans zero)
    exact ih zero

/-- Nothing is lost, added or reordered. -/
theorem Splits.flatten (split : F.Splits s messages rest) : messages.flatten ++ rest = s := by
  induction split with
  | rest _ => rfl
  | message _ _ ih => rw [List.flatten_cons, List.append_assoc, ih, List.take_append_drop]

theorem Splits.unique {messages' : List (List α)} {rest' : List α} (split : F.Splits s messages rest)
    (other : F.Splits s messages' rest') : messages = messages' ∧ rest = rest' := by
  induction split generalizing messages' with
  | rest incomplete =>
    cases other with
    | rest _ => exact ⟨rfl, rfl⟩
    | message complete _ => rw [incomplete] at complete; contradiction
  | message complete _ ih =>
    cases other with
    | rest incomplete => rw [incomplete] at complete; contradiction
    | message complete' tail' =>
      obtain rfl := Option.some.inj (complete.symm.trans complete')
      obtain ⟨rfl, rfl⟩ := ih tail'
      exact ⟨rfl, rfl⟩

/-- A stream that begins with a complete message is cut there first. -/
theorem Splits.cons {message : List α} (complete : F.next (message ++ s) = some message.length)
    (split : F.Splits s messages rest) : F.Splits (message ++ s) (message :: messages) rest := by
  have tail : F.Splits ((message ++ s).drop message.length) messages rest := by rwa [List.drop_left]
  have step := Splits.message complete tail
  rwa [List.take_left] at step

/-- The cut of a stream goes through the cut of every prefix of it. -/
theorem Splits.cut (split : F.Splits (s ++ t) messages rest) :
    ∃ before middle after, F.Splits s before middle ∧ F.Splits (middle ++ t) after rest ∧
      messages = before ++ after := by
  generalize same : s ++ t = whole at split
  induction split generalizing s with
  | rest incomplete =>
    subst same
    have early : F.next s = none := by
      cases found : F.next s with
      | none => rfl
      | some n => rw [F.stable t found] at incomplete; contradiction
    exact ⟨[], s, [], .rest early, .rest incomplete, rfl⟩
  | @message whole rest n messages complete tail ih =>
    subst same
    cases found : F.next s with
    | none => exact ⟨[], s, _, .rest found, .message complete tail, rfl⟩
    | some m =>
      obtain rfl := Option.some.inj ((F.stable t found).symm.trans complete)
      have fits := F.within found
      obtain ⟨before, middle, after, first, second, joined⟩ :=
        ih (s := s.drop m) (List.drop_append_of_le_length fits).symm
      refine ⟨s.take m :: before, middle, after, .message found first, second, ?_⟩
      rw [joined, List.take_append_of_le_length fits, List.cons_append]

/-- What stays behind after a prefix is bounded by the message it belongs to, or by the rest. -/
theorem Splits.middle_length {after : List (List α)} {bound : ℕ} (incomplete : F.next s = none)
    (split : F.Splits (s ++ t) after rest) (short : ∀ message ∈ after, message.length ≤ bound)
    (restShort : rest.length ≤ bound + F.overhead) : s.length ≤ bound + F.overhead := by
  cases split with
  | rest _ =>
    rw [List.length_append] at restShort
    omega
  | @message _ _ n _ complete _ =>
    have first := short _ (List.mem_cons_self ..)
    rw [List.length_take_of_le (F.within complete)] at first
    have late := F.lag incomplete complete
    omega

end Framing

end TcpServerLib.Machine
