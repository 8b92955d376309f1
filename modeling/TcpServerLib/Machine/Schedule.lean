import TcpServerLib.Machine.Path
import Mathlib.Algebra.Order.Group.Nat
import Mathlib.Data.List.Range
import Mathlib.Logic.Function.Basic
import Mathlib.Tactic.Ring

/-! # Schedules

A schedule says for each entry when it is due next, and after how long again. It may move on only
when nothing is due any more, so the moments at which an entry fires are those it was planned for.
-/

namespace TcpServerLib.Machine

structure Schedule (ι : Type*) where
  now : ℕ
  due : ι → Option ℕ
  /-- What lies between two firings; an entry without a period fires once. -/
  period : ι → Option ℕ

namespace Schedule

variable {ι : Type*} [DecidableEq ι]

inductive Event (ι : Type*)
  | advance
  | fire (i : ι) (moment : ℕ)
  | replan (entries : List ι)

/-- An entry is planned for a later moment, if at all. -/
def Later (s : Schedule ι) (i : ι) : Prop := ∀ d, s.due i = some d → s.now < d

inductive Step : Schedule ι → Event ι → Schedule ι → Prop
  | advance {s : Schedule ι} : (∀ i, s.Later i) → Step s .advance { s with now := s.now + 1 }
  | fire {s : Schedule ι} {i : ι} : s.due i = some s.now →
      Step s (.fire i s.now) { s with due := Function.update s.due i ((s.period i).map (s.now + ·)) }
  | replan {s t : Schedule ι} {entries : List ι} : t.now = s.now →
      (∀ i, i ∉ entries → t.due i = s.due i ∧ t.period i = s.period i) → Step s (.replan entries) t

/-- The moments at which an entry fires. -/
def firings (i : ι) (events : List (Event ι)) : List ℕ :=
  events.filterMap fun
    | .fire j moment => if j = i then some moment else none
    | _ => none

/-- The moments from the one an entry is due at, up to and including `last`. -/
def occurrences (due period : Option ℕ) (last : ℕ) : List ℕ :=
  match due, period with
  | none, _ => []
  | some d, none => if d ≤ last then [d] else []
  | some d, some k => (List.range ((last + k - d) / k)).map (d + · * k)

section

variable {d k last : ℕ} {period : Option ℕ}

theorem occurrences_later (later : last < d) : occurrences (some d) period last = [] := by
  cases period with
  | none => exact if_neg (Nat.not_le.mpr later)
  | some k =>
    have none : (last + k - d) / k = 0 := by
      rcases Nat.eq_zero_or_pos k with rfl | positive
      · exact Nat.div_zero _
      · exact Nat.div_eq_of_lt (by omega)
    rw [occurrences, none, List.range_zero, List.map_nil]

theorem occurrences_due (due : d ≤ last) (positive : ∀ k, period = some k → 0 < k) :
    occurrences (some d) period last = d :: occurrences (period.map (d + ·)) period last := by
  cases period with
  | none => exact if_pos due
  | some k =>
    have positive := positive k rfl
    have count : (last + k - d) / k = (last + k - (d + k)) / k + 1 := by
      rw [← Nat.add_div_right _ positive]
      congr 1
      omega
    rw [occurrences, count, List.range_succ_eq_map, List.map_cons, List.map_map, Nat.zero_mul]
    refine congrArg (d :: ·) (List.map_congr_left fun j _ => ?_)
    simp only [Function.comp_apply, Nat.succ_eq_add_one]
    ring

/-- Planned `k` moments ahead, an entry fires at every multiple of `k` from then on. -/
theorem occurrences_some (start : ℕ) :
    occurrences (some (start + k)) (some k) last = (List.range ((last - start) / k)).map fun j =>
      start + (j + 1) * k := by
  rw [occurrences, Nat.add_sub_add_right]
  refine List.map_congr_left fun j _ => ?_
  ring

end

variable {s t : Schedule ι} {event : Event ι} {events : List (Event ι)} {i : ι}

/-- The entry is planned for no moment that has passed, and its period is not empty. -/
structure Sound (s : Schedule ι) (i : ι) : Prop where
  ahead : ∀ d, s.due i = some d → s.now ≤ d
  positive : ∀ k, s.period i = some k → 0 < k

/-- One step: the firing, if it is one of the entry, comes before those still planned. -/
theorem Step.occurrences (step : Step s event t) (sound : s.Sound i)
    (kept : ∀ entries, event = .replan entries → i ∉ entries) :
    t.Sound i ∧ ∀ last, t.now ≤ last →
      firings i [event] ++ occurrences (t.due i) (t.period i) last = occurrences (s.due i) (s.period i) last := by
  cases step with
  | advance later =>
    exact ⟨⟨fun d due => later i d due, sound.positive⟩, fun last _ => rfl⟩
  | @fire j due =>
    by_cases same : j = i
    · subst same
      have here : Function.update s.due j ((s.period j).map (s.now + ·)) j = (s.period j).map (s.now + ·) :=
        Function.update_self ..
      refine ⟨⟨?_, sound.positive⟩, fun last reached => ?_⟩
      · intro d next
        obtain ⟨k, _, rfl⟩ := Option.map_eq_some_iff.mp (here.symm.trans next)
        exact Nat.le_add_right ..
      · rw [due, occurrences_due reached sound.positive]
        simp only [here, firings, List.filterMap_cons, ↓reduceIte, List.filterMap_nil, List.singleton_append]
    · have there : Function.update s.due j ((s.period j).map (s.now + ·)) i = s.due i :=
        Function.update_of_ne (Ne.symm same) ..
      refine ⟨⟨fun d next => sound.ahead d (there.symm.trans next), sound.positive⟩, fun last _ => ?_⟩
      simp only [there, firings, List.filterMap_cons, same, ↓reduceIte, List.filterMap_nil, List.nil_append]
  | @replan _ entries now others =>
    obtain ⟨due, period⟩ := others i (kept entries rfl)
    refine ⟨⟨fun d next => ?_, fun k every => sound.positive k (period.symm.trans every)⟩,
      fun last _ => ?_⟩
    · rw [now]
      exact sound.ahead d (due.symm.trans next)
    · rw [due, period]
      rfl

theorem Step.now_le (step : Step s event t) : s.now ≤ t.now := by
  cases step with
  | advance _ => exact Nat.le_succ _
  | fire _ => exact Nat.le_refl _
  | replan now _ => exact Nat.le_of_eq now.symm

theorem now_le_of_path (path : Path Step s events t) : s.now ≤ t.now := by
  induction path with
  | nil => exact Nat.le_refl _
  | cons step _ ih => exact step.now_le.trans ih

/-- The moments at which an entry that nobody replans fires, and those at which it is to fire still, are
the ones it was planned for. -/
theorem firings_append {last : ℕ} (path : Path Step s events t) (sound : s.Sound i)
    (kept : ∀ entries, .replan entries ∈ events → i ∉ entries) (reached : t.now ≤ last) :
    firings i events ++ occurrences (t.due i) (t.period i) last = occurrences (s.due i) (s.period i) last := by
  induction path with
  | nil => rfl
  | @cons s middle t event events step rest ih =>
    obtain ⟨sound', moments⟩ := step.occurrences sound fun entries same =>
        kept entries (same ▸ List.mem_cons_self)
    have tail := ih sound' (fun entries member => kept entries (List.mem_cons_of_mem _ member)) reached
    have split : firings i (event :: events) = firings i [event] ++ firings i events :=
      List.filterMap_append (l := [event])
    rw [split, List.append_assoc, tail]
    exact moments last ((now_le_of_path rest).trans reached)

/-- At the end of a moment, it has fired at all of them. -/
theorem firings_eq (path : Path Step s events t) (sound : s.Sound i)
    (kept : ∀ entries, .replan entries ∈ events → i ∉ entries) (later : t.Later i) :
    firings i events = occurrences (s.due i) (s.period i) t.now := by
  have all := firings_append path sound kept (Nat.le_refl t.now)
  have none : occurrences (t.due i) (t.period i) t.now = [] := by
    cases due : t.due i with
    | none => rfl
    | some d => exact occurrences_later (later d due)
  rwa [none, List.append_nil] at all

end Schedule

end TcpServerLib.Machine
