import TcpServerLib.Refinement.ReplaceSubstring
import TcpServerLib.Refinement.TokenTable

/-! # Replacing every occurrence

`replaceSubstring` compares on behind the end of a text it has found, and steps over the byte behind each
text it has put in. So an occurrence at the end of the string takes it out of the array of `sub`, and an
occurrence directly behind another one is missed. Where there is a byte behind every occurrence that
begins no other, each of them is replaced.
-/

namespace TcpServerLib.Soundness

open Machine Model Model.ReplaceSubstring Refinement Refinement.ReplaceSubstring

variable {string sub newStr before rest out slack array : Bytes} {byte : UInt8} {steps : ℕ}

/-- The string, cut at the occurrences of `sub` from left to right. -/
def pieces (sub : Bytes) : Bytes → List Bytes
  | [] => [[]]
  | byte :: rest =>
    if sub <+: byte :: rest then [] :: pieces sub (rest.drop (sub.length - 1))
    else (pieces sub rest).modifyHead (byte :: ·)
termination_by string => string.length
decreasing_by all_goals simp only [List.length_drop, List.length_cons]; omega

def replaced (string sub newStr : Bytes) : Bytes :=
  newStr.intercalate (pieces sub string)

/-- No trap, and the array holds the string with every occurrence replaced, if there is room for it. -/
def Replaces (string sub newStr : Bytes) : Prop :=
  ∀ slack : Bytes, (replaced string sub newStr).length ≤ string.length + slack.length →
    ∃ steps array, replaceSubstring steps (string ++ 0 :: slack) (sub ++ [0]) (newStr ++ [0]) =
      some (.ok array) ∧ unpad array = replaced string sub newStr

/-- There is something between two occurrences, and behind the last one. -/
def Spaced (string sub : Bytes) : Prop :=
  ∀ piece ∈ (pieces sub string).tail, piece ≠ []

/-- All the lengths are those of an `int`. -/
structure IntLengths (string sub newStr : Bytes) : Prop where
  stringLen : string.length < 2 ^ 31
  subLen : sub.length < 2 ^ 31
  newLen : newStr.length < 2 ^ 31
  replacedLen : (replaced string sub newStr).length < 2 ^ 31

theorem pieces_nil : pieces sub [] = [[]] := by
  rw [pieces]

theorem pieces_keep (absent : ¬ sub <+: byte :: rest) :
    pieces sub (byte :: rest) = (pieces sub rest).modifyHead (byte :: ·) := by
  rw [pieces, if_neg absent]

theorem pieces_occurrence (nonempty : sub ≠ []) : pieces sub (sub ++ rest) = [] :: pieces sub rest := by
  obtain ⟨byte, sub, rfl⟩ := List.exists_cons_of_ne_nil nonempty
  have present : byte :: sub <+: byte :: (sub ++ rest) := List.prefix_append (byte :: sub) rest
  rw [List.cons_append, pieces, if_pos present, List.length_cons, Nat.add_sub_cancel, List.drop_left]

theorem pieces_ne_nil : pieces sub string ≠ [] := by
  induction string with
  | nil => rw [pieces]; exact List.cons_ne_nil _ _
  | cons byte rest ih =>
    by_cases present : sub <+: byte :: rest
    · rw [pieces, if_pos present]
      exact List.cons_ne_nil _ _
    · rw [pieces_keep present]
      obtain ⟨piece, others, split⟩ := List.exists_cons_of_ne_nil ih
      rw [split]
      exact List.cons_ne_nil _ _

theorem exists_pieces (sub string : Bytes) : ∃ piece others, pieces sub string = piece :: others :=
  List.exists_cons_of_ne_nil pieces_ne_nil

theorem replaced_keep (absent : ¬ sub <+: byte :: rest) : replaced (byte :: rest) sub newStr =
    byte :: replaced rest sub newStr := by
  obtain ⟨piece, others, split⟩ := exists_pieces sub rest
  rw [replaced, replaced, pieces_keep absent, split, List.modifyHead_cons]
  cases others <;> simp [List.intercalate]

theorem replaced_occurrence (nonempty : sub ≠ []) : replaced (sub ++ rest) sub newStr =
    newStr ++ replaced rest sub newStr := by
  obtain ⟨piece, others, split⟩ := exists_pieces sub rest
  rw [replaced, replaced, pieces_occurrence nonempty, split]
  simp [List.intercalate]

theorem spaced_keep (absent : ¬ sub <+: byte :: rest) : Spaced (byte :: rest) sub ↔ Spaced rest sub := by
  obtain ⟨piece, others, split⟩ := exists_pieces sub rest
  rw [Spaced, Spaced, pieces_keep absent, split, List.modifyHead_cons, List.tail_cons, List.tail_cons]

/-- Behind an occurrence there is a byte, and no other occurrence begins with it. -/
theorem spaced_occurrence (nonempty : sub ≠ []) :
    Spaced (sub ++ rest) sub ↔ ∃ byte more, rest = byte :: more ∧ ¬ sub <+: rest ∧ Spaced more sub := by
  rw [Spaced, pieces_occurrence nonempty, List.tail_cons]
  cases rest with
  | nil =>
    rw [pieces_nil]
    refine iff_of_false (fun spaced => spaced [] List.mem_cons_self rfl) ?_
    rintro ⟨byte, more, empty, -⟩
    cases empty
  | cons byte rest =>
    by_cases present : sub <+: byte :: rest
    · refine iff_of_false (fun spaced => ?_) ?_
      · rw [pieces, if_pos present] at spaced
        exact spaced [] List.mem_cons_self rfl
      · rintro ⟨_, _, _, absent, _⟩
        exact absent present
    · obtain ⟨piece, others, split⟩ := exists_pieces sub rest
      have tail : Spaced rest sub ↔ ∀ piece ∈ others, piece ≠ [] := by rw [Spaced, split, List.tail_cons]
      rw [pieces_keep present, split, List.modifyHead_cons, List.forall_mem_cons,
        and_iff_right (List.cons_ne_nil _ _), ← tail]
      constructor
      · exact fun spaced => ⟨byte, rest, rfl, present, spaced⟩
      · rintro ⟨_, _, same, _, spaced⟩
        cases same
        exact spaced

/-- What the loop makes of the part that it has not come to yet. The byte behind an occurrence is
stepped over, so there has to be one. -/
inductive Scanned (sub newStr : Bytes) : Bytes → Bytes → Prop
  | nil : Scanned sub newStr [] []
  | keep (byte : UInt8) {rest out : Bytes} (absent : ¬ sub <+: byte :: rest)
      (later : Scanned sub newStr rest out) :
    Scanned sub newStr (byte :: rest) (byte :: out)
  | occurrence (byte : UInt8) {rest out : Bytes} (later : Scanned sub newStr rest out) :
    Scanned sub newStr (sub ++ byte :: rest) (newStr ++ byte :: out)

/-- The loop at the end of `before`. -/
def scanAt (before rest slack : Bytes) : Scan :=
  ⟨before ++ (rest ++ 0 :: slack), before.length + rest.length, before.length⟩

theorem replaceFrom_end : replaceFrom (sub ++ [0]) (newStr ++ [0]) sub.length newStr.length
    (steps + 1) (scanAt before [] slack) =
    some (.ok (before ++ 0 :: slack)) := by
  rw [replaceFrom, scanAt, if_neg (by simp)]
  rfl

theorem replaceFrom_keep (noNul : 0 ∉ sub) (absent : ¬ sub <+: byte :: rest) :
    replaceFrom (sub ++ [0]) (newStr ++ [0]) sub.length newStr.length (steps + 1)
    (scanAt before (byte :: rest) slack) =
      replaceFrom (sub ++ [0]) (newStr ++ [0]) sub.length newStr.length steps
      (scanAt (before ++ [byte]) rest slack) := by
  rw [replaceFrom, scanAt, if_pos (by simp)]
  simp only [replaceAt_keep noNul absent rfl]
  rw [scanAt, length_concat, List.append_assoc, List.length_cons, Nat.add_right_comm, Nat.add_assoc]
  rfl

theorem replaceFrom_occurrence (nonempty : sub ≠ []) (behindNul : byte ≠ 0)
    (room : newStr.length ≤ sub.length + slack.length)
    (fits : before.length + (sub ++ byte :: rest).length < 2 ^ 31) :
    replaceFrom (sub ++ [0]) (newStr ++ [0]) sub.length newStr.length (steps + 1)
    (scanAt before (sub ++ byte :: rest) slack) =
      if before.length + newStr.length + (byte :: rest).length < 2 ^ 31 then
        replaceFrom (sub ++ [0]) (newStr ++ [0]) sub.length newStr.length steps
          (scanAt (before ++ (newStr ++ [byte])) rest ((List.replicate sub.length 0 ++ slack).drop newStr.length))
      else some (.error .wrap) := by
  have split : before ++ (sub ++ byte :: rest ++ 0 :: slack) =
      before ++ (sub ++ ((byte :: rest) ++ 0 :: slack)) := by simp
  rw [List.length_append] at fits
  rw [replaceFrom, scanAt, if_pos (by simp), List.length_append]
  simp only [replaceAt_occurrence nonempty behindNul split room fits]
  split_ifs with longer
  · have split' : before ++ (newStr ++ [byte]) ++
        (rest ++ 0 :: (List.replicate sub.length 0 ++ slack).drop newStr.length) =
        before ++ (newStr ++ ((byte :: rest) ++ 0 :: (List.replicate sub.length 0 ++ slack).drop
          newStr.length)) := by simp
    have length : (before ++ (newStr ++ [byte])).length = before.length + newStr.length + 1 := by
      rw [List.length_append, length_concat, Nat.add_assoc]
    rw [scanAt, split', length, List.length_cons, Nat.add_assoc (before.length + newStr.length), Nat.add_comm 1]
  · rfl

theorem replaceFrom_last (nonempty : sub ≠ []) :
    replaceFrom (sub ++ [0]) (newStr ++ [0]) sub.length newStr.length (steps + 1) (scanAt before sub slack) =
      some (.error .outOfBounds) := by
  have length := List.length_pos_iff.mpr nonempty
  rw [replaceFrom, scanAt, if_pos (by simpa using length)]
  simp only [replaceAt_end rfl]

theorem scanned_length (scanned : Scanned sub newStr rest out) (longer : sub.length ≤ newStr.length) :
    rest.length ≤ out.length := by
  induction scanned with
  | nil => exact le_rfl
  | keep byte absent later ih => exact Nat.succ_le_succ ih
  | occurrence byte later ih =>
    rw [List.length_append, List.length_append, List.length_cons, List.length_cons]
    omega

theorem scanned_noNul (scanned : Scanned sub newStr rest out) (noNul : 0 ∉ rest)
    (noNulNew : 0 ∉ newStr) : 0 ∉ out := by
  induction scanned with
  | nil => exact noNul
  | keep byte absent later ih =>
    rw [List.mem_cons, not_or] at noNul ⊢
    exact ⟨noNul.1, ih noNul.2⟩
  | occurrence byte later ih =>
    rw [List.mem_append, List.mem_cons, not_or, not_or] at noNul ⊢
    exact ⟨noNulNew, noNul.2.1, ih noNul.2.2⟩

theorem replaceFrom_of_scanned (nonempty : sub ≠ []) (noNul : 0 ∉ sub)
    (scanned : Scanned sub newStr rest out) (noNulRest : 0 ∉ rest)
    (fits : before.length + rest.length < 2 ^ 31) (fitsOut : before.length + out.length < 2 ^ 31)
    (room : out.length ≤ rest.length + slack.length) :
    ∃ steps unused, replaceFrom (sub ++ [0]) (newStr ++ [0]) sub.length newStr.length steps
    (scanAt before rest slack) =
      some (.ok (before ++ (out ++ 0 :: unused))) := by
  induction scanned generalizing before slack with
  | nil => exact ⟨1, slack, replaceFrom_end⟩
  | keep byte absent later ih =>
    rw [List.length_cons] at fits fitsOut room
    obtain ⟨steps, unused, ran⟩ := @ih (before ++ [byte]) slack (List.not_mem_of_not_mem_cons noNulRest)
      (by rw [length_concat]; omega) (by rw [length_concat]; omega) (by rw [List.length_cons] at room; omega)
    refine ⟨steps + 1, unused, (replaceFrom_keep noNul absent).trans (ran.trans ?_)⟩
    rw [List.append_assoc]
    rfl
  | @occurrence byte rest out later ih =>
    have longer := scanned_length later
    rw [List.length_append, List.length_cons] at fits fitsOut room
    rw [List.length_append, List.length_cons] at room
    rw [List.mem_append, List.mem_cons, not_or, not_or] at noNulRest
    obtain ⟨steps, unused, ran⟩ :=
      @ih (before ++ (newStr ++ [byte])) ((List.replicate sub.length 0 ++ slack).drop newStr.length)
      noNulRest.2.2 (by rw [List.length_append, length_concat]; omega)
        (by rw [List.length_append, length_concat]; omega)
      (by rw [List.length_drop, List.length_append, List.length_replicate]; omega)
    refine ⟨steps + 1, unused, ?_⟩
    rw [replaceFrom_occurrence nonempty (fun same => noNulRest.2.1 same.symm) (by omega)
      (by rw [List.length_append, List.length_cons]; omega), if_pos (by rw [List.length_cons]; omega), ran]
    simp

/-- With room for every insertion, a run that ends without a trap has made this of the string. -/
theorem scanned_of_replaceFrom (nonempty : sub ≠ []) (noNul : 0 ∉ sub) (noNulRest : 0 ∉ rest)
    (fits : before.length + rest.length < 2 ^ 31) (room : rest.length * newStr.length ≤ slack.length)
    (ran : replaceFrom (sub ++ [0]) (newStr ++ [0]) sub.length newStr.length steps
      (scanAt before rest slack) = some (.ok array)) :
    ∃ out unused, Scanned sub newStr rest out ∧ array = before ++ (out ++ 0 :: unused) ∧
    before.length + out.length < 2 ^ 31 := by
  induction steps generalizing before rest slack with
  | zero => cases ran
  | succ steps ih =>
    cases rest with
    | nil =>
      rw [replaceFrom_end] at ran
      cases ran
      exact ⟨[], slack, .nil, rfl, fits⟩
    | cons byte rest =>
      by_cases present : sub <+: byte :: rest
      · obtain ⟨more, split⟩ := present
        rw [← split] at noNulRest fits room ran ⊢
        cases more with
        | nil =>
          rw [List.append_nil, replaceFrom_last nonempty] at ran
          cases ran
        | cons byte more =>
          have behindNul : byte ≠ 0 := by
            rintro rfl
            exact noNulRest (List.mem_append_right sub List.mem_cons_self)
          have length : (sub ++ byte :: more).length = sub.length +
              (more.length + 1) := by rw [List.length_append, List.length_cons]
          have insertions : more.length * newStr.length + newStr.length ≤ slack.length := by
            refine le_trans ?_ room
            rw [← Nat.succ_mul, length]
            exact Nat.mul_le_mul_right _ (Nat.le_add_left ..)
          rw [replaceFrom_occurrence nonempty behindNul (by omega) fits] at ran
          split_ifs at ran with longer
          · rw [List.length_cons] at longer
            obtain ⟨out, unused, scanned, same, fitsOut⟩ := ih
              (fun member => noNulRest (List.mem_append_right sub (List.mem_cons_of_mem byte member)))
              (by rw [List.length_append, length_concat]; omega)
              (by rw [List.length_drop, List.length_append, List.length_replicate]; omega) ran
            refine ⟨newStr ++ byte :: out, unused, .occurrence byte scanned, ?_, ?_⟩
            · rw [same]
              simp
            · rw [List.length_append, length_concat] at fitsOut
              rw [List.length_append, List.length_cons]
              omega
          · cases ran
      · rw [replaceFrom_keep noNul present] at ran
        rw [List.length_cons] at fits room
        obtain ⟨out, unused, scanned, same, fitsOut⟩ := ih (List.not_mem_of_not_mem_cons noNulRest)
          (by rw [length_concat]; omega) ((Nat.mul_le_mul_right _ (Nat.le_succ _)).trans room) ran
        refine ⟨byte :: out, unused, .keep byte present scanned, ?_, ?_⟩
        · rw [same, List.append_assoc]
          rfl
        · rw [length_concat] at fitsOut
          rw [List.length_cons]
          omega

theorem replaced_nil : replaced [] sub newStr = [] := by
  rw [replaced, pieces_nil]
  rfl

theorem scanned_of_spaced (nonempty : sub ≠ []) (spaced : Spaced string sub) :
    Scanned sub newStr string (replaced string sub newStr) := by
  induction length : string.length using Nat.strong_induction_on generalizing string with
  | _ n ih =>
    cases string with
    | nil =>
      rw [replaced_nil]
      exact .nil
    | cons byte rest =>
      by_cases present : sub <+: byte :: rest
      · obtain ⟨behind, split⟩ := present
        rw [← split] at spaced length ⊢
        obtain ⟨byte, more, rfl, absent, spaced⟩ := (spaced_occurrence nonempty).mp spaced
        rw [List.length_append, List.length_cons] at length
        rw [replaced_occurrence nonempty, replaced_keep absent]
        exact .occurrence byte (ih more.length (by omega) spaced rfl)
      · rw [replaced_keep present]
        exact .keep byte present
          (ih rest.length (length ▸ Nat.lt_succ_self _) ((spaced_keep present).mp spaced) rfl)

/-- A text that begins otherwise does not stand where an occurrence was left. -/
theorem spaced_of_scanned (nonempty : sub ≠ []) (other : newStr ≠ []) (distinct : newStr.head? ≠ sub.head?)
    (scanned : Scanned sub newStr string out) (same : out = replaced string sub newStr) : Spaced string sub := by
  induction scanned with
  | nil =>
    intro piece member
    rw [pieces_nil] at member
    cases member
  | keep byte absent later ih =>
    rw [replaced_keep absent] at same
    exact (spaced_keep absent).mpr (ih (List.cons.inj same).2)
  | @occurrence byte rest out later ih =>
    rw [replaced_occurrence nonempty, List.append_cancel_left_eq] at same
    by_cases present : sub <+: byte :: rest
    · obtain ⟨behind, split⟩ := present
      rw [← split, replaced_occurrence nonempty] at same
      have headNew : newStr.head? = some byte := by
        rw [← List.head?_append_of_ne_nil _ other, ← same]
        rfl
      have headSub : sub.head? = some byte := by
        rw [← List.head?_append_of_ne_nil _ nonempty, split]
        rfl
      exact absurd (headNew.trans headSub.symm) distinct
    · rw [replaced_keep present] at same
      exact (spaced_occurrence nonempty).mpr ⟨byte, rest, rfl, present, ih (List.cons.inj same).2⟩

theorem replaceSubstring_terminated (noNul : 0 ∉ string) (noNulSub : 0 ∉ sub) (noNulNew : 0 ∉ newStr) :
    replaceSubstring steps (string ++ 0 :: slack) (sub ++ [0]) (newStr ++ [0]) =
      if string.length < 2 ^ 31 ∧ sub.length < 2 ^ 31 ∧ newStr.length < 2 ^ 31 then
        replaceFrom (sub ++ [0]) (newStr ++ [0]) sub.length newStr.length steps (scanAt [] string slack)
      else some (.error .wrap) := by
  rw [replaceSubstring, unpad_terminated noNul, unpad_terminated noNulSub, unpad_terminated noNulNew,
    toInt, toInt, toInt, scanAt, List.length_nil, Nat.zero_add]
  by_cases stringLen : string.length < 2 ^ 31 <;> by_cases subLen : sub.length < 2 ^ 31 <;>
    by_cases newLen : newStr.length < 2 ^ 31 <;> simp only [stringLen, subLen, newLen, if_true,
      if_false, and_true, and_false]
  rfl

theorem replaces_of_spaced (nonempty : sub ≠ []) (noNul : 0 ∉ string) (noNulSub : 0 ∉ sub)
    (noNulNew : 0 ∉ newStr)
    (spaced : Spaced string sub) (fits : IntLengths string sub newStr) : Replaces string sub newStr := by
  intro slack room
  have scanned : Scanned sub newStr string (replaced string sub newStr) := scanned_of_spaced nonempty spaced
  obtain ⟨steps, unused, ran⟩ :=
    @replaceFrom_of_scanned sub newStr [] string _ slack nonempty noNulSub scanned noNul
    (by simpa using fits.stringLen) (by simpa using fits.replacedLen) room
  refine ⟨steps, _, ?_, unpad_terminated (scanned_noNul scanned noNul noNulNew) unused⟩
  rw [replaceSubstring_terminated noNul noNulSub noNulNew, if_pos ⟨fits.stringLen, fits.subLen, fits.newLen⟩]
  exact ran

/-- What a run without a trap says of the string, for any text that is put in. -/
theorem scanned_of_replaces (nonempty : sub ≠ []) (noNul : 0 ∉ string) (noNulSub : 0 ∉ sub)
    (noNulNew : 0 ∉ newStr)
    (replaces : Replaces string sub newStr) : IntLengths string sub newStr ∧
    Scanned sub newStr string (replaced string sub newStr) := by
  obtain ⟨steps, array, ran, holds⟩ := replaces
    (List.replicate (string.length * newStr.length + (replaced string sub newStr).length) 0)
    (by rw [List.length_replicate]; omega)
  rw [replaceSubstring_terminated noNul noNulSub noNulNew] at ran
  split_ifs at ran with lengths
  · obtain ⟨out, unused, scanned, same, fitsOut⟩ := @scanned_of_replaceFrom sub newStr [] string
      (List.replicate (string.length * newStr.length + (replaced string sub newStr).length) 0) array
      steps nonempty noNulSub noNul
      (by simpa using lengths.1) (by rw [List.length_replicate]; omega) ran
    rw [same, List.nil_append, unpad_terminated (scanned_noNul scanned noNul noNulNew)] at holds
    rw [holds] at scanned fitsOut
    exact ⟨⟨lengths.1, lengths.2.1, lengths.2.2, by simpa using fitsOut⟩, scanned⟩
  · cases ran

/-- Something between the occurrences and behind the last one is enough, and it is needed, unless
the new text begins as `sub` does or is empty. -/
theorem replaceSubstring_iff (nonempty : sub ≠ []) (noNul : 0 ∉ string) (noNulSub : 0 ∉ sub)
    (noNulNew : 0 ∉ newStr) :
    (Spaced string sub ∧ IntLengths string sub newStr → Replaces string sub newStr) ∧
      (newStr ≠ [] → newStr.head? ≠ sub.head? → (Replaces string sub newStr ↔ Spaced string sub ∧
        IntLengths string sub newStr)) := by
  have enough : Spaced string sub ∧ IntLengths string sub newStr → Replaces string sub newStr := by
    rintro ⟨spaced, fits⟩
    exact replaces_of_spaced nonempty noNul noNulSub noNulNew spaced fits
  refine ⟨enough, fun other distinct => ⟨fun replaces => ?_, enough⟩⟩
  obtain ⟨fits, scanned⟩ := scanned_of_replaces nonempty noNul noNulSub noNulNew replaces
  exact ⟨spaced_of_scanned nonempty other distinct scanned rfl, fits⟩

/-- One occurrence in the middle. -/
theorem replaceSubstring_middle : Replaces [120, 36, 73, 33] [36, 73] [52, 50] := by
  have first : ¬ ([36, 73] : Bytes) <+: 120 :: ([36, 73] ++ [33]) := by decide
  have last : ¬ ([36, 73] : Bytes) <+: [33] := by decide
  have spaced : Spaced (120 :: ([36, 73] ++ [33])) [36, 73] := by
    rw [spaced_keep first, spaced_occurrence (by decide)]
    refine ⟨33, [], rfl, last, ?_⟩
    rw [Spaced, pieces_nil]
    exact nofun
  have out : replaced (120 :: ([36, 73] ++ [33])) [36, 73] [52, 50] = [120, 52, 50, 33] := by
    rw [replaced_keep first, replaced_occurrence (by decide), replaced_keep last, replaced_nil]
    rfl
  have fits : IntLengths (120 :: ([36, 73] ++ [33])) [36, 73] [52, 50] :=
    ⟨by decide, by decide, by decide, by rw [out]; decide⟩
  exact (replaceSubstring_iff (by decide) (by decide) (by decide) (by decide)).1 ⟨spaced, fits⟩

/-- The second of two neighbours is left alone, and an occurrence at the end is compared behind the
terminator of `sub`. -/
theorem replaceSubstring_misses :
    (replaceSubstring 4 [97, 97, 98, 0, 0] [97, 0] [120, 0] = some (.ok [120, 97, 98, 0, 0]) ∧
      ¬ Replaces [97, 97, 98] [97] [120]) ∧
      replaceSubstring 4 [98, 97, 0, 0] [97, 0] [120, 0] = some (.error .outOfBounds) ∧
      ¬ Replaces [98, 97] [97] [120] := by
  have needed {string : Bytes} (noNul : 0 ∉ string) (replaces : Replaces string [97] [120]) :
      Spaced string [97] :=
    spaced_of_scanned (by decide) (by decide) (by decide)
      (scanned_of_replaces (by decide) noNul (by decide) (by decide) replaces).2 rfl
  refine ⟨⟨by decide +kernel, fun replaces => ?_⟩, by decide +kernel, fun replaces => ?_⟩
  · have spaced : Spaced ([97] ++ [97, 98]) [97] := needed (by decide) replaces
    obtain ⟨_, _, _, absent, _⟩ := (spaced_occurrence (by decide)).mp spaced
    exact absent (by decide)
  · have spaced : Spaced ([97] ++ []) [97] := (spaced_keep (by decide)).mp (needed (by decide) replaces)
    obtain ⟨_, _, empty, _⟩ := (spaced_occurrence (by decide)).mp spaced
    cases empty

end TcpServerLib.Soundness
