import TcpServerLib.Refinement.TokenTable

/-! # Tokens and their slots

A line is cut as it should be if there is a slot for each of its words and room in the slot for the
word and its terminator. Otherwise the tokenizer leaves its memory behind: the count of the tokens is
looked at when the token that is one too many has been written.
-/

namespace TcpServerLib.Soundness

open Machine Model Refinement

/-- The slots that count. -/
def filled (outcome : Tokenized) : List Bytes :=
  outcome.table.slots.take outcome.tokenCnt

/-- The strings in these slots. -/
def tokenStrings (outcome : Tokenized) : List Bytes :=
  (filled outcome).map unpad

/-- Each of these strings ends inside its slot. -/
def Terminated (outcome : Tokenized) : Prop :=
  ∀ slot ∈ filled outcome, 0 ∈ slot

/-- The tokenizer stays inside its memory, with each token and its terminator in one slot, and refuses a
line that has too many words. -/
def Disciplined (table : TokenTable) (line : Bytes) (delim : UInt8) : Prop :=
  ∃ outcome, tokenizerIn table line delim = .ok outcome ∧ Terminated outcome ∧
    (maxCmdTreeDepth < (strtok delim (stringSpaceTrim line)).length → outcome.tokenCnt = 0)

/-- The slots have room for the words of the line. -/
def Fitting (line : Bytes) (delim : UInt8) : Prop :=
  (strtok delim (stringSpaceTrim line)).length ≤ maxCmdTreeDepth ∧
    ∀ w ∈ strtok delim (stringSpaceTrim line), w.length < leafValueHolderSize

/-- The tokens are these words, and so many. -/
structure Cuts (outcome : Tokenized) (ws : List Bytes) : Prop where
  tokens : tokenStrings outcome = ws
  count : outcome.tokenCnt = ws.length
  terminated : Terminated outcome

section

variable {line : Bytes} {delim : UInt8} {table : TokenTable}

theorem mem_line {w : Bytes} (member : w ∈ strtok delim (stringSpaceTrim line)) {a : UInt8}
    (inside : a ∈ w) : a ∈ line :=
  (List.rdropWhile_prefix isspace _).subset ((List.dropWhile_suffix isspace).subset (words_subset member inside))

/-- A slot that a word fills to the last byte has no terminator. -/
theorem terminated_pad {w : Bytes} (noNul : 0 ∉ w) (fits : w.length ≤ leafValueHolderSize) :
    0 ∈ pad leafValueHolderSize w ↔ w.length < leafValueHolderSize := by
  rw [pad, List.mem_append, List.mem_replicate]
  constructor
  · rintro (inside | ⟨some, _⟩)
    · exact absurd inside noNul
    · omega
  · intro short
    exact .inr ⟨by omega, rfl⟩

theorem filled_of_fills {outcome : Tokenized} {ws rest : List Bytes} (count : outcome.tokenCnt = ws.length)
    (slots : outcome.table.slots = ws.map (pad leafValueHolderSize) ++ rest) :
    filled outcome = ws.map (pad leafValueHolderSize) := by
  rw [filled, slots, count, List.take_left' (List.length_map ..)]

/-- If the words fit, they are the tokens. -/
theorem cuts_of_fitting (table : TokenTable) (noNul : 0 ∉ line)
    (short : line.length < consInputBufferSize) (fitting : Fitting line delim) :
    ∃ outcome, tokenizerIn table line delim = .ok outcome ∧
    Cuts outcome (strtok delim (stringSpaceTrim line)) := by
  obtain ⟨few, fits⟩ := fitting
  obtain ⟨outcome, tokenized, count, slots⟩ :=
    tokenizerIn_fills table noNul short few fun w member => Nat.le_of_lt (fits w member)
  have noNul' : ∀ w ∈ strtok delim (stringSpaceTrim line), 0 ∉ w :=
    fun w member inside => noNul (mem_line member inside)
  refine ⟨outcome, tokenized, ?_⟩
  constructor
  · rw [tokenStrings, filled_of_fills count slots, List.map_map, List.map_congr_left (g := id), List.map_id]
    intro w member
    exact unpad_pad (noNul' w member)
  · exact count
  · intro slot member
    rw [filled_of_fills count slots] at member
    obtain ⟨w, listed, rfl⟩ := List.mem_map.mp member
    exact (terminated_pad (noNul' w listed) (Nat.le_of_lt (fits w listed))).mpr (fits w listed)

/-- The tokenizer stays inside its memory if and only if the slots have room. -/
theorem disciplined_iff_fitting (noNul : 0 ∉ line) (short : line.length < consInputBufferSize) :
    Disciplined table line delim ↔ Fitting line delim := by
  constructor
  · rintro ⟨outcome, tokenized, terminated, _⟩
    by_cases inside : (strtok delim (stringSpaceTrim line)).length ≤ maxCmdTreeDepth ∧
        ∀ w ∈ strtok delim (stringSpaceTrim line), w.length ≤ leafValueHolderSize
    · obtain ⟨few, fits⟩ := inside
      obtain ⟨outcome', tokenized', count, slots⟩ := tokenizerIn_fills table noNul short few fits
      cases tokenized.symm.trans tokenized'
      refine ⟨few, fun w member => ?_⟩
      apply (terminated_pad (fun inside => noNul (mem_line member inside)) (fits w member)).mp
      apply terminated
      rw [filled_of_fills count slots]
      exact List.mem_map_of_mem member
    · cases tokenized.symm.trans (tokenizerIn_overruns noNul short inside)
  · intro fitting
    obtain ⟨outcome, tokenized, cuts⟩ := cuts_of_fitting table noNul short fitting
    exact ⟨outcome, tokenized, cuts.terminated, fun many => absurd fitting.1 (Nat.not_le_of_lt many)⟩

theorem disciplined_showHelp :
    Disciplined .reInitTokens (ascii ['s', 'h', 'o', 'w', ' ', 'h', 'e', 'l', 'p']) 32 :=
  (disciplined_iff_fitting (by decide) (by decide)).mpr ⟨by decide, by decide⟩

/-- The seventeenth word of a line is written behind the last slot. -/
theorem seventeenWords_overrun : ¬ ∀ (table : TokenTable) (line : Bytes) (delim : UInt8),
    0 ∉ line → line.length ≤ consInputBufferSize - 2 → Disciplined table line delim := by
  intro always
  have noNul : 0 ∉ (List.replicate 17 (ascii ['a', ' '])).flatten := by decide
  obtain ⟨outcome, tokenized, _⟩ :=
    always .reInitTokens (List.replicate 17 (ascii ['a', ' '])).flatten 32 noNul (by decide)
  have many : ¬ (strtok 32 (stringSpaceTrim (List.replicate 17 (ascii ['a', ' '])).flatten)).length ≤
      maxCmdTreeDepth := by
    decide
  cases tokenized.symm.trans (tokenizerIn_overruns noNul (by decide) fun inside => many inside.1)

/-- The parser's tokens are those in the slots. -/
theorem tokenizer_slots {tokens : List Token} (noNul : 0 ∉ line) (cut : tokenizer line delim = .ok tokens) :
    ∃ outcome, tokenizerIn table line delim = .ok outcome ∧
    Cuts outcome (tokens.map fun token => token.bytes) := by
  rw [tokenizer] at cut
  split at cut
  · next fitting =>
    obtain ⟨short, few, fits⟩ := fitting
    cases cut
    obtain ⟨outcome, tokenized, cuts⟩ := cuts_of_fitting table noNul short ⟨few, fits⟩
    have same : ∀ ws : List Bytes, (∀ w ∈ ws, w.length < 64 ∧ 0 ∉ w ∧ w ≠ []) →
        (ws.filterMap Token.ofWord).map (fun token => token.bytes) = ws := by
      intro ws good
      induction ws with
      | nil => rfl
      | cons w ws ih =>
        have made : Token.ofWord w = some ⟨⟨w, _, _⟩, _⟩ := dif_pos (good w List.mem_cons_self)
        rw [List.filterMap_cons_some made, List.map_cons, ih fun w' member =>
          good w' (List.mem_cons_of_mem _ member)]
    refine ⟨outcome, tokenized, ?_⟩
    rw [same _ fun w member => ⟨fits w member, fun inside => noNul (mem_line member inside),
      (mem_words member).1⟩]
    exact cuts
  · cases cut

/-- The words of the joined words are the words. -/
theorem rejoined (line : Bytes) : strtok 32 (stringSpaceTrim (join 32 (strtok 32 (stringSpaceTrim line)))) =
    strtok 32 (stringSpaceTrim line) := by
  have trimmed := trimmed_trim isspace line
  have kept : stringSpaceTrim (join 32 (strtok 32 (stringSpaceTrim line))) =
      join 32 (strtok 32 (stringSpaceTrim line)) :=
    trim_join_words (by decide) trimmed.head trimmed.last
  rw [kept]
  exact words_join fun w member => mem_words member

theorem length_rejoined_le (line : Bytes) : (join 32 (strtok 32 (stringSpaceTrim line))).length ≤ line.length :=
  Nat.le_trans (length_join_words_le 32 (stringSpaceTrim line))
    (Nat.le_trans (List.dropWhile_suffix isspace).length_le (List.rdropWhile_prefix isspace _).length_le)

theorem noNul_rejoined (noNul : 0 ∉ line) : 0 ∉ join 32 (strtok 32 (stringSpaceTrim line)) := by
  intro member
  rcases mem_join member with zero | ⟨w, listed, inside⟩
  · exact absurd zero (by decide)
  · exact noNul (mem_line listed inside)

/-- Every line is trimmed, cut into its words, and cut into the same words when these are joined. -/
theorem tokenizer_cuts (noNul : 0 ∉ line) :
    (∀ (delim : UInt8) (table : TokenTable), line.length < consInputBufferSize → delim ≠ 0 →
      Fitting line delim →
      ∃ outcome, tokenizerIn table line delim = .ok outcome ∧
      Cuts outcome (strtok delim (stringSpaceTrim line)) ∧
        (delim = 32 → ∃ again, tokenizerIn outcome.table (join 32 (tokenStrings outcome)) 32 = .ok again ∧
          Cuts again (tokenStrings outcome))) ∧
      Trimmed isspace line (stringSpaceTrim line) ∧
      ∀ rest, ∃ rest', stringSpaceTrimIn (line ++ 0 :: rest) = stringSpaceTrim line ++ 0 :: rest' ∧
        stringSpaceTrimIn (stringSpaceTrim line ++ 0 :: rest') = stringSpaceTrim line ++ 0 :: rest' := by
  refine ⟨?_, trimmed_trim isspace line, ?_⟩
  · intro delim table short _ fitting
    obtain ⟨outcome, tokenized, cuts⟩ := cuts_of_fitting table noNul short fitting
    refine ⟨outcome, tokenized, cuts, ?_⟩
    rintro rfl
    have short' := Nat.lt_of_le_of_lt (length_rejoined_le line) short
    have fitting' : Fitting (join 32 (strtok 32 (stringSpaceTrim line))) 32 := by
      rw [Fitting, rejoined]
      exact fitting
    obtain ⟨again, tokenized', cuts'⟩ := cuts_of_fitting outcome.table (noNul_rejoined noNul) short' fitting'
    rw [rejoined] at cuts'
    rw [cuts.tokens]
    exact ⟨again, tokenized', cuts'⟩
  · intro rest
    obtain ⟨rest', trimmed⟩ := stringSpaceTrimIn_terminated noNul rest
    have ends := trimmed_trim isspace line
    have noNul' : 0 ∉ stringSpaceTrim line := fun member =>
      noNul ((List.rdropWhile_prefix isspace _).subset ((List.dropWhile_suffix isspace).subset member))
    exact ⟨rest', trimmed, stringSpaceTrimIn_trimmed noNul' ends.head ends.last rest'⟩

end

/-- A line that is trimmed and cut into two words. -/
theorem tokenizer_cuts_spaces :
    ∃ outcome, tokenizerIn .reInitTokens (ascii [' ', 'a', ' ', ' ', 'b', ' ']) 32 = .ok outcome ∧
    Cuts outcome [ascii ['a'], ascii ['b']] := by
  obtain ⟨cut, _⟩ := tokenizer_cuts (show 0 ∉ ascii [' ', 'a', ' ', ' ', 'b', ' '] by decide)
  obtain ⟨outcome, tokenized, cuts, _⟩ :=
    cut 32 .reInitTokens (by decide) (by decide) ⟨by decide, by decide⟩
  exact ⟨outcome, tokenized, cuts⟩

end TcpServerLib.Soundness
