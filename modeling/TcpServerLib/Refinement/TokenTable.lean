import TcpServerLib.Model.TokenTable

/-! # What the tokenizer leaves in its slots

In the buffer, trimming leaves the trimmed string. The loop fills one slot with each word, as long as
there are slots for all of them and room in each.
-/

namespace TcpServerLib.Refinement

open Machine Model

variable {s rest token : Bytes} {delim : UInt8} {table : TokenTable}

/-- A string ends at its terminator. -/
theorem unpad_terminated (noNul : 0 ∉ s) (rest : Bytes) : unpad (s ++ 0 :: rest) = s := by
  have kept : ∀ byte ∈ s, decide (byte ≠ 0) = true := by
    intro byte member
    refine decide_eq_true ?_
    rintro rfl
    exact noNul member
  rw [unpad, List.takeWhile_append_of_pos kept, List.takeWhile_cons_of_neg (by decide), List.append_nil]

theorem pad_terminated {n : ℕ} (short : s.length < n) : ∃ rest, pad n s = s ++ 0 :: rest := by
  obtain ⟨k, rfl⟩ := Nat.exists_eq_add_of_lt short
  refine ⟨List.replicate k 0, ?_⟩
  rw [pad, Nat.add_assoc, Nat.add_sub_cancel_left, List.replicate_succ]

/-- The first loop leaves the string without its trailing spaces, or one space of a string of spaces. -/
theorem trimEnd_terminated (s rest : Bytes) : ∃ s' rest', trimEnd (s ++ 0 :: rest) s.length =
    (s' ++ 0 :: rest', s'.length) ∧ s'.dropWhile isspace = stringSpaceTrim s ∧ s' <+: s := by
  induction s using List.reverseRecOn generalizing rest with
  | nil => exact ⟨[], rest, rfl, rfl, List.prefix_refl _⟩
  | append_singleton s byte ih =>
    cases s with
    | nil =>
      refine ⟨[byte], rest, rfl, ?_, List.prefix_refl _⟩
      by_cases space : isspace byte = true
      · rw [stringSpaceTrim, List.nil_append, List.rdropWhile_singleton, if_pos space,
          List.dropWhile_cons_of_pos space]
      · rw [stringSpaceTrim, List.nil_append, List.rdropWhile_singleton, if_neg space]
    | cons first s =>
      have long : (first :: s ++ [byte]).length = s.length + 2 := by simp
      have last : (first :: s ++ [byte] ++ 0 :: rest).getD (s.length + 1) 0 = byte := by simp [List.getD]
      rw [long, trimEnd, last]
      by_cases space : isspace byte = true
      · have cleared : (first :: s ++ [byte] ++ 0 :: rest).set (s.length + 1) 0 =
            first :: s ++ 0 :: 0 :: rest := by simp
        obtain ⟨s', rest', trimmed, same, part⟩ := ih (0 :: rest)
        refine ⟨s', rest', ?_, ?_, part.trans (List.prefix_append _ _)⟩
        · rw [if_pos space, cleared]
          exact trimmed
        · rw [same, stringSpaceTrim, stringSpaceTrim, List.rdropWhile_concat_pos _ _ _ space]
      · refine ⟨first :: s ++ [byte], rest, ?_, ?_, List.prefix_refl _⟩
        · rw [if_neg space, long]
        · rw [stringSpaceTrim, List.rdropWhile_concat_neg _ _ _ space]

/-- Skipping stops at the first byte that is no space. -/
theorem skipSpaces_terminated (noNul : 0 ∉ s) (rest : Bytes) :
    skipSpaces (s ++ 0 :: rest) s.length = (s.dropWhile isspace ++ 0 :: rest, (s.dropWhile isspace).length) := by
  induction s with
  | nil => rfl
  | cons byte s ih =>
    have nonzero : byte ≠ 0 := fun zero => noNul (zero ▸ List.mem_cons_self)
    rw [List.cons_append, skipSpaces]
    by_cases space : isspace byte = true
    · rw [if_pos ⟨nonzero, space⟩, List.dropWhile_cons_of_pos space]
      exact ih fun member => noNul (List.mem_cons_of_mem _ member)
    · rw [if_neg fun both => space both.2, List.dropWhile_cons_of_neg space]
      rfl

/-- The test of `string_space_trim` on the first and the last byte. -/
theorem ends_iff (nonempty : s ≠ []) (rest : Bytes) :
    (¬ isspace ((s ++ 0 :: rest).getD 0 0) ∧ ¬ isspace ((s ++ 0 :: rest).getD (s.length - 1) 0)) ↔
      (∀ a ∈ s.head?, isspace a = false) ∧ ∀ a ∈ s.getLast?, isspace a = false := by
  have first : ((s ++ 0 :: rest).getD 0 0) = s.head nonempty := by
    cases s with
    | nil => exact absurd rfl nonempty
    | cons a s => rfl
  have last : ((s ++ 0 :: rest).getD (s.length - 1) 0) = s.getLast nonempty := by
    obtain rfl | ⟨front, a, rfl⟩ := s.eq_nil_or_concat
    · exact absurd rfl nonempty
    · simp [List.getD]
  rw [first, last, List.head?_eq_some_head nonempty, List.getLast?_eq_some_getLast nonempty]
  simp

/-- A trimmed string stays. -/
theorem stringSpaceTrimIn_trimmed (noNul : 0 ∉ s) (head : ∀ a ∈ s.head?, isspace a = false)
    (last : ∀ a ∈ s.getLast?, isspace a = false) (rest : Bytes) :
    stringSpaceTrimIn (s ++ 0 :: rest) = s ++ 0 :: rest := by
  rw [stringSpaceTrimIn, unpad_terminated noNul]
  dsimp only
  split
  · rfl
  · next nonempty =>
    rw [if_pos ((ends_iff (fun empty => nonempty (by rw [empty]; rfl)) rest).mpr ⟨head, last⟩)]

/-- In the buffer as on strings. -/
theorem stringSpaceTrimIn_terminated (noNul : 0 ∉ s) (rest : Bytes) :
    ∃ rest', stringSpaceTrimIn (s ++ 0 :: rest) = stringSpaceTrim s ++ 0 :: rest' := by
  rw [stringSpaceTrimIn, unpad_terminated noNul]
  dsimp only
  split
  · next empty =>
    rw [List.length_eq_zero_iff.mp empty]
    exact ⟨rest, rfl⟩
  · next nonempty =>
    split
    · next ends =>
      obtain ⟨head, last⟩ := (ends_iff (fun empty => nonempty (by rw [empty]; rfl)) rest).mp ends
      exact ⟨rest, by rw [show stringSpaceTrim s = s from trim_of_ends head last]⟩
    · obtain ⟨s', rest', trimmed, same, part⟩ := trimEnd_terminated s rest
      have noNul' : 0 ∉ s' := fun member => noNul (part.subset member)
      rw [trimmed]
      dsimp only
      rw [skipSpaces_terminated noNul', same]
      dsimp only
      refine ⟨(s' ++ 0 :: rest').drop ((stringSpaceTrim s).length + 1), ?_⟩
      rw [List.take_length_add_append]
      simp

theorem words_dropWhile (delim : UInt8) (s : Bytes) : words delim (s.dropWhile (· = delim)) = words delim s := by
  induction s with
  | nil => rfl
  | cons byte s ih =>
    by_cases same : byte = delim
    · rw [List.dropWhile_cons_of_pos (by simpa using same), ih, same, words_sep]
    · rw [List.dropWhile_cons_of_neg (by simpa using same)]

/-- `strtok` finds the first word, and leaves the others for the next calls. -/
theorem words_next (delim : UInt8) (s : Bytes) : words delim s =
    match strtokNext delim s with
    | none => []
    | some (token, rest) => token :: words delim rest := by
  rw [← words_dropWhile, strtokNext]
  cases begun : s.dropWhile (· = delim) with
  | nil => rfl
  | cons byte start =>
    dsimp only
    have head : byte ≠ delim := by
      have stopped := List.head?_dropWhile_not (· = delim) s
      rw [begun] at stopped
      simpa using stopped
    have split := List.takeWhile_append_dropWhile (p := (· ≠ delim)) (l := byte :: start)
    have free : delim ∉ (byte :: start).takeWhile (· ≠ delim) :=
      fun member => by simpa using List.mem_takeWhile_imp member
    have nonempty : (byte :: start).takeWhile (· ≠ delim) ≠ [] := by
      rw [List.takeWhile_cons_of_pos (by simpa using head)]
      exact List.cons_ne_nil _ _
    cases stop : (byte :: start).dropWhile (· ≠ delim) with
    | nil =>
      rw [stop, List.append_nil] at split
      rw [split] at free nonempty ⊢
      exact words_word free nonempty
    | cons last others =>
      have same : last = delim := by
        have stopped := List.head?_dropWhile_not (· ≠ delim) (byte :: start)
        rw [stop] at stopped
        simpa using stopped
      rw [stop, same] at split
      rw [same, List.drop_one, List.tail_cons]
      conv_lhs => rw [← split]
      exact words_word_sep free nonempty others

/-- No words, no token. -/
theorem next_none (delim : UInt8) {s : Bytes} (none : words delim s = []) : strtokNext delim s = Option.none := by
  rw [words_next] at none
  split at none
  · assumption
  · cases none

/-- The first word is the next token. -/
theorem next_some {delim : UInt8} {s token : Bytes} {more : List Bytes} (some : words delim s = token :: more) :
    ∃ rest, strtokNext delim s = Option.some (token, rest) ∧ words delim rest = more := by
  rw [words_next] at some
  split at some
  · cases some
  · next next =>
    cases some
    exact ⟨_, next, rfl⟩

section

variable {i : ℕ}

/-- A token that fits is written into its slot. -/
theorem store_slots (table : TokenTable) (inside : i < maxCmdTreeDepth)
    (fits : token.length ≤ leafValueHolderSize) :
    ∃ after, table.store i token = .ok after ∧
    after.slots = table.slots.set i (pad leafValueHolderSize token) := by
  rw [TokenTable.store, TokenTable.untokenize, if_pos inside]
  dsimp only
  have slot : i < (table.write i (List.replicate leafValueHolderSize 0)
      (List.length_replicate ..)).slots.length := by
    rwa [TokenTable.length_slots]
  rw [TokenTable.copy, dif_pos ⟨slot, fits⟩]
  refine ⟨_, rfl, ?_⟩
  simp only [TokenTable.write, List.get_eq_getElem, List.getElem_set_self, List.drop_replicate, List.set_set]
  rfl

/-- One that does not is written out of bounds. -/
theorem store_refused (refused : ¬ (i < maxCmdTreeDepth ∧ token.length ≤ leafValueHolderSize)) :
    table.store i token = .error .outOfBounds := by
  rw [TokenTable.store, TokenTable.untokenize]
  split_ifs with inside
  · dsimp only
    rw [TokenTable.copy, dif_neg fun both => refused ⟨inside, both.2⟩]
  · rfl

/-- By induction on the words: each takes the next slot. -/
theorem tokenLoop_fills {ws : List Bytes} (table : TokenTable) (cut : words delim rest = ws)
    (few : i + ws.length ≤ maxCmdTreeDepth) (fits : ∀ w ∈ ws, w.length ≤ leafValueHolderSize) :
    ∃ after, tokenLoop delim table i rest = .ok ⟨after, i + ws.length, false⟩ ∧
      after.slots = table.slots.take i ++ ws.map (pad leafValueHolderSize) ++ table.slots.drop
      (i + ws.length) := by
  induction ws generalizing table i rest with
  | nil =>
    refine ⟨table, ?_, ?_⟩
    · rw [tokenLoop, next_none delim cut]
      rfl
    · rw [List.map_nil, List.append_nil, List.length_nil, Nat.add_zero, List.take_append_drop]
  | cons w ws ih =>
    obtain ⟨rest', next, cut'⟩ := next_some cut
    rw [List.length_cons] at few
    have inside : i < maxCmdTreeDepth := by omega
    obtain ⟨stored, store, slots⟩ := store_slots table inside (fits w List.mem_cons_self)
    obtain ⟨after, looped, filled⟩ := ih (i := i + 1) stored cut' (by omega)
      fun w' member => fits w' (List.mem_cons_of_mem _ member)
    have total : i + 1 + ws.length = i + (w :: ws).length := by rw [List.length_cons]; omega
    rw [total] at looped filled
    refine ⟨after, ?_, ?_⟩
    · rw [tokenLoop, next]
      dsimp only
      rw [store]
      dsimp only
      rw [if_neg (by omega)]
      exact looped
    · have length : i < table.slots.length := by rwa [table.length_slots]
      have before : stored.slots.take (i + 1) = table.slots.take i ++ [pad leafValueHolderSize w] := by
        rw [slots, List.take_succ_eq_append_getElem
          (by rwa [List.length_set]), List.take_set_of_le (Nat.le_refl i), List.getElem_set_self]
      have behind : stored.slots.drop (i + (w :: ws).length) = table.slots.drop (i + (w :: ws).length) := by
        rw [slots, List.drop_set_of_lt (by rw [List.length_cons]; omega)]
      rw [filled, before, behind, List.map_cons, List.append_assoc, List.append_assoc, List.append_assoc]
      rfl

/-- A word that does not fit, or for which there is no slot, is written all the same. -/
theorem tokenLoop_overruns {ws : List Bytes} (cut : words delim rest = ws) (room : i ≤ maxCmdTreeDepth)
    (overrun : ¬ (i + ws.length ≤ maxCmdTreeDepth ∧ ∀ w ∈ ws, w.length ≤ leafValueHolderSize)) :
    tokenLoop delim table i rest = .error .outOfBounds := by
  induction ws generalizing table i rest with
  | nil => exact absurd ⟨room, fun w member => by cases member⟩ overrun
  | cons w ws ih =>
    obtain ⟨rest', next, cut'⟩ := next_some cut
    rw [tokenLoop, next]
    dsimp only
    by_cases stored : i < maxCmdTreeDepth ∧ w.length ≤ leafValueHolderSize
    · obtain ⟨inside, fits⟩ := stored
      obtain ⟨stored, store, _⟩ := store_slots table inside fits
      rw [store]
      dsimp only
      rw [if_neg (by omega)]
      apply ih cut' inside
      rintro ⟨few, all⟩
      refine overrun ⟨by rw [List.length_cons]; omega, fun w' member => ?_⟩
      rcases List.mem_cons.mp member with rfl | later
      · exact fits
      · exact all w' later
    · rw [store_refused stored]

end

section

variable {line : Bytes}

theorem trimmed_aStr (noNul : 0 ∉ line) (short : line.length < consInputBufferSize) :
    unpad (stringSpaceTrimIn (pad consInputBufferSize line)) = stringSpaceTrim line := by
  obtain ⟨rest, padded⟩ := pad_terminated short
  obtain ⟨rest', trimmed⟩ := stringSpaceTrimIn_terminated noNul rest
  have subset : ∀ a ∈ stringSpaceTrim line, a ∈ line := fun a member =>
    (List.rdropWhile_prefix isspace _).subset ((List.dropWhile_suffix isspace).subset member)
  rw [padded, trimmed, unpad_terminated fun member => noNul (subset 0 member)]

/-- The first token is stored as in the loop. -/
theorem tokenizerIn_loop (noNul : 0 ∉ line) (short : line.length < consInputBufferSize)
    (some : strtok delim (stringSpaceTrim line) ≠ []) :
    tokenizerIn table line delim = tokenLoop delim table 0 (stringSpaceTrim line) := by
  obtain ⟨token, more, cut⟩ := List.exists_cons_of_ne_nil some
  obtain ⟨rest, next, _⟩ := next_some cut
  have nonempty : ¬ (stringSpaceTrim line).length < 1 := by
    intro empty
    rw [List.length_eq_zero_iff.mp (Nat.lt_one_iff.mp empty)] at some
    exact some rfl
  rw [tokenizerIn, if_pos short, trimmed_aStr noNul short]
  dsimp only
  rw [if_neg nonempty, tokenLoop, next]
  rfl

theorem tokenizerIn_none (noNul : 0 ∉ line) (short : line.length < consInputBufferSize)
    (none : strtok delim (stringSpaceTrim line) = []) : tokenizerIn table line delim =
      .ok ⟨table, 0, true⟩ := by
  rw [tokenizerIn, if_pos short, trimmed_aStr noNul short]
  dsimp only
  split_ifs
  · rfl
  · rw [next_none delim none]

/-- All words fit: they stand in the first slots, one behind the other. -/
theorem tokenizerIn_fills (table : TokenTable) (noNul : 0 ∉ line) (short : line.length < consInputBufferSize)
    (few : (strtok delim (stringSpaceTrim line)).length ≤ maxCmdTreeDepth)
    (fits : ∀ w ∈ strtok delim (stringSpaceTrim line), w.length ≤ leafValueHolderSize) :
    ∃ outcome, tokenizerIn table line delim = .ok outcome ∧
      outcome.tokenCnt = (strtok delim (stringSpaceTrim line)).length ∧
      outcome.table.slots = (strtok delim (stringSpaceTrim line)).map (pad leafValueHolderSize) ++
        table.slots.drop (strtok delim (stringSpaceTrim line)).length := by
  by_cases none : strtok delim (stringSpaceTrim line) = []
  · rw [tokenizerIn_none noNul short none, none]
    exact ⟨_, rfl, rfl, rfl⟩
  · rw [tokenizerIn_loop noNul short none]
    have cut : words delim (stringSpaceTrim line) = strtok delim (stringSpaceTrim line) := rfl
    obtain ⟨after, looped, filled⟩ := tokenLoop_fills (i := 0) table cut (by rwa [Nat.zero_add]) fits
    rw [Nat.zero_add] at looped filled
    exact ⟨_, looped, rfl, filled⟩

/-- Too many words, or one too long, run out of the table. -/
theorem tokenizerIn_overruns (noNul : 0 ∉ line) (short : line.length < consInputBufferSize)
    (overrun : ¬ ((strtok delim (stringSpaceTrim line)).length ≤ maxCmdTreeDepth ∧
      ∀ w ∈ strtok delim (stringSpaceTrim line), w.length ≤ leafValueHolderSize)) :
    tokenizerIn table line delim = .error .outOfBounds := by
  have some : strtok delim (stringSpaceTrim line) ≠ [] := by
    intro none
    rw [none] at overrun
    exact overrun ⟨Nat.zero_le _, fun w member => by cases member⟩
  rw [tokenizerIn_loop noNul short some]
  exact tokenLoop_overruns rfl (Nat.zero_le _) (by rwa [Nat.zero_add])

end

end TcpServerLib.Refinement
