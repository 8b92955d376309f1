import TcpServerLib.Model.CommandHistory

/-! # Replaying the history

The table of `show_history_callback` has room for as many offsets as a session records commands, and
takes one more than there are lines. With fewer lines than that the number of each triggers its
command, but so does the number behind the last one, with an empty command.
-/

namespace TcpServerLib.Soundness

open Machine Model

variable {lines before behind : List Bytes} {line : Bytes} {cmdOffset : List ℕ} {steps size : ℕ}
  {cmdChoice : ℤ}

/-- The file with these lines. -/
def fileOf (lines : List Bytes) : Bytes :=
  lines.flatMap (· ++ [10])

/-- The commands that are recorded, session after session. -/
def recorded (sessions : List (List Bytes)) : List Bytes :=
  sessions.flatMap (·.take maxSavedCmds)

/-- A string without a newline that has room in the buffer of the reader. -/
structure Recordable (line : Bytes) : Prop where
  noNul : 0 ∉ line
  noNewline : 10 ∉ line
  short : line.length < fileCmdSizeMax - 1

/-- What is handed to the parser: the line with this number. -/
def triggered (lines : List Bytes) (cmdChoice : ℤ) : Option Bytes :=
  if 0 ≤ cmdChoice then lines[cmdChoice.toNat]?.map (· ++ [10]) else none

theorem fileOf_append : fileOf (before ++ behind) = fileOf before ++ fileOf behind :=
  List.flatMap_append

theorem fileOf_split : fileOf (before ++ line :: behind) = fileOf before ++ (line ++ 10 :: fileOf behind) := by
  rw [fileOf_append]
  simp [fileOf]

theorem recordCommands_file (commands : List Bytes) {history : CmdHistory}
    (within : history.cmdCounter ≤ maxSavedCmds)
    (lines : List Bytes) (soFar : history.file = if lines = [] then none else some (fileOf lines)) :
    (commands.foldl recordCommand history).file =
      if lines ++ commands.take (maxSavedCmds - history.cmdCounter) = [] then none
      else some (fileOf (lines ++ commands.take (maxSavedCmds - history.cmdCounter))) := by
  induction commands generalizing history lines with
  | nil => rw [List.take_nil, List.append_nil]; exact soFar
  | cons command commands ih =>
    rw [List.foldl_cons]
    rcases within.eq_or_lt with full | room
    · rw [recordCommand, if_pos full, ih within lines soFar, full, Nat.sub_self, List.take_zero, List.take_zero]
    · have content : history.file.getD [] = fileOf lines := by
        rw [soFar]
        split_ifs with empty
        · rw [empty]; rfl
        · rfl
      have added : (recordCommand history command).file = some (fileOf (lines ++ [command])) := by
        rw [recordCommand, if_neg room.ne, content, fileOf_append]
        simp [fileOf]
      have counter : (recordCommand history command).cmdCounter = history.cmdCounter + 1 := by
        rw [recordCommand, if_neg room.ne]
      have further : maxSavedCmds - history.cmdCounter = maxSavedCmds - (history.cmdCounter + 1) + 1 := by omega
      rw [ih (counter ▸ room) (lines ++ [command])
        (by rw [added, if_neg (by simp)]), counter, further, List.take_succ_cons,
        List.append_assoc, List.singleton_append]

theorem recordSessions_file (sessions : List (List Bytes)) :
    recordSessions sessions = if recorded sessions = [] then none else some (fileOf (recorded sessions)) := by
  have further (sessions : List (List Bytes)) (file : Option Bytes) (lines : List Bytes)
      (soFar : file = if lines = [] then none else some (fileOf lines)) :
      sessions.foldl recordSession file =
        if lines ++ recorded sessions = [] then none else some (fileOf (lines ++ recorded sessions)) := by
    induction sessions generalizing file lines with
    | nil => rw [recorded, List.flatMap_nil, List.append_nil]; exact soFar
    | cons session sessions ih =>
      have added : recordSession file session = if lines ++ session.take maxSavedCmds = [] then none
          else some (fileOf (lines ++ session.take maxSavedCmds)) :=
        @recordCommands_file session ⟨file, 0⟩ (Nat.zero_le _) lines soFar
      have split : recorded (session :: sessions) = session.take maxSavedCmds ++ recorded sessions :=
        List.flatMap_cons
      rw [List.foldl_cons, ih _ _ added, split, ← List.append_assoc]
  exact further sessions none [] rfl

theorem throughNewline_line (noNewline : 10 ∉ line) (rest : Bytes) :
    throughNewline (line ++ 10 :: rest) = line ++ [10] := by
  induction line with
  | nil => rfl
  | cons byte line ih =>
    obtain ⟨other, noNewline⟩ := not_or.mp (List.mem_cons.not.mp noNewline)
    rw [List.cons_append, throughNewline, if_neg fun same => other same.symm, ih noNewline]
    rfl

theorem fgets_line (recordable : Recordable line) (behind : Bytes) (file : Bytes) :
    fgets fileCmdSizeMax (file ++ (line ++ 10 :: behind)) file.length = some (line ++ [10]) := by
  have short := recordable.short
  obtain ⟨room, enough⟩ : ∃ room, fileCmdSizeMax - 1 = line.length + (room + 1) :=
    ⟨fileCmdSizeMax - 1 - line.length - 1, by omega⟩
  have read : throughNewline (((file ++ (line ++ 10 :: behind)).drop file.length).take (fileCmdSizeMax - 1)) =
      line ++ [10] := by
    rw [List.drop_left, enough, List.take_length_add_append, List.take_succ_cons]
    exact throughNewline_line recordable.noNewline _
  rw [fgets, read]
  exact if_neg (by simp)

theorem fgets_end (file : Bytes) : fgets size file file.length = none := by
  rw [fgets, List.drop_length, List.take_nil]
  rfl

theorem chosenCommand_line (recordable : Recordable line) (behind : Bytes) (file : Bytes) :
    chosenCommand (file ++ (line ++ 10 :: behind)) file.length = line ++ [10] := by
  have short := recordable.short
  have noNul : 0 ∉ line ++ [10] := by
    rw [List.mem_append, not_or]
    exact ⟨recordable.noNul, by decide⟩
  have cleared : (pad fileCmdSizeMax (line ++ [10])).set (fileCmdSizeMax - 1) 0 =
      pad fileCmdSizeMax (line ++ [10]) := by
    have length : (line ++ [10]).length = line.length + 1 := by rw [List.length_append, List.length_singleton]
    rw [pad, List.set_append_right _ _ (by omega), List.set_replicate_self]
  rw [chosenCommand, fgets_line recordable, Option.getD_some, cleared, unpad_pad noNul]

theorem chosenCommand_end (file : Bytes) : chosenCommand file file.length = [] := by
  rw [chosenCommand, fgets_end]
  rfl

/-- The table holds where each of the first lines begins, and where the one behind them would. -/
structure Noted (lines : List Bytes) (n : ℕ) (cmdOffset : List ℕ) : Prop where
  length : cmdOffset.length = maxSavedCmds
  starts : ∀ i ≤ n, cmdOffset[i]? = some (fileOf (lines.take i)).length

theorem noted_store (noted : Noted lines before.length cmdOffset) (split : lines = before ++ line :: behind)
    (room : before.length + 1 < maxSavedCmds) : Noted lines (before ++ [line]).length
      (cmdOffset.set (before.length + 1) ((fileOf before).length + (line ++ [10]).length)) := by
  have length : (before ++ [line]).length = before.length + 1 := by rw [List.length_append, List.length_singleton]
  constructor
  · rw [List.length_set]
    exact noted.length
  · intro i upTo
    rcases (length ▸ upTo).lt_or_eq with earlier | rfl
    · rw [List.getElem?_set_ne (by omega)]
      exact noted.starts i (Nat.le_of_lt_succ earlier)
    · have taken : lines.take (before.length + 1) =
          before ++ [line] := by rw [split, List.take_length_add_append]; rfl
      rw [List.getElem?_set_self (noted.length ▸ room), taken, fileOf_append, List.length_append]
      simp [fileOf]

theorem noteOffsets_fileOf (recordable : ∀ line ∈ lines, Recordable line) (split : lines = before ++ behind)
    (noted : Noted lines before.length cmdOffset) (enough : behind.length < steps) :
    (lines.length < maxSavedCmds → ∃ table, Noted lines lines.length table ∧
      noteOffsets (fileOf lines) steps (fileOf before).length (before.length + 1) cmdOffset =
        some (.ok (lines.length + 1, table))) ∧
    (before.length < maxSavedCmds → maxSavedCmds ≤ lines.length →
      noteOffsets (fileOf lines) steps (fileOf before).length (before.length + 1) cmdOffset =
        some (.error .outOfBounds)) := by
  induction behind generalizing before cmdOffset steps with
  | nil =>
    rw [List.append_nil] at split
    subst split
    refine ⟨fun _ => ⟨cmdOffset, noted, ?_⟩, fun fewer more => absurd more (Nat.not_le_of_lt fewer)⟩
    obtain ⟨steps, rfl⟩ := Nat.exists_eq_add_one_of_ne_zero enough.ne_bot
    rw [noteOffsets, fgets_end]
  | cons line behind ih =>
    obtain ⟨steps, rfl⟩ := Nat.exists_eq_add_one_of_ne_zero (Nat.ne_zero_of_lt enough)
    have file : fileOf lines = fileOf before ++ (line ++ 10 :: fileOf behind) := split ▸ fileOf_split
    have member : line ∈ lines := split ▸ List.mem_append_right before List.mem_cons_self
    have more : before.length + 1 ≤ lines.length := by rw [split, List.length_append, List.length_cons]; omega
    have read := fgets_line (recordable line member) (fileOf behind) (fileOf before)
    rw [← file] at read
    by_cases room : before.length + 1 < maxSavedCmds
    · have next : (fileOf (before ++ [line])).length = (fileOf before).length + (line ++ [10]).length := by
        rw [fileOf_append, List.length_append]
        simp [fileOf]
      have count : (before ++ [line]).length = before.length +
          1 := by rw [List.length_append, List.length_singleton]
      have further := ih (by rw [split, List.append_assoc]; rfl) (noted_store noted split room)
          (Nat.lt_of_succ_lt_succ enough)
      rw [next, count] at further
      rw [noteOffsets, read]
      simp only [storeOffset, noted.length, if_pos room]
      exact ⟨further.1, fun _ => further.2 room⟩
    · refine ⟨fun fewer => by omega, fun _ _ => ?_⟩
      rw [noteOffsets, read]
      simp only [storeOffset, noted.length, if_neg room]

theorem noted_first (lines : List Bytes) : Noted lines 0 ((List.replicate maxSavedCmds 0).set 0 0) := by
  constructor
  · rfl
  · intro i upTo
    rw [Nat.le_zero.mp upTo]
    rfl

/-- The number of a line triggers it. -/
theorem chosenCommand_fileOf (recordable : ∀ line ∈ lines, Recordable line) {i : ℕ}
    (within : i < lines.length) :
    some (chosenCommand (fileOf lines) (fileOf (lines.take i)).length) = lines[i]?.map (· ++ [10]) := by
  have split : lines = lines.take i ++ lines[i] :: lines.drop (i + 1) := by
    rw [List.cons_getElem_drop_succ, List.take_append_drop]
  have file : fileOf lines = fileOf (lines.take i) ++ (lines[i] ++ 10 :: fileOf (lines.drop (i + 1))) := by
    rw [← fileOf_split, ← split]
  rw [file, chosenCommand_line (recordable _ (List.getElem_mem within)),
    List.getElem?_eq_getElem within, Option.map_some]

theorem triggered_beyond (outside : cmdChoice < 0 ∨ lines.length ≤ cmdChoice) :
    triggered lines cmdChoice = none := by
  rw [triggered]
  split_ifs with positive
  · rw [List.getElem?_eq_none (by omega), Option.map_none]
  · rfl

/-- Fewer lines than the table has entries, and not the number behind the last of them, unless there
is no file. -/
theorem showHistoryCallback_iff {sessions : List (List Bytes)}
    (recordable : ∀ line ∈ recorded sessions, Recordable line)
    (enough : (recorded sessions).length < steps) :
    CmdHistory.showHistoryCallback steps (recordSessions sessions) cmdChoice =
      some (.ok (triggered (recorded sessions) cmdChoice)) ↔
      (recorded sessions).length < maxSavedCmds ∧
      (cmdChoice ≠ (recorded sessions).length ∨ recorded sessions = []) := by
  rw [recordSessions_file]
  generalize recorded sessions = lines at recordable enough
  split_ifs with empty
  · subst empty
    refine iff_of_true ?_ ⟨by decide, .inr rfl⟩
    rw [triggered, List.getElem?_nil, Option.map_none, ite_self]
    rfl
  · obtain ⟨fits, overflows⟩ :=
      noteOffsets_fileOf recordable (List.nil_append lines).symm (noted_first lines) enough
    by_cases fewer : lines.length < maxSavedCmds
    · obtain ⟨table, noted, ran⟩ := fits fewer
      have ran : noteOffsets (fileOf lines) steps 0 1 ((List.replicate maxSavedCmds 0).set 0 0) = _ := ran
      rw [and_iff_right fewer, or_iff_left empty]
      simp only [CmdHistory.showHistoryCallback, ran]
      by_cases accepted : 0 ≤ cmdChoice ∧ cmdChoice < (lines.length + 1 : ℕ)
      · rw [if_pos accepted, noted.starts cmdChoice.toNat (by omega)]
        simp only [Option.some.injEq, Except.ok.injEq]
        by_cases last : cmdChoice = lines.length
        · have end_ : (fileOf (lines.take cmdChoice.toNat)).length = (fileOf lines).length := by
            rw [List.take_of_length_le (by omega)]
          rw [end_, chosenCommand_end, triggered_beyond (.inr last.ge)]
          exact iff_of_false (by simp) fun other => other last
        · have within : cmdChoice.toNat < lines.length := by omega
          rw [chosenCommand_fileOf recordable within, triggered, if_pos accepted.1]
          exact iff_of_true rfl last
      · rw [if_neg accepted, triggered_beyond (by omega)]
        exact iff_of_true rfl (by omega)
    · have ran : noteOffsets (fileOf lines) steps 0 1 ((List.replicate maxSavedCmds 0).set 0 0) = _ :=
        overflows (by decide) (Nat.le_of_not_lt fewer)
      simp only [CmdHistory.showHistoryCallback, ran]
      exact iff_of_false (by simp) fun holds => fewer holds.1

/-- The second of two commands, recorded in two sessions. -/
theorem showHistoryCallback_second :
    CmdHistory.showHistoryCallback 3 (recordSessions [[[97]], [[98, 99]]]) 1 =
      some (.ok (triggered [[97], [98, 99]] 1)) := by
  have recordable : ∀ line ∈ recorded [[[97]], [[98, 99]]], Recordable line := by
    intro line member
    rcases List.mem_pair.mp member with rfl | rfl
    · exact ⟨by decide, by decide, by decide⟩
    · exact ⟨by decide, by decide, by decide⟩
  exact (showHistoryCallback_iff recordable (by decide)).mpr ⟨by decide, .inl (by decide)⟩

/-- One command is recorded, and the number 1 is taken for one: the parser is handed an empty
command. Thirty commands and one more of a second session fill the table and write behind it. -/
theorem showHistoryCallback_deviates :
    CmdHistory.showHistoryCallback 2 (recordSessions [[[97]]]) 1 ≠ some
    (.ok (triggered (recorded [[[97]]]) 1)) ∧
      CmdHistory.showHistoryCallback 32 (recordSessions [List.replicate 30 [97], [[97]]]) 0 =
        some (.error .outOfBounds) := by
  decide +kernel

end TcpServerLib.Soundness
