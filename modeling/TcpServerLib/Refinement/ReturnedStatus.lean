import TcpServerLib.Refinement.SessionRuns

/-! # The status that was returned last

Nothing but the check of a test case reads what `parse_input_cmd` has returned, and that check comes
right behind a command. So a run does not depend on the status it begins with.
-/

namespace TcpServerLib.Refinement

open Machine Model CommandTree

variable {ι : Type*} {tree : CommandTree ι} {outside : Outside} {tokens : List Token}
  {parent : Option ι} {p : ι}
  {mode : OpMode} {cli after : Cli ι} {status : CmdParseStatus} {tasks rest : List (CliTask ι)}

/-- The same state, but for the status. -/
def returning (status : CmdParseStatus) (cli : Cli ι) : Cli ι :=
  { cli with returned := status }

@[simp] theorem returning_returning (status status' : CmdParseStatus) (cli : Cli ι) :
    returning status (returning status' cli) = returning status cli := rfl

@[simp] theorem returning_returned (cli : Cli ι) : returning cli.returned cli = cli := rfl

/-- A result with its state changed. -/
def withState {α : Type*} (f : Cli ι → Cli ι) : Cli ι × α → Cli ι × α :=
  Prod.map f id

variable [DecidableEq ι]

def Walked.returning (status : CmdParseStatus) : Walked ι → Walked ι
  | .stopped stopped cli => .stopped stopped (Refinement.returning status cli)
  | .arrived parent p mode cli => .arrived parent p mode (Refinement.returning status cli)

def Built.returning (status : CmdParseStatus) (built : Built ι) : Built ι :=
  { built with cli := Refinement.returning status built.cli }

/-- The walk over the tokens does not read the status of the last line. -/
theorem walk_returning (status : CmdParseStatus) (tokens : List Token) (parent : Option ι) (p : ι)
    (mode : OpMode) (cli : Cli ι) :
    tree.walk outside tokens parent p mode (returning status cli) =
      (tree.walk outside tokens parent p mode cli).map (Walked.returning status) := by
  induction tokens generalizing parent p mode cli with
  | nil => rfl
  | cons token tokens ih =>
    have kept (asked : ℕ) : { returning status cli with asked } = returning status { cli with asked } := rfl
    have collected (c : ι) (leafType : LeafType) (leafId : LeafId) (asked : ℕ) :
        ({ returning status cli with asked } : Cli ι).collectLeaf c leafType leafId token =
          returning status (({ cli with asked } : Cli ι).collectLeaf c leafType leafId token) := rfl
    have questions : (returning status cli).asked = cli.asked := rfl
    rw [walk, walk, questions]
    split
    · rfl
    · rfl
    · split
      · split
        · rfl
        · rfl
        · split
          · rw [collected, ih]
          · rfl
      · rw [kept, ih]
      · rw [kept, ih]

/-- The callback on entering a mode does not read the status. -/
theorem modeEnterCallback_returning (status : CmdParseStatus) (p : ι) (mode : OpMode) (cli : Cli ι) :
    tree.modeEnterCallback p mode (returning status cli) =
      (tree.modeEnterCallback p mode cli).map (withState (returning status)) := by
  rw [modeEnterCallback, modeEnterCallback]
  split
  · rfl
  · split <;> rfl

/-- What is done at the end of a line does not depend on the status. -/
theorem dispatch_returning (status : CmdParseStatus) (parent : Option ι) (p : ι) (mode : OpMode)
    (cli : Cli ι) :
    tree.dispatch parent p mode (returning status cli) =
      (tree.dispatch parent p mode cli).map (Built.returning status) := by
  unfold dispatch
  split
  · split
    · rfl
    · split <;> rfl
  · split
    · split
      · rfl
      · rw [displaySubOptionsCallback, displaySubOptionsCallback]
        split <;> rfl
    · split
      · split
        · rfl
        · next above =>
          have marked : (returning status cli).markCheckpoint.collectTlv
              (commandCodeTlv (tree.param above).cmdCode) =
              returning status (cli.markCheckpoint.collectTlv (commandCodeTlv (tree.param above).cmdCode)) := rfl
          rw [marked, modeEnterCallback_returning]
          cases tree.modeEnterCallback above (if mode = .configDisable then .configDisable else .configEnable)
            (cli.markCheckpoint.collectTlv (commandCodeTlv (tree.param above).cmdCode)) <;> rfl
      · split
        · rfl
        · split
          · rfl
          · split <;> rfl

/-- The building of the TLVs of a line does not read the status. -/
theorem build_returning (status : CmdParseStatus) (tokens : List Token) (cli : Cli ι) :
    tree.buildTlvBuffer outside tokens (returning status cli) =
      (tree.buildTlvBuffer outside tokens cli).map (Built.returning status) := by
  have cursor : (returning status cli).cursor = cli.cursor := rfl
  rw [buildTlvBuffer, buildTlvBuffer, walk_returning, cursor]
  cases tree.walk outside tokens none cli.cursor .modeUnknown cli with
  | error fault => rfl
  | ok walked =>
    cases walked with
    | stopped stopped middle => rfl
    | arrived parent p mode middle =>
      dsimp only [Except.map, Walked.returning]
      split
      · exact dispatch_returning status parent p mode middle
      · rfl

/-- The way to the top of the tree does not read it. -/
theorem gotoTop_returning (status : CmdParseStatus) (cli : Cli ι) :
    tree.gotoTopOfCmdTree (returning status cli) = (tree.gotoTopOfCmdTree cli).map (returning status) := by
  have cursor : (returning status cli).cursor = cli.cursor := rfl
  rw [gotoTopOfCmdTree, gotoTopOfCmdTree, cursor]
  split
  · rfl
  · split
    · rfl
    · split <;> rfl

theorem leaveLeaf_returning (status : CmdParseStatus) (cli : Cli ι) :
    tree.leaveLeaf (returning status cli) = (tree.leaveLeaf cli).map (returning status) := by
  have cursor : (returning status cli).cursor = cli.cursor := rfl
  have buffer : (returning status cli).tlvBuff = cli.tlvBuff := rfl
  rw [leaveLeaf, leaveLeaf, cursor, buffer]
  split
  · split <;> rfl
  · rfl

/-- The way one level up does not read it. -/
theorem goOneLevelUp_returning (status : CmdParseStatus) (cli : Cli ι) :
    tree.goOneLevelUpCmdTree (returning status cli) = (tree.goOneLevelUpCmdTree cli).map (returning status) := by
  have cursor : (returning status cli).cursor = cli.cursor := rfl
  rw [goOneLevelUpCmdTree, goOneLevelUpCmdTree, cursor, leaveLeaf_returning]
  split
  · rfl
  · cases tree.leaveLeaf cli with
    | error fault => rfl
    | ok left =>
      dsimp only [Except.map]
      split
      · rfl
      · split
        · rfl
        · split <;> rfl

theorem buildCmdTreeLeavesData_returning (status : CmdParseStatus) (cli : Cli ι) :
    tree.buildCmdTreeLeavesData (returning status cli) = (tree.buildCmdTreeLeavesData cli).map
    (returning status) := by
  have cursor : (returning status cli).cursor = cli.cursor := rfl
  rw [buildCmdTreeLeavesData, buildCmdTreeLeavesData, cursor]
  split
  · rfl
  · split <;> rfl

/-- The return from a line under `do` does not read it. -/
theorem afterDo_returning (status : CmdParseStatus) (old : ι) (cli : Cli ι) :
    tree.afterDo old (returning status cli) = (tree.afterDo old cli).map (returning status) := by
  have cursor : (returning status cli).cursor = cli.cursor := rfl
  have moved : (returning status cli).setCmdTreeCursor old = returning status (cli.setCmdTreeCursor old) := rfl
  rw [afterDo, afterDo, cursor, moved, buildCmdTreeLeavesData_returning]
  split
  · split
    · rfl
    · split <;> rfl
  · cases tree.buildCmdTreeLeavesData (cli.setCmdTreeCursor old) <;> rfl

theorem configModeEnterHandler_returning (status : CmdParseStatus) (p : ι) (cli : Cli ι) :
    tree.configModeEnterHandler p (returning status cli) = (tree.configModeEnterHandler p cli).map
    (returning status) := by
  rw [configModeEnterHandler, configModeEnterHandler]
  split <;> rfl

omit [DecidableEq ι] in
/-- The start of a file of lines does not read it. -/
theorem runTestCase_returning (status : CmdParseStatus) (cli : Cli ι) :
    runTestCase outside (returning status cli) = (runTestCase outside cli).map
    (withState (returning status)) := by
  rw [runTestCase, runTestCase]
  dsimp only [Cli.ask]
  have questions : (returning status cli).asked = cli.asked := rfl
  rw [questions]
  cases outside.testCase cli.asked <;> rfl

theorem restoreOrReset_returning (status : CmdParseStatus) (cli : Cli ι) :
    tree.restoreOrReset (returning status cli) = returning status (tree.restoreOrReset cli) := by
  rw [restoreOrReset, restoreOrReset]
  have cursor : (returning status cli).cursor = cli.cursor := rfl
  rw [cursor]
  split <;> rfl

/-- No handler reads the status. -/
theorem runHandler_returning (status : CmdParseStatus) (p : ι) (mode : OpMode) (cli : Cli ι) :
    tree.runHandler outside p mode (returning status cli) =
      (tree.runHandler outside p mode cli).map (withState (returning status)) := by
  have invoked : (returning status cli).invoke p (some (returning status cli).tlvBuff) mode =
      returning status (cli.invoke p (some cli.tlvBuff) mode) := rfl
  rw [runHandler, runHandler, invoked]
  generalize cli.invoke p (some cli.tlvBuff) mode = cli
  have buffer : (returning status cli).tlvBuff = cli.tlvBuff := rfl
  have questions : (returning status cli).asked = cli.asked := rfl
  cases (tree.param p).callback with
  | none => rfl
  | some callback =>
    cases callback with
    | configModeEnterHandler =>
      dsimp only
      rw [configModeEnterHandler_returning]
      cases tree.configModeEnterHandler p cli <;> rfl
    | repeatLastCommand => rfl
    | showHistoryCallback =>
      dsimp only
      rw [showHistoryCallback, showHistoryCallback]
      dsimp only [Cli.ask]
      rw [questions]
      cases outside.historyCommand cli.asked <;> rfl
    | utTestHandler =>
      dsimp only
      rw [buffer]
      split
      · rfl
      · split
        · exact runTestCase_returning status cli
        · rfl
    | exitCmdHandler =>
      dsimp only
      rw [goOneLevelUp_returning]
      cases tree.goOneLevelUpCmdTree cli <;> rfl
    | endCmdHandler =>
      dsimp only
      rw [gotoTop_returning]
      cases tree.gotoTopOfCmdTree cli <;> rfl
    | cliTerminateHandler => rfl
    | showExtensionParamHandler =>
      dsimp only
      split <;> rfl
    | application => rfl

/-- The status is read before a command sets it. -/
def ReadsStatus : List (CliTask ι) → Prop
  | [] => False
  | .parseInputCmd _ :: _ => False
  | .endOfCommand _ :: _ => False
  | .expectComplete :: _ => True
  | .fileLine _ :: tasks => ReadsStatus tasks
  | .handler _ _ :: tasks => ReadsStatus tasks
  | .repeatHandler :: tasks => ReadsStatus tasks
  | .afterDo _ :: tasks => ReadsStatus tasks
  | .endOfFileLine :: tasks => ReadsStatus tasks

omit [DecidableEq ι] in
/-- A line leaves no task that reads the status. -/
theorem readsStatus_built {built : Built ι} (reads : ReadsStatus (built.tasks ++ rest)) : ReadsStatus rest := by
  rw [Built.tasks] at reads
  split at reads <;> exact reads

omit [DecidableEq ι] in
/-- Lines of a file do not read the status themselves. -/
theorem readsStatus_fileLines {lines : List Bytes} (reads : ReadsStatus (lines.map CliTask.fileLine ++ rest)) :
    ReadsStatus rest := by
  induction lines with
  | nil => exact reads
  | cons line lines ih => exact ih reads

omit [DecidableEq ι] in
/-- The commands of a test case set the status before it is checked. -/
theorem readsStatus_runTestCase (ran : runTestCase outside cli = .ok (after, tasks))
    (reads : ReadsStatus (tasks ++ rest)) :
    ReadsStatus rest := by
  rw [runTestCase] at ran
  split at ran
  · cases ran
  · next lines _ _ =>
    cases ran
    cases lines with
    | nil => exact reads
    | cons line lines => exact reads.elim

theorem readsStatus_runHandler (ran : tree.runHandler outside p mode cli = .ok (after, tasks))
    (reads : ReadsStatus (tasks ++ rest)) : ReadsStatus rest := by
  cases runHandler_runs ran with
  | configModeEnterHandler => exact reads
  | exitCmdHandler => exact reads
  | endCmdHandler => exact reads
  | commandChosen => exact reads.elim
  | runTestCase tested => exact readsStatus_runTestCase tested reads
  | showExtension => exact reads
  | nothing => exact reads

/-- What a task does from two states that differ in the status: the same to both, or the status is
not looked at. -/
def StatusUnread (tree : CommandTree ι) (outside : Outside) (status : CmdParseStatus)
    (task : CliTask ι) (rest : List (CliTask ι)) (cli : Cli ι) : Prop :=
  tree.carryOut outside task (returning status cli) = tree.carryOut outside task cli ∨
    tree.carryOut outside task (returning status cli) =
        (tree.carryOut outside task cli).map (withState (returning status)) ∧
      ∀ after next, tree.carryOut outside task cli = .ok (after, next) → ¬ ReadsStatus (next ++ rest)

/-- A line written over the status ends the same, whatever the status was. -/
theorem parseInputCmd_unread (status : CmdParseStatus) (line : Bytes) (rest : List (CliTask ι)) (cli : Cli ι) :
    StatusUnread tree outside status (.parseInputCmd line) rest cli := by
  have ends (status : CmdParseStatus) : ¬ ReadsStatus (.endOfCommand status :: rest) := id
  rw [StatusUnread, carryOut, carryOut, parseInputCmd, parseInputCmd]
  cases tokenizer line 32 with
  | error fault => exact .inl rfl
  | ok tokens =>
    cases tokens with
    | nil => exact .inl rfl
    | cons first others =>
      refine .inr ?_
      have branch : tree.shortcut (returning status cli) first others = tree.shortcut cli first others := rfl
      have cursor : (returning status cli).cursor = cli.cursor := rfl
      dsimp only
      rw [branch]
      cases tree.shortcut cli first others with
      | none =>
        dsimp only
        rw [build_returning]
        cases builds : tree.buildTlvBuffer outside (first :: others) cli with
        | error fault => exact ⟨rfl, by simp⟩
        | ok built =>
          refine ⟨rfl, ?_⟩
          rintro after next ⟨⟩ reads
          rw [List.append_assoc] at reads
          exact ends _ (readsStatus_built reads)
      | some word =>
        cases word with
        | doCommand =>
          dsimp only
          rw [cursor]
          split
          · exact ⟨rfl, by simp⟩
          · split
            · have moved : ((returning status cli).setCmdTreeCursor tree.doHook).resetBuffer =
                  returning status (cli.setCmdTreeCursor tree.doHook).resetBuffer := rfl
              rw [moved, build_returning]
              cases builds : tree.buildTlvBuffer outside others
                (cli.setCmdTreeCursor tree.doHook).resetBuffer with
              | error fault => exact ⟨rfl, by simp⟩
              | ok built =>
                refine ⟨rfl, ?_⟩
                rintro after next ⟨⟩ reads
                rw [List.append_assoc] at reads
                have later := readsStatus_built reads
                exact ends built.status later
            · refine ⟨rfl, ?_⟩
              rintro after next ⟨⟩
              exact ends _
        | repeatCommand =>
          refine ⟨rfl, ?_⟩
          rintro after next ⟨⟩
          exact ends .complete
        | oneLevelUp =>
          dsimp only
          rw [goOneLevelUp_returning]
          cases tree.goOneLevelUpCmdTree cli with
          | error fault => exact ⟨rfl, fun _ _ ran => by cases ran⟩
          | ok up =>
            refine ⟨rfl, ?_⟩
            rintro after next ⟨⟩
            exact ends .complete
        | top =>
          dsimp only
          rw [gotoTop_returning]
          cases tree.gotoTopOfCmdTree cli with
          | error fault => exact ⟨rfl, fun _ _ ran => by cases ran⟩
          | ok top =>
            refine ⟨rfl, ?_⟩
            rintro after next ⟨⟩
            exact ends .complete
        | clearScreen =>
          refine ⟨rfl, ?_⟩
          rintro after next ⟨⟩
          exact ends .complete
        | runUt =>
          dsimp only
          rw [runTestCase_returning]
          cases ran : runTestCase outside cli with
          | error fault => exact ⟨rfl, fun _ _ ran => by cases ran⟩
          | ok result =>
            refine ⟨rfl, ?_⟩
            rintro after next ⟨⟩ reads
            rw [List.append_assoc] at reads
            exact ends .complete (readsStatus_runTestCase ran reads)
        | configLoad =>
          dsimp only
          rw [parseFile, parseFile]
          dsimp only [Cli.ask]
          have questions : (returning status cli).asked = cli.asked := rfl
          rw [questions]
          cases outside.file cli.asked with
          | none =>
            refine ⟨rfl, ?_⟩
            rintro after next ⟨⟩
            exact ends .complete
          | some lines =>
            refine ⟨rfl, ?_⟩
            rintro after next ⟨⟩ reads
            rw [List.append_assoc] at reads
            exact ends .complete (readsStatus_fileLines reads)

/-- Every task that does not read the status ends the same over any. -/
theorem carryOut_unread (status : CmdParseStatus) {task : CliTask ι}
    (unread : ¬ ReadsStatus (task :: rest)) (cli : Cli ι) :
    StatusUnread tree outside status task rest cli := by
  cases task with
  | parseInputCmd line => exact parseInputCmd_unread status line rest cli
  | fileLine line =>
    rw [StatusUnread, carryOut, carryOut, parseFileLine, parseFileLine]
    cases tokenizer line 32 with
    | error fault => exact .inl rfl
    | ok tokens =>
      have moved : (returning status cli).resetBuffer = returning status cli.resetBuffer := rfl
      refine .inr ?_
      dsimp only
      rw [moved, build_returning]
      cases tree.buildTlvBuffer outside tokens cli.resetBuffer with
      | error fault => exact ⟨rfl, by simp⟩
      | ok built =>
        refine ⟨rfl, ?_⟩
        rintro after next ⟨⟩ reads
        rw [List.append_assoc] at reads
        have later := readsStatus_built reads
        exact unread later
  | handler p mode =>
    refine .inr ⟨runHandler_returning status p mode cli, fun after next carried reads => ?_⟩
    have later : ReadsStatus rest := readsStatus_runHandler carried reads
    exact unread later
  | repeatHandler =>
    refine .inr ⟨rfl, ?_⟩
    rintro after next ⟨⟩
    exact id
  | afterDo old =>
    rw [StatusUnread, carryOut, carryOut, afterDo_returning]
    cases tree.afterDo old cli with
    | error fault => exact .inr ⟨rfl, nofun⟩
    | ok back =>
      refine .inr ⟨rfl, ?_⟩
      rintro after next ⟨⟩
      exact unread
  | endOfCommand ended =>
    refine .inl ?_
    rw [carryOut, carryOut, restoreOrReset_returning]
    rfl
  | endOfFileLine =>
    rw [StatusUnread, carryOut, carryOut, restoreOrReset_returning]
    refine .inr ⟨rfl, ?_⟩
    rintro after next ⟨⟩
    exact unread
  | expectComplete => exact absurd trivial unread

/-- A run that does not read the status before it sets it does not depend on it. -/
theorem finishes_returning (status : CmdParseStatus) (unread : ¬ ReadsStatus tasks)
    (ends : Finishes tree outside cli tasks after) :
    ∃ last, Finishes tree outside (returning status cli) tasks (returning last after) := by
  obtain ⟨fuel, ran⟩ := ends
  induction fuel generalizing cli tasks with
  | zero =>
    cases ran
    exact ⟨status, finishes_nil.mpr rfl⟩
  | succ fuel ih =>
    cases tasks with
    | nil =>
      rw [Session.run_idle] at ran
      cases ran
      exact ⟨status, finishes_nil.mpr rfl⟩
    | cons task rest =>
      rw [Session.run] at ran
      dsimp only at ran
      cases carried : tree.carryOut outside task cli with
      | error fault =>
        rw [carried] at ran
        cases ran
      | ok result =>
        obtain ⟨middle, next⟩ := result
        rw [carried] at ran
        dsimp only at ran
        rcases carryOut_unread status unread cli with same | ⟨moved, later⟩
        · refine ⟨after.returned, finishes_cons.mpr ⟨middle, next, same.trans carried, fuel, ?_⟩⟩
          rw [returning_returned]
          exact ran
        · obtain ⟨last, ends⟩ := ih (later middle next carried) ran
          rw [carried] at moved
          exact ⟨last, finishes_cons.mpr ⟨returning status middle, next, moved, ends⟩⟩

end TcpServerLib.Refinement
