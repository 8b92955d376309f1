import TcpServerLib.Machine.Path
import TcpServerLib.Model.CommandTree

/-! # The command parser

`parse_input_cmd` and the handlers of the library call each other: a handler may read a line from
the history or from a script and hand it to the parser while the line it belongs to is still being
processed. A session therefore carries the calls it is in the middle of as a list of tasks, the
innermost one first. What is read from outside comes from an `Outside`, which answers one question
after the other.
-/

namespace TcpServerLib.Model

open Machine

inductive CmdParseStatus where
  | complete
  | invalidLeaf
  | userInvalidLeaf
  | cmdNotFound
  | incompleteCommand
deriving DecidableEq, Repr

/-- What the `n`-th question is answered: a choice of the user, the last command, the chosen line of
the history, the lines of a file, the commands of a test case. -/
structure Outside where
  choice : ℕ → ℤ
  lastCommand : ℕ → Bytes
  historyCommand : ℕ → Option Bytes
  file : ℕ → Option (List Bytes)
  testCase : ℕ → Option (List Bytes)

structure Invocation (ι : Type*) where
  param : ι
  buffer : Option SerBuff
  enableOrDisable : OpMode

structure Cli (ι : Type*) where
  cursor : ι
  tlvBuff : SerBuff
  valueHolder : ι → Value
  asked : ℕ
  /-- The status `parse_input_cmd` has returned last. -/
  returned : CmdParseStatus
  invoked : List (Invocation ι)

/-- A call that has been made and not been carried out. -/
inductive CliTask (ι : Type*) where
  | parseInputCmd (line : Bytes)
  | fileLine (line : Bytes)
  | handler (param : ι) (enableOrDisable : OpMode)
  | repeatHandler
  | afterDo (oldCursorState : ι)
  | endOfCommand (status : CmdParseStatus)
  | endOfFileLine
  | expectComplete
deriving DecidableEq

variable {ι : Type*} [DecidableEq ι]

namespace Cli

def collectTlv (cli : Cli ι) (tlv : Tlv) : Cli ι :=
  { cli with tlvBuff := Model.collectTlv cli.tlvBuff tlv }

def collectLeaf (cli : Cli ι) (p : ι) (leafType : LeafType) (leafId : LeafId) (token : Token) : Cli ι :=
  { cli with
    tlvBuff := Model.collectTlv cli.tlvBuff (tlvOfLeaf leafType leafId token.toCString)
    valueHolder := Function.update cli.valueHolder p token.toCString }

def setCmdTreeCursor (cli : Cli ι) (p : ι) : Cli ι :=
  { cli with cursor := p }

def markCheckpoint (cli : Cli ι) : Cli ι :=
  { cli with tlvBuff := cli.tlvBuff.markCheckpoint }

def resetBuffer (cli : Cli ι) : Cli ι :=
  { cli with tlvBuff := cli.tlvBuff.reset }

def invoke (cli : Cli ι) (p : ι) (buffer : Option SerBuff) (mode : OpMode) : Cli ι :=
  { cli with invoked := cli.invoked ++ [⟨p, buffer, mode⟩] }

/-- The answer to the next question. -/
def ask {α : Type*} (cli : Cli ι) (answers : ℕ → α) : α × Cli ι :=
  (answers cli.asked, { cli with asked := cli.asked + 1 })

end Cli

namespace CommandTree

variable (tree : CommandTree ι) (outside : Outside)

/-- `POSSIBILITY_ARRAY_SIZE`. -/
def possibilityArraySize : ℕ := 10

/-- The loop of `find_matching_param`: the last leaf among the options, and the commands that begin
with the token, or the one that is the token. -/
def scanOptions (token : Token) : List ι → Option ι → List ι → Except CliFault (Option ι × List ι)
  | [], leaf, possibilities => .ok (leaf, possibilities)
  | p :: options, leaf, possibilities =>
    match (tree.param p).cmdType.cmdName with
    | none => scanOptions token options (some p) possibilities
    | some cmdName =>
      if begins cmdName token.bytes then
        if token.bytes.length = cmdName.length then .ok (leaf, [p])
        else if possibilities.length + 1 < possibilityArraySize then
          scanOptions token options leaf (possibilities ++ [p])
        else .error .assertion
      else scanOptions token options leaf possibilities

def findMatchingParam (options : List ι) (token : Token) (asked : ℕ) : Except CliFault (Option ι × ℕ) :=
  match tree.scanOptions token options none [] with
  | .error fault => .error fault
  | .ok (leaf, []) => .ok (leaf, asked)
  | .ok (_, [p]) => .ok (some p, asked)
  | .ok (_, possibilities) =>
    if outside.choice asked < 0 then .ok (none, asked + 1)
    else .ok (possibilities[(outside.choice asked).toNat]?, asked + 1)

/-- `leaf_handler_array`: there is no handler for the last two. -/
def leafHandler : LeafType → Bytes → Except CliFault Bool
  | .boolean, value =>
    .ok (begins value (ascii ['t', 'r', 'u', 'e']) || begins value (ascii ['f', 'a', 'l', 's', 'e']))
  | .invalid, _ => .error .nullDereference
  | .leafMax, _ => .error .outOfBounds
  | _, _ => .ok true

def userValidates (userValidation : Option (Bytes → Bool)) (value : Bytes) : Bool :=
  match userValidation with
  | none => true
  | some validation => validation value

/-- How the loop of `build_tlv_buffer` ends, with the local variables that are used after it. -/
inductive Walked (ι : Type*) where
  | stopped (status : CmdParseStatus) (cli : Cli ι)
  | arrived (parent : Option ι) (param : ι) (enableOrDisable : OpMode) (cli : Cli ι)

def walk : List Token → Option ι → ι → OpMode → Cli ι → Except CliFault (Walked ι)
  | [], parent, param, mode, cli => .ok (.arrived parent param mode cli)
  | token :: tokens, _, param, mode, cli =>
    match tree.findMatchingParam outside (tree.param param).options token cli.asked with
    | .error fault => .error fault
    | .ok (none, asked) => .ok (.stopped .cmdNotFound { cli with asked })
    | .ok (some next, asked) =>
      match (tree.param next).cmdType with
      | .leaf leafType leafId userValidation =>
        match leafHandler leafType token.bytes with
        | .error fault => .error fault
        | .ok false => .ok (.stopped .invalidLeaf { cli with asked })
        | .ok true =>
          if userValidates userValidation token.bytes then
            walk tokens (some param) next mode ({ cli with asked }.collectLeaf next leafType leafId token)
          else .ok (.stopped .userInvalidLeaf { cli with asked })
      | .noCmd => walk tokens (some param) next .configDisable { cli with asked }
      | .cmd _ => walk tokens (some param) next mode { cli with asked }

/-- The handler that a command calls last of all, with the mode it is given. -/
abbrev Call (ι : Type*) := Option (ι × OpMode)

/-- What `build_tlv_buffer` returns and leaves behind. The call of a handler is the last thing it
does. -/
structure Built (ι : Type*) where
  status : CmdParseStatus
  cli : Cli ι
  call : Call ι

def hasHandler (p : ι) : Bool :=
  (tree.param p).callback.isSome

def showExtensionTlv : Tlv where
  leafType := .invalid
  leafId := ⟨ascii ['S', 'H', 'O', 'W', '_', 'E', 'X', 'T', 'E', 'N', 'S', 'I', 'O', 'N',
    'S'], by decide, by decide⟩
  value := ⟨ascii ['S', 'H', 'O', 'W', '_', 'B', 'R', 'I', 'E', 'F'], by decide, by decide⟩

/-- `memset (&dummy, 0, ..)`. -/
def dummyTlv : Tlv where
  leafType := .int
  leafId := ⟨[], by decide, by decide⟩
  value := ⟨[], by decide, by decide⟩

def displaySubOptionsCallback (p : ι) (cli : Cli ι) : Cli ι :=
  if (tree.param p).dispCallback then cli.collectTlv dummyTlv else cli

def modeEnterCallback (p : ι) (mode : OpMode) (cli : Cli ι) : Except CliFault (Cli ι × Call ι) :=
  if p = tree.root then .ok (cli, none)
  else
    match tree.buildModeConsoleName p with
    | .error fault => .error fault
    | .ok () => .ok (cli.setCmdTreeCursor p, if tree.hasHandler p then some (p, mode) else none)

/-- The mode of an ordinary command. -/
def commandMode (currHook : ι) (mode : OpMode) : OpMode :=
  if currHook = tree.configHook then
    if mode = .configDisable then .configDisable else .configEnable
  else .operational

/-- The dispatch at the end of a command that is complete. -/
def dispatch (parent : Option ι) (param : ι) (mode : OpMode) (cli : Cli ι) : Except CliFault (Built ι) :=
  if param = tree.showBriefExtension then
    match parent with
    | none => .error .nullDereference
    | some parent =>
      if tree.hasHandler parent then
        .ok ⟨.complete, ((cli.invoke param (some cli.tlvBuff) .operational).collectTlv
          showExtensionTlv).collectTlv
          (commandCodeTlv (tree.param parent).cmdCode), some (parent, .operational)⟩
      else .ok ⟨.incompleteCommand, cli, none⟩
  else if param = tree.suboptionsParam then
    match parent with
    | none => .error .nullDereference
    | some parent => .ok ⟨.complete, tree.displaySubOptionsCallback parent cli, none⟩
  else if param = tree.modeParam then
    match parent with
    | none => .error .nullDereference
    | some parent =>
      match tree.modeEnterCallback parent (if mode = .configDisable then .configDisable else .configEnable)
          (cli.markCheckpoint.collectTlv (commandCodeTlv (tree.param parent).cmdCode)) with
      | .error fault => .error fault
      | .ok (cli, call) => .ok ⟨.complete, cli, call⟩
  else if param = tree.cmdExpansionParam then .ok ⟨.complete, cli, none⟩
  else
    match tree.getCurrentBranchHook param with
    | .error fault => .error fault
    | .ok currHook =>
      .ok ⟨.complete,
        if currHook ≠ tree.repeatHook ∧ param ≠ tree.configHook then
          cli.collectTlv (commandCodeTlv (tree.param param).cmdCode)
        else cli,
        some (param, tree.commandMode currHook mode)⟩

def buildTlvBuffer (tokens : List Token) (cli : Cli ι) : Except CliFault (Built ι) :=
  match tree.walk outside tokens none cli.cursor .modeUnknown cli with
  | .error fault => .error fault
  | .ok (.stopped status cli) => .ok ⟨status, cli, none⟩
  | .ok (.arrived parent param mode cli) =>
    if tree.hasHandler param then tree.dispatch parent param mode cli
    else .ok ⟨.incompleteCommand, cli, none⟩

def isLeaf (p : ι) : Bool :=
  match (tree.param p).cmdType with
  | .leaf .. => true
  | _ => false

/-- The loops that take a param which is no command for a leaf. A negation param has no value. -/
def isNegation (p : ι) : Bool :=
  match (tree.param p).cmdType with
  | .noCmd => true
  | _ => false

def emptyValue : Value := ⟨[], by decide, by decide⟩

def gotoTopOfCmdTree (cli : Cli ι) : Except CliFault (Cli ι) :=
  if cli.cursor = tree.root then .ok cli
  else
    match tree.ancestry cli.cursor with
    | .error fault => .error fault
    | .ok visited =>
      if visited.any tree.isNegation then .error .outOfBounds
      else
        .ok { cli with
          cursor := tree.root
          tlvBuff := cli.tlvBuff.reset
          valueHolder := fun p => if p ∈ visited ∧ tree.isLeaf p then emptyValue else cli.valueHolder p }

/-- The part of `go_one_level_up_cmd_tree` for a cursor that is a leaf. -/
def leaveLeaf (cli : Cli ι) : Except CliFault (Cli ι) :=
  if tree.isLeaf cli.cursor then
    match cli.tlvBuff.rewind tlvSize with
    | none => .error .outOfBounds
    | some buff =>
      .ok { cli with
        tlvBuff := buff.markCheckpoint
        valueHolder := Function.update cli.valueHolder cli.cursor emptyValue }
  else .ok cli

def goOneLevelUpCmdTree (cli : Cli ι) : Except CliFault (Cli ι) :=
  if cli.cursor = tree.root then .ok cli
  else
    match tree.leaveLeaf cli with
    | .error fault => .error fault
    | .ok left =>
      match (tree.param cli.cursor).parent with
      | none => .error .assertion
      | some parent =>
        if parent = tree.root then .ok (left.setCmdTreeCursor parent).resetBuffer
        else
          match tree.buildModeConsoleName parent with
          | .error fault => .error fault
          | .ok () => .ok (left.setCmdTreeCursor parent)

def tlvOf (value : ι → Value) (p : ι) : Tlv :=
  match (tree.param p).cmdType with
  | .leaf leafType leafId _ => tlvOfLeaf leafType leafId (value p)
  | _ => dummyTlv

/-- The TLVs from the cursor up to the root, and then the other way round. -/
def buildCmdTreeLeavesData (cli : Cli ι) : Except CliFault (Cli ι) :=
  match tree.ancestry cli.cursor with
  | .error fault => .error fault
  | .ok visited =>
    if visited.any tree.isNegation then .error .outOfBounds
    else
      let tlvs := (visited.filter tree.isLeaf).map (tree.tlvOf cli.valueHolder)
      .ok { cli with tlvBuff := reverseTlvs (tlvs.foldl collectTlv cli.tlvBuff.reset) }

def configModeEnterHandler (p : ι) (cli : Cli ι) : Except CliFault (Cli ι) :=
  match tree.buildModeConsoleName p with
  | .error fault => .error fault
  | .ok () => .ok (cli.setCmdTreeCursor p).markCheckpoint

/-- What `build_tlv_buffer` has been called for goes on with the handler. -/
def Built.tasks (built : Built ι) : List (CliTask ι) :=
  match built.call with
  | none => []
  | some (p, mode) => [.handler p mode]

/-- `CMDCODE_RUN_UT_TC`. -/
def cmdcodeRunUtTc : ℤ := 9

def runTestCase (cli : Cli ι) : Except CliFault (Cli ι × List (CliTask ι)) :=
  match cli.ask outside.testCase with
  | (none, _) => .error .assertion
  | (some lines, cli) => .ok (cli, lines.flatMap fun line => [.parseInputCmd line, .expectComplete])

def repeatLastCommand (cli : Cli ι) : Cli ι × List (CliTask ι) :=
  let (line, cli) := cli.ask outside.lastCommand
  (cli, [.parseInputCmd line])

def showHistoryCallback (cli : Cli ι) : Cli ι × List (CliTask ι) :=
  match cli.ask outside.historyCommand with
  | (none, cli) => (cli, [])
  | (some line, cli) => (cli, [.parseInputCmd line])

def runHandler (p : ι) (mode : OpMode) (cli : Cli ι) : Except CliFault (Cli ι × List (CliTask ι)) :=
  let cli := cli.invoke p (some cli.tlvBuff) mode
  match (tree.param p).callback with
  | none => .error .nullDereference
  | some .configModeEnterHandler => (tree.configModeEnterHandler p cli).map (·, [])
  | some .repeatLastCommand => .ok (repeatLastCommand outside cli)
  | some .showHistoryCallback => .ok (showHistoryCallback outside cli)
  | some .utTestHandler =>
    match extractCmdCode cli.tlvBuff with
    | none => .error .outOfBounds
    | some cmdcode => if cmdcode = cmdcodeRunUtTc then runTestCase outside cli else .ok (cli, [])
  | some .exitCmdHandler => (tree.goOneLevelUpCmdTree cli).map (·, [])
  | some .endCmdHandler => (tree.gotoTopOfCmdTree cli).map (·, [])
  | some .cliTerminateHandler => .error .exited
  | some .showExtensionParamHandler =>
      .ok (if p = tree.showBriefExtension then cli.collectTlv showExtensionTlv else cli, [])
  | some .application => .ok (cli, [])

def restoreOrReset (cli : Cli ι) : Cli ι :=
  if cli.cursor ≠ tree.root then { cli with tlvBuff := cli.tlvBuff.restoreCheckpoint } else cli.resetBuffer

/-- The loop of `parse_file` is left for later, line by line. -/
def parseFile (cli : Cli ι) : Cli ι × List (CliTask ι) :=
  match cli.ask outside.file with
  | (none, cli) => (cli, [])
  | (some lines, cli) => (cli.resetBuffer, lines.map .fileLine)

/-- The built-in words a line can begin with. -/
inductive Shortcut where
  | doCommand
  | repeatCommand
  | oneLevelUp
  | top
  | clearScreen
  | runUt
  | configLoad
deriving DecidableEq, Repr

def shortcut (cli : Cli ι) (first : Token) (rest : List Token) : Option Shortcut :=
  if rest ≠ [] ∧ begins first.bytes (ascii ['d', 'o']) ∧ cli.cursor ≠ tree.root then some .doCommand
  else if begins (ascii ['r', 'e', 'p', 'e', 'a', 't']) first.bytes then some .repeatCommand
  else if begins first.bytes (ascii ['c', 'd', '.', '.']) ∧ rest = [] then some .oneLevelUp
  else if begins first.bytes (ascii ['c', 'd']) ∧ rest = [] then some .top
  else if begins first.bytes (ascii ['c', 'l', 's']) ∧ rest = [] then some .clearScreen
  else
    match rest with
    | second :: more =>
      if begins first.bytes (ascii ['r', 'u', 'n']) ∧ begins second.bytes (ascii ['u', 't']) ∧
        more.length = 2 then
        some .runUt
      else if begins first.bytes (ascii ['c', 'o', 'n', 'f', 'i', 'g']) ∧
          begins second.bytes (ascii ['l', 'o', 'a', 'd']) ∧ more.length = 1 then
        some .configLoad
      else none
    | [] => none

def finish {α : Type*} (status : CmdParseStatus) : α × List (CliTask ι) → α × List (CliTask ι)
  | (a, tasks) => (a, tasks ++ [.endOfCommand status])

/-- `parse_input_cmd` up to the first call that may come back to it. -/
def parseInputCmd (line : Bytes) (cli : Cli ι) : Except CliFault (Cli ι × List (CliTask ι)) :=
  match tokenizer line 32 with
  | .error fault => .error fault
  | .ok [] => .ok ({ cli with returned := .incompleteCommand }, [])
  | .ok (first :: rest) =>
    match tree.shortcut cli first rest with
    | some .doCommand =>
      match tree.getCurrentBranchHook cli.cursor with
      | .error fault => .error fault
      | .ok currHook =>
        if currHook = tree.configHook then
          match tree.buildTlvBuffer outside rest (cli.setCmdTreeCursor tree.doHook).resetBuffer with
          | .error fault => .error fault
          | .ok built => .ok (built.cli, built.tasks ++ [.afterDo cli.cursor, .endOfCommand built.status])
        else .ok (cli, [.endOfCommand .complete])
    | some .repeatCommand => .ok (cli, [.repeatHandler, .endOfCommand .complete])
    | some .oneLevelUp => (tree.goOneLevelUpCmdTree cli).map (·, [.endOfCommand .complete])
    | some .top => (tree.gotoTopOfCmdTree cli).map (·, [.endOfCommand .complete])
    | some .clearScreen => .ok (cli, [.endOfCommand .complete])
    | some .runUt => (runTestCase outside cli).map (finish .complete)
    | some .configLoad => .ok (finish .complete (parseFile outside cli))
    | none =>
      match tree.buildTlvBuffer outside (first :: rest) cli with
      | .error fault => .error fault
      | .ok built => .ok (built.cli, built.tasks ++ [.endOfCommand built.status])

/-- The body of the loop of `parse_file`. -/
def parseFileLine (line : Bytes) (cli : Cli ι) : Except CliFault (Cli ι × List (CliTask ι)) :=
  match tokenizer line 32 with
  | .error fault => .error fault
  | .ok tokens =>
    match tree.buildTlvBuffer outside tokens cli.resetBuffer with
    | .error fault => .error fault
    | .ok built => .ok (built.cli, built.tasks ++ [.endOfFileLine])

/-- The `do` branch after its command has been carried out. -/
def afterDo (oldCursorState : ι) (cli : Cli ι) : Except CliFault (Cli ι) :=
  if cli.cursor ≠ tree.doHook then
    match tree.getCurrentBranchHook cli.cursor with
    | .error fault => .error fault
    | .ok currHook => if currHook = tree.configHook then .error .assertion else .ok cli
  else (tree.buildCmdTreeLeavesData (cli.setCmdTreeCursor oldCursorState)).map Cli.markCheckpoint

/-- One task, and the tasks that have to be carried out before the next. -/
def carryOut : CliTask ι → Cli ι → Except CliFault (Cli ι × List (CliTask ι))
  | .parseInputCmd line, cli => tree.parseInputCmd outside line cli
  | .fileLine line, cli => tree.parseFileLine outside line cli
  | .handler p mode, cli => tree.runHandler outside p mode cli
  | .repeatHandler, cli => .ok (repeatLastCommand outside (cli.invoke tree.repeatHook none .operational))
  | .afterDo oldCursorState, cli => (tree.afterDo oldCursorState cli).map (·, [])
  | .endOfCommand status, cli => .ok ({ tree.restoreOrReset cli with returned := status }, [])
  | .endOfFileLine, cli => .ok (tree.restoreOrReset cli, [])
  | .expectComplete, cli => if cli.returned = .complete then .ok (cli, []) else .error .assertion

end CommandTree

structure Session (ι : Type*) where
  cli : Cli ι
  tasks : List (CliTask ι)

/-- `TLV_MAX_BUFFER_SIZE`. -/
def tlvMaxBufferSize : ℕ := 1024

/-- After `init_libcli`. -/
def Session.started (tree : CommandTree ι) : Session ι where
  cli :=
    { cursor := tree.root
      tlvBuff := .initSerializedBufferOfDefinedSize tlvMaxBufferSize (Nat.lt_of_sub_ne_zero nofun)
      valueHolder := fun _ => CommandTree.emptyValue
      asked := 0
      returned := .complete
      invoked := [] }
  tasks := []

inductive CliEvent (ι : Type*) where
  | typed (line : Bytes)
  | carryOut (task : CliTask ι)

/-- A line is typed when nothing is left to be done. -/
inductive Session.Step (tree : CommandTree ι) (outside : Outside) : Session ι → CliEvent ι →
    Session ι → Prop
  | typed (line : Bytes) (cli : Cli ι) :
      Step tree outside ⟨cli, []⟩ (.typed line) ⟨cli, [.parseInputCmd line]⟩
  | carryOut {task : CliTask ι} {rest next : List (CliTask ι)} {cli after : Cli ι}
    (carried : tree.carryOut outside task cli = .ok (after, next)) :
    Step tree outside ⟨cli, task :: rest⟩ (.carryOut task) ⟨after, next ++ rest⟩

namespace Session

variable (tree : CommandTree ι) (outside : Outside)

/-- Tasks are carried out until none is left, or for `fuel` steps. -/
def run : ℕ → Session ι → Except CliFault (Session ι)
  | 0, s => .ok s
  | fuel + 1, s =>
    match s.tasks with
    | [] => .ok s
    | task :: rest =>
      match tree.carryOut outside task s.cli with
      | .error fault => .error fault
      | .ok (after, next) => run fuel ⟨after, next ++ rest⟩

/-- The line is carried out to its end. -/
def Carries (line : Bytes) (cli after : Cli ι) : Prop :=
  ∃ fuel, run tree outside fuel ⟨cli, [.parseInputCmd line]⟩ = .ok ⟨after, []⟩

variable {tree outside}

theorem run_idle (fuel : ℕ) (cli : Cli ι) : run tree outside fuel ⟨cli, []⟩ = .ok ⟨cli, []⟩ := by
  cases fuel <;> rfl

theorem run_add {first : ℕ} {s middle : Session ι} (ran : run tree outside first s = .ok middle)
    (second : ℕ) :
    run tree outside (first + second) s = run tree outside second middle := by
  induction first generalizing s with
  | zero =>
    cases ran
    rw [Nat.zero_add]
  | succ first ih =>
    rw [Nat.succ_add, run]
    rw [run] at ran
    split at ran
    · cases ran
      obtain ⟨cli, tasks⟩ := middle
      next idle =>
        cases idle
        exact (run_idle second cli).symm
    · split at ran
      · cases ran
      · exact ih ran

theorem Carries.unique {line : Bytes} {cli after after' : Cli ι} (left : Carries tree outside line cli after)
    (right : Carries tree outside line cli after') : after = after' := by
  obtain ⟨first, ran⟩ := left
  obtain ⟨second, ran'⟩ := right
  have ends := run_add ran second
  have ends' := run_add ran' first
  rw [Nat.add_comm, ends, run_idle, run_idle] at ends'
  cases ends'
  rfl

theorem run_path {fuel : ℕ} {s t : Session ι} (ran : run tree outside fuel s = .ok t) :
    ∃ tasks : List (CliTask ι), Path (Step tree outside) s (tasks.map .carryOut) t := by
  induction fuel generalizing s with
  | zero =>
    cases ran
    exact ⟨[], .nil _⟩
  | succ fuel ih =>
    rw [run] at ran
    split at ran
    · cases ran
      exact ⟨[], .nil _⟩
    · next task rest pending =>
      split at ran
      · cases ran
      · next carried =>
        obtain ⟨tasks, path⟩ := ih ran
        obtain ⟨cli, _⟩ := s
        cases pending
        exact ⟨task :: tasks, .cons (.carryOut carried) path⟩

end Session

end TcpServerLib.Model
