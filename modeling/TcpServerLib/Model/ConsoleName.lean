import TcpServerLib.Model.CommandParser

/-! # The name of the console

`console_name` is printed in front of the prompt: the name of the device up to the first `>`, and behind
it the path of the mode. Whatever moves the cursor puts it together anew. The handlers of the
application may change it too; what they make of it is left open.
-/

namespace TcpServerLib.Model

open Machine

variable {ι : Type*} [DecidableEq ι]

/-- `tokens[0]`, after `console_name` has been cut at `>`. -/
def adminSetConsoleName (consoleName : Bytes) : Except CliFault Bytes :=
  match tokenizer consoleName 62 with
  | .error fault => .error fault
  | .ok [] => .error .nullDereference
  | .ok (first :: _) => .ok first.bytes

/-- `TERMINAL_NAME_SIZE`. -/
def terminalNameSize : ℕ := consInputBufferSize

/-- What `sprintf` and `strcat` write into `console_name`. -/
def writeConsoleName (text : Bytes) : Except CliFault Bytes :=
  if text.length < terminalNameSize then .ok text else .error .outOfBounds

/-- The name without a mode. -/
def topConsoleName (consoleName : Bytes) : Except CliFault Bytes :=
  match adminSetConsoleName consoleName with
  | .error fault => .error fault
  | .ok device => writeConsoleName (device ++ ascii ['>'])

namespace CommandTree

variable (tree : CommandTree ι) (outside : Outside)

/-- What stands for a param in the name: a command for itself, a leaf for its value. -/
def appendString (values : ι → Value) (p : ι) : Except CliFault Bytes :=
  match (tree.param p).cmdType with
  | .cmd cmdName => .ok cmdName.bytes
  | .leaf .. => .ok (values p).bytes
  | .noCmd => .error .outOfBounds

/-- The name that `build_mode_console_name` puts together. -/
def modeConsoleName (dst : ι) (values : ι → Value) (consoleName : Bytes) : Except CliFault Bytes :=
  match tree.buildModeConsoleName dst, tree.ancestry dst, adminSetConsoleName consoleName with
  | .ok (), .ok visited, .ok device =>
    match visited.reverse.mapM (tree.appendString values) with
    | .error fault => .error fault
    | .ok cmdNames => writeConsoleName (device ++ ascii ['>', ' '] ++ (ascii ['-']).intercalate cmdNames)
  | .error fault, _, _ | _, .error fault, _ | _, _, .error fault => .error fault

/-- The name after `build_tlv_buffer`, which may have entered a mode. -/
def builtConsoleName (tokens : List Token) (cli : Cli ι) (consoleName : Bytes) : Except CliFault Bytes :=
  match tree.walk outside tokens none cli.cursor .modeUnknown cli with
  | .ok (.arrived (some parent) param _ walked) =>
    if param = tree.modeParam ∧
      parent ≠ tree.root then tree.modeConsoleName parent walked.valueHolder consoleName
    else .ok consoleName
  | _ => .ok consoleName

/-- The name after `go_one_level_up_cmd_tree`. -/
def upConsoleName (cli : Cli ι) (consoleName : Bytes) : Except CliFault Bytes :=
  match (tree.param cli.cursor).parent with
  | none => .ok consoleName
  | some parent =>
    if parent = tree.root then topConsoleName consoleName else tree.modeConsoleName parent
      cli.valueHolder consoleName

/-- The name after `goto_top_of_cmd_tree`. -/
def gotoTopConsoleName (cli : Cli ι) (consoleName : Bytes) : Except CliFault Bytes :=
  if cli.cursor = tree.root then .ok consoleName else topConsoleName consoleName

/-- What a handler of the application makes of the name. -/
abbrev DeviceName (ι : Type*) := Invocation ι → Bytes → Except CliFault Bytes

variable (device : DeviceName ι)

/-- The name after `parse_input_cmd`, up to the first call that may come back to it. -/
def parsedConsoleName (line : Bytes) (cli : Cli ι) (consoleName : Bytes) : Except CliFault Bytes :=
  match tokenizer line 32 with
  | .error fault => .error fault
  | .ok [] => .ok consoleName
  | .ok (first :: rest) =>
    match tree.shortcut cli first rest with
    | some .doCommand =>
      match tree.getCurrentBranchHook cli.cursor with
      | .error fault => .error fault
      | .ok currHook =>
        if currHook = tree.configHook then
          tree.builtConsoleName outside rest (cli.setCmdTreeCursor tree.doHook).resetBuffer consoleName
        else .ok consoleName
    | some .oneLevelUp => tree.upConsoleName cli consoleName
    | some .top => tree.gotoTopConsoleName cli consoleName
    | some .repeatCommand | some .clearScreen | some .runUt | some .configLoad => .ok consoleName
    | none => tree.builtConsoleName outside (first :: rest) cli consoleName

/-- The name after a handler. -/
def handledConsoleName (p : ι) (mode : OpMode) (cli : Cli ι) (consoleName : Bytes) : Except CliFault Bytes :=
  match (tree.param p).callback with
  | some .configModeEnterHandler => tree.modeConsoleName p cli.valueHolder consoleName
  | some .exitCmdHandler => tree.upConsoleName cli consoleName
  | some .endCmdHandler => tree.gotoTopConsoleName cli consoleName
  | some .application => device ⟨p, some cli.tlvBuff, mode⟩ consoleName
  | _ => .ok consoleName

def taskConsoleName (task : CliTask ι) (cli : Cli ι) (consoleName : Bytes) : Except CliFault Bytes :=
  match task with
  | .parseInputCmd line => tree.parsedConsoleName outside line cli consoleName
  | .fileLine line =>
    match tokenizer line 32 with
    | .error fault => .error fault
    | .ok tokens => tree.builtConsoleName outside tokens cli.resetBuffer consoleName
  | .handler p mode => tree.handledConsoleName device p mode cli consoleName
  | .repeatHandler | .afterDo _ | .endOfCommand _ | .endOfFileLine | .expectComplete => .ok consoleName

end CommandTree

/-- The parser with the name in front of its prompt. -/
structure Shell (ι : Type*) where
  cli : Cli ι
  consoleName : Bytes

namespace Shell

variable (tree : CommandTree ι) (outside : Outside) (device : CommandTree.DeviceName ι)

def carryOut (task : CliTask ι) (shell : Shell ι) : Except CliFault (Shell ι × List (CliTask ι)) :=
  match tree.carryOut outside task shell.cli, tree.taskConsoleName outside device task shell.cli
    shell.consoleName with
  | .ok (cli, next), .ok consoleName => .ok (⟨cli, consoleName⟩, next)
  | .error fault, _ | _, .error fault => .error fault

/-- The tasks, and all that they call for, are carried out to the end. -/
inductive Carried : Shell ι → List (CliTask ι) → Shell ι → Prop
  | done (shell : Shell ι) : Carried shell [] shell
  | task {task : CliTask ι} {rest next : List (CliTask ι)} {shell middle after : Shell ι}
    (carried : carryOut tree outside device task shell = .ok (middle, next))
    (goesOn : Carried middle (next ++ rest) after) :
    Carried shell (task :: rest) after

end Shell

end TcpServerLib.Model
