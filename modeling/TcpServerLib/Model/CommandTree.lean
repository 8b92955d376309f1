import Mathlib.Logic.Function.Basic
import TcpServerLib.Model.SerializedBuffer
import TcpServerLib.Model.StringUtil

/-! # The command tree

Params are known by their addresses. A tree carries what registration leaves behind: a child
points back to the param it was registered under, a negation param shares the children of the param
it was installed in, and the capability params have no children. Help texts and hidden flags, which
are only printed, are left out.
-/

namespace TcpServerLib.Model

open Machine

inductive OpMode where
  | configDisable
  | configEnable
  | operational
  | modeUnknown
deriving DecidableEq, Repr

/-- The handlers that act on the parser. All the others, those of the application among them, are
`application`. -/
inductive Callback where
  | configModeEnterHandler
  | repeatLastCommand
  | showHistoryCallback
  | utTestHandler
  | exitCmdHandler
  | endCmdHandler
  | cliTerminateHandler
  | showExtensionParamHandler
  | application
deriving DecidableEq, Repr

inductive CmdType where
  | cmd (cmdName : CString 32)
  | leaf (leafType : LeafType) (leafId : LeafId) (userValidation : Option (Bytes → Bool))
  | noCmd

/-- `GET_CMD_NAME`. A leaf has none. -/
def CmdType.cmdName : CmdType → Option Bytes
  | .cmd name => some name.bytes
  | .leaf .. => none
  | .noCmd => some (ascii ['n', 'o'])

structure Param (ι : Type*) where
  cmdType : CmdType
  callback : Option Callback := none
  dispCallback : Bool := false
  options : List ι := []
  parent : Option ι := none
  cmdCode : Int32 := -1

structure CommandTree (ι : Type*) where
  param : ι → Param ι
  root : ι
  doHook : ι
  showHook : ι
  debugHook : ι
  configHook : ι
  clearHook : ι
  repeatHook : ι
  showBriefExtension : ι
  modeParam : ι
  suboptionsParam : ι
  cmdExpansionParam : ι
  /-- The distance of a param from the top. -/
  depth : ι → ℕ
  apart : [root, doHook, showHook, debugHook, configHook, clearHook, repeatHook, showBriefExtension, modeParam,
    suboptionsParam, cmdExpansionParam].Nodup
  root_top : (param root).parent = none
  doHook_top : (param doHook).parent = none
  hooks : ∀ p ∈ [showHook, debugHook, configHook, clearHook, repeatHook], (param p).parent = some root
  descends : ∀ {p q}, (param p).parent = some q → depth p = depth q + 1
  inner : ∀ {p c}, c ∈ (param p).options →
    c ∈ [showBriefExtension, modeParam, suboptionsParam, cmdExpansionParam] ∨ (param c).parent = some p ∨
      (param p).cmdType = .noCmd ∧ (param c).parent = (param p).parent ∨
      p = doHook ∧ c ∈ [showHook, debugHook, clearHook]
  negates : ∀ {p}, (param p).cmdType = .noCmd → ∃ q, (param p).parent = some q ∧ q ≠ root
  barren : ∀ p ∈ [showBriefExtension, modeParam, suboptionsParam, cmdExpansionParam], (param p).options = []
  named : ∀ p ∈ [root, doHook, showHook, debugHook, configHook, clearHook, repeatHook,
    showBriefExtension, modeParam,
    suboptionsParam, cmdExpansionParam], ∃ name, (param p).cmdType = .cmd name
  /-- `libcli_register_param` puts them before all children. -/
  capabilities : ∀ {p}, (param p).options ≠ [] → (param p).cmdType ≠ .noCmd → p ≠ doHook →
    ∃ children, (param p).options = [modeParam, suboptionsParam, cmdExpansionParam] ++ children
  mode_name : (param modeParam).cmdType.cmdName = some (ascii ['/'])
  mode_handler : (param modeParam).callback.isSome = true
  repeat_name : (param repeatHook).cmdType.cmdName = some (ascii ['r', 'e', 'p', 'e', 'a', 't'])
  config_handler : ∀ p, (param p).callback = some .configModeEnterHandler ↔ p = configHook
  /-- No mode can be entered at the library's own commands, `show history` apart. -/
  modeless : ∀ {p}, (param p).options ≠ [] → p ≠ repeatHook →
    (param p).callback ∈ [none, some .application, some .configModeEnterHandler, some .showHistoryCallback]

namespace CommandTree

variable {ι : Type*} [DecidableEq ι] (tree : CommandTree ι)

/-- The loops that follow `parent` until they are at the root: what they visit. -/
def climb : ℕ → ι → Except CliFault (List ι)
  | 0, p => if p = tree.root then .ok [] else .error .nullDereference
  | fuel + 1, p =>
    if p = tree.root then .ok []
    else
      match (tree.param p).parent with
      | none => .error .nullDereference
      | some q => (climb fuel q).map (p :: ·)

def ancestry (p : ι) : Except CliFault (List ι) :=
  tree.climb (tree.depth p) p

def getCurrentBranchHook (p : ι) : Except CliFault ι :=
  if p = tree.root then .error .assertion
  else
    match tree.ancestry p with
    | .ok visited => .ok (visited.getLastD p)
    | .error fault => .error fault

/-- The new console name is only printed; what matters is whether it can be put together. -/
def buildModeConsoleName (dst : ι) : Except CliFault Unit :=
  if dst = tree.root then .error .assertion
  else
    match tree.ancestry dst with
    | .ok visited => if visited.length ≤ maxCmdTreeDepth then .ok () else .error .assertion
    | .error fault => .error fault

variable {tree}

@[simp] theorem ancestry_root : tree.ancestry tree.root = .ok [] := by
  rw [ancestry]
  cases tree.depth tree.root <;> exact if_pos rfl

theorem ancestry_parent {p q : ι} (registered : (tree.param p).parent = some q) :
    tree.ancestry p = (tree.ancestry q).map (p :: ·) := by
  have below : p ≠ tree.root := by
    rintro rfl
    cases registered.symm.trans tree.root_top
  rw [ancestry, tree.descends registered, climb, if_neg below, registered]
  rfl

theorem ancestry_top {p : ι} (below : p ≠ tree.root) (top : (tree.param p).parent = none) :
    tree.ancestry p = .error .nullDereference := by
  rw [ancestry]
  cases tree.depth p with
  | zero => exact if_neg below
  | succ => rw [climb, if_neg below, top]

end CommandTree

end TcpServerLib.Model
