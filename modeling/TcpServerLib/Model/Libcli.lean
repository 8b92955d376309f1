import TcpServerLib.Model.CommandTree

/-! # The tree of the library

`init_libcli` registers the hooks and the library's own commands. An application registers its
commands below the hooks. The handlers of the capability params are called by their names, never
through `callback`.
-/

namespace TcpServerLib.Model

open Machine

inductive LibParam where
  | root
  | doHook
  | showHook
  | help
  | showHistory
  | noOfCommands
  | showRegistered
  | showRegisteredCmds
  | debugHook
  | debugUt
  | debugUtEnable
  | debugShow
  | debugShowCmdtree
  | configHook
  | load
  | fileName
  | supportsave
  | supportsaveEnable
  | clearHook
  | runHook
  | terminate
  | runUt
  | utFilePath
  | tcNo
  | repeatHook
  | configConsole
  | configConsoleName
  | configConsoleNameName
  | cls
  | exitCmd
  | endCmd
  | showBriefExtension
  | modeParam
  | suboptionsParam
  | cmdExpansionParam
deriving DecidableEq, Repr

namespace LibParam

def cmd (name : List Char)
    (fits : (ascii name).length < 32 := by decide) (noNul : 0 ∉ ascii name := by decide) :
    CmdType :=
  .cmd ⟨ascii name, fits, noNul⟩

def leaf (leafType : LeafType) (leafId : List Char) (userValidation : Option (Bytes → Bool) := none)
    (fits : (ascii leafId).length < 32 := by decide) (noNul : 0 ∉ ascii leafId := by decide) : CmdType :=
  .leaf leafType ⟨ascii leafId, fits, noNul⟩ userValidation

/-- `enable_disable_validation_handler`. -/
def enableDisableValidation (value : Bytes) : Bool :=
  begins value (ascii ['e', 'n', 'a', 'b', 'l', 'e']) || begins value (ascii ['d', 'i', 's', 'a', 'b', 'l', 'e'])

/-- The options of a param with these children. -/
def parentOf (children : List LibParam) : List LibParam :=
  [modeParam, suboptionsParam, cmdExpansionParam] ++ children

def param : LibParam → Param LibParam
  | root =>
    { cmdType := cmd ['R', 'O', 'O', 'T']
      options := parentOf [showHook, debugHook, configHook, clearHook, runHook, repeatHook, cls,
        exitCmd, endCmd] }
  | doHook =>
    { cmdType := cmd ['D', 'O', '_', 'H', 'O', 'O', 'K']
      options := [suboptionsParam, suboptionsParam, cmdExpansionParam, showHook, debugHook, clearHook] }
  | showHook =>
    { cmdType := cmd ['s', 'h', 'o', 'w'], options := parentOf [help, showHistory, showRegistered]
      parent := some root }
  | help =>
    { cmdType := cmd ['h', 'e', 'l', 'p'], callback := some .application, parent := some showHook, cmdCode := 1 }
  | showHistory =>
    { cmdType := cmd ['h', 'i', 's', 't', 'o', 'r', 'y'], callback := some .showHistoryCallback
      options := parentOf [noOfCommands], parent := some showHook, cmdCode := 2 }
  | noOfCommands =>
    { cmdType := leaf .int ['N'], callback := some .showHistoryCallback, parent := some showHistory, cmdCode := 3 }
  | showRegistered =>
    { cmdType := cmd ['r', 'e', 'g', 'i', 's', 't', 'e', 'r', 'e', 'd'], options := parentOf [showRegisteredCmds]
      parent := some showHook }
  | showRegisteredCmds =>
    { cmdType := cmd ['c', 'o', 'm', 'm', 'a', 'n', 'd', 's'], callback := some .application
      parent := some showRegistered, cmdCode := 4 }
  | debugHook =>
    { cmdType := cmd ['d', 'e', 'b', 'u', 'g'], options := parentOf [debugUt, debugShow], parent := some root }
  | debugUt => { cmdType := cmd ['u', 't'], options := parentOf [debugUtEnable], parent := some debugHook }
  | debugUtEnable =>
    { cmdType := leaf .string ['u', 't', '-', 'e', 'n', 'a', 'b', 'l', 'e'] (some enableDisableValidation)
      callback := some .utTestHandler, parent := some debugUt, cmdCode := 10 }
  | debugShow =>
    { cmdType := cmd ['s', 'h', 'o', 'w'], options := parentOf [debugShowCmdtree], parent := some debugHook }
  | debugShowCmdtree =>
    { cmdType := cmd ['c', 'm', 'd', 't', 'r', 'e', 'e'], callback := some .application, parent := some debugShow
      cmdCode := 7 }
  | configHook =>
    { cmdType := cmd ['c', 'o', 'n', 'f', 'i', 'g'], callback := some .configModeEnterHandler
      options := parentOf [load, supportsave, configConsole], parent := some root }
  | load => { cmdType := cmd ['l', 'o', 'a', 'd'], options := parentOf [fileName], parent := some configHook }
  | fileName =>
    { cmdType := leaf .string ['f', 'i', 'l', 'e', '-', 'n', 'a', 'm', 'e'], callback := some .application
      parent := some load, cmdCode := 8 }
  | supportsave =>
    { cmdType := cmd ['s', 'u', 'p', 'p', 'o', 'r', 't', 's', 'a', 'v', 'e'], options := parentOf [supportsaveEnable]
      parent := some configHook }
  | supportsaveEnable =>
    { cmdType := cmd ['e', 'n', 'a', 'b', 'l', 'e'], callback := some .application, parent := some supportsave
      cmdCode := 5 }
  | clearHook => { cmdType := cmd ['c', 'l', 'e', 'a', 'r'], parent := some root }
  | runHook => { cmdType := cmd ['r', 'u', 'n'], options := parentOf [terminate, runUt], parent := some root }
  | terminate =>
    { cmdType := cmd ['t', 'e', 'r', 'm'], callback := some .cliTerminateHandler, parent := some runHook }
  | runUt => { cmdType := cmd ['u', 't'], options := parentOf [utFilePath], parent := some runHook }
  | utFilePath =>
    { cmdType := leaf .string ['u', 't', '-', 'f', 'i', 'l', 'e', '-', 'n', 'a', 'm', 'e'], options := parentOf [tcNo]
      parent := some runUt }
  | tcNo =>
    { cmdType := leaf .int ['t', 'c', '-', 'n', 'o'], callback := some .utTestHandler, parent := some utFilePath
      cmdCode := 9 }
  | repeatHook =>
    { cmdType := cmd ['r', 'e', 'p', 'e', 'a', 't'], callback := some .repeatLastCommand, parent := some root }
  | configConsole =>
    { cmdType := cmd ['c', 'o', 'n', 's', 'o', 'l', 'e'], options := parentOf [configConsoleName]
      parent := some configHook }
  | configConsoleName =>
    { cmdType := cmd ['n', 'a', 'm', 'e'], options := parentOf [configConsoleNameName]
      parent := some configConsole }
  | configConsoleNameName =>
    { cmdType := leaf .string ['c', 'o', 'n', 's', '-', 'n', 'a', 'm', 'e'], callback := some .application
      parent := some configConsoleName, cmdCode := 6 }
  | cls => { cmdType := cmd ['c', 'l', 's'], callback := some .application, parent := some root }
  | exitCmd => { cmdType := cmd ['c', 'd', '.', '.'], callback := some .exitCmdHandler, parent := some root }
  | endCmd => { cmdType := cmd ['c', 'd'], callback := some .endCmdHandler, parent := some root }
  | showBriefExtension =>
    { cmdType := cmd ['b', 'r', 'i', 'e', 'f'], callback := some .showExtensionParamHandler }
  | modeParam => { cmdType := cmd ['/'], callback := some .application }
  | suboptionsParam => { cmdType := cmd ['?'], callback := some .application }
  | cmdExpansionParam => { cmdType := cmd ['.'], callback := some .application }

def depth : LibParam → ℕ
  | showHook | debugHook | configHook | clearHook | runHook | repeatHook | cls | exitCmd | endCmd => 1
  | help | showHistory | showRegistered | debugUt | debugShow | load | supportsave | terminate | runUt
  | configConsole => 2
  | noOfCommands | showRegisteredCmds | debugUtEnable | debugShowCmdtree | fileName
      | supportsaveEnable | utFilePath
  | configConsoleName => 3
  | tcNo | configConsoleNameName => 4
  | root | doHook | showBriefExtension | modeParam | suboptionsParam | cmdExpansionParam => 0

theorem notNegation (p : LibParam) : (param p).cmdType ≠ .noCmd := by
  cases p <;> exact nofun

theorem descends : ∀ p q : LibParam, (param p).parent = some q → depth p = depth q + 1 := by
  intro p q registered
  cases p <;> cases registered <;> rfl

theorem inner : ∀ p : LibParam, ∀ c ∈ (param p).options,
    c ∈ [showBriefExtension, modeParam, suboptionsParam, cmdExpansionParam] ∨ (param c).parent = some p ∨
      p = doHook ∧ c ∈ [showHook, debugHook, clearHook] := by
  intro p
  cases p <;> decide

end LibParam

open LibParam in
def initLibcli : CommandTree LibParam where
  param := LibParam.param
  root := root
  doHook := doHook
  showHook := showHook
  debugHook := debugHook
  configHook := configHook
  clearHook := clearHook
  repeatHook := repeatHook
  showBriefExtension := showBriefExtension
  modeParam := modeParam
  suboptionsParam := suboptionsParam
  cmdExpansionParam := cmdExpansionParam
  depth := LibParam.depth
  apart := by decide
  root_top := rfl
  doHook_top := rfl
  hooks := by decide
  descends := LibParam.descends _ _
  inner := by
    intro p c child
    rcases LibParam.inner p c child with control | registered | shared
    · exact .inl control
    · exact .inr (.inl registered)
    · exact .inr (.inr (.inr shared))
  negates negation := absurd negation (LibParam.notNegation _)
  barren := by decide
  named := by
    intro p member
    cases p <;> first | exact ⟨_, rfl⟩ | exact absurd member (by decide)
  capabilities := by
    intro p parent _ other
    cases p <;> first | exact ⟨_, rfl⟩ | exact absurd rfl parent | exact absurd rfl other
  mode_name := rfl
  mode_handler := rfl
  repeat_name := rfl
  config_handler := by
    intro p
    cases p <;> decide
  modeless := by
    intro p
    cases p <;> decide

end TcpServerLib.Model
