import TcpServerLib.Model.Application
import TcpServerLib.Model.OptionArray
import TcpServerLib.Model.TcpServerCli

/-! # Registration of the commands

The params are static variables, or are allocated by `support_cmd_negation`, and `init_param` and
`libcli_register_param` fill them in. Here they are as they lie in memory, with all sixteen pointers of
`options`. The loop of `get_current_branch_hook` ends if there is no cycle; it has a number of steps it may
take.
-/

namespace TcpServerLib.Model

open Machine LibParam CommandTree

/-- Until `init_param` a param is zero: it has neither a command nor a leaf. -/
structure ParamT (ι : Type*) where
  cmdType : Option CmdType := none
  callback : Option Callback := none
  dispCallback : Bool := false
  options : Fin maxOptionSize → Option ι := fun _ => none
  parent : Option ι := none
  cmdCode : Int32 := 0

/-- The params of the library and those of the application. -/
abbrev Params (κ : Type*) := LibParam ⊕ κ → ParamT (LibParam ⊕ κ)

/-- What `init_param` is told about the type of a param. -/
inductive ParamType where
  | cmd (cmdName : Bytes)
  | leaf (leafType : LeafType) (leafId : Bytes) (userValidation : Option (Bytes → Bool))
  | noCmd

/-- `strncpy` into an array of 32 characters, the last of which is cleared. -/
def heldName (s : Bytes) : CString 32 where
  bytes := (unpad s).take 31
  fits := Nat.lt_succ_of_le (List.length_take_le 31 (unpad s))
  noNul := by
    intro member
    have kept := List.mem_takeWhile_imp (List.mem_of_mem_take member)
    exact absurd kept (by decide)

def ParamType.cmdType : ParamType → CmdType
  | .cmd cmdName => .cmd (heldName cmdName)
  | .leaf leafType leafId userValidation => .leaf leafType (heldName leafId) userValidation
  | .noCmd => .noCmd

inductive RegistrationFault where
  | cli (fault : CliFault)
  | outOfSteps
deriving DecidableEq, Repr

instance : NeZero maxOptionSize := ⟨by decide⟩

/-- `MODE_PARAM_INDEX`, `SUBOPTIONS_INDEX` and `CMD_EXPANSION_INDEX`. -/
def modeParamIndex : Fin maxOptionSize := 0
def suboptionsIndex : Fin maxOptionSize := 1
def cmdExpansionIndex : Fin maxOptionSize := 2

/-- `CHILDREN_START_INDEX`. -/
def childrenStart : Fin maxOptionSize := 3

variable {ι κ : Type*}

/-- The pointers that a loop meets before the first null pointer. -/
def upToNull : List (Option ι) → List ι
  | some p :: pointers => p :: upToNull pointers
  | _ => []

theorem length_upToNull_le (pointers : List (Option ι)) : (upToNull pointers).length ≤ pointers.length := by
  induction pointers with
  | nil => apply Nat.le_refl
  | cons pointer pointers ih =>
    cases pointer with
    | none => apply Nat.zero_le
    | some p => exact Nat.succ_le_succ ih

/-- `options`, as `find_matching_param` reads them. -/
def ParamT.optionArray (param : ParamT ι) : OptionArray ι where
  entries := upToNull ((List.finRange maxOptionSize).map param.options)
  fits := by
    apply Nat.le_trans (length_upToNull_le _)
    rw [List.length_map, List.length_finRange]

/-- `if (options[i] == NULL) options[i] = p` -/
def setIfNull (options : Fin maxOptionSize → Option ι) (i : Fin maxOptionSize) (p : ι) :
    Fin maxOptionSize → Option ι :=
  Function.update options i (some ((options i).getD p))

/-- The loop over the children, for the first index that is free. -/
def freeIndex (options : Fin maxOptionSize → Option ι) : Option (Fin maxOptionSize) :=
  (List.finRange maxOptionSize).find? fun i => childrenStart ≤ i ∧ (options i).isNone

variable [DecidableEq κ]

namespace Params

def modify (params : Params κ) (p : LibParam ⊕ κ)
    (f : ParamT (LibParam ⊕ κ) → ParamT (LibParam ⊕ κ)) :
    Params κ :=
  Function.update params p (f (params p))

def initParam (params : Params κ) (p : LibParam ⊕ κ) (paramType : ParamType)
    (callback : Option Callback) : Params κ :=
  Function.update params p { cmdType := some paramType.cmdType, callback, cmdCode := -1 }

def setParamCmdCode (params : Params κ) (p : LibParam ⊕ κ) (cmdCode : Int32) :
    Except RegistrationFault (Params κ) :=
  if (params p).callback = none then .error (.cli .assertion) else .ok (params.modify p ({ · with cmdCode }))

def libcliRegisterDisplayCallback (params : Params κ) (p : LibParam ⊕ κ) (dispCallback : Bool) :
    Except RegistrationFault (Params κ) :=
  match (params p).cmdType with
  | some .noCmd => .error (.cli .assertion)
  | _ => .ok (params.modify p ({ · with dispCallback }))

/-- The first three pointers, where they are null. -/
def enableCapabilities (options : Fin maxOptionSize → Option (LibParam ⊕ κ)) : Fin maxOptionSize →
    Option (LibParam ⊕ κ) :=
  setIfNull (setIfNull (setIfNull options modeParamIndex (.inl modeParam)) suboptionsIndex (.inl suboptionsParam))
    cmdExpansionIndex (.inl cmdExpansionParam)

def libcliRegisterParam (params : Params κ) (parent : Option (LibParam ⊕ κ)) (child : LibParam ⊕ κ) :
    Except RegistrationFault (Params κ) :=
  let parent := parent.getD (.inl root)
  let options := enableCapabilities (params parent).options
  match freeIndex options with
  | none => .error (.cli .assertion)
  | some i =>
    -- The exception made for `show_brief_extension` is lost in the line that follows it.
    .ok ((params.modify parent ({ · with options := Function.update options i (some child) })).modify child
      ({ · with parent := some parent }))

def enableShowExtensionParamBrief (params : Params κ) (p : LibParam ⊕ κ) :
    Except RegistrationFault (Params κ) :=
  if (params p).callback = none then .error (.cli .assertion)
  else params.libcliRegisterParam (some p) (.inl showBriefExtension)

/-- The loop that follows `parent` to a child of the root. -/
def branchHook (params : Params κ) : ℕ → LibParam ⊕ κ → Except RegistrationFault (LibParam ⊕ κ)
  | 0, _ => .error .outOfSteps
  | steps + 1, p =>
    match (params p).parent with
    | none => .error (.cli .nullDereference)
    | some parent => if parent = .inl root then .ok p else branchHook params steps parent

def getCurrentBranchHook (params : Params κ) (steps : ℕ) (p : LibParam ⊕ κ) :
    Except RegistrationFault (LibParam ⊕ κ) :=
  if p = .inl root then .error (.cli .assertion) else params.branchHook steps p

/-- The loop of `find_matching_param`. A param that has not been initialised has no name to compare with. -/
def searchOptions (params : Params κ) (cmdName : Bytes) :
    ℕ → List (LibParam ⊕ κ) → Option (LibParam ⊕ κ) → List (LibParam ⊕ κ) →
      Except CliFault (Option (LibParam ⊕ κ) × List (LibParam ⊕ κ))
  | i, [], leaf, possibilities => if i < maxOptionSize then .ok (leaf, possibilities) else .error .outOfBounds
  | i, p :: options, leaf, possibilities =>
    match (params p).cmdType with
    | none => .error .nullDereference
    | some cmdType =>
      match cmdType.cmdName with
      | none => searchOptions params cmdName (i + 1) options (some p) possibilities
      | some name =>
        if begins name cmdName then
          if cmdName.length = name.length then .ok (leaf, [p])
          else if possibilities.length + 1 < possibilityArraySize then
            searchOptions params cmdName (i + 1) options leaf (possibilities ++ [p])
          else .error .assertion
        else searchOptions params cmdName (i + 1) options leaf possibilities

def findMatchingParam (params : Params κ) (options : OptionArray (LibParam ⊕ κ)) (cmdName : Bytes)
    (choice : ℤ) :
    Except CliFault (Option (LibParam ⊕ κ)) :=
  match params.searchOptions cmdName 0 options.entries none [] with
  | .error fault => .error fault
  | .ok (leaf, []) => .ok leaf
  | .ok (_, [p]) => .ok (some p)
  | .ok (_, possibilities) => if choice < 0 then .ok none else .ok possibilities[choice.toNat]?

/-- The pointers of a negation param: those of the param it is installed in, up to the index that is
free there. -/
def negationOptions (options : Fin maxOptionSize → Option (LibParam ⊕ κ)) (free : Fin maxOptionSize) :
    Fin maxOptionSize → Option (LibParam ⊕ κ) := fun i =>
  if i = cmdExpansionIndex then some (.inl cmdExpansionParam)
  else if i < childrenStart then some (.inl suboptionsParam)
  else if i < free then options i
  else none

def installNegation (params : Params κ) (p noParam : LibParam ⊕ κ) : Except RegistrationFault (Params κ) :=
  match freeIndex (params p).options with
  | none => .error (.cli .assertion)
  | some i =>
    let negation := (params.initParam noParam .noCmd (some .application)).modify noParam
      ({ · with options := negationOptions (params p).options i, parent := some p })
    .ok (negation.modify p fun param => { param with options := Function.update param.options i (some noParam) })

/-- `noParam` is what `calloc` returns, and `choice` what is entered if several names begin with `no`. -/
def supportCmdNegation (params : Params κ) (steps : ℕ) (p noParam : LibParam ⊕ κ) (choice : ℤ) :
    Except RegistrationFault (Params κ) :=
  match params.getCurrentBranchHook steps p with
  | .error fault => .error fault
  | .ok hook =>
    if hook ≠ .inl configHook then .error (.cli .assertion)
    else
      match params.findMatchingParam (params p).optionArray (ascii ['n', 'o']) choice with
      | .error fault => .error (.cli fault)
      | .ok none => params.installNegation p noParam
      | .ok (some negateParam) =>
        match (params negateParam).cmdType with
        | some .noCmd => .ok params
        | _ => params.installNegation p noParam

end Params

inductive RegistrationCall (κ : Type*) where
  | initParam (p : LibParam ⊕ κ) (paramType : ParamType) (callback : Option Callback)
  | setParamCmdCode (p : LibParam ⊕ κ) (cmdCode : Int32)
  | libcliRegisterDisplayCallback (p : LibParam ⊕ κ) (dispCallback : Bool)
  | libcliRegisterParam (parent : Option (LibParam ⊕ κ)) (child : LibParam ⊕ κ)
  | enableShowExtensionParamBrief (p : LibParam ⊕ κ)
  | supportCmdNegation (p noParam : LibParam ⊕ κ) (choice : ℤ)

def RegistrationCall.run (steps : ℕ) (params : Params κ) : RegistrationCall κ →
    Except RegistrationFault (Params κ)
  | .initParam p paramType callback => .ok (params.initParam p paramType callback)
  | .setParamCmdCode p cmdCode => params.setParamCmdCode p cmdCode
  | .libcliRegisterDisplayCallback p dispCallback => params.libcliRegisterDisplayCallback p dispCallback
  | .libcliRegisterParam parent child => params.libcliRegisterParam parent child
  | .enableShowExtensionParamBrief p => params.enableShowExtensionParamBrief p
  | .supportCmdNegation p noParam choice => params.supportCmdNegation steps p noParam choice

def register (steps : ℕ) (params : Params κ) (calls : List (RegistrationCall κ)) :
    Except RegistrationFault (Params κ) :=
  calls.foldlM (fun params call => call.run steps params) params

/-- As far as the hook of `do`. -/
def initLibcliHooks : List (RegistrationCall κ) :=
  [.initParam (.inl root) (.cmd (ascii ['R', 'O', 'O', 'T'])) none,
    .initParam (.inl modeParam) (.cmd (ascii ['/'])) (some .application),
    .initParam (.inl suboptionsParam) (.cmd (ascii ['?'])) (some .application),
    .initParam (.inl cmdExpansionParam) (.cmd (ascii ['.'])) (some .application),
    .initParam (.inl showHook) (.cmd (ascii ['s', 'h', 'o', 'w'])) none,
    .libcliRegisterParam (some (.inl root)) (.inl showHook),
    .initParam (.inl help) (.cmd (ascii ['h', 'e', 'l', 'p'])) (some .application),
    .libcliRegisterParam (some (.inl showHook)) (.inl help),
    .setParamCmdCode (.inl help) 1,
    .initParam (.inl showHistory) (.cmd (ascii ['h', 'i', 's', 't', 'o', 'r', 'y'])) (some .showHistoryCallback),
    .libcliRegisterParam (some (.inl showHook)) (.inl showHistory),
    .setParamCmdCode (.inl showHistory) 2,
    .initParam (.inl noOfCommands) (.leaf .int (ascii ['N']) none) (some .showHistoryCallback),
    .libcliRegisterParam (some (.inl showHistory)) (.inl noOfCommands),
    .setParamCmdCode (.inl noOfCommands) 3,
    .initParam (.inl showRegistered) (.cmd (ascii ['r', 'e', 'g', 'i', 's', 't', 'e', 'r', 'e', 'd'])) none,
    .libcliRegisterParam (some (.inl showHook)) (.inl showRegistered),
    .initParam (.inl showRegisteredCmds) (.cmd (ascii ['c', 'o', 'm', 'm', 'a', 'n', 'd', 's']))
    (some .application),
    .libcliRegisterParam (some (.inl showRegistered)) (.inl showRegisteredCmds),
    .setParamCmdCode (.inl showRegisteredCmds) 4,
    .initParam (.inl debugHook) (.cmd (ascii ['d', 'e', 'b', 'u', 'g'])) none,
    .libcliRegisterParam (some (.inl root)) (.inl debugHook),
    .initParam (.inl debugUt) (.cmd (ascii ['u', 't'])) none,
    .libcliRegisterParam (some (.inl debugHook)) (.inl debugUt),
    .initParam (.inl debugUtEnable) (.leaf .string (ascii ['u', 't', '-', 'e', 'n', 'a', 'b', 'l', 'e'])
      (some enableDisableValidation)) (some .utTestHandler),
    .libcliRegisterParam (some (.inl debugUt)) (.inl debugUtEnable),
    .setParamCmdCode (.inl debugUtEnable) 10,
    .initParam (.inl debugShow) (.cmd (ascii ['s', 'h', 'o', 'w'])) none,
    .libcliRegisterParam (some (.inl debugHook)) (.inl debugShow),
    .initParam (.inl debugShowCmdtree) (.cmd (ascii ['c', 'm', 'd', 't', 'r', 'e', 'e'])) (some .application),
    .libcliRegisterParam (some (.inl debugShow)) (.inl debugShowCmdtree),
    .setParamCmdCode (.inl debugShowCmdtree) 7,
    .initParam (.inl configHook) (.cmd (ascii ['c', 'o', 'n', 'f', 'i', 'g'])) (some .configModeEnterHandler),
    .libcliRegisterParam (some (.inl root)) (.inl configHook),
    .initParam (.inl load) (.cmd (ascii ['l', 'o', 'a', 'd'])) none,
    .libcliRegisterParam (some (.inl configHook)) (.inl load),
    .initParam (.inl fileName) (.leaf .string (ascii ['f', 'i', 'l', 'e', '-', 'n', 'a', 'm', 'e']) none)
    (some .application), .libcliRegisterParam (some (.inl load)) (.inl fileName),
    .setParamCmdCode (.inl fileName) 8,
    .initParam (.inl supportsave) (.cmd (ascii ['s', 'u', 'p', 'p', 'o', 'r', 't', 's', 'a', 'v', 'e'])) none,
    .libcliRegisterParam (some (.inl configHook)) (.inl supportsave),
    .initParam (.inl supportsaveEnable) (.cmd (ascii ['e', 'n', 'a', 'b', 'l', 'e'])) (some .application),
    .libcliRegisterParam (some (.inl supportsave)) (.inl supportsaveEnable),
    .setParamCmdCode (.inl supportsaveEnable) 5,
    .initParam (.inl clearHook) (.cmd (ascii ['c', 'l', 'e', 'a', 'r'])) none,
    .libcliRegisterParam (some (.inl root)) (.inl clearHook),
    .initParam (.inl runHook) (.cmd (ascii ['r', 'u', 'n'])) none,
    .libcliRegisterParam (some (.inl root)) (.inl runHook),
    .initParam (.inl terminate) (.cmd (ascii ['t', 'e', 'r', 'm'])) (some .cliTerminateHandler),
    .libcliRegisterParam (some (.inl runHook)) (.inl terminate),
    .initParam (.inl runUt) (.cmd (ascii ['u', 't'])) none,
    .libcliRegisterParam (some (.inl runHook)) (.inl runUt),
    .initParam (.inl utFilePath)
    (.leaf .string (ascii ['u', 't', '-', 'f', 'i', 'l', 'e', '-', 'n', 'a', 'm', 'e']) none) none,
    .libcliRegisterParam (some (.inl runUt)) (.inl utFilePath),
    .initParam (.inl tcNo) (.leaf .int (ascii ['t', 'c', '-', 'n', 'o']) none) (some .utTestHandler),
    .libcliRegisterParam (some (.inl utFilePath)) (.inl tcNo),
    .setParamCmdCode (.inl tcNo) 9,
    .initParam (.inl doHook) (.cmd (ascii ['D', 'O', '_', 'H', 'O', 'O', 'K'])) none]

/-- The pointers of the hook of `do` are filled in by hand, with no capability to enter a mode. -/
def doHookOptions (i : Fin maxOptionSize) : Option (LibParam ⊕ κ) :=
  [.inl suboptionsParam, .inl suboptionsParam, .inl cmdExpansionParam, .inl showHook, .inl debugHook,
    .inl clearHook][i.val]?

/-- Behind the hook of `do`. -/
def initLibcliCommands : List (RegistrationCall κ) :=
  [.initParam (.inl repeatHook) (.cmd (ascii ['r', 'e', 'p', 'e', 'a', 't'])) (some .repeatLastCommand),
    .libcliRegisterParam (some (.inl root)) (.inl repeatHook),
    .initParam (.inl configConsole) (.cmd (ascii ['c', 'o', 'n', 's', 'o', 'l', 'e'])) none,
    .libcliRegisterParam (some (.inl configHook)) (.inl configConsole),
    .initParam (.inl configConsoleName) (.cmd (ascii ['n', 'a', 'm', 'e'])) none,
    .libcliRegisterParam (some (.inl configConsole)) (.inl configConsoleName),
    .initParam (.inl configConsoleNameName)
    (.leaf .string (ascii ['c', 'o', 'n', 's', '-', 'n', 'a', 'm', 'e']) none) (some .application),
    .libcliRegisterParam (some (.inl configConsoleName)) (.inl configConsoleNameName),
    .setParamCmdCode (.inl configConsoleNameName) 6,
    .initParam (.inl cls) (.cmd (ascii ['c', 'l', 's'])) (some .application),
    .libcliRegisterParam none (.inl cls),
    .initParam (.inl exitCmd) (.cmd (ascii ['c', 'd', '.', '.'])) (some .exitCmdHandler),
    .libcliRegisterParam none (.inl exitCmd),
    .initParam (.inl endCmd) (.cmd (ascii ['c', 'd'])) (some .endCmdHandler),
    .libcliRegisterParam none (.inl endCmd),
    .initParam (.inl showBriefExtension) (.cmd (ascii ['b', 'r', 'i', 'e', 'f']))
    (some .showExtensionParamHandler)]

/-- The static variables before the first call. -/
def zeroParams : Params κ := fun _ => {}

def initLibcliParams (params : Params κ) : Except RegistrationFault (Params κ) :=
  -- No negation is installed, and so no steps are needed.
  (register 0 params initLibcliHooks).bind fun params =>
    register 0 (params.modify (.inl doHook) ({ · with options := doHookOptions })) initLibcliCommands

/-- `choice` is entered if more than one name begins with `no`. -/
def tcpBuildConfigCliTree (choice : ℤ) : List (RegistrationCall TcpParam) :=
  [.initParam (.inr .tcpServer) (.cmd (ascii ['t', 'c', 'p', '-', 's', 'e', 'r', 'v', 'e', 'r'])) none,
    .libcliRegisterParam (some (.inl configHook)) (.inr .tcpServer),
    .initParam (.inr .tcpServerName) (.leaf .string (ascii ['t', 'c', 'p', '-', 's', 'e', 'r', 'v', 'e', 'r',
      '-', 'n', 'a', 'm', 'e']) none) (some .application),
    .libcliRegisterParam (some (.inr .tcpServer)) (.inr .tcpServerName),
    .setParamCmdCode (.inr .tcpServerName) (Int32.ofInt tcpServerCreate),
    .initParam (.inr .start) (.cmd (ascii ['s', 't', 'a', 'r', 't'])) (some .application),
    .libcliRegisterParam (some (.inr .tcpServerName)) (.inr .start),
    .setParamCmdCode (.inr .start) (Int32.ofInt tcpServerStart),
    .initParam (.inr .connect) (.cmd (ascii ['c', 'o', 'n', 'n', 'e', 'c', 't'])) none,
    .libcliRegisterParam (some (.inr .tcpServerName)) (.inr .connect),
    .initParam (.inr .remoteMachineAddr) (.leaf .ipv4 (ascii ['r', 'e', 'm', 'o', 't', 'e', '-', 'a', 'd', 'd',
      'r']) none) none,
    .libcliRegisterParam (some (.inr .connect)) (.inr .remoteMachineAddr),
    .initParam (.inr .remoteMachinePort) (.leaf .int (ascii ['r', 'e', 'm', 'o', 't', 'e', '-', 'p', 'o', 'r',
      't']) none) (some .application),
    .libcliRegisterParam (some (.inr .remoteMachineAddr)) (.inr .remoteMachinePort),
    .setParamCmdCode (.inr .remoteMachinePort) (Int32.ofInt tcpServerConnectRemote),
    .initParam (.inr .stop) (.cmd (ascii ['a', 'b', 'o', 'r', 't'])) (some .application),
    .libcliRegisterParam (some (.inr .tcpServerName)) (.inr .stop),
    .setParamCmdCode (.inr .stop) (Int32.ofInt tcpServerAbort),
    .initParam (.inr .multiThreadedMode) (.cmd (ascii ['m', 'u', 'l', 't', 'i', '-', 't', 'h', 'r', 'e', 'a',
      'd', 'e', 'd', '-', 'm', 'o', 'd', 'e'])) (some .application),
    .libcliRegisterParam (some (.inr .tcpServerName)) (.inr .multiThreadedMode),
    .setParamCmdCode (.inr .multiThreadedMode) (Int32.ofInt tcpServerSetMultithreadedMode),
    .initParam (.inr .disConnAccept) (.cmd (ascii ['d', 'i', 's', 'a', 'b', 'l', 'e', '-', 'c', 'o', 'n', 'n',
      '-', 'a', 'c', 'c', 'e', 'p', 't'])) (some .application),
    .libcliRegisterParam (some (.inr .tcpServerName)) (.inr .disConnAccept),
    .setParamCmdCode (.inr .disConnAccept) (Int32.ofInt tcpServerStopConnAccept),
    .initParam (.inr .clientListen) (.cmd (ascii ['d', 'i', 's', 'a', 'b', 'l', 'e', '-', 'c', 'l', 'i', 'e',
      'n', 't', '-', 'l', 'i', 's', 't', 'e', 'n'])) (some .application),
    .libcliRegisterParam (some (.inr .tcpServerName)) (.inr .clientListen),
    .setParamCmdCode (.inr .clientListen) (Int32.ofInt tcpServerStopListeningClients),
    .initParam (.inr .kaInterval) (.cmd (ascii ['k', 'a', '-', 'i', 'n', 't', 'e', 'r', 'v', 'a', 'l'])) none,
    .libcliRegisterParam (some (.inr .tcpServerName)) (.inr .kaInterval),
    .initParam (.inr .kaIntervalVal) (.leaf .int (ascii ['k', 'a', '-', 'i', 'n', 't', 'e', 'r', 'v', 'a',
      'l']) none) (some .application),
    .libcliRegisterParam (some (.inr .kaInterval)) (.inr .kaIntervalVal),
    .setParamCmdCode (.inr .kaIntervalVal) (Int32.ofInt tcpServerAllClientsSetKaInterval),
    .initParam (.inr .tcpServerAddr) (.leaf .ipv4 (ascii ['t', 'c', 'p', '-', 's', 'e', 'r', 'v', 'e', 'r',
      '-', 'a', 'd', 'd', 'r']) none) (some .application),
    .libcliRegisterParam (some (.inr .tcpServerName)) (.inr .tcpServerAddr),
    .setParamCmdCode (.inr .tcpServerName) (Int32.ofInt tcpServerCreate),
    .initParam (.inr .tcpServerPort) (.leaf .int (ascii ['t', 'c', 'p', '-', 's', 'e', 'r', 'v', 'e', 'r', '-',
      'p', 'o', 'r', 't']) none) (some .application),
    .libcliRegisterParam (some (.inr .tcpServerAddr)) (.inr .tcpServerPort),
    .setParamCmdCode (.inr .tcpServerPort) (Int32.ofInt tcpServerCreate),
    .supportCmdNegation (.inr .tcpServerName) (.inr .noTcpServerName) choice,
    .supportCmdNegation (.inl configHook) (.inr .noConfig) choice]

def tcpBuildRunCliTree : List (RegistrationCall TcpParam) :=
  [.initParam (.inr .runTcpServer) (.cmd (ascii ['t', 'c', 'p', '-', 's', 'e', 'r', 'v', 'e', 'r'])) none,
    .libcliRegisterParam (some (.inl runHook)) (.inr .runTcpServer),
    .initParam (.inr .runTcpServerName) (.leaf .string (ascii ['t', 'c', 'p', '-', 's', 'e', 'r', 'v', 'e',
      'r', '-', 'n', 'a', 'm', 'e']) none) none,
    .libcliRegisterParam (some (.inr .runTcpServer)) (.inr .runTcpServerName),
    .initParam (.inr .sendMsg) (.cmd (ascii ['s', 'e', 'n', 'd', '-', 'm', 's', 'g'])) none,
    .libcliRegisterParam (some (.inr .runTcpServerName)) (.inr .sendMsg),
    .initParam (.inr .runRemoteMachineAddr) (.leaf .ipv4 (ascii ['r', 'e', 'm', 'o', 't', 'e', '-', 'a', 'd',
      'd', 'r']) none) none,
    .libcliRegisterParam (some (.inr .sendMsg)) (.inr .runRemoteMachineAddr),
    .initParam (.inr .runRemoteMachinePort) (.leaf .int (ascii ['r', 'e', 'm', 'o', 't', 'e', '-', 'p', 'o',
      'r', 't']) none) none,
    .libcliRegisterParam (some (.inr .runRemoteMachineAddr)) (.inr .runRemoteMachinePort),
    .initParam (.inr .msg) (.leaf .string (ascii ['m', 's', 'g']) none) (some .application),
    .libcliRegisterParam (some (.inr .runRemoteMachinePort)) (.inr .msg),
    .setParamCmdCode (.inr .msg) (Int32.ofInt runCmdCodeTcpServerSendmsg)]

def tcpBuildShowCliTree : List (RegistrationCall TcpParam) :=
  [.initParam (.inr .showTcpServer) (.cmd (ascii ['t', 'c', 'p', '-', 's', 'e', 'r', 'v', 'e', 'r'])) none,
    .libcliRegisterParam (some (.inl showHook)) (.inr .showTcpServer),
    .initParam (.inr .showTcpServerName) (.leaf .string (ascii ['t', 'c', 'p', '-', 's', 'e', 'r', 'v', 'e',
      'r', '-', 'n', 'a', 'm', 'e']) none) (some .application),
    .libcliRegisterParam (some (.inr .showTcpServer)) (.inr .showTcpServerName),
    .setParamCmdCode (.inr .showTcpServerName) (Int32.ofInt tcpServerShowTcpServer)]

def tcpBuildCliCalls (choice : ℤ) : List (RegistrationCall TcpParam) :=
  tcpBuildConfigCliTree choice ++ tcpBuildRunCliTree ++ tcpBuildShowCliTree

end TcpServerLib.Model
