import TcpServerLib.Refinement.Registration

/-! # What `init_libcli` leaves behind

As long as no negation is installed, what a run of calls makes of a param is told by the calls that name it.
`init_libcli` succeeds, and its params are those of the tree of the library.
-/

namespace TcpServerLib.Refinement

open Machine Model LibParam

/-- What an application sees of one param. -/
@[ext]
structure RegisteredParam (κ : Type*) where
  cmdType : Option CmdType
  callback : Option Callback
  capabilities : List (LibParam ⊕ κ)
  children : List (LibParam ⊕ κ)
  parent : Option (LibParam ⊕ κ)

variable {κ : Type*}

def Registration.at (registered : Registration κ) (p : LibParam ⊕ κ) : RegisteredParam κ where
  cmdType := registered.cmdType p
  callback := registered.callback p
  capabilities := registered.capabilities p
  children := registered.children p
  parent := registered.parent p

theorem Registration.ext_at {registered registered' : Registration κ}
    (same : ∀ p, registered.at p = registered'.at p) :
    registered = registered' := by
  apply Registration.ext
  · exact funext fun p => congrArg RegisteredParam.cmdType (same p)
  · exact funext fun p => congrArg RegisteredParam.callback (same p)
  · exact funext fun p => congrArg RegisteredParam.capabilities (same p)
  · exact funext fun p => congrArg RegisteredParam.children (same p)
  · exact funext fun p => congrArg RegisteredParam.parent (same p)

variable [DecidableEq κ] {registered registered' : Registration κ} {calls : List (RegistrationCall κ)}
  {params params' : Params κ} {steps : ℕ}

def RegisteredParam.append (param : RegisteredParam κ) (p parent child : LibParam ⊕ κ) :
    RegisteredParam κ where
  cmdType := param.cmdType
  callback := param.callback
  capabilities := if p = parent then enabledCapabilities param.capabilities else param.capabilities
  children := if p = parent then param.children ++ [child] else param.children
  parent := if p = child then some parent else param.parent

/-- What a call does to the param `p`. A negation is another param's matter as well. -/
def onParam (p : LibParam ⊕ κ) (param : RegisteredParam κ) : RegistrationCall κ → RegisteredParam κ
  | .initParam q paramType callback => if p = q then ⟨some paramType.cmdType, callback, [], [],
      none⟩ else param
  | .libcliRegisterParam parent child => param.append p (parent.getD (.inl root)) child
  | .enableShowExtensionParamBrief parent => param.append p parent (.inl showBriefExtension)
  | .setParamCmdCode .. | .libcliRegisterDisplayCallback .. | .supportCmdNegation .. => param

def installsNegation : RegistrationCall κ → Bool
  | .supportCmdNegation .. => true
  | _ => false

theorem at_append (registered : Registration κ) (p parent child : LibParam ⊕ κ) :
    (registered.append parent child).at p = (registered.at p).append p parent child := by
  apply RegisteredParam.ext
  · rfl
  · rfl
  · by_cases same : p = parent
    · subst same
      simp [Registration.append, Registration.at, RegisteredParam.append]
    · simp [Registration.append, Registration.at, RegisteredParam.append, same]
  · by_cases same : p = parent
    · subst same
      simp [Registration.append, Registration.at, RegisteredParam.append]
    · simp [Registration.append, Registration.at, RegisteredParam.append, same]
  · by_cases same : p = child
    · subst same
      simp [Registration.append, Registration.at, RegisteredParam.append]
    · simp [Registration.append, Registration.at, RegisteredParam.append, same]

theorem at_registers {call : RegistrationCall κ} (registers : Registers registered call registered')
    (plain : installsNegation call = false) (p : LibParam ⊕ κ) :
    registered'.at p = onParam p (registered.at p) call := by
  cases registers with
  | initParam q paramType callback =>
    by_cases same : p = q
    · subst same
      simp [Registration.init, Registration.at, onParam]
    · simp [Registration.init, Registration.at, onParam, same]
  | setParamCmdCode => rfl
  | libcliRegisterDisplayCallback => rfl
  | libcliRegisterParam child room => apply at_append
  | enableShowExtensionParamBrief room => apply at_append
  | refused => exact nomatch plain
  | supportCmdNegation => exact nomatch plain

/-- A run of calls, none of which installs a negation. -/
theorem registeredOf_register (plain : ∀ call ∈ calls, installsNegation call = false)
    (packed : ∀ q, WellPacked (params q))
    (ran : register steps params calls = .ok params') (p : LibParam ⊕ κ) :
    (registeredOf params').at p = calls.foldl (onParam p) ((registeredOf params).at p) ∧
    WellPacked (params' p) := by
  induction calls generalizing params with
  | nil =>
    cases ran
    exact ⟨rfl, packed p⟩
  | cons call calls ih =>
    rw [register, List.foldlM_cons] at ran
    cases first : call.run steps params with
    | error fault =>
      rw [first] at ran
      cases ran
    | ok middle =>
      rw [first] at ran
      have ordinary := plain call List.mem_cons_self
      obtain ⟨registers, packed'⟩ := run_registers packed
        (fun p noParam choice negation => by rw [negation] at ordinary; cases ordinary) first
      rw [List.foldl_cons, ← at_registers registers ordinary]
      exact ih (fun call member => plain call (List.mem_cons_of_mem _ member)) packed' ran

/-- The params when `init_libcli` returns. -/
def libcliParams : Params κ := (initLibcliParams zeroParams).toOption.getD zeroParams

/-- No assertion fails in `init_libcli`. -/
theorem initLibcliParams_eq : initLibcliParams (zeroParams : Params κ) = .ok libcliParams := rfl

/-- The params of the library, as an application finds them. Those of its own are zero. -/
def library : Registration κ where
  cmdType := Sum.elim (fun q => some (LibParam.param q).cmdType) fun _ => none
  callback := Sum.elim (fun q => (LibParam.param q).callback) fun _ => none
  capabilities := Sum.elim (fun q => ((LibParam.param q).options.take 3).map .inl) fun _ => []
  children := Sum.elim (fun q => ((LibParam.param q).options.drop 3).map .inl) fun _ => []
  parent := Sum.elim (fun q => (LibParam.param q).parent.map .inl) fun _ => none

omit [DecidableEq κ] in
theorem doHookOptions_eq : (doHookOptions : Fin maxOptionSize → Option (LibParam ⊕ κ)) =
    laid negationCapabilities [.inl showHook, .inl debugHook, .inl clearHook] := by
  apply places_ext
  · rfl
  · rfl
  · rfl
  · intro i late
    have start : 3 ≤ i.val := late
    obtain ⟨j, index⟩ := Nat.exists_eq_add_of_le start
    rw [laid_child late, doHookOptions, index, Nat.add_sub_cancel_left, Nat.add_comm]
    rfl

/-- The hook of `do` is filled in by hand. -/
def RegisteredParam.fillDoHook (p : LibParam ⊕ κ) (param : RegisteredParam κ) : RegisteredParam κ where
  cmdType := param.cmdType
  callback := param.callback
  capabilities := if p = .inl doHook then negationCapabilities else param.capabilities
  children := if p = .inl doHook then [.inl showHook, .inl debugHook, .inl clearHook] else param.children
  parent := param.parent

theorem at_doHook (params : Params κ) (p : LibParam ⊕ κ) :
    (registeredOf (params.modify (.inl doHook) ({ · with options := doHookOptions }))).at p =
      ((registeredOf params).at p).fillDoHook p := by
  have few : (negationCapabilities (κ := κ)).length ≤ 3 := Nat.le_refl 3
  have fits : ([.inl showHook, .inl debugHook, .inl clearHook] : List (LibParam ⊕ κ)).length ≤ maxChildren :=
    Nat.le_of_ble_eq_true rfl
  rw [registeredOf_modify_options doHookOptions_eq few fits rfl rfl rfl]
  by_cases same : p = .inl doHook
  · subst same
    simp [Registration.at, RegisteredParam.fillDoHook]
  · simp [Registration.at, RegisteredParam.fillDoHook, same]

omit [DecidableEq κ] in
theorem plain_hooks : ∀ call ∈ (initLibcliHooks : List (RegistrationCall κ)),
    installsNegation call = false := by
  have none : (initLibcliHooks : List (RegistrationCall κ)).all (!installsNegation ·) = true := rfl
  simpa using none

omit [DecidableEq κ] in
theorem plain_commands : ∀ call ∈ (initLibcliCommands : List (RegistrationCall κ)),
    installsNegation call = false := by
  have none : (initLibcliCommands : List (RegistrationCall κ)).all (!installsNegation ·) = true := rfl
  simpa using none

omit [DecidableEq κ] in
theorem wellPacked_zero (q : LibParam ⊕ κ) : WellPacked ((zeroParams : Params κ) q) :=
  wellPacked_laid blank_options (.inl rfl) (Nat.zero_le _)

/-- What the calls make of a param that is zero. -/
def initialised (p : LibParam ⊕ κ) : RegisteredParam κ :=
  initLibcliCommands.foldl (onParam p)
    ((initLibcliHooks.foldl (onParam p) ⟨none, none, [], [], none⟩).fillDoHook p)

theorem initialised_eq (p : LibParam ⊕ κ) : initialised p = library.at p := by
  cases p with
  | inl q => cases q <;> rfl
  | inr k => rfl

theorem libcli_at (p : LibParam ⊕ κ) :
    (registeredOf libcliParams).at p = library.at p ∧ WellPacked (libcliParams p) := by
  have ran := initLibcliParams_eq (κ := κ)
  rw [initLibcliParams] at ran
  cases hooks : register 0 (zeroParams : Params κ) initLibcliHooks with
  | error fault =>
    rw [hooks] at ran
    cases ran
  | ok middle =>
    rw [hooks] at ran
    have first := registeredOf_register plain_hooks wellPacked_zero hooks
    have filled := wellPacked_modify (p := .inl doHook) (f := ({ · with options := doHookOptions }))
        (fun q => (first q).2)
      (wellPacked_laid doHookOptions_eq (.inr rfl) (Nat.le_of_ble_eq_true rfl))
    have second := registeredOf_register plain_commands filled ran p
    refine ⟨?_, second.2⟩
    rw [second.1, at_doHook, (first p).1, ← initialised_eq]
    rfl

theorem registeredOf_libcli : registeredOf (libcliParams : Params κ) = library :=
  Registration.ext_at fun p => (libcli_at p).1

end TcpServerLib.Refinement
