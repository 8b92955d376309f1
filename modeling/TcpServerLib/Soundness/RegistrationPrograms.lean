import TcpServerLib.Soundness.RegistryInvariant

/-! # Programs whose calls are legal

That the calls of a program are legal can be read off its text if it registers every param as soon as it has
initialised it.
-/

namespace TcpServerLib.Soundness

open Machine Model Refinement LibParam

/-- The param that a call may give a type. -/
def initialises {κ : Type*} : RegistrationCall κ → Option (LibParam ⊕ κ)
  | .initParam p .. => some p
  | .supportCmdNegation _ noParam _ => some noParam
  | _ => none

def isCommand : ParamType → Bool
  | .noCmd => false
  | _ => true

variable {κ : Type*} [DecidableEq κ] {registered registered' : Registration κ} {params params' : Params κ}
  {call : RegistrationCall κ} {calls : List (RegistrationCall κ)} {steps : ℕ} {made used : List κ}
  {p c : LibParam ⊕ κ} {k : κ}

/-- The param may be registered under: it is one of the library, or the program has registered it. -/
def offered (made : List κ) : LibParam ⊕ κ → Bool
  | .inl q => q ∈ accessible
  | .inr k => k ∈ made

/-- The params of the program that are in use so far are `used`, and those that have been registered
are `made`. -/
def orderly (made used : List κ) : List (RegistrationCall κ) → Bool
  | [] => true
  | .initParam (.inr k) paramType callback :: .libcliRegisterParam parent child :: calls =>
    child = .inr k && k ∉ used && isCommand paramType && callback ∈ [none, some .application] &&
      offered made (parent.getD (.inl root)) && orderly (k :: made) (k :: used) calls
  | .setParamCmdCode .. :: calls => orderly made used calls
  | .libcliRegisterDisplayCallback .. :: calls => orderly made used calls
  | .enableShowExtensionParamBrief p :: calls => offered made p && orderly made used calls
  | .supportCmdNegation p (.inr k) _ :: calls => offered made p && k ∉ used && orderly made (k :: used) calls
  | _ => false

/-- What is known of the params after a part of the program. -/
structure Drafted (registered : Registration κ) (made used : List κ) : Prop where
  unused : ∀ k, k ∉ used → registered.cmdType (.inr k) = none
  parents : ∀ k ∈ made, IsParent registered (.inr k)

/-- A call changes the type of at most one param. -/
theorem cmdType_other (registers : Registers registered call registered') (other : initialises call ≠ some c) :
    registered'.cmdType c = registered.cmdType c := by
  cases registers with
  | initParam p paramType callback =>
    apply Function.update_of_ne
    rintro rfl
    exact other rfl
  | setParamCmdCode => rfl
  | libcliRegisterDisplayCallback => rfl
  | libcliRegisterParam => rfl
  | enableShowExtensionParamBrief => rfl
  | refused => rfl
  | supportCmdNegation =>
    apply Registration.negate_cmdType_of_ne
    rintro rfl
    exact other rfl

omit [DecidableEq κ] in
theorem isParent_congr (same : registered'.cmdType p = registered.cmdType p) (isParent : IsParent registered p) :
    IsParent registered' p := by
  cases p with
  | inl q => exact isParent
  | inr k => rwa [IsParent, same]

namespace Drafted

theorem isParent (drafted : Drafted registered made used) (offered : offered made p = true) :
    IsParent registered p := by
  cases p with
  | inl q =>
    have inside : q ∈ accessible := of_decide_eq_true offered
    exact inside
  | inr k => exact drafted.parents k (of_decide_eq_true offered)

/-- A call that gives no param a type. -/
theorem kept (drafted : Drafted registered made used) (registers : Registers registered call registered')
    (none : initialises call = none) : Drafted registered' made used := by
  have same (c : LibParam ⊕ κ) : registered'.cmdType c = registered.cmdType c :=
    cmdType_other registers (by rw [none]; exact (Option.some_ne_none c).symm)
  constructor
  · intro k unused
    rw [same]
    exact drafted.unused k unused
  · exact fun k inside => isParent_congr (same _) (drafted.parents k inside)

/-- One that takes a new param into use. -/
theorem use (drafted : Drafted registered made used) (registers : Registers registered call registered')
    (first : initialises call = some (.inr k)) (unused : k ∉ used) : Drafted registered' made (k :: used) := by
  have same {j : κ} (other : j ≠ k) : registered'.cmdType (.inr j) = registered.cmdType (.inr j) := by
    apply cmdType_other registers
    rw [first]
    exact fun equal => other (Sum.inr.inj (Option.some.inj equal)).symm
  constructor
  · intro j free
    rw [List.mem_cons, not_or] at free
    rw [same free.1]
    exact drafted.unused j free.2
  · intro j inside
    have other : j ≠ k := by
      rintro rfl
      exact (drafted.parents j inside).1 (drafted.unused j unused)
    exact isParent_congr (same other) (drafted.parents j inside)

omit [DecidableEq κ] in
theorem make (drafted : Drafted registered made used) (isParent : IsParent registered (.inr k)) :
    Drafted registered (k :: made) used := by
  refine ⟨drafted.unused, fun j inside => ?_⟩
  rcases List.mem_cons.mp inside with rfl | before
  · exact isParent
  · exact drafted.parents j before

end Drafted

omit [DecidableEq κ] in
theorem isCommand_iff {paramType : ParamType} : isCommand paramType = true ↔ paramType.cmdType ≠ .noCmd := by
  cases paramType <;> simp [isCommand, ParamType.cmdType]

theorem register_cons : register steps params (call :: calls) = .ok params' ↔
    ∃ middle, Succeeds steps params call middle ∧ register steps middle calls = .ok params' := by
  rw [register, List.foldlM_cons]
  change call.run steps params >>= _ = _ ↔ ∃ middle, call.run steps params = .ok middle ∧ _
  cases call.run steps params with
  | error fault => simp [Bind.bind, Except.bind]
  | ok middle => simp [Bind.bind, Except.bind, register]

theorem isParent_init {cmdType : CmdType} {callback : Option Callback} (ordinary : cmdType ≠ .noCmd) :
    IsParent (registered.init (.inr k) cmdType callback) (.inr k) := by
  have typed : (registered.init (.inr k) cmdType callback).cmdType (.inr k) = some cmdType :=
    Function.update_self _ _ _
  rw [IsParent, typed]
  exact ⟨Option.some_ne_none _, fun same => ordinary (Option.some.inj same)⟩

/-- A param may be registered when it has just been initialised. -/
theorem legal_register {parent : Option (LibParam ⊕ κ)} {paramType : ParamType} {callback : Option Callback}
    (registry : Registry registered) (unused : registered.cmdType (.inr k) = none)
    (isParent : IsParent registered (parent.getD (.inl root))) (other : parent.getD (.inl root) ≠ .inr k) :
    Legal (registered.init (.inr k) paramType.cmdType callback) (.libcliRegisterParam parent (.inr k)) := by
  refine ⟨?_, ⟨k, rfl⟩, ?_, ?_, ?_⟩
  · exact isParent_congr (Function.update_of_ne other _ _) isParent
  · have typed : (registered.init (.inr k) paramType.cmdType callback).cmdType (.inr k) = _ :=
      Function.update_self _ _ _
    rw [typed]
    exact Option.some_ne_none _
  · exact Function.update_self _ _ _
  · exact not_climbs_of_childless (registry.childless_init unused) other

/-- A call that gives no param a type, in front of a program whose calls are legal. -/
theorem legalRun_plain (sound : SoundParams params) (drafted : Drafted (registeredOf params) made used)
    (legal : Legal (registeredOf params) call) (plain : initialises call = none)
    (ran : register steps params (call :: calls) = .ok params')
    (rest : ∀ {middle}, SoundParams middle → Drafted (registeredOf middle) made used →
      register steps middle calls = .ok params' → LegalRun steps middle calls params') :
    LegalRun steps params (call :: calls) params' := by
  obtain ⟨middle, succeeds, ran⟩ := register_cons.mp ran
  obtain ⟨registers, sound'⟩ := soundParams_call sound legal succeeds
  exact .cons ⟨legal, succeeds⟩ (rest sound' (drafted.kept registers plain) ran)

/-- Over the program, two calls at a time where a param is made. -/
theorem legalRun_drafted (sound : SoundParams params) (drafted : Drafted (registeredOf params) made used)
    (ordered : orderly made used calls = true) (ran : register steps params calls = .ok params') :
    LegalRun steps params calls params' := by
  fun_induction orderly made used calls generalizing params with
  | case1 made used =>
    cases ran
    exact .nil _
  | case2 made used k paramType callback parent child calls ih =>
    simp only [Bool.and_eq_true, decide_eq_true_eq] at ordered
    obtain ⟨⟨⟨⟨⟨rfl, unused⟩, command⟩, own⟩, under⟩, rest⟩ := ordered
    obtain ⟨initialised, first, ran⟩ := register_cons.mp ran
    obtain ⟨registered, second, ran⟩ := register_cons.mp ran
    have isParent := drafted.isParent under
    have other : parent.getD (.inl root) ≠ .inr k := by
      intro same
      rw [same] at isParent
      exact isParent.1 (drafted.unused k unused)
    have legal₁ : Legal (registeredOf params) (.initParam (.inr k) paramType callback) :=
      ⟨drafted.unused k unused, isCommand_iff.mp command, own⟩
    obtain ⟨registers₁, sound₁⟩ := soundParams_call sound legal₁ first
    have drafted₁ := drafted.use registers₁ rfl unused
    have legal₂ : Legal (registeredOf initialised) (.libcliRegisterParam parent (.inr k)) := by
      generalize registeredOf initialised = made at registers₁
      cases registers₁
      exact legal_register sound.1 (drafted.unused k unused) isParent other
    obtain ⟨registers₂, sound₂⟩ := soundParams_call sound₁ legal₂ second
    have ordinary : IsParent (registeredOf initialised) (.inr k) := by
      generalize registeredOf initialised = made at registers₁
      cases registers₁
      exact isParent_init (isCommand_iff.mp command)
    have drafted₂ := (drafted₁.make ordinary).kept registers₂ rfl
    exact .cons ⟨legal₁, first⟩ (.cons ⟨legal₂, second⟩ (ih sound₂ drafted₂ rest ran))
  | case3 made used p cmdCode calls ih =>
    have legal : Legal (registeredOf params) (.setParamCmdCode p cmdCode) := trivial
    exact legalRun_plain sound drafted legal rfl ran fun sound drafted ran => ih sound drafted ordered ran
  | case4 made used p dispCallback calls ih =>
    have legal : Legal (registeredOf params) (.libcliRegisterDisplayCallback p dispCallback) := trivial
    exact legalRun_plain sound drafted legal rfl ran fun sound drafted ran => ih sound drafted ordered ran
  | case5 made used p calls ih =>
    obtain ⟨under, rest⟩ := Bool.and_eq_true_iff.mp ordered
    have legal : Legal (registeredOf params) (.enableShowExtensionParamBrief p) := drafted.isParent under
    exact legalRun_plain sound drafted legal rfl ran fun sound drafted ran => ih sound drafted rest ran
  | case6 made used p k choice calls ih =>
    simp only [Bool.and_eq_true, decide_eq_true_eq] at ordered
    obtain ⟨⟨under, unused⟩, rest⟩ := ordered
    obtain ⟨middle, succeeds, ran⟩ := register_cons.mp ran
    have legal : Legal (registeredOf params) (.supportCmdNegation p (.inr k) choice) :=
      ⟨drafted.isParent under, drafted.unused k unused⟩
    obtain ⟨registers, sound'⟩ := soundParams_call sound legal succeeds
    exact .cons ⟨legal, succeeds⟩ (ih sound' (drafted.use registers rfl unused) rest ran)
  | case7 => cases ordered

/-- A program behind `init_libcli`. -/
theorem legalRun_of_orderly (ordered : orderly [] [] calls = true)
    (ran : register steps libcliParams calls = .ok params) :
    LegalRun steps libcliParams calls params := by
  have drafted : Drafted (registeredOf (libcliParams : Params κ)) [] [] := by
    rw [registeredOf_libcli]
    exact ⟨fun _ _ => rfl, nofun⟩
  exact legalRun_drafted soundParams_libcli drafted ordered ran

end TcpServerLib.Soundness
