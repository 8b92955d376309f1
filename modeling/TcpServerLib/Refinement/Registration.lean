import TcpServerLib.Refinement.OptionSlots

/-! # Registration as an application sees it

To an application a param has children, in the order they were registered in. A call that succeeds appends to
these lists what the code writes into the pointers of the params.
-/

namespace TcpServerLib.Refinement

open Machine Model LibParam

/-- The params with their children as lists. -/
@[ext]
structure Registration (κ : Type*) where
  cmdType : LibParam ⊕ κ → Option CmdType
  callback : LibParam ⊕ κ → Option Callback
  capabilities : LibParam ⊕ κ → List (LibParam ⊕ κ)
  children : LibParam ⊕ κ → List (LibParam ⊕ κ)
  parent : LibParam ⊕ κ → Option (LibParam ⊕ κ)

variable {κ : Type*}

/-- What an application sees of the params in memory. -/
def registeredOf (params : Params κ) : Registration κ where
  cmdType p := (params p).cmdType
  callback p := (params p).callback
  capabilities p := capabilitiesOf (params p)
  children p := childrenOf (params p)
  parent p := (params p).parent

/-- All children are packed, and either no capability is enabled or all of them are. -/
structure WellPacked (param : ParamT (LibParam ⊕ κ)) : Prop where
  packed : Packed param
  whole : capabilitiesOf param = [] ∨ (capabilitiesOf param).length = 3

/-- What `support_cmd_negation` allocates. -/
def negationParam (param : ParamT (LibParam ⊕ κ)) (p : LibParam ⊕ κ) : ParamT (LibParam ⊕ κ) where
  cmdType := some .noCmd
  callback := some .application
  options := laid negationCapabilities (childrenOf param)
  parent := some p
  cmdCode := -1

/-- A negation param has capabilities of its own. -/
theorem capabilitiesOf_negationParam (param : ParamT (LibParam ⊕ κ)) (p : LibParam ⊕ κ) :
    capabilitiesOf (negationParam param p) = negationCapabilities :=
  capabilitiesOf_laid rfl (Nat.le_refl 3)

/-- A negation param has the children of the param it negates. -/
theorem childrenOf_negationParam (param : ParamT (LibParam ⊕ κ)) (p : LibParam ⊕ κ) :
    childrenOf (negationParam param p) = childrenOf param :=
  childrenOf_laid rfl (length_childrenOf_le param)

variable [DecidableEq κ] {params params' : Params κ} {p child parent noParam : LibParam ⊕ κ} {steps : ℕ}

namespace Registration

variable (registered : Registration κ)

/-- `init_param`: a param with a type and a handler, and nothing else. -/
def init (p : LibParam ⊕ κ) (cmdType : CmdType) (callback : Option Callback) : Registration κ where
  cmdType := Function.update registered.cmdType p (some cmdType)
  callback := Function.update registered.callback p callback
  capabilities := Function.update registered.capabilities p []
  children := Function.update registered.children p []
  parent := Function.update registered.parent p none

/-- `libcli_register_param`: the child stands behind the others, and the capabilities are enabled.
-/
def append (parent child : LibParam ⊕ κ) : Registration κ :=
  { registered with
    capabilities := Function.update registered.capabilities parent
      (enabledCapabilities (registered.capabilities parent))
    children := Function.update registered.children parent (registered.children parent ++ [child])
    parent := Function.update registered.parent child (some parent) }

/-- A negation param has the children that are registered so far, and becomes the last of them. -/
def negate (p noParam : LibParam ⊕ κ) : Registration κ where
  cmdType := Function.update registered.cmdType noParam (some .noCmd)
  callback := Function.update registered.callback noParam (some .application)
  capabilities := Function.update registered.capabilities noParam negationCapabilities
  children :=
    Function.update (Function.update registered.children noParam (registered.children p)) p
      (registered.children p ++ [noParam])
  parent := Function.update registered.parent noParam (some p)

section

variable {p q parent child noParam : LibParam ⊕ κ}

@[simp] theorem append_cmdType : (registered.append parent child).cmdType = registered.cmdType := rfl

@[simp] theorem append_callback : (registered.append parent child).callback = registered.callback := rfl

@[simp] theorem append_capabilities_self :
    (registered.append parent child).capabilities parent = enabledCapabilities (registered.capabilities parent) :=
  Function.update_self _ _ _

@[simp] theorem append_capabilities_of_ne (other : q ≠ parent) :
    (registered.append parent child).capabilities q = registered.capabilities q :=
  Function.update_of_ne other _ _

@[simp] theorem append_children_self :
    (registered.append parent child).children parent = registered.children parent ++ [child] :=
  Function.update_self _ _ _

@[simp] theorem append_children_of_ne (other : q ≠ parent) :
    (registered.append parent child).children q = registered.children q :=
  Function.update_of_ne other _ _

@[simp] theorem append_parent_self : (registered.append parent child).parent child = some parent :=
  Function.update_self _ _ _

@[simp] theorem append_parent_of_ne (other : q ≠ child) :
    (registered.append parent child).parent q = registered.parent q :=
  Function.update_of_ne other _ _

@[simp] theorem negate_cmdType_self : (registered.negate p noParam).cmdType noParam = some .noCmd :=
  Function.update_self _ _ _

@[simp] theorem negate_cmdType_of_ne (other : q ≠ noParam) :
    (registered.negate p noParam).cmdType q = registered.cmdType q :=
  Function.update_of_ne other _ _

@[simp] theorem negate_callback_self : (registered.negate p noParam).callback noParam = some .application :=
  Function.update_self _ _ _

@[simp] theorem negate_callback_of_ne (other : q ≠ noParam) :
    (registered.negate p noParam).callback q = registered.callback q :=
  Function.update_of_ne other _ _

@[simp] theorem negate_capabilities_self : (registered.negate p noParam).capabilities noParam =
    negationCapabilities :=
  Function.update_self _ _ _

@[simp] theorem negate_capabilities_of_ne (other : q ≠ noParam) :
    (registered.negate p noParam).capabilities q = registered.capabilities q :=
  Function.update_of_ne other _ _

@[simp] theorem negate_children_installed :
    (registered.negate p noParam).children p = registered.children p ++ [noParam] :=
  Function.update_self _ _ _

@[simp] theorem negate_children_self (other : noParam ≠ p) :
    (registered.negate p noParam).children noParam = registered.children p :=
  (Function.update_of_ne other _ _).trans (Function.update_self _ _ _)

@[simp] theorem negate_children_of_ne (elsewhere : q ≠ p) (other : q ≠ noParam) :
    (registered.negate p noParam).children q = registered.children q :=
  (Function.update_of_ne elsewhere _ _).trans (Function.update_of_ne other _ _)

@[simp] theorem negate_parent_self : (registered.negate p noParam).parent noParam = some p :=
  Function.update_self _ _ _

@[simp] theorem negate_parent_of_ne (other : q ≠ noParam) :
    (registered.negate p noParam).parent q = registered.parent q :=
  Function.update_of_ne other _ _

end

end Registration

/-- What a call that succeeds makes of the lists. -/
inductive Registers : Registration κ → RegistrationCall κ → Registration κ → Prop
  | initParam (registered : Registration κ) (p : LibParam ⊕ κ) (paramType : ParamType)
      (callback : Option Callback) :
      Registers registered (.initParam p paramType callback) (registered.init p paramType.cmdType callback)
  | setParamCmdCode (registered : Registration κ) (p : LibParam ⊕ κ) (cmdCode : Int32) :
      Registers registered (.setParamCmdCode p cmdCode) registered
  | libcliRegisterDisplayCallback (registered : Registration κ) (p : LibParam ⊕ κ) (dispCallback : Bool) :
      Registers registered (.libcliRegisterDisplayCallback p dispCallback) registered
  | libcliRegisterParam {registered : Registration κ} {parent : Option (LibParam ⊕ κ)}
      (child : LibParam ⊕ κ)
      (room : (registered.children (parent.getD (.inl root))).length < maxChildren) :
      Registers registered (.libcliRegisterParam parent child) (registered.append (parent.getD (.inl root)) child)
  | enableShowExtensionParamBrief {registered : Registration κ} {p : LibParam ⊕ κ}
      (room : (registered.children p).length < maxChildren) :
      Registers registered (.enableShowExtensionParamBrief p) (registered.append p (.inl showBriefExtension))
  | refused (registered : Registration κ) (p noParam : LibParam ⊕ κ) (choice : ℤ) :
      Registers registered (.supportCmdNegation p noParam choice) registered
  | supportCmdNegation {registered : Registration κ} {p : LibParam ⊕ κ} (noParam : LibParam ⊕ κ)
      (choice : ℤ)
      (below : p ≠ .inl root) (attached : registered.parent p ≠ none)
      (room : (registered.children p).length < maxChildren) :
      Registers registered (.supportCmdNegation p noParam choice) (registered.negate p noParam)

/-- A param that is written anew is seen anew. -/
theorem registeredOf_update (params : Params κ) (p : LibParam ⊕ κ) (param : ParamT (LibParam ⊕ κ)) :
    registeredOf (Function.update params p param) =
      { cmdType := Function.update (registeredOf params).cmdType p param.cmdType
        callback := Function.update (registeredOf params).callback p param.callback
        capabilities := Function.update (registeredOf params).capabilities p (capabilitiesOf param)
        children := Function.update (registeredOf params).children p (childrenOf param)
        parent := Function.update (registeredOf params).parent p param.parent } := by
  apply Registration.ext
  · exact Function.comp_update ParamT.cmdType params p param
  · exact Function.comp_update ParamT.callback params p param
  · exact Function.comp_update capabilitiesOf params p param
  · exact Function.comp_update childrenOf params p param
  · exact Function.comp_update ParamT.parent params p param

/-- Neither the code of a command nor a display callback is a matter of the lists. -/
theorem registeredOf_modify_same {f : ParamT (LibParam ⊕ κ) → ParamT (LibParam ⊕ κ)}
    (cmdType : (f (params p)).cmdType = (params p).cmdType)
    (callback : (f (params p)).callback = (params p).callback)
    (options : (f (params p)).options = (params p).options) (parent : (f (params p)).parent = (params p).parent) :
    registeredOf (params.modify p f) = registeredOf params := by
  have capabilities : capabilitiesOf (f (params p)) = capabilitiesOf (params p) := by
    rw [capabilitiesOf, capabilitiesOf, options]
  have children : childrenOf (f (params p)) = childrenOf (params p) := by
    rw [childrenOf, childrenOf, options]
  rw [Params.modify, registeredOf_update, cmdType, callback, capabilities, children, parent]
  apply Registration.ext <;> exact Function.update_eq_self p _

/-- A param is given a parent. -/
theorem registeredOf_modify_parent (params : Params κ) (p parent : LibParam ⊕ κ) :
    registeredOf (params.modify p fun param => { param with parent := some parent }) =
      { registeredOf params with parent := Function.update (registeredOf params).parent p (some parent) } := by
  rw [Params.modify, registeredOf_update]
  apply Registration.ext
  · exact Function.update_eq_self p _
  · exact Function.update_eq_self p _
  · exact Function.update_eq_self p _
  · exact Function.update_eq_self p _
  · rfl

/-- The pointers of a param are laid out anew. -/
theorem registeredOf_modify_options {f : ParamT (LibParam ⊕ κ) → ParamT (LibParam ⊕ κ)}
    {capabilities children : List (LibParam ⊕ κ)}
    (laidOut : (f (params p)).options = laid capabilities children)
    (few : capabilities.length ≤ 3) (fits : children.length ≤ maxChildren)
    (cmdType : (f (params p)).cmdType = (params p).cmdType)
    (callback : (f (params p)).callback = (params p).callback)
    (parent : (f (params p)).parent = (params p).parent) :
    registeredOf (params.modify p f) =
      { registeredOf params with
        capabilities := Function.update (registeredOf params).capabilities p capabilities
        children := Function.update (registeredOf params).children p children } := by
  rw [Params.modify, registeredOf_update, capabilitiesOf_laid laidOut few, childrenOf_laid laidOut fits,
    cmdType, callback, parent]
  apply Registration.ext
  · exact Function.update_eq_self p _
  · exact Function.update_eq_self p _
  · rfl
  · rfl
  · exact Function.update_eq_self p _

omit [DecidableEq κ] in
/-- Whether a param is packed is a matter of its pointers. -/
theorem WellPacked.of_options {param param' : ParamT (LibParam ⊕ κ)} (packed : WellPacked param)
    (options : param'.options = param.options) : WellPacked param' := by
  have capabilities : capabilitiesOf param' =
      capabilitiesOf param := by rw [capabilitiesOf, capabilitiesOf, options]
  have children : childrenOf param' = childrenOf param := by rw [childrenOf, childrenOf, options]
  constructor
  · rw [Packed, options, capabilities, children]
    exact packed.packed
  · rw [capabilities]
    exact packed.whole

omit [DecidableEq κ] in
/-- Pointers that are laid out are packed. -/
theorem wellPacked_laid {param : ParamT (LibParam ⊕ κ)} {capabilities children : List (LibParam ⊕ κ)}
    (options : param.options = laid capabilities children) (whole : capabilities = [] ∨ capabilities.length = 3)
    (fits : children.length ≤ maxChildren) : WellPacked param := by
  have few : capabilities.length ≤ 3 := by
    rcases whole with rfl | three
    · apply Nat.zero_le
    · rw [three]
  constructor
  · exact packed_of_laid options few fits
  · rw [capabilitiesOf_laid options few]
    exact whole

/-- All params stay packed if the new one is. -/
theorem wellPacked_update {param : ParamT (LibParam ⊕ κ)} (packed : ∀ q, WellPacked (params q))
    (new : WellPacked param)
    (q : LibParam ⊕ κ) : WellPacked (Function.update params p param q) := by
  by_cases same : q = p
  · subst same
    rw [Function.update_self]
    exact new
  · rw [Function.update_of_ne same]
    exact packed q

theorem wellPacked_modify {f : ParamT (LibParam ⊕ κ) → ParamT (LibParam ⊕ κ)}
    (packed : ∀ q, WellPacked (params q))
    (new : WellPacked (f (params p))) (q : LibParam ⊕ κ) : WellPacked (params.modify p f q) :=
  wellPacked_update packed new q

omit [DecidableEq κ] in
theorem blank_options : (fun _ => none : Fin maxOptionSize → Option (LibParam ⊕ κ)) = laid [] [] := by
  apply places_ext
  · rfl
  · rfl
  · rfl
  · intro i late
    rw [laid_child late]
    rfl

omit [DecidableEq κ] in
/-- Capabilities that are enabled are three. -/
theorem enabledCapabilities_whole {capabilities : List (LibParam ⊕ κ)}
    (whole : capabilities = [] ∨ capabilities.length = 3) :
    (enabledCapabilities capabilities).length = 3 := by
  rw [enabledCapabilities]
  split
  · rfl
  · next other => exact whole.resolve_left other

/-- `libcli_register_param` on packed pointers: the child is laid behind the others, if there is
room. -/
theorem libcliRegisterParam_eq (packed : WellPacked (params parent)) :
    params.libcliRegisterParam (some parent) child =
      if (childrenOf (params parent)).length < maxChildren then
        .ok ((params.modify parent fun param => { param with
          options := laid (enabledCapabilities (capabilitiesOf param)) (childrenOf param ++ [child]) }).modify
          child
            fun param => { param with parent := some parent })
      else .error (.cli .assertion) := by
  unfold Params.libcliRegisterParam
  dsimp only [Option.getD_some]
  rw [packed.packed, enableCapabilities_laid packed.whole]
  by_cases few : (childrenOf (params parent)).length < maxChildren
  · rw [freeIndex_laid few, if_pos few]
    dsimp only
    rw [laid_append few]
    rfl
  · rw [freeIndex_laid_full (le_antisymm (length_childrenOf_le _) (not_lt.mp few)), if_neg few]

/-- What it leaves, as the application sees it. -/
theorem registeredOf_append (packed : WellPacked (params parent))
    (few : (childrenOf (params parent)).length < maxChildren) :
    registeredOf ((params.modify parent fun param => { param with
      options := laid (enabledCapabilities (capabilitiesOf param)) (childrenOf param ++ [child]) }).modify child
        fun param => { param with parent := some parent }) = (registeredOf params).append parent child := by
  have whole := enabledCapabilities_whole packed.whole
  have fits : (childrenOf (params parent) ++ [child]).length ≤ maxChildren := by
    rw [List.length_append]
    exact few
  rw [registeredOf_modify_parent, registeredOf_modify_options (p := parent) rfl whole.le fits rfl rfl rfl]
  rfl

/-- It leaves the params packed. -/
theorem wellPacked_append (packed : ∀ q, WellPacked (params q))
    (few : (childrenOf (params parent)).length < maxChildren) (q : LibParam ⊕ κ) :
    WellPacked ((params.modify parent fun param => { param with
      options := laid (enabledCapabilities (capabilitiesOf param)) (childrenOf param ++ [child]) }).modify child
        (fun param => { param with parent := some parent }) q) := by
  have fits : (childrenOf (params parent) ++ [child]).length ≤ maxChildren := by
    rw [List.length_append]
    exact few
  have whole := enabledCapabilities_whole (packed parent).whole
  have first := wellPacked_modify packed (p := parent) (f := fun param => { param with
    options := laid (enabledCapabilities (capabilitiesOf param)) (childrenOf param ++ [child]) })
    (wellPacked_laid rfl (.inr whole) fits)
  apply wellPacked_modify first
  exact (first child).of_options rfl

theorem initParam_modify (params : Params κ) (p : LibParam ⊕ κ) (paramType : ParamType)
    (callback : Option Callback) (f : ParamT (LibParam ⊕ κ) → ParamT (LibParam ⊕ κ)) :
    (params.initParam p paramType callback).modify p f =
      Function.update params p (f { cmdType := some paramType.cmdType, callback, cmdCode := -1 }) := by
  rw [Params.modify, Params.initParam, Function.update_idem, Function.update_self]

/-- `support_cmd_negation` on packed pointers: the negation is laid behind the children it has. -/
theorem installNegation_eq (packed : WellPacked (params p)) :
    params.installNegation p noParam =
      if few : (childrenOf (params p)).length < maxChildren then
        .ok (Params.modify (Function.update params noParam (negationParam (params p) p)) p fun param =>
          { param with
          options := Function.update param.options (behind (childrenOf (params p)) few) (some noParam) })
      else .error (.cli .assertion) := by
  unfold Params.installNegation
  by_cases few : (childrenOf (params p)).length < maxChildren
  · rw [packed.packed, freeIndex_laid few, dif_pos few]
    dsimp only
    rw [negationOptions_laid few, initParam_modify]
    rfl
  · rw [packed.packed, freeIndex_laid_full (le_antisymm (length_childrenOf_le _) (not_lt.mp few)), dif_neg few]

omit [DecidableEq κ] in
theorem wellPacked_negationParam (param : ParamT (LibParam ⊕ κ)) (p : LibParam ⊕ κ) :
    WellPacked (negationParam param p) :=
  wellPacked_laid rfl (.inr rfl) (length_childrenOf_le param)

/-- What it leaves if it succeeds. -/
theorem installNegation_ok (packed : ∀ q, WellPacked (params q)) (other : p ≠ noParam)
    (ran : params.installNegation p noParam = .ok params') :
    (childrenOf (params p)).length < maxChildren ∧ registeredOf params' =
      (registeredOf params).negate p noParam ∧ ∀ q, WellPacked (params' q) := by
  rw [installNegation_eq (packed p)] at ran
  split at ran
  · next few =>
    cases ran
    have fits : (childrenOf (params p) ++ [noParam]).length ≤ maxChildren := by
      rw [List.length_append]
      exact few
    have capabilities : (capabilitiesOf (params p)).length ≤ 3 := by
      rcases (packed p).whole with none | three
      · rw [none]
        apply Nat.zero_le
      · exact three.le
    have laidOut : Function.update (Function.update params noParam (negationParam (params p) p) p).options
        (behind (childrenOf (params p)) few) (some noParam) =
          laid (capabilitiesOf (params p)) (childrenOf (params p) ++ [noParam]) := by
      rw [Function.update_of_ne other, (packed p).packed]
      exact laid_append few noParam
    refine ⟨few, ?_, ?_⟩
    · rw [registeredOf_modify_options laidOut capabilities fits rfl rfl rfl, registeredOf_update,
        capabilitiesOf_negationParam, childrenOf_negationParam]
      apply Registration.ext
      · rfl
      · rfl
      · have kept : Function.update (registeredOf params).capabilities noParam negationCapabilities p =
            capabilitiesOf (params p) :=
          Function.update_of_ne other _ _
        rw [← kept]
        exact Function.update_eq_self p _
      · rfl
      · rfl
    · apply wellPacked_modify
      · exact wellPacked_update packed (wellPacked_negationParam (params p) p)
      · exact wellPacked_laid laidOut (packed p).whole fits
  · cases ran

/-- A param whose hook is found has been registered. -/
theorem branchHook_attached {hook : LibParam ⊕ κ} (found : params.branchHook steps p = .ok hook) :
    (params p).parent ≠ none := by
  cases steps with
  | zero => cases found
  | succ steps =>
    intro top
    rw [Params.branchHook, top] at found
    cases found

/-- A call that succeeds does to the lists what its definition says, and keeps the params packed. -/
theorem run_registers {call : RegistrationCall κ} (packed : ∀ q, WellPacked (params q))
    (fresh : ∀ p noParam choice, call = .supportCmdNegation p noParam choice → p ≠ noParam)
    (ran : call.run steps params = .ok params') :
    Registers (registeredOf params) call (registeredOf params') ∧ ∀ q, WellPacked (params' q) := by
  cases call with
  | initParam p paramType callback =>
    cases ran
    have blank : WellPacked
        (κ := κ) { cmdType := some paramType.cmdType, callback := callback, cmdCode := -1 } :=
      wellPacked_laid blank_options (.inl rfl) (Nat.zero_le _)
    refine ⟨?_, wellPacked_update packed blank⟩
    rw [Params.initParam, registeredOf_update]
    exact .initParam _ p paramType callback
  | setParamCmdCode p cmdCode =>
    rw [RegistrationCall.run, Params.setParamCmdCode] at ran
    split at ran
    · cases ran
    · cases ran
      refine ⟨?_, wellPacked_modify packed ((packed p).of_options rfl)⟩
      rw [registeredOf_modify_same rfl rfl rfl rfl]
      exact .setParamCmdCode _ p cmdCode
  | libcliRegisterDisplayCallback p dispCallback =>
    rw [RegistrationCall.run, Params.libcliRegisterDisplayCallback] at ran
    split at ran
    · cases ran
    · cases ran
      refine ⟨?_, wellPacked_modify packed ((packed p).of_options rfl)⟩
      rw [registeredOf_modify_same rfl rfl rfl rfl]
      exact .libcliRegisterDisplayCallback _ p dispCallback
  | libcliRegisterParam parent child =>
    have same : RegistrationCall.run steps params (.libcliRegisterParam parent child) =
        params.libcliRegisterParam (some (parent.getD (.inl root))) child := by
      cases parent <;> rfl
    rw [same, libcliRegisterParam_eq (packed _)] at ran
    split at ran
    · next few =>
      cases ran
      refine ⟨?_, wellPacked_append packed few⟩
      rw [registeredOf_append (packed _) few]
      exact .libcliRegisterParam child few
    · cases ran
  | enableShowExtensionParamBrief p =>
    rw [RegistrationCall.run, Params.enableShowExtensionParamBrief, libcliRegisterParam_eq (packed p)] at ran
    split at ran
    · cases ran
    · split at ran
      · next few =>
        cases ran
        refine ⟨?_, wellPacked_append packed few⟩
        rw [registeredOf_append (packed p) few]
        exact .enableShowExtensionParamBrief few
      · cases ran
  | supportCmdNegation p noParam choice =>
    have other := fresh p noParam choice rfl
    have installed (below : p ≠ .inl root) (attached : (params p).parent ≠ none)
        (ran : params.installNegation p noParam = .ok params') :
        Registers (registeredOf params) (.supportCmdNegation p noParam choice) (registeredOf params') ∧
          ∀ q, WellPacked (params' q) := by
      obtain ⟨few, same, packed'⟩ := installNegation_ok packed other ran
      rw [same]
      exact ⟨.supportCmdNegation noParam choice below attached few, packed'⟩
    rw [RegistrationCall.run, Params.supportCmdNegation, Params.getCurrentBranchHook] at ran
    by_cases top : p = .inl root
    · rw [if_pos top] at ran
      cases ran
    · rw [if_neg top] at ran
      split at ran
      · cases ran
      · next found =>
        have attached := branchHook_attached found
        split at ran
        · cases ran
        · split at ran
          · cases ran
          · exact installed top attached ran
          · split at ran
            · cases ran
              exact ⟨.refused _ p noParam choice, packed⟩
            · exact installed top attached ran

end TcpServerLib.Refinement
