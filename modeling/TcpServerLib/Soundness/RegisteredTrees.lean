import TcpServerLib.Soundness.DoExcursions
import TcpServerLib.Soundness.RegistrationPrograms

/-! # What is registered is a command tree

The params in memory are a command tree whenever they are a registry: what holds of the parser for every command
tree holds for the commands of every application.
-/

namespace TcpServerLib.Soundness

open Machine Model Refinement LibParam

section

variable {κ : Type*} {params : Params κ} {p c : LibParam ⊕ κ}

/-- A param, as the parser reads it. -/
def readParam (param : ParamT (LibParam ⊕ κ)) : Param (LibParam ⊕ κ) where
  cmdType := param.cmdType.getD (.cmd (heldName []))
  callback := param.callback
  dispCallback := param.dispCallback
  options := param.optionArray.entries
  parent := param.parent
  cmdCode := param.cmdCode

theorem entries_eq {param : ParamT (LibParam ⊕ κ)} (packed : WellPacked param) :
    param.optionArray.entries = if capabilitiesOf param = [] then [] else capabilitiesOf param ++
      childrenOf param := by
  split
  · next none =>
    apply entries_laid_nil
    rw [packed.packed, none]
  · next some => exact entries_laid packed.packed (length_childrenOf_le param) (packed.whole.resolve_left some)

/-- What the parser sees among the options of a param. -/
theorem mem_entries {param : ParamT (LibParam ⊕ κ)} (packed : WellPacked param)
    (listed : c ∈ param.optionArray.entries) :
    c ∈ capabilitiesOf param ∨ c ∈ childrenOf param := by
  rw [entries_eq packed] at listed
  split at listed
  · cases listed
  · exact List.mem_append.mp listed

namespace Registry

theorem capability_control (registry : Registry (registeredOf params))
    (capability : c ∈ capabilitiesOf (params p)) :
    c ∈ [.inl modeParam, .inl suboptionsParam, .inl cmdExpansionParam] := by
  by_cases negative : (params p).cmdType = some .noCmd ∨ p = .inl doHook
  · have same : capabilitiesOf (params p) = negationCapabilities := registry.incapable p negative
    rw [same] at capability
    rcases List.mem_cons.mp capability with rfl | other
    · simp
    · exact List.mem_cons_of_mem _ other
  · rw [not_or] at negative
    have either : capabilitiesOf (params p) = [] ∨ capabilitiesOf (params p) = parentCapabilities :=
      registry.capable p negative.1 negative.2
    rcases either with none | same
    · rw [none] at capability
      cases capability
    · rw [same] at capability
      exact capability

theorem read_library (registry : Registry (registeredOf params)) (q : LibParam) :
    (readParam (params (.inl q))).cmdType = (LibParam.param q).cmdType := by
  have typed : (params (.inl q)).cmdType = some (LibParam.param q).cmdType := registry.typed q
  rw [readParam, typed]
  rfl

theorem read_noCmd (negation : (readParam (params p)).cmdType = .noCmd) : (params p).cmdType = some .noCmd := by
  cases typed : (params p).cmdType with
  | none =>
    rw [readParam, typed] at negation
    cases negation
  | some cmdType =>
    rw [readParam, typed] at negation
    exact congrArg some negation

theorem callback_of_hasChildren (q : LibParam) (may : hasChildren q) (other : q ≠ repeatHook) :
    (LibParam.param q).callback ∈ [none, some .application, some .configModeEnterHandler,
      some .showHistoryCallback] := by
  rcases may with parental | inside
  · exact initLibcli.modeless parental other
  · revert inside other
    cases q <;> decide

theorem read_apart :
    [root, doHook, showHook, debugHook, configHook, clearHook, repeatHook, showBriefExtension, modeParam,
    suboptionsParam, cmdExpansionParam].map (Sum.inl (β := κ)) |>.Nodup :=
  initLibcli.apart.map Sum.inl_injective

theorem read_top (registry : Registry (registeredOf params)) {q : LibParam} (top : q ∈ [root, doHook]) :
    (readParam (params (.inl q))).parent = none := by
  have placed : (params (.inl q)).parent = (LibParam.param q).parent.map .inl := by
    apply registry.placed
    rintro rfl
    exact absurd top (by decide)
  have orphan : (LibParam.param q).parent = none := by
    rcases List.mem_pair.mp top with rfl | rfl <;> rfl
  rw [readParam, placed, orphan]
  rfl

theorem read_root (registry : Registry (registeredOf params)) : (readParam (params (.inl root))).parent = none :=
  registry.read_top List.mem_cons_self

theorem read_doHook (registry : Registry (registeredOf params)) :
    (readParam (params (.inl doHook))).parent = none :=
  registry.read_top (List.mem_cons_of_mem _ List.mem_cons_self)

theorem read_forest (registry : Registry (registeredOf params)) : IsForest fun p =>
    (readParam (params p)).parent :=
  registry.forest

noncomputable def depth (registry : Registry (registeredOf params)) : LibParam ⊕ κ → ℕ :=
  registry.read_forest.choose

theorem read_descends (registry : Registry (registeredOf params))
    (child : (readParam (params p)).parent = some c) :
    registry.depth p = registry.depth c + 1 :=
  registry.read_forest.choose_spec child

theorem read_hooks (registry : Registry (registeredOf params)) :
    ∀ p ∈ [Sum.inl showHook, .inl debugHook, .inl configHook,
    .inl clearHook, .inl repeatHook], (readParam (params p)).parent = some (.inl root) := by
  intro p member
  have listed : p ∈ [showHook, debugHook, configHook, clearHook, repeatHook].map .inl := member
  obtain ⟨q, hook, rfl⟩ := List.mem_map.mp listed
  have other : q ≠ showBriefExtension := by
    rintro rfl
    exact absurd hook (by decide)
  have placed : (params (.inl q)).parent = (LibParam.param q).parent.map .inl := registry.placed q other
  exact placed.trans (congrArg (Option.map Sum.inl) (initLibcli.hooks q hook))

theorem read_inner (registry : Registry (registeredOf params)) (packed : ∀ q, WellPacked (params q))
    (listed : c ∈ (readParam (params p)).options) :
    c ∈ [.inl showBriefExtension, .inl modeParam, .inl suboptionsParam, .inl cmdExpansionParam] ∨
      (readParam (params c)).parent = some p ∨
        (readParam (params p)).cmdType = .noCmd ∧ (readParam (params c)).parent =
          (readParam (params p)).parent ∨
          p = .inl doHook ∧ c ∈ [.inl showHook, .inl debugHook, .inl clearHook] := by
  rcases mem_entries (packed p) listed with capability | child
  · left
    exact List.mem_cons_of_mem _ (registry.capability_control capability)
  · obtain ⟨_, brief | own | ⟨negation, same⟩ | shared⟩ := registry.inner p c child
    · left
      rw [brief]
      exact List.mem_cons_self
    · exact .inr (.inl own)
    · right
      right
      left
      have typed : (params p).cmdType = some .noCmd := negation
      refine ⟨?_, same⟩
      rw [readParam, typed]
      rfl
    · exact .inr (.inr (.inr shared))

theorem read_negates (registry : Registry (registeredOf params))
    (negation : (readParam (params p)).cmdType = .noCmd) :
    ∃ q, (readParam (params p)).parent = some q ∧ q ≠ .inl root :=
  registry.negates p (read_noCmd negation)

theorem read_barren (registry : Registry (registeredOf params)) (packed : ∀ q, WellPacked (params q)) :
    ∀ p ∈ [Sum.inl showBriefExtension, .inl modeParam, .inl suboptionsParam, .inl cmdExpansionParam],
      (readParam (params p)).options = [] := by
  intro p member
  have listed : p ∈ [showBriefExtension, modeParam, suboptionsParam, cmdExpansionParam].map .inl := member
  obtain ⟨q, control, rfl⟩ := List.mem_map.mp listed
  have childless : ¬ hasChildren q := by
    have barren : (LibParam.param q).options = [] := initLibcli.barren q control
    rintro (parental | inside)
    · exact parental barren
    · revert inside
      revert control
      cases q <;> decide
  have none : capabilitiesOf (params (.inl q)) = [] := (registry.bare q childless).1
  change (params (.inl q)).optionArray.entries = []
  rw [entries_eq (packed _), if_pos none]

theorem read_named (registry : Registry (registeredOf params)) :
    ∀ p ∈ [Sum.inl root, .inl doHook, .inl showHook,
    .inl debugHook, .inl configHook, .inl clearHook, .inl repeatHook, .inl showBriefExtension, .inl modeParam,
    .inl suboptionsParam, .inl cmdExpansionParam], ∃ name, (readParam (params p)).cmdType = .cmd name := by
  intro p member
  have listed : p ∈ [root, doHook, showHook, debugHook, configHook, clearHook, repeatHook,
      showBriefExtension, modeParam,
    suboptionsParam, cmdExpansionParam].map .inl := member
  obtain ⟨q, own, rfl⟩ := List.mem_map.mp listed
  obtain ⟨name, command⟩ := initLibcli.named q own
  exact ⟨name, (registry.read_library q).trans command⟩

theorem read_capabilities (registry : Registry (registeredOf params)) (packed : ∀ q, WellPacked (params q))
    (parent : (readParam (params p)).options ≠ []) (ordinary : (readParam (params p)).cmdType ≠ .noCmd)
    (other : p ≠ .inl doHook) :
    ∃ children, (readParam (params p)).options =
      [.inl modeParam, .inl suboptionsParam, .inl cmdExpansionParam] ++ children := by
  have notNegation : (params p).cmdType ≠ some .noCmd := by
    intro typed
    apply ordinary
    rw [readParam, typed]
    rfl
  have enabled : capabilitiesOf (params p) ≠ [] := by
    intro none
    apply parent
    exact (entries_eq (packed p)).trans (if_pos none)
  have same : capabilitiesOf (params p) = parentCapabilities :=
    (registry.capable p notNegation other).resolve_left enabled
  refine ⟨childrenOf (params p), ?_⟩
  change (params p).optionArray.entries = _
  rw [entries_eq (packed p), if_neg enabled, same]
  rfl

theorem read_mode (registry : Registry (registeredOf params)) :
    (readParam (params (.inl modeParam))).cmdType.cmdName = some (ascii ['/']) :=
  congrArg CmdType.cmdName (registry.read_library modeParam)

theorem read_repeat (registry : Registry (registeredOf params)) :
    (readParam (params (.inl repeatHook))).cmdType.cmdName = some (ascii ['r', 'e', 'p', 'e', 'a', 't']) :=
  congrArg CmdType.cmdName (registry.read_library repeatHook)

theorem read_handler (registry : Registry (registeredOf params)) :
    (readParam (params (.inl modeParam))).callback.isSome = true := by
  have handled : (params (.inl modeParam)).callback = some .application := registry.handled modeParam
  change (params (.inl modeParam)).callback.isSome = true
  rw [handled]
  rfl

theorem read_config (registry : Registry (registeredOf params)) (p : LibParam ⊕ κ) :
    (readParam (params p)).callback = some .configModeEnterHandler ↔ p = .inl configHook := by
  cases p with
  | inl q =>
    have handled : (params (.inl q)).callback = (LibParam.param q).callback := registry.handled q
    change (params (.inl q)).callback = _ ↔ _
    rw [handled]
    exact (initLibcli.config_handler q).trans Sum.inl_injective.eq_iff.symm
  | inr k =>
    have own : (params (.inr k)).callback ∈ [none, some .application] := registry.own k
    constructor
    · intro handler
      rw [show (params (.inr k)).callback = _ from handler] at own
      exact absurd own (by decide)
    · intro hook
      cases hook

theorem read_modeless (registry : Registry (registeredOf params)) (packed : ∀ q, WellPacked (params q))
    (parent : (readParam (params p)).options ≠ []) (other : p ≠ .inl repeatHook) :
    (readParam (params p)).callback ∈
      [none, some .application, some .configModeEnterHandler, some .showHistoryCallback] := by
  cases p with
  | inl q =>
    have may : hasChildren q := by
      by_contra childless
      apply parent
      exact (entries_eq (packed _)).trans (if_pos (registry.bare q childless).1)
    have handled : (params (.inl q)).callback = (LibParam.param q).callback := registry.handled q
    change (params (.inl q)).callback ∈ _
    rw [handled]
    exact callback_of_hasChildren q may fun hook => other (congrArg _ hook)
  | inr k => exact List.mem_append_left [some .configModeEnterHandler, some .showHistoryCallback] (registry.own k)

/-- The tree of the params in memory. -/
noncomputable def tree (registry : Registry (registeredOf params)) (packed : ∀ q, WellPacked (params q)) :
    CommandTree (LibParam ⊕ κ) where
  param p := readParam (params p)
  root := .inl root
  doHook := .inl doHook
  showHook := .inl showHook
  debugHook := .inl debugHook
  configHook := .inl configHook
  clearHook := .inl clearHook
  repeatHook := .inl repeatHook
  showBriefExtension := .inl showBriefExtension
  modeParam := .inl modeParam
  suboptionsParam := .inl suboptionsParam
  cmdExpansionParam := .inl cmdExpansionParam
  depth := registry.depth
  apart := read_apart
  root_top := registry.read_root
  doHook_top := registry.read_doHook
  hooks := registry.read_hooks
  descends := registry.read_descends
  inner := registry.read_inner packed
  negates := registry.read_negates
  barren := registry.read_barren packed
  named := registry.read_named
  capabilities := registry.read_capabilities packed
  mode_name := registry.read_mode
  mode_handler := registry.read_handler
  repeat_name := registry.read_repeat
  config_handler := registry.read_config
  modeless := registry.read_modeless packed

/-- A negation param offers no mode, and nothing has it for a parent. -/
theorem negationsApart (registry : Registry (registeredOf params)) (packed : ∀ q, WellPacked (params q)) :
    NegationsApart (registry.tree packed) := by
  have read {p : LibParam ⊕ κ} (negation : (registry.tree packed).isNegation p = true) :
      (params p).cmdType = some .noCmd := by
    rw [CommandTree.isNegation] at negation
    split at negation
    · next noCmd => exact read_noCmd noCmd
    · cases negation
  constructor
  case modeless =>
    intro p negation offered
    have noCmd : (params p).cmdType = some .noCmd := read negation
    have offered : .inl modeParam ∈ (params p).optionArray.entries := offered
    rcases mem_entries (packed p) offered with capability | child
    · have same : capabilitiesOf (params p) = negationCapabilities := registry.incapable p (.inl noCmd)
      rw [same] at capability
      simp [negationCapabilities] at capability
    · have placed : (params (.inl modeParam)).parent = none := registry.placed modeParam (by decide)
      obtain ⟨_, brief | own | ⟨_, same⟩ | ⟨hook, _⟩⟩ := registry.inner p (.inl modeParam) child
      · cases brief
      · cases placed.symm.trans own
      · exact registry.parent_ne_negation noCmd (same.symm.trans placed)
      · subst hook
        exact LibParam.notNegation doHook (Option.some.inj ((registry.typed doHook).symm.trans noCmd))
  case childless =>
    intro p c child
    rw [← Bool.not_eq_true]
    intro negation
    exact (registry.above c p child).2.1 (read negation)

end Registry

variable [DecidableEq κ] {calls : List (RegistrationCall κ)} {steps : ℕ}

/-- The command tree that a program of legal calls leaves in memory: for it holds what holds of the
parser for every tree. -/
theorem registered_commandTree (run : LegalRun steps libcliParams calls params) :
    ∃ tree : CommandTree (LibParam ⊕ κ), tree.param = (fun p => readParam (params p)) ∧
      [tree.root, tree.doHook, tree.showHook, tree.debugHook, tree.configHook, tree.clearHook, tree.repeatHook,
        tree.showBriefExtension, tree.modeParam, tree.suboptionsParam, tree.cmdExpansionParam] =
      [root, doHook, showHook, debugHook, configHook, clearHook, repeatHook, showBriefExtension,
        modeParam, suboptionsParam, cmdExpansionParam].map .inl ∧ NegationsApart tree := by
  obtain ⟨registry, packed⟩ := soundParams_run run soundParams_libcli
  exact ⟨registry.tree packed, rfl, rfl, registry.negationsApart packed⟩

end

/-- It registers `config vlan`, a negation of what is there so far, `config mtu`, and a negation
under `vlan`, which has no command under it. -/
def vlanProgram : List (RegistrationCall ℕ) :=
  [.initParam (.inr 0) (.cmd (ascii ['v', 'l', 'a', 'n'])) (some .application),
    .libcliRegisterParam (some (.inl configHook)) (.inr 0),
    .supportCmdNegation (.inl configHook) (.inr 1) 0,
    .initParam (.inr 2) (.cmd (ascii ['m', 't', 'u'])) (some .application),
    .libcliRegisterParam (some (.inl configHook)) (.inr 2),
    .supportCmdNegation (.inr 0) (.inr 3) 0]

/-- The params after the last call. -/
def vlanParams : Params ℕ := (register 2 libcliParams vlanProgram).toOption.getD zeroParams

theorem vlan_run : LegalRun 2 libcliParams vlanProgram vlanParams := legalRun_of_orderly rfl rfl

theorem vlan_commandTree : ∃ tree : CommandTree (LibParam ⊕ ℕ), tree.param =
    (fun p => readParam (vlanParams p)) ∧
      [tree.root, tree.doHook, tree.showHook, tree.debugHook, tree.configHook, tree.clearHook, tree.repeatHook,
        tree.showBriefExtension, tree.modeParam, tree.suboptionsParam, tree.cmdExpansionParam] =
      [root, doHook, showHook, debugHook, configHook, clearHook, repeatHook, showBriefExtension,
        modeParam, suboptionsParam, cmdExpansionParam].map .inl ∧ NegationsApart tree :=
  registered_commandTree vlan_run

end TcpServerLib.Soundness
