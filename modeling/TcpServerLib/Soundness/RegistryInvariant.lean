import TcpServerLib.Machine.ParentForest
import TcpServerLib.Machine.Path
import TcpServerLib.Refinement.InitLibcli

/-! # The invariant of registration

An application initialises its params, and registers each of them once, below a param it has and not below
itself. What it leaves in memory after any number of such calls is a registry.
-/

namespace TcpServerLib.Soundness

open Machine Model Refinement LibParam

variable {κ : Type*}

/-- The params of the library that an application can register others under. -/
def accessible : List LibParam :=
  [root, doHook, showHook, debugHook, debugShow, configHook, clearHook, runHook, repeatHook]

/-- The params of the library that may have children. -/
def hasChildren (q : LibParam) : Prop :=
  (LibParam.param q).options ≠ [] ∨ q ∈ accessible

/-- A param that an application has a pointer to, and that may be a parent. -/
def IsParent (registered : Registration κ) : LibParam ⊕ κ → Prop
  | .inl q => q ∈ accessible
  | .inr k => registered.cmdType (.inr k) ≠ none ∧ registered.cmdType (.inr k) ≠ some .noCmd

/-- The calls a program may make. It initialises params of its own, once each, as commands or
leaves, with a handler of its own or none; it registers such a param once, under a hook or a param
of its own, and not below itself. What `calloc` returns is not in use. -/
def Legal (registered : Registration κ) : RegistrationCall κ → Prop
  | .initParam p paramType callback =>
    registered.cmdType p = none ∧ paramType.cmdType ≠ .noCmd ∧ callback ∈ [none, some .application]
  | .setParamCmdCode .. | .libcliRegisterDisplayCallback .. => True
  | .libcliRegisterParam parent child =>
    IsParent registered (parent.getD (.inl root)) ∧ (∃ k, child = .inr k) ∧
      registered.cmdType child ≠ none ∧
      registered.parent child = none ∧ ¬ Climbs registered.parent (parent.getD (.inl root)) child
  | .enableShowExtensionParamBrief p => IsParent registered p
  | .supportCmdNegation p noParam _ => IsParent registered p ∧ registered.cmdType noParam = none

/-- What is registered under a param. -/
def Belongs (registered : Registration κ) (p c : LibParam ⊕ κ) : Prop :=
  c = .inl showBriefExtension ∨ registered.parent c = some p ∨
    registered.cmdType p = some .noCmd ∧ registered.parent c = registered.parent p ∨
      p = .inl doHook ∧ c ∈ [.inl showHook, .inl debugHook, .inl clearHook]

structure Registry (registered : Registration κ) : Prop where
  typed : ∀ q, registered.cmdType (.inl q) = some (LibParam.param q).cmdType
  handled : ∀ q, registered.callback (.inl q) = (LibParam.param q).callback
  placed : ∀ q, q ≠ showBriefExtension → registered.parent (.inl q) = (LibParam.param q).parent.map .inl
  own : ∀ k, registered.callback (.inr k) ∈ [none, some .application]
  blank : ∀ p, registered.cmdType p = none →
    registered.capabilities p = [] ∧ registered.children p = [] ∧ registered.parent p = none
  above : ∀ p q, registered.parent p = some q →
    registered.cmdType q ≠ none ∧ registered.cmdType q ≠ some .noCmd ∧ ∀ r, q = .inl r → hasChildren r
  inner : ∀ p c, c ∈ registered.children p → registered.cmdType c ≠ none ∧ Belongs registered p c
  bare : ∀ q, ¬ hasChildren q → registered.capabilities (.inl q) = [] ∧ registered.children (.inl q) = []
  capable : ∀ p, registered.cmdType p ≠ some .noCmd → p ≠ .inl doHook →
    registered.capabilities p = [] ∨ registered.capabilities p = parentCapabilities
  incapable : ∀ p, registered.cmdType p = some .noCmd ∨ p = .inl doHook → registered.capabilities p =
    negationCapabilities
  used : ∀ p, registered.cmdType p ≠ some .noCmd → registered.capabilities p ≠ [] →
    ∃ c ∈ registered.children p, registered.cmdType c ≠ some .noCmd
  enabled : ∀ p c, c ∈ registered.children p → registered.cmdType c ≠ some .noCmd →
    registered.capabilities p ≠ []
  negates : ∀ p, registered.cmdType p = some .noCmd → ∃ q, registered.parent p = some q ∧ q ≠ .inl root
  /-- A negation param has the children that stand before it. -/
  shared : ∀ p q, registered.cmdType p = some .noCmd → registered.parent p = some q →
    ∃ later, registered.children q = registered.children p ++ p :: later
  forest : IsForest registered.parent

namespace Registry

variable [DecidableEq κ] {registered registered' : Registration κ}
  {p q c parent child noParam : LibParam ⊕ κ}

omit [DecidableEq κ] in
theorem own_of_blank (registry : Registry registered) (blank : registered.cmdType p = none) :
    ∃ k, p = .inr k := by
  cases p with
  | inl q =>
    rw [registry.typed q] at blank
    cases blank
  | inr k => exact ⟨k, rfl⟩

omit [DecidableEq κ] in
theorem parent_typed (registry : Registry registered) (isParent : IsParent registered p) :
    registered.cmdType p ≠ none ∧ registered.cmdType p ≠ some .noCmd ∧ ∀ r, p = .inl r →
    hasChildren r := by
  cases p with
  | inl q =>
    refine ⟨?_, ?_, ?_⟩
    · rw [registry.typed q]
      exact Option.some_ne_none _
    · rw [registry.typed q]
      exact fun same => LibParam.notNegation q (Option.some.inj same)
    · rintro r same
      cases same
      exact .inr isParent
  | inr k =>
    refine ⟨isParent.1, isParent.2, ?_⟩
    intro r same
    cases same

theorem init_eq (registry : Registry registered) (blank : registered.cmdType p = none) (cmdType : CmdType)
    (callback : Option Callback) :
    registered.init p cmdType callback =
      { registered with
        cmdType := Function.update registered.cmdType p (some cmdType)
        callback := Function.update registered.callback p callback } := by
  obtain ⟨capabilities, children, parent⟩ := registry.blank p blank
  rw [Registration.init, ← capabilities, Function.update_eq_self, capabilities, ← children,
    Function.update_eq_self, ← parent, Function.update_eq_self]

/-- A param that has just been initialised is no parent. -/
theorem childless_init (registry : Registry registered) (blank : registered.cmdType p = none) {cmdType : CmdType}
    {callback : Option Callback} (q : LibParam ⊕ κ) :
    (registered.init p cmdType callback).parent q ≠ some p := by
  rw [registry.init_eq blank]
  intro child
  exact (registry.above q p child).1 blank

/-- The types of all params but the new one are as they were. -/
theorem cmdType_init {cmdType : CmdType} (blank : registered.cmdType p = none)
    (typed : registered.cmdType q ≠ none) :
    Function.update registered.cmdType p (some cmdType) q = registered.cmdType q := by
  apply Function.update_of_ne
  rintro rfl
  exact typed blank

/-- A new command or leaf is no negation. -/
theorem negation_init {cmdType : CmdType} (ordinary : cmdType ≠ .noCmd)
    (negation : Function.update registered.cmdType p (some cmdType) q = some .noCmd) :
    registered.cmdType q = some .noCmd := by
  by_cases self : q = p
  · rw [self, Function.update_self] at negation
    exact absurd (Option.some.inj negation) ordinary
  · rwa [Function.update_of_ne self] at negation

/-- What is zero afterwards was zero before. -/
theorem blank_init {cmdType : CmdType} (blank : registered.cmdType p = none)
    (none : Function.update registered.cmdType p (some cmdType) q = none) : registered.cmdType q = .none := by
  by_cases self : q = p
  · rw [self]
    exact blank
  · rwa [Function.update_of_ne self] at none

omit [DecidableEq κ] in
/-- What has children has a type. -/
theorem typed_of_child (registry : Registry registered) (child : c ∈ registered.children q) :
    registered.cmdType q ≠ none := by
  intro none
  rw [(registry.blank q none).2.1] at child
  cases child

/-- A param that is zero is initialised. -/
theorem init (registry : Registry registered) {cmdType : CmdType} {callback : Option Callback}
    (blank : registered.cmdType p = none) (ordinary : cmdType ≠ .noCmd)
    (ownCallback : callback ∈ [none, some .application]) :
    Registry (registered.init p cmdType callback) := by
  obtain ⟨k, rfl⟩ := registry.own_of_blank blank
  obtain ⟨capabilities, children, parent⟩ := registry.blank _ blank
  rw [registry.init_eq blank]
  constructor
  case typed =>
    intro q
    dsimp only
    rw [Function.update_of_ne (by exact Sum.inl_ne_inr)]
    exact registry.typed q
  case handled =>
    intro q
    dsimp only
    rw [Function.update_of_ne (by exact Sum.inl_ne_inr)]
    exact registry.handled q
  case placed => exact registry.placed
  case own =>
    intro j
    dsimp only
    by_cases self : j = k
    · rw [self, Function.update_self]
      exact ownCallback
    · rw [Function.update_of_ne fun equal => self (Sum.inr.inj equal)]
      exact registry.own j
  case blank => exact fun q none => registry.blank q (blank_init blank none)
  case above =>
    intro q r child
    obtain ⟨known, ordinary, may⟩ := registry.above q r child
    dsimp only
    rw [cmdType_init blank known]
    exact ⟨known, ordinary, may⟩
  case inner =>
    intro q c child
    obtain ⟨known, belongs⟩ := registry.inner q c child
    rw [Belongs]
    dsimp only
    rw [cmdType_init blank known, cmdType_init blank (registry.typed_of_child child)]
    exact ⟨known, belongs⟩
  case bare => exact registry.bare
  case capable =>
    intro q ordinary' other
    by_cases self : q = .inr k
    · left
      rw [self]
      exact capabilities
    · dsimp only at ordinary'
      rw [Function.update_of_ne self] at ordinary'
      exact registry.capable q ordinary' other
  case incapable =>
    intro q negative
    exact registry.incapable q (negative.imp_left (negation_init ordinary))
  case used =>
    intro q ordinary' enabled
    by_cases self : q = .inr k
    · rw [self] at enabled
      exact absurd capabilities enabled
    · dsimp only at ordinary'
      rw [Function.update_of_ne self] at ordinary'
      obtain ⟨c, inside, other⟩ := registry.used q ordinary' enabled
      refine ⟨c, inside, ?_⟩
      dsimp only
      rw [cmdType_init blank (registry.inner q c inside).1]
      exact other
  case enabled =>
    intro q c child ordinary'
    dsimp only at ordinary'
    rw [cmdType_init blank (registry.inner q c child).1] at ordinary'
    exact registry.enabled q c child ordinary'
  case negates => exact fun q negation => registry.negates q (negation_init ordinary negation)
  case shared => exact fun q r negation child => registry.shared q r (negation_init ordinary negation) child
  case forest => exact registry.forest

omit [DecidableEq κ] in
theorem parent_ne_negation (registry : Registry registered) (negation : registered.cmdType p = some .noCmd)
    (top : registered.parent p = none) : False := by
  obtain ⟨q, child, _⟩ := registry.negates p negation
  rw [top] at child
  cases child

/-- What may be registered: a param that is registered nowhere, or the one for brief output. -/
structure Registrable (registered : Registration κ) (parent child : LibParam ⊕ κ) : Prop where
  isParent : IsParent registered parent
  typed : registered.cmdType child ≠ none
  ordinary : registered.cmdType child ≠ some .noCmd
  elsewhere : child = .inl showBriefExtension ∨ (∃ k, child = .inr k) ∧ registered.parent child = none
  apart : ¬ Climbs registered.parent parent child

omit [DecidableEq κ] in
theorem registrable_own (registry : Registry registered) {k : κ} (isParent : IsParent registered parent)
    (typed : registered.cmdType (.inr k) ≠ none) (top : registered.parent (.inr k) = none)
    (apart : ¬ Climbs registered.parent parent (.inr k)) : Registrable registered parent (.inr k) where
  isParent := isParent
  typed := typed
  ordinary := fun negation => registry.parent_ne_negation negation top
  elsewhere := .inr ⟨⟨k, rfl⟩, top⟩
  apart := apart

omit [DecidableEq κ] in
theorem registrable_brief (registry : Registry registered) (isParent : IsParent registered parent) :
    Registrable registered parent (.inl showBriefExtension) where
  isParent := isParent
  typed := by
    rw [registry.typed]
    exact Option.some_ne_none _
  ordinary := by
    rw [registry.typed]
    exact fun same => LibParam.notNegation _ (Option.some.inj same)
  elsewhere := .inl rfl
  apart := by
    apply not_climbs_of_childless
    · intro q child
      rcases (registry.above q _ child).2.2 _ rfl with parental | inside
      · exact parental rfl
      · exact absurd inside (by decide)
    · rintro rfl
      have inside : showBriefExtension ∈ accessible := isParent
      exact absurd inside (by decide)

theorem belongs_append (registry : Registry registered) (may : Registrable registered parent child)
    (belongs : Belongs registered p c) : Belongs (registered.append parent child) p c := by
  by_cases moved : c = child
  · subst moved
    rcases may.elsewhere with brief | ⟨⟨k, rfl⟩, top⟩
    · exact .inl brief
    · rcases belongs with brief | own | ⟨negation, same⟩ | ⟨_, shared⟩
      · exact .inl brief
      · rw [top] at own
        cases own
      · rw [top] at same
        exact (registry.parent_ne_negation negation same.symm).elim
      · simp at shared
  · rcases belongs with brief | own | ⟨negation, same⟩ | shared
    · exact .inl brief
    · right
      left
      rwa [Registration.append_parent_of_ne _ moved]
    · right
      right
      left
      have other : p ≠ child := by
        rintro rfl
        exact may.ordinary negation
      rw [Registration.append_parent_of_ne _ moved, Registration.append_parent_of_ne _ other]
      exact ⟨negation, same⟩
    · exact .inr (.inr (.inr shared))

omit [DecidableEq κ] in
theorem enabledCapabilities_ne_nil (capabilities : List (LibParam ⊕ κ)) :
    enabledCapabilities capabilities ≠ [] := by
  rw [enabledCapabilities]
  split
  · apply List.cons_ne_nil
  · assumption

theorem inner_append (registry : Registry registered) (may : Registrable registered parent child)
    (inside : c ∈ (registered.append parent child).children q) :
    registered.cmdType c ≠ none ∧ Belongs (registered.append parent child) q c := by
  have either : c ∈ registered.children q ∨ q = parent ∧ c = child := by
    by_cases here : q = parent
    · subst here
      simpa using inside
    · left
      rwa [Registration.append_children_of_ne _ here] at inside
  rcases either with old | ⟨rfl, rfl⟩
  · obtain ⟨typed, belongs⟩ := registry.inner q c old
    exact ⟨typed, registry.belongs_append may belongs⟩
  · refine ⟨may.typed, ?_⟩
    right
    left
    apply Registration.append_parent_self

theorem capable_append (registry : Registry registered) (ordinary : registered.cmdType q ≠ some .noCmd)
    (other : q ≠ .inl doHook) : (registered.append parent child).capabilities q = [] ∨
      (registered.append parent child).capabilities q = parentCapabilities := by
  by_cases here : q = parent
  · subst here
    right
    rw [Registration.append_capabilities_self, enabledCapabilities]
    rcases registry.capable q ordinary other with empty | enabled
    · rw [if_pos empty]
    · rw [enabled]
      rfl
  · rw [Registration.append_capabilities_of_ne _ here]
    exact registry.capable q ordinary other

theorem incapable_append (registry : Registry registered)
    (negative : registered.cmdType q = some .noCmd ∨ q = .inl doHook) :
    (registered.append parent child).capabilities q = negationCapabilities := by
  have before := registry.incapable q negative
  by_cases here : q = parent
  · subst here
    rw [Registration.append_capabilities_self, before]
    rfl
  · rw [Registration.append_capabilities_of_ne _ here]
    exact before

/-- A negation keeps the children it has, and the new one stands behind them. -/
theorem shared_append (registry : Registry registered) (may : Registrable registered parent child)
    {r : LibParam ⊕ κ}
    (negation : registered.cmdType q = some .noCmd) (below : registered.parent q = some r) :
    ∃ later, (registered.append parent child).children r = (registered.append parent child).children
    q ++ q :: later := by
  have notParent : q ≠ parent := by
    rintro rfl
    exact (registry.parent_typed may.isParent).2.1 negation
  obtain ⟨later, split⟩ := registry.shared q r negation below
  rw [Registration.append_children_of_ne _ notParent]
  by_cases here : r = parent
  · subst here
    refine ⟨later ++ [child], ?_⟩
    rw [Registration.append_children_self, split]
    simp
  · rw [Registration.append_children_of_ne _ here]
    exact ⟨later, split⟩

/-- A param is registered. -/
theorem append (registry : Registry registered) (may : Registrable registered parent child) :
    Registry (registered.append parent child) := by
  obtain ⟨known, notNegation, may'⟩ := registry.parent_typed may.isParent
  have unmoved {q : LibParam ⊕ κ} (negation : registered.cmdType q = some .noCmd) : q ≠ child := by
    rintro rfl
    exact may.ordinary negation
  constructor
  case typed => exact registry.typed
  case handled => exact registry.handled
  case own => exact registry.own
  case placed =>
    intro q other
    rw [Registration.append_parent_of_ne]
    · exact registry.placed q other
    · rintro rfl
      rcases may.elsewhere with brief | ⟨⟨k, own⟩, _⟩
      · exact other (Sum.inl.inj brief)
      · cases own
  case blank =>
    intro q none
    have notParent : q ≠ parent := fun equal => known (equal ▸ none)
    have notChild : q ≠ child := fun equal => may.typed (equal ▸ none)
    simpa [notParent, notChild] using registry.blank q none
  case above =>
    intro q r below
    by_cases moved : q = child
    · subst moved
      rw [Registration.append_parent_self] at below
      cases below
      exact ⟨known, notNegation, may'⟩
    · rw [Registration.append_parent_of_ne _ moved] at below
      exact registry.above q r below
  case inner => exact fun q c inside => registry.inner_append may inside
  case bare =>
    intro q childless
    have other : (Sum.inl q : LibParam ⊕ κ) ≠ parent := fun equal => childless (may' q equal.symm)
    simpa [other] using registry.bare q childless
  case capable => exact fun q ordinary other => registry.capable_append ordinary other
  case incapable => exact fun q negative => registry.incapable_append negative
  case used =>
    intro q ordinary enabled
    by_cases here : q = parent
    · subst here
      refine ⟨child, ?_, may.ordinary⟩
      simp
    · rw [Registration.append_capabilities_of_ne _ here] at enabled
      rw [Registration.append_children_of_ne _ here]
      exact registry.used q ordinary enabled
  case enabled =>
    intro q c inside ordinary
    by_cases here : q = parent
    · subst here
      rw [Registration.append_capabilities_self]
      apply enabledCapabilities_ne_nil
    · rw [Registration.append_children_of_ne _ here] at inside
      rw [Registration.append_capabilities_of_ne _ here]
      exact registry.enabled q c inside ordinary
  case negates =>
    intro q negation
    rw [Registration.append_parent_of_ne _ (unmoved negation)]
    exact registry.negates q negation
  case shared =>
    intro q r negation below
    rw [Registration.append_parent_of_ne _ (unmoved negation)] at below
    exact registry.shared_append may negation below
  case forest => exact registry.forest.hang may.apart

theorem belongs_negate (registry : Registry registered)
    (fresh : registered.cmdType noParam = none) {r : LibParam ⊕ κ} (inside : c ∈ registered.children r)
    (belongs : Belongs registered r c) : Belongs (registered.negate p noParam) r c := by
  have notChild : c ≠ noParam := by
    rintro rfl
    exact (registry.inner r c inside).1 fresh
  have notParent : r ≠ noParam := by
    rintro rfl
    rw [(registry.blank r fresh).2.1] at inside
    cases inside
  rw [Belongs, Registration.negate_parent_of_ne _ notChild, Registration.negate_parent_of_ne _ notParent,
    Registration.negate_cmdType_of_ne _ notParent]
  exact belongs

/-- What `support_cmd_negation` allocates for a param that is registered below the root. -/
structure Negatable (registered : Registration κ) (p noParam : LibParam ⊕ κ) : Prop where
  isParent : IsParent registered p
  fresh : registered.cmdType noParam = none
  below : p ≠ .inl root
  attached : registered.parent p ≠ none

namespace Negatable

omit [DecidableEq κ] in
theorem other (may : Negatable registered p noParam) (registry : Registry registered) : noParam ≠ p := by
  rintro rfl
  exact (registry.parent_typed may.isParent).1 may.fresh

omit [DecidableEq κ] in
theorem typed_ne (may : Negatable registered p noParam) (typed : registered.cmdType c ≠ none) :
    c ≠ noParam := by
  rintro rfl
  exact typed may.fresh

omit [DecidableEq κ] in
theorem library_ne (may : Negatable registered p noParam) (registry : Registry registered) (q : LibParam) :
    (Sum.inl q : LibParam ⊕ κ) ≠ noParam := by
  obtain ⟨k, own⟩ := registry.own_of_blank may.fresh
  rw [own]
  exact Sum.inl_ne_inr

end Negatable

theorem typed_negate (registry : Registry registered) (may : Negatable registered p noParam)
    (inside : c ∈ registered.children q) : (registered.negate p noParam).cmdType c ≠ none := by
  have typed := (registry.inner q c inside).1
  rwa [Registration.negate_cmdType_of_ne _ (may.typed_ne typed)]

/-- The children a negation has belong to it, as they are children of the same param. -/
theorem belongs_negation (registry : Registry registered) (may : Negatable registered p noParam)
    (inside : c ∈ registered.children p) : Belongs (registered.negate p noParam) noParam c := by
  rcases registry.belongs_negate (p := p) may.fresh inside (registry.inner p c inside).2 with
    brief | own | ⟨negation, _⟩ | ⟨hook, _⟩
  · exact .inl brief
  · right
    right
    left
    rw [own]
    simp
  · rw [Registration.negate_cmdType_of_ne _ (may.other registry).symm] at negation
    exact absurd negation (registry.parent_typed may.isParent).2.1
  · have attached := may.attached
    rw [hook, registry.placed doHook (by decide)] at attached
    exact absurd rfl attached

theorem inner_negate (registry : Registry registered) (may : Negatable registered p noParam)
    (inside : c ∈ (registered.negate p noParam).children q) :
    (registered.negate p noParam).cmdType c ≠ none ∧ Belongs (registered.negate p noParam) q c := by
  have old {q : LibParam ⊕ κ} (inside : c ∈ registered.children q) :
      (registered.negate p noParam).cmdType c ≠ none ∧ Belongs (registered.negate p noParam) q c :=
    ⟨registry.typed_negate may inside, registry.belongs_negate may.fresh inside (registry.inner q c inside).2⟩
  by_cases new : q = noParam
  · subst new
    rw [Registration.negate_children_self _ (may.other registry)] at inside
    exact ⟨registry.typed_negate may inside, registry.belongs_negation may inside⟩
  · by_cases here : q = p
    · subst here
      rw [Registration.negate_children_installed] at inside
      rcases List.mem_append.mp inside with before | added
      · exact old before
      · rw [List.mem_singleton.mp added]
        refine ⟨by simp, ?_⟩
        right
        left
        apply Registration.negate_parent_self
    · rw [Registration.negate_children_of_ne _ here new] at inside
      exact old inside

/-- A param keeps the children it has. -/
theorem mem_children_negate (new : q ≠ noParam) (inside : c ∈ registered.children q) :
    c ∈ (registered.negate p noParam).children q := by
  by_cases here : q = p
  · subst here
    simp [inside]
  · rwa [Registration.negate_children_of_ne _ here new]

theorem used_negate (registry : Registry registered) (may : Negatable registered p noParam)
    (ordinary : (registered.negate p noParam).cmdType q ≠ some .noCmd)
    (enabled : (registered.negate p noParam).capabilities q ≠ []) :
    ∃ c ∈ (registered.negate p noParam).children q, (registered.negate p noParam).cmdType c ≠ some
    .noCmd := by
  have old : q ≠ noParam := by
    rintro rfl
    exact ordinary (Registration.negate_cmdType_self _)
  rw [Registration.negate_cmdType_of_ne _ old] at ordinary
  rw [Registration.negate_capabilities_of_ne _ old] at enabled
  obtain ⟨c, inside, different⟩ := registry.used q ordinary enabled
  refine ⟨c, mem_children_negate old inside, ?_⟩
  rwa [Registration.negate_cmdType_of_ne _ (may.typed_ne (registry.inner q c inside).1)]

theorem enabled_negate (registry : Registry registered) (inside : c ∈ (registered.negate p noParam).children q)
    (ordinary : (registered.negate p noParam).cmdType c ≠ some .noCmd) :
    (registered.negate p noParam).capabilities q ≠ [] := by
  have old : c ≠ noParam := by
    rintro rfl
    exact ordinary (Registration.negate_cmdType_self _)
  rw [Registration.negate_cmdType_of_ne _ old] at ordinary
  by_cases new : q = noParam
  · rw [new, Registration.negate_capabilities_self]
    apply List.cons_ne_nil
  · rw [Registration.negate_capabilities_of_ne _ new]
    by_cases here : q = p
    · subst here
      have before : c ∈ registered.children q := by simpa [old] using inside
      exact registry.enabled q c before ordinary
    · rw [Registration.negate_children_of_ne _ here new] at inside
      exact registry.enabled q c inside ordinary

/-- The new negation stands behind the children it has, and behind the older negations. -/
theorem shared_negate (registry : Registry registered) (may : Negatable registered p noParam)
    {r : LibParam ⊕ κ} (negation : (registered.negate p noParam).cmdType q = some .noCmd)
    (child : (registered.negate p noParam).parent q = some r) :
    ∃ later, (registered.negate p noParam).children r =
      (registered.negate p noParam).children q ++ q :: later := by
  by_cases new : q = noParam
  · subst new
    rw [Registration.negate_parent_self] at child
    cases child
    exact ⟨[], by rw [Registration.negate_children_installed, Registration.negate_children_self _
      (may.other registry)]⟩
  · rw [Registration.negate_cmdType_of_ne _ new] at negation
    rw [Registration.negate_parent_of_ne _ new] at child
    have elsewhere : q ≠ p := by
      rintro rfl
      exact (registry.parent_typed may.isParent).2.1 negation
    obtain ⟨later, split⟩ := registry.shared q r negation child
    rw [Registration.negate_children_of_ne _ elsewhere new]
    by_cases here : r = p
    · subst here
      refine ⟨later ++ [noParam], ?_⟩
      rw [Registration.negate_children_installed, split]
      simp
    · rw [Registration.negate_children_of_ne _ here (may.typed_ne (registry.above q r child).1)]
      exact ⟨later, split⟩

/-- A negation is installed. -/
theorem negate (registry : Registry registered) (may : Negatable registered p noParam) :
    Registry (registered.negate p noParam) := by
  obtain ⟨known, notNegation, may'⟩ := registry.parent_typed may.isParent
  have parentOf {q r : LibParam ⊕ κ} (child : registered.parent q = some r) : r ≠ noParam :=
    may.typed_ne (registry.above q r child).1
  constructor
  case typed =>
    intro q
    rw [Registration.negate_cmdType_of_ne _ (may.library_ne registry q)]
    exact registry.typed q
  case handled =>
    intro q
    rw [Registration.negate_callback_of_ne _ (may.library_ne registry q)]
    exact registry.handled q
  case placed =>
    intro q elsewhere
    rw [Registration.negate_parent_of_ne _ (may.library_ne registry q)]
    exact registry.placed q elsewhere
  case own =>
    intro j
    by_cases new : Sum.inr j = noParam
    · rw [new, Registration.negate_callback_self]
      simp
    · rw [Registration.negate_callback_of_ne _ new]
      exact registry.own j
  case blank =>
    intro q none
    have old : q ≠ noParam := by
      rintro rfl
      rw [Registration.negate_cmdType_self] at none
      cases none
    rw [Registration.negate_cmdType_of_ne _ old] at none
    have elsewhere : q ≠ p := fun equal => known (equal ▸ none)
    simpa [old, elsewhere] using registry.blank q none
  case above =>
    intro q r child
    by_cases new : q = noParam
    · subst new
      rw [Registration.negate_parent_self] at child
      cases child
      rw [Registration.negate_cmdType_of_ne _ (may.other registry).symm]
      exact ⟨known, notNegation, may'⟩
    · rw [Registration.negate_parent_of_ne _ new] at child
      rw [Registration.negate_cmdType_of_ne _ (parentOf child)]
      exact registry.above q r child
  case inner => exact fun q c inside => registry.inner_negate may inside
  case bare =>
    intro q childless
    have elsewhere : (Sum.inl q : LibParam ⊕ κ) ≠ p := fun equal => childless (may' q equal.symm)
    simpa [elsewhere, may.library_ne registry q] using registry.bare q childless
  case capable =>
    intro q ordinary elsewhere
    have old : q ≠ noParam := by
      rintro rfl
      exact ordinary (Registration.negate_cmdType_self _)
    rw [Registration.negate_cmdType_of_ne _ old] at ordinary
    rw [Registration.negate_capabilities_of_ne _ old]
    exact registry.capable q ordinary elsewhere
  case incapable =>
    intro q negative
    by_cases new : q = noParam
    · rw [new, Registration.negate_capabilities_self]
    · rw [Registration.negate_cmdType_of_ne _ new] at negative
      rw [Registration.negate_capabilities_of_ne _ new]
      exact registry.incapable q negative
  case used => exact fun q ordinary enabled => registry.used_negate may ordinary enabled
  case enabled => exact fun q c inside ordinary => registry.enabled_negate inside ordinary
  case negates =>
    intro q negation
    by_cases new : q = noParam
    · subst new
      exact ⟨p, Registration.negate_parent_self _, may.below⟩
    · rw [Registration.negate_cmdType_of_ne _ new] at negation
      rw [Registration.negate_parent_of_ne _ new]
      exact registry.negates q negation
  case shared => exact fun q r negation child => registry.shared_negate may negation child
  case forest =>
    apply registry.forest.hang
    apply not_climbs_of_childless
    · intro q child
      exact parentOf child rfl
    · exact (may.other registry).symm

/-- The step of a program. -/
theorem call {call : RegistrationCall κ} (registry : Registry registered) (legal : Legal registered call)
    (registers : Registers registered call registered') : Registry registered' := by
  cases registers with
  | initParam p paramType callback => exact registry.init legal.1 legal.2.1 legal.2.2
  | setParamCmdCode => exact registry
  | libcliRegisterDisplayCallback => exact registry
  | libcliRegisterParam child room =>
    obtain ⟨isParent, ⟨k, rfl⟩, typed, top, apart⟩ := legal
    exact registry.append (registry.registrable_own isParent typed top apart)
  | enableShowExtensionParamBrief room => exact registry.append (registry.registrable_brief legal)
  | refused => exact registry
  | supportCmdNegation noParam choice below attached room =>
    exact registry.negate ⟨legal.1, legal.2, below, attached⟩

end Registry

section

variable [DecidableEq κ] {params params' : Params κ} {calls : List (RegistrationCall κ)} {steps : ℕ}
  {p c : LibParam ⊕ κ}

theorem library_children : ∀ q, ∀ c ∈ (LibParam.param q).options.drop 3,
    (LibParam.param c).parent = some q ∨ q = doHook ∧ c ∈ [showHook, debugHook, clearHook] := by
  intro q
  cases q <;> decide

theorem library_parents : ∀ q r, (LibParam.param q).parent = some r → (LibParam.param r).options ≠ [] := by
  intro q r child
  cases q <;> cases child <;> exact List.cons_ne_nil _ _

theorem library_capabilities : ∀ q, q ≠ doHook →
    (LibParam.param q).options = [] ∨ (LibParam.param q).options.take 3 =
      [modeParam, suboptionsParam, cmdExpansionParam] := by
  intro q
  cases q <;> decide

theorem library_used : ∀ q, (LibParam.param q).options ≠ [] →
    ∃ c, c ∈ (LibParam.param q).options.drop 3 := by
  intro q some
  cases q <;> first | exact absurd rfl some | exact ⟨_, List.mem_cons_self⟩

omit [DecidableEq κ] in
theorem library_parent {q r : LibParam ⊕ κ} (child : (library (κ := κ)).parent q = some r) :
    ∃ q' r', q = .inl q' ∧ r = .inl r' ∧ (LibParam.param q').parent = some r' := by
  cases q with
  | inl q =>
    obtain ⟨r', parent, rfl⟩ := Option.map_eq_some_iff.mp child
    exact ⟨q, r', rfl, rfl, parent⟩
  | inr k => cases child

omit [DecidableEq κ] in
theorem library_notNegation (p : LibParam ⊕ κ) : (library (κ := κ)).cmdType p ≠ some .noCmd := by
  cases p with
  | inl q => exact fun same => LibParam.notNegation q (Option.some.inj same)
  | inr k => exact nofun

omit [DecidableEq κ] in
theorem registry_library : Registry (library (κ := κ)) := by
  constructor
  case typed => exact fun _ => rfl
  case handled => exact fun _ => rfl
  case placed => exact fun _ _ => rfl
  case own => exact fun _ => List.mem_cons_self
  case blank =>
    intro p none
    cases p with
    | inl q => cases none
    | inr k => exact ⟨rfl, rfl, rfl⟩
  case above =>
    intro p r child
    obtain ⟨q', r', rfl, rfl, parent⟩ := library_parent child
    refine ⟨Option.some_ne_none _, library_notNegation _, ?_⟩
    intro s same
    cases same
    exact .inl (library_parents q' r' parent)
  case inner =>
    intro p c inside
    cases p with
    | inl q =>
      obtain ⟨c', listed, rfl⟩ := List.mem_map.mp inside
      refine ⟨Option.some_ne_none _, ?_⟩
      rcases library_children q c' listed with parent | ⟨rfl, shared⟩
      · right
        left
        exact congrArg (Option.map Sum.inl) parent
      · right
        right
        right
        exact ⟨rfl, List.mem_map_of_mem shared⟩
    | inr k => cases inside
  case bare =>
    intro q childless
    have none : (LibParam.param q).options = [] := by
      by_contra some
      exact childless (.inl some)
    simp [library, none]
  case capable =>
    intro p _ other
    cases p with
    | inl q =>
      rcases library_capabilities q (fun hook => other (congrArg _ hook)) with none | enabled
      · left
        simp [library, none]
      · right
        exact congrArg (List.map Sum.inl) enabled
    | inr k => exact .inl rfl
  case incapable =>
    rintro p (negation | rfl)
    · exact absurd negation (library_notNegation p)
    · rfl
  case used =>
    intro p _ enabled
    cases p with
    | inl q =>
      have some : (LibParam.param q).options ≠ [] := by
        intro none
        simp [library, none] at enabled
      obtain ⟨c, inside⟩ := library_used q some
      exact ⟨.inl c, List.mem_map_of_mem inside, library_notNegation _⟩
    | inr k => exact absurd rfl enabled
  case enabled =>
    intro p c inside _
    cases p with
    | inl q =>
      intro none
      have options : (LibParam.param q).options = [] := by simpa [library] using none
      simp [library, options] at inside
    | inr k => cases inside
  case negates => exact fun p negation => absurd negation (library_notNegation p)
  case shared => exact fun p _ negation => absurd negation (library_notNegation p)
  case forest =>
    refine ⟨Sum.elim LibParam.depth fun _ => 0, ?_⟩
    intro p r child
    obtain ⟨q', r', rfl, rfl, parent⟩ := library_parent child
    exact LibParam.descends q' r' parent

/-- A call that succeeds. -/
def Succeeds (steps : ℕ) (params : Params κ) (call : RegistrationCall κ) (params' : Params κ) : Prop :=
  call.run steps params = .ok params'

/-- The runs of a program that does as the library asks it to. -/
def LegalRun (steps : ℕ) : Params κ → List (RegistrationCall κ) → Params κ → Prop :=
  Path (Guarded (Succeeds steps) fun params call => Legal (registeredOf params) call)

/-- The registry in memory. -/
def SoundParams (params : Params κ) : Prop :=
  Registry (registeredOf params) ∧ ∀ q, WellPacked (params q)

theorem soundParams_call {call : RegistrationCall κ} (sound : SoundParams params)
    (legal : Legal (registeredOf params) call) (succeeds : Succeeds steps params call params') :
    Registers (registeredOf params) call (registeredOf params') ∧ SoundParams params' := by
  obtain ⟨registry, packed⟩ := sound
  have fresh : ∀ p noParam choice, call = .supportCmdNegation p noParam choice → p ≠ noParam := by
    rintro p noParam choice rfl same
    subst same
    exact (registry.parent_typed legal.1).1 legal.2
  obtain ⟨registers, packed'⟩ := run_registers packed fresh succeeds
  exact ⟨registers, registry.call legal registers, packed'⟩

theorem soundParams_libcli : SoundParams (libcliParams : Params κ) := by
  rw [SoundParams, registeredOf_libcli]
  exact ⟨registry_library, fun q => (libcli_at q).2⟩

theorem soundParams_run (run : LegalRun steps params calls params') (sound : SoundParams params) :
    SoundParams params' := by
  apply Path.invariant run
  · rintro params call params' ⟨legal, succeeds⟩ sound
    exact (soundParams_call sound legal succeeds).2
  · exact sound

end

end TcpServerLib.Soundness
