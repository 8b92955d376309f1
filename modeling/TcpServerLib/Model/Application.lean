import TcpServerLib.Model.Libcli

/-! # The tree of an application

An application registers its params below those of the library. What it registers keeps what
`libcli_register_param` and `support_cmd_negation` guarantee.
-/

namespace TcpServerLib.Model

open Machine LibParam

/-- The params of an application, and which of them are registered under a param of the library. -/
structure Application (κ : Type*) where
  param : κ → Param (LibParam ⊕ κ)
  children : LibParam → List κ
  depth : κ → ℕ
  registered : ∀ p, ∀ k ∈ children p, (param k).parent = some (.inl p)
  childless : ∀ p ∈ [doHook, showBriefExtension, modeParam, suboptionsParam, cmdExpansionParam],
    children p = []
  /-- Nothing is registered under the library's own commands. -/
  hooked : ∀ p, children p ≠ [] →
    (LibParam.param p).callback ∈ [none, some .application, some .configModeEnterHandler]
  descends : ∀ k q, (param k).parent = some q → depth k = Sum.elim LibParam.depth depth q + 1
  inner : ∀ k, ∀ c ∈ (param k).options,
    c ∈ [.inl showBriefExtension, .inl modeParam, .inl suboptionsParam, .inl cmdExpansionParam] ∨
      (∃ k', c = .inr k' ∧ (param k').parent = some (.inr k)) ∨
        (param k).cmdType = .noCmd ∧
          Sum.elim (fun p => (LibParam.param p).parent.map Sum.inl) (fun k => (param k).parent) c =
            (param k).parent
  negates : ∀ k, (param k).cmdType = .noCmd → ∃ q, (param k).parent = some q ∧ q ≠ .inl root
  capabilities : ∀ k, (param k).options ≠ [] → (param k).cmdType ≠ .noCmd →
    ∃ children, (param k).options = [.inl modeParam, .inl suboptionsParam, .inl cmdExpansionParam] ++ children
  callbacks : ∀ k, (param k).callback ∈ [none, some .application]

namespace Application

variable {κ : Type*} (application : Application κ)

/-- The options of a param of the library, after the application has registered its own under it. -/
def libOptions (p : LibParam) : List (LibParam ⊕ κ) :=
  if application.children p = [] then (LibParam.param p).options.map .inl
  else
    (if (LibParam.param p).options = [] then parentOf [] else (LibParam.param p).options).map .inl ++
      (application.children p).map .inr

def treeParam : LibParam ⊕ κ → Param (LibParam ⊕ κ)
  | .inl p =>
    { cmdType := (LibParam.param p).cmdType
      callback := (LibParam.param p).callback
      dispCallback := (LibParam.param p).dispCallback
      options := application.libOptions p
      parent := (LibParam.param p).parent.map .inl
      cmdCode := (LibParam.param p).cmdCode }
  | .inr k => application.param k

theorem libOptions_childless {p : LibParam} (childless : application.children p = []) :
    application.libOptions p = (LibParam.param p).options.map .inl := if_pos childless

theorem mem_libOptions {p : LibParam} {c : LibParam ⊕ κ} (member : c ∈ application.libOptions p) :
    (∃ q ∈ (LibParam.param p).options, c = .inl q) ∨
      c ∈ [.inl modeParam, .inl suboptionsParam, .inl cmdExpansionParam] ∨
      ∃ k ∈ application.children p, c = .inr k := by
  rw [libOptions] at member
  split at member
  · obtain ⟨q, listed, rfl⟩ := List.mem_map.mp member
    exact .inl ⟨q, listed, rfl⟩
  · rcases List.mem_append.mp member with own | added
    · obtain ⟨q, listed, rfl⟩ := List.mem_map.mp own
      split at listed
      · right
        left
        exact List.mem_map_of_mem listed
      · exact .inl ⟨q, listed, rfl⟩
    · obtain ⟨k, listed, rfl⟩ := List.mem_map.mp added
      exact .inr (.inr ⟨k, listed, rfl⟩)

theorem libOptions_capabilities {p : LibParam} (parent : application.libOptions p ≠ []) (other : p ≠ doHook) :
    ∃ children, application.libOptions p =
      [.inl modeParam, .inl suboptionsParam, .inl cmdExpansionParam] ++ children := by
  have own (parent : (LibParam.param p).options ≠ []) : ∃ children, (LibParam.param p).options =
      parentOf children :=
    initLibcli.capabilities parent (LibParam.notNegation p) other
  rw [libOptions] at parent ⊢
  split
  · next childless =>
    rw [if_pos childless] at parent
    obtain ⟨children, options⟩ := own fun empty => parent (by rw [empty, List.map_nil])
    exact ⟨children.map .inl, by rw [options]; rfl⟩
  · split
    · exact ⟨(application.children p).map .inr, rfl⟩
    · next options =>
      obtain ⟨children, options⟩ := own options
      exact ⟨children.map .inl ++ (application.children p).map .inr, by rw [options]; rfl⟩

theorem libOptions_inner {p : LibParam} {c : LibParam ⊕ κ} (member : c ∈ application.libOptions p) :
    c ∈ [.inl showBriefExtension, .inl modeParam, .inl suboptionsParam, .inl cmdExpansionParam] ∨
      (application.treeParam c).parent = some (.inl p) ∨
        (p = doHook ∧ c ∈ [.inl showHook, .inl debugHook, .inl clearHook]) := by
  rcases application.mem_libOptions member with ⟨q, listed, rfl⟩ | control | ⟨k, child, rfl⟩
  · rcases LibParam.inner p q listed with control | registered | ⟨hook, shared⟩
    · exact .inl (List.mem_map_of_mem control)
    · exact .inr (.inl (by rw [treeParam, registered]; rfl))
    · exact .inr (.inr ⟨hook, List.mem_map_of_mem shared⟩)
  · exact .inl (List.mem_cons_of_mem _ control)
  · exact .inr (.inl (application.registered p k child))

/-- The tree after the application has been started. -/
def tree : CommandTree (LibParam ⊕ κ) where
  param := application.treeParam
  root := .inl root
  doHook := .inl doHook
  showHook := .inl showHook
  debugHook := .inl debugHook
  configHook := .inl configHook
  clearHook := .inl clearHook
  repeatHook := .inl repeatHook
  showBriefExtension := .inl showBriefExtension
  modeParam := .inl modeParam
  suboptionsParam := .inl suboptionsParam
  cmdExpansionParam := .inl cmdExpansionParam
  depth := Sum.elim LibParam.depth application.depth
  apart := initLibcli.apart.map Sum.inl_injective
  root_top := rfl
  doHook_top := rfl
  hooks := by
    intro p member
    have listed : p ∈ [showHook, debugHook, configHook, clearHook, repeatHook].map .inl := member
    obtain ⟨q, hook, rfl⟩ := List.mem_map.mp listed
    exact congrArg (Option.map Sum.inl) (initLibcli.hooks q hook)
  descends := by
    intro p q registered
    cases p with
    | inl p =>
      obtain ⟨q, parent, rfl⟩ := Option.map_eq_some_iff.mp registered
      exact LibParam.descends p q parent
    | inr k => exact application.descends k q registered
  inner := by
    intro p c member
    cases p with
    | inl p =>
      rcases application.libOptions_inner member with control | registered | ⟨rfl, shared⟩
      · exact .inl control
      · exact .inr (.inl registered)
      · exact .inr (.inr (.inr ⟨rfl, shared⟩))
    | inr k =>
      rcases application.inner k c member with control | ⟨k', rfl, registered⟩ | ⟨negation, shared⟩
      · exact .inl control
      · exact .inr (.inl registered)
      · refine .inr (.inr (.inl ⟨negation, ?_⟩))
        cases c with
        | inl q => exact shared
        | inr k' => exact shared
  negates := by
    intro p negation
    cases p with
    | inl p => exact absurd negation (LibParam.notNegation p)
    | inr k => exact application.negates k negation
  barren := by
    intro p member
    have listed : p ∈ [showBriefExtension, modeParam, suboptionsParam, cmdExpansionParam].map .inl := member
    obtain ⟨q, control, rfl⟩ := List.mem_map.mp listed
    have childless : application.children q = [] := application.childless q (List.mem_cons_of_mem _ control)
    have barren : (LibParam.param q).options = [] := initLibcli.barren q control
    exact (application.libOptions_childless childless).trans (by rw [barren, List.map_nil])
  named := by
    intro p member
    have listed : p ∈ [root, doHook, showHook, debugHook, configHook, clearHook, repeatHook,
        showBriefExtension, modeParam,
      suboptionsParam, cmdExpansionParam].map .inl := member
    obtain ⟨q, own, rfl⟩ := List.mem_map.mp listed
    exact initLibcli.named q own
  capabilities := by
    intro p parent ordinary other
    cases p with
    | inl p => exact application.libOptions_capabilities parent fun hook => other (congrArg _ hook)
    | inr k => exact application.capabilities k parent ordinary
  mode_name := rfl
  mode_handler := rfl
  repeat_name := rfl
  config_handler := by
    intro p
    cases p with
    | inl p => exact (initLibcli.config_handler p).trans Sum.inl_injective.eq_iff.symm
    | inr k =>
      have other := application.callbacks k
      constructor
      · intro handler
        rw [show (application.param k).callback = _ from handler] at other
        exact absurd other (by decide)
      · intro hook
        cases hook
  modeless := by
    intro p parent other
    cases p with
    | inl p =>
      by_cases childless : application.children p = []
      · refine initLibcli.modeless (p := p) ?_ fun hook => other (congrArg _ hook)
        intro empty
        exact parent ((application.libOptions_childless childless).trans
          (by rw [show (LibParam.param p).options = [] from empty]; rfl))
      · have hooked : (LibParam.param p).callback ∈ [none, some .application, some .configModeEnterHandler] :=
          application.hooked p childless
        exact List.mem_append_left [some .showHistoryCallback] hooked
    | inr k =>
      exact List.mem_append_left [some .configModeEnterHandler, some .showHistoryCallback]
        (application.callbacks k)

end Application

end TcpServerLib.Model
