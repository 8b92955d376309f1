import TcpServerLib.Soundness.RegisteredTrees

/-! # The order of registration

The parser sees the children of a param in the order in which they were registered, and a negation param sees those
of them that were registered before it. Thirteen children are all that fit.
-/

namespace TcpServerLib.Soundness

open Machine Model Refinement LibParam

variable {κ : Type*} [DecidableEq κ] {registered registered' : Registration κ} {params params' : Params κ}
  {call : RegistrationCall κ} {calls : List (RegistrationCall κ)} {steps : ℕ} {p c noParam : LibParam ⊕ κ}

/-- The params that a program registers under `p`. -/
def registeredUnder (p : LibParam ⊕ κ) : List (RegistrationCall κ) → List (LibParam ⊕ κ) :=
  List.filterMap fun
    | .libcliRegisterParam parent child => if parent.getD (.inl root) = p then some child else none
    | .enableShowExtensionParamBrief parent => if parent = p then some (.inl showBriefExtension) else none
    | _ => none

omit [DecidableEq κ] in
/-- It is not a negation param. -/
def isOrdinary (registered : Registration κ) (c : LibParam ⊕ κ) : Bool :=
  match registered.cmdType c with
  | some .noCmd => false
  | _ => true

/-- The children of a param, without the negations. -/
def ordinaryChildren (registered : Registration κ) (p : LibParam ⊕ κ) : List (LibParam ⊕ κ) :=
  (registered.children p).filter (isOrdinary registered)

omit [DecidableEq κ] in
theorem isOrdinary_iff : isOrdinary registered c = true ↔ registered.cmdType c ≠ some .noCmd := by
  rw [isOrdinary]
  split
  · next negation => simp [negation]
  · next other => simpa using other

omit [DecidableEq κ] in
theorem filter_ordinary_congr {list : List (LibParam ⊕ κ)}
    (kept : ∀ c ∈ list, registered'.cmdType c = registered.cmdType c) :
    list.filter (isOrdinary registered') = list.filter (isOrdinary registered) := by
  apply List.filter_congr
  intro c listed
  rw [isOrdinary, isOrdinary, kept c listed]

theorem registeredUnder_cons (p : LibParam ⊕ κ) (call : RegistrationCall κ)
    (calls : List (RegistrationCall κ)) :
    registeredUnder p (call :: calls) = registeredUnder p [call] ++ registeredUnder p calls := by
  rw [registeredUnder, ← List.filterMap_append]
  rfl

theorem registeredUnder_register (p : LibParam ⊕ κ) (parent : Option (LibParam ⊕ κ))
    (child : LibParam ⊕ κ) :
    registeredUnder p [.libcliRegisterParam parent child] = if parent.getD (.inl root) =
      p then [child] else [] := by
  by_cases here : parent.getD (.inl root) = p <;> simp [registeredUnder, here]

theorem registeredUnder_brief (p parent : LibParam ⊕ κ) :
    registeredUnder p [.enableShowExtensionParamBrief parent] = if parent =
      p then [.inl showBriefExtension] else [] := by
  by_cases here : parent = p <;> simp [registeredUnder, here]

/-- The type of a param is set once. -/
theorem cmdType_kept (legal : Legal registered call) (registers : Registers registered call registered')
    (typed : registered.cmdType c ≠ none) : registered'.cmdType c = registered.cmdType c := by
  apply cmdType_other registers
  intro again
  cases call with
  | initParam p paramType callback =>
    cases again
    exact typed legal.1
  | supportCmdNegation p noParam choice =>
    cases again
    exact typed legal.2
  | _ => cases again

theorem ordinaryChildren_append {parent child : LibParam ⊕ κ}
    (ordinary : registered.cmdType child ≠ some .noCmd) :
    ordinaryChildren (registered.append parent child) p =
      ordinaryChildren registered p ++ if parent = p then [child] else [] := by
  have same : isOrdinary (registered.append parent child) = isOrdinary registered := rfl
  rw [ordinaryChildren, ordinaryChildren, same]
  split
  · next here =>
    subst here
    rw [Registration.append_children_self, List.filter_append, List.filter_singleton, isOrdinary_iff.mpr ordinary]
    rfl
  · next elsewhere => rw [Registration.append_children_of_ne _ (Ne.symm elsewhere), List.append_nil]

theorem ordinaryChildren_call (registry : Registry registered) (legal : Legal registered call)
    (registers : Registers registered call registered') (notNegation : registered'.cmdType p ≠ some .noCmd) :
    ordinaryChildren registered' p = ordinaryChildren registered p ++ registeredUnder p [call] := by
  have kept : ∀ c ∈ registered.children p, registered'.cmdType c = registered.cmdType c :=
    fun c inside => cmdType_kept legal registers (registry.inner p c inside).1
  cases registers with
  | initParam q paramType callback =>
    rw [registry.init_eq legal.1] at kept ⊢
    exact (filter_ordinary_congr kept).trans (List.append_nil _).symm
  | setParamCmdCode => exact (List.append_nil _).symm
  | libcliRegisterDisplayCallback => exact (List.append_nil _).symm
  | libcliRegisterParam child room =>
    obtain ⟨isParent, ⟨k, rfl⟩, typed, top, apart⟩ := legal
    rw [ordinaryChildren_append (registry.registrable_own isParent typed top apart).ordinary]
    rw [registeredUnder_register]
  | enableShowExtensionParamBrief room =>
    rw [ordinaryChildren_append (registry.registrable_brief legal).ordinary, registeredUnder_brief]
  | refused => exact (List.append_nil _).symm
  | @supportCmdNegation q noParam choice below attached room =>
    have old : p ≠ noParam := by
      rintro rfl
      exact notNegation (Registration.negate_cmdType_self _)
    have none : registeredUnder p [.supportCmdNegation q noParam choice] = [] := rfl
    rw [none, List.append_nil, ordinaryChildren, ordinaryChildren, ← filter_ordinary_congr kept]
    by_cases here : p = q
    · subst here
      have negation : isOrdinary (registered.negate p noParam) noParam = false := by
        rw [← Bool.not_eq_true, isOrdinary_iff, Registration.negate_cmdType_self]
        simp
      rw [Registration.negate_children_installed, List.filter_append, List.filter_singleton, negation]
      simp
    · rw [Registration.negate_children_of_ne _ here old]

theorem cmdType_run (run : LegalRun steps params calls params') (sound : SoundParams params)
    (typed : (params p).cmdType ≠ none) :
    (params' p).cmdType = (params p).cmdType := by
  induction run with
  | nil => rfl
  | @cons params middle params' call calls step rest ih =>
    obtain ⟨registers, sound'⟩ := soundParams_call sound step.1 step.2
    have same : (middle p).cmdType = (params p).cmdType := cmdType_kept step.1 registers typed
    exact (ih sound' (by rwa [same])).trans same

theorem ordinaryChildren_run (run : LegalRun steps params calls params') (sound : SoundParams params)
    (ordinary : (params' p).cmdType ≠ some .noCmd) :
    ordinaryChildren (registeredOf params') p = ordinaryChildren (registeredOf params) p ++
      registeredUnder p calls := by
  induction run with
  | nil => exact (List.append_nil _).symm
  | @cons params middle params' call calls step rest ih =>
    obtain ⟨registers, sound'⟩ := soundParams_call sound step.1 step.2
    have notYet : (middle p).cmdType ≠ some .noCmd := by
      intro negation
      have kept := cmdType_run rest sound' (by rw [negation]; exact Option.some_ne_none _)
      exact ordinary (kept.trans negation)
    rw [ih sound' ordinary, ordinaryChildren_call sound.1 step.1 registers notYet,
      registeredUnder_cons p call calls, List.append_assoc]

/-- What is registered under a param by the library and then by the program. -/
def allUnder (p : LibParam ⊕ κ) (calls : List (RegistrationCall κ)) : List (LibParam ⊕ κ) :=
  library.children p ++ registeredUnder p calls

theorem ordinaryChildren_eq (run : LegalRun steps libcliParams calls params)
    (ordinary : (params p).cmdType ≠ some .noCmd) :
    ordinaryChildren (registeredOf params) p = allUnder p calls := by
  have initially : ordinaryChildren (library (κ := κ)) p = library.children p := by
    apply List.filter_eq_self.mpr
    intro c _
    exact isOrdinary_iff.mpr (library_notNegation c)
  rw [ordinaryChildren_run run soundParams_libcli ordinary, registeredOf_libcli, initially, allUnder]

theorem entries_ordinary (sound : SoundParams params) (ordinary : (params p).cmdType ≠ some .noCmd) :
    (params p).optionArray.entries =
      if ordinaryChildren (registeredOf params) p = [] then []
      else (if p = .inl doHook then negationCapabilities else parentCapabilities) ++ childrenOf (params p) := by
  obtain ⟨registry, packed⟩ := sound
  have enabled : capabilitiesOf (params p) = [] ↔ ordinaryChildren (registeredOf params) p = [] := by
    constructor
    · intro none
      apply List.filter_eq_nil_iff.mpr
      intro c inside ordinary
      exact registry.enabled p c inside (isOrdinary_iff.mp ordinary) none
    · intro none
      by_contra some
      obtain ⟨c, inside, other⟩ := registry.used p ordinary some
      exact List.filter_eq_nil_iff.mp none c inside (isOrdinary_iff.mpr other)
  rw [entries_eq (packed p)]
  by_cases none : capabilitiesOf (params p) = []
  · rw [if_pos none, if_pos (enabled.mp none)]
  · have capabilities : capabilitiesOf (params p) = if p = .inl doHook then negationCapabilities
        else parentCapabilities := by
      by_cases hook : p = .inl doHook
      · rw [if_pos hook]
        exact registry.incapable p (.inr hook)
      · rw [if_neg hook]
        exact (registry.capable p ordinary hook).resolve_left none
    rw [if_neg none, if_neg (mt enabled.mpr none), capabilities]

/-- The children of a param, as the parser sees them, stand in the order of their registration. -/
theorem registered_inOrder (run : LegalRun steps libcliParams calls params)
    (ordinary : (params p).cmdType ≠ some .noCmd) :
    ∃ children, children.filter (isOrdinary (registeredOf params)) = allUnder p calls ∧
      (params p).optionArray.entries =
        if allUnder p calls = [] then []
        else (if p = .inl doHook then negationCapabilities else parentCapabilities) ++ children := by
  have inOrder := ordinaryChildren_eq run ordinary
  refine ⟨childrenOf (params p), inOrder, ?_⟩
  rw [entries_ordinary (soundParams_run run soundParams_libcli) ordinary, inOrder]

theorem config_ordinary : (vlanParams (.inl configHook)).cmdType ≠ some .noCmd :=
  fun same => LibParam.notNegation configHook (Option.some.inj same)

theorem vlan_inOrder :
    ∃ children, children.filter (isOrdinary (registeredOf (vlanParams))) =
      allUnder (.inl configHook) vlanProgram ∧ (vlanParams (.inl configHook)).optionArray.entries =
        if allUnder (.inl configHook) vlanProgram = [] then []
        else (if (Sum.inl configHook : LibParam ⊕ ℕ) = .inl doHook then negationCapabilities
          else parentCapabilities) ++ children :=
  registered_inOrder vlan_run config_ordinary

/-- The negations among the children of a param. -/
def negations (registered : Registration κ) (p : LibParam ⊕ κ) : List (LibParam ⊕ κ) :=
  (registered.children p).filter (!isOrdinary registered ·)

omit [DecidableEq κ] in
theorem length_children (registered : Registration κ) (p : LibParam ⊕ κ) :
    (registered.children p).length = (ordinaryChildren registered p).length +
    (negations registered p).length := by
  rw [ordinaryChildren, negations, ← List.countP_eq_length_filter, ← List.countP_eq_length_filter]
  have split := List.length_eq_countP_add_countP (isOrdinary registered) (l := registered.children p)
  simpa using split

/-- A child is registered if there are fewer than thirteen, those of the library and the negations
included. Otherwise the assertion fails. -/
theorem libcliRegisterParam_succeeds_iff (run : LegalRun steps libcliParams calls params)
    (ordinary : (params p).cmdType ≠ some .noCmd) (child : LibParam ⊕ κ) :
    ((∃ params', params.libcliRegisterParam (some p) child = .ok params') ↔
      (allUnder p calls).length + (negations (registeredOf params) p).length < 13) ∧
    (¬ (allUnder p calls).length + (negations (registeredOf params) p).length < 13 →
      params.libcliRegisterParam (some p) child = .error (.cli .assertion)) := by
  have sound := soundParams_run run soundParams_libcli
  have length : (childrenOf (params p)).length = _ := length_children (registeredOf params) p
  rw [ordinaryChildren_eq run ordinary] at length
  rw [libcliRegisterParam_eq (sound.2 p), ← length]
  refine ⟨⟨?_, fun few => ⟨_, if_pos few⟩⟩, fun full => if_neg full⟩
  rintro ⟨params', ran⟩
  split at ran
  · assumption
  · cases ran

/-- There is room for one more beside the library's three, the program's two, and the negation. -/
theorem vlan_registers : ∃ params', vlanParams.libcliRegisterParam (some (.inl configHook)) (.inr 4) =
    .ok params' :=
  (libcliRegisterParam_succeeds_iff vlan_run config_ordinary (.inr 4)).1.mpr (by decide)

/-- The options of a negation param are the children that were registered before it, and it stands behind them. -/
theorem negation_shares (run : LegalRun steps libcliParams calls params)
    (negation : (params noParam).cmdType = some .noCmd) :
    ∃ p earlier later, (params noParam).parent = some p ∧ p ≠ .inl root ∧
      (params noParam).optionArray.entries = negationCapabilities ++ earlier ∧
      childrenOf (params p) = earlier ++ noParam :: later ∧
      ((params p).optionArray.entries = [] ∨
        ∃ capabilities, capabilities.length = 3 ∧ (params p).optionArray.entries =
          capabilities ++ earlier ++ noParam :: later) := by
  obtain ⟨registry, packed⟩ := soundParams_run run soundParams_libcli
  obtain ⟨p, parent, below⟩ := registry.negates noParam negation
  obtain ⟨later, split⟩ := registry.shared noParam p negation parent
  have enabled : capabilitiesOf (params noParam) = negationCapabilities :=
    registry.incapable noParam (.inl negation)
  refine ⟨p, childrenOf (params noParam), later, parent, below, ?_, split, ?_⟩
  · rw [entries_eq (packed noParam), enabled]
    rfl
  · rw [entries_eq (packed p)]
    by_cases none : capabilitiesOf (params p) = []
    · left
      exact if_pos none
    · right
      refine ⟨capabilitiesOf (params p), (packed p).whole.resolve_left none, ?_⟩
      have children : childrenOf (params p) = childrenOf (params noParam) ++ noParam :: later := split
      rw [if_neg none, children, List.append_assoc]

/-- The negation of the program is good for `vlan`, and not for `mtu`. -/
theorem vlan_negation_shares :
    (vlanParams (.inr 1)).optionArray.entries =
      negationCapabilities ++ [.inl load, .inl supportsave, .inl configConsole, .inr 0] ∧
      childrenOf (vlanParams (.inl configHook)) =
        [.inl load, .inl supportsave, .inl configConsole, .inr 0] ++ .inr 1 :: [.inr 2] := by
  have negation : (vlanParams (.inr 1)).cmdType = some .noCmd := rfl
  obtain ⟨p, earlier, later, parent, _, options, children, _⟩ := negation_shares vlan_run negation
  obtain rfl : .inl configHook = p := Option.some.inj parent
  have shared : negationCapabilities ++ earlier =
      negationCapabilities ++ [.inl load, .inl supportsave, .inl configConsole, .inr 0] := options.symm
  obtain rfl := List.append_cancel_left shared
  have rest : [.inl load, .inl supportsave, .inl configConsole, .inr 0] ++ .inr 1 :: later =
      [.inl load, .inl supportsave, .inl configConsole, .inr 0] ++ .inr 1 :: [.inr 2] := children.symm
  obtain rfl := (List.cons.inj (List.append_cancel_left rest)).2
  exact ⟨options, children⟩

end TcpServerLib.Soundness
