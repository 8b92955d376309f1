import TcpServerLib.Soundness.NameResolution
import TcpServerLib.Soundness.RegistrationOrder

/-! # Second negations

`support_cmd_negation` looks for a negation among the options of the param, and refuses to install a second one. As
long as nothing else is registered under the param, its capabilities are not enabled, and the lookup ends before it
comes to the negation that is there.
-/

namespace TcpServerLib.Soundness

open Machine Model Refinement LibParam CommandTree

section

variable {ι : Type*} {tree : CommandTree ι} {cmdName : Bytes} {options : OptionArray ι} {choice : ℤ}
  {result : Option ι} {p : ι}

/-- If there are commands with the name, the first of them is found. -/
theorem found_named (found : options.findMatchingParam tree cmdName choice = .ok result)
    (member : p ∈ options.entries)
    (named : Named tree cmdName p) : ∃ q ∈ options.entries, Named tree cmdName q ∧ result = some q := by
  have few : ([] : List ι).length +
      ((passed tree cmdName options.entries).filter (Candidate tree cmdName ·)).length <
      possibilityArraySize := by
    rw [List.length_nil, Nat.zero_add]
    exact (roomy_of_found found).1
  rw [OptionArray.findMatchingParam, searchOptions_eq _ _ _ empty, if_pos few] at found
  cases sought : options.entries.find? (Named tree cmdName ·) with
  | none => exact absurd named (by simpa using List.find?_eq_none.mp sought p member)
  | some q =>
    rw [sought] at found
    cases found
    exact ⟨q, List.mem_of_find?_eq_some sought, by simpa using List.find?_some sought, rfl⟩

/-- Only options are found. -/
theorem found_member (found : options.findMatchingParam tree cmdName choice = .ok (some p)) :
    p ∈ options.entries := by
  by_cases named : ∃ q ∈ options.entries, Named tree cmdName q
  · obtain ⟨q, member, name⟩ := named
    obtain ⟨r, listed, _, same⟩ := found_named found member name
    cases same
    exact listed
  · have none : ∀ q ∈ options.entries, ¬ Named tree cmdName q :=
      fun q member name => named ⟨q, member, name⟩
    rw [finds_candidates (roomy_of_found found) none] at found
    split at found
    · have leaf := Except.ok.inj found
      exact List.mem_of_mem_filter (List.mem_of_getLast? leaf)
    · next q only =>
      cases found
      have candidate : p ∈ options.entries.filter (Candidate tree cmdName ·) := by
        rw [only]
        exact List.mem_singleton_self p
      exact List.mem_of_mem_filter candidate
    · split at found
      · cases found
      · have chosen := Except.ok.inj found
        exact List.mem_of_mem_filter (List.mem_of_getElem? chosen)

end

section

variable {κ : Type*} {params params' : Params κ} {calls : List (RegistrationCall κ)} {steps : ℕ}
  {p noParam : LibParam ⊕ κ} {cmdName : Bytes} {choice : ℤ}

theorem capability_typed (registry : Registry (registeredOf params)) {c : LibParam ⊕ κ}
    (capability : c ∈ capabilitiesOf (params p)) : ∃ cmdType, (params c).cmdType = some cmdType ∧
    cmdType ≠ .noCmd := by
  have library : ∃ q, c = .inl q := by
    have control := registry.capability_control capability
    rcases List.mem_cons.mp control with rfl | control
    · exact ⟨_, rfl⟩
    · rcases List.mem_cons.mp control with rfl | control
      · exact ⟨_, rfl⟩
      · exact ⟨_, List.mem_singleton.mp control⟩
  obtain ⟨q, rfl⟩ := library
  exact ⟨_, registry.typed q, LibParam.notNegation q⟩

theorem entry_typed (sound : SoundParams params) {c : LibParam ⊕ κ}
    (listed : c ∈ (params p).optionArray.entries) :
    (params c).cmdType ≠ none := by
  obtain ⟨registry, packed⟩ := sound
  rcases mem_entries (packed p) listed with capability | child
  · obtain ⟨cmdType, typed, _⟩ := capability_typed registry capability
    rw [typed]
    exact Option.some_ne_none _
  · exact (registry.inner p c child).1

/-- `support_cmd_negation` looks among the params in memory as the parser looks among those of the tree. -/
theorem searchOptions_tree (sound : SoundParams params) {options : List (LibParam ⊕ κ)} {i : ℕ}
    {leaf : Option (LibParam ⊕ κ)}
    {possibilities : List (LibParam ⊕ κ)} (typed : ∀ c ∈ options, (params c).cmdType ≠ none) :
    params.searchOptions cmdName i options leaf possibilities =
      (sound.1.tree sound.2).searchOptions cmdName i options leaf possibilities := by
  induction options generalizing i leaf possibilities with
  | nil => rfl
  | cons c options ih =>
    have rest := fun i leaf possibilities => @ih i leaf possibilities fun c listed =>
        typed c (List.mem_cons_of_mem _ listed)
    obtain ⟨cmdType, known⟩ := Option.ne_none_iff_exists'.mp (typed c List.mem_cons_self)
    have read : ((sound.1.tree sound.2).param c).cmdType = cmdType := by
      change (readParam (params c)).cmdType = cmdType
      rw [readParam, known]
      rfl
    rw [Params.searchOptions, CommandTree.searchOptions, known, read]
    dsimp only
    cases cmdType.cmdName with
    | none => exact rest (i + 1) (some c) possibilities
    | some name => simp only [rest]

theorem findMatchingParam_tree (sound : SoundParams params) :
    params.findMatchingParam (params p).optionArray cmdName choice =
      (params p).optionArray.findMatchingParam (sound.1.tree sound.2) cmdName choice := by
  rw [Params.findMatchingParam, OptionArray.findMatchingParam, searchOptions_tree sound fun c listed =>
    entry_typed sound listed]
  generalize (sound.1.tree sound.2).searchOptions cmdName 0 (params p).optionArray.entries none [] = searched
  rcases searched with fault | ⟨leaf, _ | ⟨c, _ | ⟨d, others⟩⟩⟩ <;> rfl

/-- `NEGATE_CHARACTER`. -/
def negateCharacter : Bytes := ascii ['n', 'o']

/-- No command has the name of the negation. -/
def NoHomonym (params : Params κ) (p : LibParam ⊕ κ) : Prop :=
  ∀ c ∈ (params p).optionArray.entries, ∀ name, (params c).cmdType = some (.cmd name) →
    name.bytes ≠ negateCharacter

theorem named_iff_noCmd (sound : SoundParams params) (noHomonym : NoHomonym params p) {c : LibParam ⊕ κ}
    (listed : c ∈ (params p).optionArray.entries) :
    Named (sound.1.tree sound.2) negateCharacter c ↔ (params c).cmdType = some .noCmd := by
  obtain ⟨cmdType, known⟩ := Option.ne_none_iff_exists'.mp (entry_typed sound listed)
  have read : ((sound.1.tree sound.2).param c).cmdType = cmdType := by
    change (readParam (params c)).cmdType = cmdType
    rw [readParam, known]
    rfl
  rw [Named, read, known]
  cases cmdType with
  | cmd name =>
    have other := noHomonym c listed name known
    simp [CmdType.cmdName, other]
  | leaf => simp [CmdType.cmdName]
  | noCmd => simp [CmdType.cmdName, negateCharacter]

/-- That no command has the name can be seen from the options. -/
theorem noHomonym_of_all (all : (params p).optionArray.entries.all (fun c =>
    match (params c).cmdType with
    | some (.cmd name) => name.bytes ≠ negateCharacter
    | _ => true) = true) : NoHomonym params p := by
  intro c listed name command
  have other := List.all_eq_true.mp all c listed
  rw [command] at other
  exact of_decide_eq_true other

variable [DecidableEq κ]

/-- The negations of a param that has another child besides are among the options the parser sees. -/
theorem mem_entries_iff (sound : SoundParams params) (ordinary : (params p).cmdType ≠ some .noCmd)
    {c : LibParam ⊕ κ} (negation : (params c).cmdType = some .noCmd) :
    c ∈ (params p).optionArray.entries ↔
      ordinaryChildren (registeredOf params) p ≠ [] ∧ c ∈ negations (registeredOf params) p := by
  have notOrdinary : isOrdinary (registeredOf params) c = false := by
    rw [← Bool.not_eq_true, isOrdinary_iff]
    exact not_not.mpr negation
  have child : c ∈ negations (registeredOf params) p ↔ c ∈ childrenOf (params p) := by
    rw [negations, List.mem_filter, notOrdinary]
    exact and_iff_left rfl
  rw [child]
  constructor
  · intro listed
    refine ⟨?_, ?_⟩
    · intro none
      rw [entries_ordinary sound ordinary, if_pos none] at listed
      cases listed
    · rcases mem_entries (sound.2 p) listed with capability | inside
      · obtain ⟨cmdType, typed, other⟩ := capability_typed sound.1 capability
        rw [negation] at typed
        exact absurd (Option.some.inj typed).symm other
      · exact inside
  · rintro ⟨some, inside⟩
    rw [entries_ordinary sound ordinary, if_neg some]
    exact List.mem_append_right _ inside

/-- What the call does if it succeeds. -/
theorem supportCmdNegation_cases (succeeds : params.supportCmdNegation steps p noParam choice = .ok params') :
    ∃ result, params.findMatchingParam (params p).optionArray negateCharacter choice = .ok result ∧
      ((∃ q, result = some q ∧ (params q).cmdType = some .noCmd) ∧ params' = params ∨
        (∀ q, result = some q → (params q).cmdType ≠ some .noCmd) ∧ params.installNegation p noParam =
          .ok params') := by
  rw [Params.supportCmdNegation] at succeeds
  split at succeeds
  · cases succeeds
  · split at succeeds
    · cases succeeds
    · split at succeeds
      · cases succeeds
      · next found =>
        refine ⟨none, found, .inr ⟨?_, succeeds⟩⟩
        intro q same
        cases same
      · next negateParam found =>
        split at succeeds
        · next negation =>
          cases succeeds
          exact ⟨_, found, .inl ⟨⟨negateParam, rfl, negation⟩, rfl⟩⟩
        · next other =>
          refine ⟨_, found, .inr ⟨?_, succeeds⟩⟩
          rintro q same
          cases same
          exact other

theorem installs_iff (sound : SoundParams params)
    (legal : Legal (registeredOf params) (.supportCmdNegation p noParam choice))
    (noHomonym : NoHomonym params p) (succeeds : params.supportCmdNegation steps p noParam choice = .ok params') :
    noParam ∈ childrenOf (params' p) ↔
      ordinaryChildren (registeredOf params) p = [] ∨ negations (registeredOf params) p = [] := by
  obtain ⟨known, ordinary, _⟩ := sound.1.parent_typed legal.1
  obtain ⟨result, found, outcome⟩ := supportCmdNegation_cases succeeds
  rw [findMatchingParam_tree sound] at found
  rcases outcome with ⟨⟨q, rfl, negation⟩, rfl⟩ | ⟨other, installed⟩
  · have listed := found_member found
    obtain ⟨some, among⟩ := (mem_entries_iff sound ordinary negation).mp listed
    have absent : noParam ∉ childrenOf (params' p) := fun inside => (sound.1.inner p noParam inside).1 legal.2
    refine iff_of_false absent ?_
    rintro (none | none)
    · exact some none
    · rw [none] at among
      cases among
  · have other' : p ≠ noParam := by
      rintro rfl
      exact known legal.2
    obtain ⟨_, same, _⟩ := installNegation_ok sound.2 other' installed
    have present : noParam ∈ childrenOf (params' p) := by
      change noParam ∈ (registeredOf params').children p
      rw [same, Registration.negate_children_installed]
      simp
    refine iff_of_true present ?_
    by_contra neither
    rw [not_or] at neither
    obtain ⟨c, among⟩ := List.exists_mem_of_ne_nil _ neither.2
    have negation : (params c).cmdType = some .noCmd := by
      have notOrdinary := (List.mem_filter.mp among).2
      rw [Bool.not_eq_true', ← Bool.not_eq_true, isOrdinary_iff] at notOrdinary
      exact not_not.mp notOrdinary
    have listed := (mem_entries_iff sound ordinary negation).mpr ⟨neither.1, among⟩
    obtain ⟨q, listed', named, rfl⟩ :=
      found_named found listed ((named_iff_noCmd sound noHomonym listed).mpr negation)
    exact other q rfl ((named_iff_noCmd sound noHomonym listed').mp named)

/-- A negation is installed unless there is one already, and something else besides. -/
theorem supportCmdNegation_installs_iff (run : LegalRun steps libcliParams calls params)
    (legal : Legal (registeredOf params) (.supportCmdNegation p noParam choice)) (noHomonym : NoHomonym params p)
    (succeeds : params.supportCmdNegation steps p noParam choice = .ok params') :
    noParam ∈ childrenOf (params' p) ↔ allUnder p calls = [] ∨ negations (registeredOf params) p = [] := by
  have sound := soundParams_run run soundParams_libcli
  rw [installs_iff sound legal noHomonym succeeds, ordinaryChildren_eq run (sound.1.parent_typed legal.1).2.1]

end

/-- A second negation is refused under `config`, and it is installed under `vlan`, where nothing
else is registered. -/
theorem vlan_secondNegations :
    (∃ params', vlanParams.supportCmdNegation 2 (.inl configHook) (.inr 4) 0 = .ok params' ∧
      .inr 4 ∉ childrenOf (params' (.inl configHook))) ∧
    ∃ params', vlanParams.supportCmdNegation 2 (.inr 0) (.inr 4) 0 = .ok params' ∧
    .inr 4 ∈ childrenOf (params' (.inr 0)) := by
  have isParent : LibParam.configHook ∈ accessible := by decide
  have config : Legal (registeredOf vlanParams) (.supportCmdNegation (.inl configHook) (.inr 4) 0) :=
    ⟨isParent, rfl⟩
  have vlan : Legal (registeredOf vlanParams) (.supportCmdNegation (.inr 0) (.inr 4) 0) :=
    ⟨⟨nofun, nofun⟩, rfl⟩
  constructor
  · refine ⟨_, rfl, ?_⟩
    rw [supportCmdNegation_installs_iff vlan_run config (noHomonym_of_all rfl) rfl, not_or]
    exact ⟨List.cons_ne_nil _ _, List.cons_ne_nil _ _⟩
  · refine ⟨_, rfl, ?_⟩
    rw [supportCmdNegation_installs_iff vlan_run vlan (noHomonym_of_all rfl) rfl]
    exact .inl rfl

end TcpServerLib.Soundness
