import TcpServerLib.Model.Application
import TcpServerLib.Model.OptionArray

/-! # What a name is resolved to

The command that is called as the token wins over all that only begin with it, and a leaf is what is
left when no command begins with it. The lookup gets that far if the possibilities fit their table,
and if it meets a null pointer or the command itself before the end of the array.
-/

namespace TcpServerLib.Soundness

open Machine Model CommandTree

variable {ι : Type*} {tree : CommandTree ι} {cmdName : Bytes} {p : ι}

/-- The command is called as the token. -/
def Named (tree : CommandTree ι) (cmdName : Bytes) (p : ι) : Prop :=
  (tree.param p).cmdType.cmdName = some cmdName

/-- The name of the command begins with the token. -/
def Candidate (tree : CommandTree ι) (cmdName : Bytes) (p : ι) : Prop :=
  ∃ name, (tree.param p).cmdType.cmdName = some name ∧ begins name cmdName = true

/-- A leaf has no name. -/
def Nameless (tree : CommandTree ι) (p : ι) : Prop :=
  (tree.param p).cmdType.cmdName = none

instance : DecidablePred (Named tree cmdName) := fun _ => inferInstanceAs (Decidable (_ = _))

instance : DecidablePred (Nameless tree) := fun _ => inferInstanceAs (Decidable (_ = _))

instance : DecidablePred (Candidate tree cmdName) := fun p =>
  match called : (tree.param p).cmdType.cmdName with
  | none => .isFalse fun ⟨_, named, _⟩ => by cases called.symm.trans named
  | some name =>
    if begun : begins name cmdName then .isTrue ⟨name, called, begun⟩
    else .isFalse fun ⟨_, named, begun'⟩ => begun (Option.some.inj (called.symm.trans named) ▸ begun')

/-- What `libcli_register_param` and the application see to. -/
structure Registered (tree : CommandTree ι) (options : OptionArray ι) : Prop where
  distinct : (options.entries.filterMap fun p => (tree.param p).cmdType.cmdName).Nodup
  oneLeaf : (options.entries.filter (Nameless tree ·)).length ≤ 1

/-- The command a token stands for. A choice that is none of the candidates is no command. -/
structure StandsFor (tree : CommandTree ι) (options : List ι) (cmdName : Bytes) (choice : ℤ)
    (result : Option ι) : Prop where
  exact : ∀ p ∈ options, Named tree cmdName p → result = some p
  only : (∀ p ∈ options, ¬ Named tree cmdName p) → ∀ p, options.filter (Candidate tree cmdName ·) =
    [p] → result = some p
  leaf : (∀ p ∈ options, ¬ Candidate tree cmdName p) → ∀ p ∈ options, Nameless tree p →
  result = some p
  neither : (∀ p ∈ options, ¬ Candidate tree cmdName p ∧ ¬ Nameless tree p) → result = none
  chosen : (∀ p ∈ options, ¬ Named tree cmdName p) →
  2 ≤ (options.filter (Candidate tree cmdName ·)).length →
    result = if choice < 0 then none else (options.filter (Candidate tree cmdName ·))[choice.toNat]?

/-- The options before the command that is called as the token. -/
def passed (tree : CommandTree ι) (cmdName : Bytes) (options : List ι) : List ι :=
  options.takeWhile (¬ Named tree cmdName ·)

/-- Nine possibilities at most are passed, and the end of a full array is not. -/
def Roomy (tree : CommandTree ι) (cmdName : Bytes) (options : List ι) : Prop :=
  ((passed tree cmdName options).filter (Candidate tree cmdName ·)).length < possibilityArraySize ∧
    (options.length < maxOptionSize ∨ ∃ p ∈ options, Named tree cmdName p)

theorem named_candidate (named : Named tree cmdName p) : Candidate tree cmdName p :=
  ⟨cmdName, named, List.isPrefixOf_iff_prefix.mpr (List.prefix_refl cmdName)⟩

theorem named_iff_length {name : Bytes} (called : (tree.param p).cmdType.cmdName = some name)
    (begun : begins name cmdName = true) : Named tree cmdName p ↔ cmdName.length = name.length := by
  have start : cmdName <+: name := List.isPrefixOf_iff_prefix.mp begun
  rw [Named, called, Option.some_inj]
  constructor
  · rintro rfl
    rfl
  · intro same
    exact (start.eq_of_length same).symm

/-- The leaf that the loop remembers. -/
def lastLeaf (tree : CommandTree ι) (leaf : Option ι) (options : List ι) : Option ι :=
  options.foldl (fun leaf p => if Nameless tree p then some p else leaf) leaf

/-- The loop, by what it passes and by how it ends. -/
theorem searchOptions_eq (options : List ι) (i : ℕ) (leaf : Option ι) {possibilities : List ι}
    (few : possibilities.length < possibilityArraySize) :
    tree.searchOptions cmdName i options leaf possibilities =
      if possibilities.length + ((passed tree cmdName options).filter (Candidate tree cmdName ·)).length <
        possibilityArraySize then
        match options.find? (Named tree cmdName ·) with
        | some p => .ok (lastLeaf tree leaf (passed tree cmdName options), [p])
        | none =>
          if i + options.length < maxOptionSize then
            .ok (lastLeaf tree leaf options, possibilities ++ options.filter (Candidate tree cmdName ·))
          else .error .outOfBounds
      else .error .assertion := by
  induction options generalizing i leaf possibilities with
  | nil => simp [searchOptions, passed, lastLeaf, few]
  | cons p options ih =>
    have further : i + 1 + options.length = i + (p :: options).length := by rw [List.length_cons]; omega
    cases called : (tree.param p).cmdType.cmdName with
    | none =>
      have other : ¬ Named tree cmdName p := fun named => by cases called.symm.trans named
      have noCandidate : ¬ Candidate tree cmdName p := by
        rintro ⟨_, named, _⟩
        cases called.symm.trans named
      have nameless : Nameless tree p := called
      rw [searchOptions, called]
      dsimp only
      rw [ih (i + 1) (some p) few]
      simp [passed, lastLeaf, other, noCandidate, nameless, further]
    | some name =>
      have nameless : ¬ Nameless tree p := fun none => by cases called.symm.trans none
      rw [searchOptions, called]
      dsimp only
      by_cases begun : begins name cmdName = true
      · have candidate : Candidate tree cmdName p := ⟨name, called, begun⟩
        rw [if_pos begun]
        by_cases same : cmdName.length = name.length
        · have named := (named_iff_length called begun).mpr same
          rw [if_pos same]
          simp [passed, lastLeaf, named, few]
        · have other : ¬ Named tree cmdName p := fun named => same ((named_iff_length called begun).mp named)
          rw [if_neg same]
          split
          · next fewer =>
            rw [ih (i + 1) leaf (by rwa [List.length_append, List.length_singleton])]
            simp [passed, lastLeaf, other, candidate, nameless, further, Nat.add_assoc, Nat.add_comm 1]
          · next full =>
            have more : ¬ possibilities.length +
                ((passed tree cmdName (p :: options)).filter (Candidate tree cmdName ·)).length <
                possibilityArraySize := by
              simp [passed, other, candidate]
              omega
            rw [if_neg more]
      · have noCandidate : ¬ Candidate tree cmdName p := by
          rintro ⟨name', called', begun'⟩
          exact begun (Option.some.inj (called.symm.trans called') ▸ begun')
        have other : ¬ Named tree cmdName p := fun named => noCandidate (named_candidate named)
        rw [if_neg begun, ih (i + 1) leaf few]
        simp [passed, lastLeaf, other, noCandidate, nameless, further]

theorem lastLeaf_eq (leaf : Option ι) (options : List ι) :
    lastLeaf tree leaf options = (options.filter (Nameless tree ·)).getLast?.or leaf := by
  induction options generalizing leaf with
  | nil => rfl
  | cons p options ih =>
    rw [lastLeaf, List.foldl_cons]
    by_cases nameless : Nameless tree p
    · rw [if_pos nameless, List.filter_cons_of_pos (by simpa using nameless), List.getLast?_cons]
      refine (ih (some p)).trans ?_
      cases (options.filter (Nameless tree ·)).getLast? <;> rfl
    · rw [if_neg nameless, List.filter_cons_of_neg (by simpa using nameless)]
      exact ih leaf

theorem named_unique {options : List ι}
    (distinct : (options.filterMap fun p => (tree.param p).cmdType.cmdName).Nodup) {q : ι}
    (left : p ∈ options) (right : q ∈ options) (named : Named tree cmdName p)
    (named' : Named tree cmdName q) : p = q := by
  have listed {r : ι} {options : List ι} (member : r ∈ options) (called : Named tree cmdName r) :
      cmdName ∈ options.filterMap fun p => (tree.param p).cmdType.cmdName :=
    List.mem_filterMap.mpr ⟨r, member, called⟩
  induction options with
  | nil => cases left
  | cons r options ih =>
    cases called : (tree.param r).cmdType.cmdName with
    | none =>
      rw [List.filterMap_cons_none (f := fun p => (tree.param p).cmdType.cmdName) called] at distinct
      have apart {s : ι} (name : Named tree cmdName s) : s ≠ r := by
        rintro rfl
        cases called.symm.trans name
      exact ih distinct (List.mem_of_ne_of_mem (apart named) left) (List.mem_of_ne_of_mem (apart named') right)
    | some name =>
      rw [List.filterMap_cons_some (f := fun p => (tree.param p).cmdType.cmdName) called,
        List.nodup_cons] at distinct
      rcases List.mem_cons.mp left with rfl | below
      · rcases List.mem_cons.mp right with rfl | below
        · rfl
        · cases called.symm.trans named
          exact absurd (listed below named') distinct.1
      · rcases List.mem_cons.mp right with rfl | below'
        · cases called.symm.trans named'
          exact absurd (listed below named) distinct.1
        · exact ih distinct.2 below below'

variable {options : OptionArray ι} {choice : ℤ}

theorem empty : ([] : List ι).length < possibilityArraySize := Nat.zero_lt_succ 9

theorem roomy_of_found {result : Option ι} (found : options.findMatchingParam tree cmdName choice = .ok result) :
    Roomy tree cmdName options.entries := by
  rw [OptionArray.findMatchingParam, searchOptions_eq _ _ _ empty] at found
  by_cases few : ([] : List ι).length +
    ((passed tree cmdName options.entries).filter (Candidate tree cmdName ·)).length <
      possibilityArraySize
  · rw [if_pos few] at found
    rw [List.length_nil, Nat.zero_add] at few
    refine ⟨few, ?_⟩
    cases sought : options.entries.find? (Named tree cmdName ·) with
    | some p => exact .inr ⟨p, List.mem_of_find?_eq_some sought, by simpa using List.find?_some sought⟩
    | none =>
      rw [sought] at found
      dsimp only at found
      by_cases inside : 0 + options.entries.length < maxOptionSize
      · exact .inl (by omega)
      · rw [if_neg inside] at found
        cases found
  · rw [if_neg few] at found
    cases found

/-- A command that is called as the token is found, wherever it stands. -/
theorem finds_named (registered : Registered tree options) (roomy : Roomy tree cmdName options.entries)
    (member : p ∈ options.entries) (named : Named tree cmdName p) :
    options.findMatchingParam tree cmdName choice = .ok (some p) := by
  have few : ([] : List ι).length +
      ((passed tree cmdName options.entries).filter (Candidate tree cmdName ·)).length <
      possibilityArraySize := by rw [List.length_nil, Nat.zero_add]; exact roomy.1
  rw [OptionArray.findMatchingParam, searchOptions_eq _ _ _ empty, if_pos few]
  cases sought : options.entries.find? (Named tree cmdName ·) with
  | none => exact absurd named (by simpa using List.find?_eq_none.mp sought p member)
  | some q =>
    have same := named_unique registered.distinct member (List.mem_of_find?_eq_some sought) named
      (by simpa using List.find?_some sought)
    rw [same]

/-- Without such a command, the lookup goes by what it has collected. -/
theorem finds_candidates (roomy : Roomy tree cmdName options.entries)
    (none : ∀ p ∈ options.entries, ¬ Named tree cmdName p) :
    options.findMatchingParam tree cmdName choice =
      match options.entries.filter (Candidate tree cmdName ·) with
      | [] => .ok (options.entries.filter (Nameless tree ·)).getLast?
      | [p] => .ok (some p)
      | candidates => if choice < 0 then .ok Option.none else .ok candidates[choice.toNat]? := by
  have all : passed tree cmdName options.entries = options.entries :=
    List.takeWhile_eq_self_iff.mpr fun p member => by simpa using none p member
  have inside : options.entries.length < maxOptionSize := by
    refine roomy.2.resolve_right ?_
    rintro ⟨p, member, named⟩
    exact none p member named
  have few : ([] : List ι).length +
      ((passed tree cmdName options.entries).filter (Candidate tree cmdName ·)).length <
      possibilityArraySize := by rw [List.length_nil, Nat.zero_add]; exact roomy.1
  have absent : options.entries.find? (Named tree cmdName ·) = Option.none :=
    List.find?_eq_none.mpr fun p member => by simpa using none p member
  rw [OptionArray.findMatchingParam, searchOptions_eq _ _ _ empty, if_pos few, absent]
  dsimp only
  rw [if_pos (by rwa [Nat.zero_add]), lastLeaf_eq, List.nil_append, Option.or_none]
  rcases options.entries.filter (Candidate tree cmdName ·) with _ | ⟨p, _ | ⟨q, others⟩⟩ <;> rfl

section

variable {options : List ι} {result : Option ι}

theorem standsFor_leaf (oneLeaf : (options.filter (Nameless tree ·)).length ≤ 1)
    (none : options.filter (Candidate tree cmdName ·) = []) :
    StandsFor tree options cmdName choice (options.filter (Nameless tree ·)).getLast? := by
  have noCandidate : ∀ p ∈ options, ¬ Candidate tree cmdName p := fun p member => by
    simpa using List.filter_eq_nil_iff.mp none p member
  constructor
  · intro p member named
    exact absurd (named_candidate named) (noCandidate p member)
  · intro _ p single
    cases none.symm.trans single
  · intro _ p member nameless
    have listed : p ∈ options.filter (Nameless tree ·) :=
      List.mem_filter.mpr ⟨member, by simpa using nameless⟩
    match leaves : options.filter (Nameless tree ·) with
    | [] =>
      rw [leaves] at listed
      cases listed
    | [q] =>
      rw [leaves, List.mem_singleton] at listed
      rw [listed]
      rfl
    | q :: r :: more =>
      rw [leaves, List.length_cons, List.length_cons] at oneLeaf
      omega
  · intro neither
    have noLeaves : options.filter (Nameless tree ·) = [] :=
      List.filter_eq_nil_iff.mpr fun p member => by simpa using (neither p member).2
    rw [noLeaves]
    rfl
  · intro _ several
    rw [none, List.length_nil] at several
    omega

/-- Only the candidates matter if there are any. -/
theorem standsFor_candidates (none : ∀ p ∈ options, ¬ Named tree cmdName p)
    (member : p ∈ options.filter (Candidate tree cmdName ·))
    (only : ∀ q, options.filter (Candidate tree cmdName ·) = [q] → result = some q)
    (chosen : 2 ≤ (options.filter (Candidate tree cmdName ·)).length →
      result = if choice < 0 then Option.none else (options.filter (Candidate tree cmdName ·))[choice.toNat]?) :
    StandsFor tree options cmdName choice result := by
  obtain ⟨listed, candidate⟩ := List.mem_filter.mp member
  have candidate : Candidate tree cmdName p := by simpa using candidate
  constructor
  · intro q member named
    exact absurd named (none q member)
  · intro _ q single
    exact only q single
  · intro noCandidates
    exact absurd candidate (noCandidates p listed)
  · intro neither
    exact absurd candidate (neither p listed).1
  · intro _ several
    exact chosen several

theorem standsFor_named (distinct : (options.filterMap fun p => (tree.param p).cmdType.cmdName).Nodup)
    (member : p ∈ options)
    (named : Named tree cmdName p) : StandsFor tree options cmdName choice (some p) := by
  have candidate := named_candidate named
  constructor
  · intro q member' named'
    rw [named_unique distinct member member' named named']
  · intro none
    exact absurd named (none p member)
  · intro none
    exact absurd candidate (none p member)
  · intro none
    exact absurd candidate (none p member).1
  · intro none
    exact absurd named (none p member)

end

theorem standsFor_of_roomy (registered : Registered tree options) (roomy : Roomy tree cmdName options.entries) :
    ∃ result, options.findMatchingParam tree cmdName choice = .ok result ∧
      StandsFor tree options.entries cmdName choice result := by
  by_cases present : ∃ p ∈ options.entries, Named tree cmdName p
  · obtain ⟨p, member, named⟩ := present
    exact ⟨some p, finds_named registered roomy member named,
      standsFor_named registered.distinct member named⟩
  · have none : ∀ p ∈ options.entries, ¬ Named tree cmdName p :=
      fun p member named => present ⟨p, member, named⟩
    rw [finds_candidates roomy none]
    match candidates : options.entries.filter (Candidate tree cmdName ·) with
    | [] => exact ⟨_, rfl, standsFor_leaf registered.oneLeaf candidates⟩
    | [p] =>
      refine ⟨some p, rfl, standsFor_candidates none (candidates ▸ List.mem_cons_self : p ∈ _) ?_ ?_⟩
      · intro q single
        cases candidates.symm.trans single
        rfl
      · intro several
        rw [candidates, List.length_singleton] at several
        omega
    | p :: q :: others =>
      refine ⟨if choice < 0 then Option.none else (p :: q :: others)[choice.toNat]?, ?_,
        standsFor_candidates none (candidates ▸ List.mem_cons_self : p ∈ _) ?_ ?_⟩
      · split_ifs <;> rfl
      · intro r single
        cases candidates.symm.trans single
      · intro _
        rw [candidates]

/-- Every name is resolved if and only if the table and the array have room. -/
theorem standsFor_iff_roomy (registered : Registered tree options) :
    (∃ result, options.findMatchingParam tree cmdName choice = .ok result ∧
      StandsFor tree options.entries cmdName choice result) ↔ Roomy tree cmdName options.entries := by
  constructor
  · rintro ⟨result, found, _⟩
    exact roomy_of_found found
  · exact standsFor_of_roomy registered

/-- `sh` is one of the library's commands. -/
theorem standsFor_show : ∃ options : OptionArray LibParam, Registered initLibcli options ∧
    ∃ result, options.findMatchingParam initLibcli (ascii ['s', 'h']) 0 = .ok result ∧
      StandsFor initLibcli options.entries (ascii ['s', 'h']) 0 result := by
  have registered : Registered initLibcli ⟨(LibParam.param .root).options, by decide⟩ :=
    ⟨by decide, by decide⟩
  exact ⟨_, registered, (standsFor_iff_roomy registered).mpr ⟨by decide, by decide⟩⟩

/-- An application with as many commands under `clear` as there is room for. -/
def crowded : Application (Fin 13) where
  param k :=
    { cmdType := .cmd ⟨[UInt8.ofNat (97 + k)], Nat.lt_add_of_pos_left (by decide), by revert k; decide⟩
      callback := some .application
      parent := some (.inl .clearHook) }
  children p := if p = .clearHook then List.finRange 13 else []
  depth _ := 2
  registered p k child := by
    split at child
    · next clear => rw [clear]
    · cases child
  childless := by decide
  hooked p parent := by
    split at parent
    · next clear =>
      rw [clear]
      decide
    · exact absurd rfl parent
  descends := by
    rintro k q ⟨⟩
    rfl
  inner _ _ := by simp
  negates _ := by simp
  capabilities _ none := absurd rfl none
  callbacks _ := List.mem_cons_of_mem _ List.mem_cons_self

/-- The lookup of a word that is no command runs over the end of a full array. -/
theorem fullArray_overrun : ¬ ∀ (κ : Type) (tree : CommandTree κ) (options : OptionArray κ)
    (cmdName : Bytes) (choice : ℤ),
    Registered tree options → cmdName ≠ [] → ∃ result, options.findMatchingParam tree cmdName choice =
      .ok result ∧ StandsFor tree options.entries cmdName choice result := by
  intro always
  obtain ⟨result, found, _⟩ :=
    always _ crowded.tree ⟨(crowded.tree.param crowded.tree.clearHook).options, by decide⟩
    (ascii ['z']) 0 ⟨by decide, by decide⟩ nofun
  cases found

end TcpServerLib.Soundness
