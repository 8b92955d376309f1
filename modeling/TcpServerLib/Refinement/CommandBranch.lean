import TcpServerLib.Refinement.CommandWalk

/-! # The branch of a command

A command that is found from the root stays in the branch of the hook it begins with, one level
deeper with each word that is no negation. So the loops that follow `parent` find the root.
-/

namespace TcpServerLib.Refinement

open Machine Model CommandTree

variable {ι : Type*} [DecidableEq ι] {tree : CommandTree ι} {outside : Outside} {h p c : ι}
  {tokens : List Token} {path : List ι} {asked asked' : ℕ}

/-- `p` is in the branch of the hook `h`, `level` steps below the root. -/
def Under (tree : CommandTree ι) (h p : ι) (level : ℕ) : Prop :=
  ∃ visited, tree.ancestry p = .ok visited ∧ visited.getLast? = some h ∧ visited.length = level

/-- A child is one level below its parent. -/
theorem under_child {level : ℕ} (under : Under tree h p level) (registered : (tree.param c).parent = some p) :
    Under tree h c (level + 1) := by
  obtain ⟨visited, climbed, top, length⟩ := under
  refine ⟨c :: visited, ?_, ?_, congrArg (· + 1) length⟩
  · rw [ancestry_parent registered, climbed]
    rfl
  · rw [List.getLast?_cons, top]
    rfl

/-- A hook is the first level of its own branch. -/
theorem under_hook (registered : (tree.param h).parent = some tree.root) : Under tree h h 1 := by
  refine ⟨[h], ?_, rfl, rfl⟩
  rw [ancestry_parent registered, ancestry_root]
  rfl

/-- The top is in no branch. -/
theorem not_under_top {level : ℕ} (top : (tree.param p).parent = none) : ¬ Under tree h p level := by
  rintro ⟨visited, climbed, last, _⟩
  by_cases root : p = tree.root
  · rw [root, ancestry_root] at climbed
    cases climbed
    cases last
  · rw [ancestry_top root top] at climbed
    cases climbed

/-- One level up, unless that is the root. -/
theorem under_parent {level : ℕ} {q : ι} (under : Under tree h p level)
    (registered : (tree.param p).parent = some q)
    (below : q ≠ tree.root) : ∃ upper, Under tree h q upper ∧ 1 ≤ upper ∧ upper + 1 = level := by
  obtain ⟨visited, climbed, top, length⟩ := under
  rw [ancestry_parent registered] at climbed
  cases above : tree.ancestry q with
  | error fault =>
    rw [above] at climbed
    cases climbed
  | ok visited' =>
    rw [above] at climbed
    cases climbed
    cases visited' with
    | nil =>
      have only := path_ancestry above
      cases upwards : (tree.param q).parent with
      | none =>
        rw [ancestry_top below upwards] at above
        cases above
      | some r =>
        rw [path_parent upwards] at only
        have last := congrArg List.getLast? only
        rw [List.getLast?_append, List.reverse_nil, List.getLast?_singleton, List.getLast?_singleton] at last
        cases last
        exact absurd rfl below
    | cons first others =>
      refine ⟨_, ⟨first :: others, above, ?_, rfl⟩, Nat.le_add_left 1 _, length⟩
      rwa [List.getLast?_cons_cons] at top

/-- Commands stay in the branch they have entered, below its hook. -/
theorem under_option {level : ℕ} (under : Under tree h p level) (positive : 1 ≤ level)
    (option : c ∈ (tree.param p).options) (ordinary : c ∉ controls tree) :
    ∃ lower, Under tree h c lower ∧ 2 ≤ lower ∧ lower ≤ level + 1 := by
  rcases tree.inner option with control | registered | ⟨negation, shared⟩ | ⟨rfl, _⟩
  · exact absurd control ordinary
  · exact ⟨level + 1, under_child under registered, Nat.succ_le_succ positive, Nat.le_refl _⟩
  · obtain ⟨q, registered, below⟩ := tree.negates negation
    obtain ⟨upper, above, positive', rfl⟩ := under_parent under registered below
    exact ⟨upper + 1, under_child above (shared.trans registered), Nat.succ_le_succ positive', Nat.le_succ _⟩
  · exact absurd under (not_under_top tree.doHook_top)

omit [DecidableEq ι] in
/-- A param that another follows is no control param. -/
theorem resolves_inner {token : Token} (resolves : Resolves tree outside asked p (token :: tokens) path asked') :
    p ∉ controls tree := by
  intro control
  cases resolves with
  | cons found =>
    rw [tree.barren p control] at found
    cases found

omit [DecidableEq ι] in
theorem resolves_options {token : Token}
    (resolves : Resolves tree outside asked p (token :: tokens) path asked') :
    (tree.param p).options ≠ [] := by
  cases resolves with
  | cons found =>
    intro barren
    exact absurd (barren ▸ findMatchingParam_mem found) List.not_mem_nil

/-- The last param of a command that counts: the one before a control param. -/
structure LandsOn (tree : CommandTree ι) (h : ι) (parent : Option ι) (p : ι) (path : List ι) (y : ι)
    (level : ℕ) :
    Prop where
  under : Under tree h y level
  ordinary : endOf p path ∉ controls tree → y = endOf p path ∧ 2 ≤ level
  control : endOf p path ∈ controls tree → lastParent parent p path = some y

/-- A path from inside a branch lands inside it. -/
theorem resolves_under {level : ℕ} (resolves : Resolves tree outside asked p tokens path asked')
    (under : Under tree h p level) (positive : 1 ≤ level) (nonempty : tokens ≠ []) (parent : Option ι) :
    ∃ y lower, LandsOn tree h parent p path y lower ∧ lower ≤ level + tokens.length := by
  induction resolves generalizing level parent with
  | nil => exact absurd rfl nonempty
  | @cons asked between asked' p c token tokens path found accepts rest ih =>
    have ends : endOf p (c :: path) = endOf c path := List.getLastD_cons ..
    by_cases control : c ∈ controls tree
    · cases rest with
      | nil =>
        exact ⟨p, level, ⟨under, fun other => absurd control other, fun _ => rfl⟩, Nat.le_add_right _ _⟩
      | cons found' =>
        rw [tree.barren c control] at found'
        cases found'
    · obtain ⟨lower, deeper, second, bounded⟩ :=
        under_option under positive (findMatchingParam_mem found) control
      rw [List.length_cons]
      by_cases last : tokens = []
      · subst last
        cases rest
        exact ⟨c, lower, ⟨deeper, fun _ => ⟨rfl, second⟩, fun other =>
          absurd other control⟩, by omega⟩
      · obtain ⟨y, lowest, lands, bounded'⟩ := ih deeper (Nat.le_of_succ_le second) last (some p)
        exact ⟨y, lowest, ⟨lands.under, ends ▸ lands.ordinary, ends ▸ lands.control⟩, by omega⟩

theorem hook_of_root (option : h ∈ (tree.param tree.root).options) (ordinary : h ∉ controls tree) :
    Under tree h h 1 := by
  refine under_hook ?_
  rcases tree.inner option with control | registered | ⟨negation, _⟩ | ⟨same, _⟩
  · exact absurd control ordinary
  · exact registered
  · obtain ⟨name, command⟩ := tree.named tree.root List.mem_cons_self
    cases command.symm.trans negation
  · have apart := tree.apart
    rw [List.nodup_cons, same] at apart
    exact absurd List.mem_cons_self apart.1

theorem under_below {level : ℕ} (under : Under tree h p level) : p ≠ tree.root := by
  rintro rfl
  exact not_under_top tree.root_top under

/-- The console name can be put together while the mode is not too deep. -/
theorem buildModeConsoleName_under {level : ℕ} (under : Under tree h p level)
    (shallow : level ≤ maxCmdTreeDepth) :
    tree.buildModeConsoleName p = .ok () := by
  have below := under_below under
  obtain ⟨visited, climbed, _, rfl⟩ := under
  rw [buildModeConsoleName, if_neg below, climbed]
  exact if_pos shallow

/-- The hook that the code finds is the one of the branch. -/
theorem getCurrentBranchHook_under {level : ℕ} (under : Under tree h p level) :
    tree.getCurrentBranchHook p = .ok h := by
  have below := under_below under
  obtain ⟨visited, climbed, top, _⟩ := under
  rw [getCurrentBranchHook, if_neg below, climbed]
  dsimp only
  rw [List.getLastD_eq_getLast?, top]
  rfl

/-- A command of several tokens ends below the hook it begins with. -/
theorem command_branch (several : 2 ≤ tokens.length)
    (resolves : Resolves tree outside asked tree.root tokens path asked')
    (parent : Option ι) : ∃ h y level, path.head? = some h ∧ LandsOn tree h parent tree.root path y level ∧
      level ≤ tokens.length := by
  cases resolves with
  | nil => exact absurd several (Nat.not_succ_le_zero 1)
  | @cons _ between _ _ c token tokens path found accepts rest =>
    have ends : endOf tree.root (c :: path) = endOf c path := List.getLastD_cons ..
    have more : tokens ≠ [] := by
      rintro rfl
      exact absurd several (Nat.lt_irrefl 1)
    obtain ⟨second, others, rfl⟩ := List.exists_cons_of_ne_nil more
    have under := hook_of_root (findMatchingParam_mem found) (resolves_inner rest)
    obtain ⟨y, level, lands, bounded⟩ := resolves_under rest under (Nat.le_refl 1) more (some tree.root)
    refine ⟨c, y, level, rfl, ⟨lands.under, ends ▸ lands.ordinary, ends ▸ lands.control⟩, ?_⟩
    rw [List.length_cons]
    omega

/-- Where a command of any length ends, if not at a control param. -/
theorem command_lands (nonempty : tokens ≠ [])
    (resolves : Resolves tree outside asked tree.root tokens path asked')
    (ordinary : endOf tree.root path ∉ controls tree) :
    ∃ h level, Under tree h (endOf tree.root path) level ∧ level ≤ tokens.length := by
  cases resolves with
  | nil => exact absurd rfl nonempty
  | @cons _ between _ _ c token tokens path found accepts rest =>
    have ends : endOf tree.root (c :: path) = endOf c path := List.getLastD_cons ..
    rw [ends] at ordinary ⊢
    by_cases last : tokens = []
    · subst last
      cases rest
      exact ⟨c, 1, hook_of_root (findMatchingParam_mem found) ordinary, Nat.le_refl 1⟩
    · obtain ⟨second, others, rfl⟩ := List.exists_cons_of_ne_nil last
      have under := hook_of_root (findMatchingParam_mem found) (resolves_inner rest)
      obtain ⟨y, level, lands, bounded⟩ := resolves_under rest under (Nat.le_refl 1) last none
      refine ⟨c, level, (lands.ordinary ordinary).1 ▸ lands.under, ?_⟩
      rw [List.length_cons]
      omega

omit [DecidableEq ι] in
/-- Paths compose. -/
theorem Resolves.append {between : ℕ} {tokens' : List Token} {path' : List ι}
    (first : Resolves tree outside asked p tokens path between)
    (second : Resolves tree outside between (endOf p path) tokens' path' asked') :
    Resolves tree outside asked p (tokens ++ tokens') (path ++ path') asked' := by
  induction first with
  | nil => exact second
  | @cons asked _ _ p c token tokens path found accepts rest ih =>
    have ends : endOf p (c :: path) = endOf c path := List.getLastD_cons ..
    rw [ends] at second
    exact .cons found accepts (ih second)

omit [DecidableEq ι] in
/-- Every token takes one step. -/
theorem Resolves.length (resolves : Resolves tree outside asked p tokens path asked') :
    path.length = tokens.length := by
  induction resolves with
  | nil => rfl
  | cons _ _ _ ih => rw [List.length_cons, List.length_cons, ih]

omit [DecidableEq ι] in
/-- The TLVs of what was typed compose with the path. -/
theorem typedTlvs_append {tokens' : List Token} {path' : List ι} (length : path.length = tokens.length) :
    typedTlvs tree (path ++ path') (tokens ++ tokens') = typedTlvs tree path tokens ++ typedTlvs
    tree path' tokens' := by
  induction path generalizing tokens with
  | nil =>
    cases tokens with
    | nil => rfl
    | cons => cases length
  | cons p path ih =>
    cases tokens with
    | nil => cases length
    | cons token tokens =>
      rw [List.cons_append, List.cons_append, typedTlvs, typedTlvs, ih (Nat.succ.inj length)]
      split <;> rfl

omit [DecidableEq ι] in
theorem endOf_append (p : ι) (path path' : List ι) : endOf p (path ++ path') = endOf (endOf p path) path' := by
  rw [endOf, endOf, endOf, List.getLastD_eq_getLast?, List.getLastD_eq_getLast?, List.getLastD_eq_getLast?,
    List.getLast?_append]
  cases path'.getLast? <;> rfl

omit [DecidableEq ι] in
/-- The parent of the last param does not depend on what came before its own path. -/
theorem lastParent_append {parent : Option ι} (parent' : Option ι) {path' : List ι} (nonempty : path' ≠ []) :
    lastParent parent p (path ++ path') = lastParent parent' (endOf p path) path' := by
  induction path generalizing parent p with
  | nil =>
    obtain ⟨c, rest, rfl⟩ := List.exists_cons_of_ne_nil nonempty
    rfl
  | cons c path ih =>
    have ends : endOf p (c :: path) = endOf c path := List.getLastD_cons ..
    rw [List.cons_append, lastParent, ends]
    exact ih

end TcpServerLib.Refinement
