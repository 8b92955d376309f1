import TcpServerLib.Refinement.CommandBranch
import TcpServerLib.Refinement.CommandBuild

/-! # Commands outside a branch

A command that begins outside the branch of a hook, and not at the root, never comes into it: the
options of a param stay in its branch, and the `do` hook leads to three branches only. So no leaf of
the branch gets another value.
-/

namespace TcpServerLib.Refinement

open Machine Model CommandTree

variable {ι : Type*} [DecidableEq ι] {tree : CommandTree ι} {outside : Outside} {h h' p c r : ι}
  {level level' : ℕ}
  {tokens : List Token} {parent : Option ι} {mode : OpMode} {cli middle after : Cli ι}

/-- Branches do not meet. -/
theorem under_unique (left : Under tree h p level) (right : Under tree h' p level') : h = h' := by
  have first := getCurrentBranchHook_under left
  rw [getCurrentBranchHook_under right] at first
  exact (Except.ok.inj first).symm

/-- All that is above a param of a branch is in the branch, the root apart. -/
theorem under_path (under : Under tree h p level) (above : r ∈ path tree p) (below : r ≠ tree.root) :
    ∃ upper, Under tree h r upper := by
  induction p using parent_induction tree generalizing level with
  | top p top => exact absurd under (not_under_top top)
  | child p q registered ih =>
    rw [path_parent registered, List.mem_append, List.mem_singleton] at above
    rcases above with higher | same
    · by_cases root : q = tree.root
      · rw [root, path_top tree.root_top, List.mem_singleton] at higher
        exact absurd higher below
      · obtain ⟨upper, deeper, _⟩ := under_parent under registered root
        exact ih deeper higher
    · exact ⟨level, same ▸ under⟩

theorem under_leafPath (under : Under tree h p level) (member : r ∈ leafPath tree p) :
    ∃ upper, Under tree h r upper := by
  rw [leafPath, List.mem_filter] at member
  refine under_path under member.1 ?_
  rintro rfl
  cases (isLeaf_named List.mem_cons_self).symm.trans member.2

/-- `p` is not in the branch of `h`, nor is it where the branches begin. -/
structure ApartFrom (tree : CommandTree ι) (h p : ι) : Prop where
  below : p ≠ tree.root
  apart : ∀ level, ¬ Under tree h p level

theorem apartFrom_doHook (tree : CommandTree ι) (h : ι) : ApartFrom tree h tree.doHook where
  below same := by
    have apart := tree.apart
    rw [List.nodup_cons, same] at apart
    exact apart.1 List.mem_cons_self
  apart _ := not_under_top tree.doHook_top

theorem ApartFrom.ne_hook (apart : ApartFrom tree h p) (hook : (tree.param h).parent = some tree.root) :
    p ≠ h := by
  rintro rfl
  exact apart.apart 1 (under_hook hook)

/-- The hooks that `do` leads to. -/
def doBranches (tree : CommandTree ι) : List ι :=
  [tree.showHook, tree.debugHook, tree.clearHook]

/-- The options of a param apart from a branch are apart from it. -/
theorem ApartFrom.option (apart : ApartFrom tree h p) (other : h ∉ doBranches tree)
    (option : c ∈ (tree.param p).options) (ordinary : c ∉ controls tree) : ApartFrom tree h c := by
  refine ⟨ne_root_of_option option ordinary, fun level under => ?_⟩
  rcases tree.inner option with control | registered | ⟨negation, shared⟩ | ⟨_, hook⟩
  · exact ordinary control
  · obtain ⟨upper, deeper, _⟩ := under_parent under registered apart.below
    exact apart.apart upper deeper
  · obtain ⟨q, registered, below⟩ := tree.negates negation
    obtain ⟨upper, deeper, _⟩ := under_parent under (shared.trans registered) below
    exact apart.apart (upper + 1) (under_child deeper registered)
  · have top : Under tree c c 1 := under_hook (tree.hooks c (by
      simp only [List.mem_cons, List.not_mem_nil, or_false] at hook ⊢
      tauto))
    rw [under_unique under top] at other
    exact other hook

/-- The leaves of the branch hold what they held. -/
def ValuesKept (tree : CommandTree ι) (h : ι) (cli after : Cli ι) : Prop :=
  ∀ r level, Under tree h r level → after.valueHolder r = cli.valueHolder r

/-- The leaves of a cursor in the branch keep their data. -/
theorem ValuesKept.leavesData (kept : ValuesKept tree h cli after) (under : Under tree h cli.cursor level)
    (cursor : after.cursor = cli.cursor) : leavesData tree after = leavesData tree cli := by
  have same : ∀ r ∈ leafPath tree cli.cursor, after.valueHolder r = cli.valueHolder r := by
    intro r member
    obtain ⟨upper, above⟩ := under_leafPath under member
    exact kept r upper above
  rw [Refinement.leavesData, Refinement.leavesData, cursor, tlvOf_congr same]

/-- Where a walk that stays outside the branch has come to. -/
def WalkApart (tree : CommandTree ι) (h : ι) (cli : Cli ι) : Walked ι → Prop
  | .stopped _ after => ValuesKept tree h cli after
  | .arrived parent p _ after =>
    ValuesKept tree h cli after ∧ (p ∈ controls tree ∨ ApartFrom tree h p) ∧ ∀ q, parent = some q →
      ApartFrom tree h q

theorem WalkApart.goOn {walked : Walked ι} (first : ValuesKept tree h cli middle)
    (goesOn : WalkApart tree h middle walked) :
    WalkApart tree h cli walked := by
  cases walked with
  | stopped status after => exact fun r level under => (goesOn r level under).trans (first r level under)
  | arrived parent p mode after =>
    exact ⟨fun r level under => (goesOn.1 r level under).trans (first r level under), goesOn.2⟩

/-- A walk that starts apart from the branch stays so, and keeps its values. -/
theorem walk_apart {walked : Walked ι} (walks : tree.walk outside tokens parent p mode cli = .ok walked)
    (other : h ∉ doBranches tree) (start : p ∈ controls tree ∨ ApartFrom tree h p)
    (before : ∀ q, parent = some q → ApartFrom tree h q) : WalkApart tree h cli walked := by
  induction tokens generalizing parent p mode cli with
  | nil =>
    cases walks
    exact ⟨fun _ _ _ => rfl, start, before⟩
  | cons token tokens ih =>
    rw [walk] at walks
    split at walks
    · cases walks
    · cases walks
      exact fun _ _ _ => rfl
    · next c asked found =>
      have option := findMatchingParam_mem found
      have here : ApartFrom tree h p := by
        rcases start with control | apart
        · rw [tree.barren p control] at option
          exact absurd option List.not_mem_nil
        · exact apart
      have above : ∀ q, some p = some q → ApartFrom tree h q := by
        rintro q ⟨⟩
        exact here
      have there : c ∈ controls tree ∨ ApartFrom tree h c := by
        by_cases control : c ∈ controls tree
        · exact .inl control
        · exact .inr (here.option other option control)
      split at walks
      · next leaf =>
        split at walks
        · cases walks
        · cases walks
          exact fun _ _ _ => rfl
        · split at walks
          · have later := ih walks there above
            refine WalkApart.goOn (fun r level under => Function.update_of_ne ?_ _ _) later
            -- A leaf is no control param, so it is outside the branch.
            rintro rfl
            rcases there with control | apart
            · obtain ⟨name, command⟩ := tree.named r (named_of_control control)
              cases command.symm.trans leaf
            · exact apart.apart level under
          · cases walks
            exact fun _ _ _ => rfl
      · have later := ih walks there above
        exact WalkApart.goOn (fun _ _ _ => rfl) later
      · have later := ih walks there above
        exact WalkApart.goOn (fun _ _ _ => rfl) later

theorem modeEnterCallback_values {call : Call ι}
    (entered : tree.modeEnterCallback p mode cli = .ok (after, call)) :
    after.valueHolder = cli.valueHolder ∧ ∀ q mode', call = some (q, mode') → q = p := by
  rw [modeEnterCallback] at entered
  split at entered
  · cases entered
    exact ⟨rfl, by simp⟩
  · split at entered
    · cases entered
    · cases entered
      refine ⟨rfl, fun q mode' called => ?_⟩
      split at called
      · cases called
        rfl
      · cases called

/-- A dispatch gives no leaf a value, and calls the handler of the param or of the one before it. -/
theorem dispatch_values {built : Built ι} (dispatched : tree.dispatch parent p mode cli = .ok built) :
    built.cli.valueHolder = cli.valueHolder ∧
      ∀ q mode', built.call = some (q, mode') → parent = some q ∨ q = p ∧ p ∉ controls tree := by
  unfold dispatch at dispatched
  split at dispatched
  · split at dispatched
    · cases dispatched
    · split at dispatched
      · cases dispatched
        refine ⟨rfl, ?_⟩
        rintro q mode' ⟨⟩
        exact .inl rfl
      · cases dispatched
        exact ⟨rfl, by simp⟩
  · next notBrief =>
    split at dispatched
    · split at dispatched
      · cases dispatched
      · cases dispatched
        refine ⟨?_, by simp⟩
        rw [displaySubOptionsCallback]
        split <;> rfl
    · next notSuboptions =>
      split at dispatched
      · split at dispatched
        · cases dispatched
        · split at dispatched
          · cases dispatched
          · next entered =>
            cases dispatched
            obtain ⟨same, called⟩ := modeEnterCallback_values entered
            exact ⟨same, fun q mode' call => .inl (congrArg some (called q mode' call).symm)⟩
      · next notMode =>
        split at dispatched
        · cases dispatched
          exact ⟨rfl, by simp⟩
        · next notExpansion =>
          split at dispatched
          · cases dispatched
          · cases dispatched
            refine ⟨?_, ?_⟩
            · dsimp only
              split <;> rfl
            · rintro q mode' ⟨⟩
              refine .inr ⟨rfl, ?_⟩
              simp only [controls, List.mem_cons, List.not_mem_nil, or_false, not_or]
              exact ⟨notBrief, notMode, notSuboptions, notExpansion⟩

/-- A line that starts apart from the branch keeps its values. -/
theorem build_apart {built : Built ι} (builds : tree.buildTlvBuffer outside tokens cli = .ok built)
    (other : h ∉ doBranches tree) (start : ApartFrom tree h cli.cursor) :
    ValuesKept tree h cli built.cli ∧ ∀ q mode, built.call = some (q, mode) → ApartFrom tree h q := by
  rw [buildTlvBuffer] at builds
  split at builds
  · cases builds
  · next walks =>
    cases builds
    exact ⟨walk_apart walks other (.inr start) (by simp), by simp⟩
  · next walks =>
    obtain ⟨kept, there, above⟩ := walk_apart walks other (.inr start) (by simp)
    split at builds
    · obtain ⟨same, called⟩ := dispatch_values builds
      refine ⟨fun r level under => (congrFun same r).trans (kept r level under), fun q mode call => ?_⟩
      rcases called q mode call with before | ⟨rfl, ordinary⟩
      · exact above q before
      · exact there.resolve_left ordinary
    · cases builds
      exact ⟨kept, by simp⟩

end TcpServerLib.Refinement
