import TcpServerLib.Refinement.CommandBranch
import TcpServerLib.Refinement.CommandBuild
import TcpServerLib.Refinement.SessionRuns

/-! # Calls of the application's handlers

A value is taken for the leaf among the options if no command begins with it. A command that ends at
a param of the application reaches its handler with the leaves of the path and the command code in the
buffer, whether it was typed as a whole or from within a mode.
-/

namespace TcpServerLib.Refinement

open Machine Model CommandTree

variable {ι : Type*} [DecidableEq ι] {tree : CommandTree ι} {outside : Outside} {tokens : List Token}
  {p leaf : ι} {options : List ι} {token : Token} {cli after : Cli ι} {mode : OpMode}

omit [DecidableEq ι] in
theorem configHook_ne_repeatHook (tree : CommandTree ι) : tree.configHook ≠ tree.repeatHook := by
  have apart := tree.apart
  simp only [List.nodup_cons, List.mem_cons, List.not_mem_nil, or_false, not_or] at apart
  exact apart.2.2.2.2.1.2.1

/-- A param below a hook is not the hook of the configuration. -/
theorem ne_configHook {h : ι} {level : ℕ} (under : Under tree h p level) (second : 2 ≤ level) :
    p ≠ tree.configHook := by
  rintro rfl
  obtain ⟨visited, climbed, _, length⟩ := under
  have hook := tree.hooks tree.configHook (by simp only [List.mem_cons, true_or, or_true])
  rw [ancestry_parent hook, ancestry_root] at climbed
  cases climbed
  exact absurd second (length ▸ Nat.lt_irrefl 1)

/-- A command that is typed at the root calls the handler at the end of its path. -/
theorem ordinary_call {path : List ι} {asked' : ℕ} (atRoot : cli.cursor = tree.root)
    (empty : cli.tlvBuff.next = 0)
    (several : 2 ≤ tokens.length) (resolves : Resolves tree outside cli.asked tree.root tokens path asked')
    (ends : path.getLast? = some p) (handler : tree.hasHandler p = true) (ordinary : p ∉ controls tree)
    (notRepeat : path.head? ≠ some tree.repeatHook) :
    ∃ after h, path.head? = some h ∧ tree.buildTlvBuffer outside tokens cli =
        .ok ⟨.complete, after, some (p, tree.commandMode h (pathMode tree .modeUnknown path))⟩ ∧
      after.cursor = tree.root ∧ after.invoked = cli.invoked ∧
      after.tlvBuff.contents =
        encoded (typedTlvs tree path tokens ++ [commandCodeTlv (tree.param p).cmdCode]) := by
  have final : endOf tree.root path = p := by rw [endOf, List.getLastD_eq_getLast?, ends]; rfl
  obtain ⟨h, y, level, head, lands, _⟩ := command_branch several resolves none
  obtain ⟨same, second⟩ := lands.ordinary (final ▸ ordinary)
  have under := lands.under
  rw [same, final] at under
  obtain ⟨collected, walks, tlvs⟩ := walk_resolves resolves none .modeUnknown rfl
  rw [final] at walks
  have branch := getCurrentBranchHook_under under
  have added : h ≠ tree.repeatHook ∧ p ≠ tree.configHook :=
    ⟨fun same => notRepeat (same ▸ head), ne_configHook under second⟩
  have nothing : cli.tlvBuff.contents = [] := by rw [SerBuff.contents, empty, List.take_zero]
  refine ⟨collected.collectTlv (commandCodeTlv (tree.param p).cmdCode), h, head, ?_, tlvs.cursor.trans atRoot,
    tlvs.invoked, ?_⟩
  · rw [buildTlvBuffer, atRoot, walks]
    dsimp only
    rw [if_pos handler, dispatch_ordinary ordinary branch, if_pos added]
  · refine (contents_collectTlv _ _).trans ?_
    rw [tlvs.contents, nothing, List.nil_append, encoded_append, encoded_singleton]

/-- A command of the configuration is called in the mode that its path tells. -/
theorem resolved_call {path : List ι} {asked' : ℕ} (atRoot : cli.cursor = tree.root)
    (empty : cli.tlvBuff.next = 0)
    (several : 2 ≤ tokens.length) (resolves : Resolves tree outside cli.asked tree.root tokens path asked')
    (ends : path.getLast? = some p) (handler : tree.hasHandler p = true) (ordinary : p ∉ controls tree)
    (config : path.head? = some tree.configHook) :
    ∃ after, tree.buildTlvBuffer outside tokens cli =
        .ok ⟨.complete, after,
          some (p, tree.commandMode tree.configHook (pathMode tree .modeUnknown path))⟩ ∧
      after.cursor = tree.root ∧ after.invoked = cli.invoked ∧
      after.tlvBuff.contents =
        encoded (typedTlvs tree path tokens ++ [commandCodeTlv (tree.param p).cmdCode]) := by
  have notRepeat : path.head? ≠ some tree.repeatHook := fun other =>
    configHook_ne_repeatHook tree (Option.some.inj (config.symm.trans other))
  obtain ⟨after, h, head, built, called⟩ :=
    ordinary_call atRoot empty several resolves ends handler ordinary notRepeat
  cases config.symm.trans head
  exact ⟨after, built, called⟩

omit [DecidableEq ι] in
/-- A walk leaves the leaves of its whole path in the buffer, if it has found those of the cursor there. -/
theorem Collected.leaves {q : ι} {middle : Cli ι} {leaves : List ι}
    (collected : Collected tree cli.cursor cli q middle leaves)
    (holds : cli.tlvBuff.contents = leavesData tree cli) :
    middle.tlvBuff.contents = encoded ((leafPath tree q).map (tree.tlvOf middle.valueHolder)) := by
  have same : (leafPath tree cli.cursor).map (tree.tlvOf cli.valueHolder) =
      (leafPath tree cli.cursor).map (tree.tlvOf middle.valueHolder) :=
    tlvOf_congr fun r member => (collected.kept r member).symm
  rw [collected.contents, holds, leavesData, same, collected.path, List.map_append, encoded_append]

/-- Whose handler is told to disable, and what has been added to the buffer for it. -/
theorem dispatch_disabled {parent : Option ι} {q : ι} {built : Built ι}
    (dispatched : tree.dispatch parent q mode cli = .ok built) (call : built.call = some (p, .configDisable)) :
    ((q = tree.modeParam ∧ parent = some p) ∨ q ∉ controls tree ∧ q = p) ∧ built.cli.valueHolder =
      cli.valueHolder ∧ (p ≠ tree.configHook →
        built.cli.tlvBuff.contents = cli.tlvBuff.contents ++ (commandCodeTlv (tree.param p).cmdCode).encode) := by
  by_cases control : q ∈ controls tree
  · simp only [controls, List.mem_cons, List.not_mem_nil, or_false] at control
    unfold dispatch at dispatched
    split at dispatched
    · split at dispatched
      · cases dispatched
      · split at dispatched
        · cases dispatched
          cases call
        · cases dispatched
          cases call
    · split at dispatched
      · split at dispatched
        · cases dispatched
        · cases dispatched
          cases call
      · split at dispatched
        · next isMode =>
          split at dispatched
          · cases dispatched
          · next parent =>
            split at dispatched
            · cases dispatched
            · next entered =>
              cases dispatched
              cases call
              rw [modeEnterCallback] at entered
              split at entered
              · cases entered
              · split at entered
                · cases entered
                · injection entered with pair
                  injection pair with same called
                  split at called
                  · injection called with pair
                    injection pair with here _
                    rw [← same, ← here]
                    exact ⟨.inl ⟨isMode, rfl⟩, rfl, fun _ => contents_collectTlv _ _⟩
                  · cases called
        · split at dispatched
          · cases dispatched
            cases call
          · next notBrief notOptions notMode notExpansion =>
            rcases control with same | same | same | same
            · exact absurd same notBrief
            · exact absurd same notMode
            · exact absurd same notOptions
            · exact absurd same notExpansion
  · cases branch : tree.getCurrentBranchHook q with
    | error fault =>
      unfold dispatch at dispatched
      simp only [controls, List.mem_cons, List.not_mem_nil, or_false, not_or] at control
      rw [if_neg control.1, if_neg control.2.2.1, if_neg control.2.1, if_neg control.2.2.2, branch] at dispatched
      cases dispatched
    | ok h =>
      rw [dispatch_ordinary control branch] at dispatched
      cases dispatched
      injection call with pair
      injection pair with same disabled
      have config : h = tree.configHook := by
        by_contra other
        rw [commandMode, if_neg other] at disabled
        cases disabled
      have apart : h ≠ tree.repeatHook := config ▸ configHook_ne_repeatHook tree
      refine ⟨.inr ⟨control, same⟩, ?_, fun notHook => ?_⟩
      · dsimp only
        split <;> rfl
      · dsimp only
        rw [if_pos ⟨apart, same ▸ notHook⟩, same]
        exact contents_collectTlv _ _

/-- A handler that is told to disable finds the leaves of its param in the buffer, and its own code. -/
theorem disabled_call {built : Built ι} (holds : cli.tlvBuff.contents = leavesData tree cli)
    (builds : tree.buildTlvBuffer outside tokens cli = .ok built) (call : built.call = some (p, .configDisable))
    (notHook : p ≠ tree.configHook) : built.cli.tlvBuff.contents =
      encoded ((leafPath tree p).map (tree.tlvOf built.cli.valueHolder) ++
        [commandCodeTlv (tree.param p).cmdCode]) := by
  rw [buildTlvBuffer] at builds
  split at builds
  · cases builds
  · cases builds
    cases call
  · next parent q mode middle walks =>
    split at builds
    · obtain ⟨target, values, contents⟩ := dispatch_disabled builds call
      have leaves : middle.tlvBuff.contents =
          encoded ((leafPath tree p).map (tree.tlvOf middle.valueHolder)) := by
        rcases walk_ends walks with ⟨leaves, collected, final⟩ | ⟨control, r, leaves, last, _, collected⟩
        · rcases target with ⟨rfl, rfl⟩ | ⟨_, rfl⟩
          · rcases final with other | ⟨_, none⟩
            · exact absurd modeParam_control other
            · cases none
          · exact collected.leaves holds
        · rcases target with ⟨_, same⟩ | ⟨other, _⟩
          · cases last.symm.trans same
            exact collected.leaves holds
          · exact absurd control other
      rw [contents notHook, leaves, values, encoded_append, encoded_singleton]
    · cases builds
      cases call

theorem restoreOrReset_invoked (cli : Cli ι) : (tree.restoreOrReset cli).invoked = cli.invoked := by
  rw [restoreOrReset]
  split <;> rfl

theorem restoreOrReset_cursor (cli : Cli ι) : (tree.restoreOrReset cli).cursor = cli.cursor := by
  rw [restoreOrReset]
  split <;> rfl

/-- What a call of a handler of the application leaves behind. -/
def called (tree : CommandTree ι) (p : ι) (mode : OpMode) (cli : Cli ι) : Cli ι :=
  { tree.restoreOrReset (cli.invoke p (some cli.tlvBuff) mode) with returned := .complete }

/-- At the root nothing is in the buffer. -/
def Rested (tree : CommandTree ι) (cli : Cli ι) : Prop :=
  cli.cursor = tree.root → cli.tlvBuff.next = 0

/-- A line is waited for in a parser at rest, or there is a command to end. -/
def Resting (tree : CommandTree ι) (s : Session ι) : Prop :=
  ((s.tasks = [] ∨ ∃ line, s.tasks = [.parseInputCmd line]) ∧ Rested tree s.cli) ∨
    ∃ front status, s.tasks = front ++ [.endOfCommand status]

end TcpServerLib.Refinement
