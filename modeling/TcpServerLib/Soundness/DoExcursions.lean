import TcpServerLib.Model.TcpServerCli
import TcpServerLib.Refinement.BranchFrame
import TcpServerLib.Soundness.ModePrefix

/-! # `do` from within a mode

A `do` throws the prefix of the mode away and rebuilds it from the values that the leaves of the
tree hold. The command begins at the `do` hook, outside the branch of `config`, so whatever it
collects, and however it ends, the leaves above the saved cursor hold what they held.
-/

namespace TcpServerLib.Soundness

open Machine Model CommandTree Refinement

variable {ι : Type*} [DecidableEq ι] {tree : CommandTree ι} {outside : Outside} {line : Bytes} {first : Token}
  {rest : List Token} {p : ι} {mode : OpMode} {cli after : Cli ι}

/-- The user is in a mode of `config`: the buffer is marked behind the leaves above the cursor, with
the values they hold. -/
structure ConfigMode (tree : CommandTree ι) (cli : Cli ι) : Prop where
  branch : tree.getCurrentBranchHook cli.cursor = .ok tree.configHook
  positive : ∀ r ∈ path tree cli.cursor, tree.isNegation r = false
  marked : cli.tlvBuff.next = cli.tlvBuff.checkpoint
  leaves : cli.tlvBuff.b.take cli.tlvBuff.checkpoint = leavesData tree cli

/-- The state in which the command of a `do` begins. -/
def atDoHook (tree : CommandTree ι) (cli : Cli ι) : Cli ι :=
  (cli.setCmdTreeCursor tree.doHook).resetBuffer

/-- The command of a `do` enters no mode, and its handler comes back without having called the
parser. -/
structure Excursion (tree : CommandTree ι) (outside : Outside) (rest : List Token) (cli : Cli ι)
    (built : Built ι) : Prop where
  builds : tree.buildTlvBuffer outside rest (atDoHook tree cli) = .ok built
  modeless : ∀ p, ¬ EntersMode tree outside rest (atDoHook tree cli) p
  handled : ∀ p mode, built.call = some (p, mode) → ∃ after, tree.runHandler outside p mode built.cli =
    .ok (after, [])

structure ModeKept (cli after : Cli ι) : Prop where
  cursor : after.cursor = cli.cursor
  next : after.tlvBuff.next = cli.tlvBuff.next
  checkpoint : after.tlvBuff.checkpoint = cli.tlvBuff.checkpoint
  kept : after.tlvBuff.b.take after.tlvBuff.checkpoint = cli.tlvBuff.b.take cli.tlvBuff.checkpoint

theorem configHook_under (branch : tree.getCurrentBranchHook p = .ok tree.configHook) :
    ∃ level, Under tree tree.configHook p level := by
  have hook : (tree.param tree.configHook).parent = some tree.root :=
    tree.hooks tree.configHook (by simp only [List.mem_cons, true_or, or_true])
  rw [getCurrentBranchHook] at branch
  split at branch
  · cases branch
  · split at branch
    · next visited climbed =>
      injection branch with last
      rw [List.getLastD_eq_getLast?] at last
      cases top : visited.getLast? with
      | none =>
        rw [top] at last
        have itself : p = tree.configHook := last
        rw [itself]
        exact ⟨1, under_hook hook⟩
      | some r =>
        rw [top] at last
        exact ⟨visited.length, visited, climbed, top.trans (congrArg some last), rfl⟩
    · cases branch

omit [DecidableEq ι] in
theorem configHook_other (tree : CommandTree ι) : tree.configHook ∉ doBranches tree := by
  have apart := tree.apart
  simp only [doBranches, List.nodup_cons, List.mem_cons, List.not_mem_nil, or_false, not_or] at apart ⊢
  exact ⟨fun same => apart.2.2.1.2.1 same.symm, fun same => apart.2.2.2.1.1 same.symm, apart.2.2.2.2.1.1⟩

/-- A handler that calls nothing, other than that of `config`, moves no cursor from the `do` hook: to
go up or to the top from there is an error. -/
theorem runHandler_still (ran : tree.runHandler outside p mode cli = .ok (after, []))
    (other : p ≠ tree.configHook)
    (atDo : cli.cursor = tree.doHook) : after.cursor = tree.doHook ∧ after.valueHolder = cli.valueHolder := by
  have down : tree.doHook ≠ tree.root := (apartFrom_doHook tree tree.configHook).below
  have cursor : (cli.invoke p (some cli.tlvBuff) mode).cursor = tree.doHook := atDo
  cases runHandler_runs ran with
  | configModeEnterHandler registered => exact absurd ((tree.config_handler p).mp registered) other
  | exitCmdHandler _ went =>
    have command : tree.isLeaf tree.doHook = false := isLeaf_named (List.mem_cons_of_mem _ List.mem_cons_self)
    rw [goOneLevelUpCmdTree, cursor, if_neg down, leaveLeaf, cursor, command, tree.doHook_top] at went
    cases went
  | endCmdHandler went =>
    rw [gotoTopOfCmdTree, cursor, if_neg down, ancestry_top down tree.doHook_top] at went
    cases went
  | runTestCase tested =>
    rw [runTestCase] at tested
    split at tested
    · cases tested
    · next question =>
      injection tested with pair
      injection pair with same _
      obtain ⟨_, rfl⟩ := Prod.mk.inj question
      rw [← same]
      exact ⟨atDo, rfl⟩
  | showExtension => exact ⟨atDo, rfl⟩
  | nothing => exact ⟨atDo, rfl⟩

/-- Whether the command is found or not, it stays at the `do` hook. -/
theorem Excursion.still {built : Built ι} (excursion : Excursion tree outside rest cli built) :
    built.cli.cursor = tree.doHook := by
  rcases build_cases excursion.builds with appended | ⟨root, _⟩ | ⟨q, leaves, _, enters, _⟩
  · exact appended.cursor
  · exact absurd root (apartFrom_doHook tree tree.configHook).below
  · exact absurd enters (excursion.modeless q)

/-- The walk up from the saved cursor rebuilds the prefix. -/
theorem afterDo_rebuilds {level : ℕ} {middle : Cli ι} {old : ι} (atDo : middle.cursor = tree.doHook)
    (under : Under tree tree.configHook old level)
    (positive : ∀ r ∈ path tree old, tree.isNegation r = false) :
    ∃ after, tree.afterDo old middle = .ok after ∧ after.cursor = old ∧
    after.valueHolder = middle.valueHolder ∧
      Settled tree after ∧ after.tlvBuff.checkpoint = after.tlvBuff.next := by
  obtain ⟨visited, climbed, _⟩ := under
  have noNegation : ¬ visited.any tree.isNegation = true := by
    intro negation
    obtain ⟨r, member, negates⟩ := List.any_eq_true.mp negation
    have above : r ∈ path tree old := by
      rw [path_ancestry climbed]
      exact List.mem_cons_of_mem _ (List.mem_reverse.mpr member)
    cases (positive r above).symm.trans negates
  have rebuilds : ∃ rebuilt, tree.buildCmdTreeLeavesData (middle.setCmdTreeCursor old) = .ok rebuilt := by
    have climbed' : tree.ancestry (middle.setCmdTreeCursor old).cursor = .ok visited := climbed
    rw [buildCmdTreeLeavesData, climbed']
    dsimp only
    rw [if_neg noNegation]
    exact ⟨_, rfl⟩
  obtain ⟨rebuilt, leaves⟩ := rebuilds
  obtain ⟨settled, cursor, values⟩ := buildCmdTreeLeavesData_settled leaves
  refine ⟨rebuilt.markCheckpoint, ?_, cursor, values, settled, rfl⟩
  rw [afterDo, if_neg (not_not.mpr atDo), leaves]
  rfl

/-- A prefix that has been rebuilt from the same values is the same prefix. -/
theorem modeKept_rebuilt {level : ℕ} {rebuilt : Cli ι} (next : cli.tlvBuff.next = cli.tlvBuff.checkpoint)
    (leaves : cli.tlvBuff.b.take cli.tlvBuff.checkpoint = leavesData tree cli)
    (under : Under tree tree.configHook cli.cursor level) (kept : ValuesKept tree tree.configHook cli rebuilt)
    (cursor : rebuilt.cursor = cli.cursor) (settled : Settled tree rebuilt)
    (marked : rebuilt.tlvBuff.checkpoint = rebuilt.tlvBuff.next) (status : CmdParseStatus) :
    ModeKept cli { tree.restoreOrReset rebuilt with returned := status } := by
  have down : rebuilt.cursor ≠ tree.root := cursor ▸ under_below under
  have same : rebuilt.tlvBuff.contents = cli.tlvBuff.b.take cli.tlvBuff.checkpoint := by
    rw [settled, kept.leavesData under cursor, leaves]
  have length : rebuilt.tlvBuff.next = cli.tlvBuff.checkpoint := by
    rw [← length_contents, same, List.length_take, Nat.min_eq_left cli.tlvBuff.marked]
  rw [restoreOrReset, if_pos down]
  refine ⟨cursor, ?_, ?_, ?_⟩
  · exact (marked.trans length).trans next.symm
  · exact marked.trans length
  · have prefixed : rebuilt.tlvBuff.b.take rebuilt.tlvBuff.checkpoint = rebuilt.tlvBuff.contents := by
      rw [marked, SerBuff.contents]
    exact prefixed.trans same

/-- However the command of a `do` ends, the mode is what it was. -/
theorem do_keeps_mode {built : Built ι} (cut : tokenizer line 32 = .ok (first :: rest)) (several : rest ≠ [])
    (word : begins first.bytes (ascii ['d', 'o']) = true) (mode : ConfigMode tree cli)
    (excursion : Excursion tree outside rest cli built) :
    ∃ after, Session.Carries tree outside line cli after ∧ ModeKept cli after := by
  obtain ⟨level, under⟩ := configHook_under mode.branch
  have hook : (tree.param tree.configHook).parent = some tree.root :=
    tree.hooks tree.configHook (by simp only [List.mem_cons, true_or, or_true])
  obtain ⟨kept, apart⟩ := build_apart excursion.builds (configHook_other tree) (apartFrom_doHook tree _)
  have branch : tree.shortcut cli first rest = some .doCommand := by
    unfold shortcut
    rw [if_pos ⟨several, word, under_below under⟩]
  have parsed : tree.parseInputCmd outside line cli =
      .ok (built.cli, built.tasks ++ [.afterDo cli.cursor, .endOfCommand built.status]) := by
    have builds := excursion.builds
    rw [atDoHook] at builds
    rw [parseInputCmd, cut]
    dsimp only
    rw [branch]
    dsimp only
    rw [mode.branch]
    dsimp only
    rw [if_pos rfl, builds]
  -- What is left to be done, once the handler has come back.
  have returns : ∀ middle : Cli ι, middle.cursor = tree.doHook →
      ValuesKept tree tree.configHook cli middle →
      ∃ rebuilt, tree.afterDo cli.cursor middle = .ok rebuilt ∧
        ModeKept cli { tree.restoreOrReset rebuilt with returned := built.status } := by
    intro middle atDo values
    obtain ⟨rebuilt, back, cursor, same, settled, marked⟩ := afterDo_rebuilds atDo under mode.positive
    refine ⟨rebuilt, back, modeKept_rebuilt mode.marked mode.leaves under ?_ cursor settled marked
      built.status⟩
    exact fun r upper above => (congrFun same r).trans (values r upper above)
  cases call : built.call with
  | none =>
    obtain ⟨rebuilt, back, same⟩ := returns built.cli excursion.still kept
    refine ⟨_, ⟨3, ?_⟩, same⟩
    simp only [Session.run, carryOut, parsed, Built.tasks, call, back, Except.map, List.nil_append,
      List.append_nil]
  | some handler =>
    obtain ⟨p, mode'⟩ := handler
    obtain ⟨handled, ran⟩ := excursion.handled p mode' call
    obtain ⟨atDo, values⟩ := runHandler_still ran ((apart p mode' call).ne_hook hook) excursion.still
    obtain ⟨rebuilt, back, same⟩ := returns handled atDo fun r upper above =>
      (congrFun values r).trans (kept r upper above)
    refine ⟨_, ⟨4, ?_⟩, same⟩
    simp only [Session.run, carryOut, parsed, Built.tasks, call, ran, back, Except.map,
      List.nil_append, List.cons_append, List.append_nil]

def doShowHelpLine : Bytes :=
  ascii ['d', 'o', ' ', 's', 'h', 'o', 'w', ' ', 'h', 'e', 'l', 'p']

/-- `config tcp-server s1 /` -/
def serverModeLine : Bytes :=
  ascii ['c', 'o', 'n', 'f', 'i', 'g', ' ', 't', 'c', 'p', '-', 's', 'e', 'r', 'v', 'e', 'r', ' ',
    's', '1', ' ', '/']

/-- The mode of a server: the prefix is the leaf with its name. -/
def inServerMode : Cli (LibParam ⊕ TcpParam) :=
  let start := (Session.started tcpBuildCli.tree).cli
  match Session.run tcpBuildCli.tree unasked 3 ⟨start, [.parseInputCmd serverModeLine]⟩ with
  | .ok s => s.cli
  | .error _ => start

theorem do_keeps_mode_showHelp : ∃ after, Session.Carries tcpBuildCli.tree unasked doShowHelpLine
    inServerMode after ∧ ModeKept inServerMode after := by
  have cut : tokenizer doShowHelpLine 32 =
      .ok [typedWord ['d', 'o'], typedWord ['s', 'h', 'o', 'w'], typedWord ['h', 'e', 'l', 'p']] := rfl
  have mode : ConfigMode tcpBuildCli.tree inServerMode := ⟨rfl, by decide +kernel, rfl, rfl⟩
  refine do_keeps_mode cut (by decide) (by decide) mode ⟨rfl, ?_, ?_⟩
  · rintro p ⟨mode, middle, walks⟩
    cases walks
  · rintro p mode ⟨⟩
    exact ⟨_, rfl⟩

/-- What registration leaves of a negation param: it offers no mode, and nothing is registered under
it. -/
structure NegationsApart (tree : CommandTree ι) : Prop where
  modeless : ∀ {p}, tree.isNegation p = true → tree.modeParam ∉ (tree.param p).options
  childless : ∀ {p c}, (tree.param c).parent = some p → tree.isNegation p = false

omit [DecidableEq ι] in
theorem path_positive (apart : NegationsApart tree) (positive : tree.isNegation p = false) :
    ∀ r ∈ path tree p, tree.isNegation r = false := by
  induction p using parent_induction tree with
  | top p top =>
    intro r member
    rw [path_top top, List.mem_singleton] at member
    rw [member, positive]
  | child p q registered ih =>
    intro r member
    rw [path_parent registered, List.mem_append, List.mem_singleton] at member
    rcases member with above | rfl
    · exact ih (apart.childless registered) r above
    · exact positive

omit [DecidableEq ι] in
theorem root_positive (tree : CommandTree ι) : tree.isNegation tree.root = false := by
  obtain ⟨name, command⟩ := tree.named tree.root List.mem_cons_self
  rw [isNegation, command]

/-- The cursor, and the cursors that a `do` is to bring back. -/
structure Positive (tree : CommandTree ι) (s : Session ι) : Prop where
  cursor : tree.isNegation s.cli.cursor = false
  saved : ∀ old, .afterDo old ∈ s.tasks → tree.isNegation old = false

theorem modeParam_offered (enters : EntersMode tree outside rest cli p) :
    tree.modeParam ∈ (tree.param p).options := by
  obtain ⟨mode, middle, walks⟩ := enters
  rcases walk_ends walks with ⟨leaves, _, other | ⟨_, nothing⟩⟩ | ⟨_, q, leaves, same, option, _⟩
  · exact absurd modeParam_control other
  · cases nothing
  · cases same
    exact option

theorem build_positive {built : Built ι} (apart : NegationsApart tree)
    (builds : tree.buildTlvBuffer outside rest cli = .ok built) (positive : tree.isNegation cli.cursor = false) :
    tree.isNegation built.cli.cursor = false := by
  rcases build_cases builds with appended | ⟨_, root, _⟩ | ⟨q, leaves, _, enters, entered⟩
  · rw [appended.cursor, positive]
  · rw [root, root_positive]
  · rw [entered.cursor, ← Bool.not_eq_true]
    intro negation
    exact apart.modeless negation (modeParam_offered enters)

omit [DecidableEq ι] in
theorem not_saved_tasks (built : Built ι) (old : ι) : .afterDo old ∉ built.tasks := by
  rw [Built.tasks]
  split
  · exact List.not_mem_nil
  · exact fun member => by cases List.mem_singleton.mp member

theorem goOneLevelUp_positive (apart : NegationsApart tree) (went : tree.goOneLevelUpCmdTree cli = .ok after)
    (positive : tree.isNegation cli.cursor = false) : tree.isNegation after.cursor = false := by
  rw [goOneLevelUpCmdTree] at went
  split at went
  · cases went
    exact positive
  · split at went
    · cases went
    · split at went
      · cases went
      · next registered =>
        have upper := apart.childless registered
        split at went
        · cases went
          exact upper
        · split at went
          · cases went
          · cases went
            exact upper

theorem gotoTop_positive (went : tree.gotoTopOfCmdTree cli = .ok after)
    (positive : tree.isNegation cli.cursor = false) : tree.isNegation after.cursor = false := by
  rw [gotoTopOfCmdTree] at went
  split at went
  · cases went
    exact positive
  · split at went
    · cases went
    · split at went
      · cases went
      · cases went
        exact root_positive tree

omit [DecidableEq ι] in
theorem runTestCase_cursor {next : List (CliTask ι)} (ran : runTestCase outside cli = .ok (after, next)) :
    after.cursor = cli.cursor ∧ ∀ old, .afterDo old ∉ next := by
  rw [runTestCase] at ran
  split at ran
  · cases ran
  · next lines asked question =>
    cases ran
    obtain ⟨_, rfl⟩ := Prod.mk.inj question
    refine ⟨rfl, fun old member => ?_⟩
    obtain ⟨command, _, this⟩ := List.mem_flatMap.mp member
    simp only [List.mem_cons, reduceCtorEq, List.not_mem_nil, or_self] at this

omit [DecidableEq ι] in
theorem parseFile_cursor {next : List (CliTask ι)} (parsed : parseFile outside cli = (after, next)) :
    after.cursor = cli.cursor ∧ ∀ old, .afterDo old ∉ next := by
  rw [parseFile] at parsed
  split at parsed
  · next question =>
    cases parsed
    obtain ⟨_, rfl⟩ := Prod.mk.inj question
    exact ⟨rfl, fun _ => List.not_mem_nil⟩
  · next lines asked question =>
    cases parsed
    obtain ⟨_, rfl⟩ := Prod.mk.inj question
    refine ⟨rfl, fun old member => ?_⟩
    obtain ⟨line, _, this⟩ := List.mem_map.mp member
    cases this

theorem runHandler_positive {next : List (CliTask ι)} (apart : NegationsApart tree)
    (ran : tree.runHandler outside p mode cli = .ok (after, next))
    (positive : tree.isNegation cli.cursor = false) :
    tree.isNegation after.cursor = false ∧ ∀ old, .afterDo old ∉ next := by
  have nothing : ∀ old, .afterDo old ∉ ([] : List (CliTask ι)) := fun _ => List.not_mem_nil
  cases runHandler_runs ran with
  | configModeEnterHandler registered marked =>
    rw [configModeEnterHandler] at marked
    split at marked
    · cases marked
    · cases marked
      have config := (tree.config_handler p).mp registered
      obtain ⟨name, command⟩ := tree.named tree.configHook (by simp only [List.mem_cons, true_or, or_true])
      refine ⟨?_, nothing⟩
      change tree.isNegation p = false
      rw [config, isNegation, command]
  | exitCmdHandler _ went => exact ⟨goOneLevelUp_positive apart went positive, nothing⟩
  | endCmdHandler went => exact ⟨gotoTop_positive went positive, nothing⟩
  | commandChosen => exact ⟨positive, fun old member => by cases List.mem_singleton.mp member⟩
  | runTestCase tested =>
    obtain ⟨same, none⟩ := runTestCase_cursor tested
    exact ⟨same ▸ positive, none⟩
  | showExtension => exact ⟨positive, nothing⟩
  | nothing => exact ⟨positive, fun _ => List.not_mem_nil⟩

theorem parseInputCmd_positive {next : List (CliTask ι)} (apart : NegationsApart tree)
    (parsed : tree.parseInputCmd outside line cli = .ok (after, next))
    (positive : tree.isNegation cli.cursor = false) :
    tree.isNegation after.cursor = false ∧ ∀ old, .afterDo old ∈ next → tree.isNegation old = false := by
  have ends (status : CmdParseStatus) (old : ι) (member : .afterDo old ∈ [CliTask.endOfCommand status]) :
      False := by
    cases List.mem_singleton.mp member
  cases parseInputCmd_parses parsed with
  | empty => exact ⟨positive, fun old member => absurd member List.not_mem_nil⟩
  | @command _ _ built _ _ builds =>
    refine ⟨build_positive apart builds positive, fun old member => ?_⟩
    rcases List.mem_append.mp member with called | last
    · exact absurd called (not_saved_tasks built old)
    · exact (ends _ old last).elim
  | @doCommand _ _ built _ _ _ builds =>
    have atDo : tree.isNegation tree.doHook = false := by
      obtain ⟨name, command⟩ := tree.named tree.doHook (List.mem_cons_of_mem _ List.mem_cons_self)
      rw [isNegation, command]
    refine ⟨build_positive apart builds atDo, fun old member => ?_⟩
    rcases List.mem_append.mp member with called | last
    · exact absurd called (not_saved_tasks built old)
    · rcases List.mem_cons.mp last with same | last
      · cases same
        exact positive
      · exact (ends _ old last).elim
  | ignored => exact ⟨positive, fun old member => (ends _ old member).elim⟩
  | repeatCommand =>
    refine ⟨positive, fun old member => ?_⟩
    rcases List.mem_cons.mp member with same | last
    · cases same
    · exact (ends _ old last).elim
  | oneLevelUp _ _ went =>
    exact ⟨goOneLevelUp_positive apart went positive, fun old member => (ends _ old member).elim⟩
  | top _ _ went => exact ⟨gotoTop_positive went positive, fun old member => (ends _ old member).elim⟩
  | runUt _ _ tested =>
    obtain ⟨cursor, none⟩ := runTestCase_cursor tested
    refine ⟨cursor ▸ positive, fun old member => ?_⟩
    rcases List.mem_append.mp member with called | last
    · exact absurd called (none old)
    · exact (ends _ old last).elim
  | configLoad _ _ loaded =>
    obtain ⟨cursor, none⟩ := parseFile_cursor loaded
    refine ⟨cursor ▸ positive, fun old member => ?_⟩
    rcases List.mem_append.mp member with called | last
    · exact absurd called (none old)
    · exact (ends _ old last).elim

theorem carryOut_positive {task : CliTask ι} {next : List (CliTask ι)} (apart : NegationsApart tree)
    (carried : tree.carryOut outside task cli = .ok (after, next)) (positive : tree.isNegation cli.cursor = false)
    (saved : ∀ old, task = .afterDo old → tree.isNegation old = false) :
    tree.isNegation after.cursor = false ∧ ∀ old, .afterDo old ∈ next → tree.isNegation old = false := by
  cases task with
  | parseInputCmd line => exact parseInputCmd_positive apart carried positive
  | fileLine line =>
    rw [carryOut, parseFileLine] at carried
    split at carried
    · cases carried
    · split at carried
      · cases carried
      · next built builds =>
        cases carried
        refine ⟨build_positive apart builds positive, fun old member => ?_⟩
        rcases List.mem_append.mp member with called | last
        · exact absurd called (not_saved_tasks built old)
        · cases List.mem_singleton.mp last
  | handler p mode =>
    obtain ⟨cursor, none⟩ := runHandler_positive apart carried positive
    exact ⟨cursor, fun old member => absurd member (none old)⟩
  | repeatHandler =>
    cases carried
    exact ⟨positive, fun old member => by cases List.mem_singleton.mp member⟩
  | afterDo old =>
    obtain ⟨done, back, same⟩ := map_ok carried
    cases same
    refine ⟨?_, fun old member => absurd member List.not_mem_nil⟩
    rw [afterDo] at back
    split at back
    · split at back
      · cases back
      · split at back
        · cases back
        · cases back
          exact positive
    · obtain ⟨rebuilt, leaves, rfl⟩ := map_ok back
      obtain ⟨_, cursor, _⟩ := buildCmdTreeLeavesData_settled leaves
      change tree.isNegation rebuilt.cursor = false
      rw [cursor]
      exact saved old rfl
  | endOfCommand status =>
    cases carried
    exact ⟨(congrArg tree.isNegation (restoreOrReset_cursor cli)).trans positive, fun old member =>
      absurd member List.not_mem_nil⟩
  | endOfFileLine =>
    cases carried
    exact ⟨(congrArg tree.isNegation (restoreOrReset_cursor cli)).trans positive, fun old member =>
      absurd member List.not_mem_nil⟩
  | expectComplete =>
    rw [carryOut] at carried
    split at carried
    · cases carried
      exact ⟨positive, fun old member => absurd member List.not_mem_nil⟩
    · cases carried

theorem positive_step {s t : Session ι} {e : CliEvent ι} (apart : NegationsApart tree)
    (step : Session.Step tree outside s e t) (positive : Positive tree s) : Positive tree t := by
  cases step with
  | typed line cli => exact ⟨positive.cursor, fun old member => by cases List.mem_singleton.mp member⟩
  | carryOut carried =>
    obtain ⟨cursor, saved⟩ := carryOut_positive apart carried positive.cursor fun old same =>
      positive.saved old (same ▸ List.mem_cons_self)
    refine ⟨cursor, fun old member => ?_⟩
    rcases List.mem_append.mp member with new | waiting
    · exact saved old new
    · exact positive.saved old (List.mem_cons_of_mem _ waiting)

/-- In every session there is no negation param on the path to the cursor. -/
theorem path_positive_reachable {es : List (CliEvent ι)} {s : Session ι} (apart : NegationsApart tree)
    (run : Path (Session.Step tree outside) (.started tree) es s) : ∀ r ∈ path tree s.cli.cursor,
    tree.isNegation r = false := by
  have positive : Positive tree s :=
    run.invariant (positive_step apart) ⟨root_positive tree, fun old member => absurd member List.not_mem_nil⟩
  exact path_positive apart positive.cursor

end TcpServerLib.Soundness
