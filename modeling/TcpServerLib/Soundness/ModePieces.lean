import TcpServerLib.Refinement.CommandBuild
import TcpServerLib.Soundness.DecodedCommands

/-! # Commands typed in pieces

A command can be typed at once, or its first words with the mode character behind them and the
others after that. The handler at its end is to find the same buffer. It does, unless the first
words are those of `config` itself: its handler marks the checkpoint behind the command code.
-/

namespace TcpServerLib.Soundness

open Machine Model CommandTree Refinement

variable {ι : Type*} [DecidableEq ι] {tree : CommandTree ι} {outside : Outside} {cli : Cli ι} {x p h : ι}
  {tokens : List Token} {path : List ι} {slash : Token} {asked asked' : ℕ}

/-- How many questions have been asked when the mode of `x` has been entered. -/
def askedAfter (tree : CommandTree ι) (x : ι) (asked : ℕ) : ℕ :=
  if (tree.param x).callback = some .showHistoryCallback then asked + 1 else asked

/-- The line `whole` is `q r`, the line `piece` is `q /` and the line `rest` is `r`. -/
structure SplitCommand (tree : CommandTree ι) (outside : Outside) where
  start : Cli ι
  q : List Token
  r : List Token
  slash : Token
  whole : Bytes
  piece : Bytes
  rest : Bytes
  pathQ : List ι
  pathR : List ι
  between : ℕ
  ended : ℕ
  endedAlone : ℕ
  atRoot : start.cursor = tree.root
  clean : start.tlvBuff.next = 0
  slash_mode : slash.bytes = ascii ['/']
  cutWhole : tokenizer whole 32 = .ok (q ++ r)
  cutPiece : tokenizer piece 32 = .ok (q ++ [slash])
  cutRest : tokenizer rest 32 = .ok r
  nonemptyQ : q ≠ []
  nonemptyR : r ≠ []
  resolvesQ : Resolves tree outside start.asked tree.root q pathQ between
  positive : ∀ p ∈ pathQ, tree.isNegation p = false
  resolvesR : Resolves tree outside between (endOf tree.root pathQ) r pathR ended
  resolvesAlone : Resolves tree outside (askedAfter tree (endOf tree.root pathQ) between)
    (endOf tree.root pathQ) r pathR
    endedAlone
  handler : tree.hasHandler (endOf (endOf tree.root pathQ) pathR) = true
  plain : ∀ {first others}, q ++ r = first :: others → tree.shortcut start first others = none
  plainPiece : ∀ {first others}, q ++ [slash] = first :: others → tree.shortcut start first others = none
  plainRest : ∀ {first others}, r = first :: others →
    tree.shortcut (start.setCmdTreeCursor (endOf tree.root pathQ)) first others = none

namespace SplitCommand

/-- The param the mode is entered at. -/
def modeOf (split : SplitCommand tree outside) : ι :=
  endOf tree.root split.pathQ

def last (split : SplitCommand tree outside) : ι :=
  endOf split.modeOf split.pathR

/-- Both ways the same calls are made, with the same TLVs in the buffer. -/
def SameEitherWay (split : SplitCommand tree outside) : Prop :=
  ∃ middle, Session.Carries tree outside split.piece split.start middle ∧
    ∃ after after' tasks, tree.parseInputCmd outside split.whole split.start = .ok (after, tasks) ∧
      tree.parseInputCmd outside split.rest middle = .ok (after', tasks) ∧
      after.tlvBuff.contents = after'.tlvBuff.contents ∧
      (split.last ∉ controls tree → ∃ mode, tasks = [.handler split.last mode, .endOfCommand .complete])

end SplitCommand

/-- Which handler is called, with which mode, and what is added to the buffer. -/
structure Dispatches (tree : CommandTree ι) (parent : Option ι) (p : ι) (mode : OpMode)
    (status : CmdParseStatus) (call : Call ι) (added : Bytes) : Prop where
  uniform : ∀ cli, ∃ after, tree.dispatch parent p mode cli = .ok ⟨status, after, call⟩ ∧
    after.tlvBuff.contents = cli.tlvBuff.contents ++ added
  ordinary : p ∉ controls tree → status = .complete ∧ ∃ mode', call = some (p, mode')

theorem dispatches {parent : Option ι} {level : ℕ} {y : ι} (lands : LandsOn tree h parent p path y level)
    (shallow : level ≤ maxCmdTreeDepth) (mode : OpMode) :
    ∃ status call added, Dispatches tree (lastParent parent p path) (endOf p path) mode status call added := by
  by_cases control : endOf p path ∈ controls tree
  · rw [lands.control control]
    generalize endOf p path = e at control
    by_cases brief : e = tree.showBriefExtension
    · by_cases handler : tree.hasHandler y = true
      · refine ⟨.complete, some (y, .operational),
          showExtensionTlv.encode ++ (commandCodeTlv (tree.param y).cmdCode).encode,
          fun cli => ?_, fun other => absurd control other⟩
        unfold dispatch
        rw [if_pos brief]
        dsimp only
        rw [if_pos handler]
        refine ⟨_, rfl, ?_⟩
        rw [← List.append_assoc]
        simp only [Cli.collectTlv]
        rw [contents_collectTlv, contents_collectTlv]
        rfl
      · refine ⟨.incompleteCommand, none, [], fun cli => ⟨cli, ?_, (List.append_nil _).symm⟩,
          fun other => absurd control other⟩
        unfold dispatch
        rw [if_pos brief]
        dsimp only
        rw [if_neg handler]
    · by_cases suboptions : e = tree.suboptionsParam
      · refine ⟨.complete, none, if (tree.param y).dispCallback then dummyTlv.encode else [], fun cli => ?_,
          fun other => absurd control other⟩
        unfold dispatch
        rw [if_neg brief, if_pos suboptions]
        refine ⟨_, rfl, ?_⟩
        rw [displaySubOptionsCallback]
        split
        · exact contents_collectTlv cli.tlvBuff dummyTlv
        · exact (List.append_nil _).symm
      · by_cases enters : e = tree.modeParam
        · refine ⟨.complete, if tree.hasHandler y then some
            (y, if mode = .configDisable then .configDisable else .configEnable)
            else none, (commandCodeTlv (tree.param y).cmdCode).encode, fun cli => ?_, fun other =>
              absurd control other⟩
          unfold dispatch
          rw [if_neg brief, if_neg suboptions, if_pos enters]
          dsimp only
          rw [modeEnterCallback, if_neg (under_below lands.under), buildModeConsoleName_under lands.under shallow]
          exact ⟨_, rfl, contents_collectTlv cli.tlvBuff.markCheckpoint _⟩
        · have expansion : e = tree.cmdExpansionParam := by
            simp only [controls, List.mem_cons, List.not_mem_nil, or_false] at control
            tauto
          refine ⟨.complete, none, [], fun cli => ⟨cli, ?_, (List.append_nil _).symm⟩, fun other =>
            absurd control other⟩
          unfold dispatch
          rw [if_neg brief, if_neg suboptions, if_neg enters, if_pos expansion]
  · have under := lands.under
    rw [(lands.ordinary control).1] at under
    have branch := getCurrentBranchHook_under under
    refine ⟨.complete, some (endOf p path, tree.commandMode h mode),
      if h ≠ tree.repeatHook ∧ endOf p path ≠ tree.configHook then
        (commandCodeTlv (tree.param (endOf p path)).cmdCode).encode else [],
      fun cli => ⟨_, dispatch_ordinary control branch, ?_⟩, fun _ => ⟨rfl, _, rfl⟩⟩
    split
    · exact contents_collectTlv cli.tlvBuff _
    · exact (List.append_nil _).symm

theorem begins_self (word : Bytes) : begins word word = true :=
  List.isPrefixOf_iff_prefix.mpr (List.prefix_refl word)

omit [DecidableEq ι] in
theorem mode_found (options : (tree.param x).options ≠ []) (command : tree.isNegation x = false)
    (notDo : x ≠ tree.doHook) (character : slash.bytes = ascii ['/']) (asked : ℕ) :
    tree.findMatchingParam outside (tree.param x).options slash asked = .ok (some tree.modeParam, asked) := by
  have registered : (tree.param x).cmdType ≠ .noCmd := by
    intro negation
    rw [isNegation, negation] at command
    cases command
  obtain ⟨children, before⟩ := tree.capabilities options registered notDo
  have scanned : tree.scanOptions slash (tree.param x).options none [] = .ok (none, [tree.modeParam]) := by
    rw [before, List.cons_append, scanOptions, tree.mode_name]
    dsimp only
    rw [character, if_pos (begins_self _), if_pos rfl]
  rw [findMatchingParam, scanned]

/-- The buffer that the handler of `x` is given when its mode is entered. -/
def enteringMode (tree : CommandTree ι) (x : ι) (collected : Cli ι) : Cli ι :=
  (collected.markCheckpoint.collectTlv (commandCodeTlv (tree.param x).cmdCode)).setCmdTreeCursor x

theorem build_mode (resolves : Resolves tree outside cli.asked tree.root tokens path asked)
    (options : (tree.param x).options ≠ []) (ends : endOf tree.root path = x) (atRoot : cli.cursor = tree.root)
    (positive : ∀ p ∈ path, tree.isNegation p = false) (command : tree.isNegation x = false)
    (character : slash.bytes = ascii ['/']) {level : ℕ} (under : Under tree h x level)
    (shallow : level ≤ maxCmdTreeDepth) :
    ∃ collected, CollectedTlvs cli (typedTlvs tree path tokens) asked collected ∧
      tree.buildTlvBuffer outside (tokens ++ [slash]) cli = .ok ⟨.complete, enteringMode tree x collected,
        if tree.hasHandler x then some (x, .configEnable) else none⟩ := by
  have notDo : x ≠ tree.doHook := by
    rintro rfl
    exact not_under_top tree.doHook_top under
  obtain ⟨name, character'⟩ := tree.named tree.modeParam (by simp only [List.mem_cons, true_or, or_true])
  have found : Resolves tree outside asked (endOf tree.root path) [slash] [tree.modeParam] asked := by
    refine .cons (by rw [ends]; exact mode_found options command notDo character asked) ?_ (.nil asked _)
    rw [Accepts, character']
    trivial
  obtain ⟨collected, walks, tlvs⟩ := walk_resolves (resolves.append found) none .modeUnknown rfl
  rw [typedTlvs_append resolves.length] at tlvs
  rw [lastParent_append none (List.cons_ne_nil _ _), endOf_append, ends] at walks
  have unnegated : pathMode tree .modeUnknown (path ++ [tree.modeParam]) = .modeUnknown := by
    rw [pathMode, List.any_append,
      List.any_eq_false.mpr fun p member => by rw [positive p member]; exact Bool.false_ne_true,
      List.any_cons, isNegation, character']
    rfl
  have none : typedTlvs tree [tree.modeParam] [slash] = [] := by
    rw [typedTlvs, character']
    rfl
  rw [none, List.append_nil] at tlvs
  refine ⟨collected, tlvs, ?_⟩
  have arrives : endOf x [tree.modeParam] = tree.modeParam := rfl
  rw [buildTlvBuffer, atRoot, walks, unnegated, arrives]
  dsimp only [lastParent]
  rw [hasHandler, if_pos tree.mode_handler]
  unfold dispatch
  rw [if_neg modeParam_apart.1, if_neg modeParam_apart.2, if_pos rfl]
  dsimp only
  rw [modeEnterCallback, if_neg (under_below under), buildModeConsoleName_under under shallow]
  rfl

theorem shortcut_congr {cli' : Cli ι} (same : cli.cursor = cli'.cursor) (first : Token) (others : List Token) :
    tree.shortcut cli first others = tree.shortcut cli' first others := by
  unfold shortcut
  rw [same]

/-- A line that begins with no built-in word is a command. -/
theorem parseInputCmd_plain {line : Bytes} {built : Built ι} (cut : tokenizer line 32 = .ok tokens)
    (nonempty : tokens ≠ []) (plain : ∀ {first others}, tokens = first :: others →
      tree.shortcut cli first others = none)
    (builds : tree.buildTlvBuffer outside tokens cli = .ok built) :
    tree.parseInputCmd outside line cli = .ok (built.cli, built.tasks ++ [.endOfCommand built.status]) := by
  obtain ⟨first, others, rfl⟩ := List.exists_cons_of_ne_nil nonempty
  rw [parseInputCmd, cut]
  dsimp only
  rw [plain rfl]
  dsimp only
  rw [builds]

theorem carries_command {line : Bytes} {after : Cli ι} {status : CmdParseStatus}
    (parsed : tree.parseInputCmd outside line cli = .ok (after, [.endOfCommand status])) :
    Session.Carries tree outside line cli { tree.restoreOrReset after with returned := status } := by
  refine ⟨2, ?_⟩
  simp only [Session.run, carryOut, parsed, List.append_nil]

/-- A command whose handler makes no calls of its own. -/
theorem carries_handled {line : Bytes} {after handled : Cli ι} {mode : OpMode} {status : CmdParseStatus}
    (parsed : tree.parseInputCmd outside line cli = .ok (after, [.handler p mode, .endOfCommand status]))
    (ran : tree.runHandler outside p mode after = .ok (handled, [])) :
    Session.Carries tree outside line cli { tree.restoreOrReset handled with returned := status } := by
  refine ⟨3, ?_⟩
  simp only [Session.run, carryOut, parsed, ran, List.append_nil, List.nil_append]

/-- The handler of a param whose mode is entered moves nothing, if it replays no command; only that
of `config` marks the checkpoint. -/
theorem runHandler_entering (cli : Cli ι) (mode : OpMode) {callback : Callback} {level : ℕ}
    (registered : (tree.param x).callback = some callback)
    (outer : (tree.param x).callback ∈ [none, some .application, some .configModeEnterHandler,
      some .showHistoryCallback])
    (quiet : (tree.param x).callback = some .showHistoryCallback → outside.historyCommand cli.asked = none)
    (under : Under tree h x level) (shallow : level ≤ maxCmdTreeDepth) (atMode : cli.cursor = x) :
    ∃ after, tree.runHandler outside x mode cli = .ok (after, []) ∧ after.cursor = x ∧
      after.asked = askedAfter tree x cli.asked ∧
      after.tlvBuff = if x = tree.configHook then cli.tlvBuff.markCheckpoint else cli.tlvBuff := by
  have config := tree.config_handler x
  rw [registered] at outer quiet config
  simp only [List.mem_cons, List.not_mem_nil, or_false, reduceCtorEq, false_or, Option.some.injEq] at outer
  rw [askedAfter, registered]
  rcases outer with rfl | rfl | rfl
  · have other : x ≠ tree.configHook := fun same => by cases config.mpr same
    refine ⟨cli.invoke x (some cli.tlvBuff) mode, by rw [runHandler, registered], atMode, rfl, ?_⟩
    rw [if_neg other]
    rfl
  · have same := config.mp rfl
    refine ⟨((cli.invoke x (some cli.tlvBuff) mode).setCmdTreeCursor x).markCheckpoint, ?_, rfl, rfl, ?_⟩
    · rw [runHandler, registered]
      dsimp only
      rw [configModeEnterHandler, buildModeConsoleName_under under shallow]
      rfl
    · rw [if_pos same]
      rfl
  · have other : x ≠ tree.configHook := fun same => by cases config.mpr same
    have silent := quiet rfl
    refine ⟨{ cli.invoke x (some cli.tlvBuff) mode with asked := cli.asked + 1 }, ?_, atMode, rfl, ?_⟩
    · rw [runHandler, registered]
      simp only [showHistoryCallback, Cli.ask, Cli.invoke, silent]
    · rw [if_neg other]
      rfl

theorem notRepeat_of_under {cli : Cli ι} (nonempty : tokens ≠ [])
    (resolves : Resolves tree outside asked tree.root tokens path asked') (atRoot : cli.cursor = tree.root)
    (plain : ∀ {first others}, tokens ++ [slash] = first :: others → tree.shortcut cli first others = none)
    (ordinary : endOf tree.root path ∉ controls tree) : endOf tree.root path ≠ tree.repeatHook := by
  intro isRepeat
  cases resolves with
  | nil => exact nonempty rfl
  | @cons _ between _ _ c token tokens path found accepts rest =>
    have ends : endOf tree.root (c :: path) = endOf c path := List.getLastD_cons ..
    rw [ends] at ordinary isRepeat
    by_cases last : tokens = []
    · subst last
      cases rest
      have begun := (findMatchingParam_found found).2 _
          ((congrArg (fun p => (tree.param p).cmdType.cmdName) isRepeat).trans
        tree.repeat_name)
      have branch := plain rfl
      unfold shortcut at branch
      rw [if_neg (by rw [atRoot]; exact fun down => down.2.2 rfl), if_pos begun] at branch
      cases branch
    · obtain ⟨second, others, rfl⟩ := List.exists_cons_of_ne_nil last
      have under := hook_of_root (findMatchingParam_mem found) (resolves_inner rest)
      obtain ⟨y, level, lands, _⟩ := resolves_under rest under (Nat.le_refl 1) last none
      obtain ⟨same, deep⟩ := lands.ordinary ordinary
      have lower := lands.under
      rw [same, isRepeat] at lower
      obtain ⟨visited, climbed, _, length⟩ := lower
      have hook := tree.hooks tree.repeatHook (by simp only [List.mem_cons, true_or, or_true])
      rw [ancestry_parent hook, ancestry_root] at climbed
      cases climbed
      exact absurd deep (length ▸ Nat.lt_irrefl 1)

namespace SplitCommand

variable (split : SplitCommand tree outside)

/-- No command is replayed when the mode is entered. -/
def Quiet : Prop :=
  (tree.param split.modeOf).callback = some .showHistoryCallback → outside.historyCommand split.between = none

/-- The leaves of `q` as they were typed. -/
def typed : List Tlv :=
  typedTlvs tree split.pathQ split.q

/-- What the handler of `config` leaves below its checkpoint. -/
def remainder : Bytes :=
  if split.modeOf = tree.configHook then (commandCodeTlv (tree.param split.modeOf).cmdCode).encode else []

variable {split}

theorem inner : split.modeOf ∉ controls tree := by
  obtain ⟨first, others, same⟩ := List.exists_cons_of_ne_nil split.nonemptyR
  exact resolves_inner (same ▸ split.resolvesR)

theorem options : (tree.param split.modeOf).options ≠ [] := by
  obtain ⟨first, others, same⟩ := List.exists_cons_of_ne_nil split.nonemptyR
  exact resolves_options (same ▸ split.resolvesR)

theorem modeOf_positive : tree.isNegation split.modeOf = false := by
  refine split.positive _ ?_
  rw [modeOf, endOf, List.getLastD_eq_getLast?]
  have nonempty : split.pathQ ≠ [] := by
    intro none
    have length := split.resolvesQ.length
    rw [none] at length
    exact split.nonemptyQ (List.length_eq_zero_iff.mp length.symm)
  rw [List.getLast?_eq_some_getLast nonempty]
  exact List.getLast_mem nonempty

theorem pieces_short : split.q.length + 1 ≤ maxCmdTreeDepth := by
  have short := length_tokenizer split.cutPiece
  rwa [List.length_append] at short

/-- The end of the command keeps what is below the checkpoint. -/
theorem settles {collected handled : Cli ι} (collects : collected.tlvBuff.contents = encoded split.typed)
    (below : split.modeOf ≠ tree.root) (atMode : handled.cursor = split.modeOf)
    (buffer : handled.tlvBuff = if split.modeOf = tree.configHook then
      (enteringMode tree split.modeOf collected).tlvBuff.markCheckpoint
        else (enteringMode tree split.modeOf collected).tlvBuff) :
    (tree.restoreOrReset handled).tlvBuff.contents = encoded split.typed ++ split.remainder := by
  have entering : (enteringMode tree split.modeOf collected).tlvBuff.contents =
      encoded split.typed ++ (commandCodeTlv (tree.param split.modeOf).cmdCode).encode := by
    rw [← collects]
    exact contents_collectTlv collected.tlvBuff.markCheckpoint _
  rw [restoreOrReset, if_pos (by rw [atMode]; exact below), remainder]
  dsimp only
  rw [buffer]
  split
  · rw [contents_restoreCheckpoint (Nat.le_refl _), ← entering]
    exact List.take_of_length_le
      (Nat.le_of_eq (length_contents (enteringMode tree split.modeOf collected).tlvBuff))
  · have marked : (enteringMode tree split.modeOf collected).tlvBuff.checkpoint =
        (encoded split.typed).length := by
      rw [← collects, length_contents]
      rfl
    have ordered : (enteringMode tree split.modeOf collected).tlvBuff.checkpoint ≤
        (enteringMode tree split.modeOf collected).tlvBuff.next := Nat.le_add_right _ _
    rw [contents_restoreCheckpoint ordered, entering, marked, List.take_left, List.append_nil]

/-- Entering the mode leaves the leaves of `q` in the buffer, and for `config` the command code. -/
theorem enters (quiet : split.Quiet) : ∃ middle, Session.Carries tree outside split.piece split.start middle ∧
    middle.cursor = split.modeOf ∧ middle.asked = askedAfter tree split.modeOf split.between ∧
    middle.tlvBuff.contents = encoded split.typed ++ split.remainder := by
  obtain ⟨h, level, under, bounded⟩ := command_lands split.nonemptyQ split.resolvesQ split.inner
  have shallow : level ≤ maxCmdTreeDepth := Nat.le_trans bounded (Nat.le_of_succ_le split.pieces_short)
  have below : split.modeOf ≠ tree.root := under_below under
  obtain ⟨collected, tlvs, builds⟩ := build_mode split.resolvesQ split.options rfl split.atRoot split.positive
    split.modeOf_positive split.slash_mode under shallow
  have parsed := parseInputCmd_plain split.cutPiece (List.append_ne_nil_of_right_ne_nil _ (List.cons_ne_nil _ _))
    split.plainPiece builds
  have empty : split.start.tlvBuff.contents = [] := by rw [SerBuff.contents, split.clean, List.take_zero]
  have collects : collected.tlvBuff.contents = encoded split.typed := by
    rw [tlvs.contents, empty, List.nil_append]
    rfl
  cases registered : (tree.param split.modeOf).callback with
  | none =>
    have silent : tree.hasHandler split.modeOf = false := by rw [hasHandler, registered]; rfl
    have other : split.modeOf ≠ tree.configHook := fun same => by
      cases registered.symm.trans ((tree.config_handler _).mpr same)
    rw [silent] at parsed
    refine ⟨_, carries_command parsed, ?_, ?_, split.settles collects below rfl (if_neg other).symm⟩
    · rw [restoreOrReset, if_pos (by exact below)]
      rfl
    · rw [restoreOrReset, if_pos (by exact below), askedAfter, registered, if_neg (by simp)]
      exact tlvs.asked
  | some callback =>
    have handler : tree.hasHandler split.modeOf = true := by rw [hasHandler, registered]; rfl
    have outer := tree.modeless split.options (notRepeat_of_under split.nonemptyQ split.resolvesQ split.atRoot
      split.plainPiece split.inner)
    obtain ⟨handled, ran, atMode, asked, buffer⟩ :=
      runHandler_entering (enteringMode tree split.modeOf collected)
      .configEnable registered outer (fun replays => tlvs.asked.symm ▸ quiet replays) under shallow rfl
    rw [handler] at parsed
    refine ⟨_, carries_handled parsed ran, ?_, ?_, split.settles collects below atMode buffer⟩
    · rw [restoreOrReset, if_pos (by rw [atMode]; exact below)]
      exact atMode
    · rw [restoreOrReset, if_pos (by rw [atMode]; exact below)]
      exact asked.trans (congrArg (askedAfter tree split.modeOf) tlvs.asked)

variable (split) in
theorem whole_resolves : Resolves tree outside split.start.asked tree.root (split.q ++ split.r)
    (split.pathQ ++ split.pathR) split.ended :=
  split.resolvesQ.append split.resolvesR

theorem nonemptyPathR : split.pathR ≠ [] := by
  intro none
  have length := split.resolvesR.length
  rw [none] at length
  exact split.nonemptyR (List.length_eq_zero_iff.mp length.symm)

theorem pathMode_rest (mode : OpMode) : pathMode tree mode (split.pathQ ++ split.pathR) =
    pathMode tree mode split.pathR := by
  have unnegated : split.pathQ.any tree.isNegation = false :=
    List.any_eq_false.mpr fun p member => by rw [split.positive p member]; exact Bool.false_ne_true
  rw [pathMode, pathMode, List.any_append, unnegated, Bool.false_or]

/-- Both ways the dispatch does the same. -/
theorem dispatches_last : ∃ status call added,
    Dispatches tree (lastParent none split.modeOf split.pathR) split.last
    (pathMode tree .modeUnknown split.pathR) status call added := by
  have several : 2 ≤ (split.q ++ split.r).length := by
    have left := List.length_pos_iff.mpr split.nonemptyQ
    have right := List.length_pos_iff.mpr split.nonemptyR
    rw [List.length_append]
    omega
  obtain ⟨h, y, level, _, lands, bounded⟩ := command_branch several split.whole_resolves none
  have shallow := Nat.le_trans bounded (length_tokenizer split.cutWhole)
  have same := dispatches lands shallow (pathMode tree .modeUnknown (split.pathQ ++ split.pathR))
  rw [lastParent_append none split.nonemptyPathR, endOf_append, pathMode_rest] at same
  exact same

end SplitCommand

/-- A command that is found does what its dispatch does, behind the leaves it has collected. -/
theorem build_dispatches {status : CmdParseStatus} {call : Call ι} {added : Bytes} (atCursor : cli.cursor = p)
    (resolves : Resolves tree outside cli.asked p tokens path asked')
    (handler : tree.hasHandler (endOf p path) = true)
    (dispatched : Dispatches tree (lastParent none p path) (endOf p path)
      (pathMode tree .modeUnknown path) status call added) :
    ∃ after, tree.buildTlvBuffer outside tokens cli = .ok ⟨status, after, call⟩ ∧
      after.tlvBuff.contents = cli.tlvBuff.contents ++ encoded (typedTlvs tree path tokens) ++ added := by
  obtain ⟨collected, walks, tlvs⟩ := walk_resolves resolves none .modeUnknown rfl
  obtain ⟨after, does, contents⟩ := dispatched.uniform collected
  refine ⟨after, ?_, by rw [contents, tlvs.contents]⟩
  rw [buildTlvBuffer, atCursor, walks]
  dsimp only
  rw [if_pos handler, does]

namespace SplitCommand

/-- The last handler finds the same buffer both ways, unless the first words are those of `config`. -/
theorem sameEitherWay_iff (split : SplitCommand tree outside) (quiet : split.Quiet) :
    split.SameEitherWay ↔ split.modeOf ≠ tree.configHook := by
  obtain ⟨middle, carries, cursor, asked, entered⟩ := split.enters quiet
  obtain ⟨status, call, added, dispatched⟩ := split.dispatches_last
  have empty : split.start.tlvBuff.contents = [] := by rw [SerBuff.contents, split.clean, List.take_zero]
  obtain ⟨after, builds, contents⟩ := build_dispatches split.atRoot split.whole_resolves
    (by rw [endOf_append]; exact split.handler)
    (by rw [lastParent_append none split.nonemptyPathR, endOf_append, pathMode_rest]; exact dispatched)
  have alone : Resolves tree outside middle.asked split.modeOf split.r split.pathR _ :=
    asked.symm ▸ split.resolvesAlone
  obtain ⟨after', builds', contents'⟩ := build_dispatches cursor alone split.handler dispatched
  have parsed := parseInputCmd_plain split.cutWhole (List.append_ne_nil_of_left_ne_nil split.nonemptyQ _)
      split.plain builds
  have parsed' := parseInputCmd_plain split.cutRest split.nonemptyR
    (fun {first others} begun =>
      (shortcut_congr (by exact cursor) first others).trans (split.plainRest begun)) builds'
  have typed : typedTlvs tree (split.pathQ ++ split.pathR) (split.q ++ split.r) = _ :=
    typedTlvs_append split.resolvesQ.length
  rw [empty, List.nil_append, typed, encoded_append, List.append_assoc] at contents
  rw [entered, List.append_assoc, List.append_assoc] at contents'
  constructor
  · rintro ⟨middle', carries', whole, piece, tasks, left, right, same, _⟩ config
    cases carries'.unique carries
    cases left.symm.trans parsed
    cases right.symm.trans parsed'
    have more : split.remainder.length = 100 := by rw [remainder, if_pos config, length_encode]; rfl
    rw [contents, contents'] at same
    have lengths := congrArg List.length same
    simp only [List.length_append, more, SplitCommand.typed] at lengths
    omega
  · intro other
    have nothing : split.remainder = [] := by rw [remainder, if_neg other]
    refine ⟨middle, carries, after, after', _, parsed, parsed', ?_, fun ordinary => ?_⟩
    · rw [contents, contents', nothing, List.nil_append]
      rfl
    · obtain ⟨rfl, mode, rfl⟩ := dispatched.ordinary ordinary
      exact ⟨mode, rfl⟩

end SplitCommand

def nameWords : List Token :=
  [nameWord, valueWord]

/-- `config console /` and `name a`. -/
def consoleSplit : SplitCommand initLibcli unasked where
  start := (Session.started initLibcli).cli
  q := [configWord, consoleWord]
  r := nameWords
  slash := typedWord ['/']
  whole := ascii ['c', 'o', 'n', 'f', 'i', 'g', ' ', 'c', 'o', 'n', 's', 'o', 'l', 'e', ' ', 'n',
    'a', 'm', 'e', ' ', 'a']
  piece := ascii ['c', 'o', 'n', 'f', 'i', 'g', ' ', 'c', 'o', 'n', 's', 'o', 'l', 'e', ' ', '/']
  rest := ascii ['n', 'a', 'm', 'e', ' ', 'a']
  pathQ := [.configHook, .configConsole]
  pathR := [.configConsoleName, .configConsoleNameName]
  between := 0
  ended := 0
  endedAlone := 0
  atRoot := rfl
  clean := rfl
  slash_mode := rfl
  cutWhole := rfl
  cutPiece := rfl
  cutRest := rfl
  nonemptyQ := List.cons_ne_nil _ _
  nonemptyR := List.cons_ne_nil _ _
  resolvesQ := .cons rfl trivial (.cons rfl trivial (.nil 0 _))
  positive := by decide
  resolvesR := .cons rfl trivial (.cons rfl ⟨rfl, rfl⟩ (.nil 0 _))
  resolvesAlone := .cons rfl trivial (.cons rfl ⟨rfl, rfl⟩ (.nil 0 _))
  handler := rfl
  plain := by rintro _ _ ⟨rfl⟩; rfl
  plainPiece := by rintro _ _ ⟨rfl⟩; rfl
  plainRest := by rintro _ _ ⟨rfl⟩; rfl

theorem consoleSplit_sameEitherWay : consoleSplit.SameEitherWay :=
  (consoleSplit.sameEitherWay_iff nofun).mpr (by decide : LibParam.configConsole ≠ LibParam.configHook)

/-- `config /` and `console name a`. -/
def configSplit : SplitCommand initLibcli unasked where
  start := (Session.started initLibcli).cli
  q := [configWord]
  r := consoleWord :: nameWords
  slash := typedWord ['/']
  whole := ascii ['c', 'o', 'n', 'f', 'i', 'g', ' ', 'c', 'o', 'n', 's', 'o', 'l', 'e', ' ', 'n',
    'a', 'm', 'e', ' ', 'a']
  piece := ascii ['c', 'o', 'n', 'f', 'i', 'g', ' ', '/']
  rest := ascii ['c', 'o', 'n', 's', 'o', 'l', 'e', ' ', 'n', 'a', 'm', 'e', ' ', 'a']
  pathQ := [.configHook]
  pathR := [.configConsole, .configConsoleName, .configConsoleNameName]
  between := 0
  ended := 0
  endedAlone := 0
  atRoot := rfl
  clean := rfl
  slash_mode := rfl
  cutWhole := rfl
  cutPiece := rfl
  cutRest := rfl
  nonemptyQ := List.cons_ne_nil _ _
  nonemptyR := List.cons_ne_nil _ _
  resolvesQ := .cons rfl trivial (.nil 0 _)
  positive := by decide
  resolvesR := .cons rfl trivial (.cons rfl trivial (.cons rfl ⟨rfl, rfl⟩ (.nil 0 _)))
  resolvesAlone := .cons rfl trivial (.cons rfl trivial (.cons rfl ⟨rfl, rfl⟩ (.nil 0 _)))
  handler := rfl
  plain := by rintro _ _ ⟨rfl⟩; rfl
  plainPiece := by rintro _ _ ⟨rfl⟩; rfl
  plainRest := by rintro _ _ ⟨rfl⟩; rfl

/-- The handler of `name` finds the command code of `config` in front of the name. -/
theorem configSplit_differs : ¬ ∀ split : SplitCommand initLibcli unasked, split.SameEitherWay := by
  intro always
  obtain ⟨middle, carries, whole, piece, tasks, left, right, same, _⟩ := always configSplit
  have entered : ∃ middle, Session.run initLibcli unasked 3
      ⟨configSplit.start, [.parseInputCmd configSplit.piece]⟩ =
      .ok ⟨middle, []⟩ ∧
      (initLibcli.parseInputCmd unasked configSplit.rest middle).toOption.map
      (fun out => out.1.tlvBuff.next) = some 300 :=
    ⟨_, rfl, rfl⟩
  obtain ⟨middle', ran, long⟩ := entered
  cases carries.unique ⟨3, ran⟩
  rw [right] at long
  have short : (initLibcli.parseInputCmd unasked configSplit.whole configSplit.start).toOption.map
      (fun out => out.1.tlvBuff.next) = some 200 := rfl
  rw [left] at short
  have next : whole.tlvBuff.next = 200 := Option.some.inj short
  have next' : piece.tlvBuff.next = 300 := Option.some.inj long
  have lengths := congrArg List.length same
  rw [length_contents, length_contents, next, next'] at lengths
  cases lengths

end TcpServerLib.Soundness
