import TcpServerLib.Machine.Path
import TcpServerLib.Refinement.CommandBuild
import TcpServerLib.Refinement.SessionRuns
import TcpServerLib.Soundness.DecodedCommands

/-! # The prefix of a mode

While the user is in a mode, the buffer is to hold the leaves above the cursor, with the values they
were given, and nothing else. The checkpoint may therefore be marked only where nothing but these
leaves is in the buffer, and the buffer may be reset only where there are none. Both go wrong: the
mode of `config` is marked behind the command code, a command from the history is carried out on
top of the command that asked for it, and loading a file resets the buffer first.
-/

namespace TcpServerLib.Soundness

open Machine Model CommandTree Refinement

variable {ι : Type*} {tree : CommandTree ι} {outside : Outside} {tokens : List Token} {p : ι}
  {cli middle after : Cli ι} {leaves : List ι} {next : List (CliTask ι)}

def ModePrefix (tree : CommandTree ι) (cli : Cli ι) : Prop :=
  (cli.cursor = tree.root ∧ cli.tlvBuff.next = 0 ∧ cli.tlvBuff.checkpoint = 0) ∨
    cli.tlvBuff.next = cli.tlvBuff.checkpoint ∧
      cli.tlvBuff.b.take cli.tlvBuff.checkpoint = leavesData tree cli

/-- Nothing but the leaves above the cursor is in the buffer. -/
def Settled (tree : CommandTree ι) (cli : Cli ι) : Prop :=
  cli.tlvBuff.contents = leavesData tree cli

/-- The bytes below the checkpoint are the leaves above the cursor. -/
structure Restorable (tree : CommandTree ι) (cli : Cli ι) : Prop where
  ordered : cli.tlvBuff.checkpoint ≤ cli.tlvBuff.next
  below : cli.cursor ≠ tree.root → cli.tlvBuff.contents.take cli.tlvBuff.checkpoint = leavesData tree cli

theorem leavesData_congr (cursor : after.cursor = cli.cursor)
    (values : ∀ r ∈ leafPath tree cli.cursor, after.valueHolder r = cli.valueHolder r) :
    leavesData tree after = leavesData tree cli := by
  rw [leavesData, leavesData, cursor, tlvOf_congr values]

theorem leavesData_none (none : leafPath tree cli.cursor = []) : leavesData tree cli = [] := by
  rw [leavesData, none]
  rfl

theorem ModePrefix.settled (mode : ModePrefix tree cli) : Settled tree cli := by
  rcases mode with ⟨root, next, _⟩ | ⟨same, below⟩
  · rw [Settled, leavesData_none (by rw [root, leafPath_root]), SerBuff.contents, next, List.take_zero]
  · rw [Settled, SerBuff.contents, same, below]

theorem ModePrefix.restorable (mode : ModePrefix tree cli) : Restorable tree cli := by
  have settled := mode.settled
  rcases mode with ⟨root, next, checkpoint⟩ | ⟨same, below⟩
  · exact ⟨by rw [next, checkpoint], fun down => absurd root down⟩
  · refine ⟨Nat.le_of_eq same.symm, fun _ => ?_⟩
    rw [List.take_of_length_le (Nat.le_of_eq ((length_contents _).trans same)), settled]

theorem restorable_of_settled (settled : Settled tree cli) (marked : cli.tlvBuff.checkpoint = cli.tlvBuff.next) :
    Restorable tree cli :=
  ⟨Nat.le_of_eq marked, fun _ => by
    rw [List.take_of_length_le (Nat.le_of_eq ((length_contents _).trans marked.symm)), settled]⟩

theorem restorable_at_root (root : cli.cursor = tree.root)
    (ordered : cli.tlvBuff.checkpoint ≤ cli.tlvBuff.next) :
    Restorable tree cli :=
  ⟨ordered, fun down => absurd root down⟩

theorem settled_reset (none : leafPath tree cli.cursor = []) : Settled tree cli.resetBuffer := by
  have nothing : leavesData tree cli.resetBuffer = [] := leavesData_none none
  rw [Settled, nothing]
  exact List.take_zero

theorem restorable_reset (none : leafPath tree cli.cursor = []) : Restorable tree cli.resetBuffer :=
  restorable_of_settled (settled_reset none) rfl

theorem Restorable.appended (restorable : Restorable tree cli) (appended : Appended tree cli after) :
    Restorable tree after := by
  obtain ⟨added, contents⟩ := appended.contents
  have longer := congrArg List.length contents
  rw [List.length_append, length_contents, length_contents] at longer
  have ordered := restorable.ordered
  refine ⟨by rw [appended.checkpoint]; omega, fun down => ?_⟩
  rw [leavesData_congr appended.cursor appended.values, appended.checkpoint, contents,
    List.take_append_of_le_length (by rw [length_contents]; exact ordered)]
  exact restorable.below (appended.cursor ▸ down)

theorem restorable_of_entered (entered : Entered tree cli after p leaves) (settled : Settled tree cli) :
    Restorable tree after := by
  obtain ⟨code, contents⟩ := entered.contents
  have longer := congrArg List.length contents
  rw [List.length_append, ← entered.checkpoint, length_contents] at longer
  refine ⟨by omega, fun _ => ?_⟩
  rw [contents, entered.checkpoint, List.take_left, settled, leavesData, leavesData, entered.cursor, entered.path,
    List.map_append, encoded_append, tlvOf_congr entered.values]

variable [DecidableEq ι]

/-- Restoring the checkpoint at the end of a command leaves the prefix and nothing else. -/
theorem Restorable.restored (restorable : Restorable tree cli) : ModePrefix tree (tree.restoreOrReset cli) := by
  rw [restoreOrReset]
  split
  · next down =>
    refine .inr ⟨rfl, ?_⟩
    have kept := contents_restoreCheckpoint restorable.ordered
    rw [restorable.below down] at kept
    exact kept
  · next root => exact .inl ⟨not_not.mp root, rfl, rfl⟩

def CarefulLine (tree : CommandTree ι) (outside : Outside) (cli : Cli ι) : List Token → Prop
  | [] => True
  | first :: rest =>
    match tree.shortcut cli first rest with
    | some .oneLevelUp => tree.isLeaf cli.cursor = true → Settled tree cli
    | some .configLoad => (outside.file cli.asked).isSome = true → leafPath tree cli.cursor = []
    | none => ∀ p, p ≠ tree.root → EntersMode tree outside (first :: rest) cli p → Settled tree cli
    | _ => True

def CarefulHandler (tree : CommandTree ι) (p : ι) (cli : Cli ι) : Prop :=
  match (tree.param p).callback with
  | some .configModeEnterHandler => cli.tlvBuff.next = 0
  | some .exitCmdHandler => tree.isLeaf cli.cursor = true → Settled tree cli
  | _ => True

/-- A mode is entered, or a leaf left, with nothing else in the buffer; the handler of `config`
starts with an empty one; no line of a file is executed below a leaf. -/
def Careful (tree : CommandTree ι) (outside : Outside) (s : Session ι) : CliEvent ι → Prop
  | .carryOut (.parseInputCmd line) => ∀ tokens, tokenizer line 32 = .ok tokens →
      CarefulLine tree outside s.cli tokens
  | .carryOut (.fileLine _) => leafPath tree s.cli.cursor = []
  | .carryOut (.handler p _) => CarefulHandler tree p s.cli
  | _ => True

theorem build_restorable {built : Built ι} (builds : tree.buildTlvBuffer outside tokens cli = .ok built)
    (restorable : Restorable tree cli)
    (careful : ∀ p, p ≠ tree.root → EntersMode tree outside tokens cli p → Settled tree cli) :
    Restorable tree built.cli := by
  rcases build_cases builds with appended | ⟨_, root, ordered⟩ | ⟨p, leaves, below, enters, entered⟩
  · exact restorable.appended appended
  · exact restorable_at_root root ordered
  · exact restorable_of_entered entered (careful p below enters)

theorem gotoTop_restorable (went : tree.gotoTopOfCmdTree cli = .ok after) (restorable : Restorable tree cli) :
    Restorable tree after := by
  rw [gotoTopOfCmdTree] at went
  split at went
  · cases went
    exact restorable
  · split at went
    · cases went
    · split at went
      · cases went
      · cases went
        exact restorable_at_root rfl (Nat.le_refl 0)

/-- A leaf that is left takes its TLV with it. -/
theorem leaveLeaf_below {parent : ι} (left : tree.leaveLeaf cli = .ok after) (restorable : Restorable tree cli)
    (down : cli.cursor ≠ tree.root) (registered : (tree.param cli.cursor).parent = some parent)
    (careful : tree.isLeaf cli.cursor = true → Settled tree cli) :
    after.tlvBuff.checkpoint ≤ after.tlvBuff.next ∧ after.tlvBuff.contents.take after.tlvBuff.checkpoint =
      encoded ((leafPath tree parent).map (tree.tlvOf after.valueHolder)) := by
  have upper := leafPath_parent registered
  rw [leaveLeaf] at left
  split at left
  · next leaf =>
    rw [List.filter_cons_of_pos leaf, List.filter_nil] at upper
    have settled := careful leaf
    rw [Settled, leavesData, upper, List.map_append, encoded_append, List.map_singleton,
      encoded_singleton] at settled
    have size := length_contents cli.tlvBuff
    rw [settled, List.length_append, length_encode] at size
    rw [SerBuff.rewind, if_pos (by omega)] at left
    cases left
    have distinct := leafPath_nodup tree cli.cursor
    rw [upper, List.nodup_append] at distinct
    have kept : ∀ r ∈ leafPath tree parent,
        Function.update cli.valueHolder cli.cursor emptyValue r = cli.valueHolder r := by
      intro r member
      refine Function.update_of_ne (fun same => ?_) _ _
      exact distinct.2.2 r member cli.cursor List.mem_cons_self same
    have shorter : cli.tlvBuff.contents.take (cli.tlvBuff.next - tlvSize) =
        encoded ((leafPath tree parent).map (tree.tlvOf cli.valueHolder)) := by
      rw [settled]
      exact List.take_left' (by omega)
    refine ⟨Nat.le_refl _, ?_⟩
    rw [tlvOf_congr kept, ← shorter]
    change ((cli.tlvBuff.b.take (cli.tlvBuff.next - tlvSize)).take (cli.tlvBuff.next - tlvSize)) =
      (cli.tlvBuff.b.take cli.tlvBuff.next).take (cli.tlvBuff.next - tlvSize)
    rw [List.take_take, List.take_take, Nat.min_self, Nat.min_eq_left (Nat.sub_le _ _)]
  · next command =>
    cases left
    rw [List.filter_cons_of_neg command, List.filter_nil, List.append_nil] at upper
    refine ⟨restorable.ordered, ?_⟩
    rw [restorable.below down, leavesData, upper]

theorem goOneLevelUp_restorable (went : tree.goOneLevelUpCmdTree cli = .ok after)
    (restorable : Restorable tree cli)
    (careful : tree.isLeaf cli.cursor = true → Settled tree cli) : Restorable tree after := by
  rw [goOneLevelUpCmdTree] at went
  split at went
  · cases went
    exact restorable
  · next down =>
    split at went
    · cases went
    · next left =>
      split at went
      · cases went
      · next registered =>
        obtain ⟨ordered, below⟩ := leaveLeaf_below left restorable down registered careful
        split at went
        · next root =>
          cases went
          exact restorable_at_root root (Nat.le_refl 0)
        · split at went
          · cases went
          · cases went
            exact ⟨ordered, fun _ => below⟩

omit [DecidableEq ι] in
theorem Restorable.asked (restorable : Restorable tree cli) (asked : ℕ) : Restorable tree { cli with asked } :=
  ⟨restorable.ordered, restorable.below⟩

omit [DecidableEq ι] in
theorem Restorable.answered {α : Type*} {answers : ℕ → α} {answer : α} (restorable : Restorable tree cli)
    (question : cli.ask answers = (answer, after)) : Restorable tree after := by
  cases question
  exact restorable.asked _

omit [DecidableEq ι] in
theorem Restorable.invoke (restorable : Restorable tree cli) (p : ι) (buffer : Option SerBuff) (mode : OpMode) :
    Restorable tree (cli.invoke p buffer mode) :=
  ⟨restorable.ordered, restorable.below⟩

/-- The handler of `config` is the only one that marks the checkpoint. -/
theorem configModeEnter_restorable (config : p = tree.configHook)
    (entered : tree.configModeEnterHandler p cli = .ok after) (empty : cli.tlvBuff.next = 0) :
    Restorable tree after := by
  rw [configModeEnterHandler] at entered
  split at entered
  · cases entered
  · cases entered
    refine restorable_of_settled ?_ rfl
    have none : leafPath tree tree.configHook = [] :=
      leafPath_hook (by simp only [List.mem_cons, true_or, or_true])
    have nothing : leavesData tree (cli.setCmdTreeCursor p).markCheckpoint = [] :=
      leavesData_none (by rw [config]; exact none)
    rw [Settled, nothing]
    change cli.tlvBuff.b.take cli.tlvBuff.next = []
    rw [empty, List.take_zero]

omit [DecidableEq ι] in
theorem runTestCase_restorable (ran : runTestCase outside cli = .ok (after, next))
    (restorable : Restorable tree cli) :
    Restorable tree after := by
  rw [runTestCase] at ran
  split at ran
  · cases ran
  · next question =>
    cases ran
    exact restorable.answered question

theorem runHandler_restorable {mode : OpMode} (ran : tree.runHandler outside p mode cli = .ok (after, next))
    (restorable : Restorable tree cli) (careful : CarefulHandler tree p cli) : Restorable tree after := by
  have invoked := restorable.invoke p (some cli.tlvBuff) mode
  rw [CarefulHandler] at careful
  cases runHandler_runs ran with
  | configModeEnterHandler registered marked =>
    rw [registered] at careful
    exact configModeEnter_restorable ((tree.config_handler p).mp registered) marked careful
  | exitCmdHandler registered went =>
    rw [registered] at careful
    exact goOneLevelUp_restorable went invoked careful
  | endCmdHandler went => exact gotoTop_restorable went invoked
  | commandChosen asked => exact invoked.asked asked
  | runTestCase tested => exact runTestCase_restorable tested invoked
  | showExtension => exact invoked.appended ((Appended.refl _).collectTlv _)
  | nothing asked => exact invoked.asked asked

/-- The buffer that is built from the values in the tree. -/
theorem buildCmdTreeLeavesData_settled (rebuilt : tree.buildCmdTreeLeavesData cli = .ok after) :
    Settled tree after ∧ after.cursor = cli.cursor ∧ after.valueHolder = cli.valueHolder := by
  rw [buildCmdTreeLeavesData] at rebuilt
  split at rebuilt
  · cases rebuilt
  · next visited climbed =>
    split at rebuilt
    · cases rebuilt
    · cases rebuilt
      refine ⟨?_, rfl, rfl⟩
      have above := leafPath_ancestry climbed
      have collected := contents_collected cli.tlvBuff.reset
        ((visited.filter tree.isLeaf).map (tree.tlvOf cli.valueHolder))
      have nothing : cli.tlvBuff.reset.contents = [] := List.take_zero
      rw [nothing, List.nil_append] at collected
      have reversed := contents_reverseTlvs collected
      rw [← List.map_reverse, ← above] at reversed
      exact reversed

theorem afterDo_restorable {old : ι} (carried : tree.afterDo old cli = .ok after)
    (restorable : Restorable tree cli) :
    Restorable tree after := by
  rw [afterDo] at carried
  split at carried
  · split at carried
    · cases carried
    · split at carried
      · cases carried
      · cases carried
        exact restorable
  · obtain ⟨rebuilt, leaves, rfl⟩ := map_ok carried
    obtain ⟨settled, _⟩ := buildCmdTreeLeavesData_settled leaves
    exact restorable_of_settled settled rfl

omit [DecidableEq ι] in
theorem parseFile_restorable (parsed : parseFile outside cli = (after, next)) (restorable : Restorable tree cli)
    (careful : (outside.file cli.asked).isSome = true → leafPath tree cli.cursor = []) :
    Restorable tree after := by
  rw [parseFile] at parsed
  split at parsed
  · next question =>
    cases parsed
    exact restorable.answered question
  · next lines read question =>
    cases parsed
    obtain ⟨file, rfl⟩ := Prod.mk.inj question
    exact restorable_reset (careful (by rw [file]; rfl))

/-- A line keeps the prefix, up to the first call that may come back to the parser. -/
theorem parseInputCmd_restorable {line : Bytes} (parsed : tree.parseInputCmd outside line cli = .ok (after, next))
    (restorable : Restorable tree cli)
    (careful : ∀ tokens, tokenizer line 32 = .ok tokens → CarefulLine tree outside cli tokens) :
    Restorable tree after := by
  cases parseInputCmd_parses parsed with
  | empty => exact ⟨restorable.ordered, restorable.below⟩
  | command cut ordinary builds =>
    have settled := careful _ cut
    rw [CarefulLine, ordinary] at settled
    exact build_restorable builds restorable settled
  | doCommand _ _ _ builds =>
    have none : leafPath tree (cli.setCmdTreeCursor tree.doHook).cursor = [] := leafPath_doHook
    exact build_restorable builds (restorable_reset none) fun _ _ _ => settled_reset none
  | ignored => exact restorable
  | repeatCommand => exact restorable
  | oneLevelUp cut word went =>
    have settled := careful _ cut
    rw [CarefulLine, word] at settled
    exact goOneLevelUp_restorable went restorable settled
  | top _ _ went => exact gotoTop_restorable went restorable
  | runUt _ _ tested => exact runTestCase_restorable tested restorable
  | configLoad cut word loaded =>
    have top := careful _ cut
    rw [CarefulLine, word] at top
    exact parseFile_restorable loaded restorable top

theorem carryOut_restorable {task : CliTask ι} (carried : tree.carryOut outside task cli = .ok (after, next))
    (restorable : Restorable tree cli) (careful : Careful tree outside ⟨cli, next⟩ (.carryOut task)) :
    Restorable tree after := by
  cases task with
  | parseInputCmd line => exact parseInputCmd_restorable carried restorable careful
  | fileLine line =>
    rw [carryOut, parseFileLine] at carried
    split at carried
    · cases carried
    · split at carried
      · cases carried
      · next builds =>
        cases carried
        exact build_restorable builds (restorable_reset careful) fun _ _ _ => settled_reset careful
  | handler p mode => exact runHandler_restorable carried restorable careful
  | repeatHandler =>
    cases carried
    exact (restorable.invoke _ _ _).asked _
  | afterDo old =>
    obtain ⟨done, done', same⟩ := map_ok carried
    cases same
    exact afterDo_restorable done' restorable
  | endOfCommand status =>
    cases carried
    have mode := restorable.restored.restorable
    exact ⟨mode.ordered, mode.below⟩
  | endOfFileLine =>
    cases carried
    exact restorable.restored.restorable
  | expectComplete =>
    rw [carryOut] at carried
    split at carried
    · cases carried
      exact restorable
    · cases carried

/-- Between two commands the buffer holds the prefix; while one is being processed, the prefix can
be restored, and that is the last thing that is done. -/
structure InOrder (tree : CommandTree ι) (s : Session ι) : Prop where
  restorable : Restorable tree s.cli
  ends : ((s.tasks = [] ∨ ∃ line, s.tasks = [.parseInputCmd line]) ∧ ModePrefix tree s.cli) ∨
    ∃ front status, s.tasks = front ++ [.endOfCommand status]

omit [DecidableEq ι] in
theorem inOrder_started (tree : CommandTree ι) : InOrder tree (.started tree) :=
  have mode : ModePrefix tree (Session.started tree).cli := .inl ⟨rfl, rfl, rfl⟩
  ⟨mode.restorable, .inl ⟨.inl rfl, mode⟩⟩

theorem inOrder_step {s t : Session ι} {e : CliEvent ι}
    (step : Guarded (Session.Step tree outside) (Careful tree outside) s e t)
    (inOrder : InOrder tree s) : InOrder tree t := by
  obtain ⟨careful, step⟩ := step
  cases step with
  | typed line cli =>
    rcases inOrder.ends with ⟨_, mode⟩ | ⟨front, status, none⟩
    · exact ⟨inOrder.restorable, .inl ⟨.inr ⟨line, rfl⟩, mode⟩⟩
    · exact absurd none.symm (List.append_ne_nil_of_right_ne_nil _ (List.cons_ne_nil _ _))
  | @carryOut task rest next cli after carried =>
    refine ⟨carryOut_restorable carried inOrder.restorable careful, ?_⟩
    rcases inOrder.ends with ⟨idle | ⟨line, only⟩, mode⟩ | ⟨front, status, ends⟩
    · cases idle
    · cases only
      rw [List.append_nil]
      rcases (parseInputCmd_parses carried).ends with ⟨blank, same⟩ | ends
      · rw [same, blank]
        exact .inl ⟨.inl rfl, mode⟩
      · exact .inr ends
    · cases front with
      | nil =>
        cases ends
        cases carried
        exact .inl ⟨.inl rfl, inOrder.restorable.restored⟩
      | cons first front =>
        cases ends
        exact .inr ⟨next ++ front, status, (List.append_assoc _ _ _).symm⟩

/-- The prefix of the mode is right after every command of a careful session. -/
theorem modePrefix_careful {es : List (CliEvent ι)} {s : Session ι}
    (path : Path (Guarded (Session.Step tree outside) (Careful tree outside)) (.started tree) es s)
    (idle : s.tasks = []) : ModePrefix tree s.cli := by
  have inOrder := path.invariant inOrder_step (inOrder_started tree)
  rcases inOrder.ends with ⟨_, mode⟩ | ⟨front, status, ends⟩
  · exact mode
  · rw [idle] at ends
    exact absurd ends.symm (List.append_ne_nil_of_right_ne_nil _ (List.cons_ne_nil _ _))

def consoleModeLine : Bytes :=
  ascii ['c', 'o', 'n', 'f', 'i', 'g', ' ', 'c', 'o', 'n', 's', 'o', 'l', 'e', ' ', '/']

theorem consoleMode_path : ∃ s, Path (Guarded (Session.Step initLibcli unasked) (Careful initLibcli unasked))
    (.started initLibcli) [.typed consoleModeLine, .carryOut (.parseInputCmd consoleModeLine),
      .carryOut (.endOfCommand .complete)] s ∧ s.tasks = [] ∧ s.cli.cursor = .configConsole := by
  have started : ModePrefix initLibcli (Session.started initLibcli).cli := .inl ⟨rfl, rfl, rfl⟩
  refine Path.exists_cons ⟨trivial, .typed consoleModeLine _⟩ ?_
  refine Path.exists_cons ⟨?_, .carryOut rfl⟩ ?_
  · rintro _ ⟨rfl⟩ p _ _
    exact started.settled
  · exact Path.exists_cons ⟨trivial, .carryOut rfl⟩ ⟨_, .nil _, rfl, rfl⟩

theorem modePrefix_consoleMode : ∃ s : Session LibParam, s.cli.cursor = .configConsole ∧
    ModePrefix initLibcli s.cli := by
  obtain ⟨s, path, idle, cursor⟩ := consoleMode_path
  exact ⟨s, cursor, modePrefix_careful path idle⟩

def configModeLine : Bytes :=
  ascii ['c', 'o', 'n', 'f', 'i', 'g', ' ', '/']

/-- The command code of `config` stays below the checkpoint. -/
theorem modePrefix_configMode : ¬ ∀ (es : List (CliEvent LibParam)) (s : Session LibParam),
    Path (Session.Step initLibcli unasked) (.started initLibcli) es s → s.tasks = [] →
    ModePrefix initLibcli s.cli := by
  intro always
  have entered : ∃ s, Path (Session.Step initLibcli unasked) (.started initLibcli)
      [.typed configModeLine, .carryOut (.parseInputCmd configModeLine),
        .carryOut (.handler .configHook .configEnable), .carryOut (.endOfCommand .complete)] s ∧
      s.tasks = [] ∧ s.cli.cursor = .configHook ∧ s.cli.tlvBuff.next = 100 := by
    refine Path.exists_cons (.typed configModeLine _) ?_
    refine Path.exists_cons (.carryOut rfl) ?_
    refine Path.exists_cons (.carryOut rfl) ?_
    exact Path.exists_cons (.carryOut rfl) ⟨_, .nil _, rfl, rfl, rfl⟩
  obtain ⟨s, path, idle, cursor, next⟩ := entered
  have settled := (always _ s path idle).settled
  have size := length_contents s.cli.tlvBuff
  have none : leafPath initLibcli s.cli.cursor = [] := by
    rw [cursor]
    decide
  rw [settled, leavesData_none none, next] at size
  cases size

end TcpServerLib.Soundness
