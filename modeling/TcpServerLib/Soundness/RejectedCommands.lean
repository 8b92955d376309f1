import TcpServerLib.Model.ConsoleName
import TcpServerLib.Soundness.DoExcursions

/-! # Rejected commands

A command is rejected by the walk down the tree, or because the param it ends at has no handler. Then
nothing has been called, and what has been collected lies behind the checkpoint. A `do` that is rejected
rebuilds the prefix from values that the walk has not touched.
-/

namespace TcpServerLib.Soundness

open Machine Model CommandTree Refinement

variable {ι : Type*} [DecidableEq ι] {tree : CommandTree ι} {outside : Outside} {device : DeviceName ι}
  {line : Bytes}
  {tokens : List Token} {tasks : List (CliTask ι)} {cli after : Cli ι} {built : Built ι} {consoleName : Bytes}

/-- What a rejected command leaves as it was. -/
structure Unchanged (before after : Shell ι) : Prop where
  invoked : after.cli.invoked = before.cli.invoked
  consoleName : after.consoleName = before.consoleName
  mode : ModeKept before.cli after.cli

/-- A command that is rejected has called nothing and has entered no mode. -/
structure RejectedBuild (tree : CommandTree ι) (outside : Outside) (tokens : List Token)
    (cli : Cli ι) (built : Built ι) : Prop where
  call : built.call = none
  invoked : built.cli.invoked = cli.invoked
  appended : Appended tree cli built.cli
  name : ∀ consoleName, tree.builtConsoleName outside tokens cli consoleName = .ok consoleName

theorem dispatch_rejected {parent : Option ι} {p : ι} {mode : OpMode}
    (dispatched : tree.dispatch parent p mode cli = .ok built) (rejected : built.status ≠ .complete) :
    p = tree.showBriefExtension ∧ built.call = none ∧ built.cli = cli := by
  unfold dispatch at dispatched
  split at dispatched
  · next brief =>
    split at dispatched
    · cases dispatched
    · split at dispatched
      · cases dispatched
        exact absurd rfl rejected
      · cases dispatched
        exact ⟨brief, rfl, rfl⟩
  · split at dispatched
    · split at dispatched
      · cases dispatched
      · cases dispatched
        exact absurd rfl rejected
    · split at dispatched
      · split at dispatched
        · cases dispatched
        · split at dispatched
          · cases dispatched
          · cases dispatched
            exact absurd rfl rejected
      · split at dispatched
        · cases dispatched
          exact absurd rfl rejected
        · split at dispatched
          · cases dispatched
          · cases dispatched
            exact absurd rfl rejected

theorem build_rejected (builds : tree.buildTlvBuffer outside tokens cli = .ok built)
    (rejected : built.status ≠ .complete) :
    RejectedBuild tree outside tokens cli built := by
  rw [buildTlvBuffer] at builds
  split at builds
  · cases builds
  · next walks =>
    cases builds
    obtain ⟨q, leaves, collected⟩ := walk_ends walks
    exact ⟨rfl, collected.invoked, collected.appended, fun consoleName => by rw [builtConsoleName, walks]⟩
  · next parent p mode walked walks =>
    obtain ⟨invoked, appended⟩ : walked.invoked = cli.invoked ∧ Appended tree cli walked := by
      rcases walk_ends walks with ⟨leaves, collected, _⟩ | ⟨_, q, leaves, _, _, collected⟩
      · exact ⟨collected.invoked, collected.appended⟩
      · exact ⟨collected.invoked, collected.appended⟩
    have unnamed (other : p ≠ tree.modeParam) (consoleName : Bytes) :
        tree.builtConsoleName outside tokens cli consoleName = .ok consoleName := by
      rw [builtConsoleName, walks]
      cases parent with
      | none => rfl
      | some parent => exact if_neg fun enters => other enters.1
    split at builds
    · obtain ⟨brief, call, same⟩ := dispatch_rejected builds rejected
      exact ⟨call, same ▸ invoked, same ▸ appended, unnamed (brief ▸ modeParam_apart.1.symm)⟩
    · next silent =>
      cases builds
      refine ⟨rfl, invoked, appended, unnamed ?_⟩
      rintro rfl
      exact silent tree.mode_handler

theorem shell_finishes {shell shell' : Shell ι}
    (carried : Shell.Carried tree outside device shell tasks shell') :
    Finishes tree outside shell.cli tasks shell'.cli := by
  induction carried with
  | done shell => exact finishes_nil.mpr rfl
  | @task task rest next shell middle after carried goesOn ih =>
    rw [Shell.carryOut] at carried
    split at carried
    · next cli next consoleName carriedOut named =>
      cases carried
      exact finishes_cons.mpr ⟨_, _, carriedOut, ih⟩
    · cases carried
    · cases carried

/-- The status of a command is returned at its end. -/
theorem returned_last {status : CmdParseStatus}
    (ends : Finishes tree outside cli (tasks ++ [.endOfCommand status]) after) :
    after.returned = status := by
  obtain ⟨middle, _, last⟩ := (finishes_last fun _ => ⟨_, rfl⟩).mp ends
  cases last
  rfl

theorem carried_end {status : CmdParseStatus} {shell shell' : Shell ι}
    (carried : Shell.Carried tree outside device shell [.endOfCommand status] shell') :
    shell' = ⟨{ tree.restoreOrReset shell.cli with returned := status }, shell.consoleName⟩ := by
  cases carried with
  | task carried goesOn =>
    cases carried
    cases goesOn
    rfl

theorem carryOut_afterDo {old : ι} {next : List (CliTask ι)} {shell shell' : Shell ι}
    (carried : Shell.carryOut tree outside device (.afterDo old) shell = .ok (shell', next)) :
    ∃ rebuilt, tree.afterDo old shell.cli = .ok rebuilt ∧ shell' = ⟨rebuilt, shell.consoleName⟩ ∧
    next = [] := by
  rw [Shell.carryOut] at carried
  split at carried
  · next back named =>
    cases carried
    cases named
    obtain ⟨rebuilt, rebuilds, same⟩ := map_ok back
    cases same
    exact ⟨_, rebuilds, rfl, rfl⟩
  · cases carried
  · cases carried

/-- What has only been added to is restored. -/
theorem modeKept_appended (marked : cli.tlvBuff.next = cli.tlvBuff.checkpoint)
    (leaves : cli.tlvBuff.b.take cli.tlvBuff.checkpoint = leavesData tree cli)
    (appended : Appended tree cli after)
    (status : CmdParseStatus) : ModeKept cli { tree.restoreOrReset after with returned := status } := by
  have whole : cli.tlvBuff.contents =
      cli.tlvBuff.b.take cli.tlvBuff.checkpoint := by rw [SerBuff.contents, marked]
  rw [restoreOrReset]
  split
  · have restorable : Restorable tree cli := restorable_of_settled (whole.trans leaves) marked.symm
    obtain ⟨added, contents⟩ := appended.contents
    have kept := contents_restoreCheckpoint (restorable.appended appended).ordered
    rw [contents, appended.checkpoint, ← marked, ← length_contents, List.take_left, whole] at kept
    refine ⟨appended.cursor, ?_, appended.checkpoint, ?_⟩
    · exact appended.checkpoint.trans marked.symm
    · exact kept
  · next root =>
    have atRoot : cli.cursor = tree.root := appended.cursor ▸ not_not.mp root
    rw [leavesData_none (by rw [atRoot, leafPath_root]), List.take_eq_nil_iff] at leaves
    have positive := cli.tlvBuff.positive
    have zero : cli.tlvBuff.checkpoint = 0 := by
      rcases leaves with zero | empty
      · exact zero
      · rw [empty] at positive
        exact absurd positive (Nat.lt_irrefl 0)
    refine ⟨appended.cursor, ?_, ?_, ?_⟩
    · exact (marked.trans zero).symm
    · exact zero.symm
    · rw [zero]
      rfl

theorem buildCmdTreeLeavesData_invoked (rebuilt : tree.buildCmdTreeLeavesData cli = .ok after) :
    after.invoked = cli.invoked := by
  rw [buildCmdTreeLeavesData] at rebuilt
  split at rebuilt
  · cases rebuilt
  · split at rebuilt
    · cases rebuilt
    · cases rebuilt
      rfl

/-- After a rejected `do` the prefix is rebuilt as it was. -/
theorem modeKept_afterDo (marked : cli.tlvBuff.next = cli.tlvBuff.checkpoint)
    (leaves : cli.tlvBuff.b.take cli.tlvBuff.checkpoint = leavesData tree cli)
    (branch : tree.getCurrentBranchHook cli.cursor = .ok tree.configHook)
    (builds : tree.buildTlvBuffer outside tokens (atDoHook tree cli) = .ok built)
    (rejected : RejectedBuild tree outside tokens (atDoHook tree cli) built) {rebuilt : Cli ι}
    (back : tree.afterDo cli.cursor built.cli = .ok rebuilt) (status : CmdParseStatus) :
    ModeKept cli { tree.restoreOrReset rebuilt with returned := status } ∧ rebuilt.invoked = cli.invoked := by
  obtain ⟨level, under⟩ := configHook_under branch
  obtain ⟨kept, _⟩ := build_apart builds (configHook_other tree) (apartFrom_doHook tree _)
  have atDo : built.cli.cursor = tree.doHook := rejected.appended.cursor
  rw [afterDo, if_neg (not_not.mpr atDo)] at back
  obtain ⟨data, collected, rfl⟩ := map_ok back
  obtain ⟨settled, cursor, values⟩ := buildCmdTreeLeavesData_settled collected
  have cursorMarked : data.markCheckpoint.cursor = cli.cursor := cursor
  refine ⟨modeKept_rebuilt marked leaves under ?_ cursorMarked settled rfl status, ?_⟩
  · exact fun r upper above => (congrFun values r).trans (kept r upper above)
  · exact (buildCmdTreeLeavesData_invoked collected).trans rejected.invoked

/-- How `parse_input_cmd` can begin. -/
inductive Parsed (tree : CommandTree ι) (outside : Outside) (line : Bytes) (cli : Cli ι) :
    Cli ι → List (CliTask ι) → Prop
  | empty (cut : tokenizer line 32 = .ok []) :
      Parsed tree outside line cli { cli with returned := .incompleteCommand } []
  | complete (after : Cli ι) (front : List (CliTask ι)) :
    Parsed tree outside line cli after (front ++ [.endOfCommand .complete])
  | command {first : Token} {rest : List Token} {built : Built ι} (cut : tokenizer line 32 = .ok (first :: rest))
    (ordinary : tree.shortcut cli first rest = none)
    (builds : tree.buildTlvBuffer outside (first :: rest) cli = .ok built) :
    Parsed tree outside line cli built.cli (built.tasks ++ [.endOfCommand built.status])
  | doCommand {first : Token} {rest : List Token} {built : Built ι}
      (cut : tokenizer line 32 = .ok (first :: rest))
    (isDo : tree.shortcut cli first rest = some .doCommand)
    (branch : tree.getCurrentBranchHook cli.cursor = .ok tree.configHook)
    (builds : tree.buildTlvBuffer outside rest (atDoHook tree cli) = .ok built) :
    Parsed tree outside line cli built.cli (built.tasks ++ [.afterDo cli.cursor, .endOfCommand built.status])

theorem parseInputCmd_parsed {next : List (CliTask ι)}
    (parses : tree.parseInputCmd outside line cli = .ok (after, next)) :
    Parsed tree outside line cli after next := by
  cases parseInputCmd_parses parses with
  | empty cut => exact .empty cut
  | command cut ordinary builds => exact .command cut ordinary builds
  | doCommand cut word branch builds => exact .doCommand cut word branch builds
  | ignored => exact .complete _ []
  | repeatCommand => exact .complete _ [.repeatHandler]
  | oneLevelUp => exact .complete _ []
  | top => exact .complete _ []
  | runUt => exact .complete _ _
  | configLoad => exact .complete _ _

/-- A command that is rejected, whatever it begins with, leaves everything as it was. -/
theorem rejected_unchanged {before after : Shell ι}
    (marked : before.cli.tlvBuff.next = before.cli.tlvBuff.checkpoint)
    (leaves : before.cli.tlvBuff.b.take before.cli.tlvBuff.checkpoint = leavesData tree before.cli)
    (carried : Shell.Carried tree outside device before [.parseInputCmd line] after)
    (rejected : after.cli.returned ≠ .complete) : Unchanged before after := by
  cases carried with
  | @task _ _ next _ middle _ parsed goesOn =>
    rw [List.append_nil] at goesOn
    have finishes := shell_finishes goesOn
    rw [Shell.carryOut] at parsed
    split at parsed
    · next cli next consoleName parses named =>
      cases parsed
      cases parseInputCmd_parsed parses with
      | empty cut =>
        rw [taskConsoleName, parsedConsoleName, cut] at named
        cases named
        cases goesOn
        exact ⟨rfl, rfl, rfl, rfl, rfl, rfl⟩
      | complete cli front => exact absurd (returned_last finishes) rejected
      | @command first rest built cut ordinary builds =>
        have notComplete : built.status ≠ .complete := returned_last finishes ▸ rejected
        have rejection := build_rejected builds notComplete
        rw [taskConsoleName] at named
        unfold parsedConsoleName at named
        rw [cut] at named
        dsimp only at named
        rw [ordinary] at named
        dsimp only at named
        rw [rejection.name] at named
        cases named
        rw [Built.tasks, rejection.call] at goesOn
        rw [carried_end goesOn]
        exact ⟨(restoreOrReset_invoked _).trans rejection.invoked, rfl,
          modeKept_appended marked leaves rejection.appended _⟩
      | @doCommand first rest built cut isDo branch builds =>
        rw [List.append_cons] at finishes
        have notComplete : built.status ≠ .complete := returned_last finishes ▸ rejected
        have rejection := build_rejected builds notComplete
        have enters := rejection.name before.consoleName
        rw [atDoHook] at enters
        rw [taskConsoleName] at named
        unfold parsedConsoleName at named
        rw [cut] at named
        dsimp only at named
        rw [isDo] at named
        dsimp only at named
        rw [branch] at named
        dsimp only at named
        rw [if_pos rfl, enters] at named
        cases named
        rw [Built.tasks, rejection.call, List.nil_append] at goesOn
        cases goesOn with
        | task carried ends =>
          obtain ⟨rebuilt, back, rfl, rfl⟩ := carryOut_afterDo carried
          obtain ⟨mode, invoked⟩ := modeKept_afterDo marked leaves branch builds rejection back built.status
          rw [carried_end ends]
          exact ⟨(restoreOrReset_invoked _).trans invoked, rfl, mode⟩
    · cases parsed
    · cases parsed

def doShowLine : Bytes :=
  ascii ['d', 'o', ' ', 's', 'h', 'o', 'w']

/-- `tcp-server> config-tcp-server-s1` -/
def serverShell : Shell (LibParam ⊕ TcpParam) where
  cli := inServerMode
  consoleName := ascii ['t', 'c', 'p', '-', 's', 'e', 'r', 'v', 'e', 'r', '>', ' ', 'c', 'o', 'n',
    'f', 'i', 'g', '-', 't', 'c', 'p', '-', 's', 'e', 'r', 'v', 'e', 'r', '-', 's', '1']

/-- `show` alone is incomplete. -/
theorem rejected_doShow : ∃ after, Shell.Carried tcpBuildCli.tree unasked
    (fun _ consoleName => .ok consoleName) serverShell
    [.parseInputCmd doShowLine] after ∧ after.cli.returned = .incompleteCommand ∧
    Unchanged serverShell after := by
  obtain ⟨after, carried, incomplete⟩ : ∃ after, Shell.Carried tcpBuildCli.tree unasked
      (fun _ consoleName => .ok consoleName) serverShell [.parseInputCmd doShowLine] after ∧
        after.cli.returned = .incompleteCommand :=
    ⟨_, .task rfl (.task rfl (.task rfl (.done _))), rfl⟩
  exact ⟨after, carried, incomplete, rejected_unchanged rfl rfl carried (by rw [incomplete]; simp)⟩

end TcpServerLib.Soundness
