import TcpServerLib.Model.CommandParser

/-! # Tasks that are carried out to their end

Tasks are carried out one behind the other, and what a task calls for comes before the tasks that
wait. So a list of tasks comes to its end exactly if its two parts do, one after the other. What a
line and a handler come to by themselves is said once, case by case.
-/

namespace TcpServerLib.Refinement

open Machine Model CommandTree

variable {ι : Type*} [DecidableEq ι] {tree : CommandTree ι} {outside : Outside} {task : CliTask ι}
  {front back rest : List (CliTask ι)} {cli after : Cli ι}

theorem map_ok {α β : Type*} {result : Except CliFault α} {f : α → β} {b : β}
    (mapped : result.map f = .ok b) :
    ∃ a, result = .ok a ∧ f a = b := by
  cases result with
  | error fault => cases mapped
  | ok a => exact ⟨a, rfl, Except.ok.inj mapped⟩

/-- What a typed line comes to, by what it begins with. -/
inductive LineParses (tree : CommandTree ι) (outside : Outside) (line : Bytes) (cli : Cli ι) :
    Cli ι → List (CliTask ι) → Prop
  | empty (cut : tokenizer line 32 = .ok []) :
    LineParses tree outside line cli { cli with returned := .incompleteCommand } []
  | command {first : Token} {rest : List Token} {built : Built ι} (cut : tokenizer line 32 = .ok (first :: rest))
    (ordinary : tree.shortcut cli first rest = none)
    (builds : tree.buildTlvBuffer outside (first :: rest) cli = .ok built) :
    LineParses tree outside line cli built.cli (built.tasks ++ [.endOfCommand built.status])
  | doCommand {first : Token} {rest : List Token} {built : Built ι} (cut : tokenizer line 32 = .ok (first :: rest))
    (word : tree.shortcut cli first rest = some .doCommand)
    (branch : tree.getCurrentBranchHook cli.cursor = .ok tree.configHook)
    (builds : tree.buildTlvBuffer outside rest (cli.setCmdTreeCursor tree.doHook).resetBuffer = .ok built) :
    LineParses tree outside line cli built.cli (built.tasks ++ [.afterDo cli.cursor, .endOfCommand built.status])
  | ignored : LineParses tree outside line cli cli [.endOfCommand .complete]
  | repeatCommand : LineParses tree outside line cli cli [.repeatHandler, .endOfCommand .complete]
  | oneLevelUp {first : Token} {rest : List Token} (cut : tokenizer line 32 = .ok (first :: rest))
    (word : tree.shortcut cli first rest = some .oneLevelUp) {up : Cli ι}
    (went : tree.goOneLevelUpCmdTree cli = .ok up) :
    LineParses tree outside line cli up [.endOfCommand .complete]
  | top {first : Token} {rest : List Token} (cut : tokenizer line 32 = .ok (first :: rest))
    (word : tree.shortcut cli first rest = some .top) {top : Cli ι} (went : tree.gotoTopOfCmdTree cli = .ok top) :
    LineParses tree outside line cli top [.endOfCommand .complete]
  | runUt {first : Token} {rest : List Token} (cut : tokenizer line 32 = .ok (first :: rest))
    (word : tree.shortcut cli first rest = some .runUt) {ran : Cli ι} {commands : List (CliTask ι)}
    (tested : runTestCase outside cli = .ok (ran, commands)) :
    LineParses tree outside line cli ran (commands ++ [.endOfCommand .complete])
  | configLoad {first : Token} {rest : List Token} (cut : tokenizer line 32 = .ok (first :: rest))
    (word : tree.shortcut cli first rest = some .configLoad) {opened : Cli ι} {lines : List (CliTask ι)}
    (loaded : parseFile outside cli = (opened, lines)) :
    LineParses tree outside line cli opened (lines ++ [.endOfCommand .complete])

theorem parseInputCmd_parses {line : Bytes} {next : List (CliTask ι)}
    (parsed : tree.parseInputCmd outside line cli = .ok (after, next)) :
    LineParses tree outside line cli after next := by
  rw [parseInputCmd] at parsed
  split at parsed
  · cases parsed
  · next cut =>
    cases parsed
    exact .empty cut
  · next first rest cut =>
    split at parsed
    · next word =>
      split at parsed
      · cases parsed
      · next branch =>
        split at parsed
        · next config =>
          split at parsed
          · cases parsed
          · next builds =>
            cases parsed
            exact .doCommand cut word (config ▸ branch) builds
        · cases parsed
          exact .ignored
    · cases parsed
      exact .repeatCommand
    · next word =>
      obtain ⟨up, went, same⟩ := map_ok parsed
      cases same
      exact .oneLevelUp cut word went
    · next word =>
      obtain ⟨top, went, same⟩ := map_ok parsed
      cases same
      exact .top cut word went
    · cases parsed
      exact .ignored
    · next word =>
      obtain ⟨⟨ran, commands⟩, tested, same⟩ := map_ok parsed
      cases same
      exact .runUt cut word tested
    · next word =>
      cases parsed
      exact .configLoad cut word rfl
    · next ordinary =>
      split at parsed
      · cases parsed
      · next builds =>
        cases parsed
        exact .command cut ordinary builds

/-- What a line calls for ends with the end of the command, unless the line is blank. -/
theorem LineParses.ends {line : Bytes} {next : List (CliTask ι)}
    (parses : LineParses tree outside line cli after next) :
    (next = [] ∧ after = { cli with returned := .incompleteCommand }) ∨
      ∃ front status, next = front ++ [.endOfCommand status] := by
  cases parses with
  | empty cut => exact .inl ⟨rfl, rfl⟩
  | @command _ _ built => exact .inr ⟨built.tasks, built.status, rfl⟩
  | @doCommand _ _ built =>
    exact .inr ⟨built.tasks ++ [.afterDo cli.cursor], built.status, by rw [List.append_assoc]; rfl⟩
  | ignored => exact .inr ⟨[], .complete, rfl⟩
  | repeatCommand => exact .inr ⟨[.repeatHandler], .complete, rfl⟩
  | oneLevelUp => exact .inr ⟨[], .complete, rfl⟩
  | top => exact .inr ⟨[], .complete, rfl⟩
  | @runUt _ _ _ _ _ commands => exact .inr ⟨commands, .complete, rfl⟩
  | @configLoad _ _ _ _ _ lines => exact .inr ⟨lines, .complete, rfl⟩

/-- What a handler comes to, by the callback of its param. -/
inductive HandlerRuns (tree : CommandTree ι) (outside : Outside) (p : ι) (mode : OpMode) (cli : Cli ι) :
    Cli ι → List (CliTask ι) → Prop
  | configModeEnterHandler (registered : (tree.param p).callback = some .configModeEnterHandler) {entered : Cli ι}
    (marked : tree.configModeEnterHandler p (cli.invoke p (some cli.tlvBuff) mode) = .ok entered) :
    HandlerRuns tree outside p mode cli entered []
  | exitCmdHandler (registered : (tree.param p).callback = some .exitCmdHandler) {up : Cli ι}
    (went : tree.goOneLevelUpCmdTree (cli.invoke p (some cli.tlvBuff) mode) = .ok up) :
    HandlerRuns tree outside p mode cli up []
  | endCmdHandler {top : Cli ι} (went : tree.gotoTopOfCmdTree (cli.invoke p (some cli.tlvBuff) mode) = .ok top) :
    HandlerRuns tree outside p mode cli top []
  | commandChosen (asked : ℕ) (line : Bytes) :
    HandlerRuns tree outside p mode cli { cli.invoke p (some cli.tlvBuff) mode with asked } [.parseInputCmd line]
  | runTestCase {ran : Cli ι} {commands : List (CliTask ι)}
    (tested : runTestCase outside (cli.invoke p (some cli.tlvBuff) mode) = .ok (ran, commands)) :
    HandlerRuns tree outside p mode cli ran commands
  | showExtension :
    HandlerRuns tree outside p mode cli ((cli.invoke p (some cli.tlvBuff) mode).collectTlv showExtensionTlv) []
  | nothing (asked : ℕ) : HandlerRuns tree outside p mode cli { cli.invoke p (some cli.tlvBuff) mode with asked } []

theorem runHandler_runs {p : ι} {mode : OpMode} {next : List (CliTask ι)}
    (ran : tree.runHandler outside p mode cli = .ok (after, next)) :
    HandlerRuns tree outside p mode cli after next := by
  rw [runHandler] at ran
  cases registered : (tree.param p).callback with
  | none =>
    rw [registered] at ran
    cases ran
  | some callback =>
    rw [registered] at ran
    cases callback with
    | configModeEnterHandler =>
      obtain ⟨entered, marked, same⟩ := map_ok ran
      cases same
      exact .configModeEnterHandler registered marked
    | repeatLastCommand =>
      cases ran
      exact .commandChosen _ _
    | showHistoryCallback =>
      dsimp only at ran
      rw [showHistoryCallback] at ran
      split at ran
      · next question =>
        cases ran
        obtain ⟨_, rfl⟩ := Prod.mk.inj question
        exact .nothing _
      · next question =>
        cases ran
        obtain ⟨_, rfl⟩ := Prod.mk.inj question
        exact .commandChosen _ _
    | utTestHandler =>
      dsimp only at ran
      split at ran
      · cases ran
      · split at ran
        · exact .runTestCase ran
        · cases ran
          exact .nothing _
    | exitCmdHandler =>
      obtain ⟨up, went, same⟩ := map_ok ran
      cases same
      exact .exitCmdHandler registered went
    | endCmdHandler =>
      obtain ⟨top, went, same⟩ := map_ok ran
      cases same
      exact .endCmdHandler went
    | cliTerminateHandler => cases ran
    | showExtensionParamHandler =>
      cases ran
      split
      · exact .showExtension
      · exact .nothing _
    | application =>
      cases ran
      exact .nothing _

/-- The tasks, and all that they call for, are carried out to the end. -/
def Finishes (tree : CommandTree ι) (outside : Outside) (cli : Cli ι) (tasks : List (CliTask ι))
    (after : Cli ι) : Prop :=
  ∃ fuel, Session.run tree outside fuel ⟨cli, tasks⟩ = .ok ⟨after, []⟩

/-- Without tasks the session stays where it is. -/
theorem finishes_nil : Finishes tree outside cli [] after ↔ after = cli := by
  constructor
  · rintro ⟨fuel, ran⟩
    rw [Session.run_idle] at ran
    cases ran
    rfl
  · rintro rfl
    exact ⟨0, rfl⟩

/-- A task is carried out before those behind it. -/
theorem finishes_cons : Finishes tree outside cli (task :: rest) after ↔
    ∃ middle next, tree.carryOut outside task cli = .ok (middle, next) ∧
    Finishes tree outside middle (next ++ rest) after := by
  constructor
  · rintro ⟨fuel, ran⟩
    cases fuel with
    | zero => cases ran
    | succ fuel =>
      rw [Session.run] at ran
      dsimp only at ran
      cases carried : tree.carryOut outside task cli with
      | error fault =>
        rw [carried] at ran
        cases ran
      | ok result =>
        rw [carried] at ran
        exact ⟨result.1, result.2, rfl, fuel, ran⟩
  · rintro ⟨middle, next, carried, fuel, ran⟩
    refine ⟨fuel + 1, ?_⟩
    rw [Session.run]
    dsimp only
    rw [carried]
    exact ran

theorem finishes_singleton : Finishes tree outside cli [task] after ↔
    ∃ middle next, tree.carryOut outside task cli = .ok (middle, next) ∧
    Finishes tree outside middle next after := by
  simp only [finishes_cons, List.append_nil]

/-- Tasks in front finish before those behind begin. -/
theorem finishes_append : Finishes tree outside cli (front ++ back) after ↔
    ∃ middle, Finishes tree outside cli front middle ∧ Finishes tree outside middle back after := by
  constructor
  · rintro ⟨fuel, ran⟩
    induction fuel generalizing cli front with
    | zero =>
      obtain ⟨none, none'⟩ := List.append_eq_nil_iff.mp (congrArg Session.tasks (Except.ok.inj ran))
      cases none
      exact ⟨cli, finishes_nil.mpr rfl, 0, ran⟩
    | succ fuel ih =>
      cases front with
      | nil => exact ⟨cli, finishes_nil.mpr rfl, fuel + 1, ran⟩
      | cons task front =>
        rw [List.cons_append, Session.run] at ran
        dsimp only at ran
        cases carried : tree.carryOut outside task cli with
        | error fault =>
          rw [carried] at ran
          cases ran
        | ok result =>
          rw [carried] at ran
          dsimp only at ran
          rw [← List.append_assoc] at ran
          obtain ⟨middle, first, second⟩ := ih ran
          exact ⟨middle, finishes_cons.mpr ⟨result.1, result.2, carried, first⟩, second⟩
  · rintro ⟨middle, ⟨fuel, ran⟩, second⟩
    induction fuel generalizing cli front with
    | zero =>
      cases ran
      exact second
    | succ fuel ih =>
      cases front with
      | nil =>
        rw [Session.run_idle] at ran
        cases ran
        exact second
      | cons task front =>
        rw [Session.run] at ran
        dsimp only at ran
        cases carried : tree.carryOut outside task cli with
        | error fault =>
          rw [carried] at ran
          cases ran
        | ok result =>
          rw [carried] at ran
          have goesOn := ih ran
          rw [List.append_assoc] at goesOn
          rw [List.cons_append]
          exact finishes_cons.mpr ⟨result.1, result.2, carried, goesOn⟩

/-- A last task that calls for nothing. -/
theorem finishes_last (last : ∀ middle, ∃ final, tree.carryOut outside task middle = .ok (final, [])) :
    Finishes tree outside cli (front ++ [task]) after ↔
      ∃ middle, Finishes tree outside cli front middle ∧ tree.carryOut outside task middle =
        .ok (after, []) := by
  rw [finishes_append]
  refine exists_congr fun middle => and_congr_right fun _ => ?_
  obtain ⟨final, carried⟩ := last middle
  simp only [finishes_singleton, carried, Except.ok.injEq, Prod.mk.injEq]
  constructor
  · rintro ⟨_, _, ⟨rfl, rfl⟩, ends⟩
    exact ⟨(finishes_nil.mp ends).symm, trivial⟩
  · rintro ⟨rfl, _⟩
    exact ⟨final, [], ⟨rfl, rfl⟩, finishes_nil.mpr rfl⟩

end TcpServerLib.Refinement
