import TcpServerLib.Refinement.ReturnedStatus
import TcpServerLib.Soundness.ModePrefix

/-! # Lines from a file

`config load` does not hand the lines of its file to `parse_input_cmd`. It empties the buffer before
each of them, it takes every word for the name of a command, and a blank line is a command without
words: the handler of the cursor is called. Where none of this makes a difference, loading a file is
typing its lines.
-/

namespace TcpServerLib.Soundness

open Machine Model CommandTree Refinement

variable {ι : Type*} [DecidableEq ι] {tree : CommandTree ι} {outside : Outside} {load raw : Bytes}
  {raws : List Bytes}
  {first : Token} {rest : List Token} {cli middle after loaded : Cli ι} {status : CmdParseStatus}

/-- The lines are typed one after another, each when the one before it has come to its end. -/
inductive Types (tree : CommandTree ι) (outside : Outside) : Cli ι → List Bytes → Cli ι → Prop
  | nil (cli : Cli ι) : Types tree outside cli [] cli
  | cons {line : Bytes} {lines : List Bytes} {cli middle after : Cli ι}
    (carries : Session.Carries tree outside line cli middle) (later : Types tree outside middle lines after) :
    Types tree outside cli (line :: lines) after

/-- What is typed for a line of a file, the end of the line apart. -/
def typedLine (raw : Bytes) : Bytes :=
  if raw.getLast? = some 10 then raw.dropLast else raw

/-- The size of `line` in `parse_file`. -/
def lineSize : ℕ := 256

/-- The file has been asked for. -/
def opened (cli : Cli ι) : Cli ι :=
  { cli with asked := cli.asked + 1 }

/-- The handlers with their buffers and modes, the cursor, and what is left in the buffer. -/
structure SameOutcome (typed loaded : Cli ι) : Prop where
  invoked : loaded.invoked = typed.invoked
  cursor : loaded.cursor = typed.cursor
  contents : loaded.tlvBuff.contents = typed.tlvBuff.contents
  checkpoint : loaded.tlvBuff.checkpoint = typed.tlvBuff.checkpoint

/-- The file can be loaded where its lines can be typed, with the same outcome. -/
structure LoadsAsTyped (tree : CommandTree ι) (outside : Outside) (load : Bytes) (raws : List Bytes)
    (cli : Cli ι) : Prop where
  loads : ∀ after, Types tree outside (opened cli) (raws.map typedLine) after →
    ∃ loaded, Session.Carries tree outside load cli loaded ∧ SameOutcome after loaded
  types : ∀ loaded, Session.Carries tree outside load cli loaded →
    ∃ after, Types tree outside (opened cli) (raws.map typedLine) after

/-- Nothing is in the buffer, and nothing is marked. -/
structure Unmarked (cli : Cli ι) : Prop where
  next : cli.tlvBuff.next = 0
  checkpoint : cli.tlvBuff.checkpoint = 0

/-- The line begins with no built-in word; if it is blank, the cursor has no handler. -/
def PlainLine (tree : CommandTree ι) (cli : Cli ι) : List Token → Prop
  | [] => tree.hasHandler cli.cursor = false
  | first :: rest => tree.shortcut cli first rest = none

structure Loadable (tree : CommandTree ι) (raw : Bytes) (cli : Cli ι) : Prop where
  unmarked : Unmarked cli
  plain : ∀ tokens, tokenizer raw 32 = .ok tokens → PlainLine tree cli tokens

/-- Each line meets the condition when it is typed. -/
def LoadableLines (tree : CommandTree ι) (outside : Outside) : List Bytes → Cli ι → Prop
  | [], _ => True
  | raw :: raws, cli => Loadable tree raw cli ∧
    ∀ middle, Session.Carries tree outside (typedLine raw) cli middle → LoadableLines tree outside raws middle

/-- The end of the line is trimmed off. -/
theorem tokenizer_typedLine (short : raw.length < lineSize) (delim : UInt8) :
    tokenizer (typedLine raw) delim = tokenizer raw delim := by
  rw [typedLine]
  split
  · next newline =>
    obtain ⟨line, rfl⟩ := List.getLast?_eq_some_iff.mp newline
    have trimmed : stringSpaceTrim (line ++ [10]) = stringSpaceTrim line := by
      rw [stringSpaceTrim, stringSpaceTrim, List.rdropWhile_concat_pos _ _ _ rfl]
    have longer : (line ++ [10]).length < consInputBufferSize := Nat.lt_trans short (by decide)
    have fits : line.length < consInputBufferSize := by
      rw [List.length_append] at longer
      omega
    rw [List.dropLast_concat, tokenizer, tokenizer, trimmed]
    simp only [longer, fits]
  · rfl

omit [DecidableEq ι] in
theorem Unmarked.resetBuffer (unmarked : Unmarked cli) : cli.resetBuffer = cli := by
  obtain ⟨cursor, ⟨b, next, checkpoint, within, marked, positive⟩, valueHolder, asked,
      returned, invoked⟩ :=
    cli
  obtain ⟨noNext, noCheckpoint⟩ := unmarked
  cases noNext
  cases noCheckpoint
  rfl

/-- Nothing is left to be restored. -/
def AtRest (tree : CommandTree ι) (cli : Cli ι) : Prop :=
  tree.restoreOrReset cli = cli

theorem atRest_restoreOrReset (cli : Cli ι) : AtRest tree (tree.restoreOrReset cli) := by
  by_cases down : cli.cursor ≠ tree.root
  · have restored : tree.restoreOrReset cli = { cli with tlvBuff := cli.tlvBuff.restoreCheckpoint } :=
      if_pos down
    rw [AtRest, restored]
    exact if_pos down
  · have emptied : tree.restoreOrReset cli = cli.resetBuffer := if_neg down
    rw [AtRest, emptied]
    exact if_neg down

theorem AtRest.returning (rest : AtRest tree cli) (status : CmdParseStatus) :
    AtRest tree (returning status cli) := by
  rw [AtRest, restoreOrReset_returning, rest]

theorem Unmarked.atRest (unmarked : Unmarked cli) : AtRest tree cli := by
  rw [AtRest, restoreOrReset]
  split
  · have restored : cli.tlvBuff.restoreCheckpoint = cli.tlvBuff.reset := by
      rw [SerBuff.restoreCheckpoint, SerBuff.reset]
      simp only [unmarked.checkpoint]
    rw [restored]
    exact unmarked.resetBuffer
  · exact unmarked.resetBuffer

theorem carries_iff {line : Bytes} : Session.Carries tree outside line cli after ↔
    ∃ middle next, tree.parseInputCmd outside line cli = .ok (middle, next) ∧
    Finishes tree outside middle next after :=
  finishes_singleton

theorem fileLine_iff : Finishes tree outside cli [.fileLine raw] after ↔
    ∃ middle next, tree.parseFileLine outside raw cli = .ok (middle, next) ∧
    Finishes tree outside middle next after :=
  finishes_singleton

/-- A blank line has no effect, where the cursor has no handler. -/
theorem blank_line (cut : tokenizer raw 32 = .ok []) (typed : tokenizer (typedLine raw) 32 = .ok [])
    (loadable : Loadable tree raw cli) :
    (Session.Carries tree outside (typedLine raw) cli after ↔ after = returning .incompleteCommand cli) ∧
      (Finishes tree outside cli [.fileLine raw] after ↔ after = cli) := by
  have nothing : tree.hasHandler cli.cursor = false := loadable.plain [] cut
  have builds : tree.buildTlvBuffer outside [] cli = .ok ⟨.incompleteCommand, cli, none⟩ := by
    rw [buildTlvBuffer, walk]
    dsimp only
    rw [nothing]
    rfl
  have parsed : tree.parseInputCmd outside (typedLine raw) cli = .ok (returning .incompleteCommand cli, []) := by
    rw [parseInputCmd, typed]
    rfl
  have read : tree.parseFileLine outside raw cli = .ok (cli, [.endOfFileLine]) := by
    rw [parseFileLine, cut, loadable.unmarked.resetBuffer]
    dsimp only
    rw [builds]
    rfl
  have ends : tree.carryOut outside .endOfFileLine cli = .ok (cli, []) := by
    rw [carryOut, loadable.unmarked.atRest]
  rw [carries_iff, fileLine_iff, parsed, read]
  constructor
  · constructor
    · rintro ⟨_, _, ⟨⟩, ended⟩
      exact finishes_nil.mp ended
    · rintro rfl
      exact ⟨_, _, rfl, finishes_nil.mpr rfl⟩
  · constructor
    · rintro ⟨_, _, ⟨⟩, ended⟩
      obtain ⟨_, _, carried, ended⟩ := finishes_singleton.mp ended
      rw [ends] at carried
      cases carried
      exact finishes_nil.mp ended
    · rintro rfl
      exact ⟨_, _, rfl, finishes_singleton.mpr ⟨_, _, ends, finishes_nil.mpr rfl⟩⟩

/-- A line with a command of the tree ends as the command does, but for the status. -/
theorem command_line (cut : tokenizer raw 32 = .ok (first :: rest))
    (typed : tokenizer (typedLine raw) 32 = .ok (first :: rest))
    (loadable : Loadable tree raw cli) {built : Built ι}
    (builds : tree.buildTlvBuffer outside (first :: rest) cli = .ok built) :
    (Session.Carries tree outside (typedLine raw) cli after ↔
        ∃ middle, Finishes tree outside built.cli built.tasks middle ∧
          after = returning built.status (tree.restoreOrReset middle)) ∧
      (Finishes tree outside cli [.fileLine raw] after ↔
        ∃ middle, Finishes tree outside built.cli built.tasks middle ∧
        after = tree.restoreOrReset middle) := by
  have plain : tree.shortcut cli first rest = none := loadable.plain _ cut
  have parsed : tree.parseInputCmd outside (typedLine raw) cli =
      .ok (built.cli, built.tasks ++ [.endOfCommand built.status]) := by
    rw [parseInputCmd, typed]
    dsimp only
    rw [plain]
    dsimp only
    rw [builds]
  have read : tree.parseFileLine outside raw cli = .ok (built.cli, built.tasks ++ [.endOfFileLine]) := by
    rw [parseFileLine, cut, loadable.unmarked.resetBuffer]
    dsimp only
    rw [builds]
  rw [carries_iff, fileLine_iff, parsed, read]
  constructor
  · constructor
    · rintro ⟨_, _, ⟨⟩, ended⟩
      obtain ⟨middle, handled, last⟩ := (finishes_last fun _ => ⟨_, rfl⟩).mp ended
      cases last
      exact ⟨middle, handled, rfl⟩
    · rintro ⟨middle, handled, rfl⟩
      exact ⟨_, _, rfl, (finishes_last fun _ => ⟨_, rfl⟩).mpr ⟨middle, handled, rfl⟩⟩
  · constructor
    · rintro ⟨_, _, ⟨⟩, ended⟩
      obtain ⟨middle, handled, last⟩ := (finishes_last fun _ => ⟨_, rfl⟩).mp ended
      cases last
      exact ⟨middle, handled, rfl⟩
    · rintro ⟨middle, handled, rfl⟩
      exact ⟨_, _, rfl, (finishes_last fun _ => ⟨_, rfl⟩).mpr ⟨middle, handled, rfl⟩⟩

/-- A line that can be typed can be loaded, up to the status. -/
theorem typed_loads (short : raw.length < lineSize) (loadable : Loadable tree raw cli)
    (carries : Session.Carries tree outside (typedLine raw) cli after) :
    AtRest tree after ∧ ∃ last, Finishes tree outside cli [.fileLine raw] (returning last after) := by
  have trimmed := tokenizer_typedLine short 32
  cases cut : tokenizer raw 32 with
  | error fault =>
    obtain ⟨_, _, parsed, _⟩ := carries_iff.mp carries
    rw [parseInputCmd, trimmed, cut] at parsed
    cases parsed
  | ok tokens =>
    rw [cut] at trimmed
    cases tokens with
    | nil =>
      rw [(blank_line cut trimmed loadable).1.mp carries]
      exact ⟨loadable.unmarked.atRest.returning _, cli.returned, (blank_line cut trimmed loadable).2.mpr rfl⟩
    | cons first rest =>
      cases builds : tree.buildTlvBuffer outside (first :: rest) cli with
      | error fault =>
        obtain ⟨_, _, parsed, _⟩ := carries_iff.mp carries
        rw [parseInputCmd, trimmed] at parsed
        dsimp only at parsed
        rw [loadable.plain _ cut] at parsed
        dsimp only at parsed
        rw [builds] at parsed
        cases parsed
      | ok built =>
        obtain ⟨middle, handled, rfl⟩ := (command_line cut trimmed loadable builds).1.mp carries
        refine ⟨(atRest_restoreOrReset middle).returning _, (tree.restoreOrReset middle).returned, ?_⟩
        exact (command_line cut trimmed loadable builds).2.mpr ⟨middle, handled, rfl⟩

/-- A line that can be loaded can be typed, up to the status. -/
theorem loaded_types (short : raw.length < lineSize) (loadable : Loadable tree raw cli)
    (loads : Finishes tree outside cli [.fileLine raw] after) :
    ∃ last, Session.Carries tree outside (typedLine raw) cli (returning last after) := by
  have trimmed := tokenizer_typedLine short 32
  cases cut : tokenizer raw 32 with
  | error fault =>
    obtain ⟨_, _, read, _⟩ := fileLine_iff.mp loads
    rw [parseFileLine, cut] at read
    cases read
  | ok tokens =>
    rw [cut] at trimmed
    cases tokens with
    | nil =>
      rw [(blank_line cut trimmed loadable).2.mp loads]
      exact ⟨_, (blank_line cut trimmed loadable).1.mpr rfl⟩
    | cons first rest =>
      cases builds : tree.buildTlvBuffer outside (first :: rest) cli with
      | error fault =>
        obtain ⟨_, _, read, _⟩ := fileLine_iff.mp loads
        rw [parseFileLine, cut, loadable.unmarked.resetBuffer] at read
        dsimp only at read
        rw [builds] at read
        cases read
      | ok built =>
        obtain ⟨middle, handled, rfl⟩ := (command_line cut trimmed loadable builds).2.mp loads
        exact ⟨_, (command_line cut trimmed loadable builds).1.mpr ⟨middle, handled, rfl⟩⟩

/-- A task that does not read the status can be carried out from any. -/
theorem fileLine_returning (status : CmdParseStatus) (loads : Finishes tree outside cli [.fileLine raw] after) :
    ∃ last, Finishes tree outside (returning status cli) [.fileLine raw] (returning last after) :=
  finishes_returning status id loads

theorem lines_load (short : ∀ raw ∈ raws, raw.length < lineSize)
    (loadable : LoadableLines tree outside raws cli)
    (atRest : AtRest tree cli) (types : Types tree outside cli (raws.map typedLine) after)
    (status : CmdParseStatus) :
    AtRest tree after ∧ ∃ last, Finishes tree outside (returning status cli) (raws.map .fileLine)
    (returning last after) := by
  induction raws generalizing cli status with
  | nil =>
    cases types
    exact ⟨atRest, status, finishes_nil.mpr rfl⟩
  | cons raw raws ih =>
    cases types with
    | @cons _ _ _ middle _ carries later =>
      obtain ⟨here, onwards⟩ := loadable
      obtain ⟨settled, last, loads⟩ := typed_loads (short raw List.mem_cons_self) here carries
      obtain ⟨last', loads'⟩ := fileLine_returning status loads
      obtain ⟨ended, final, rest⟩ := ih (fun raw member => short raw (List.mem_cons_of_mem _ member))
        (onwards middle carries) settled later last'
      have all : Finishes tree outside (returning status cli) ([.fileLine raw] ++ raws.map .fileLine)
          (returning final after) :=
        finishes_append.mpr ⟨_, loads', rest⟩
      exact ⟨ended, final, all⟩

theorem lines_type (short : ∀ raw ∈ raws, raw.length < lineSize)
    (loadable : LoadableLines tree outside raws cli)
    (loads : Finishes tree outside (returning status cli) (raws.map .fileLine) loaded) :
    ∃ after, Types tree outside cli (raws.map typedLine) after := by
  induction raws generalizing cli status with
  | nil => exact ⟨cli, .nil cli⟩
  | cons raw raws ih =>
    obtain ⟨here, onwards⟩ := loadable
    have split : Finishes tree outside (returning status cli) ([.fileLine raw] ++ raws.map .fileLine)
        loaded := loads
    obtain ⟨middle, this, rest⟩ := finishes_append.mp split
    obtain ⟨last, this'⟩ := fileLine_returning cli.returned this
    obtain ⟨last', carries⟩ := loaded_types (short raw List.mem_cons_self) here this'
    obtain ⟨after, later⟩ := ih (fun raw member => short raw (List.mem_cons_of_mem _ member))
      (onwards _ carries) rest
    exact ⟨after, .cons carries later⟩

/-- Loading a file whose lines make no difference is typing them. -/
theorem loadsAsTyped_of_loadable (cut : tokenizer load 32 = .ok (first :: rest))
    (word : tree.shortcut cli first rest = some .configLoad) (file : outside.file cli.asked = some raws)
    (short : ∀ raw ∈ raws, raw.length < lineSize) (unmarked : Unmarked cli)
    (loadable : LoadableLines tree outside raws (opened cli)) : LoadsAsTyped tree outside load raws cli := by
  have empty : Unmarked (opened cli) := ⟨unmarked.next, unmarked.checkpoint⟩
  have parsed : tree.parseInputCmd outside load cli =
      .ok (opened cli, raws.map .fileLine ++ [.endOfCommand .complete]) := by
    have reset := empty.resetBuffer
    rw [opened] at reset
    rw [parseInputCmd, cut]
    dsimp only
    rw [word]
    dsimp only
    rw [parseFile]
    simp only [Cli.ask, file, finish, opened, reset]
  have carries : ∀ loaded, Session.Carries tree outside load cli loaded ↔
      ∃ middle, Finishes tree outside (opened cli) (raws.map .fileLine) middle ∧
        loaded = returning .complete (tree.restoreOrReset middle) := by
    intro loaded
    rw [carries_iff, parsed]
    constructor
    · rintro ⟨_, _, ⟨⟩, ended⟩
      obtain ⟨middle, read, last⟩ := (finishes_last fun _ => ⟨_, rfl⟩).mp ended
      cases last
      exact ⟨middle, read, rfl⟩
    · rintro ⟨middle, read, rfl⟩
      exact ⟨_, _, rfl, (finishes_last fun _ => ⟨_, rfl⟩).mpr ⟨middle, read, rfl⟩⟩
  constructor
  · intro after types
    obtain ⟨settled, last, loads⟩ := lines_load short loadable empty.atRest types (opened cli).returned
    refine ⟨_, (carries _).mpr ⟨_, loads, rfl⟩, ?_⟩
    rw [settled.returning last]
    exact ⟨rfl, rfl, rfl, rfl⟩
  · intro loaded loads
    obtain ⟨middle, read, _⟩ := (carries loaded).mp loads
    rw [← returning_returned (opened cli)] at read
    exact lines_type short loadable read

def answeringFile (raws : List Bytes) : Outside :=
  { unasked with file := fun _ => some raws }

def configLoadLine : Bytes :=
  ascii ['c', 'o', 'n', 'f', 'i', 'g', ' ', 'l', 'o', 'a', 'd', ' ', 'f']

def consoleNameRaws : List Bytes :=
  [consoleModeLine ++ [10], ascii ['n', 'a', 'm', 'e', ' ', 'a', '\n']]

theorem configLoadLine_words : tokenizer configLoadLine 32 =
    .ok [typedWord ['c', 'o', 'n', 'f', 'i', 'g'], typedWord ['l', 'o', 'a', 'd'], typedWord ['f']] := rfl

theorem loadsAsTyped_consoleName :
    LoadsAsTyped initLibcli (answeringFile consoleNameRaws) configLoadLine consoleNameRaws
    (Session.started initLibcli).cli := by
  refine loadsAsTyped_of_loadable configLoadLine_words rfl rfl
    (by decide) ⟨rfl, rfl⟩ ⟨⟨⟨rfl, rfl⟩, ?_⟩, ?_⟩
  · rintro _ ⟨rfl⟩
    rfl
  · intro middle carries
    obtain rfl := carries.unique ⟨2, rfl⟩
    refine ⟨⟨⟨rfl, rfl⟩, ?_⟩, fun _ _ => trivial⟩
    rintro _ ⟨rfl⟩
    rfl

def upAgainRaws : List Bytes :=
  [consoleModeLine ++ [10], ascii ['c', 'd', '\n']]

/-- Typed, `cd` goes back to the root; in a file it is no command of the mode. -/
theorem upAgain_differs : ¬ ∀ (outside : Outside) (load : Bytes) (raws : List Bytes)
    (cli : Cli LibParam) (first : Token)
    (rest : List Token), tokenizer load 32 = .ok (first :: rest) →
    initLibcli.shortcut cli first rest = some .configLoad →
    outside.file cli.asked = some raws → (∀ raw ∈ raws, raw.length < lineSize) →
    ModePrefix initLibcli cli → LoadsAsTyped initLibcli outside load raws cli := by
  intro always
  have started : ModePrefix initLibcli (Session.started initLibcli).cli := .inl ⟨rfl, rfl, rfl⟩
  have typed : ∃ after, Types initLibcli (answeringFile upAgainRaws) (opened (Session.started initLibcli).cli)
      (upAgainRaws.map typedLine) after ∧ after.cursor = .root :=
    ⟨_, .cons ⟨2, rfl⟩ (.cons ⟨2, rfl⟩ (.nil _)), rfl⟩
  have stays : ∃ loaded, Session.Carries initLibcli (answeringFile upAgainRaws) configLoadLine
      (Session.started initLibcli).cli
      loaded ∧ loaded.cursor = .configConsole :=
    ⟨_, ⟨6, rfl⟩, rfl⟩
  obtain ⟨after, types, root⟩ := typed
  obtain ⟨loaded, carries, console⟩ := stays
  obtain ⟨loaded', carries', same⟩ := (always (answeringFile upAgainRaws) configLoadLine upAgainRaws _ _ _
    configLoadLine_words rfl rfl (by decide) started).loads after types
  rw [carries'.unique carries] at same
  cases (console.symm.trans same.cursor).trans root

end TcpServerLib.Soundness
