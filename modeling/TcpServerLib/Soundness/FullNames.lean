import TcpServerLib.Model.Application
import TcpServerLib.Model.CommandParser
import TcpServerLib.Soundness.DecodedCommands

/-! # Commands that a built-in word hides

Before a line is taken for a command, its first words are compared with the built-in words, some only
as far as the built-in word goes, and one only as far as the typed word goes. A command whose name
passes such a comparison cannot be called.
-/

namespace TcpServerLib.Soundness

open Machine Model CommandTree

variable {ι : Type*} [DecidableEq ι] {tree : CommandTree ι} {outside : Outside} {line : Bytes} {first : Token}
  {rest : List Token} {cli : Cli ι}

/-- `build_tlv_buffer`, whatever it does. -/
abbrev Builder (ι : Type*) := List Token → Cli ι → Except CliFault (Built ι)

/-- What `parse_input_cmd` makes of a command. -/
def ofBuilt (result : Except CliFault (Built ι)) : Except CliFault (Cli ι × List (CliTask ι)) :=
  match result with
  | .error fault => .error fault
  | .ok built => .ok (built.cli, built.tasks ++ [.endOfCommand built.status])

/-- `parse_input_cmd`, with `build_tlv_buffer` as a parameter. -/
def parseInputCmdWith (tree : CommandTree ι) (outside : Outside) (build : Builder ι) (line : Bytes)
    (cli : Cli ι) :
    Except CliFault (Cli ι × List (CliTask ι)) :=
  match tokenizer line 32 with
  | .error fault => .error fault
  | .ok [] => .ok ({ cli with returned := .incompleteCommand }, [])
  | .ok (first :: rest) =>
    match tree.shortcut cli first rest with
    | some .doCommand =>
      match tree.getCurrentBranchHook cli.cursor with
      | .error fault => .error fault
      | .ok currHook =>
        if currHook = tree.configHook then
          match build rest (cli.setCmdTreeCursor tree.doHook).resetBuffer with
          | .error fault => .error fault
          | .ok built => .ok (built.cli, built.tasks ++ [.afterDo cli.cursor, .endOfCommand built.status])
        else .ok (cli, [.endOfCommand .complete])
    | some .repeatCommand => .ok (cli, [.repeatHandler, .endOfCommand .complete])
    | some .oneLevelUp => (tree.goOneLevelUpCmdTree cli).map (·, [.endOfCommand .complete])
    | some .top => (tree.gotoTopOfCmdTree cli).map (·, [.endOfCommand .complete])
    | some .clearScreen => .ok (cli, [.endOfCommand .complete])
    | some .runUt => (runTestCase outside cli).map (finish .complete)
    | some .configLoad => .ok (finish .complete (parseFile outside cli))
    | none => ofBuilt (build (first :: rest) cli)

theorem parseInputCmd_with (tree : CommandTree ι) (outside : Outside) (line : Bytes) (cli : Cli ι) :
    tree.parseInputCmd outside line cli = parseInputCmdWith tree outside (tree.buildTlvBuffer outside)
    line cli := rfl

/-- The line is passed on as it is, in the state it was typed in, whatever then happens to it. -/
def PassedOn (tree : CommandTree ι) (outside : Outside) (line : Bytes) (tokens : List Token)
    (cli : Cli ι) : Prop :=
  ∀ build, parseInputCmdWith tree outside build line cli = ofBuilt (build tokens cli)

/-- No comparison with a built-in word succeeds. -/
structure Unshadowed (tree : CommandTree ι) (cursor : ι) (first : Token) (rest : List Token) : Prop where
  notDo : rest ≠ [] → cursor ≠ tree.root → begins first.bytes (ascii ['d', 'o']) = false
  notRepeat : begins (ascii ['r', 'e', 'p', 'e', 'a', 't']) first.bytes = false
  notCd : rest = [] → begins first.bytes (ascii ['c', 'd']) = false
  notCls : rest = [] → begins first.bytes (ascii ['c', 'l', 's']) = false
  notRunUt : ∀ second more, rest = second :: more → more.length = 2 →
    begins first.bytes (ascii ['r', 'u', 'n']) = true →
    begins second.bytes (ascii ['u', 't']) = false
  notConfigLoad : ∀ second more, rest = second :: more → more.length = 1 →
    begins first.bytes (ascii ['c', 'o', 'n', 'f', 'i', 'g']) = true →
    begins second.bytes (ascii ['l', 'o', 'a', 'd']) = false

theorem begins_cd {word : Bytes} (begun : begins word (ascii ['c', 'd', '.', '.']) = true) :
    begins word (ascii ['c', 'd']) = true := by
  have shorter : ascii ['c', 'd'] <+: ascii ['c', 'd', '.', '.'] := by decide
  exact List.isPrefixOf_iff_prefix.mpr (shorter.trans (List.isPrefixOf_iff_prefix.mp begun))

theorem unshadowed_of_none (none : tree.shortcut cli first rest = none) :
    Unshadowed tree cli.cursor first rest := by
  unfold CommandTree.shortcut at none
  split_ifs at none with notDo notRepeat notUp notCd notCls
  constructor
  · intro several below
    by_contra begun
    exact notDo ⟨several, Bool.not_eq_false _ ▸ begun, below⟩
  · exact Bool.not_eq_true _ ▸ notRepeat
  · intro single
    by_contra begun
    exact notCd ⟨Bool.not_eq_false _ ▸ begun, single⟩
  · intro single
    by_contra begun
    exact notCls ⟨Bool.not_eq_false _ ▸ begun, single⟩
  · rintro second more rfl length run
    by_contra begun
    dsimp only at none
    rw [if_pos ⟨run, Bool.not_eq_false _ ▸ begun, length⟩] at none
    cases none
  · rintro second more rfl length config
    by_contra begun
    dsimp only at none
    have notRun : ¬ (begins first.bytes (ascii ['r', 'u', 'n']) = true ∧
        begins second.bytes (ascii ['u', 't']) = true ∧ more.length = 2) := by omega
    rw [if_neg notRun, if_pos ⟨config, Bool.not_eq_false _ ▸ begun, length⟩] at none
    cases none

theorem none_of_unshadowed (unshadowed : Unshadowed tree cli.cursor first rest) :
    tree.shortcut cli first rest = none := by
  obtain ⟨notDo, notRepeat, notCd, notCls, notRunUt, notConfigLoad⟩ := unshadowed
  unfold CommandTree.shortcut
  rw [if_neg, if_neg, if_neg, if_neg, if_neg]
  · match rest with
    | [] => rfl
    | second :: more =>
      dsimp only
      rw [if_neg, if_neg]
      · rintro ⟨config, load, length⟩
        exact absurd load (Bool.not_eq_true _ ▸ notConfigLoad second more rfl length config)
      · rintro ⟨run, ut, length⟩
        exact absurd ut (Bool.not_eq_true _ ▸ notRunUt second more rfl length run)
  · rintro ⟨begun, single⟩
    exact absurd begun (Bool.not_eq_true _ ▸ notCls single)
  · rintro ⟨begun, single⟩
    exact absurd begun (Bool.not_eq_true _ ▸ notCd single)
  · rintro ⟨begun, single⟩
    exact absurd (begins_cd begun) (Bool.not_eq_true _ ▸ notCd single)
  · exact Bool.not_eq_true _ ▸ notRepeat
  · rintro ⟨several, begun, below⟩
    exact absurd begun (Bool.not_eq_true _ ▸ notDo several below)

/-- A captured line is not passed on. -/
theorem captured_ignores {build build' : Builder ι} (cut : tokenizer line 32 = .ok (first :: rest))
    (captured : tree.shortcut cli first rest ≠ none)
    (elsewhere : ∀ tokens, tokens ≠ first :: rest → build tokens = build' tokens) :
    parseInputCmdWith tree outside build line cli = parseInputCmdWith tree outside build' line cli := by
  have shorter : rest ≠ first :: rest := (List.cons_ne_self first rest).symm
  unfold parseInputCmdWith
  rw [cut]
  dsimp only
  rw [elsewhere rest shorter]
  match found : tree.shortcut cli first rest with
  | none => exact absurd found captured
  | some shortcut => cases shortcut <;> rfl

theorem passedOn_of_none (cut : tokenizer line 32 = .ok (first :: rest))
    (none : tree.shortcut cli first rest = none) :
    PassedOn tree outside line (first :: rest) cli := by
  intro build
  unfold parseInputCmdWith
  rw [cut]
  dsimp only
  rw [none]

theorem none_of_passedOn (cut : tokenizer line 32 = .ok (first :: rest))
    (passedOn : PassedOn tree outside line (first :: rest) cli) : tree.shortcut cli first rest = none := by
  by_contra captured
  have elsewhere (tokens : List Token) (other : tokens ≠ first :: rest) :
      (fun cli : Cli ι => if tokens = first :: rest then .error .exited else .error .assertion) =
        fun _ => (.error .assertion : Except CliFault (Built ι)) := by
    simp only [if_neg other]
  have same : parseInputCmdWith tree outside _ line cli = parseInputCmdWith tree outside _ line cli :=
    captured_ignores cut captured elsewhere
  rw [passedOn, passedOn] at same
  simp [ofBuilt] at same

/-- A line is passed on as it is if and only if no built-in word hides its first word. -/
theorem passedOn_iff (cut : tokenizer line 32 = .ok (first :: rest)) :
    PassedOn tree outside line (first :: rest) cli ↔ Unshadowed tree cli.cursor first rest :=
  ⟨fun passedOn => unshadowed_of_none (none_of_passedOn cut passedOn),
    fun unshadowed => passedOn_of_none cut (none_of_unshadowed unshadowed)⟩

/-- `show history` is passed on at the root. -/
theorem passedOn_showHistory :
    PassedOn initLibcli unasked (ascii ['s', 'h', 'o', 'w', ' ', 'h', 'i', 's', 't', 'o', 'r', 'y'])
    [typedWord ['s', 'h', 'o', 'w'], typedWord ['h', 'i', 's', 't', 'o', 'r', 'y']]
    (Session.started initLibcli).cli := by
  refine (passedOn_iff (by decide)).mpr ⟨?_, by decide, by simp, by simp, ?_, ?_⟩
  · intro _ below
    exact absurd rfl below
  · rintro second more same length run
    cases same
    cases length
  · rintro second more same length config
    cases same
    cases length

/-- An application with the command `rep`. -/
def replay : Application Unit where
  param _ :=
    { cmdType := .cmd ⟨ascii ['r', 'e', 'p'], by decide, by decide⟩
      callback := some .application
      parent := some (.inl .root) }
  children p := if p = .root then [()] else []
  depth _ := 1
  registered p k child := by
    split at child
    · next root => rw [root]
    · cases child
  childless := by decide
  hooked p parent := by
    split at parent
    · next root =>
      rw [root]
      decide
    · exact absurd rfl parent
  descends := by
    rintro k q ⟨⟩
    rfl
  inner _ _ := by simp
  negates _ := by simp
  capabilities _ none := absurd rfl none
  callbacks _ := List.mem_cons_of_mem _ List.mem_cons_self

/-- The line begins with the name of a child of the cursor that is no built-in word, and is no line the
library keeps for itself. -/
structure CallsChild (tree : CommandTree ι) (cursor : ι) (first : Token) (rest : List Token) : Prop where
  child : ∃ p ∈ (tree.param cursor).options, (tree.param p).cmdType.cmdName = some first.bytes
  notBuiltin : first.bytes ∉ [ascii ['d', 'o'], ascii ['r', 'e', 'p', 'e', 'a', 't'], ascii ['c', 'd'],
    ascii ['c', 'd', '.', '.'], ascii ['c', 'l', 's']]
  notRunUt : ∀ second more, rest = second :: more →
    ¬ (first.bytes = ascii ['r', 'u', 'n'] ∧ second.bytes = ascii ['u', 't'])
  notConfigLoad : ∀ second more, rest = second :: more →
    ¬ (first.bytes = ascii ['c', 'o', 'n', 'f', 'i', 'g'] ∧ second.bytes = ascii ['l', 'o', 'a', 'd'])

/-- The command `rep` repeats the last command instead. -/
theorem rep_captured : ¬ ∀ (κ : Type) (application : Application κ) (_ : DecidableEq (LibParam ⊕ κ))
    (outside : Outside)
    (line : Bytes) (first : Token) (rest : List Token) (cli : Cli (LibParam ⊕ κ)),
    tokenizer line 32 = .ok (first :: rest) → CallsChild application.tree cli.cursor first rest →
      PassedOn application.tree outside line (first :: rest) cli := by
  intro always
  have child : .inr () ∈ replay.libOptions .root :=
    List.mem_append_right _ (List.mem_map_of_mem List.mem_cons_self)
  have passedOn := always Unit replay inferInstance unasked (ascii ['r', 'e', 'p'])
    (typedWord ['r', 'e', 'p']) [] (Session.started replay.tree).cli (by decide)
    ⟨⟨.inr (), child, rfl⟩, by decide, by simp, by simp⟩
  have refused := passedOn fun _ _ => .error .exited
  cases refused

end TcpServerLib.Soundness
