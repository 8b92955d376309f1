import TcpServerLib.Model.Libcli
import TcpServerLib.Refinement.CommandCall

/-! # Handlers decode what the user typed

A command that is found from the root reaches the handler of its last param with a buffer whose
TLVs are the leaves of its path, each with the value that was typed, and behind them the command
code. The mode tells whether the command is one of the configuration, and whether it is negated.
-/

namespace TcpServerLib.Soundness

open Machine Model CommandTree Refinement

variable {ι : Type*} [DecidableEq ι] {tree : CommandTree ι} {outside : Outside} {h p c : ι}
  {tokens : List Token} {path : List ι} {asked asked' : ℕ}

/-- The mode as the path tells it. -/
structure ModeOfPath (tree : CommandTree ι) (path : List ι) (mode : OpMode) : Prop where
  disable : mode = .configDisable ↔ path.head? = some tree.configHook ∧
    ∃ p ∈ path, tree.isNegation p = true
  enable : mode = .configEnable ↔ path.head? = some tree.configHook ∧
    ¬ ∃ p ∈ path, tree.isNegation p = true
  operational : mode = .operational ↔ path.head? ≠ some tree.configHook

theorem commandMode_path (head : path.head? = some h) :
    ModeOfPath tree path (tree.commandMode h (pathMode tree .modeUnknown path)) := by
  have negated : (∃ p ∈ path, tree.isNegation p = true) ↔ path.any tree.isNegation = true :=
    List.any_eq_true.symm
  by_cases config : h = tree.configHook
  · rw [config] at head
    cases negation : path.any tree.isNegation with
    | false =>
      have mode : tree.commandMode h (pathMode tree .modeUnknown path) = .configEnable := by
        rw [commandMode, if_pos config, pathMode, negation]
        rfl
      constructor <;> simp [mode, negated, negation, head]
    | true =>
      have mode : tree.commandMode h (pathMode tree .modeUnknown path) = .configDisable := by
        rw [commandMode, if_pos config, pathMode, negation]
        rfl
      constructor <;> simp [mode, negated, negation, head]
  · have mode : tree.commandMode h (pathMode tree .modeUnknown path) = .operational := by
      rw [commandMode, if_neg config]
    constructor <;> simp [mode, head, config]

/-- The handler at the end of a path finds the leaves of the path in its buffer, and its own code. -/
theorem handler_decodes {cli : Cli ι} (atRoot : cli.cursor = tree.root) (empty : cli.tlvBuff.next = 0)
    (several : 2 ≤ tokens.length) (resolves : Resolves tree outside cli.asked tree.root tokens path asked')
    (ends : path.getLast? = some p) (handler : tree.hasHandler p = true) (ordinary : p ∉ controls tree)
    (notRepeat : path.head? ≠ some tree.repeatHook) :
    ∃ after mode, tree.buildTlvBuffer outside tokens cli = .ok ⟨.complete, after, some (p, mode)⟩ ∧
      after.invoked = cli.invoked ∧ tlvLoop after.tlvBuff =
        some ((typedTlvs tree path tokens).map Tlv.fields) ∧
      extractCmdCode after.tlvBuff = some (tree.param p).cmdCode.toInt ∧ ModeOfPath tree path mode := by
  obtain ⟨after, h, head, built, _, invoked, holds⟩ :=
    ordinary_call atRoot empty several resolves ends handler ordinary notRepeat
  refine ⟨after, _, built, invoked, tlvLoop_encoded holds, ?_, commandMode_path head⟩
  rw [← atoi_commandCodeTlv]
  exact extractCmdCode_encoded holds

/-- Nobody is asked anything. -/
def unasked : Outside :=
  ⟨fun _ => 0, fun _ => [], fun _ => none, fun _ => none, fun _ => none⟩

def typedWord (s : List Char) (fits : (ascii s).length < 64 ∧ 0 ∉ ascii s ∧
      ascii s ≠ [] := by decide) : Token :=
  ⟨⟨ascii s, fits.1, fits.2.1⟩, fits.2.2⟩

def configWord : Token :=
  typedWord ['c', 'o', 'n', 'f', 'i', 'g']

def consoleWord : Token :=
  typedWord ['c', 'o', 'n', 's', 'o', 'l', 'e']

def nameWord : Token :=
  typedWord ['n', 'a', 'm', 'e']

def valueWord : Token :=
  typedWord ['a']

def consoleNameWords : List Token :=
  [configWord, consoleWord, nameWord, valueWord]

def consoleNamePath : List LibParam :=
  [.configHook, .configConsole, .configConsoleName, .configConsoleNameName]

theorem consoleName_resolves : Resolves initLibcli unasked 0 .root consoleNameWords consoleNamePath 0 :=
  .cons rfl trivial (.cons rfl trivial (.cons rfl trivial (.cons rfl ⟨rfl, rfl⟩ (.nil 0 _))))

theorem handler_decodes_consoleName :
    ∃ after mode, initLibcli.buildTlvBuffer unasked consoleNameWords (Session.started initLibcli).cli =
        .ok ⟨.complete, after, some (.configConsoleNameName, mode)⟩ ∧
      after.invoked = [] ∧ tlvLoop after.tlvBuff =
        some ((typedTlvs initLibcli consoleNamePath consoleNameWords).map Tlv.fields) ∧
      extractCmdCode after.tlvBuff = some 6 ∧ ModeOfPath initLibcli consoleNamePath mode :=
  handler_decodes rfl rfl (by decide) consoleName_resolves rfl rfl (by decide) (by decide)

end TcpServerLib.Soundness
