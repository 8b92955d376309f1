import TcpServerLib.Model.OptionArray
import TcpServerLib.Model.TokenTable

/-! # Listing the commands

`dump_all_commands` walks down the tree with the name of each param on its way in the slot of its level. A
param that has a handler prints the slots down to its own, after all that is below it.
-/

namespace TcpServerLib.Model

open Machine

/-- What stands in the slot of a param: the name of a command, the identifier of a leaf in angle brackets. -/
def CmdType.listedName : CmdType → Option Bytes
  | .cmd name => some name.bytes
  | .leaf _ leafId _ => some (60 :: leafId.bytes ++ [62])
  | .noCmd => none

namespace TokenTable

def tokenize (table : TokenTable) (token : Bytes) (index : ℕ) : Except CliFault TokenTable :=
  if leafValueHolderSize < token.length then .error .assertion else table.copy index token

/-- `untokenize` and `tokenize`. -/
def retokenize (table : TokenTable) (token : Bytes) (index : ℕ) : Except CliFault TokenTable :=
  match table.untokenize index with
  | .error fault => .error fault
  | .ok table => table.tokenize token index

/-- `print_tokens`, with the line not ended yet. -/
def printTokens (table : TokenTable) (index : ℕ) : Bytes :=
  (table.slots.take index).flatMap fun slot => unpad slot ++ [32]

theorem retokenize_inside {table table' : TokenTable} {token : Bytes} {index : ℕ}
    (stored : table.retokenize token index = .ok table') : index < maxCmdTreeDepth := by
  by_contra outside
  rw [retokenize, untokenize, if_neg outside] at stored
  cases stored

theorem retokenize_store {table : TokenTable} {token : Bytes} (short : token.length ≤ leafValueHolderSize)
    (index : ℕ) :
    table.retokenize token index = table.store index token := by
  rw [retokenize, store]
  cases table.untokenize index with
  | error fault => rfl
  | ok table => exact if_neg (Nat.not_lt_of_le short)

end TokenTable

/-- The slots, and the lines that have been printed. -/
structure Dump where
  table : TokenTable
  printed : List Bytes

namespace CommandTree

variable {ι : Type*} (tree : CommandTree ι)

/-- `CHILDREN_START_INDEX`; the last child is the last option. -/
def childrenStartIndex : ℕ := 3

def childOptions (p : ι) : List ι :=
  ((tree.param p).options.take maxOptionSize).drop childrenStartIndex

def dumpAllCommands (p : ι) (index : ℕ) (dump : Dump) : Except CliFault Dump :=
  match (tree.param p).cmdType.listedName with
  | none => .ok dump
  | some token =>
    match _ : dump.table.retokenize token index with
    | .error fault => .error fault
    | .ok table => do
      let dump ← (tree.childOptions p).foldlM (fun dump child => dumpAllCommands child (index + 1) dump)
        ⟨table, dump.printed⟩
      if (tree.param p).callback.isSome then
        .ok ⟨dump.table, dump.printed ++ [dump.table.printTokens (index + 1)]⟩
      else .ok dump
termination_by maxCmdTreeDepth - index
decreasing_by
  have inside : index < maxCmdTreeDepth := TokenTable.retokenize_inside (by assumption)
  omega

end CommandTree

end TcpServerLib.Model
