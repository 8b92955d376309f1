import Mathlib.Data.List.DropRight
import TcpServerLib.Machine.CString
import TcpServerLib.Model.Memory

/-! # Words of a line

`tokenizer` has sixteen slots of 64 bytes each. A line that does not fit writes past them.
-/

namespace TcpServerLib.Model

open Machine

/-- What ends the process, or leaves the parser in a state the language gives no meaning to. -/
inductive CliFault where
  | assertion
  | nullDereference
  | outOfBounds
  | exited
deriving DecidableEq, Repr

def ascii (s : List Char) : Bytes :=
  s.map fun c => UInt8.ofNat c.toNat

def isspace (byte : UInt8) : Bool :=
  byte = 32 || (9 ≤ byte && byte ≤ 13)

def stringSpaceTrim (s : Bytes) : Bytes :=
  (s.rdropWhile isspace).dropWhile isspace

/-- `strtok`, called until it has no more. -/
def strtok (delim : UInt8) (s : Bytes) : List Bytes :=
  (s.splitOn delim).filter (· ≠ [])

/-- A word in its slot, with its terminator. -/
structure Token extends CString 64 where
  nonempty : bytes ≠ []
deriving DecidableEq

def Token.ofWord (word : Bytes) : Option Token :=
  if fitting : word.length < 64 ∧ 0 ∉ word ∧ word ≠ [] then
    some ⟨⟨word, fitting.1, fitting.2.1⟩, fitting.2.2⟩
  else none

/-- `CONS_INPUT_BUFFER_SIZE`. -/
def consInputBufferSize : ℕ := 2048

/-- `MAX_CMD_TREE_DEPTH`, the number of slots as well. -/
def maxCmdTreeDepth : ℕ := 16

def tokenizer (line : Bytes) (delim : UInt8) : Except CliFault (List Token) :=
  let words := strtok delim (stringSpaceTrim line)
  if line.length < consInputBufferSize ∧ words.length ≤ maxCmdTreeDepth ∧
    ∀ word ∈ words, word.length < 64 then
    .ok (words.filterMap Token.ofWord)
  else .error .outOfBounds

theorem length_tokenizer {line : Bytes} {delim : UInt8} {tokens : List Token}
    (cut : tokenizer line delim = .ok tokens) : tokens.length ≤ maxCmdTreeDepth := by
  rw [tokenizer] at cut
  split at cut
  · next fitting =>
    cases cut
    exact Nat.le_trans (List.length_filterMap_le _ _) fitting.2.1
  · cases cut

/-- `strncmp (s, word, strlen (word)) == 0`: `s` begins with `word`. -/
def begins (s word : Bytes) : Bool :=
  word.isPrefixOf s

end TcpServerLib.Model
