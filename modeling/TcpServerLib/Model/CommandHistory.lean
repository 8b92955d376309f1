import TcpServerLib.Machine.CString
import TcpServerLib.Model.Memory
import TcpServerLib.Model.StringUtil

/-! # The history of commands

`record_command` appends the commands of a session to a file that outlives the session.
`show_history_callback` notes where the lines of the file begin, asks for the number of one of them and
hands it to the parser. A walk through the file has no result if it needs more steps than it is given.
-/

namespace TcpServerLib.Model

open Machine

def maxSavedCmds : ℕ := 30

/-- `LEAF_VALUE_HOLDER_SIZE` for each level of the tree. -/
def fileCmdSizeMax : ℕ := 64 * maxCmdTreeDepth

/-- The file, if it has been written, and the static counter of the session. -/
structure CmdHistory where
  file : Option Bytes
  cmdCounter : ℕ

def recordCommand (history : CmdHistory) (consInputBuffer : Bytes) : CmdHistory :=
  if history.cmdCounter = maxSavedCmds then history
  else ⟨some (history.file.getD [] ++ (consInputBuffer ++ [10])), history.cmdCounter + 1⟩

def recordSession (file : Option Bytes) (commands : List Bytes) : Option Bytes :=
  (commands.foldl recordCommand ⟨file, 0⟩).file

def recordSessions (sessions : List (List Bytes)) : Option Bytes :=
  sessions.foldl recordSession none

def throughNewline : Bytes → Bytes
  | [] => []
  | byte :: bytes => if byte = 10 then [byte] else byte :: throughNewline bytes

/-- What `fgets` reads into a buffer of `size` bytes; at the end of the file nothing. -/
def fgets (size : ℕ) (file : Bytes) (offset : ℕ) : Option Bytes :=
  let line := throughNewline ((file.drop offset).take (size - 1))
  if line = [] then none else some line

/-- `cmd_offset[cmd_counter] = offset` -/
def storeOffset (cmdOffset : List ℕ) (cmdCounter offset : ℕ) : Except Trap (List ℕ) :=
  if cmdCounter < cmdOffset.length then .ok (cmdOffset.set cmdCounter offset) else .error .outOfBounds

/-- The loop over the lines of the file. -/
def noteOffsets (file : Bytes) : ℕ → ℕ → ℕ → List ℕ → Option (Except Trap (ℕ × List ℕ))
  | 0, _, _, _ => none
  | steps + 1, offset, cmdCounter, cmdOffset =>
    match fgets fileCmdSizeMax file offset with
    | none => some (.ok (cmdCounter, cmdOffset))
    | some line =>
      match storeOffset cmdOffset cmdCounter (offset + line.length) with
      | .error trap => some (.error trap)
      | .ok cmdOffset => noteOffsets file steps (offset + line.length) (cmdCounter + 1) cmdOffset

/-- The string that `fgets` leaves in a buffer of zeros, the last byte of which is cleared again. -/
def chosenCommand (file : Bytes) (offset : ℕ) : Bytes :=
  unpad ((pad fileCmdSizeMax ((fgets fileCmdSizeMax file offset).getD [])).set (fileCmdSizeMax - 1) 0)

/-- The line that is handed to `parse_input_cmd`, if one is. -/
def CmdHistory.showHistoryCallback (steps : ℕ) (file : Option Bytes) (cmdChoice : ℤ) :
    Option (Except Trap (Option Bytes)) :=
  match file with
  | none => some (.ok none)
  | some file =>
    match noteOffsets file steps 0 1 ((List.replicate maxSavedCmds 0).set 0 0) with
    | none => none
    | some (.error trap) => some (.error trap)
    | some (.ok (cmdCounter, cmdOffset)) =>
      if 0 ≤ cmdChoice ∧ cmdChoice < cmdCounter then
        match cmdOffset[cmdChoice.toNat]? with
        | none => some (.error .outOfBounds)
        | some offset => some (.ok (some (chosenCommand file offset)))
      else some (.ok none)

end TcpServerLib.Model
