import TcpServerLib.Machine.CString
import TcpServerLib.Model.Memory

/-! # Replacing in place

`replaceSubstring` deletes an occurrence and inserts the new text byte by byte, in the array that holds
the string. A read or a write outside one of its three arrays is a trap, and so is a length that is no
`int`; the other variables stay between zero and one more than the length, so they need no check. The
scan has no result if it needs more steps than it is given.
-/

namespace TcpServerLib.Model

open Machine

namespace ReplaceSubstring

def readByte (array : Bytes) (i : ℕ) : Except Trap UInt8 :=
  match array[i]? with
  | some byte => .ok byte
  | none => .error .outOfBounds

def writeByte (array : Bytes) (i : ℕ) (byte : UInt8) : Except Trap Bytes :=
  if i < array.length then .ok (array.set i byte) else .error .outOfBounds

def toInt (n : ℕ) : Except Trap ℕ :=
  if n < 2 ^ 31 then .ok n else .error .wrap

/-- The variables of the outer loop. -/
structure Scan where
  string : Bytes
  stringLen : ℕ
  i : ℕ

/-- `for (j = 0; string[i] == sub[j]; j++, i++)`, with `sub` from its `j`-th byte on. -/
def matchSub (string : Bytes) (subLen : ℕ) : Bytes → ℕ → ℕ → Bool → Except Trap (ℕ × ℕ × Bool)
  | [], _, _, _ => .error .outOfBounds
  | byte :: sub, i, j, flag => do
    let char ← readByte string i
    if char = byte then matchSub string subLen sub (i + 1) (j + 1) (flag || j + 1 = subLen)
    else .ok (i, j, flag)

/-- `for (k = start; k < stringLen; k++) string[k] = string[k + 1]` -/
def shiftLeft : ℕ → Bytes → ℕ → Except Trap Bytes
  | 0, string, _ => .ok string
  | n + 1, string, k => do
    let byte ← readByte string (k + 1)
    let string ← writeByte string k byte
    shiftLeft n string (k + 1)

/-- `for (j = start; j < end; j++)` -/
def deleteLoop (start : ℕ) : ℕ → Scan → Except Trap Scan
  | 0, scan => .ok scan
  | n + 1, scan => do
    let string ← shiftLeft (scan.stringLen - start) scan.string start
    deleteLoop start n ⟨string, scan.stringLen - 1, scan.i - 1⟩

/-- `for (k = stringLen; k >= j; k--) string[k + 1] = string[k]` -/
def shiftRight (j : ℕ) : ℕ → Bytes → Except Trap Bytes
  | 0, string => .ok string
  | n + 1, string => do
    let byte ← readByte string (j + n)
    let string ← writeByte string (j + n + 1) byte
    shiftRight j n string

/-- `for (j = start; j < start + newLen; j++)` -/
def insertLoop (newStr : Bytes) (start : ℕ) : ℕ → ℕ → Scan → Except Trap Scan
  | 0, _, scan => .ok scan
  | n + 1, j, scan => do
    let string ← shiftRight j (scan.stringLen + 1 - j) scan.string
    let byte ← readByte newStr (j - start)
    let string ← writeByte string j byte
    let stringLen ← toInt (scan.stringLen + 1)
    insertLoop newStr start n (j + 1) ⟨string, stringLen, scan.i + 1⟩

/-- The body of the outer loop. -/
def replaceAt (sub newStr : Bytes) (subLen newLen : ℕ) (scan : Scan) : Except Trap Scan := do
  let (i, j, flag) ← matchSub scan.string subLen sub scan.i 0 false
  if flag then
    let deleted ← deleteLoop scan.i (i - scan.i) { scan with i := i }
    insertLoop newStr scan.i newLen scan.i deleted
  else .ok { scan with i := i - j }

def replaceFrom (sub newStr : Bytes) (subLen newLen : ℕ) : ℕ → Scan → Option (Except Trap Bytes)
  | 0, _ => none
  | steps + 1, scan =>
    if scan.i < scan.stringLen then
      match replaceAt sub newStr subLen newLen scan with
      | .error trap => some (.error trap)
      | .ok scan => replaceFrom sub newStr subLen newLen steps { scan with i := scan.i + 1 }
    else some (.ok scan.string)

def replaceSubstring (steps : ℕ) (string sub newStr : Bytes) : Option (Except Trap Bytes) :=
  match toInt (unpad string).length, toInt (unpad sub).length, toInt (unpad newStr).length with
  | .ok stringLen, .ok subLen, .ok newLen => replaceFrom sub newStr subLen newLen steps ⟨string, stringLen, 0⟩
  | _, _, _ => some (.error .wrap)

end ReplaceSubstring

end TcpServerLib.Model
