import TcpServerLib.Machine.Words
import TcpServerLib.Model.StringUtil

/-! # The tokenizer and its memory

`tokenizer` copies a line into `a_str`, trims it there, and copies what `strtok` finds into the slots
of `tokens`, one after the other. Here a line is cut by these steps; what comes out is compared with
the words of the line elsewhere.
-/

namespace TcpServerLib.Model

open Machine

/-- `LEAF_VALUE_HOLDER_SIZE`. -/
def leafValueHolderSize : ℕ := 64

/-- The first loop of `string_space_trim`. The first byte is left to the second. -/
def trimEnd (buffer : Bytes) : ℕ → Bytes × ℕ
  | len + 2 => if isspace (buffer.getD (len + 1) 0) then trimEnd (buffer.set (len + 1) 0)
      (len + 1) else (buffer, len + 2)
  | len => (buffer, len)

/-- The second loop. A pointer into the buffer is what lies behind it. -/
def skipSpaces : Bytes → ℕ → Bytes × ℕ
  | byte :: ptr, len => if byte ≠ 0 ∧ isspace byte then skipSpaces ptr (len - 1) else (byte :: ptr, len)
  | [], len => ([], len)

/-- `string_space_trim`, on the buffer that begins with the string. -/
def stringSpaceTrimIn (buffer : Bytes) : Bytes :=
  let len := (unpad buffer).length
  if len = 0 then buffer
  else if ¬ isspace (buffer.getD 0 0) ∧ ¬ isspace (buffer.getD (len - 1) 0) then buffer
  else
    let trimmed := trimEnd buffer len
    let skipped := skipSpaces trimmed.1 trimmed.2
    skipped.1.take (skipped.2 + 1) ++ trimmed.1.drop (skipped.2 + 1)

/-- `tokens`, after `init_token_array`. -/
structure TokenTable where
  slots : List Bytes
  length_slots : slots.length = maxCmdTreeDepth
  sized : ∀ slot ∈ slots, slot.length = leafValueHolderSize

namespace TokenTable

def write (table : TokenTable) (index : ℕ) (slot : Bytes) (full : slot.length = leafValueHolderSize) :
    TokenTable where
  slots := table.slots.set index slot
  length_slots := by rw [List.length_set, table.length_slots]
  sized := by
    intro other member
    rcases List.mem_or_eq_of_mem_set member with before | rfl
    · exact table.sized other before
    · exact full

def untokenize (table : TokenTable) (index : ℕ) : Except CliFault TokenTable :=
  if index < maxCmdTreeDepth then
    .ok (table.write index (List.replicate leafValueHolderSize 0) (List.length_replicate ..))
  else .error .outOfBounds

/-- `strncpy (tokens[index], token, strlen (token))`, which writes no terminator. -/
def copy (table : TokenTable) (index : ℕ) (token : Bytes) : Except CliFault TokenTable :=
  if fits : index < table.slots.length ∧ token.length ≤ leafValueHolderSize then
    .ok (table.write index (token ++ (table.slots.get ⟨index, fits.1⟩).drop token.length) (by
      rw [List.length_append, List.length_drop, table.sized _ (List.get_mem ..)]
      exact Nat.add_sub_of_le fits.2))
  else .error .outOfBounds

/-- `re_init_tokens`, of all the slots. -/
def reInitTokens : TokenTable where
  slots := List.replicate maxCmdTreeDepth (List.replicate leafValueHolderSize 0)
  length_slots := List.length_replicate ..
  sized := by
    intro slot member
    rw [List.eq_of_mem_replicate member, List.length_replicate]

/-- What the body of the loop does with a token. -/
def store (table : TokenTable) (index : ℕ) (token : Bytes) : Except CliFault TokenTable :=
  match table.untokenize index with
  | .error fault => .error fault
  | .ok table => table.copy index token

end TokenTable

/-- What `tokenizer` leaves in the slots and in `token_cnt`, and whether it returns a null pointer. -/
structure Tokenized where
  table : TokenTable
  tokenCnt : ℕ
  null : Bool

/-- One call of `strtok`: the token, and what is left for the next call. -/
def strtokNext (delim : UInt8) (s : Bytes) : Option (Bytes × Bytes) :=
  match s.dropWhile (· = delim) with
  | [] => none
  | byte :: start =>
    some ((byte :: start).takeWhile (· ≠ delim), ((byte :: start).dropWhile (· ≠ delim)).drop 1)

theorem length_strtokNext {delim : UInt8} {s token rest : Bytes}
    (next : strtokNext delim s = some (token, rest)) :
    rest.length < s.length := by
  have suffix := (List.dropWhile_suffix (l := s) (· = delim)).length_le
  rw [strtokNext] at next
  split at next
  · cases next
  · next byte start begun =>
    cases next
    have head : byte ≠ delim := by
      have stopped := List.head?_dropWhile_not (· = delim) s
      rw [begun] at stopped
      simpa using stopped
    have shorter := (List.dropWhile_suffix (l := start) (· ≠ delim)).length_le
    rw [begun, List.length_cons] at suffix
    rw [List.dropWhile_cons_of_pos (by simpa using head), List.length_drop]
    omega

/-- The loop of `tokenizer`. Its guard comes after the token that is one too many. -/
def tokenLoop (delim : UInt8) (table : TokenTable) (i : ℕ) (rest : Bytes) : Except CliFault Tokenized :=
  match _ : strtokNext delim rest with
  | none => .ok ⟨table, i, false⟩
  | some (token, rest') =>
    match table.store i token with
    | .error fault => .error fault
    | .ok table =>
      if i + 1 = maxCmdTreeDepth + 1 then .ok ⟨.reInitTokens, 0, false⟩ else tokenLoop delim table
        (i + 1) rest'
termination_by rest.length
decreasing_by exact length_strtokNext (by assumption)

/-- `tokenizer`, with the slots as they were before. -/
def tokenizerIn (table : TokenTable) (line : Bytes) (delim : UInt8) : Except CliFault Tokenized :=
  if line.length < consInputBufferSize then
    let aStr := unpad (stringSpaceTrimIn (pad consInputBufferSize line))
    if aStr.length < 1 then .ok ⟨table, 0, true⟩
    else
      match strtokNext delim aStr with
      | none => .ok ⟨table, 0, true⟩
      | some (token, rest) =>
        match table.store 0 token with
        | .error fault => .error fault
        | .ok table => tokenLoop delim table 1 rest
  else .error .outOfBounds

end TcpServerLib.Model
