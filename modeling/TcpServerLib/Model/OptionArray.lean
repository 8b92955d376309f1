import TcpServerLib.Model.CommandParser

/-! # Looking a name up in an array of options

The parser has the options of a param as a list. In memory they are the sixteen pointers of `options`,
packed from the first, and `find_matching_param` stops at the first null pointer.
-/

namespace TcpServerLib.Model

open Machine

/-- `MAX_OPTION_SIZE`. -/
def maxOptionSize : ℕ := 16

/-- `options`: the pointers that are set. The others are null. -/
structure OptionArray (ι : Type*) where
  entries : List ι
  fits : entries.length ≤ maxOptionSize

namespace CommandTree

variable {ι : Type*} (tree : CommandTree ι)

/-- The loop of `find_matching_param` from `options[i]` on. The pointer is read before the index is
compared, so the loop looks for a null pointer behind an array that is full. -/
def searchOptions (cmdName : Bytes) : ℕ → List ι → Option ι → List ι →
    Except CliFault (Option ι × List ι)
  | i, [], leaf, possibilities => if i < maxOptionSize then .ok (leaf, possibilities) else .error .outOfBounds
  | i, p :: options, leaf, possibilities =>
    match (tree.param p).cmdType.cmdName with
    | none => searchOptions cmdName (i + 1) options (some p) possibilities
    | some name =>
      if begins name cmdName then
        if cmdName.length = name.length then .ok (leaf, [p])
        else if possibilities.length + 1 < possibilityArraySize then
          searchOptions cmdName (i + 1) options leaf (possibilities ++ [p])
        else .error .assertion
      else searchOptions cmdName (i + 1) options leaf possibilities

variable {tree} in
theorem scanOptions_of_search {token : Token} {options : List ι} {i : ℕ} {leaf : Option ι}
    {possibilities : List ι}
    {found : Option ι × List ι}
    (searched : tree.searchOptions token.bytes i options leaf possibilities = .ok found) :
    tree.scanOptions token options leaf possibilities = .ok found := by
  induction options generalizing i leaf possibilities with
  | nil =>
    rw [searchOptions] at searched
    split at searched
    · exact searched
    · cases searched
  | cons p options ih =>
    rw [searchOptions] at searched
    rw [scanOptions]
    cases called : (tree.param p).cmdType.cmdName with
    | none =>
      rw [called] at searched
      exact ih searched
    | some name =>
      rw [called] at searched
      dsimp only at searched ⊢
      split_ifs at searched ⊢ with begun exact few
      · exact searched
      · exact ih searched
      · exact ih searched

end CommandTree

namespace OptionArray

variable {ι : Type*}

/-- `find_matching_param`, with what the user enters if there is a question. -/
def findMatchingParam (tree : CommandTree ι) (options : OptionArray ι) (cmdName : Bytes) (choice : ℤ) :
    Except CliFault (Option ι) :=
  match tree.searchOptions cmdName 0 options.entries none [] with
  | .error fault => .error fault
  | .ok (leaf, []) => .ok leaf
  | .ok (_, [p]) => .ok (some p)
  | .ok (_, possibilities) => if choice < 0 then .ok none else .ok possibilities[choice.toNat]?

/-- Where the lookup comes to an end, the parser finds the same. -/
theorem parser_finds {tree : CommandTree ι} {outside : Outside} {options : OptionArray ι}
    {token : Token} {asked : ℕ}
    {result : Option ι} (found : options.findMatchingParam tree token.bytes (outside.choice asked) =
      .ok result) :
    ∃ asked', tree.findMatchingParam outside options.entries token asked = .ok (result, asked') := by
  rw [findMatchingParam] at found
  cases searched : tree.searchOptions token.bytes 0 options.entries none [] with
  | error fault =>
    rw [searched] at found
    cases found
  | ok outcome =>
    obtain ⟨leaf, possibilities⟩ := outcome
    rw [searched] at found
    rw [CommandTree.findMatchingParam, CommandTree.scanOptions_of_search searched]
    match possibilities with
    | [] =>
      cases found
      exact ⟨asked, rfl⟩
    | [p] =>
      cases found
      exact ⟨asked, rfl⟩
    | p :: q :: others =>
      dsimp only at found ⊢
      split_ifs at found ⊢ with refused
      · cases found
        exact ⟨asked + 1, rfl⟩
      · cases found
        exact ⟨asked + 1, rfl⟩

end OptionArray

end TcpServerLib.Model
