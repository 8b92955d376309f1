import TcpServerLib.Model.ReplaceSubstring

/-! # What replacing in place does to the array

The array holds what has been scanned, what is still to be scanned, the terminator, and unused bytes.
-/

namespace TcpServerLib.Refinement

open Machine Model

namespace ReplaceSubstring

open Model.ReplaceSubstring

variable {array before moved behind rest slack sub newStr more : Bytes} {byte last x : UInt8}
  {i j subLen newLen n : ℕ} {flag : Bool}

theorem readByte_at (split : array = before ++ byte :: behind) (here : before.length = i) :
    readByte array i = .ok byte := by
  rw [readByte, split, ← here, List.getElem?_append_right le_rfl, Nat.sub_self]
  rfl

theorem writeByte_at (split : array = before ++ x :: behind) (here : before.length = i) :
    writeByte array i byte = .ok (before ++ byte :: behind) := by
  rw [writeByte, split,
    if_pos (by rw [List.length_append, List.length_cons]; omega), ← here, List.set_append_right _ _ le_rfl,
    Nat.sub_self]
  rfl

theorem length_concat : (before ++ [x]).length = before.length + 1 := by
  rw [List.length_append, List.length_singleton]

/-- The last of the moved bytes stays where it was as well. -/
theorem shiftLeft_moved : shiftLeft moved.length (before ++ x :: (moved ++ behind)) before.length =
    .ok (before ++ (moved ++ moved.getLastD x :: behind)) := by
  induction moved generalizing before x with
  | nil => rfl
  | cons y moved ih =>
    have split : before ++ x :: (y :: moved ++ behind) = (before ++ [x]) ++ y :: (moved ++ behind) := by simp
    have becomes : before ++ y :: (y :: moved ++ behind) = (before ++ [y]) ++ y :: (moved ++ behind) := by simp
    rw [List.length_cons, shiftLeft, readByte_at split length_concat]
    simp only [bind, Except.bind, writeByte_at rfl rfl]
    rw [becomes, ← length_concat (x := y), ih, List.getLastD_cons, List.append_assoc]
    rfl

/-- Shifting the tail right opens a gap of one byte, whose content is still the old one. -/
theorem shiftRight_moved : ∃ first, shiftRight before.length moved.length (before ++ (moved ++ x :: behind)) =
    .ok (before ++ first :: (moved ++ behind)) := by
  induction moved using List.reverseRecOn generalizing x behind with
  | nil => exact ⟨x, rfl⟩
  | append_singleton moved y ih =>
    have split : before ++ (moved ++ [y] ++ x :: behind) = (before ++ moved) ++ y :: x :: behind := by simp
    have split' : before ++ (moved ++ [y] ++ x :: behind) = (before ++ moved ++ [y]) ++ x :: behind := by simp
    have becomes : (before ++ moved ++ [y]) ++ y :: behind = before ++ (moved ++ y :: (y :: behind)) := by simp
    obtain ⟨first, shifted⟩ := @ih (y :: behind) y
    refine ⟨first, ?_⟩
    rw [length_concat, shiftRight, readByte_at split List.length_append]
    simp only [bind, Except.bind]
    rw [writeByte_at split' (by rw [length_concat, List.length_append]), becomes]
    exact shifted.trans (by rw [List.append_assoc]; rfl)

/-- Deleting the occurrence pulls the rest up to it. -/
theorem deleteLoop_occurrence {occurrence : Bytes} :
    deleteLoop before.length occurrence.length
        ⟨before ++ (occurrence ++ (rest ++ 0 :: slack)), before.length +
          (occurrence.length + rest.length), i⟩ =
      .ok ⟨before ++ (rest ++ 0 :: (List.replicate occurrence.length 0 ++ slack)), before.length + rest.length,
        i - occurrence.length⟩ := by
  induction occurrence generalizing slack i with
  | nil => simp [deleteLoop]
  | cons x occurrence ih =>
    have split : x :: occurrence ++ (rest ++ 0 :: slack) =
        x :: ((occurrence ++ (rest ++ [0])) ++ slack) := by simp
    have count : before.length + ((x :: occurrence).length + rest.length) - before.length =
        (occurrence ++ (rest ++ [0])).length := by
      rw [List.length_append, length_concat, List.length_cons]
      omega
    have terminator : (occurrence ++ (rest ++ [0])).getLastD x = 0 := by
      rw [← List.append_assoc, List.getLastD_concat]
    have becomes : (occurrence ++ (rest ++ [0])) ++ 0 :: slack =
        occurrence ++ (rest ++ 0 :: (0 :: slack)) := by simp
    have length : before.length + ((x :: occurrence).length + rest.length) - 1 = before.length +
        (occurrence.length + rest.length) := by
      rw [List.length_cons]
      omega
    have zeros : List.replicate occurrence.length (0 : UInt8) ++ 0 :: slack =
        List.replicate (occurrence.length + 1) 0 ++ slack := by
      rw [List.replicate_succ', List.append_assoc]
      rfl
    have moved := @shiftLeft_moved before (occurrence ++ (rest ++ [0])) slack x
    rw [terminator, becomes] at moved
    rw [List.length_cons, deleteLoop, ← List.length_cons (a := x), count, split, moved]
    simp only [bind, Except.bind]
    rw [length, ih, zeros, Nat.sub_sub, Nat.add_comm 1]
    rfl

/-- By induction on the bytes still to be inserted, which the slack has room for. -/
theorem insertLoop_more {start : ℕ} {inserted : Bytes} (text : newStr = inserted ++ (more ++ behind))
    (here : start + inserted.length = before.length) (room : more.length ≤ slack.length)
    (fits : before.length + rest.length < 2 ^ 31) :
    insertLoop newStr start more.length before.length ⟨before ++ (rest ++ 0 :: slack),
      before.length + rest.length, i⟩ =
      if before.length + more.length + rest.length < 2 ^ 31 then
        .ok ⟨before ++ (more ++ (rest ++ 0 :: slack.drop more.length)), before.length + more.length +
          rest.length, i + more.length⟩
      else .error .wrap := by
  induction more generalizing before inserted slack i with
  | nil => rw [List.length_nil, Nat.add_zero, if_pos fits]; rfl
  | cons byte more ih =>
    obtain ⟨x, slack, rfl⟩ := List.exists_cons_of_length_pos ((Nat.succ_pos _).trans_le room)
    have split : before ++ (rest ++ 0 :: x :: slack) = before ++ ((rest ++ [0]) ++ x :: slack) := by simp
    have count : before.length + rest.length + 1 - before.length =
        (rest ++ [0]).length := by rw [length_concat]; omega
    obtain ⟨first, moved⟩ := @shiftRight_moved before (rest ++ [0]) slack x
    have read : readByte newStr (before.length - start) = .ok byte := readByte_at text (by omega)
    have length : before.length + rest.length + 1 = (before ++ [byte]).length +
        rest.length := by rw [length_concat]; omega
    have becomes : before ++ byte :: ((rest ++ [0]) ++ slack) =
        (before ++ [byte]) ++ (rest ++ 0 :: slack) := by simp
    rw [List.length_cons, insertLoop, split, count, moved]
    simp only [bind, Except.bind, read, writeByte_at rfl rfl, toInt]
    by_cases longer : before.length + rest.length + 1 < 2 ^ 31
    · have text' : newStr = (inserted ++ [byte]) ++ (more ++ behind) := by rw [text, List.append_assoc]; rfl
      have here' : start + (inserted ++ [byte]).length =
          (before ++ [byte]).length := by rw [length_concat, length_concat]; omega
      have further := @ih (before ++ [byte]) slack (i + 1) (inserted ++ [byte]) text' here'
          (Nat.le_of_succ_le_succ room)
        (length ▸ longer)
      have total : (before ++ [byte]).length + more.length = before.length +
          (more.length + 1) := by rw [length_concat]; omega
      rw [if_pos longer, becomes, length, ← length_concat (x := byte)]
      refine further.trans ?_
      rw [total, List.append_assoc, Nat.add_assoc i, Nat.add_comm 1]
      rfl
    · rw [if_neg longer, if_neg (by omega)]

/-- One byte of the comparison. -/
theorem matchSub_step {char : UInt8} (split : array = before ++ char :: behind) (here : before.length = i) :
    matchSub array subLen (byte :: sub) i j flag =
      if char = byte then matchSub array subLen sub (i + 1) (j + 1) (flag || j + 1 = subLen) else .ok
        (i, j, flag) := by
  rw [matchSub, readByte_at split here]
  rfl

/-- Where the substring does not stand, the flag stays down. -/
theorem matchSub_mismatch (noNul : 0 ∉ sub) (absent : ¬ sub <+: rest)
    (split : array = before ++ (rest ++ 0 :: slack))
    (here : before.length = i) (length : subLen = j + sub.length) :
    ∃ m, matchSub array subLen (sub ++ [0]) i j false = .ok (i + m, j + m, false) := by
  induction sub generalizing before rest i j with
  | nil => exact absurd List.nil_prefix absent
  | cons byte sub ih =>
    obtain ⟨notNul, noNul'⟩ := not_or.mp (List.mem_cons.not.mp noNul)
    cases rest with
    | nil => exact ⟨0, (matchSub_step split here).trans (if_neg notNul)⟩
    | cons char rest =>
      by_cases same : char = byte
      · subst same
        have absent' : ¬ sub <+: rest := fun present => absent ((List.prefix_cons_inj char).mpr present)
        have unfinished : j + 1 ≠ subLen := by
          intro finished
          rw [List.length_cons] at length
          obtain rfl := List.eq_nil_of_length_eq_zero (show sub.length = 0 by omega)
          exact absent' List.nil_prefix
        have here' : (before ++ [char]).length = i + 1 := by rw [length_concat, here]
        have length' : subLen = j + 1 + sub.length := by rw [length, List.length_cons]; omega
        obtain ⟨m, ran⟩ := ih noNul' absent' (split.trans (List.append_cons ..)) here' length'
        refine ⟨m + 1, (matchSub_step split here).trans ?_⟩
        rw [if_pos rfl, decide_eq_false unfinished, Bool.or_false]
        refine ran.trans ?_
        rw [Nat.add_right_comm i, Nat.add_right_comm j]
        rfl
      · exact ⟨0, (matchSub_step split here).trans (if_neg same)⟩

/-- Where it stands and a byte follows, the flag goes up. -/
theorem matchSub_occurrence (behindNul : byte ≠ 0) (split : array = before ++ (sub ++ byte :: behind))
    (here : before.length = i) (length : subLen = j + sub.length) :
    matchSub array subLen (sub ++ [0]) i j flag =
      .ok (i + sub.length, j + sub.length, flag || decide (sub ≠ [])) := by
  induction sub generalizing before i j flag with
  | nil =>
    refine (matchSub_step split here).trans ((if_neg behindNul).trans ?_)
    simp
  | cons char sub ih =>
    have here' : (before ++ [char]).length = i + 1 := by rw [length_concat, here]
    have length' : subLen = j + 1 + sub.length := by rw [length, List.length_cons]; omega
    have further := @ih (before ++ [char]) (i + 1) (j + 1) (flag || j + 1 = subLen)
        (split.trans (List.append_cons ..)) here' length'
    refine (matchSub_step split here).trans ((if_pos rfl).trans (further.trans ?_))
    have finished : (decide (j + 1 = subLen) || decide (sub ≠ [])) = true := by
      cases sub with
      | nil => simp [length]
      | cons _ _ => simp
    have present : decide (char :: sub ≠ []) = true := decide_eq_true (List.cons_ne_nil char sub)
    rw [Bool.or_assoc, finished, present, Nat.add_right_comm i, Nat.add_right_comm j]
    rfl

/-- The terminators are compared, and the byte behind that of `sub` is read. -/
theorem matchSub_end (split : array = before ++ (sub ++ 0 :: behind)) (here : before.length = i) :
    matchSub array subLen (sub ++ [0]) i j flag = .error .outOfBounds := by
  induction sub generalizing before i j flag with
  | nil => exact (matchSub_step split here).trans (if_pos rfl)
  | cons char sub ih =>
    refine (matchSub_step split here).trans ((if_pos rfl).trans ?_)
    exact ih (split.trans (List.append_cons ..)) (by rw [length_concat, here])

/-- No occurrence: nothing is replaced. -/
theorem replaceAt_keep {stringLen newLen : ℕ} (noNul : 0 ∉ sub) (absent : ¬ sub <+: rest)
    (split : array = before ++ (rest ++ 0 :: slack)) :
    replaceAt (sub ++ [0]) newStr sub.length newLen ⟨array, stringLen, before.length⟩ =
      .ok ⟨array, stringLen, before.length⟩ := by
  obtain ⟨m, ran⟩ := matchSub_mismatch noNul absent split rfl (Nat.zero_add _).symm
  rw [replaceAt]
  simp only [ran, bind, Except.bind, Bool.false_eq_true, if_false, Nat.zero_add, Nat.add_sub_cancel]

/-- An occurrence at the very end: the match runs past the terminator. -/
theorem replaceAt_end {stringLen newLen : ℕ} (split : array = before ++ (sub ++ 0 :: behind)) :
    replaceAt (sub ++ [0]) newStr subLen newLen ⟨array, stringLen, before.length⟩ = .error .outOfBounds := by
  rw [replaceAt]
  simp only [matchSub_end split rfl, bind, Except.bind]

/-- An occurrence with a byte behind it is replaced. -/
theorem replaceAt_occurrence (nonempty : sub ≠ []) (behindNul : byte ≠ 0)
    (split : array = before ++ (sub ++ ((byte :: rest) ++ 0 :: slack)))
    (room : newStr.length ≤ sub.length + slack.length)
    (fits : before.length + (sub.length + (byte :: rest).length) < 2 ^ 31) :
    replaceAt (sub ++ [0]) (newStr ++ [0]) sub.length newStr.length
        ⟨array, before.length + (sub.length + (byte :: rest).length), before.length⟩ =
      if before.length + newStr.length + (byte :: rest).length < 2 ^ 31 then
        .ok ⟨before ++ (newStr ++ ((byte :: rest) ++ 0 :: (List.replicate sub.length 0 ++ slack).drop
          newStr.length)),
          before.length + newStr.length + (byte :: rest).length, before.length + newStr.length⟩
      else .error .wrap := by
  have found := @matchSub_occurrence array before (rest ++ 0 :: slack) sub byte before.length 0
      sub.length false behindNul split rfl
    (Nat.zero_add _).symm
  rw [decide_eq_true nonempty, Bool.or_true] at found
  rw [replaceAt]
  simp only [found, bind, Except.bind, if_true]
  rw [split, Nat.add_sub_cancel_left, deleteLoop_occurrence, Nat.add_sub_cancel]
  refine insertLoop_more (List.nil_append _).symm rfl ?_ (by omega)
  rw [List.length_append, List.length_replicate]
  exact room

end ReplaceSubstring

end TcpServerLib.Refinement
