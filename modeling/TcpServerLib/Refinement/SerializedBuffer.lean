import TcpServerLib.Model.SerializedBuffer

/-! # The serialize buffer as a list of TLVs

What a buffer holds is the bytes below `next`. Collecting a TLV adds its bytes at the end, whether
the block has to grow or not, and nothing that was collected before is touched.
-/

namespace TcpServerLib.Refinement

open Machine Model

variable {buff : SerBuff} {tlvs : List Tlv}

/-- The bytes of TLVs one behind the other. -/
def encoded (tlvs : List Tlv) : Bytes :=
  tlvs.flatMap Tlv.encode

/-- Every TLV takes the same room. -/
theorem length_encoded (tlvs : List Tlv) : (encoded tlvs).length = tlvSize * tlvs.length :=
  length_flatMap_sized length_encode tlvs

theorem encoded_append (first second : List Tlv) : encoded (first ++ second) = encoded first ++ encoded second :=
  List.flatMap_append

theorem encoded_singleton (tlv : Tlv) : encoded [tlv] = tlv.encode :=
  List.flatMap_singleton _ _

theorem length_contents (buff : SerBuff) : buff.contents.length = buff.next := by
  rw [SerBuff.contents, List.length_take, Nat.min_eq_left buff.within]

/-- Serializing appends. -/
theorem contents_serializeString (buff : SerBuff) (data : Bytes) :
    (buff.serializeString data).contents = buff.contents ++ data := by
  have kept : (buff.enlarged data.length).take buff.next = buff.contents := by
    rw [SerBuff.enlarged, List.take_append_of_le_length buff.within, SerBuff.contents]
  have size : (buff.contents ++ data).length = buff.next + data.length := by
    rw [List.length_append, length_contents]
  change (splice (buff.enlarged data.length) buff.next data).take (buff.next + data.length) =
    buff.contents ++ data
  rw [splice, kept]
  exact List.take_left' size

/-- Collecting a TLV appends its bytes. -/
theorem contents_collectTlv (buff : SerBuff) (tlv : Tlv) :
    (collectTlv buff tlv).contents = buff.contents ++ tlv.encode :=
  contents_serializeString buff tlv.encode

@[simp] theorem checkpoint_collectTlv (buff : SerBuff) (tlv : Tlv) :
    (collectTlv buff tlv).checkpoint = buff.checkpoint := rfl

/-- Collecting several TLVs appends them all. -/
theorem contents_collected (buff : SerBuff) (tlvs : List Tlv) :
    (tlvs.foldl collectTlv buff).contents = buff.contents ++ encoded tlvs := by
  induction tlvs generalizing buff with
  | nil => exact (List.append_nil _).symm
  | cons tlv tlvs ih =>
    rw [List.foldl_cons, ih, contents_collectTlv, List.append_assoc]
    rfl

/-- What stood below the checkpoint is what is left when it is restored. -/
theorem contents_restoreCheckpoint (ordered : buff.checkpoint ≤ buff.next) :
    buff.restoreCheckpoint.contents = buff.contents.take buff.checkpoint := by
  rw [SerBuff.contents, SerBuff.contents, List.take_take, Nat.min_eq_left ordered]
  rfl

theorem block_contents (buff : SerBuff) : buff.b = buff.contents ++ buff.b.drop buff.next :=
  (List.take_append_drop buff.next buff.b).symm

/-- The units of the buffer are counted right. -/
theorem units_encoded (holds : buff.contents = encoded tlvs) : units buff = tlvs.length := by
  have length := length_contents buff
  rw [holds, length_encoded] at length
  rw [units, ← length]
  exact Nat.mul_div_cancel_left _ (Nat.lt_of_sub_ne_zero (by decide))

/-- Each of them is one TLV. -/
theorem unit_encoded (holds : buff.contents = encoded tlvs) {i : ℕ} (within : i < tlvs.length) :
    unit tlvSize buff.b i = (tlvs.get ⟨i, within⟩).encode := by
  rw [block_contents buff, holds]
  exact unit_flatMap length_encode within _

/-- A handler's loop sees all TLVs but the last. -/
theorem tlvLoop_encoded {last : Tlv} (holds : buff.contents = encoded (tlvs ++ [last])) :
    tlvLoop buff = some (tlvs.map Tlv.fields) := by
  have count := units_encoded holds
  rw [List.length_append, List.length_singleton] at count
  rw [tlvLoop, count, if_neg (Nat.succ_ne_zero _), Nat.add_sub_cancel]
  congr 1
  apply List.ext_getElem
  · rw [List.length_map, List.length_map, List.length_range]
  · intro i left right
    have within : i < tlvs.length := by simpa only [List.length_map] using right
    rw [List.getElem_map, List.getElem_map, List.getElem_range,
      unit_encoded holds (Nat.lt_of_lt_of_le within (by rw [List.length_append]; exact Nat.le_add_right _ _)),
      readTlv_encode, List.get_eq_getElem, List.getElem_append_left within]

/-- The command code is in the last. -/
theorem extractCmdCode_encoded {last : Tlv} (holds : buff.contents = encoded (tlvs ++ [last])) :
    extractCmdCode buff = some (atoi last.value.bytes) := by
  have count := units_encoded holds
  rw [List.length_append, List.length_singleton] at count
  have within : tlvs.length < (tlvs ++ [last]).length := by
    rw [List.length_append]
    exact Nat.lt_succ_self _
  have final : unit tlvSize buff.b tlvs.length = last.encode := by
    rw [unit_encoded holds within, List.get_eq_getElem, List.getElem_concat_length rfl]
  rw [extractCmdCode, count, if_neg (Nat.succ_ne_zero _), Nat.add_sub_cancel, final, readTlv_encode]
  rfl

/-- The command code comes back from its digits. -/
theorem atoi_commandCodeTlv (cmdCode : Int32) : atoi (commandCodeTlv cmdCode).value.bytes = cmdCode.toInt :=
  atoi_sprintfD cmdCode.toInt

/-- Swapping the TLVs around reverses the list. -/
theorem contents_reverseTlvs (holds : buff.contents = encoded tlvs) :
    (reverseTlvs buff).contents = encoded tlvs.reverse := by
  have length := length_contents buff
  rw [holds, length_encoded] at length
  rw [reverseTlvs]
  split
  · next few =>
    have single : tlvs.reverse = tlvs := by
      match tlvs, length with
      | [], _ => rfl
      | [_], _ => rfl
      | _ :: _ :: rest, length =>
        simp only [List.length_cons] at length
        rw [tlvSize] at length few
        omega
    rw [single, holds]
  · have count := units_encoded holds
    have reversed : (List.range (units buff)).reverse.flatMap (unit tlvSize buff.b) = encoded tlvs.reverse := by
      have read : (List.range tlvs.length).map (unit tlvSize buff.b) = tlvs.map Tlv.encode := by
        apply List.ext_getElem
        · rw [List.length_map, List.length_map, List.length_range]
        · intro i left right
          have within : i < tlvs.length := by simpa only [List.length_map] using right
          rw [List.getElem_map, List.getElem_map, List.getElem_range, unit_encoded holds within,
            List.get_eq_getElem]
      rw [count, List.flatMap_def, List.map_reverse, read, ← List.map_reverse, encoded, List.flatMap_def]
    have size : (encoded tlvs.reverse).length = buff.next := by
      rw [length_encoded, List.length_reverse, length]
    rw [SerBuff.contents]
    simp only [reversed]
    rw [← size, take_splice_zero]

end TcpServerLib.Refinement
