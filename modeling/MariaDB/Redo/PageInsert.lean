import MariaDB.Page.Insert
import MariaDB.Redo.Replay

/-!
# The log records of inserts

The `EXTENDED` records that `mtr_t::page_insert()` writes, and how
`log_phys_t::apply()` decodes them.
-/
namespace MariaDB.Redo

open Page (InsertLog)
open List

def Mtr.extendedRecord (m : Mtr) (b : Block) (body : List UInt8) : List UInt8 :=
  mkRecord .extended (m.samePage ⟨b, .extended 0⟩) (m.recordTail ⟨b, .extended 0⟩ ++ body)

variable (m : Mtr)

/-- Writing an `EXTENDED` record of a given body. -/
lemma Mtr.close_extended (b : Block) (body : List UInt8) (ofs : Nat) (hlen : len = body.length) :
    ((m.logWrite .extended b.id (some b.id) len 0).2.close
      ((m.logWrite .extended b.id (some b.id) len 0).1 ++ body) ofs).log =
      m.log ++ m.extendedRecord b body := by
  have htail : (m.recordTail ⟨b, .extended 0⟩).length ≤ 10 := recordTail_length_le rfl
  have heq : m.logWrite .extended b.id (some b.id) len 0 = _ := m.logWrite_eq ⟨b, .extended 0⟩ len
  rw [heq, close, extendedRecord]
  refine congrArg (m.log ++ ·) (recordHeader_eq hlen.symm ?_)
  rw [show (PageWrite.extended 0).type.haveOffset = false from rfl]
  simp only [Bool.false_eq_true, if_false, decide_eq_decide]
  omega

lemma Mtr.extendedRecord_isRecord (b : Block) (hpos : body ≠ []) (hmax : body.length < 2 ^ 19) :
    IsRecord .extended (m.samePage ⟨b, .extended 0⟩) (m.recordTail ⟨b, .extended 0⟩ ++ body)
      (m.extendedRecord b body) := by
  have htail : (m.recordTail ⟨b, .extended 0⟩).length ≤ 10 := recordTail_length_le rfl
  have hpos := length_pos_iff.mpr hpos
  refine mkRecord_isRecord _ (by decide) ?_ ?_
  all_goals
    rw [length_append]
    omega

variable (env : ApplyEnv)

/-- An `EXTENDED` record is executed on the page that it is for. -/
lemma ApplyEnv.applyStep_extendedRecord (m : Mtr) (b : Block)
    (hpos : body ≠ []) (hmax : body.length < 2 ^ 19) (st : ApplyState) (rest : List UInt8) :
    ∃ st', st'.frame = st.frame ∧ st'.recordCorrupted = st.recordCorrupted ∧
      env.applyStep b st (m.extendedRecord b body ++ rest) =
        env.finish st' rest (env.applyExtended b st' (body ++ rest) body.length) := by
  have hrec := m.extendedRecord_isRecord b hpos hmax
  have htail : m.recordTail ⟨b, .extended 0⟩ = if m.samePage ⟨b, .extended 0⟩ then []
      else mlogEncodeVarint b.id.space ++ mlogEncodeVarint b.id.pageNo := by
    simp [Mtr.recordTail, PageWrite.type, MrecType.haveOffset]
  rw [htail] at hrec
  cases hs : m.samePage ⟨b, .extended 0⟩ with
  | true =>
    rw [hs, if_pos rfl, nil_append] at hrec
    exact ⟨st, rfl, rfl, applyStep_samePage hrec rest⟩
  | false =>
    rw [hs, if_neg (by decide)] at hrec
    exact ⟨{ st with lastOffset := 0 }, rfl, rfl, applyStep_newPage hrec rest⟩

/-! ## COMPACT and DYNAMIC -/

def dynamicBody (i : InsertLog) (encHdrL : Nat) : List UInt8 :=
  insertHeapOrReuse true i.reuse :: (mlogEncodeVarint i.prevRec ++
    ((if i.reuse then mlogEncodeVarint (encodeShift i.shift) else []) ++
    (mlogEncodeVarint encHdrL ++ (mlogEncodeVarint i.hdrC ++ (mlogEncodeVarint i.dataC ++
    (i.hdr ++ i.data))))))

def encHdrLen (i : InsertLog) : Nat :=
  i.hdr.length <<< 3 ||| (i.infoStatus &&& 4) ||| i.infoStatus >>> 4

/-- The fields of the log record of an insert are in the range of their encoding. -/
structure InsertBounds (i : InsertLog) : Prop where
  prev_lt : i.prevRec < min4Byte
  shift_lt : encodeShift i.shift < min4Byte
  hdrC_lt : i.hdrC < min3Byte
  dataC_lt : i.dataC < min4Byte
  data_lt : i.hdr.length + i.data.length < 2 ^ 18

variable {i : InsertLog} {b : Block} {enc : Nat}

lemma dynamicBody_length (i : InsertLog) (enc : Nat) :
    (dynamicBody i enc).length = varintSize i.prevRec +
      ((if i.reuse then varintSize (encodeShift i.shift) else 0) + (varintSize enc +
        (varintSize i.hdrC + (varintSize i.dataC + (i.hdr ++ i.data).length)))) + 1 := by
  simp [dynamicBody, apply_ite length]

lemma Mtr.pageInsertDynamic_log (b : Block) (hi : InsertBounds i) (henc : encHdrLen i < min4Byte) :
    (m.pageInsertDynamic b i).log = m.log ++ m.extendedRecord b (dynamicBody i (encHdrLen i)) := by
  have hlen : (dynamicBody i (encHdrLen i)).length =
      (if i.prevRec < min2Byte then 2 else if i.prevRec < min3Byte then 3 else 4)
      + (if i.reuse then if encodeShift i.shift < min2Byte then 1
          else if encodeShift i.shift < min3Byte then 2 else 3 else 0)
      + (if i.hdrC < min2Byte then 1 else 2)
      + (if encHdrLen i < min2Byte then 1 else if encHdrLen i < min3Byte then 2 else 3)
      + (if i.dataC < min2Byte then 1 else if i.dataC < min3Byte then 2 else 3)
      + (i.hdr.length + i.data.length) := by
    rw [lenlen_add_one_eq hi.prev_lt, lenlen_eq hi.shift_lt, hdrlen_eq hi.hdrC_lt, lenlen_eq henc,
      lenlen_eq hi.dataC_lt, dynamicBody_length, length_append]
    split_ifs <;> omega
  exact m.close_extended b (dynamicBody i (encHdrLen i)) _ hlen.symm

lemma ApplyEnv.applyExtended_insert (hb : PageWrite.IndexOrUndoPage b)
    (st : ApplyState) (comp reuse : Bool) {prev n : Nat} (hprev : prev < min4Byte) (hn : 0 < n)
    (l : List UInt8) :
    env.applyExtended b st (insertHeapOrReuse comp reuse :: (mlogEncodeVarint prev ++ l))
        (varintSize prev + n + 1) =
      if comp then env.applyInsertDynamic b st reuse prev l n
      else env.applyInsertRedundant b st reuse prev l n := by
  obtain ⟨hzip, hno⟩ := hb
  unfold applyExtended
  simp only [getD_cons_zero, drop_succ_cons, drop_zero, Nat.add_sub_cancel]
  rw [if_neg (by omega), if_neg (by omega), decodeField_encode hprev (varintSize_le_three hprev) hn]
  -- the code is not the one of another operation
  cases comp <;> cases reuse <;>
    rw [if_neg (by decide), if_neg (by decide), if_neg (by decide), if_pos (by decide),
      if_neg (by omega)] <;> rfl

lemma ApplyEnv.applyInsertDynamic_encode {reuse : Bool} {prev shift hdrC dataC : Nat}
    (hs : shift < min4Byte) (he : enc < min4Byte) (hh : hdrC < min3Byte) (hd : dataC < min4Byte) :
    env.applyInsertDynamic b st reuse prev
        ((if reuse then mlogEncodeVarint shift else []) ++ (mlogEncodeVarint enc ++
          (mlogEncodeVarint hdrC ++ (mlogEncodeVarint dataC ++ (payload ++ rest)))))
        ((if reuse then varintSize shift else 0) +
          (varintSize enc + (varintSize hdrC + (varintSize dataC + payload.length)))) =
      env.pageOp st (env.ops.pageApplyInsertDynamic b reuse prev (if reuse then shift else 0) enc
        hdrC dataC payload st.frame) := by
  have h3 := min3Byte_eq
  have h4 := min4Byte_eq
  have he0 := varintSize_pos enc
  have hh0 := varintSize_pos hdrC
  have hd0 := varintSize_pos dataC
  have hshift (l : List UInt8) {n : Nat} (hn : 1 ≤ n) :
      (if reuse then decodeField 3 1 ((if reuse then mlogEncodeVarint shift else []) ++ l)
          ((if reuse then varintSize shift else 0) + n)
        else some (0, (if reuse then mlogEncodeVarint shift else []) ++ l,
          (if reuse then varintSize shift else 0) + n)) =
        some (if reuse then shift else 0, l, n) := by
    cases reuse
    · simp
    · exact decodeField_encode hs (varintSize_le_three hs) hn l
  unfold applyInsertDynamic
  rw [hshift _ (by omega)]
  simp only
  rw [decodeField_encode he (varintSize_le_three he) (by omega)]
  simp only
  rw [decodeField_encode (by omega) (hdrlen_le hh) (by omega)]
  simp only
  rw [decodeField_encode hd (varintSize_le_three hd) (by omega)]
  simp only
  rw [take_left]

lemma ApplyEnv.applyExtended_dynamicBody (hb : PageWrite.IndexOrUndoPage b)
    (hi : InsertBounds i) (henc : enc < min4Byte) (st : ApplyState) (rest : List UInt8) :
    env.applyExtended b st (dynamicBody i enc ++ rest) (dynamicBody i enc).length =
      env.pageOp st (env.ops.pageApplyInsertDynamic b i.reuse i.prevRec
        (if i.reuse then encodeShift i.shift else 0) enc i.hdrC i.dataC (i.hdr ++ i.data)
        st.frame) := by
  have he0 := varintSize_pos enc
  rw [dynamicBody_length, dynamicBody]
  simp only [cons_append, append_assoc]
  rw [env.applyExtended_insert hb st true i.reuse hi.prev_lt (by omega), if_pos rfl,
    ← append_assoc i.hdr]
  exact env.applyInsertDynamic_encode hi.shift_lt henc hi.hdrC_lt hi.dataC_lt

/-! ## `ROW_FORMAT=REDUNDANT` -/

def redundantBody (i : InsertLog) (enc : Nat) : List UInt8 :=
  insertHeapOrReuse false i.reuse :: (mlogEncodeVarint i.prevRec ++
    (mlogEncodeVarint enc ++ (mlogEncodeVarint i.hdrC ++ (mlogEncodeVarint i.dataC ++
    (i.hdr ++ i.data)))))

def encHdrFields (i : InsertLog) : Nat := (i.nFieldsS - 2) <<< 2 ||| i.infoStatus >>> 4

lemma redundantBody_length (i : InsertLog) (enc : Nat) :
    (redundantBody i enc).length = varintSize i.prevRec + (varintSize enc +
      (varintSize i.hdrC + (varintSize i.dataC + (i.hdr ++ i.data).length))) + 1 := by
  simp [redundantBody]

lemma Mtr.pageInsertRedundant_log (b : Block) (hi : InsertBounds i)
    (henc : encHdrFields i < min3Byte) (hdata : i.dataC < min3Byte) :
    (m.pageInsertRedundant b i).log =
      m.log ++ m.extendedRecord b (redundantBody i (encHdrFields i)) := by
  have hlen : (redundantBody i (encHdrFields i)).length =
      (if i.prevRec < min2Byte then 2 else if i.prevRec < min3Byte then 3 else 4)
      + (if encHdrFields i < min2Byte then 1 else 2)
      + (if i.hdrC < min2Byte then 1 else 2)
      + (if i.dataC < min2Byte then 1 else 2)
      + (i.hdr.length + i.data.length) := by
    rw [lenlen_add_one_eq hi.prev_lt, hdrlen_eq hi.hdrC_lt, hdrlen_eq henc, hdrlen_eq hdata,
      redundantBody_length, length_append]
    omega
  exact m.close_extended b (redundantBody i (encHdrFields i)) _ hlen.symm

lemma ApplyEnv.applyExtended_redundantBody (hb : PageWrite.IndexOrUndoPage b) (hi : InsertBounds i)
    (henc : enc < min3Byte) (hdata : i.dataC < min3Byte) (st : ApplyState) (rest : List UInt8) :
    env.applyExtended b st (redundantBody i enc ++ rest) (redundantBody i enc).length =
      env.pageOp st (env.ops.pageApplyInsertRedundant b i.reuse i.prevRec enc i.hdrC i.dataC
        (i.hdr ++ i.data) st.frame) := by
  have h3 := min3Byte_eq
  have h4 := min4Byte_eq
  have hhdr := hi.hdrC_lt
  have he0 := varintSize_pos enc
  have hh0 := varintSize_pos i.hdrC
  have hd0 := varintSize_pos i.dataC
  rw [redundantBody_length, redundantBody]
  simp only [cons_append, append_assoc]
  rw [env.applyExtended_insert hb st false i.reuse hi.prev_lt (by omega), if_neg (by decide),
    ← append_assoc i.hdr]
  unfold applyInsertRedundant
  rw [decodeField_encode (by omega) (hdrlen_le henc) (by omega)]
  simp only
  rw [decodeField_encode (by omega) (hdrlen_le hhdr) (by omega)]
  simp only
  rw [decodeField_encode (by omega) (hdrlen_le hdata) (by omega)]
  simp only
  rw [take_left]

def Mtr.pageInsert (m : Mtr) (comp : Bool) (b : Block) (i : InsertLog) : Mtr :=
  if comp then m.pageInsertDynamic b i else m.pageInsertRedundant b i

end MariaDB.Redo
