import MariaDB.Redo.Layout

/-!
# The length of a record

The writer chooses between a length in the first byte of a record and one that counts its own
bytes. Recovery decodes it twice: `log_parse_start()` to find the end of the mini-transaction,
and `mtr_t::parse_length()` to parse the record.
-/
namespace MariaDB.Redo

open List

/-- `recv_sys_t::MTR_SIZE_MAX`. -/
def mtrSizeMax : Nat := 1 <<< 20

/-- What `log_parse_start()` adds to the position behind the first byte `b` of a record. -/
def logRecordLength (b : UInt8) (l : List UInt8) : Except ParseMtrResult Nat :=
  if b.toNat % 16 ≠ 0 then .ok (b.toNat % 16)
  else if l = [] then .error .prematureEof
  else if l.length ≤ mlogDecodeVarintLength (l.getD 0 0) then .error .prematureEof
  else if mlogDecodeVarint l ≥ mtrSizeMax then .error .gotEof
  else .ok (mlogDecodeVarint l + 15)

/-- The loop of `log_parse_start()`: what begins with the byte that ends the records. -/
def logParseLoop (totalLen : Nat) (l : List UInt8) : Except ParseMtrResult (List UInt8) :=
  match l with
  | [] => .error .prematureEof
  | b :: l =>
    if totalLen ≥ mtrSizeMax then .error .gotEof
    else if b.toNat ≤ 1 then .ok (b :: l)
    else match logRecordLength b l with
      | .error e => .error e
      | .ok rlen => logParseLoop (totalLen + rlen) (l.drop rlen)
termination_by l.length

/-- `log_parse_start()`, up to the checks of the end of the mini-transaction. -/
def logParseStart (l : List UInt8) : Except ParseMtrResult (List UInt8) :=
  match l with
  | [] => .error .prematureEof
  | b :: l => if b.toNat ≤ 1 then .error .gotEof else logParseLoop 0 (b :: l)

namespace Mtr

/-- What a call of `log_write()` has to be: a record that is not for the previous page has its
identifier, and one for the previous page an offset or a payload. -/
structure LegalWrite (m : Mtr) (type : MrecType) (bpage : Option PageId) (payload : List UInt8) :
    Prop where
  type_ne : type ≠ .reserved
  payload_nil : type.haveLen = false → payload = []
  nonempty : bpage.isSome → m.last = bpage → type.haveLen → ¬ type.haveOffset → payload ≠ []
  size : payload.length + 32 ≤ mtrSizeMax

variable {m : Mtr} {type : MrecType} {bpage : Option PageId} {payload : List UInt8}

lemma logWrite_eq_mkRecord (id : PageId) (offset : Nat)
    (h : m.LegalWrite type bpage payload) : ∃ samePage tail,
    (m.logWrite type id bpage payload.length offset).1 ++ payload =
        mkRecord type samePage (tail ++ payload) ∧
      tail.length ≤ 15 ∧ 0 < tail.length + payload.length ∧
      (type = .freePage → 2 ≤ tail.length) := by
  have h1 := varintSize_le id.space
  have h2 := varintSize_le id.pageNo
  have h1' := varintSize_pos id.space
  have h2' := varintSize_pos id.pageNo
  have h3 := fun n => varintSize_le n
  have h3' := fun n => varintSize_pos n
  have hlen : payload ≠ [] → 0 < payload.length := length_pos_of_ne_nil
  unfold logWrite
  cases ho : type.haveOffset with
  | true =>
    have hl : type.haveLen = true := by revert ho; cases type <;> decide
    have hne : type ≠ .freePage := by rintro rfl; cases ho
    simp only [hl, Bool.not_true, Bool.false_eq_true, if_false, if_true]
    refine ⟨_, _, recordHeader_eq rfl ?_, ?_, ?_, fun hf => absurd hf hne⟩
    · simp only [decide_eq_decide]
      omega
    · split_ifs <;> simp <;> grind
    · split_ifs <;> simp <;> grind
  | false =>
    have hnil := h.payload_nil
    have hnonempty := h.nonempty
    simp only [Bool.not_false, Bool.false_eq_true, if_false, if_true]
    refine ⟨_, _, recordHeader_eq rfl ?_, ?_, ?_, ?_⟩
    · simp only [decide_eq_decide]
      split_ifs <;> simp <;> grind
    · split_ifs <;> simp <;> grind
    · split_ifs <;> simp <;> grind
    · rintro rfl
      simp [MrecType.haveLen]
      grind

end Mtr

/-- The writer counts the bytes of the length itself, and so does the reader. -/
lemma logRecordLength_mkRecord (type : MrecType) (samePage : Bool) {payload : List UInt8}
    (hpos : 0 < payload.length) (hmax : payload.length + 17 ≤ mtrSizeMax) (rest : List UInt8) :
    let n := if payload.length < 16 then payload.length else 0
    logRecordLength (firstByte type samePage n) (lengthBytes payload.length ++ payload ++ rest) =
      .ok (lengthBytes payload.length ++ payload).length := by
  have hmax' : mtrSizeMax = 2 ^ 20 := rfl
  have hn : (if payload.length < 16 then payload.length else 0) < 16 := by split_ifs <;> omega
  have hmod := (firstByte_fields type samePage hn).2.2.1
  dsimp only
  unfold logRecordLength
  rw [hmod]
  by_cases hshort : payload.length < 16
  · rw [if_pos hshort, if_pos (by omega), lengthBytes, if_pos hshort, nil_append]
  · -- the stored length is the one beyond 15
    have hsize := extraLength_size (n := payload.length) (by omega) (by omega)
    have hadd : extraLength (payload.length - 14) < 2 ^ 20 := by
      unfold extraLength
      split_ifs <;> omega
    have hpos' := varintSize_pos (extraLength (payload.length - 14))
    rw [if_neg hshort, if_neg (by simp), lengthBytes, if_neg hshort, append_assoc,
      decodeVarintLength_encode, decodeVarint_encode (by omega)]
    rw [if_neg, if_neg, if_neg (by omega), length_append, mlogEncodeVarint_length]
    · congr 1
      omega
    · simp only [length_append, mlogEncodeVarint_length]
      omega
    · exact fun hnil => absurd (congrArg length hnil) (by simp; omega)

lemma logParseLoop_cons {b : UInt8} (hb : 1 < b.toNat)
    (hrec : logRecordLength b (l ++ rest) = .ok l.length) (htotal : totalLen < mtrSizeMax) :
    logParseLoop totalLen (b :: (l ++ rest)) = logParseLoop (totalLen + l.length) rest := by
  rw [logParseLoop, if_neg (by omega), if_neg (by omega), hrec]
  simp

/-- Both decoders of the length of a record find the end of the payload that the writer was
called for. -/
theorem Mtr.logWrite_parsed_length {m : Mtr} {type : MrecType} {bpage : Option PageId}
    {payload : List UInt8} (h : m.LegalWrite type bpage payload) (id : PageId) (offset : Nat) :
    ∃ b l, (m.logWrite type id bpage payload.length offset).1 ++ payload = b :: l ∧
      1 < b.toNat ∧ recType b = type ∧ ∀ rest, logRecordLength b (l ++ rest) = .ok l.length ∧
        logParseStart (b :: (l ++ rest)) = logParseLoop l.length rest ∧
        (∀ totalLen < mtrSizeMax, logParseLoop totalLen (b :: (l ++ rest)) =
          logParseLoop (totalLen + l.length) rest) ∧
        ∃ tail, parseLength (b :: (l ++ rest)) =
          (tail ++ payload ++ rest, (tail ++ payload).length) := by
  obtain ⟨samePage, tail, heq, htail, hpos, hfree⟩ := logWrite_eq_mkRecord id offset h
  have hsize := h.size
  have hmax' : mtrSizeMax = 2 ^ 20 := rfl
  have hlen : 0 < (tail ++ payload).length := by simpa using hpos
  have hmax : (tail ++ payload).length + 17 ≤ mtrSizeMax := by
    rw [length_append]
    omega
  have hn : (if (tail ++ payload).length < 16 then (tail ++ payload).length else 0) < 16 := by
    split_ifs <;> omega
  obtain ⟨ht, -, hmod, hgt⟩ := firstByte_fields type samePage hn
  have hb : 1 < (firstByte type samePage
      (if (tail ++ payload).length < 16 then (tail ++ payload).length else 0)).toNat := by
    by_cases htype : type = .freePage
    · have hnil := h.payload_nil (by rw [htype]; rfl)
      have := hfree htype
      rw [hnil, append_nil] at hmod ⊢
      split_ifs at hmod ⊢ <;> omega
    · exact hgt htype
  refine ⟨_, _, heq, hb, ht, fun rest => ?_⟩
  have hrec := logRecordLength_mkRecord type samePage hlen hmax rest
  refine ⟨hrec, ?_, fun _ => logParseLoop_cons hb hrec, tail,
    parseLength_mkRecord type samePage hlen (by omega) rest⟩
  rw [logParseStart, if_neg (by omega), logParseLoop_cons hb hrec (by omega), zero_add]

/-- A record whose length takes a byte more because of the byte that it takes itself. -/
theorem Mtr.logWrite_parsed_length_of_memcpy : ∃ b l,
    (Mtr.start.logWrite .write ⟨5, 7⟩ (some ⟨5, 7⟩)
      (List.replicate 139 (1 : UInt8)).length 64).1 ++ List.replicate 139 1 = b :: l ∧
      logRecordLength b l = .ok l.length := by
  have h : Mtr.start.LegalWrite .write (some ⟨5, 7⟩) (replicate 139 1) :=
    ⟨by decide, by simp [MrecType.haveLen], by simp, by simp [mtrSizeMax]⟩
  obtain ⟨b, l, heq, -, -, hl⟩ := Mtr.logWrite_parsed_length h ⟨5, 7⟩ 64
  have := (hl []).1
  rw [append_nil] at this
  exact ⟨b, l, heq, this⟩

end MariaDB.Redo
