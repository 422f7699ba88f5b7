import MariaDB.Binlog.ComprInt

/-!
# XA records of the binlog

An XA PREPARE record holds the XID and the position of the out-of-band data of the
transaction; an XA COMMIT or XA ROLLBACK record holds the XID alone. Recovery parses both
kinds and keeps the last one of each XID. The parser looks for the branch qualifier of an
XID at its own length behind the start of the strings instead of at the length of the
global transaction identifier.
-/
namespace MariaDB.Binlog

open Library (Frame toLE ofLE)
open List

/-! ## The records -/

/-- `xid_t`. The two strings are adjacent in `data`. -/
structure Xid where
  formatID : UInt32
  gtrid : List UInt8
  bqual : List UInt8
  gtrid_le : gtrid.length ≤ 64
  bqual_le : bqual.length ≤ 64
  deriving DecidableEq

namespace Xid

def data (xid : Xid) : List UInt8 := xid.gtrid ++ xid.bqual

/-- `key()`: the lengths and the strings, without the format. -/
def key (xid : Xid) : Nat × Nat × List UInt8 := (xid.gtrid.length, xid.bqual.length, xid.data)

/-- The format, the lengths and the strings, as both kinds of record store them. -/
def stored (xid : Xid) : List UInt8 :=
  toLE 4 xid.formatID.toNat ++ [UInt8.ofNat xid.gtrid.length, UInt8.ofNat xid.bqual.length] ++
    xid.data

end Xid

structure NodeInfo where
  fileNo : UInt64
  offset : UInt64
  nodeIndex : UInt64
  height : UInt32
  deriving DecidableEq

/-- What an XA PREPARE record needs of `binlog_oob_context`. `nodeList` is the memory from
the flexible array on; the list has `nodeListLen` entries. -/
structure OobContext where
  firstNodeFileNo : UInt64
  firstNodeOffset : UInt64
  nodeListLen : UInt32
  nodeList : Nat → NodeInfo

structure OobPosition where
  numOobNodes : UInt64
  firstOobFileNo : UInt64
  firstOobOffset : UInt64
  lastOobFileNo : UInt64
  lastOobOffset : UInt64
  deriving DecidableEq

/-- The numbers that `chunk_data_xa_prepare` stores. The index of the last node wraps
around when there is none. -/
def OobContext.position (c : OobContext) : OobPosition :=
  let last := c.nodeList (c.nodeListLen - 1).toNat
  ⟨last.nodeIndex + 1, c.firstNodeFileNo, c.firstNodeOffset, last.fileNo, last.offset⟩

def OobPosition.stored (p : OobPosition) : List UInt8 :=
  comprIntWrite p.numOobNodes.toNat ++ (comprIntWrite p.firstOobFileNo.toNat ++
    (comprIntWrite p.firstOobOffset.toNat ++ (comprIntWrite p.lastOobFileNo.toNat ++
      comprIntWrite p.lastOobOffset.toNat)))

def chunkDataXaPrepare (xid : Xid) (engineCount : UInt8) (c : OobContext) : List UInt8 :=
  engineCount :: (xid.stored ++ c.position.stored)

def ibbFlXaTypeCommit : UInt8 := 0
def ibbFlXaTypeRollback : UInt8 := 1
def ibbFlXaTypeMask : UInt8 := 1

def chunkDataXaComplete (xid : Xid) (isCommit : Bool) : List UInt8 :=
  (if isCommit then ibbFlXaTypeCommit else ibbFlXaTypeRollback) :: xid.stored

/-! ## Recovery -/

inductive XidState
  | prepare
  | commit
  | rollback
  deriving DecidableEq

/-- `ibb_binlog_xid_info`. The engine count and the position are those of a prepare. -/
structure XidInfo where
  state : XidState
  recFileNo : Nat
  xid : Xid
  engineCount : UInt8
  position : OobPosition
  deriving DecidableEq

inductive RecordError
  | invalidXidLengths (kind : XidState) (fileNo gtridLength bqualLength : Nat)
  | short (fileNo dataLen expected : Nat)
  deriving DecidableEq

/-- `xid_t::set()` from memory: the two strings and their lengths. -/
def Xid.set (formatID : UInt32) (m : Frame) (g gl b bl : Nat) (hg : gl ≤ 64) (hb : bl ≤ 64) :
    Xid :=
  ⟨formatID, m.slice g gl, m.slice b bl, by simpa using hg, by simpa using hb⟩

/-- The XID at offset `p` and the offset after it. The branch qualifier is read
`bqual_length` bytes behind the start of the strings. -/
def recvXid (m : Frame) (p : Nat) : Except (Nat × Nat) (Xid × Nat) :=
  let formatID := UInt32.ofNat (ofLE (m.slice p 4))
  let gtridLength := (m (p + 4)).toNat
  let bqualLength := (m (p + 5)).toNat
  let xidData := p + 6
  if h : gtridLength ≤ 64 ∧ bqualLength ≤ 64 then
    .ok (.set formatID m xidData gtridLength (xidData + bqualLength) bqualLength h.1 h.2,
      xidData + (gtridLength + bqualLength))
  else .error (gtridLength, bqualLength)

def recvPosition (m : Frame) (p : Nat) : OobPosition × Nat :=
  let (numOobNodes, p) := comprIntRead m p
  let (firstOobFileNo, p) := comprIntRead m p
  let (firstOobOffset, p) := comprIntRead m p
  let (lastOobFileNo, p) := comprIntRead m p
  let (lastOobOffset, p) := comprIntRead m p
  (⟨.ofNat numOobNodes, .ofNat firstOobFileNo, .ofNat firstOobOffset, .ofNat lastOobFileNo,
    .ofNat lastOobOffset⟩, p)

abbrev XidHash := List XidInfo

/-- `ibb_recv_record_update()`: a newer record of an XID replaces the older one. -/
def ibbRecvRecordUpdate (hash : XidHash) (info : XidInfo) : XidHash :=
  info :: hash.filter fun i => i.xid.key ≠ info.xid.key

/-- The record that `ibb_recv_record_prepare()` finds in memory. -/
def parsePrepare (fileNo : Nat) (m : Frame) (dataLen : Nat) : Except RecordError XidInfo :=
  match recvXid m 1 with
  | .error (g, b) => .error (.invalidXidLengths .prepare fileNo g b)
  | .ok (xid, p) =>
    let (position, p) := recvPosition m p
    if p > dataLen then .error (.short fileNo dataLen p)
    else .ok ⟨.prepare, fileNo, xid, m 0, position⟩

/-- The record that `ibb_recv_record_complete()` finds in memory. -/
def parseComplete (fileNo : Nat) (m : Frame) (dataLen : Nat) : Except RecordError XidInfo :=
  let state : XidState := if m 0 &&& ibbFlXaTypeMask = ibbFlXaTypeCommit then .commit else .rollback
  match recvXid m 1 with
  | .error (g, b) => .error (.invalidXidLengths state fileNo g b)
  | .ok (xid, p) =>
    if p > dataLen then .error (.short fileNo dataLen p)
    else .ok ⟨state, fileNo, xid, 0, ⟨0, 0, 0, 0, 0⟩⟩

def ibbRecvRecordPrepare (hash : XidHash) (fileNo : Nat) (m : Frame) (dataLen : Nat) :
    Except RecordError XidHash :=
  (parsePrepare fileNo m dataLen).map (ibbRecvRecordUpdate hash)

def ibbRecvRecordComplete (hash : XidHash) (fileNo : Nat) (m : Frame) (dataLen : Nat) :
    Except RecordError XidHash :=
  (parseComplete fileNo m dataLen).map (ibbRecvRecordUpdate hash)

/-! ## Parsing what was written -/

section

variable {m : Frame} {p : Nat}

def Holds (m : Frame) (p : Nat) (bytes : List UInt8) : Prop := m.slice p bytes.length = bytes

lemma holds_append : Holds m p (xs ++ ys) ↔ Holds m p xs ∧ Holds m (p + xs.length) ys := by
  unfold Holds
  rw [length_append, Frame.slice_add]
  constructor
  · intro h
    exact append_inj h (by simp)
  · rintro ⟨hx, hy⟩
    rw [hx, hy]

lemma holds_singleton : Holds m p [x] ↔ m p = x := by
  simp [Holds, Frame.slice]

lemma holds_cons : Holds m p (x :: xs) ↔ m p = x ∧ Holds m (p + 1) xs := by
  rw [← singleton_append, holds_append, holds_singleton]
  rfl

lemma holds_memcpy (m : Frame) (bytes : List UInt8) : Holds (m.memcpy 0 bytes) 0 bytes :=
  m.slice_memcpy_zero rfl

lemma comprIntRead_holds {v : UInt64} (h : Holds m p (comprIntWrite v.toNat)) :
    comprIntRead m p = (v.toNat, p + comprIntBytes v.toNat) := by
  unfold Holds at h
  rw [length_comprIntWrite] at h
  exact comprIntRead_write v.toNat_lt h

/-- The five numbers are read back. -/
lemma recvPosition_holds {pos : OobPosition} (h : Holds m p pos.stored) :
    recvPosition m p = (pos, p + pos.stored.length) := by
  simp only [OobPosition.stored, holds_append, length_comprIntWrite] at h
  obtain ⟨h1, h2, h3, h4, h5⟩ := h
  unfold recvPosition
  simp only [comprIntRead_holds h1, comprIntRead_holds h2, comprIntRead_holds h3,
    comprIntRead_holds h4, comprIntRead_holds h5, UInt64.ofNat_toNat, OobPosition.stored,
    length_append, length_comprIntWrite, Prod.mk.injEq, true_and]
  omega

namespace Xid

lemma length_stored (xid : Xid) :
    xid.stored.length = 6 + (xid.gtrid.length + xid.bqual.length) := by
  simp only [stored, data, length_append, Library.length_toLE, length_cons, length_nil]

lemma recvXid_holds {xid : Xid} (h : Holds m p xid.stored) :
    ∃ xid', recvXid m p = .ok (xid', p + xid.stored.length) ∧ xid'.formatID = xid.formatID ∧
      xid'.gtrid = xid.gtrid ∧
      xid'.bqual = m.slice (p + 6 + xid.bqual.length) xid.bqual.length := by
  have hg := xid.gtrid_le
  have hb := xid.bqual_le
  rw [length_stored]
  simp only [stored, data, holds_append, holds_cons, length_append, Library.length_toLE,
    length_cons, length_nil] at h
  obtain ⟨⟨hformat, hgl, hbl, -⟩, hdata, -⟩ := h
  have hgl : (m (p + 4)).toNat = xid.gtrid.length := by
    rw [hgl, UInt8.toNat_ofNat']
    omega
  have hbl : (m (p + 5)).toNat = xid.bqual.length := by
    rw [hbl, UInt8.toNat_ofNat']
    omega
  have hformat : ofLE (m.slice p 4) = xid.formatID.toNat := by
    unfold Holds at hformat
    rw [Library.length_toLE] at hformat
    rw [hformat, Library.ofLE_toLE_of_lt xid.formatID.toNat_lt]
  have hdata : m.slice (p + 6) xid.gtrid.length = xid.gtrid := hdata
  unfold recvXid
  simp only [hgl, hbl, hformat]
  rw [dif_pos ⟨hg, hb⟩]
  refine ⟨_, congrArg _ (Prod.ext rfl ?_), UInt32.ofNat_toNat, hdata, rfl⟩
  omega

lemma slice_bqual {xid : Xid} (h : Holds m p xid.stored)
    (heq : xid.gtrid.length = xid.bqual.length ∨ xid.bqual.length = 0) :
    m.slice (p + 6 + xid.bqual.length) xid.bqual.length = xid.bqual := by
  rcases heq with heq | hzero
  · simp only [stored, data, holds_append, length_append, Library.length_toLE,
      length_cons, length_nil] at h
    rw [← heq]
    exact heq ▸ h.2.2
  · rw [hzero, length_eq_zero_iff.mp hzero]
    rfl

lemma recvXid_eq (h : Holds m p xid.stored)
    (heq : xid.gtrid.length = xid.bqual.length ∨ xid.bqual.length = 0) :
    recvXid m p = .ok (xid, p + xid.stored.length) := by
  obtain ⟨xid', hrecv, hformat, hgtrid, hbqual⟩ := recvXid_holds h
  rw [slice_bqual h heq] at hbqual
  obtain ⟨format, gtrid, bqual, hg, hb⟩ := xid
  obtain ⟨format', gtrid', bqual', hg', hb'⟩ := xid'
  subst hformat hgtrid hbqual
  exact hrecv

end Xid

end

/-! ## The round trip -/

/-- A parsed position is that of the context. Without nodes there is no first and last
node, and a count of 0 says so. -/
def OobContext.Describes (c : OobContext) (position : OobPosition) : Prop :=
  if c.nodeListLen = 0 then position.numOobNodes = 0 else position = c.position

/-- Both kinds of record of an XID are parsed to what was written, whatever the memory
behind them holds, so that the completion replaces the prepare. -/
structure RoundTrips (xid : Xid) (engineCount : UInt8) (c : OobContext) (isCommit : Bool) :
    Prop where
  prepare : ∀ (fileNo : Nat) (after : Frame) (hash : XidHash), ∃ position, c.Describes position ∧
    ibbRecvRecordPrepare hash fileNo (after.memcpy 0 (chunkDataXaPrepare xid engineCount c))
        (chunkDataXaPrepare xid engineCount c).length =
      .ok (ibbRecvRecordUpdate hash ⟨.prepare, fileNo, xid, engineCount, position⟩)
  complete : ∀ (fileNo : Nat) (after : Frame) (hash : XidHash),
    ibbRecvRecordComplete hash fileNo (after.memcpy 0 (chunkDataXaComplete xid isCommit))
        (chunkDataXaComplete xid isCommit).length =
      .ok (ibbRecvRecordUpdate hash
        ⟨if isCommit then .commit else .rollback, fileNo, xid, 0, ⟨0, 0, 0, 0, 0⟩⟩)

section

variable {xid : Xid}

section

variable (heq : xid.gtrid.length = xid.bqual.length ∨ xid.bqual.length = 0)
include heq

lemma parsePrepare_eq (engineCount : UInt8) (c : OobContext) (fileNo : Nat) (after : Frame) :
    parsePrepare fileNo (after.memcpy 0 (chunkDataXaPrepare xid engineCount c))
        (chunkDataXaPrepare xid engineCount c).length =
      .ok ⟨.prepare, fileNo, xid, engineCount, c.position⟩ := by
  have hholds := holds_memcpy after (chunkDataXaPrepare xid engineCount c)
  generalize after.memcpy 0 (chunkDataXaPrepare xid engineCount c) = m at *
  rw [chunkDataXaPrepare, holds_cons, holds_append] at hholds
  obtain ⟨hcount, hxid, hposition⟩ := hholds
  unfold parsePrepare
  rw [Xid.recvXid_eq hxid heq]
  dsimp only
  rw [zero_add, recvPosition_holds hposition]
  rw [if_neg (by simp [chunkDataXaPrepare]; omega), hcount]

lemma parseComplete_eq (isCommit : Bool) (fileNo : Nat) (after : Frame) :
    parseComplete fileNo (after.memcpy 0 (chunkDataXaComplete xid isCommit))
        (chunkDataXaComplete xid isCommit).length =
      .ok ⟨if isCommit then .commit else .rollback, fileNo, xid, 0, ⟨0, 0, 0, 0, 0⟩⟩ := by
  have hholds := holds_memcpy after (chunkDataXaComplete xid isCommit)
  generalize after.memcpy 0 (chunkDataXaComplete xid isCommit) = m at *
  rw [chunkDataXaComplete, holds_cons] at hholds
  obtain ⟨htype, hxid⟩ := hholds
  unfold parseComplete
  rw [Xid.recvXid_eq hxid heq, htype]
  dsimp only
  rw [if_neg (by simp [chunkDataXaComplete]; omega)]
  cases isCommit <;> rfl

/-- An XID with an empty branch qualifier or with strings of one length, and a transaction
with out-of-band data. -/
lemma roundTrips_of_lengths (hn : c.nodeListLen ≠ 0) (engineCount : UInt8) (isCommit : Bool) :
    RoundTrips xid engineCount c isCommit := by
  constructor
  · intro fileNo after hash
    refine ⟨c.position, ?_, ?_⟩
    · rw [OobContext.Describes, if_neg hn]
    · rw [ibbRecvRecordPrepare, parsePrepare_eq heq]
      rfl
  · intro fileNo after hash
    rw [ibbRecvRecordComplete, parseComplete_eq heq]
    rfl

end

/-- The parsed branch qualifier starts with the byte that is its length behind the start of
the strings. -/
lemma RoundTrips.byte_eq (h : RoundTrips xid engineCount c isCommit) (hx : xid.bqual = x :: xs)
    (after : Frame) :
    after.memcpy 0 (chunkDataXaComplete xid isCommit) (7 + xid.bqual.length) = x := by
  have hcomplete := h.complete 0 after []
  have hholds := holds_memcpy after (chunkDataXaComplete xid isCommit)
  generalize after.memcpy 0 (chunkDataXaComplete xid isCommit) = m at *
  rw [chunkDataXaComplete, holds_cons] at hholds
  obtain ⟨xid', hrecv, -, -, hbqual⟩ := Xid.recvXid_holds hholds.2
  unfold ibbRecvRecordComplete parseComplete at hcomplete
  rw [zero_add] at hrecv
  rw [hrecv] at hcomplete
  dsimp only at hcomplete
  rw [if_neg (by simp [chunkDataXaComplete]; omega)] at hcomplete
  simp only [Except.map, ibbRecvRecordUpdate, Except.ok.injEq, cons.injEq,
    XidInfo.mk.injEq] at hcomplete
  obtain ⟨-, -, rfl, -⟩ := hcomplete.1
  have hget := congrArg (fun l => l.getD 0 0) hbqual
  rw [Frame.slice_getD _ _ (by rw [hx]; simp), hx] at hget
  rw [hx]
  exact hget.symm

end

/-- An XID whose strings are all zero, but for the first byte of the branch qualifier. -/
def markedXid (g b : Nat) (hg : g ≤ 64) (hb : b + 1 ≤ 64) : Xid :=
  ⟨0, List.replicate g 0, 1 :: List.replicate b 0, by simpa using hg, by simpa using hb⟩

lemma length_marked (h : RoundTrips (markedXid g b hg hb) engineCount c isCommit) : g = b + 1 := by
  have hbqual : (markedXid g b hg hb).bqual = 1 :: replicate b 0 := rfl
  have hbyte := h.byte_eq hbqual Frame.zeros
  have hlen : (markedXid g b hg hb).bqual.length = b + 1 := by simp [markedXid]
  -- seven bytes precede the strings
  obtain ⟨pre, hpre, hrec⟩ : ∃ pre : List UInt8, pre.length = 7 ∧
      chunkDataXaComplete (markedXid g b hg hb) isCommit =
        pre ++ (replicate g 0 ++ 1 :: replicate b 0) := by
    refine ⟨(if isCommit then ibbFlXaTypeCommit else ibbFlXaTypeRollback) ::
      (toLE 4 0 ++ [UInt8.ofNat g, UInt8.ofNat (b + 1)]), by simp, ?_⟩
    simp [chunkDataXaComplete, Xid.stored, Xid.data, markedXid]
  rw [hlen, hrec] at hbyte
  by_contra hne
  have hzero : (replicate g (0 : UInt8) ++ 1 :: replicate b 0).getD (b + 1) 0 = 0 := by
    rcases Nat.lt_or_gt_of_ne hne with hlt | hlt
    · obtain ⟨k, hk⟩ := Nat.exists_eq_add_of_lt hlt
      rw [getD_append_right _ _ _ _ (by simp; omega), length_replicate,
        show b + 1 - g = k + 1 by omega, getD_cons_succ]
      simp [getD, getElem?_replicate]
      split <;> rfl
    · rw [getD_append _ _ _ _ (by simp; omega)]
      simp [getD, hlt]
  by_cases hin : 7 + (b + 1) < (pre ++ (replicate g 0 ++ 1 :: replicate b 0)).length
  · rw [Frame.memcpy_of_mem _ _ (by omega) (by omega), Nat.sub_zero,
      getD_append_right _ _ _ _ (by omega), hpre, Nat.add_sub_cancel_left, hzero] at hbyte
    exact absurd hbyte (by decide)
  · rw [Frame.memcpy_of_not_mem _ _ (.inr (by omega))] at hbyte
    have hbyte : (0 : UInt8) = 1 := hbyte
    exact absurd hbyte (by decide)

/-- The XIDs with strings of given lengths and the transactions with a given number of
trees of out-of-band data survive if and only if the branch qualifier is empty or as long
as the global transaction identifier, and there is out-of-band data. -/
theorem roundTrips_iff {g b : Nat} (hg : g ≤ 64) (hb : b ≤ 64) (n : UInt32) :
    (∀ (xid : Xid) (engineCount : UInt8) (c : OobContext) (isCommit : Bool),
      xid.gtrid.length = g → xid.bqual.length = b → c.nodeListLen = n →
      RoundTrips xid engineCount c isCommit) ↔ (g = b ∨ b = 0) ∧ n ≠ 0 := by
  constructor
  · intro h
    have hlengths : g = b ∨ b = 0 := by
      cases b with
      | zero => exact .inr rfl
      | succ b =>
        exact .inl (length_marked (h (markedXid g b hg hb) 0 ⟨0, 0, n, fun _ => ⟨0, 0, 0, 0⟩⟩ true
          (by simp [markedXid]) (by simp [markedXid]) rfl))
    refine ⟨hlengths, ?_⟩
    rintro rfl
    -- the memory in place of a node says that there is one
    let xid : Xid := ⟨0, replicate g 0, replicate b 0, by simpa using hg, by simpa using hb⟩
    have hlen : xid.gtrid.length = xid.bqual.length ∨ xid.bqual.length = 0 := by
      simpa [xid] using hlengths
    obtain ⟨position, hdescribes, hprepare⟩ := (h xid 0 ⟨0, 0, 0, fun _ => ⟨0, 0, 0, 0⟩⟩ true
      (by simp [xid]) (by simp [xid]) rfl).prepare 0 Frame.zeros []
    rw [ibbRecvRecordPrepare, parsePrepare_eq hlen] at hprepare
    simp only [Except.map, ibbRecvRecordUpdate, Except.ok.injEq, cons.injEq,
      XidInfo.mk.injEq] at hprepare
    obtain ⟨-, -, -, -, rfl⟩ := hprepare.1
    rw [OobContext.Describes, if_pos rfl] at hdescribes
    exact absurd hdescribes (by decide)
  · rintro ⟨hlengths, hn⟩ xid engineCount c isCommit rfl rfl rfl
    exact roundTrips_of_lengths hlengths hn engineCount isCommit

/-- XIDs of two strings of eight bytes. -/
theorem roundTrips_iff_eight :
    RoundTrips ⟨1, List.replicate 8 97, List.replicate 8 98, by decide, by decide⟩ 1
      ⟨0, 4096, 1, fun _ => ⟨0, 4096, 0, 1⟩⟩ true :=
  (roundTrips_iff (g := 8) (b := 8) (by decide) (by decide) 1).mpr ⟨.inl rfl, by decide⟩
    _ _ _ _ rfl rfl rfl

/-- The branch qualifier `bc` after the identifier `a` is read as `c` and the byte behind
the record. -/
theorem not_roundTrips : ∃ c : OobContext, c.nodeListLen = 1 ∧
    ¬ RoundTrips ⟨0, [97], [98, 99], by decide, by decide⟩ 1 c true := by
  refine ⟨⟨0, 0, 1, fun _ => ⟨0, 4096, 0, 1⟩⟩, rfl, fun h => ?_⟩
  exact absurd (h.byte_eq rfl Frame.zeros) (by decide)

end MariaDB.Binlog
