import MariaDB.Binlog.OobTree
import MariaDB.Binlog.XaRecord

/-!
# Reading out-of-band data

`innodb_binlog_oob_reader` traverses the forest of a transaction in post-order, from the
root of the last tree. It keeps a stack of nodes. A leaf whose way from the last root goes
through left children only leads on to the prior tree.

The reader below it returns the data of one record after the other. The division of a record
into chunks is left open: `chunk` is the number of bytes up to the end of the chunk.
-/
namespace MariaDB.Binlog

open Library List

/-- `5 * COMPR_INT_MAX64`. -/
def oobRdBufSize : Nat := 45

inductive OobError
  | io
  | wrongChunkType
  | unexpectedEof
  | shortChunk
  deriving DecidableEq, Repr

/-- `binlog_chunk_reader`: the record that is being read, and how much of it was read. -/
structure ChunkReader where
  pos : BinlogPos
  sofar : Nat
  deriving DecidableEq

structure BinlogEnv where
  store : BinlogStore
  chunk : BinlogPos → Nat → Nat
  chunk_pos : ∀ pos sofar, 0 < chunk pos sofar

namespace ChunkReader

def seek (pos : BinlogPos) : ChunkReader := ⟨pos, 0⟩

variable (env : BinlogEnv) (rd : ChunkReader)

/-- `read_data()`: read from the record, up to the end of the chunk unless `multipage`. -/
def readData (maxLen : Nat) (multipage : Bool) : Except OobError (ChunkReader × List UInt8) :=
  match env.store rd.pos with
  | none => .error .io
  | some record =>
    let n := if multipage then maxLen else min maxLen (env.chunk rd.pos rd.sofar)
    let data := (record.payload.drop rd.sofar).take n
    .ok (⟨rd.pos, rd.sofar + data.length⟩, data)

def curType : Option ChunkType := (env.store rd.pos).map BinlogRecord.type

def endOfRecord : Bool :=
  match env.store rd.pos with
  | none => true
  | some record => record.payload.length ≤ rd.sofar

end ChunkReader

inductive OobReadState
  | initial
  | traversingPriorTrees
  | traversingLeftChild
  | traversingRightChild
  | self
  deriving DecidableEq, Repr

structure StackEntry where
  state : OobReadState
  pos : BinlogPos
  right : BinlogPos := (0, 0)
  savedPos : ChunkReader := ⟨(0, 0), 0⟩
  rdBuf : List UInt8 := []
  rdBufSofar : Nat := 0
  isLeftmost : Bool

/-- `innodb_binlog_oob_reader`, with the reader of records that it uses. The top of the
stack is first. -/
structure OobReader where
  stack : List StackEntry
  chunkRd : ChunkReader

def startTraversal (pos : BinlogPos) (rd : ChunkReader) : OobReader :=
  ⟨[{ state := .initial, pos := pos, isLeftmost := true }], rd⟩

def readNumber (buf : List UInt8) (p : Nat) : Except OobError (Nat × Nat) :=
  let r := comprIntRead (Frame.zeros.memcpy 0 buf) p
  if buf.length < r.2 then .error .shortChunk else .ok r

def readHeader (buf : List UInt8) : Except OobError (BinlogPos × BinlogPos × Nat) := do
  let (_, p) ← readNumber buf 0
  let (leftFileNo, p) ← readNumber buf p
  let (leftOffset, p) ← readNumber buf p
  let (rightFileNo, p) ← readNumber buf p
  let (rightOffset, p) ← readNumber buf p
  return ((leftFileNo, leftOffset), (rightFileNo, rightOffset), p)

namespace OobReader

variable (env : BinlogEnv)

/-- The case `ST_initial`. -/
def stepInitial (e : StackEntry) (rest : List StackEntry) : Except OobError OobReader := do
  let (rd, buf) ← (ChunkReader.seek e.pos).readData env oobRdBufSize true
  if rd.curType env ≠ some .oobData then throw .wrongChunkType
  if buf = [] then throw .unexpectedEof
  let (left, right, p) ← readHeader buf
  let e := { e with right := right, rdBuf := buf, rdBufSofar := p }
  if left = (0, 0) then
    if e.isLeftmost ∧ right ≠ (0, 0) then
      return ⟨{ state := .initial, pos := right, isLeftmost := true } ::
        { e with state := .traversingPriorTrees, savedPos := rd } :: rest, rd⟩
    else return ⟨{ e with state := .self } :: rest, rd⟩
  else
    return ⟨{ state := .initial, pos := left, isLeftmost := e.isLeftmost } ::
      { e with state := .traversingLeftChild, savedPos := rd } :: rest, rd⟩

/-- The case `ST_self`. -/
def stepSelf (len : Nat) (e : StackEntry) (rest : List StackEntry) (rd : ChunkReader) :
    Except OobError (OobReader × List UInt8) := do
  let excess := (e.rdBuf.drop e.rdBufSofar).take len
  let e := { e with rdBufSofar := e.rdBufSofar + excess.length }
  let len := len - excess.length
  let (rd, data) ← if 0 < len ∧ !rd.endOfRecord env then rd.readData env len false else .ok (rd, [])
  if rd.endOfRecord env then return (⟨rest, rd⟩, excess ++ data)
  else return (⟨e :: rest, rd⟩, excess ++ data)

/-- One round of `read_data()`, with what it returns. The rounds of the states other than
`ST_self` end with a jump to `again`, and read nothing. -/
def step (len : Nat) (r : OobReader) : Except OobError (OobReader × List UInt8) :=
  match r.stack with
  | [] => .ok (r, [])
  | e :: rest =>
    match e.state with
    | .initial => (stepInitial env e rest).map (·, [])
    | .traversingPriorTrees | .traversingRightChild =>
      .ok (⟨{ e with state := .self } :: rest, e.savedPos⟩, [])
    | .traversingLeftChild =>
      .ok (⟨{ state := .initial, pos := e.right, isLeftmost := false } ::
        { e with state := .traversingRightChild } :: rest, r.chunkRd⟩, [])
    | .self => stepSelf env len e rest r.chunkRd

/-- Read until `oob_traversal_done()`; `none` if that does not happen within the given number
of rounds, or if there is an error. -/
def readAll (len : Nat) : Nat → OobReader → Option (List UInt8)
  | 0, r => if r.stack.isEmpty then some [] else none
  | n + 1, r =>
    if r.stack.isEmpty then some [] else
      match r.step env len with
      | .error _ => none
      | .ok (r', data) => (readAll len n r').map (data ++ ·)

/-- The reader comes from one state to another and returns some data. -/
inductive Reads (len : Nat) : OobReader → List UInt8 → OobReader → Prop
  | refl (r : OobReader) : Reads len r [] r
  | step {r r' r'' : OobReader} {data data' : List UInt8} : r.stack ≠ [] →
      r.step env len = .ok (r', data) → Reads len r' data' r'' → Reads len r (data ++ data') r''

variable {env} {len : Nat}

variable {data : List UInt8} {left right pos : BinlogPos}

lemma Reads.trans (h : Reads env len r data r') (h' : Reads env len r' data' r'') :
    Reads env len r (data ++ data') r'' := by
  induction h with
  | refl r => exact h'
  | step hne hstep _ ih =>
    rw [append_assoc]
    exact .step hne hstep (ih h')

/-- A round that reads nothing. -/
lemma Reads.again {e : StackEntry} {rest : List StackEntry} {rd : ChunkReader}
    (hstep : OobReader.step env len ⟨e :: rest, rd⟩ = .ok (r, []))
    (h : Reads env len r data r') : Reads env len ⟨e :: rest, rd⟩ data r' :=
  .step (cons_ne_nil e rest) hstep h

lemma Reads.readAll (h : Reads env len r data r')
    (hdone : r'.stack = []) : ∃ n, r.readAll env len n = some data := by
  induction h with
  | refl r => exact ⟨0, by simp [OobReader.readAll, hdone]⟩
  | step hne hstep _ ih =>
    obtain ⟨n, hn⟩ := ih hdone
    refine ⟨n + 1, ?_⟩
    simp [OobReader.readAll, hne, hstep, hn]

/-! ## The header -/

lemma readNumber_holds (hv : v < 2 ^ 64) (h : Holds (Frame.zeros.memcpy 0 buf) p (comprIntWrite v))
    (hlen : p + comprIntBytes v ≤ buf.length) :
    readNumber buf p = .ok (v, p + comprIntBytes v) := by
  unfold Holds at h
  rw [length_comprIntWrite] at h
  unfold readNumber
  rw [comprIntRead_write hv h, if_neg (not_lt.mpr hlen)]

lemma isLink_lt (h : pos = (0, 0) ∨ OobTree.IsLink pos) : pos.1 < 2 ^ 64 ∧ pos.2 < 2 ^ 64 := by
  rcases h with rfl | h
  · decide
  · exact ⟨h.fileNo_lt, h.offset_lt⟩

section

variable (hl : left = (0, 0) ∨ OobTree.IsLink left) (hr : right = (0, 0) ∨ OobTree.IsLink right)
include hl hr

lemma length_oobHeader : 0 < (oobHeader idx left right).length ∧
    (oobHeader idx left right).length ≤ oobRdBufSize := by
  have hidx := comprIntLen_bounds (Nat.mod_lt idx (by decide : 0 < 2 ^ 64))
  have := comprIntLen_bounds (isLink_lt hl).1
  have := comprIntLen_bounds (isLink_lt hl).2
  have := comprIntLen_bounds (isLink_lt hr).1
  have := comprIntLen_bounds (isLink_lt hr).2
  simp only [oobHeader, length_append, length_comprIntWrite, oobRdBufSize]
  omega

lemma readHeader_append (tail : List UInt8) :
    readHeader (oobHeader idx left right ++ tail) =
      .ok (left, right, (oobHeader idx left right).length) := by
  have h := (holds_append.mp (holds_memcpy Frame.zeros (oobHeader idx left right ++ tail))).1
  have hlen : (oobHeader idx left right).length ≤ (oobHeader idx left right ++ tail).length := by
    simp
  generalize oobHeader idx left right ++ tail = buf at h hlen
  simp only [oobHeader, holds_append, length_comprIntWrite, zero_add] at h
  simp only [oobHeader, length_append, length_comprIntWrite] at hlen
  obtain ⟨h1, h2, h3, h4, h5⟩ := h
  have hidx := Nat.mod_lt idx (by decide : 0 < 2 ^ 64)
  unfold readHeader
  rw [readNumber_holds hidx h1 (by omega)]
  simp only [bind, Except.bind, zero_add]
  rw [readNumber_holds (isLink_lt hl).1 h2 (by omega)]
  dsimp only
  rw [readNumber_holds (isLink_lt hl).2 h3 (by omega)]
  dsimp only
  rw [readNumber_holds (isLink_lt hr).1 h4 (by omega)]
  dsimp only
  rw [readNumber_holds (isLink_lt hr).2 h5 (by omega)]
  simp only [pure, Except.pure, oobHeader, length_append, length_comprIntWrite]
  congr 3
  omega

/-! ## One record -/

def entryAfterHeader (state : OobReadState) (pos right : BinlogPos) (payload : List UInt8)
    (headerLen : Nat) (saved : ChunkReader) (isLeftmost : Bool) : StackEntry :=
  ⟨state, pos, right, saved, payload.take oobRdBufSize, headerLen, isLeftmost⟩

def afterHeader (pos : BinlogPos) (payload : List UInt8) : ChunkReader :=
  ⟨pos, (payload.take oobRdBufSize).length⟩

lemma step_initial (hdata : data ≠ [])
    (hstore : env.store pos = some ⟨.oobData, chunkDataOob idx left right data⟩) (lm : Bool)
    (rest : List StackEntry) (start : ChunkReader) (len : Nat) :
    let payload := chunkDataOob idx left right data
    let n := (oobHeader idx left right).length
    let rd := afterHeader pos payload
    OobReader.step env len ⟨{ state := .initial, pos := pos, isLeftmost := lm } :: rest, start⟩ =
      .ok (if left = (0, 0) then
          if lm = true ∧ right ≠ (0, 0) then
            ⟨{ state := .initial, pos := right, isLeftmost := true } ::
              entryAfterHeader .traversingPriorTrees pos right payload n rd lm :: rest, rd⟩
          else ⟨entryAfterHeader .self pos right payload n ⟨(0, 0), 0⟩ lm :: rest, rd⟩
        else
          ⟨{ state := .initial, pos := left, isLeftmost := lm } ::
            entryAfterHeader .traversingLeftChild pos right payload n rd lm :: rest, rd⟩, []) := by
  have hle : (oobHeader idx left right).length ≤ oobRdBufSize := (length_oobHeader hl hr).2
  have htake : (chunkDataOob idx left right data).take oobRdBufSize =
      oobHeader idx left right ++ data.take (oobRdBufSize - (oobHeader idx left right).length) := by
    rw [chunkDataOob, take_append, take_of_length_le hle]
  have hne : (chunkDataOob idx left right data).take oobRdBufSize ≠ [] := by
    simp [chunkDataOob, hdata, oobRdBufSize]
  have hheader : readHeader ((chunkDataOob idx left right data).take oobRdBufSize) =
      .ok (left, right, (oobHeader idx left right).length) := by
    rw [htake]
    exact readHeader_append hl hr _
  simp only [OobReader.step, stepInitial, ChunkReader.readData, ChunkReader.seek, hstore,
    ChunkReader.curType, bind, Except.bind, if_true, drop_zero, zero_add, Option.map_some, ne_eq,
    not_true_eq_false, if_false, hne, hheader, pure, Except.pure, Except.map]
  split_ifs <;> rfl

end

lemma step_self (hstate : e.state = .self) (rest : List StackEntry) (rd : ChunkReader) :
    OobReader.step env len ⟨e :: rest, rd⟩ = stepSelf env len e rest rd := by
  simp only [OobReader.step]
  rw [hstate]

/-- The rounds in the state `ST_self` return what is left from reading the header, and the
rest of the record. -/
lemma reads_rest {payload : List UInt8} {type : ChunkType}
    (hstore : env.store pos = some ⟨type, payload⟩) (rest : List StackEntry) (k : Nat) :
    ∀ (e : StackEntry) (sofar : Nat), e.state = .self →
      (e.rdBuf.drop e.rdBufSofar).length < len → payload.length - sofar ≤ k →
      ∃ rd, Reads env len ⟨e :: rest, ⟨pos, sofar⟩⟩
        (e.rdBuf.drop e.rdBufSofar ++ payload.drop sofar) ⟨rest, rd⟩ := by
  induction k with
  | zero =>
    intro e sofar hstate hroom hk
    have hend : payload.length ≤ sofar := by omega
    have hstep : OobReader.step env len ⟨e :: rest, ⟨pos, sofar⟩⟩ =
        .ok (⟨rest, ⟨pos, sofar⟩⟩, e.rdBuf.drop e.rdBufSofar) := by
      rw [step_self hstate]
      simp only [stepSelf, take_of_length_le (le_of_lt hroom), ChunkReader.endOfRecord,
        hstore, hend, decide_true, Bool.not_true, Bool.false_eq_true, and_false, if_false, bind,
        Except.bind, if_true, pure, Except.pure, append_nil]
    rw [drop_of_length_le hend]
    exact ⟨_, .step (cons_ne_nil e rest) hstep (.refl _)⟩
  | succ k ih =>
    intro e sofar hstate hroom hk
    by_cases hend : payload.length ≤ sofar
    · exact ih e sofar hstate hroom (by omega)
    set excess := e.rdBuf.drop e.rdBufSofar with hexcess
    set n := min (len - excess.length) (env.chunk pos sofar) with hn
    have hnpos : 0 < n := lt_min (by omega) (env.chunk_pos pos sofar)
    set m := ((payload.drop sofar).take n).length with hm
    have hmlen : m = min n (payload.length - sofar) := by rw [hm, length_take, length_drop]
    have hstep : OobReader.step env len ⟨e :: rest, ⟨pos, sofar⟩⟩ =
        .ok (if payload.length ≤ sofar + m then ⟨rest, ⟨pos, sofar + m⟩⟩
          else ⟨{ e with rdBufSofar := e.rdBufSofar + excess.length } :: rest, ⟨pos, sofar + m⟩⟩,
          excess ++ (payload.drop sofar).take n) := by
      have hlt : 0 < len - excess.length := by omega
      rw [step_self hstate]
      simp only [stepSelf, ← hexcess, take_of_length_le (le_of_lt hroom), hlt,
        ChunkReader.endOfRecord, hstore, hend, decide_false, Bool.not_false, and_self, if_true,
        ChunkReader.readData, bind, Except.bind, if_false, Bool.false_eq_true, ← hn, ← hm,
        decide_eq_true_eq, pure, Except.pure]
      split_ifs <;> rfl
    by_cases hdone : payload.length ≤ sofar + m
    · rw [if_pos hdone] at hstep
      have hall : (payload.drop sofar).take n = payload.drop sofar :=
        take_of_length_le (by rw [length_drop]; omega)
      rw [hall] at hstep
      have hread := Reads.step (cons_ne_nil e rest) hstep (.refl _)
      rw [append_nil] at hread
      exact ⟨_, hread⟩
    · rw [if_neg hdone] at hstep
      have hempty : e.rdBuf.drop (e.rdBufSofar + excess.length) = [] := by
        rw [← drop_drop, ← hexcess, drop_length]
      obtain ⟨rd, hrd⟩ := ih { e with rdBufSofar := e.rdBufSofar + excess.length } (sofar + m)
        hstate (by rw [hempty, length_nil]; omega) (by omega)
      have hread := Reads.step (cons_ne_nil e rest) hstep hrd
      refine ⟨rd, ?_⟩
      rwa [hempty, nil_append, append_assoc, show m = n by omega, ← drop_drop,
        take_append_drop] at hread

section

variable {idx : Nat} (hl : left = (0, 0) ∨ OobTree.IsLink left)
  (hr : right = (0, 0) ∨ OobTree.IsLink right)
  (hstore : env.store pos = some ⟨.oobData, chunkDataOob idx left right data⟩)
  (hlen : oobRdBufSize ≤ len)
include hl hr hstore hlen

/-- From the state `ST_self`, the data of the record is returned, and the node is done. -/
lemma reads_self (saved : ChunkReader) (lm : Bool) (rest : List StackEntry) :
    ∃ rd, Reads env len
      ⟨entryAfterHeader .self pos right (chunkDataOob idx left right data)
        (oobHeader idx left right).length saved lm :: rest,
        afterHeader pos (chunkDataOob idx left right data)⟩ data ⟨rest, rd⟩ := by
  obtain ⟨hpos, hheader⟩ : 0 < (oobHeader idx left right).length ∧
      (oobHeader idx left right).length ≤ oobRdBufSize := length_oobHeader hl hr
  rw [chunkDataOob] at hstore ⊢
  set header := oobHeader idx left right
  set payload := header ++ data with hpayload
  set buf := payload.take oobRdBufSize with hbuf
  have hbufLen : buf.length = min oobRdBufSize payload.length := length_take
  have hle : header.length ≤ buf.length := by
    rw [hbufLen, hpayload, length_append]
    omega
  have hsplit : buf.drop header.length ++ payload.drop buf.length = data := by
    have htake : buf = payload.take buf.length := by rw [hbufLen, hbuf, ← take_eq_take_min]
    rw [← drop_append_of_le_length hle]
    nth_rewrite 1 [htake]
    rw [take_append_drop, hpayload, drop_left]
  obtain ⟨rd, hrd⟩ := @reads_rest env len pos payload _ hstore rest payload.length
    (entryAfterHeader .self pos right payload header.length saved lm) buf.length rfl
    (by simp only [entryAfterHeader, ← hbuf, length_drop]; omega) (by omega)
  refine ⟨rd, ?_⟩
  simp only [entryAfterHeader, ← hbuf, hsplit] at hrd
  exact hrd

lemma reads_restored (hstate : state = .traversingPriorTrees ∨ state = .traversingRightChild)
    (lm : Bool) (rest : List StackEntry) (rd : ChunkReader) :
    ∃ rd', Reads env len
      ⟨entryAfterHeader state pos right (chunkDataOob idx left right data)
        (oobHeader idx left right).length (afterHeader pos (chunkDataOob idx left right data)) lm
          :: rest, rd⟩ data ⟨rest, rd'⟩ := by
  obtain ⟨rd', hrd⟩ := reads_self hl hr hstore hlen
    (afterHeader pos (chunkDataOob idx left right data)) lm rest
  refine ⟨rd', .again ?_ hrd⟩
  rcases hstate with rfl | rfl <;> rfl

end

/-! ## Trees and forests -/

def ReadsPrior (env : BinlogEnv) (len : Nat) (prior : BinlogPos) (before : List UInt8) : Prop :=
  (prior = (0, 0) ∧ before = []) ∨
    (OobTree.IsLink prior ∧ ∀ (rest : List StackEntry) (rd : ChunkReader), ∃ rd',
      Reads env len ⟨{ state := .initial, pos := prior, isLeftmost := true } :: rest, rd⟩ before
        ⟨rest, rd'⟩)

lemma reads_tree (hlen : oobRdBufSize ≤ len) {t : OobTree} {prior : BinlogPos}
    (ht : t.Stored env.store prior) (hprior : prior = (0, 0) ∨ OobTree.IsLink prior) {lm : Bool}
    {before : List UInt8} (hbefore : if lm then ReadsPrior env len prior before else before = [])
    (rest : List StackEntry) (rd : ChunkReader) :
    ∃ rd', Reads env len ⟨{ state := .initial, pos := t.root, isLeftmost := lm } :: rest, rd⟩
      (before ++ t.pieces.flatten) ⟨rest, rd'⟩ := by
  induction t generalizing prior lm before rest rd with
  | leaf pos data =>
    obtain ⟨_, hdata, idx, hstore⟩ := ht
    have hzero : ((0, 0) : BinlogPos) = (0, 0) ∨ OobTree.IsLink (0, 0) := .inl rfl
    have hinit := step_initial hzero hprior hdata hstore lm rest rd len
    dsimp only at hinit
    rw [if_pos rfl] at hinit
    simp only [OobTree.pieces, OobTree.root, flatten_cons, flatten_nil, append_nil]
    by_cases hlink : lm = true ∧ prior ≠ (0, 0)
    · -- the leftmost leaf leads to the prior trees
      rw [if_pos hlink] at hinit
      rw [if_pos hlink.1] at hbefore
      obtain ⟨h0, _⟩ | ⟨_, hreads⟩ := hbefore
      · exact absurd h0 hlink.2
      obtain ⟨rd1, h1⟩ := hreads (entryAfterHeader .traversingPriorTrees pos prior
        (chunkDataOob idx (0, 0) prior data) (oobHeader idx (0, 0) prior).length
        (afterHeader pos (chunkDataOob idx (0, 0) prior data)) lm :: rest)
        (afterHeader pos (chunkDataOob idx (0, 0) prior data))
      obtain ⟨rd2, h2⟩ := reads_restored hzero hprior hstore hlen (.inl rfl) lm rest rd1
      exact ⟨rd2, .again hinit (h1.trans h2)⟩
    · rw [if_neg hlink] at hinit
      have hnil : before = [] := by
        cases lm with
        | false => simpa using hbefore
        | true =>
          obtain ⟨_, h⟩ | ⟨h, _⟩ := hbefore
          · exact h
          · exact absurd ⟨rfl, h.ne_zero⟩ hlink
      obtain ⟨rd', hrd⟩ := reads_self hzero hprior hstore hlen ⟨(0, 0), 0⟩ lm rest
      rw [hnil, nil_append]
      exact ⟨rd', .again hinit hrd⟩
  | node pos data left right ihl ihr =>
    obtain ⟨_, hdata, ⟨idx, hstore⟩, hl, prior', hprior', hr⟩ := ht
    have hinit := step_initial (.inr hl.isLink) (.inr hr.isLink) hdata hstore lm rest rd len
    dsimp only at hinit
    rw [if_neg hl.isLink.ne_zero] at hinit
    set payload := chunkDataOob idx left.root right.root data
    set saved := afterHeader pos payload
    set n := (oobHeader idx left.root right.root).length
    obtain ⟨rd1, h1⟩ := ihl hl hprior hbefore
      (entryAfterHeader .traversingLeftChild pos right.root payload n saved lm :: rest) saved
    have hnone : if false then ReadsPrior env len prior' [] else ([] : List UInt8) = [] := rfl
    obtain ⟨rd2, h2⟩ := ihr hr hprior' hnone
      (entryAfterHeader .traversingRightChild pos right.root payload n saved lm :: rest) rd1
    obtain ⟨rd3, h3⟩ := reads_restored (.inr hl.isLink) (.inr hr.isLink) hstore hlen (.inr rfl) lm
      rest rd2
    rw [nil_append] at h2
    have h23 : Reads env len
        ⟨entryAfterHeader .traversingLeftChild pos right.root payload n saved lm :: rest, rd1⟩
        (right.pieces.flatten ++ data) ⟨rest, rd3⟩ := .again rfl (h2.trans h3)
    have hall := Reads.again hinit (h1.trans h23)
    refine ⟨rd3, ?_⟩
    simpa [OobTree.pieces, OobTree.root] using hall

lemma reads_forest (hlen : oobRdBufSize ≤ len) (h : Forest env.store roots pieces) :
    ReadsPrior env len (priorLink roots) pieces.flatten := by
  induction h with
  | nil => exact .inl ⟨rfl, rfl⟩
  | @cons roots pieces n t hrest ht _ hpos _ ih =>
    refine .inr ⟨?_, fun rest rd => ?_⟩
    · rw [priorLink, hpos]
      exact ht.isLink
    · rw [flatten_append, priorLink, hpos]
      have hbefore : if true then ReadsPrior env len (priorLink roots) pieces.flatten
          else pieces.flatten = [] := ih
      exact reads_tree hlen ht hrest.priorLink_isLink hbefore rest rd

end OobReader

/-! ## The whole way -/

/-- `BUF_SIZE`, the size of the buffer that the server layer reads with. -/
def readBufSize : Nat := 32768

/-- Whatever a transaction has written and rolled back, and wherever its pieces are, its node
list is a forest of perfect trees whose heights decrease strictly but for the last two, and
the traversal from the last node reads the pieces that are not rolled back. -/
theorem oob_readAll (env : BinlogEnv) {s : OobState} {p : Pieces} (hrun : OobRun s p)
    (hstore : env.store = s.store) (rd : ChunkReader) :
    (Forest s.store s.ctx.nodeList p.pieces ∧ HeightsOrdered s.ctx.nodeList) ∧
      (s.ctx.nodeList = [] → p.pieces = []) ∧
      ∀ n rest, s.ctx.nodeList = n :: rest →
        ∃ rounds, (startTraversal n.pos rd).readAll env readBufSize rounds =
          some p.pieces.flatten := by
  have hinv := OobInv.of_run hrun
  refine ⟨⟨hinv.roots.forest, hinv.roots.ordered⟩, fun hnil => ?_, fun n rest hn => ?_⟩
  · have hforest := hinv.roots.forest
    rw [hnil] at hforest
    exact hforest.eq_nil
  · have hforest : Forest env.store (n :: rest) p.pieces := by
      rw [hstore, ← hn]
      exact hinv.roots.forest
    obtain ⟨h0, _⟩ | ⟨_, hreads⟩ := OobReader.reads_forest
      (by decide : oobRdBufSize ≤ readBufSize) hforest
    · exact absurd h0 hforest.isLink.ne_zero
    · obtain ⟨rd', hrd⟩ := hreads [] rd
      exact hrd.readAll rfl

/-- A savepoint is set and a piece written; then it is rolled back, and two pieces follow. -/
def rolledBackEvents : List OobEvent :=
  [.oob [1] false true (0, 40), .rollbackToSavepoint 0, .oob [2, 3] false false (0, 80),
    .oob [4] false false (1, 60)]

def rolledBackState : OobState := rolledBackEvents.foldl OobState.step ⟨.alloc, fun _ => none⟩

theorem oob_readAll_rolledBack :
    ∃ rounds, (startTraversal (1, 60) ⟨(0, 0), 0⟩).readAll
      ⟨rolledBackState.store, fun _ _ => 1, fun _ _ => Nat.one_pos⟩ readBufSize rounds =
        some [2, 3, 4] := by
  have hrun : OobRun rolledBackState ⟨[[2, 3], [4]], [], [[]]⟩ := by
    have h0 := OobRun.alloc fun _ => none
    have h1 := h0.step (e := .oob [1] false true (0, 40))
      fun _ => ⟨rfl, by decide, by decide, by decide⟩
    have h2 := h1.step (e := .rollbackToSavepoint 0) (by decide : 0 < 1)
    have h3 := h2.step (e := .oob [2, 3] false false (0, 80))
      fun _ => ⟨rfl, by decide, by decide, by decide⟩
    exact h3.step (e := .oob [4] false false (1, 60))
      fun _ => ⟨rfl, by decide, by decide, by decide⟩
  exact (oob_readAll ⟨rolledBackState.store, fun _ _ => 1, fun _ _ => Nat.one_pos⟩ hrun rfl
    ⟨(0, 0), 0⟩).2.2 ⟨(1, 60), 1, 1⟩ [⟨(0, 80), 0, 1⟩] rfl

end MariaDB.Binlog
