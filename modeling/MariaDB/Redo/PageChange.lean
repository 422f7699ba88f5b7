import MariaDB.Library.BigEndian
import MariaDB.Redo.Recovery

/-!
# Changing a page and logging the change

The calls of `mtr_t` that change the frame of a page and write a `WRITE`, `MEMSET` or
`MEMMOVE` record for the change, next to the replay of that record on the frame as it
was before the call. Some callers change the frame themselves and only let `mtr_t` log
what they did.
-/
namespace MariaDB.Redo

open Library (Frame toBytes)
open ApplyEnv List Option Mtr

inductive WriteType
  | normal | maybeNop | forced
  deriving DecidableEq, Repr

/-- The number of bytes that `mtr_t::write()` is instantiated for. -/
inductive WriteSize
  | one | two | four | eight
  deriving DecidableEq, Repr

def WriteSize.bytes : WriteSize → Nat
  | one => 1
  | two => 2
  | four => 4
  | eight => 8

/-- The value of a `char`, which is a signed type on most platforms. -/
def charValue (signed : Bool) (c : UInt8) : Int :=
  if signed ∧ 128 ≤ c.toNat then c.toNat - 256 else c.toNat

/-- The loop that skips the bytes that do not change: where the first byte that changes
is, or `none` when `end` was reached. -/
def firstChange (eq : UInt8 → UInt8 → Bool) : List UInt8 → List UInt8 → Option Nat
  | p :: ps, b :: bs => if eq p b then (firstChange eq ps bs).map (· + 1) else some 0
  | _, _ => none

namespace Mtr

def write (m : Mtr) (b : Block) (f : Frame) (l : WriteSize) (w : WriteType) (ofs val : Nat) :
    Mtr × Frame :=
  let buf := toBytes l.bytes val
  match if w ≠ .forced ∧ m.isLogged then firstChange (· == ·) (f.slice ofs l.bytes) buf
    else some 0 with
  | none => (m, f)
  | some p =>
    let f := f.memcpy ofs buf
    (m.memcpyLow b (ofs + p) (f.slice (ofs + p) (l.bytes - p)), f)

def memcpy (charSigned : Bool) (m : Mtr) (b : Block) (f : Frame) (w : WriteType) (dest : Nat)
    (str : List UInt8) : Mtr × Frame :=
  match if w ≠ .forced ∧ m.isLogged then
      firstChange (fun d s => (d.toNat : Int) == charValue charSigned s)
        (f.slice dest str.length) str
    else some 0 with
  | none => (m, f)
  | some d =>
    let len := str.length - d
    let f := f.memcpy (dest + d) ((str.drop d).take len)
    (m.memcpyLow b (dest + d) (f.slice (dest + d) len), f)

def memsetBlock (m : Mtr) (b : Block) (f : Frame) (ofs len : Nat) (val : UInt8) : Mtr × Frame :=
  (m.memset b ofs len val, f.memset ofs len val)

/-- The loop of the runtime fill with a repeating string: the frame and the final `s`. -/
def memsetStringLoop (ofs len : Nat) (str : List UInt8) : Nat → Nat → Frame → Frame × Nat
  | 0, s, f => (f, s)
  | fuel + 1, s, f =>
    -- the source advances by `len` and not by the size of the string
    if s < len then memsetStringLoop ofs len str fuel (s + len) (f.memcpy (ofs + s) str)
    else (f, s)

def memsetStringBlock (m : Mtr) (b : Block) (f : Frame) (ofs len : Nat) (str : List UInt8) :
    Mtr × Frame :=
  let (f, s) := memsetStringLoop ofs len str len 0 f
  (m.memsetString b ofs len str, f.memcpy (ofs + s) (str.take (len - s)))

end Mtr

/-- The page changes that `WRITE`, `MEMSET` and `MEMMOVE` records are written for. -/
inductive PageChange
  | write (l : WriteSize) (w : WriteType) (ofs val : Nat)
  | memcpy (w : WriteType) (dest : Nat) (str : List UInt8)
  | memset (ofs len : Nat) (val : UInt8)
  | memsetString (ofs len : Nat) (str : List UInt8)
  /-- The caller has copied, filled or moved bytes itself, and then logs that it did:
  `memcpy_low()`, the forms of `memset()` for a `buf_block_t` reference, and `memmove()`. -/
  | logged (w : PageWrite)

namespace PageChange

def copied : PageWrite → Frame → Frame
  | .memcpy ofs data, f => f.memcpy ofs data
  | .memset ofs len val, f => f.memset ofs len val
  | .memsetString ofs len str, f => f.memcpy ofs ((List.range len).map fun i =>
      str.getD (i % str.length) 0)
  | .memmove d s len, f => f.memmove d s len
  | _, f => f

def exec (charSigned : Bool) (b : Block) (m : Mtr) (f : Frame) : PageChange → Mtr × Frame
  | .write l w ofs val => m.write b f l w ofs val
  | .memcpy w dest str => m.memcpy charSigned b f w dest str
  | .memset ofs len val => m.memsetBlock b f ofs len val
  | .memsetString ofs len str => m.memsetStringBlock b f ofs len str
  | .logged w => (m.exec ⟨b, w⟩, copied w f)

/-- The calls that the debug assertions and the page format allow. -/
def Legal (srvPageSize : Nat) (b : Block) : PageChange → Prop
  | .write l _ ofs _ => 8 ≤ ofs ∧ ofs + l.bytes ≤ b.physicalSize srvPageSize
  | .memcpy _ dest str => str ≠ [] ∧ 8 ≤ dest ∧ dest + str.length ≤ b.physicalSize srvPageSize
  | .memset ofs len val => (PageWrite.memset ofs len val).Legal srvPageSize b
  | .memsetString ofs len str => (PageWrite.memsetString ofs len str).Legal srvPageSize b
  | .logged w => w.type.haveOffset = true ∧ w.Legal srvPageSize b

/-- The record that a change of the frame `f` writes, if any. -/
def emitted (charSigned : Bool) (f : Frame) : PageChange → Option PageWrite
  | .write l w ofs val =>
    let buf := toBytes l.bytes val
    (if w = .forced then some 0 else firstChange (· == ·) (f.slice ofs l.bytes) buf).map
      fun p => .memcpy (ofs + p) (buf.drop p)
  | .memcpy w dest str =>
    (if w = .forced then some 0
      else firstChange (fun d s => (d.toNat : Int) == charValue charSigned s)
        (f.slice dest str.length) str).map fun d => .memcpy (dest + d) (str.drop d)
  | .memset ofs len val => some (.memset ofs len val)
  | .memsetString ofs len str => some (.memsetString ofs len str)
  | .logged w => some w

def InRange (charSigned : Bool) (f : Frame) (c : PageChange) (i : Nat) : Prop :=
  ∃ w, c.emitted charSigned f = some w ∧ w.offset ≤ i ∧ i < w.endOffset

/-- A fill with a repeating string is replayed as the runtime left it: the string fits in
its range a whole number of times, and the runtime fill, which writes the string only once,
finds the rest of the range filled. -/
def Repeats (f : Frame) : PageChange → Prop
  | .memsetString ofs len str => str.length ∣ len ∧
      ∀ i, str.length ≤ i → i < len → f (ofs + i) = str.getD (i % str.length) 0
  | .logged w => w.WholeCopies
  | _ => True

/-- What a change has logged for the page, replayed on the frame before the change, leaves
the frame that the change left, and changes no byte outside the logged range. The replay
starts where the writer was, and it ends where the writer is. -/
def Replays (charSigned : Bool) (env : ApplyEnv) (b : Block) (m : Mtr) (f : Frame)
    (c : PageChange) : Prop :=
  ∃ record, (c.exec charSigned b m f).1.log = m.log ++ record ∧
    ∀ a : ApplyState, ApplyEnv.OnPage m b.id a → a.frame = f →
      ∃ a', env.apply b a record = some a' ∧
        a'.recordCorrupted = a.recordCorrupted ∧ a'.applied ≠ .corrupted ∧
        a'.frame = (c.exec charSigned b m f).2 ∧
        (∀ i, ¬ c.InRange charSigned f i → a'.frame i = f i) ∧
        ApplyEnv.OnPage (c.exec charSigned b m f).1 b.id a'

/-! ## The frame and the record of one change -/

variable {eq : UInt8 → UInt8 → Bool}

lemma firstChange_spec (heq : ∀ p b, eq p b = true → p = b)
    {ps bs : List UInt8} (hlen : ps.length = bs.length) :
    (firstChange eq ps bs = none → ps = bs) ∧
      ∀ k, firstChange eq ps bs = some k → k < bs.length ∧ ps.take k = bs.take k := by
  induction ps generalizing bs with
  | nil =>
    obtain rfl : bs = [] := length_eq_zero_iff.mp (by simpa using hlen.symm)
    simp [firstChange]
  | cons p ps ih =>
    cases bs with
    | nil => simp at hlen
    | cons b bs =>
      obtain ⟨hnone, hsome⟩ := @ih bs (by simpa using hlen)
      unfold firstChange
      by_cases h : eq p b = true
      · obtain rfl := heq p b h
        simp only [h, if_true, map_eq_none_iff, map_eq_some_iff]
        refine ⟨fun hn => by rw [hnone hn], ?_⟩
        rintro _ ⟨k, hk, rfl⟩
        obtain ⟨hlt, htake⟩ := hsome k hk
        exact ⟨by simpa using hlt, by simp [htake]⟩
      · simp [h]

lemma eq_of_charValue {d s : UInt8} (h : ((d.toNat : Int) == charValue signed s) = true) :
    d = s := by
  have hs := s.toNat_lt
  simp only [beq_iff_eq, charValue] at h
  refine UInt8.toNat_inj.mp ?_
  split_ifs at h <;> omega

variable {data : List UInt8}

/-- Copying bytes that are there already can be left out. -/
lemma memcpy_drop {f : Frame} (hk : k ≤ data.length)
    (h : (f.slice ofs data.length).take k = data.take k) :
    f.memcpy (ofs + k) (data.drop k) = f.memcpy ofs data := by
  refine Frame.ext fun i => ?_
  unfold Frame.memcpy
  simp only [length_drop]
  by_cases hi : ofs ≤ i ∧ i < ofs + k
  · rw [if_neg (by omega), if_pos (by omega)]
    have hget := congrArg (·.getD (i - ofs) 0) h
    have hlt : i - ofs < k := by omega
    have hlt' : i - ofs < data.length := by omega
    simp only [List.getD, getElem?_take, hlt, if_true] at hget
    simpa [Frame.slice, List.getD, hlt', show ofs + (i - ofs) = i by omega] using hget
  · by_cases hi' : ofs + k ≤ i ∧ i < ofs + data.length
    · rw [if_pos (by omega), if_pos (by omega)]
      simp only [List.getD, getElem?_drop]
      rw [show k + (i - (ofs + k)) = i - ofs by omega]
    · rw [if_neg (by omega), if_neg (by omega)]

lemma slice_memcpy_drop (f : Frame) (ofs k : Nat) (data : List UInt8) :
    (f.memcpy ofs data).slice (ofs + k) (data.length - k) = data.drop k := by
  refine ext_getElem (by simp) fun i hi hi' => ?_
  simp only [Frame.slice_length] at hi
  simp only [Frame.slice, getElem_map, getElem_range, getElem_drop]
  rw [Frame.memcpy_of_mem _ _ (by omega) (by omega), show ofs + k + i - ofs = k + i by omega]
  exact getD_eq_getElem _ _ (by omega)

section

variable {charSigned : Bool} {b : Block} {m : Mtr} {f : Frame} {c : PageChange} {ps : Nat}

lemma memsetStringBlock_snd (str : List UInt8) (hlen : 0 < len) :
    (m.memsetStringBlock b f ofs len str).2 = f.memcpy ofs str := by
  obtain ⟨n, rfl⟩ : ∃ n, len = n + 1 := ⟨len - 1, by omega⟩
  have hloop : Mtr.memsetStringLoop ofs (n + 1) str (n + 1) 0 f = (f.memcpy ofs str, n + 1) := by
    rw [Mtr.memsetStringLoop, if_pos (by omega), zero_add, add_zero]
    cases n <;> simp [Mtr.memsetStringLoop]
  simp [Mtr.memsetStringBlock, hloop, Frame.memcpy_nil]

lemma skipped_of_isLogged (hm : m.isLogged = true) (w : WriteType) (k : Option Nat) :
    (if w ≠ .forced ∧ m.isLogged then k else some 0) = if w = .forced then some 0 else k := by
  cases w <;> simp [hm]

/-- A change that logs nothing leaves the frame as it was. -/
lemma exec_of_none (hm : m.isLogged = true) (h : c.emitted charSigned f = none) :
    c.exec charSigned b m f = (m, f) := by
  cases c with
  | write =>
    simp only [emitted, map_eq_none_iff] at h
    simp only [exec, Mtr.write, skipped_of_isLogged hm, h]
  | memcpy =>
    simp only [emitted, map_eq_none_iff] at h
    simp only [exec, Mtr.memcpy, skipped_of_isLogged hm, h]
  | memset | memsetString | logged => simp [emitted] at h

/-- Where the logged part of a change starts, when the loop ended at a byte that changes or
was not run at all. -/
lemma skipped_spec (heq : ∀ p b, eq p b = true → p = b) {w : WriteType} (hdata : data ≠ [])
    (hn : data.length = n)
    (h : (if w = .forced then some 0 else firstChange eq (f.slice ofs n) data) = some k) :
    k < data.length ∧ f.memcpy (ofs + k) (data.drop k) = f.memcpy ofs data := by
  subst hn
  split_ifs at h with hw
  · obtain rfl : 0 = k := by simpa using h
    exact ⟨length_pos_iff.mpr hdata, rfl⟩
  · obtain ⟨hlt, htake⟩ := (firstChange_spec heq (by simp)).2 k h
    exact ⟨hlt, memcpy_drop hlt.le htake⟩

lemma toBytes_ne_nil (l : WriteSize) (val : Nat) : toBytes l.bytes val ≠ [] := by
  cases l <;> simp [toBytes, WriteSize.bytes]

/-- A change writes its record, and, apart from the fill with a repeating string, it leaves
what the record says. -/
lemma exec_of_some (hm : m.isLogged = true) (hc : c.Legal ps b) {w : PageWrite}
    (h : c.emitted charSigned f = some w) :
    (c.exec charSigned b m f).1 = m.exec ⟨b, w⟩ ∧
      ((∀ ofs len str, c ≠ .memsetString ofs len str) → (c.exec charSigned b m f).2 = copied w f) ∧
      w.type.haveOffset = true ∧ w.Legal ps b := by
  cases c with
  | write l t ofs val =>
    simp only [emitted, map_eq_some_iff] at h
    obtain ⟨p, hp, rfl⟩ := h
    obtain ⟨hlow, hhigh⟩ := hc
    have hlen : (toBytes l.bytes val).length = l.bytes := Library.length_toBytes _ _
    obtain ⟨hlt, hcopy⟩ := skipped_spec (fun _ _ => eq_of_beq) (toBytes_ne_nil l val) hlen hp
    have hslice := slice_memcpy_drop f ofs p (toBytes l.bytes val)
    rw [hlen] at hslice
    simp only [exec, Mtr.write, skipped_of_isLogged hm, hp, hslice]
    refine ⟨rfl, fun _ => hcopy.symm, rfl, by simpa using hlt, by omega, ?_⟩
    simp only [length_drop]
    omega
  | memcpy t dest str =>
    simp only [emitted, map_eq_some_iff] at h
    obtain ⟨p, hp, rfl⟩ := h
    obtain ⟨hne, hlow, hhigh⟩ := hc
    obtain ⟨hlt, -⟩ := skipped_spec (fun _ _ => eq_of_charValue) hne rfl hp
    have htake : (str.drop p).take (str.length - p) = str.drop p := take_of_length_le (by simp)
    have hslice := slice_memcpy_drop f (dest + p) 0 (str.drop p)
    simp only [length_drop, add_zero, Nat.sub_zero, drop_zero] at hslice
    simp only [exec, Mtr.memcpy, skipped_of_isLogged hm, hp, htake, hslice]
    refine ⟨rfl, fun _ => rfl, rfl, by simpa using hlt, by omega, ?_⟩
    simp only [length_drop]
    omega
  | memset =>
    cases h
    exact ⟨rfl, fun _ => rfl, rfl, hc⟩
  | memsetString ofs len str =>
    cases h
    exact ⟨rfl, fun hne => absurd rfl (hne ofs len str), rfl, hc⟩
  | logged =>
    cases h
    exact ⟨rfl, fun _ => rfl, hc.1, hc.2⟩

/-- A copy, fill or move changes no byte outside its range. -/
lemma copied_of_not_mem (w : PageWrite) (f : Frame) (hi : i < w.offset ∨ w.endOffset ≤ i) :
    copied w f i = f i := by
  cases w with
  | memcpy ofs data => exact f.memcpy_of_not_mem data hi
  | memset =>
    simp only [PageWrite.offset, PageWrite.endOffset] at hi
    exact if_neg (by omega)
  | memsetString =>
    exact f.memcpy_of_not_mem _ (by simpa [PageWrite.offset, PageWrite.endOffset] using hi)
  | memmove d s => exact f.memmove_of_not_mem s hi
  | _ => rfl

lemma replay_eq_copied {w : PageWrite} (hw : w.type.haveOffset = true) (ops : PageOps) :
    w.replay ops b f = copied w f := by
  cases w <;> first | rfl | simp [PageWrite.type, MrecType.haveOffset] at hw

/-! ## The replay of one change -/

/-- One iteration of the replay, on the record of a change. -/
lemma applyStep_copied {env : ApplyEnv} (hps : env.srvPageSize ≤ 2 ^ 16)
    (hop : MtrOp.Legal env.srvPageSize ⟨b, w⟩) (hw : w.type.haveOffset = true)
    (hstr : w.WholeCopies) (hcur : ApplyEnv.OnPage m b.id a) (rest : List UInt8) :
    ∃ a', env.applyStep b a (m.record ⟨b, w⟩ ++ rest) = .next a' rest ∧
      a'.frame = copied w a.frame ∧ a'.lastOffset = w.endOffset % 2 ^ 16 ∧
      a'.recordCorrupted = a.recordCorrupted ∧
      (a.applied ≠ .corrupted → a'.applied ≠ .corrupted) := by
  obtain ⟨n, verdict, hstep, hv, hrep⟩ := @replayed_record env a hps m ⟨b, w⟩ hop hstr hcur rest
  have hintact : ApplyEnv.PageIntact { a with lastOffset := n } verdict := by
    rw [hv]
    cases w <;> first
      | exact pageIntact_applyWrite _ _ _
      | simp [PageWrite.type, MrecType.haveOffset] at hw
  rw [replay_eq_copied hw] at hrep
  cases verdict with
  | applied a' =>
    obtain ⟨hframe, hlast, hcorr⟩ := hrep
    refine ⟨{ a' with applied := if a'.applied = .no then .yes else a'.applied }, hstep, hframe,
      hlast, hcorr, fun h => ?_⟩
    have := hintact h
    simp only
    split_ifs <;> simp [this]
  | pageCorrupted => exact hintact.elim
  | nextNotSamePage | recordCorrupted | undefined => exact hrep.elim

lemma endOffset_mod_ne_one (hps : ps ≤ 2 ^ 16) {op : MtrOp} (hop : op.Legal ps) :
    op.write.endOffset % 2 ^ 16 ≠ 1 := by
  obtain ⟨b, w⟩ := op
  have hsize : b.physicalSize ps ≤ ps := hop.size_le
  have hw := hop.write
  cases w <;> simp only [PageWrite.Legal, PageWrite.endOffset, filPageType] at hw ⊢ <;> omega

end

/-- A page of a persistent tablespace, and a change of it, after the writes `pre` of the
same mini-transaction. -/
structure LegalCall (srvPageSize : Nat) (pre : List MtrOp) (b : Block) (c : PageChange) :
    Prop where
  max_size : srvPageSize ≤ 2 ^ 16
  pre_legal : ∀ op ∈ pre, op.Legal srvPageSize
  space_lt : b.id.space < logBinlogId0
  pageNo_lt : b.id.pageNo < 2 ^ 32 - 1
  size_le : b.physicalSize srvPageSize ≤ srvPageSize
  change : c.Legal srvPageSize b

section

variable {charSigned : Bool} {env : ApplyEnv} {b : Block} {pre : List MtrOp} {c : PageChange}

variable {ps ofs len : Nat} {w : PageWrite} {f : Frame} {str : List UInt8}

lemma lastOffset_run_ne_one (hps : ps ≤ 2 ^ 16) (hpre : ∀ op ∈ pre, op.Legal ps) :
    (Mtr.start.run pre).lastOffset ≠ 1 := by
  induction pre using List.reverseRecOn with
  | nil => decide
  | append_singleton pre op _ =>
    have hop := hpre op (by simp)
    have hlog := (run_eq hps (m := .start) rfl fun o ho => hpre o (mem_append_left _ ho)).2
    rw [run_append, run_singleton, exec_eq hps hlog hop]
    exact endOffset_mod_ne_one hps hop

lemma LegalCall.isLogged (h : LegalCall ps pre b c) : (Mtr.start.run pre).isLogged = true :=
  (run_eq h.max_size (m := .start) rfl h.pre_legal).2

lemma LegalCall.op (h : LegalCall ps pre b c) (hw : w.Legal ps b) : MtrOp.Legal ps ⟨b, w⟩ :=
  ⟨h.space_lt, h.pageNo_lt, h.size_le, hw⟩

lemma replays_of_emitted (h : LegalCall env.srvPageSize pre b c)
    (hw : c.emitted charSigned f = some w) (hstr : w.WholeCopies)
    (hframe : (c.exec charSigned b (Mtr.start.run pre) f).2 = copied w f) :
    c.Replays charSigned env b (Mtr.start.run pre) f := by
  obtain ⟨hlog, -, hofs, hlegal⟩ := exec_of_some (m := start.run pre) h.isLogged h.change hw
  have hop := h.op hlegal
  have hexec := exec_eq h.max_size h.isLogged hop
  refine ⟨_, by rw [hlog, hexec], fun a hcur ha => ?_⟩
  obtain ⟨a', hstep, hcopied, hlast, hcorr, happlied⟩ := applyStep_copied
    (a := { a with applied := .no }) h.max_size hop hofs hstr hcur [0]
  have hlen := (start.run pre).record_length ⟨b, w⟩
  obtain ⟨k, hk⟩ : ∃ k, ((start.run pre).record ⟨b, w⟩).length = k + 1 :=
    ⟨((start.run pre).record ⟨b, w⟩).length - 1, by omega⟩
  refine ⟨a', ?_, hcorr, happlied (by simp), ?_, fun i hi => ?_, ?_⟩
  · rw [apply, hk, applyLoop, hstep]
    rfl
  · rw [hcopied, hframe, ← ha]
  · rw [hcopied, ← ha]
    refine copied_of_not_mem w _ ?_
    by_contra hin
    exact hi ⟨w, hw, by omega, by omega⟩
  · rw [hlog, hexec]
    exact fun _ => ⟨hlast, endOffset_mod_ne_one h.max_size hop⟩

lemma replays_of_none (h : LegalCall env.srvPageSize pre b c) (hw : c.emitted charSigned f = none) :
    c.Replays charSigned env b (Mtr.start.run pre) f := by
  have hexec : c.exec charSigned b (start.run pre) f = (start.run pre, f) :=
    exec_of_none h.isLogged hw
  refine ⟨[], by rw [hexec, append_nil], fun a hcur ha => ?_⟩
  refine ⟨{ a with applied := .no }, rfl, rfl, by simp, by rw [hexec, ← ha], fun i _ => ?_, ?_⟩
  · exact congrFun ha i
  · rw [hexec]
    exact hcur

/-- The frame and the status with which the replay of a page goes on where the writer is. -/
lemma onPage_run (hpre : ∀ op ∈ pre, op.Legal env.srvPageSize) (hps : env.srvPageSize ≤ 2 ^ 16)
    (f : Frame) :
    ApplyEnv.OnPage (Mtr.start.run pre) b.id ⟨f, (Mtr.start.run pre).lastOffset, .no, false⟩ :=
  fun _ => ⟨rfl, lastOffset_run_ne_one hps hpre⟩

/-- A repeating string that does not fit its range cannot be replayed. -/
lemma dvd_of_replays (h : LegalCall env.srvPageSize pre b c) (hw : c.emitted charSigned f = some
    (.memsetString ofs len str))
    (hrep : c.Replays charSigned env b (Mtr.start.run pre) f) : str.length ∣ len := by
  by_contra hdvd
  obtain ⟨hlog, -, -, hlegal⟩ := exec_of_some (m := start.run pre) h.isLogged h.change hw
  have hop := h.op hlegal
  obtain ⟨record, hrecord, hreplay⟩ := hrep
  rw [hlog, exec_eq h.max_size h.isLogged hop] at hrecord
  obtain rfl := append_cancel_left hrecord
  obtain ⟨a', happly, -⟩ := hreplay _ (onPage_run h.pre_legal h.max_size f) rfl
  rw [apply, applyLoop, applyStep_undefined h.max_size hop
    (onPage_run h.pre_legal h.max_size f) hdvd] at happly
  cases happly

lemma copied_memsetString_iff (hlt : str.length < len) :
    copied (.memsetString ofs len str) f = f.memcpy ofs str ↔
      ∀ i, str.length ≤ i → i < len → f (ofs + i) = str.getD (i % str.length) 0 := by
  have hin : ∀ i, i < len → copied (.memsetString ofs len str) f (ofs + i) =
      str.getD (i % str.length) 0 := fun i hi => by
    show f.memcpy ofs _ (ofs + i) = _
    rw [Frame.memcpy_of_mem _ _ (by omega) (by simpa using hi), Nat.add_sub_cancel_left]
    simp [List.getD, hi]
  constructor
  · intro heq i hle hi
    rw [← hin i hi, heq, Frame.memcpy_of_not_mem _ _ (by omega)]
  · intro hrest
    refine Frame.ext fun j => ?_
    by_cases hj : ofs ≤ j ∧ j < ofs + len
    · obtain ⟨i, rfl⟩ := Nat.exists_eq_add_of_le hj.1
      rw [hin i (by omega)]
      by_cases hi : i < str.length
      · rw [Frame.memcpy_of_mem _ _ (by omega) (by omega), Nat.add_sub_cancel_left,
          Nat.mod_eq_of_lt hi]
      · rw [Frame.memcpy_of_not_mem _ _ (by omega), hrest i (by omega) (by omega)]
    · rw [copied_of_not_mem _ _ (by simp only [PageWrite.offset, PageWrite.endOffset]; omega),
        Frame.memcpy_of_not_mem _ _ (by omega)]

lemma wholeCopies_of_repeats (h : c.Repeats f)
    (hw : c.emitted charSigned f = some w) : w.WholeCopies := by
  cases c with
  | write | memcpy =>
    simp only [emitted, map_eq_some_iff] at hw
    obtain ⟨p, -, rfl⟩ := hw
    trivial
  | memset =>
    cases hw
    trivial
  | memsetString =>
    cases hw
    exact h.1
  | logged =>
    cases hw
    exact h

/-- The frame that a change leaves is the one that its record describes. -/
lemma exec_snd_of_repeats {m : Mtr} (hm : m.isLogged = true) (hc : c.Legal ps b) (h : c.Repeats f)
    (hw : c.emitted charSigned f = some w) :
    (c.exec charSigned b m f).2 = copied w f := by
  by_cases hstr : ∃ ofs len str, c = .memsetString ofs len str
  · obtain ⟨ofs, len, str, rfl⟩ := hstr
    cases hw
    obtain ⟨-, hlt, -, -⟩ := hc
    exact (memsetStringBlock_snd str (by omega)).trans ((copied_memsetString_iff hlt).mpr h.2).symm
  · push Not at hstr
    exact (exec_of_some hm hc hw).2.1 hstr

lemma repeats_memsetString (h : LegalCall env.srvPageSize pre b (.memsetString ofs len str))
    (hrep : Replays charSigned env b (Mtr.start.run pre) f (.memsetString ofs len str)) :
    Repeats f (.memsetString ofs len str) := by
  obtain ⟨hne, hlt, -, -⟩ := h.change
  have hdvd := dvd_of_replays h rfl hrep
  refine ⟨hdvd, (copied_memsetString_iff hlt).mp ?_⟩
  have hframe : (exec charSigned b (start.run pre) f (.memsetString ofs len str)).2 =
      f.memcpy ofs str := memsetStringBlock_snd str (by omega)
  -- the same record, for a caller that has filled the whole range
  have hcall : LegalCall env.srvPageSize pre b (.logged (.memsetString ofs len str)) :=
    { h with change := ⟨rfl, h.change⟩ }
  have hlogged : Replays charSigned env b (start.run pre) f
      (.logged (.memsetString ofs len str)) := replays_of_emitted hcall rfl hdvd rfl
  obtain ⟨record, hrecord, hreplay⟩ := hrep
  obtain ⟨_, hrecord', hreplay'⟩ := hlogged
  obtain rfl := append_cancel_left (hrecord'.symm.trans hrecord)
  obtain ⟨a, happly, -, -, ha, -⟩ := hreplay _ (onPage_run h.pre_legal h.max_size f) rfl
  obtain ⟨a', happly', -, -, ha', -⟩ := hreplay' _ (onPage_run h.pre_legal h.max_size f) rfl
  obtain rfl : a = a' := some.inj (happly.symm.trans happly')
  exact ha'.symm.trans (ha.trans hframe)

/-- A page change is replayed as the runtime made it if and only if it does not depend on
the two fills with a repeating string doing the same. -/
theorem replays_iff (h : LegalCall env.srvPageSize pre b c) (f : Frame) :
    c.Replays charSigned env b (Mtr.start.run pre) f ↔ c.Repeats f := by
  constructor
  · intro hrep
    cases c with
    | memsetString => exact repeats_memsetString h hrep
    | logged w =>
      cases w with
      | memsetString => exact dvd_of_replays h rfl hrep
      | _ => trivial
    | _ => trivial
  · intro hrepeats
    cases hw : c.emitted charSigned f with
    | none => exact replays_of_none h hw
    | some =>
      exact replays_of_emitted h hw (wholeCopies_of_repeats hrepeats hw)
        (exec_snd_of_repeats h.isLogged h.change hrepeats hw)

/-! ## The replay of all changes of a page -/

def run (charSigned : Bool) (b : Block) (s : Mtr × Frame) (cs : List PageChange) : Mtr × Frame :=
  cs.foldl (fun s c => c.exec charSigned b s.1 s.2) s

/-- Each change is one that is replayed, on the frame that it finds. -/
def RepeatsRun (charSigned : Bool) (b : Block) (s : Mtr × Frame) : List PageChange → Prop
  | [] => True
  | c :: cs => c.Repeats s.2 ∧ RepeatsRun charSigned b (c.exec charSigned b s.1 s.2) cs

/-- The log of such a run, replayed on the frame before it, leaves the frame after it. -/
theorem run_replayed (hps : env.srvPageSize ≤ 2 ^ 16)
    (hb : ∀ w : PageWrite, w.Legal env.srvPageSize b → MtrOp.Legal env.srvPageSize ⟨b, w⟩)
    {cs : List PageChange} (hcs : ∀ c ∈ cs, c.Legal env.srvPageSize b) {m : Mtr}
    (hm : m.isLogged = true) (hrun : RepeatsRun charSigned b (m, f) cs) :
    ∃ log, (run charSigned b (m, f) cs).1.log = m.log ++ log ∧
      ∀ a : ApplyState, ApplyEnv.OnPage m b.id a → a.frame = f → a.applied ≠ .corrupted →
        ∀ fuel, log.length < fuel → ∃ a', env.applyLoop b fuel a (log ++ [0]) = some a' ∧
          a'.frame = (run charSigned b (m, f) cs).2 ∧
          a'.recordCorrupted = a.recordCorrupted ∧ a'.applied ≠ .corrupted := by
  induction cs generalizing m f with
  | nil =>
    refine ⟨[], (append_nil _).symm, fun a _ hf ha fuel hfuel => ?_⟩
    obtain ⟨fuel, rfl⟩ : ∃ k, fuel = k + 1 := ⟨fuel - 1, by omega⟩
    exact ⟨a, rfl, hf, rfl, ha⟩
  | cons c cs ih =>
    obtain ⟨hrep, hrun⟩ := hrun
    have hc := hcs c (by simp)
    have hcs' := fun c' hc' => hcs c' (mem_cons_of_mem c hc')
    have hfold : run charSigned b (m, f) (c :: cs) =
        run charSigned b (c.exec charSigned b m f) cs := rfl
    rw [hfold]
    cases hw : c.emitted charSigned f with
    | none =>
      have hexec : c.exec charSigned b m f = (m, f) := exec_of_none hm hw
      rw [hexec] at hrun ⊢
      exact ih hcs' hm hrun
    | some w =>
      obtain ⟨hlog, -, hofs, hlegal⟩ := exec_of_some hm hc hw
      have hop := hb w hlegal
      have hm' := exec_eq hps hm hop
      have hexec : c.exec charSigned b m f = (m.exec ⟨b, w⟩, copied w f) :=
        Prod.ext hlog (exec_snd_of_repeats hm hc hrep hw)
      rw [hexec] at hrun ⊢
      obtain ⟨log, hrunlog, hreplay⟩ := ih hcs' (by rw [hm']) hrun
      refine ⟨m.record ⟨b, w⟩ ++ log, by rw [hrunlog, hm', append_assoc], ?_⟩
      intro a hcur hf ha fuel hfuel
      have hlen := m.record_length ⟨b, w⟩
      rw [length_append] at hfuel
      obtain ⟨fuel, rfl⟩ : ∃ k, fuel = k + 1 := ⟨fuel - 1, by omega⟩
      obtain ⟨a₁, hstep, hframe, hlast, hcorr, happlied⟩ := applyStep_copied hps hop hofs
        (wholeCopies_of_repeats hrep hw) hcur (log ++ [0])
      obtain ⟨a', hloop, hframe', hcorr', happlied'⟩ := hreplay a₁
        (by rw [hm']; exact fun _ => ⟨hlast, endOffset_mod_ne_one hps hop⟩) (by rw [hframe, hf])
        (happlied ha) fuel (by omega)
      refine ⟨a', ?_, hframe', hcorr'.trans hcorr, happlied'⟩
      rwa [append_assoc, applyLoop, hstep]

end

/-- Recovery with 16 KiB pages, of pages that no page operation is logged for. -/
def plainEnv : ApplyEnv where
  srvPageSize := 16384
  forceRecovery := false
  ops := ⟨fun _ _ f => f, fun _ f => f, fun _ _ f => (false, f), fun _ _ _ _ _ _ _ f => (false, f),
    fun _ _ _ _ _ _ _ _ f => (false, f), fun _ _ f => (false, f), fun _ _ _ _ f => (false, f),
    fun _ _ _ => false, fun _ f => f⟩
  encryptionOffset := fun _ => 0

theorem run_replayed_memmove :
    let cs := [.memset 100 8 1, .logged (.memmove 108 100 24)]
    let s := run true ⟨⟨5, 4⟩, 0⟩ (.start, .zeros) cs
    ∃ log a', s.1.log = Mtr.start.log ++ log ∧ plainEnv.applyLoop ⟨⟨5, 4⟩, 0⟩ (log.length + 1)
      ⟨.zeros, 0, .no, false⟩ (log ++ [0]) = some a' ∧ a'.frame = s.2 := by
  intro cs s
  have hcs : ∀ c ∈ cs, c.Legal plainEnv.srvPageSize ⟨⟨5, 4⟩, 0⟩ := by
    simp [cs, Legal, PageWrite.Legal, PageWrite.type, MrecType.haveOffset, Block.physicalSize,
      plainEnv]
  have hb : 5 < logBinlogId0 ∧ 4 < 2 ^ 32 - 1 := by decide
  obtain ⟨log, hlog, hreplay⟩ := run_replayed (by decide : plainEnv.srvPageSize ≤ 2 ^ 16)
    (fun _ hw => ⟨hb.1, hb.2, le_rfl, hw⟩) hcs (m := .start) rfl ⟨trivial, trivial, trivial⟩
  obtain ⟨a', happly, hframe, -⟩ :=
    hreplay ⟨.zeros, 0, .no, false⟩ (by rintro ⟨⟩) rfl (by simp) _ (lt_add_one _)
  exact ⟨log, a', hlog, happly, hframe⟩

/-- Moving 24 bytes by 8 bytes is replayed, although the source and the target overlap. -/
theorem replays_memmove : LegalCall 16384 [] ⟨⟨5, 4⟩, 0⟩ (.logged (.memmove 108 100 24)) ∧
    Replays true plainEnv ⟨⟨5, 4⟩, 0⟩ (Mtr.start.run []) (Frame.zeros.memcpy 100 [1, 2, 3, 4])
      (.logged (.memmove 108 100 24)) := by
  have h : LegalCall plainEnv.srvPageSize [] ⟨⟨5, 4⟩, 0⟩ (.logged (.memmove 108 100 24)) :=
    ⟨by decide, by simp, by decide, by decide, by decide, rfl,
      by simp [PageWrite.Legal, Block.physicalSize, plainEnv]⟩
  exact ⟨h, (replays_iff h _).mpr trivial⟩

/-- Filling 6 bytes of a page of NUL bytes with the string 1, 2: the runtime fills two of
them, and the replay fills all. With a string of 4 bytes, the replay is undefined. -/
theorem not_replays_memsetString : (LegalCall 16384 [] ⟨⟨5, 4⟩, 0⟩ (.memsetString 100 6 [1, 2]) ∧
      ¬ Replays true plainEnv ⟨⟨5, 4⟩, 0⟩ (Mtr.start.run []) .zeros (.memsetString 100 6 [1, 2])) ∧
    (LegalCall 16384 [] ⟨⟨5, 4⟩, 0⟩ (.memsetString 100 6 [1, 2, 1, 2]) ∧
      ¬ Replays true plainEnv ⟨⟨5, 4⟩, 0⟩ (Mtr.start.run []) .zeros
        (.memsetString 100 6 [1, 2, 1, 2])) := by
  have hlegal : ∀ str : List UInt8, str ≠ [] → str.length < 6 →
      LegalCall plainEnv.srvPageSize [] ⟨⟨5, 4⟩, 0⟩ (.memsetString 100 6 str) :=
    fun str hne hlt => ⟨by decide, by simp, by decide, by decide, by decide, hne, hlt, by decide,
      by decide⟩
  refine ⟨⟨hlegal _ (by simp) (by decide), fun hrep => ?_⟩,
    ⟨hlegal _ (by simp) (by decide), fun hrep => ?_⟩⟩
  · have hbyte := (repeats_memsetString (hlegal _ (by simp) (by decide)) hrep).2 2 (by decide)
      (by decide)
    exact absurd hbyte (by decide)
  · have hdvd := (repeats_memsetString (hlegal _ (by simp) (by decide)) hrep).1
    exact absurd hdvd (by decide)

end PageChange

end MariaDB.Redo
