import Mathlib

/-!
# Binlog writes that are not yet durable

`pending_lsn_fifo` keeps the LSNs of binlog writes, with the positions where the writes end,
until the redo log is flushed up to them. `binlog_cur_durable_offset[]` says up to where a
binlog file may be read. It has a slot for each of the last four files.
-/
namespace MariaDB.Binlog

open Function List

/-- An entry of the fifo: a binlog write ends at a position, and commits at an LSN. -/
structure LsnEntry where
  lsn : Nat
  fileNo : Nat
  offset : Nat
  deriving DecidableEq

/-- `pending_lsn_fifo` and the offsets it works on. `writes` are the binlog writes so far, the
last one first; the files before `firstOpen` are closed. -/
structure DurableState where
  fifo : List LsnEntry
  lastLsnAdded : Nat
  curFileNo : Nat
  durableOffset : Nat → Nat
  endOffset : Nat → Nat
  active : Nat
  firstOpen : Nat
  flushedLsn : Nat
  writes : List LsnEntry

def slot (fileNo : Nat) : Nat := fileNo % 4

namespace DurableState

def fixedSize : Nat := 1024

variable (s : DurableState)

/-- The loop of `process_durable_lsn()`: drop the entries that are durable. -/
def dropDurable (lsn : Nat) (got : Option LsnEntry) :
    List LsnEntry → Option LsnEntry × List LsnEntry
  | [] => (got, [])
  | e :: rest => if lsn < e.lsn then (got, e :: rest) else dropDurable lsn (some e) rest

def setDurable (fileNo offset : Nat) : DurableState :=
  { s with durableOffset := update s.durableOffset (slot fileNo) offset }

def gotDurable (got : LsnEntry) : DurableState :=
  let s := if s.active ≤ got.fileNo + 1 then s.setDurable got.fileNo got.offset else s
  if s.curFileNo ≠ got.fileNo then
    { s.setDurable s.curFileNo (s.endOffset (slot s.curFileNo)) with curFileNo := got.fileNo }
  else s

def processDurableLsn (lsn : Nat) : DurableState :=
  match dropDurable lsn none s.fifo with
  | (none, _) => s
  | (some got, rest) => { s with fifo := rest }.gotDurable got

/-- The fifo with a new head, or with its head overwritten if it is full. -/
def pushHead (e : LsnEntry) : List LsnEntry :=
  (if s.fifo.length = fixedSize then s.fifo.dropLast else s.fifo) ++ [e]

def addToFifo (e : LsnEntry) : DurableState :=
  if s.lastLsnAdded < e.lsn then
    { s with fifo := s.pushHead e, lastLsnAdded := e.lsn }.processDurableLsn s.flushedLsn
  else s

/-- What the end of a write in `fsp_binlog_write_rec()` does to the offsets. A write may move
the active file ahead; a full file ends at its size. -/
def write (size : Nat → Nat) (w : LsnEntry) : DurableState :=
  if w.fileNo = s.active then
    { s with
      endOffset := update s.endOffset (slot s.active) w.offset
      writes := w :: s.writes }
  else
    { s with
      durableOffset := update s.durableOffset (slot w.fileNo) 0
      endOffset := update (update s.endOffset (slot w.fileNo) w.offset)
        (slot s.active) (size s.active)
      active := w.fileNo
      writes := w :: s.writes }

/-- The end of `fsp_binlog_tablespace_close()`, when the wait for the durable offset is over. -/
def close (size : Nat → Nat) : DurableState :=
  { s with
    endOffset := update s.endOffset (slot s.firstOpen) (size s.firstOpen)
    firstOpen := s.firstOpen + 1 }

end DurableState

inductive DurableEvent
  | write (w : LsnEntry)
  | add (e : LsnEntry)
  | flush (lsn : Nat)
  /-- A reader calls `process_durable_lsn()`. -/
  | process
  | close

def DurableEvent.added : DurableEvent → List LsnEntry
  | .add e => [e]
  | _ => []

namespace DurableState

variable (size : Nat → Nat) (s : DurableState)

def step : DurableEvent → DurableState
  | .write w => s.write size w
  | .add e => s.addToFifo e
  | .flush lsn => { s with flushedLsn := lsn }
  | .process => s.processDurableLsn s.flushedLsn
  | .close => s.close size

def Follows (w v : LsnEntry) : Prop :=
  v.lsn < w.lsn ∧ (v.fileNo < w.fileNo ∨ v.fileNo = w.fileNo ∧ v.offset ≤ w.offset)

/-- The events that can happen. A write comes behind all the others, in the active file, or in
the next one when the file before the active one is closed (there are at most two open
files). Any earlier write may be added, in any order. A file is closed when the active one
is behind it, and its end is durable. -/
def Legal : DurableEvent → Prop
  | .write w => (∀ v ∈ s.writes, Follows w v) ∧ 0 < w.offset ∧ w.offset ≤ size w.fileNo ∧
      (w.fileNo = s.active ∨ w.fileNo = s.active + 1 ∧ s.firstOpen = s.active)
  | .add e => e ∈ s.writes
  | .flush lsn => s.flushedLsn ≤ lsn
  | .process => True
  | .close => s.firstOpen < s.active ∧
      s.endOffset (slot s.firstOpen) ≤ s.durableOffset (slot s.firstOpen)

structure Start (recovered : LsnEntry) : Prop where
  fifo : s.fifo = []
  last : s.lastLsnAdded = 0
  cur : s.curFileNo = recovered.fileNo
  active : s.active = recovered.fileNo
  firstOpen : s.firstOpen = recovered.fileNo
  durable : s.durableOffset (slot recovered.fileNo) = recovered.offset
  endOffset : s.endOffset (slot recovered.fileNo) = recovered.offset
  flushed : recovered.lsn ≤ s.flushedLsn
  writes : s.writes = [recovered]
  lsn_pos : 0 < recovered.lsn
  offset_le : recovered.offset ≤ size recovered.fileNo
  size_pos : ∀ f, 0 < size f

/-- The states that are reached, with the entries of the calls of `add_to_fifo()` so far. -/
inductive Reached (recovered : LsnEntry) : DurableState → List LsnEntry → Prop
  | start {s : DurableState} : s.Start size recovered → Reached recovered s []
  | step {s : DurableState} {added : List LsnEntry} {e : DurableEvent} : Reached recovered s added →
      s.Legal size e → Reached recovered (s.step size e) (e.added ++ added)

/-- A file whose offsets are kept: one of the last four, and not older than the start. -/
def Kept (recovered : LsnEntry) (f : Nat) : Prop :=
  recovered.fileNo ≤ f ∧ f ≤ s.active ∧ s.active < f + 4

/-- The durable offset of a file is right: nothing of it is durable yet, or it is the end of a
durable write, or the end of a file that is durable as a whole. -/
def DurableOk (f : Nat) : Prop :=
  s.durableOffset (slot f) = 0 ∨
    (∃ w ∈ s.writes, w.fileNo = f ∧ w.offset = s.durableOffset (slot f) ∧ w.lsn ≤ s.flushedLsn) ∨
    (s.durableOffset (slot f) = size f ∧ ∃ w ∈ s.writes, f < w.fileNo ∧ w.lsn ≤ s.flushedLsn)

/-! ## The invariant -/

structure CurWrite (w : LsnEntry) : Prop where
  mem : w ∈ s.writes
  fileNo : w.fileNo = s.curFileNo
  offset : w.offset = s.durableOffset (slot s.curFileNo)
  lsn_le : w.lsn ≤ s.flushedLsn
  fifo : ∀ e ∈ s.fifo, w.lsn ≤ e.lsn
  last : w.lsn ≤ s.lastLsnAdded ∨ ∀ e ∈ s.writes, w.lsn ≤ e.lsn
  empty : s.fifo = [] → s.lastLsnAdded = 0 ∨ w.lsn = s.lastLsnAdded

structure Inv (recovered : LsnEntry) : Prop where
  sorted : s.fifo.Pairwise fun d e => d.lsn < e.lsn
  fifo_le : ∀ e ∈ s.fifo, e.lsn ≤ s.lastLsnAdded
  fifo_last : ∀ e, s.fifo.getLast? = some e → e.lsn = s.lastLsnAdded
  fifo_mem : ∀ e ∈ s.fifo, e ∈ s.writes
  writes : s.writes.Pairwise Follows
  fileNo_le : ∀ w ∈ s.writes, recovered.fileNo ≤ w.fileNo ∧ w.fileNo ≤ s.active
  offset_le : ∀ w ∈ s.writes, w.offset ≤ size w.fileNo
  recovered_le : recovered.fileNo ≤ s.firstOpen
  open_le : s.firstOpen ≤ s.active
  active_le : s.active ≤ s.firstOpen + 1
  cur_le : s.curFileNo ≤ s.active
  open_le_cur : s.firstOpen ≤ s.curFileNo + 1
  cur : ∃ w, s.CurWrite w
  durable : ∀ f, s.Kept recovered f → s.DurableOk size f
  beyond : ∀ f, s.curFileNo < f → f ≤ s.active → s.durableOffset (slot f) = 0
  size_pos : ∀ f, 0 < size f
  ended : ∀ f, s.Kept recovered f → f < s.active → s.endOffset (slot f) = size f
  closed : ∀ f, s.Kept recovered f → f < s.firstOpen → s.durableOffset (slot f) = size f

section

variable {size s} {recovered : LsnEntry} {l : List LsnEntry}

lemma position_le (h : l.Pairwise Follows) (hv : v ∈ l) (hw : w ∈ l) (hle : v.lsn ≤ w.lsn) :
    v.fileNo < w.fileNo ∨ v.fileNo = w.fileNo ∧ v.offset ≤ w.offset := by
  induction h <;> grind [Follows]

lemma same_position (h : l.Pairwise Follows) (hv : v ∈ l) (hw : w ∈ l) (heq : v.lsn = w.lsn) :
    v.fileNo = w.fileNo ∧ v.offset = w.offset := by
  have h1 := position_le h hv hw (Nat.le_of_eq heq)
  have h2 := position_le h hw hv (Nat.le_of_eq heq.symm)
  omega

lemma slot_ne (hne : f ≠ g) (hfg : f < g + 4) (hgf : g < f + 4) : slot f ≠ slot g := by
  unfold slot
  omega

/-! ## Processing -/

lemma dropDurable_spec (lsn : Nat) (l : List LsnEntry) : ∀ got,
    ∃ done, l = done ++ (dropDurable lsn got l).2 ∧ (∀ e ∈ done, e.lsn ≤ lsn) ∧
      (∀ e ∈ (dropDurable lsn got l).2.head?, lsn < e.lsn) ∧
      (dropDurable lsn got l).1 = done.getLast?.or got := by
  induction l with
  | nil => exact fun got => ⟨[], rfl, by simp, by simp [dropDurable], rfl⟩
  | cons e rest ih =>
    intro got
    unfold dropDurable
    split_ifs with hlt
    · exact ⟨[], rfl, by simp, by simpa using hlt, rfl⟩
    · obtain ⟨done, hl, hdone, hhead, hgot⟩ := ih (some e)
      refine ⟨e :: done, by rw [cons_append, ← hl], ?_, hhead, ?_⟩
      · exact forall_mem_cons.mpr ⟨Nat.not_lt.mp hlt, hdone⟩
      · rw [hgot]
        cases hlast : done.getLast? with
        | none => simp [getLast?_eq_none_iff.mp hlast]
        | some => simp [getLast?_cons, hlast]

/-- Either nothing is durable, or the durable point moves to the last entry that is. -/
lemma processDurableLsn_cases (s : DurableState) (lsn : Nat) :
    (s.processDurableLsn lsn = s ∧ ∀ e ∈ s.fifo.head?, lsn < e.lsn) ∨
      ∃ done got rest, s.fifo = done ++ got :: rest ∧ got.lsn ≤ lsn ∧
        (∀ e ∈ rest.head?, lsn < e.lsn) ∧
        s.processDurableLsn lsn = { s with fifo := rest }.gotDurable got := by
  obtain ⟨done, hl, hdone, hhead, hgot⟩ := dropDurable_spec lsn s.fifo none
  rw [Option.or_none] at hgot
  unfold processDurableLsn
  rcases hdrop : dropDurable lsn none s.fifo with ⟨got, rest⟩
  rw [hdrop] at hl hhead hgot
  dsimp only at hl hhead hgot ⊢
  rcases eq_nil_or_concat done with rfl | ⟨init, e, rfl⟩
  · left
    rw [hgot]
    rw [nil_append] at hl
    rw [hl]
    exact ⟨rfl, hhead⟩
  · right
    have hlast : got = some e := by simpa using hgot
    refine ⟨init, e, rest, by simpa using hl, hdone e (by simp), hhead, ?_⟩
    rw [hlast]

namespace Inv

lemma cur_le_entry (h : s.Inv size recovered) (he : e ∈ s.fifo) :
    s.curFileNo < e.fileNo ∨
      s.curFileNo = e.fileNo ∧ s.durableOffset (slot s.curFileNo) ≤ e.offset := by
  obtain ⟨w, hw⟩ := h.cur
  rw [← hw.offset, ← hw.fileNo]
  exact position_le h.writes hw.mem (h.fifo_mem e he) (hw.fifo e he)

lemma recovered_le_cur (h : s.Inv size recovered) : recovered.fileNo ≤ s.curFileNo := by
  obtain ⟨w, hw⟩ := h.cur
  rw [← hw.fileNo]
  exact (h.fileNo_le w hw.mem).1

lemma kept_cur (h : s.Inv size recovered) : s.Kept recovered s.curFileNo := by
  have := h.open_le_cur
  have := h.active_le
  exact ⟨h.recovered_le_cur, h.cur_le, by omega⟩

end Inv

structure Moved (s s' : DurableState) (got : LsnEntry) : Prop where
  cur : s'.curFileNo = got.fileNo
  at_got : s'.durableOffset (slot got.fileNo) = got.offset
  at_cur : s.curFileNo ≠ got.fileNo →
    s'.durableOffset (slot s.curFileNo) = s.endOffset (slot s.curFileNo)
  others : ∀ f, f ≤ s.active → s.active < f + 4 → f ≠ got.fileNo → f ≠ s.curFileNo →
    s'.durableOffset (slot f) = s.durableOffset (slot f)

variable {got w : LsnEntry}

lemma Inv.moved (h : s.Inv size recovered) (hgot : got ∈ s.fifo)
    (rest : List LsnEntry) : Moved s ({ s with fifo := rest }.gotDurable got) got := by
  have hle := (h.fileNo_le got (h.fifo_mem got hgot)).2
  have hcur := h.cur_le_entry hgot
  have hopen := h.open_le_cur
  have hactive := h.active_le
  unfold gotDurable
  by_cases hclosed : s.active ≤ got.fileNo + 1
  · by_cases hne : s.curFileNo = got.fileNo
    · simp only [hclosed, if_true, setDurable, hne, ne_eq, not_true_eq_false, if_false]
      refine ⟨rfl, update_self .., fun h => absurd hne h, fun f hf hf' hfg _ => ?_⟩
      exact update_of_ne (slot_ne hfg (by omega) (by omega)) ..
    · have hslot := slot_ne hne (by omega) (by omega)
      simp only [hclosed, if_true, setDurable, ne_eq, hne, not_false_eq_true]
      refine ⟨rfl, ?_, fun _ => update_self .., fun f hf hf' hfg hfc => ?_⟩
      · dsimp only
        rw [update_of_ne hslot.symm, update_self]
      · dsimp only
        rw [update_of_ne (slot_ne hfc (by omega) (by omega)),
          update_of_ne (slot_ne hfg (by omega) (by omega))]
  · -- the file is closed, so that its end was durable before
    have hcg : s.curFileNo = got.fileNo := by omega
    have hfull := h.closed s.curFileNo h.kept_cur (by omega)
    have hoffset := h.offset_le got (h.fifo_mem got hgot)
    have hend : s.durableOffset (slot got.fileNo) = got.offset := by
      rw [hcg] at hcur hfull
      omega
    simp only [hclosed, if_false, hcg, ne_eq, not_true_eq_false]
    exact ⟨rfl, hend, fun h => absurd hcg h, fun _ _ _ _ _ => rfl⟩

lemma gotDurable_eq (s : DurableState) (got : LsnEntry) : ∃ durableOffset curFileNo,
    s.gotDurable got = { s with durableOffset := durableOffset, curFileNo := curFileNo } := by
  unfold gotDurable setDurable
  dsimp only
  split_ifs <;> exact ⟨_, _, rfl⟩

section

variable (h : s.Inv size recovered) {e : LsnEntry}
include h

lemma Inv.moved_mono (hgot : got ∈ s.fifo) (hmoved : Moved s s' got) (hf : s.Kept recovered f) :
    s.durableOffset (slot f) ≤ s'.durableOffset (slot f) := by
  have hcur := h.cur_le_entry hgot
  have hle := (h.fileNo_le got (h.fifo_mem got hgot)).2
  obtain ⟨w, hw⟩ := h.cur
  by_cases hfg : f = got.fileNo
  · subst hfg
    rw [hmoved.at_got]
    rcases hcur with hlt | ⟨heq, hoffset⟩
    · rw [h.beyond _ hlt hle]
      exact Nat.zero_le _
    · rw [← heq]
      exact hoffset
  · by_cases hfc : f = s.curFileNo
    · subst hfc
      rw [hmoved.at_cur hfg, h.ended _ hf (by omega), ← hw.offset, ← hw.fileNo]
      exact h.offset_le w hw.mem
    · exact Nat.le_of_eq (hmoved.others f hf.2.1 hf.2.2 hfg hfc).symm

lemma Inv.gotDurable (hfifo : s.fifo = done ++ got :: rest) (hlsn : got.lsn ≤ s.flushedLsn) :
    ({ s with fifo := rest }.gotDurable got).Inv size recovered := by
  have hgot : got ∈ s.fifo := by simp [hfifo]
  have hmoved := h.moved hgot rest
  have hmem : ∀ e ∈ rest, e ∈ s.fifo := fun e he => by simp [hfifo, he]
  have hsorted := h.sorted
  rw [hfifo, pairwise_append, pairwise_cons] at hsorted
  have hcur := h.cur_le_entry hgot
  have hle := (h.fileNo_le got (h.fifo_mem got hgot)).2
  have hopenCur := h.open_le_cur
  have hactiveLe := h.active_le
  obtain ⟨offset, cur, hs⟩ := gotDurable_eq { s with fifo := rest } got
  rw [hs] at hmoved ⊢
  obtain ⟨rfl : cur = _, hat, hatCur, hothers⟩ := id hmoved
  refine ⟨hsorted.2.1.2, fun e he => h.fifo_le e (hmem e he), fun e he => h.fifo_last e ?_,
    fun e he => h.fifo_mem e (hmem e he), h.writes, h.fileNo_le, h.offset_le, h.recovered_le,
    h.open_le, h.active_le, hle, by dsimp only; omega, ⟨got, ?_⟩, fun f hkept => ?_,
    fun f hfc hfa => ?_, h.size_pos, h.ended, fun f hkept hfo => ?_⟩
  · rw [hfifo, getLast?_append_of_ne_nil _ (cons_ne_nil _ _), getLast?_cons, he]
    rfl
  · -- the entry is the write that the durable point is at
    refine ⟨h.fifo_mem got hgot, rfl, hat.symm, hlsn,
      fun e he => Nat.le_of_lt (hsorted.2.1.1 e he), .inl (h.fifo_le got hgot), ?_⟩
    rintro rfl
    exact .inr (h.fifo_last got (by simp [hfifo]))
  · -- durable offsets
    unfold DurableOk
    by_cases hfg : f = got.fileNo
    · subst hfg
      exact .inr (.inl ⟨got, h.fifo_mem got hgot, rfl, hat.symm, hlsn⟩)
    · by_cases hfc : f = s.curFileNo
      · subst hfc
        refine .inr (.inr ⟨?_, got, h.fifo_mem got hgot, by omega, hlsn⟩)
        rw [hatCur hfg, h.ended _ hkept (by omega)]
      · rw [hothers f hkept.2.1 hkept.2.2 hfg hfc]
        exact h.durable f hkept
  · dsimp only at hfc hfa
    rw [hothers f hfa (by omega) (by omega) (by omega)]
    exact h.beyond f (by omega) hfa
  · have hfull := h.closed f hkept hfo
    have hmono := h.moved_mono hgot hmoved hkept
    by_cases hfg : f = got.fileNo
    · subst hfg
      have hoffset := h.offset_le got (h.fifo_mem got hgot)
      omega
    · by_cases hfc : f = s.curFileNo
      · subst hfc
        rw [hatCur hfg, h.ended _ hkept (by omega)]
      · rw [hothers f hkept.2.1 hkept.2.2 hfg hfc, hfull]

/-- `process_durable_lsn()` keeps the invariant, and the durable offsets only grow. -/
lemma Inv.process : (s.processDurableLsn s.flushedLsn).Inv size recovered ∧
      ∀ f, s.Kept recovered f →
        s.durableOffset (slot f) ≤ (s.processDurableLsn s.flushedLsn).durableOffset (slot f) := by
  obtain ⟨heq, -⟩ | ⟨done, got, rest, hfifo, hlsn, -, heq⟩ := s.processDurableLsn_cases s.flushedLsn
  · rw [heq]
    exact ⟨h, fun _ _ => Nat.le_refl _⟩
  · have hgot : got ∈ s.fifo := by simp [hfifo]
    rw [heq]
    exact ⟨h.gotDurable hfifo hlsn, fun f hf => h.moved_mono hgot (h.moved hgot rest) hf⟩

/-! ## The other steps -/

lemma Inv.pushHead (he : e ∈ s.writes) (hlt : s.lastLsnAdded < e.lsn) :
    Inv size { s with fifo := s.pushHead e, lastLsnAdded := e.lsn } recovered := by
  obtain ⟨w, hw⟩ := h.cur
  set kept := if s.fifo.length = fixedSize then s.fifo.dropLast else s.fifo with hkept
  have hsub : kept.Sublist s.fifo := by
    rw [hkept]
    split_ifs
    · exact dropLast_sublist _
    · exact Sublist.refl _
  have hmem : ∀ d ∈ kept, d ∈ s.fifo := fun d hd => hsub.subset hd
  have hpush : s.pushHead e = kept ++ [e] := rfl
  have hle : ∀ d ∈ kept, d.lsn < e.lsn := fun d hd => (h.fifo_le d (hmem d hd)).trans_lt hlt
  have hwe : w.lsn ≤ e.lsn := by
    rcases hw.last with hle | hall
    · omega
    · exact hall e he
  have hall : ∀ P : LsnEntry → Prop, (∀ d ∈ kept, P d) → P e → ∀ d ∈ s.pushHead e, P d :=
    fun P hk he d hd => (mem_append.mp hd).elim (hk d) fun hd => mem_singleton.mp hd ▸ he
  refine { h with
    sorted := ?_
    fifo_le := hall _ (fun d hd => Nat.le_of_lt (hle d hd)) (Nat.le_refl _)
    fifo_last := ?_
    fifo_mem := hall _ (fun d hd => h.fifo_mem d (hmem d hd)) he
    cur := ⟨w, { hw with
      fifo := hall _ (fun d hd => hw.fifo d (hmem d hd)) hwe
      last := .inl hwe
      empty := by simp [hpush] }⟩ }
  · dsimp only
    rw [hpush, pairwise_append]
    refine ⟨h.sorted.sublist hsub, pairwise_singleton _ _, fun d hd x hx => ?_⟩
    rw [mem_singleton.mp hx]
    exact hle d hd
  · dsimp only
    rw [hpush]
    intro d hd
    have hd : e = d := by simpa using hd
    rw [hd]

lemma Inv.addToFifo (he : e ∈ s.writes) : (s.addToFifo e).Inv size recovered ∧
      ∀ f, s.Kept recovered f →
        s.durableOffset (slot f) ≤ (s.addToFifo e).durableOffset (slot f) := by
  unfold DurableState.addToFifo
  split_ifs with hlt
  · exact (h.pushHead he hlt).process
  · exact ⟨h, fun _ _ => Nat.le_refl _⟩

lemma Inv.flush (hlsn : s.flushedLsn ≤ lsn) : Inv size { s with flushedLsn := lsn } recovered := by
  obtain ⟨w, hw⟩ := h.cur
  refine { h with
    cur := ⟨w, { hw with lsn_le := Nat.le_trans hw.lsn_le hlsn }⟩
    durable := fun f hf => ?_ }
  rcases h.durable f hf with h0 | ⟨v, hv, hfile, hoffset, hle⟩ | ⟨hsize, v, hv, hlt, hle⟩
  · exact .inl h0
  · exact .inr (.inl ⟨v, hv, hfile, hoffset, Nat.le_trans hle hlsn⟩)
  · exact .inr (.inr ⟨hsize, v, hv, hlt, Nat.le_trans hle hlsn⟩)

lemma DurableOk.le_size (hf : s.DurableOk size f) : s.durableOffset (slot f) ≤ size f := by
  rcases hf with h0 | ⟨w, hw, hfile, hoffset, -⟩ | ⟨hsize, -⟩
  · rw [h0]
    exact Nat.zero_le _
  · rw [← hoffset, ← hfile]
    exact h.offset_le w hw
  · exact Nat.le_of_eq hsize

lemma Inv.close (hlt : s.firstOpen < s.active)
    (hdurable : s.endOffset (slot s.firstOpen) ≤ s.durableOffset (slot s.firstOpen)) :
    (s.close size).Inv size recovered := by
  obtain ⟨c, hc⟩ := h.cur
  have hactive := h.active_le
  have hkept : s.Kept recovered s.firstOpen := ⟨h.recovered_le, h.open_le, by omega⟩
  have hended := h.ended s.firstOpen hkept hlt
  have hsize := h.size_pos s.firstOpen
  have hcur : s.firstOpen ≤ s.curFileNo := by
    by_contra hlt'
    have := h.beyond s.firstOpen (by omega) h.open_le
    omega
  have hsame : update s.endOffset (slot s.firstOpen) (size s.firstOpen) = s.endOffset := by
    rw [← hended, update_eq_self]
  have hrecovered := h.recovered_le
  unfold DurableState.close
  rw [hsame]
  refine { h with
    recovered_le := Nat.le_succ_of_le hrecovered
    open_le := hlt
    active_le := Nat.le_succ_of_le hactive
    open_le_cur := Nat.succ_le_succ hcur
    cur := ⟨c, { hc with }⟩
    closed := fun f hf hfo => ?_ }
  rcases Nat.lt_succ_iff_lt_or_eq.mp hfo with hfo | rfl
  · exact h.closed f hf hfo
  · have := DurableOk.le_size h (h.durable _ hkept)
    dsimp only
    omega

end

lemma CurWrite.write (hc : s.CurWrite c) (hw : ∀ v ∈ s.writes, Follows w v) :
    c ∈ w :: s.writes ∧ (c.lsn ≤ s.lastLsnAdded ∨ ∀ e ∈ w :: s.writes, c.lsn ≤ e.lsn) := by
  refine ⟨mem_cons_of_mem _ hc.mem, hc.last.imp id fun hall => ?_⟩
  exact forall_mem_cons.mpr ⟨Nat.le_of_lt (hw c hc.mem).1, hall⟩

lemma DurableOk.write (hf : s.DurableOk size f) {s' : DurableState}
    (hdurable : s'.durableOffset (slot f) = s.durableOffset (slot f))
    (hwrites : s'.writes = w :: s.writes) (hflushed : s'.flushedLsn = s.flushedLsn) :
    s'.DurableOk size f := by
  grind [DurableOk]

section

variable (h : s.Inv size recovered) (hfollows : ∀ v ∈ s.writes, Follows w v)
  (hsize : w.offset ≤ size w.fileNo)
include h hfollows hsize

lemma Inv.writeActive (hfile : w.fileNo = s.active) : (s.write size w).Inv size recovered := by
  obtain ⟨c, hc⟩ := h.cur
  have hopen := h.open_le
  have hrecovered := h.recovered_le
  unfold DurableState.write
  rw [if_pos hfile]
  refine { h with
    fifo_mem := fun e he => mem_cons_of_mem _ (h.fifo_mem e he)
    writes := pairwise_cons.mpr ⟨hfollows, h.writes⟩
    fileNo_le := forall_mem_cons.mpr ⟨⟨by omega, Nat.le_of_eq hfile⟩, h.fileNo_le⟩
    offset_le := forall_mem_cons.mpr ⟨hsize, h.offset_le⟩
    cur := ⟨c, { hc with mem := (hc.write hfollows).1, last := (hc.write hfollows).2 }⟩
    durable := fun f hf => (h.durable f hf).write rfl rfl rfl
    ended := fun f hf hfa => ?_ }
  have hkept : s.active < f + 4 := hf.2.2
  dsimp only at hfa ⊢
  rw [update_of_ne (slot_ne (by omega) (by omega) hkept)]
  exact h.ended f hf hfa

lemma Inv.writeNext (hfile : w.fileNo = s.active + 1) (hopen : s.firstOpen = s.active) :
    (s.write size w).Inv size recovered ∧
      ∀ f, s.Kept recovered f → (s.write size w).Kept recovered f →
        s.durableOffset (slot f) ≤ (s.write size w).durableOffset (slot f) := by
  obtain ⟨c, hc⟩ := h.cur
  have hrecovered := h.recovered_le
  have hcur := h.open_le_cur
  have hcurLe := h.cur_le
  unfold DurableState.write
  rw [if_neg (by omega)]
  -- only the slot of the new file is changed
  have hsame : ∀ f, f ≤ s.active → s.active + 1 < f + 4 →
      update s.durableOffset (slot w.fileNo) 0 (slot f) = s.durableOffset (slot f) := by
    intro f hf hf'
    rw [update_of_ne (slot_ne (by omega) (by omega) (by omega))]
  have hkept : ∀ f, recovered.fileNo ≤ f → f ≤ s.active → s.active + 1 < f + 4 →
      s.Kept recovered f := fun f h1 h2 h3 => ⟨h1, h2, by omega⟩
  refine ⟨⟨h.sorted, h.fifo_le, h.fifo_last, fun e he => mem_cons_of_mem _ (h.fifo_mem e he),
    pairwise_cons.mpr ⟨hfollows, h.writes⟩,
    forall_mem_cons.mpr ⟨⟨by omega, Nat.le_refl _⟩, fun v hv => ?_⟩,
    forall_mem_cons.mpr ⟨hsize, h.offset_le⟩, hrecovered, by dsimp only; omega,
    by dsimp only; omega, by dsimp only; omega, hcur,
    ⟨c, (hc.write hfollows).1, hc.fileNo, ?_, hc.lsn_le, hc.fifo, (hc.write hfollows).2,
      hc.empty⟩, fun f hf => ?_, fun f hfc hfa => ?_, h.size_pos, fun f hf hfa => ?_,
    fun f hf hfo => ?_⟩, fun f hf hf' => ?_⟩
  · have := h.fileNo_le v hv
    dsimp only
    omega
  · dsimp only
    rw [hsame _ (by omega) (by omega)]
    exact hc.offset
  · obtain ⟨h1, h2, h3⟩ := hf
    dsimp only at h2 h3
    by_cases hnew : f = w.fileNo
    · subst hnew
      exact .inl (update_self ..)
    · exact (h.durable f (hkept f h1 (by omega) (by omega))).write
        (hsame f (by omega) (by omega)) rfl rfl
  · dsimp only at hfc hfa ⊢
    by_cases hnew : f = w.fileNo
    · subst hnew
      exact update_self ..
    · rw [hsame f (by omega) (by omega)]
      exact h.beyond f hfc (by omega)
  · obtain ⟨h1, h2, h3⟩ := hf
    dsimp only at h2 h3 hfa ⊢
    by_cases hprev : f = s.active
    · subst hprev
      exact update_self ..
    · rw [update_of_ne (slot_ne hprev (by omega) (by omega)),
        update_of_ne (slot_ne (by omega) (by omega) (by omega))]
      exact h.ended f (hkept f h1 (by omega) (by omega)) (by omega)
  · obtain ⟨h1, h2, h3⟩ := hf
    dsimp only at h2 h3 hfo ⊢
    rw [hsame f (by omega) (by omega)]
    exact h.closed f (hkept f h1 (by omega) (by omega)) hfo
  · have h3 := hf'.2.2
    dsimp only at h3 ⊢
    exact Nat.le_of_eq (hsame f hf.2.1 (by omega)).symm

end

lemma Start.inv (h : s.Start size recovered) : s.Inv size recovered := by
  have hkept : ∀ f, s.Kept recovered f → f = recovered.fileNo := by
    rintro f ⟨h1, h2, -⟩
    rw [h.active] at h2
    omega
  have hcurWrite : s.CurWrite recovered :=
    ⟨by simp [h.writes], h.cur.symm, by rw [h.cur, h.durable], h.flushed, by simp [h.fifo],
      .inr (by simp [h.writes]), fun _ => .inl h.last⟩
  have hactive := h.active
  have hopen := h.firstOpen
  have hcur := h.cur
  refine ⟨?_, ?_, ?_, ?_, ?_, ?_, ?_, by omega, by omega, by omega, by omega, by omega,
    ⟨recovered, hcurWrite⟩, fun f hf => ?_, fun f hfc hfa => by omega, h.size_pos,
    fun f hf hfa => ?_, fun f hf hfo => ?_⟩
  · simp [h.fifo]
  · simp [h.fifo]
  · simp [h.fifo]
  · simp [h.fifo]
  · simp [h.writes]
  · simp [h.writes, h.active]
  · simpa [h.writes] using h.offset_le
  · rw [hkept f hf]
    exact .inr (.inl ⟨recovered, by simp [h.writes], rfl, h.durable.symm, h.flushed⟩)
  · have := hkept f hf
    omega
  · have := hkept f hf
    omega

/-- A step keeps the invariant, and the durable offset of a file that is kept does not
decrease. -/
lemma Inv.step (h : s.Inv size recovered) (he : s.Legal size e) :
    (s.step size e).Inv size recovered ∧
      ∀ f, s.Kept recovered f → (s.step size e).Kept recovered f →
        s.durableOffset (slot f) ≤ (s.step size e).durableOffset (slot f) := by
  cases e with
  | write =>
    obtain ⟨hfollows, -, hsize, hfile | ⟨hfile, hopen⟩⟩ := he
    · refine ⟨h.writeActive hfollows hsize hfile, fun f _ _ => Nat.le_of_eq ?_⟩
      simp only [DurableState.step, DurableState.write, if_pos hfile]
    · exact h.writeNext hfollows hsize hfile hopen
  | add =>
    obtain ⟨hinv, hmono⟩ := h.addToFifo he
    exact ⟨hinv, fun f hf _ => hmono f hf⟩
  | flush => exact ⟨h.flush he, fun _ _ _ => Nat.le_refl _⟩
  | process =>
    obtain ⟨hinv, hmono⟩ := h.process
    exact ⟨hinv, fun f hf _ => hmono f hf⟩
  | close => exact ⟨h.close he.1 he.2, fun _ _ _ => Nat.le_refl _⟩

lemma Reached.inv (h : Reached size recovered s added) : s.Inv size recovered := by
  induction h with
  | start hs => exact hs.inv
  | step _ he ih => exact (ih.step he).1

/-- `last_lsn_added` is the largest LSN of the calls, or 0 if there was none. -/
structure AddedOk (s : DurableState) (added : List LsnEntry) : Prop where
  pos : ∀ w ∈ s.writes, 0 < w.lsn
  mem : ∀ e ∈ added, e ∈ s.writes
  le : ∀ e ∈ added, e.lsn ≤ s.lastLsnAdded
  last : s.lastLsnAdded = 0 ∨ ∃ e ∈ added, e.lsn = s.lastLsnAdded

lemma AddedOk.process (h : AddedOk s added) (lsn : Nat) :
    AddedOk (s.processDurableLsn lsn) added := by
  obtain ⟨heq, -⟩ | ⟨_, got, rest, -, -, -, heq⟩ := s.processDurableLsn_cases lsn
  · rwa [heq]
  · obtain ⟨_, _, hgot⟩ := gotDurable_eq { s with fifo := rest } got
    rw [heq, hgot]
    exact { h with }

lemma AddedOk.step (h : AddedOk s added) (hinv : s.Inv size recovered) (he : s.Legal size e) :
    AddedOk (s.step size e) (e.added ++ added) := by
  cases e with
  | write w =>
    obtain ⟨c, hc⟩ := hinv.cur
    have hpos : 0 < w.lsn := (Nat.zero_le _).trans_lt (he.1 c hc.mem).1
    simp only [DurableState.step, DurableState.write]
    split_ifs
    all_goals exact ⟨forall_mem_cons.mpr ⟨hpos, h.pos⟩,
      fun e hmem => mem_cons_of_mem _ (h.mem e hmem), h.le, h.last⟩
  | add e =>
    simp only [DurableState.step, DurableState.addToFifo]
    split_ifs with hlt
    · refine AddedOk.process (s := { s with fifo := s.pushHead e, lastLsnAdded := e.lsn })
        ⟨h.pos, forall_mem_cons.mpr ⟨he, h.mem⟩, ?_, ?_⟩ _
      · exact forall_mem_cons.mpr ⟨le_rfl, fun d hd => (h.le d hd).trans hlt.le⟩
      · exact .inr ⟨e, mem_cons_self .., rfl⟩
    · exact ⟨h.pos, forall_mem_cons.mpr ⟨he, h.mem⟩, forall_mem_cons.mpr ⟨not_lt.mp hlt, h.le⟩,
        h.last.imp_right fun ⟨d, hd, heq⟩ => ⟨d, mem_cons_of_mem _ hd, heq⟩⟩
  | process => exact h.process _
  | flush | close => exact { h with }

lemma Reached.addedOk (h : Reached size recovered s added) : AddedOk s added := by
  induction h with
  | start hs =>
    refine ⟨?_, by simp, by simp, .inl hs.last⟩
    rw [hs.writes]
    exact forall_mem_singleton.mpr hs.lsn_pos
  | step hs he ih => exact ih.step hs.inv he

/-- When the log is flushed up to the last LSN that was added, the durable point is at the end
of that write. -/
lemma Inv.process_last (h : s.Inv size recovered) (hlast : s.lastLsnAdded ≠ 0)
    (hflushed : s.lastLsnAdded ≤ s.flushedLsn) (hw : w ∈ s.writes) (hlsn : w.lsn = s.lastLsnAdded) :
    (s.processDurableLsn s.flushedLsn).curFileNo = w.fileNo ∧
      (s.processDurableLsn s.flushedLsn).durableOffset (slot w.fileNo) = w.offset := by
  obtain ⟨heq, hhead⟩ | ⟨done, got, rest, hfifo, -, hhead, heq⟩ :=
    s.processDurableLsn_cases s.flushedLsn
  · -- everything that was added is durable already
    have hempty : s.fifo = [] := by
      cases hf : s.fifo with
      | nil => rfl
      | cons e =>
        have hle := h.fifo_le e (by simp [hf])
        have hlt := hhead e (by simp [hf])
        omega
    obtain ⟨c, hc⟩ := h.cur
    have hcw := (hc.empty hempty).resolve_left hlast
    obtain ⟨hfile, hoffset⟩ := same_position h.writes hc.mem hw (hcw.trans hlsn.symm)
    rw [heq, ← hfile, ← hoffset, hc.fileNo, hc.offset]
    exact ⟨rfl, rfl⟩
  · have hgot : got ∈ s.fifo := by simp [hfifo]
    have hrest : rest = [] := by
      cases hr : rest with
      | nil => rfl
      | cons e =>
        have hle := h.fifo_le e (by simp [hfifo, hr])
        have hlt := hhead e (by simp [hr])
        omega
    have hgotLsn := h.fifo_last got (by simp [hfifo, hrest])
    obtain ⟨hfile, hoffset⟩ := same_position h.writes (h.fifo_mem got hgot) hw
      (hgotLsn.trans hlsn.symm)
    have hmoved := h.moved hgot rest
    rw [heq, ← hfile, ← hoffset]
    exact ⟨hmoved.cur, hmoved.at_got⟩

end

/-- In every state that is reached, the durable offset of each file is right, no step makes it
smaller, and when the log is flushed up to the largest LSN of the calls of `add_to_fifo()`, the
durable point is at the end of that write. -/
theorem durable_of_reached {size : Nat → Nat} {recovered : LsnEntry} {s : DurableState}
    {added : List LsnEntry} (h : Reached size recovered s added) :
    (∀ f, s.Kept recovered f → s.DurableOk size f) ∧
      (∀ e, s.Legal size e → ∀ f, s.Kept recovered f → (s.step size e).Kept recovered f →
        s.durableOffset (slot f) ≤ (s.step size e).durableOffset (slot f)) ∧
      ∀ w ∈ added, (∀ v ∈ added, v.lsn ≤ w.lsn) → w.lsn ≤ s.flushedLsn →
        (s.step size .process).curFileNo = w.fileNo ∧
          (s.step size .process).durableOffset (slot w.fileNo) = w.offset := by
  refine ⟨h.inv.durable, fun _ he => (h.inv.step he).2, fun w hw hmax hflushed => ?_⟩
  have hok := h.addedOk
  have hpos := hok.pos w (hok.mem w hw)
  have hle := hok.le w hw
  have hlsn : w.lsn = s.lastLsnAdded := by
    obtain hzero | ⟨e, he, heq⟩ := hok.last
    · omega
    · exact hle.antisymm (heq ▸ hmax e he)
  exact h.inv.process_last (by omega) (by omega) (hok.mem w hw) hlsn

/-- Two writes are added in the wrong order. -/
def flushedWrite : DurableState :=
  [.write ⟨5, 0, 20⟩, .write ⟨6, 0, 30⟩, .add ⟨6, 0, 30⟩, .add ⟨5, 0, 20⟩, .flush 6].foldl
    (step fun _ => 100) ⟨[], 0, 0, fun _ => 0, fun _ => 0, 0, 0, 1, [⟨1, 0, 0⟩]⟩

theorem durable_of_reached_flushedWrite :
    (flushedWrite.step (fun _ => 100) .process).durableOffset (slot 0) = 30 := by
  have h0 : Reached (fun _ => 100) ⟨1, 0, 0⟩
      ⟨[], 0, 0, fun _ => 0, fun _ => 0, 0, 0, 1, [⟨1, 0, 0⟩]⟩ [] :=
    .start ⟨rfl, rfl, rfl, rfl, rfl, rfl, rfl, by decide, rfl, by decide, by decide,
      fun _ => by decide⟩
  have h1 := h0.step (e := .write ⟨5, 0, 20⟩) ⟨by simp [Follows], by decide, by decide, .inl rfl⟩
  have h2 := h1.step (e := .write ⟨6, 0, 30⟩)
    ⟨by simp [DurableState.step, DurableState.write, Follows], by decide, by decide, .inl rfl⟩
  have h3 := h2.step (e := .add ⟨6, 0, 30⟩) (mem_cons_self ..)
  have h4 := h3.step (e := .add ⟨5, 0, 20⟩) (by simp only [Legal]; decide)
  have h5 := h4.step (e := .flush 6) (by decide : 1 ≤ 6)
  exact ((durable_of_reached h5).2.2 ⟨6, 0, 30⟩ (by decide) (by decide) (by decide)).2

end DurableState

end MariaDB.Binlog
