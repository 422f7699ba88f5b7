import Mathlib

/-!
# Log checkpoints and the binlog

Binlog pages are not in the buffer pool. They are in a fifo of their own, of the pages of two
files, and `log_checkpoint()` has them written before it chooses the LSN of the checkpoint: a
binlog write behind that LSN is not recovered. One mini-transaction at a time writes to the
binlog; the page fifo is flushed by a thread of its own as well.
-/
namespace MariaDB.Binlog

open Function List

/-- `fsp_binlog_page_entry`. `unflushed` has the start LSNs of committed mini-transactions with
data on the page that is not in the file; `pending` is whether the mini-transaction that is
not yet committed has such data. -/
structure PageEntry where
  pageNo : Nat
  complete : Bool
  flushedClean : Bool
  latched : Bool
  pending : Bool
  unflushed : List Nat
  deriving DecidableEq

namespace PageEntry

/-- The page with a chunk of the current mini-transaction. The last page of a file is latched
until the mini-transaction is committed. -/
def write (e : PageEntry) (complete last : Bool) : PageEntry :=
  { e with complete := complete, flushedClean := false, latched := last, pending := true }

def commit (start : Nat) (e : PageEntry) : PageEntry :=
  { e with
    latched := false
    pending := false
    unflushed := if e.pending then start :: e.unflushed else e.unflushed }

def clean (e : PageEntry) : PageEntry :=
  { e with flushedClean := true, pending := false, unflushed := [] }

end PageEntry

/-- Where `log_checkpoint()` is. -/
inductive CheckpointPc
  | idle
  /-- `binlog_write_up_to_now()` has read the active file and the page. -/
  | flushing (fileNo pageNo : Nat)
  /-- `flush_up_to()` has returned, and the LSN is not yet chosen. -/
  | flushed
  deriving DecidableEq

/-- The page fifo, the position of the writer (`binlog_cur_page_no` and its local variables),
and the log. -/
structure CheckpointState where
  firstFileNo : Nat
  firstPageNo : Nat → Nat
  entries : Nat → List PageEntry
  active : Nat
  curPageNo : Nat
  fileNo : Nat
  pageNo : Nat
  lsn : Nat
  checkpointLsn : Nat
  /-- Of each thread that makes checkpoints. -/
  pc : Nat → CheckpointPc

inductive CheckpointEvent
  /-- The writer puts a chunk on its page, which it creates if need be. -/
  | chunk (complete : Bool)
  /-- The writer moves to the next file. -/
  | nextFile
  /-- The end of `fsp_binlog_write_rec()`. -/
  | endRec
  | commit (len : Nat)
  /-- `flush_one_page()`, by any thread. -/
  | flush (fileNo : Nat)
  /-- A file is closed. -/
  | close
  | readPosition (thread : Nat)
  /-- `flush_up_to()` returns. -/
  | flushDone (thread : Nat)
  | chooseLsn (thread lsn : Nat)

namespace CheckpointState

variable (size : Nat → Nat) (s : CheckpointState)

def setEntries (fileNo : Nat) (l : List PageEntry) : CheckpointState :=
  { s with entries := update s.entries fileNo l }

def chunk (complete : Bool) : CheckpointState :=
  let last := decide (s.pageNo + 1 = size s.fileNo)
  let l := s.entries s.fileNo
  let l' :=
    if s.pageNo = s.firstPageNo s.fileNo + l.length then
      l ++ [PageEntry.write ⟨s.pageNo, false, false, false, false, []⟩ complete last]
    else l.modify (s.pageNo - s.firstPageNo s.fileNo) (·.write complete last)
  { s.setEntries s.fileNo l' with pageNo := if complete then s.pageNo + 1 else s.pageNo }

/-- The first page of a file is written; it leaves the fifo if it is complete. -/
def flush (f : Nat) : CheckpointState :=
  match s.entries f with
  | [] => s
  | e :: rest =>
    if e.complete then
      { s.setEntries f rest with
        firstPageNo := update s.firstPageNo f (s.firstPageNo f + 1) }
    else
      s.setEntries f (e.clean :: rest)

def step : CheckpointEvent → CheckpointState
  | .chunk complete => s.chunk size complete
  | .nextFile => { s with fileNo := s.fileNo + 1, pageNo := 0, curPageNo := 0 }
  | .endRec => { s with active := s.fileNo, curPageNo := s.pageNo }
  | .commit len =>
    { s with
      entries := fun f => (s.entries f).map (PageEntry.commit s.lsn)
      lsn := s.lsn + len }
  | .flush f => s.flush f
  | .close => { s with firstFileNo := s.firstFileNo + 1 }
  | .readPosition t => { s with pc := update s.pc t (.flushing s.active s.curPageNo) }
  | .flushDone t => { s with pc := update s.pc t .flushed }
  | .chooseLsn t lsn => { s with checkpointLsn := lsn, pc := update s.pc t .idle }

/-- The conditions on which the loop of `flush_up_to()` ends. -/
def FlushedUpTo (fileNo pageNo : Nat) : Prop :=
  fileNo < s.firstFileNo ∨ (fileNo = s.firstFileNo ∧ pageNo < s.firstPageNo fileNo) ∨
    s.firstFileNo + 1 < fileNo ∨ s.entries fileNo = [] ∨
    ∃ e, s.entries fileNo = [e] ∧ e.complete = false ∧ e.flushedClean = true

/-- The events that can happen. Pages are created one after the other, and a page that is
complete is not written to. The writer moves to the next file when its file is full, which
is the first one of the fifo then. A page of the second file is flushed after those of the
first file. -/
def Legal : CheckpointEvent → Prop
  | .chunk _ => s.pageNo < size s.fileNo ∧ s.firstPageNo s.fileNo ≤ s.pageNo ∧
      (s.pageNo = s.firstPageNo s.fileNo + (s.entries s.fileNo).length ∨
        s.pageNo + 1 = s.firstPageNo s.fileNo + (s.entries s.fileNo).length)
  | .nextFile => s.pageNo = size s.fileNo ∧ s.fileNo = s.active ∧ s.active = s.firstFileNo
  | .endRec => s.fileNo = s.active ∨ s.entries s.fileNo ≠ []
  | .commit len => 0 < len ∧ s.fileNo = s.active ∧ s.pageNo = s.curPageNo
  | .flush f => (f = s.firstFileNo ∨ f = s.firstFileNo + 1 ∧ s.entries s.firstFileNo = []) ∧
      ∀ e ∈ (s.entries f).head?, e.latched = false
  | .close => s.firstFileNo < s.active ∧ s.entries s.firstFileNo = []
  | .readPosition t => s.pc t = .idle
  | .flushDone t =>
    ∃ fileNo pageNo, s.pc t = .flushing fileNo pageNo ∧ s.FlushedUpTo fileNo pageNo
  | .chooseLsn t lsn => s.pc t = .flushed ∧ lsn ≤ s.lsn

/-- The server has started, with at most one page in the fifo, which is in the file. -/
structure Start : Prop where
  active : s.active = s.firstFileNo
  fileNo : s.fileNo = s.firstFileNo
  pageNo : s.pageNo = s.curPageNo
  entries : s.entries s.firstFileNo = [] ∧ s.firstPageNo s.firstFileNo = s.pageNo ∨
    s.entries s.firstFileNo = [⟨s.pageNo, false, true, false, false, []⟩] ∧
      s.firstPageNo s.firstFileNo = s.pageNo
  others : ∀ f, f ≠ s.firstFileNo → s.entries f = [] ∧ s.firstPageNo f = 0
  checkpoint_le : s.checkpointLsn ≤ s.lsn
  idle : ∀ t, s.pc t = .idle

/-- The states that are reached if every event meets a condition. -/
inductive Reached (cond : CheckpointState → CheckpointEvent → Prop) : CheckpointState → Prop
  | start {s : CheckpointState} : s.Start → Reached cond s
  | step {s : CheckpointState} {e : CheckpointEvent} :
      Reached cond s → s.Legal size e → cond s e → Reached cond (s.step size e)

/-- The checkpoint is not behind the start of a committed mini-transaction with data that is
not in the binlog file. -/
def Safe : Prop := ∀ f, ∀ e ∈ s.entries f, ∀ start ∈ e.unflushed, s.checkpointLsn ≤ start

/-- No binlog write is committed while a checkpoint is under way. -/
def NoCommitInCheckpoint : CheckpointEvent → Prop
  | .commit _ => ∀ t, s.pc t = .idle
  | _ => True

/-- A checkpoint does not start while the writer has moved to the next file and the active file
is still the previous one. -/
def NoCheckpointInSwitch : CheckpointEvent → Prop
  | .readPosition _ => s.fileNo = s.active
  | _ => True

/-! ### What a step does to the pages -/

variable {size s}

lemma flush_eq (s : CheckpointState) (f : Nat) :
    ∃ entries firstPageNo, s.flush f = { s with entries, firstPageNo } := by
  unfold flush
  split
  · exact ⟨_, _, rfl⟩
  · split <;> exact ⟨_, _, rfl⟩

@[simp]
lemma flush_pc (s : CheckpointState) (f : Nat) : (s.flush f).pc = s.pc := by
  obtain ⟨_, _, h⟩ := flush_eq s f
  rw [h]

variable {f i t : Nat} {e : PageEntry} {ev : CheckpointEvent} {complete : Bool}

lemma flush_entries_of_ne (h : g ≠ f) : (s.flush f).entries g = s.entries g := by
  unfold flush
  split
  · rfl
  · split <;> simp [setEntries, update_of_ne h]

lemma chunk_entries_ne_nil (h : s.Legal size (.chunk complete)) :
    (s.chunk size complete).entries s.fileNo ≠ [] := by
  simp only [chunk, setEntries, update_self]
  split
  · simp
  · have hlen : (s.entries s.fileNo).length ≠ 0 := by
      have := h.2
      omega
    intro h0
    exact hlen (by simpa using congrArg length h0)

/-- Where the page at place `i` of file `f` comes from. -/
inductive PageStep (s : CheckpointState) (ev : CheckpointEvent) (t : CheckpointState)
    (f i : Nat) : PageEntry → Prop
  | kept {e : PageEntry} {j : Nat} : (s.entries f)[j]? = some e →
      t.firstPageNo f + i = s.firstPageNo f + j → PageStep s ev t f i e
  | written {e : PageEntry} (complete last : Bool) : f = s.fileNo → (s.entries f)[i]? = some e →
      t.firstPageNo f = s.firstPageNo f → PageStep s ev t f i (e.write complete last)
  | created (complete last : Bool) : f = s.fileNo → s.pageNo = t.firstPageNo f + i →
      PageStep s ev t f i (PageEntry.write ⟨s.pageNo, false, false, false, false, []⟩ complete last)
  | cleaned {e : PageEntry} : f = s.firstFileNo ∨ s.entries s.firstFileNo = [] →
      (s.entries f)[i]? = some e → t.firstPageNo f = s.firstPageNo f → PageStep s ev t f i e.clean
  | committed {e : PageEntry} (len : Nat) : ev = .commit len → (s.entries f)[i]? = some e →
      t.firstPageNo f = s.firstPageNo f → PageStep s ev t f i (e.commit s.lsn)

lemma PageStep.of_chunk (h : ((s.chunk size complete).entries f)[i]? = some e) :
    PageStep s (.chunk complete) (s.chunk size complete) f i e := by
  by_cases hf : f = s.fileNo
  · subst hf
    simp only [chunk, setEntries, update_self] at h
    split at h
    · rename_i hnew
      rw [getElem?_append] at h
      split at h
      · exact .kept h rfl
      · rename_i hi
        obtain ⟨hi', rfl⟩ : i - (s.entries s.fileNo).length = 0 ∧ _ = e := by
          simpa [getElem?_singleton] using h
        exact .created _ _ rfl (by simp only [chunk, setEntries]; omega)
    · rw [getElem?_modify] at h
      obtain ⟨e', he', rfl⟩ := Option.map_eq_some_iff.mp h
      split
      · exact .written _ _ rfl he' rfl
      · exact .kept he' rfl
  · simp only [chunk, setEntries, update_of_ne hf] at h
    exact .kept h rfl

lemma PageStep.of_flush (hl : s.Legal size (.flush g)) (h : ((s.flush g).entries f)[i]? = some e) :
    PageStep s (.flush g) (s.flush g) f i e := by
  unfold flush at h ⊢
  split at h
  · exact .kept h rfl
  · rename_i e₀ rest hg
    by_cases hf : f = g
    · subst hf
      by_cases hc : e₀.complete
      · simp only [hc, if_true, setEntries, update_self] at h
        refine .kept (j := i + 1) (by rw [hg]; exact h) ?_
        simp only [hc, if_true, update_self]
        omega
      · rw [if_neg hc] at h ⊢
        simp only [setEntries, update_self] at h
        have hfirst : f = s.firstFileNo ∨ s.entries s.firstFileNo = [] := hl.1.imp id (fun h => h.2)
        cases i with
        | zero =>
          obtain rfl : e₀.clean = e := by simpa using h
          exact .cleaned hfirst (by rw [hg]; rfl) rfl
        | succ i => exact .kept (j := i + 1) (by rw [hg]; exact h) rfl
    · split at h <;> simp only [setEntries, update_of_ne hf] at h <;>
        exact .kept h (by simp [*, setEntries])

lemma PageStep.of_step (hl : s.Legal size ev) (h : ((s.step size ev).entries f)[i]? = some e) :
    PageStep s ev (s.step size ev) f i e := by
  cases ev with
  | chunk => exact .of_chunk h
  | flush => exact .of_flush hl h
  | commit len =>
    simp only [step, getElem?_map] at h
    obtain ⟨e', he', rfl⟩ := Option.map_eq_some_iff.mp h
    exact .committed len rfl he' rfl
  | _ => exact .kept h rfl

/-! ### The page fifo -/

structure FifoOk (s : CheckpointState) : Prop where
  first_le : s.firstFileNo ≤ s.active
  active_le : s.active ≤ s.fileNo
  fileNo_le : s.fileNo ≤ s.firstFileNo + 1
  live : ∀ {f i : Nat} {e : PageEntry}, (s.entries f)[i]? = some e →
    s.firstFileNo ≤ f ∧ f ≤ s.fileNo ∧ (f = s.fileNo → e.pageNo ≤ s.pageNo)
  consecutive : ∀ {f i : Nat} {e : PageEntry}, (s.entries f)[i]? = some e →
    e.pageNo = s.firstPageNo f + i
  clean : ∀ {f i : Nat} {e : PageEntry}, (s.entries f)[i]? = some e → e.flushedClean →
    e.unflushed = [] ∧ e.pending = false
  /-- The pages of the second file are not flushed before those of the first one, and the first
  file is active as long as the second one has none. -/
  second : s.fileNo = s.firstFileNo + 1 → s.entries s.firstFileNo ≠ [] →
    (∀ (i : Nat) (e : PageEntry), (s.entries s.fileNo)[i]? = some e → e.flushedClean = false) ∧
      (s.entries s.fileNo = [] → s.active = s.firstFileNo)

lemma Start.page (h : s.Start) (he : (s.entries f)[i]? = some e) :
    f = s.firstFileNo ∧ i = 0 ∧ e = ⟨s.pageNo, false, true, false, false, []⟩ ∧
      s.firstPageNo f = s.pageNo := by
  grind [Start]

lemma FifoOk.of_start (h : s.Start) : FifoOk s where
  first_le := Nat.le_of_eq h.active.symm
  active_le := Nat.le_of_eq (h.active.trans h.fileNo.symm)
  fileNo_le := by rw [h.fileNo]; omega
  live he := by
    obtain ⟨rfl, -, rfl, -⟩ := h.page he
    exact ⟨Nat.le_refl _, Nat.le_of_eq h.fileNo.symm, fun _ => Nat.le_refl _⟩
  consecutive he := by
    obtain ⟨-, rfl, rfl, hp⟩ := h.page he
    exact hp.symm
  clean he _ := by
    obtain ⟨-, -, rfl, -⟩ := h.page he
    exact ⟨rfl, rfl⟩
  second h1 := by
    rw [h.fileNo] at h1
    omega

variable (h : FifoOk s) (hp : PageStep s ev (s.step size ev) f i e) {p start : Nat}

include h hp in
lemma FifoOk.page_of_step :
    s.firstFileNo ≤ f ∧ f ≤ s.fileNo ∧ (f = s.fileNo → e.pageNo ≤ s.pageNo) := by
  cases hp with
  | created _ _ hf _ =>
    exact ⟨hf ▸ Nat.le_trans h.first_le h.active_le, Nat.le_of_eq hf, fun _ => Nat.le_refl _⟩
  | kept he _ | written _ _ _ he _ | cleaned _ he _ | committed _ _ he _ => exact (h.live he :)

lemma FifoOk.live_step (h : FifoOk s) (hl : s.Legal size ev) (he :
    ((s.step size ev).entries f)[i]? = some e) :
    (s.step size ev).firstFileNo ≤ f ∧ f ≤ (s.step size ev).fileNo ∧
      (f = (s.step size ev).fileNo → e.pageNo ≤ (s.step size ev).pageNo) := by
  obtain ⟨h1, h2, h3⟩ := h.page_of_step (PageStep.of_step hl he)
  cases ev with
  | chunk =>
    refine ⟨h1, h2, fun hf => Nat.le_trans (h3 hf) ?_⟩
    simp only [step, chunk]
    split <;> omega
  | nextFile =>
    simp only [step]
    exact ⟨h1, by omega, fun hf => by omega⟩
  | flush g =>
    obtain ⟨en, fp, hs⟩ := flush_eq s g
    simp only [step, hs]
    exact ⟨h1, h2, h3⟩
  | close =>
    have hf : f ≠ s.firstFileNo := by
      rintro rfl
      simp [step, hl.2] at he
    exact ⟨by simp only [step]; omega, h2, h3⟩
  | _ => exact ⟨h1, h2, h3⟩

include h hp in
lemma FifoOk.consecutive_step : e.pageNo = (s.step size ev).firstPageNo f + i := by
  cases hp with
  | kept he hi => rw [hi, h.consecutive he]
  | created _ _ _ hi => exact hi
  | written _ _ _ he hf | cleaned _ he hf | committed _ _ he hf =>
    rw [hf]
    exact (h.consecutive he :)

include h hp in
lemma FifoOk.clean_step (hc : e.flushedClean) : e.unflushed = [] ∧ e.pending = false := by
  cases hp with
  | kept he => exact h.clean he hc
  | written | created => cases hc
  | cleaned => exact ⟨rfl, rfl⟩
  | committed _ _ he =>
    obtain ⟨hu, hp⟩ := h.clean he hc
    simp [PageEntry.commit, hu, hp]

lemma PageStep.exists_old {t : CheckpointState} (hp : PageStep s ev t f i e)
    (hf : f ≠ s.fileNo) : s.entries f ≠ [] := by
  cases hp <;> grind

lemma FifoOk.not_flushedClean_step (h : FifoOk s)
    (h1 : s.fileNo = s.firstFileNo + 1) (h0 : s.entries s.firstFileNo ≠ []) (hp : PageStep s ev
    (s.step size ev) s.fileNo i e) :
    e.flushedClean = false := by
  have hold := (h.second h1 h0).1
  cases hp with
  | kept he _ => exact hold _ _ he
  | written _ _ _ _ _ | created _ _ _ _ => rfl
  | cleaned hf => exact absurd hf (by rintro (hf | hf) <;> [omega; exact h0 hf])
  | committed _ _ he _ => exact (hold _ _ he :)

def SecondOk (s : CheckpointState) : Prop :=
  (∀ (i : Nat) (e : PageEntry), (s.entries s.fileNo)[i]? = some e → e.flushedClean = false) ∧
    (s.entries s.fileNo = [] → s.active = s.firstFileNo)

lemma FifoOk.second_step (h : FifoOk s) (hl : s.Legal size ev)
    (h1 : (s.step size ev).fileNo = (s.step size ev).firstFileNo + 1)
    (h0 : (s.step size ev).entries (s.step size ev).firstFileNo ≠ []) :
    SecondOk (s.step size ev) := by
  -- The first file had pages before the step too.
  have hold : (s.step size ev).firstFileNo = s.firstFileNo → s.firstFileNo ≠ s.fileNo →
      s.entries s.firstFileNo ≠ [] := by
    intro hfirst hne
    rw [hfirst] at h0
    obtain ⟨e, he⟩ := exists_mem_of_ne_nil _ h0
    obtain ⟨i, hi⟩ := mem_iff_getElem?.mp he
    exact (PageStep.of_step hl hi).exists_old hne
  -- So those of the second file are not flushed, and it is left to show which file is active.
  have hsecond : (s.step size ev).firstFileNo = s.firstFileNo → (s.step size ev).fileNo = s.fileNo →
      (s.fileNo = s.firstFileNo + 1 → s.entries s.firstFileNo ≠ [] →
        (s.step size ev).entries s.fileNo = [] → (s.step size ev).active = s.firstFileNo) →
      SecondOk (s.step size ev) := by
    intro hfirst hfile hactive
    rw [SecondOk, hfile, hfirst]
    rw [hfile, hfirst] at h1
    have h0' := hold hfirst (by omega)
    exact ⟨fun _ _ he => h.not_flushedClean_step h1 h0' (PageStep.of_step hl he), hactive h1 h0'⟩
  cases ev with
  | nextFile =>
    have hnil : s.entries (s.fileNo + 1) = [] := by
      refine eq_nil_iff_forall_not_mem.mpr fun e he => ?_
      obtain ⟨i, hi⟩ := mem_iff_getElem?.mp he
      have := (h.live hi).2.1
      omega
    simp only [SecondOk, step, hnil]
    exact ⟨by simp, fun _ => hl.2.2⟩
  | close =>
    have := h.fileNo_le
    simp only [step] at h1
    omega
  | chunk =>
    exact hsecond rfl rfl fun _ _ hnil => absurd hnil (chunk_entries_ne_nil hl)
  | flush g =>
    obtain ⟨en, fp, hs⟩ := flush_eq s g
    refine hsecond (by simp only [step, hs]) (by simp only [step, hs]) fun h1 h0' hnil => ?_
    refine Eq.trans (by simp only [step, hs]) ((h.second h1 h0').2 ?_)
    rwa [step, flush_entries_of_ne] at hnil
    rintro rfl
    exact hl.1.elim (by omega) fun h => h0' h.2
  | endRec =>
    refine hsecond rfl rfl fun h1 h0 hnil => ?_
    have hactive : s.fileNo = s.active := hl.resolve_right fun hne => hne hnil
    exact hactive.trans ((h.second h1 h0).2 hnil)
  | commit =>
    exact hsecond rfl rfl fun h1 h0 hnil => (h.second h1 h0).2 (map_eq_nil_iff.mp hnil)
  | readPosition _ | flushDone _ | chooseLsn _ _ => exact h.second h1 h0

lemma FifoOk.step (h : FifoOk s) (hl : s.Legal size ev) : FifoOk (s.step size ev) := by
  have hfiles : (s.step size ev).firstFileNo ≤ (s.step size ev).active ∧
      (s.step size ev).active ≤ (s.step size ev).fileNo ∧
      (s.step size ev).fileNo ≤ (s.step size ev).firstFileNo + 1 := by
    have h1 := h.first_le
    have h2 := h.active_le
    have h3 := h.fileNo_le
    cases ev with
    | flush g =>
      obtain ⟨en, fp, hs⟩ := flush_eq s g
      simp only [CheckpointState.step, hs]
      exact ⟨h1, h2, h3⟩
    | nextFile => have := hl.2; simp only [CheckpointState.step]; omega
    | close => have := hl.1; simp only [CheckpointState.step]; omega
    | endRec => simp only [CheckpointState.step]; omega
    | _ => exact ⟨h1, h2, h3⟩
  exact {
    first_le := hfiles.1
    active_le := hfiles.2.1
    fileNo_le := hfiles.2.2
    live := h.live_step hl
    consecutive := fun he => h.consecutive_step (PageStep.of_step hl he)
    clean := fun he => h.clean_step (PageStep.of_step hl he)
    second := h.second_step hl }

/-! ### What a checkpoint covers -/

/-- A committed mini-transaction that started at `start` has data on page `p` of file `f` which
is not in the file. -/
def Dirty (s : CheckpointState) (f p start : Nat) : Prop :=
  ∃ (i : Nat) (e : PageEntry), (s.entries f)[i]? = some e ∧ e.pageNo = p ∧ start ∈ e.unflushed

lemma safe_iff_dirty : s.Safe ↔ ∀ f p start, s.Dirty f p start → s.checkpointLsn ≤ start := by
  constructor
  · rintro h f p start ⟨i, e, he, -, hs⟩
    exact h f e (mem_of_getElem? he) start hs
  · intro h f e he start hs
    obtain ⟨i, hi⟩ := mem_iff_getElem?.mp he
    exact h f e.pageNo start ⟨i, e, hi, rfl, hs⟩

/-- Only a commit makes data dirty, and the data of the committed mini-transaction is not behind
the position of the writer. -/
lemma Dirty.of_step (h : FifoOk s) (hl : s.Legal size ev) (hd : (s.step size ev).Dirty f p start) :
    s.Dirty f p start ∨ (∃ len, ev = .commit len) ∧ start = s.lsn ∧ f ≤ s.fileNo ∧
      (f = s.fileNo → p ≤ s.pageNo) := by
  obtain ⟨i, e, he, rfl, hs⟩ := hd
  have hp := PageStep.of_step hl he
  have hpage := h.page_of_step hp
  cases hp with
  | kept hold _ | written _ _ _ hold _ => exact .inl ⟨_, _, hold, rfl, hs⟩
  | created => simp [PageEntry.write] at hs
  | cleaned => simp [PageEntry.clean] at hs
  | committed len hev hold _ =>
    simp only [PageEntry.commit] at hs
    split at hs
    · obtain rfl | hs := mem_cons.mp hs
      · exact .inr ⟨⟨len, hev⟩, rfl, hpage.2⟩
      · exact .inl ⟨_, _, hold, rfl, hs⟩
    · exact .inl ⟨_, _, hold, rfl, hs⟩

/-- What holds of the checkpoints in a run that meets the conditions. -/
structure Covered (s : CheckpointState) : Prop where
  checkpoint_le : s.checkpointLsn ≤ s.lsn
  safe : ∀ f p start, s.Dirty f p start → s.checkpointLsn ≤ start
  /-- Dirty data is up to the position that a checkpoint would read. -/
  position : ∀ f p start, s.Dirty f p start →
    f ≤ s.active ∧ (f = s.active → s.fileNo = s.active → p ≤ s.curPageNo)
  flushing : ∀ t fileNo pageNo, s.pc t = .flushing fileNo pageNo → fileNo ≤ s.active ∧
    ∀ f p start, s.Dirty f p start → f ≤ fileNo ∧ (f = fileNo → p ≤ pageNo)
  flushed : ∀ t, s.pc t = .flushed → ∀ f p start, ¬ s.Dirty f p start

lemma FlushedUpTo.not_dirty {fileNo pageNo : Nat} (h : FifoOk s) (hn : fileNo ≤ s.active)
    (hup : s.FlushedUpTo fileNo pageNo)
    (hle : f ≤ fileNo ∧ (f = fileNo → p ≤ pageNo)) : ¬ s.Dirty f p start := by
  rintro ⟨i, e, he, rfl, hs⟩
  have h1 := h.first_le
  have h2 := h.active_le
  have h3 := h.fileNo_le
  have h4 := (h.live he).1
  have hcons := h.consecutive he
  -- If the file is not the one that is flushed, then it is the first one, and it has a page.
  have hfirst : f ≠ fileNo → s.fileNo = s.firstFileNo + 1 ∧ fileNo = s.fileNo ∧
      s.active = s.fileNo ∧ s.entries s.firstFileNo ≠ [] := by
    intro hne
    obtain rfl : f = s.firstFileNo := by omega
    refine ⟨by omega, by omega, by omega, fun h0 => ?_⟩
    simp [h0] at he
  rcases hup with hup | ⟨rfl, hup⟩ | hup | hup | ⟨e', hup, -, hclean⟩
  · omega
  · obtain rfl : f = s.firstFileNo := by omega
    have := hle.2 rfl
    omega
  · omega
  · by_cases hf : f = fileNo
    · subst hf
      simp [hup] at he
    · obtain ⟨h5, rfl, h6, h0⟩ := hfirst hf
      have := (h.second h5 h0).2 hup
      omega
  · by_cases hf : f = fileNo
    · subst hf
      obtain ⟨-, rfl⟩ : i = 0 ∧ e' = e := by simpa [hup, getElem?_singleton] using he
      simp [(h.clean he hclean).1] at hs
    · obtain ⟨h5, rfl, -, h0⟩ := hfirst hf
      have := (h.second h5 h0).1 0 e' (by rw [hup]; rfl)
      simp [this] at hclean

lemma Covered.of_start (h : s.Start) : Covered s := by
  have hdirty : ∀ f p start, ¬ s.Dirty f p start := by
    rintro f p start ⟨i, e, he, -, hs⟩
    obtain ⟨-, -, rfl, -⟩ := h.page he
    cases hs
  exact {
    checkpoint_le := h.checkpoint_le
    safe := fun f p start hd => absurd hd (hdirty f p start)
    position := fun f p start hd => absurd hd (hdirty f p start)
    flushing := fun t _ _ ht => by simp [h.idle t] at ht
    flushed := fun t ht => by simp [h.idle t] at ht }

lemma Covered.mono {t : CheckpointState} (h : Covered s)
    (hd : ∀ f p start, t.Dirty f p start → s.Dirty f p start)
    (hlsn : t.lsn = s.lsn) (hcp : t.checkpointLsn = s.checkpointLsn) (hpc : t.pc = s.pc)
    (hactive : s.active ≤ t.active)
    (hpos : ∀ f p start, t.Dirty f p start →
      f ≤ t.active ∧ (f = t.active → t.fileNo = t.active → p ≤ t.curPageNo)) : Covered t where
  checkpoint_le := by rw [hlsn, hcp]; exact h.checkpoint_le
  safe f p start hf := by rw [hcp]; exact h.safe f p start (hd _ _ _ hf)
  position := hpos
  flushing t fileNo pageNo ht := by
    obtain ⟨hle, hcov⟩ := h.flushing t fileNo pageNo (by rw [← hpc]; exact ht)
    exact ⟨Nat.le_trans hle hactive, fun f p start hf => hcov f p start (hd _ _ _ hf)⟩
  flushed t ht f p start hf := h.flushed t (by rw [← hpc]; exact ht) f p start (hd _ _ _ hf)

lemma Covered.commit_step {len : Nat} (hq : FifoOk s) (h : Covered s)
    (hl : s.Legal size (.commit len)) (hc : s.NoCommitInCheckpoint (.commit len)) :
    Covered (s.step size (.commit len)) := by
  have hstep := fun {f p start} (hd : (s.step size (.commit len)).Dirty f p start) =>
    hd.of_step hq hl
  obtain ⟨-, hfile, hpage⟩ := hl
  have hidle : ∀ t, (s.step size (.commit len)).pc t = .idle := hc
  have hcp := h.checkpoint_le
  refine ⟨Nat.le_trans hcp (Nat.le_add_right _ _), fun f p start hd => ?_, fun f p start hd => ?_,
    fun t _ _ ht => by simp [hidle t] at ht, fun t ht => by simp [hidle t] at ht⟩
  · obtain hd | ⟨-, rfl, -⟩ := hstep hd
    · exact h.safe f p start hd
    · exact hcp
  · obtain hd | ⟨-, -, hle, hp⟩ := hstep hd
    · exact h.position f p start hd
    · exact ⟨hfile ▸ hle, fun hf _ => hpage ▸ hp (hf.trans hfile.symm)⟩

/-- A thread goes to another place of `log_checkpoint()`. -/
lemma Covered.setPc {pc : CheckpointPc} (h : Covered s)
    (hflushing : ∀ fileNo pageNo, pc = .flushing fileNo pageNo → fileNo ≤ s.active ∧
      ∀ f p start, s.Dirty f p start → f ≤ fileNo ∧ (f = fileNo → p ≤ pageNo))
    (hflushed : pc = .flushed → ∀ f p start, ¬ s.Dirty f p start) :
    Covered { s with pc := update s.pc t pc } := by
  refine ⟨h.checkpoint_le, h.safe, h.position, fun u fileNo pageNo hu => ?_, fun u hu => ?_⟩ <;>
    simp only [update_apply] at hu <;> split at hu
  · exact hflushing fileNo pageNo hu
  · exact h.flushing u fileNo pageNo hu
  · exact hflushed hu
  · exact h.flushed u hu

lemma Covered.readPosition_step (h : Covered s) (hc : s.NoCheckpointInSwitch (.readPosition t)) :
    Covered (s.step size (.readPosition t)) := by
  refine h.setPc (fun fileNo pageNo hu => ?_) nofun
  obtain ⟨rfl, rfl⟩ : s.active = fileNo ∧ s.curPageNo = pageNo := by simpa using hu
  refine ⟨Nat.le_refl _, fun f p start hd => ?_⟩
  obtain ⟨hle, hp⟩ := h.position f p start hd
  exact ⟨hle, fun hf => hp hf hc⟩

lemma Covered.flushDone_step (hq : FifoOk s) (h : Covered s)
    (hl : s.Legal size (.flushDone t)) : Covered (s.step size (.flushDone t)) := by
  obtain ⟨fileNo, pageNo, ht, hup⟩ := hl
  obtain ⟨hn, hcov⟩ := h.flushing t fileNo pageNo ht
  exact h.setPc nofun fun _ f p start hd => hup.not_dirty hq hn (hcov f p start hd) hd

lemma Covered.chooseLsn_step {lsn : Nat} (h : Covered s)
    (hl : s.Legal size (.chooseLsn t lsn)) : Covered (s.step size (.chooseLsn t lsn)) := by
  obtain ⟨ht, hlsn⟩ := hl
  have hpc : Covered { s with pc := update s.pc t .idle } := h.setPc nofun nofun
  exact ⟨hlsn, fun f p start hd => absurd hd (h.flushed t ht f p start), h.position,
    hpc.flushing, hpc.flushed⟩

lemma Covered.step (hq : FifoOk s) (h : Covered s)
    (hl : s.Legal size ev) (hc : s.NoCommitInCheckpoint ev) (hc' : s.NoCheckpointInSwitch ev) :
    Covered (s.step size ev) := by
  cases ev with
  | commit => exact h.commit_step hq hl hc
  | readPosition => exact h.readPosition_step hc'
  | flushDone => exact h.flushDone_step hq hl
  | chooseLsn => exact h.chooseLsn_step hl
  | close => exact { h with }
  | nextFile =>
    refine h.mono (fun _ _ _ hd => hd) rfl rfl rfl (Nat.le_refl _) fun f p start hd => ?_
    have := hl.2.1
    refine ⟨(h.position f p start hd).1, fun _ hf => ?_⟩
    simp only [CheckpointState.step] at hf
    omega
  | endRec =>
    refine h.mono (fun _ _ _ hd => hd) rfl rfl rfl hq.active_le ?_
    rintro f p start ⟨i, e, he, rfl, hs⟩
    obtain ⟨-, hle, hp⟩ := hq.live he
    exact ⟨hle, fun hf _ => hp hf⟩
  | chunk complete =>
    have hd : ∀ f p start, (s.step size (.chunk complete)).Dirty f p start → s.Dirty f p start :=
      fun f p start hd => (hd.of_step hq hl).resolve_right (by simp)
    exact h.mono hd rfl rfl rfl (Nat.le_refl _) fun f p st hf => h.position f p st (hd _ _ _ hf)
  | flush g =>
    have hd : ∀ f p start, (s.step size (.flush g)).Dirty f p start → s.Dirty f p start :=
      fun f p start hd => (hd.of_step hq hl).resolve_right (by simp)
    obtain ⟨en, fp, hs⟩ := flush_eq s g
    simp only [CheckpointState.step, hs] at hd ⊢
    exact h.mono hd rfl rfl rfl (Nat.le_refl _) fun f p st hf => h.position f p st (hd _ _ _ hf)

lemma Reached.ok {cond : CheckpointState → CheckpointEvent → Prop}
    (hcond : ∀ s ev, cond s ev → s.NoCommitInCheckpoint ev ∧ s.NoCheckpointInSwitch ev)
    (h : Reached size cond s) : FifoOk s ∧ Covered s := by
  induction h with
  | start h => exact ⟨.of_start h, .of_start h⟩
  | step _ hl hc ih =>
    obtain ⟨hc1, hc2⟩ := hcond _ _ hc
    exact ⟨ih.1.step hl, ih.2.step ih.1 hl hc1 hc2⟩

/-- If no binlog write is committed while a checkpoint is under way, and no checkpoint starts
while the writer moves to the next file, then the LSN of the checkpoint is never behind a
committed binlog write that is not in the binlog file. -/
theorem safe_of_reached
    (h : Reached size (fun s ev => s.NoCommitInCheckpoint ev ∧ s.NoCheckpointInSwitch ev) s) :
    s.Safe :=
  safe_iff_dirty.mpr (h.ok fun _ _ h => h).2.safe

def newServer : CheckpointState where
  firstFileNo := 0
  firstPageNo _ := 0
  entries _ := []
  active := 0
  curPageNo := 0
  fileNo := 0
  pageNo := 0
  lsn := 0
  checkpointLsn := 0
  pc _ := .idle

lemma newServer_start : newServer.Start where
  active := rfl
  fileNo := rfl
  pageNo := rfl
  entries := .inl ⟨rfl, rfl⟩
  others _ _ := ⟨rfl, rfl⟩
  checkpoint_le := Nat.le_refl _
  idle _ := rfl

/-- A record on the first two pages is committed and flushed, and a checkpoint is made; the next
record is committed after it and not flushed. -/
theorem safe_of_reached_newServer :
    ∃ s : CheckpointState, s.checkpointLsn = 1 ∧ (s.entries 0).map (·.unflushed) = [[1]] ∧
      s.Safe := by
  refine ⟨_, ?_, ?_, @safe_of_reached (fun _ => 4) _
    (.step (e := .commit 1) (.step (e := .endRec) (.step (e := .chunk false)
    (.step (e := .chooseLsn 0 1) (.step (e := .flushDone 0) (.step (e := .readPosition 0)
    (.step (e := .flush 0) (.step (e := .flush 0) (.step (e := .commit 1) (.step (e := .endRec)
    (.step (e := .chunk false) (.step (e := .chunk true) (.start newServer_start)
    ?_ ⟨trivial, trivial⟩)
    ?_ ⟨trivial, trivial⟩)
    (.inl rfl) ⟨trivial, trivial⟩)
    ?_ ⟨fun _ => rfl, trivial⟩)
    ⟨.inl rfl, by decide⟩ ⟨trivial, trivial⟩)
    ⟨.inl rfl, by decide⟩ ⟨trivial, trivial⟩)
    rfl ⟨trivial, rfl⟩)
    ⟨0, 1, rfl, .inr (.inr (.inr (.inr ⟨_, rfl, rfl, rfl⟩)))⟩ ⟨trivial, trivial⟩)
    ⟨rfl, by decide⟩ ⟨trivial, trivial⟩)
    ?_ ⟨trivial, trivial⟩)
    (.inl rfl) ⟨trivial, trivial⟩)
    ?_ ⟨fun t => ?_, trivial⟩)⟩
  all_goals try exact ⟨by decide, by decide, by decide⟩
  · rfl
  · rfl
  · by_cases ht : t = 0 <;> simp [step, chunk, setEntries, newServer, ht]

/-- Without the first condition, a write is committed after the flush and before the LSN is
chosen. Without the second one, `flush_up_to(0, 0)` returns at once, since page 0 is flushed. -/
theorem not_safe :
    (∃ s, Reached (fun _ => 4) (fun s ev => s.NoCheckpointInSwitch ev) s ∧ ¬ s.Safe) ∧
      ∃ s, Reached (fun _ => 4) (fun s ev => s.NoCommitInCheckpoint ev) s ∧ ¬ s.Safe := by
  constructor
  · refine ⟨_, .step (e := .chooseLsn 0 1) (.step (e := .commit 1) (.step (e := .endRec)
      (.step (e := .chunk false) (.step (e := .flushDone 0) (.step (e := .readPosition 0)
      (.start newServer_start) rfl rfl)
      ⟨0, 0, rfl, .inr (.inr (.inr (.inl rfl)))⟩ trivial)
      ?_ trivial)
      (.inl rfl) trivial)
      ?_ trivial)
      ⟨rfl, by decide⟩ trivial, fun h => ?_⟩
    all_goals try exact ⟨by decide, by decide, by decide⟩
    exact absurd (h 0 ⟨0, false, false, false, false, [0]⟩ (by decide) 0 (by decide)) (by decide)
  · refine ⟨_, .step (e := .chooseLsn 0 1) (.step (e := .flushDone 0) (.step (e := .readPosition 0)
      (.step (e := .nextFile) (.step (e := .chunk true) (.step (e := .flush 0)
      (.step (e := .commit 1) (.step (e := .endRec) (.step (e := .chunk false)
      (.step (e := .chunk true) (.step (e := .chunk true) (.step (e := .chunk true)
      (.start newServer_start)
      ?_ trivial)
      ?_ trivial)
      ?_ trivial)
      ?_ trivial)
      (.inl rfl) trivial)
      ?_ (fun _ => rfl))
      ⟨.inl rfl, by decide⟩ trivial)
      ?_ trivial)
      ?_ trivial)
      rfl trivial)
      ⟨0, 0, rfl, .inr (.inl ⟨rfl, by decide⟩)⟩ trivial)
      ⟨rfl, by decide⟩ trivial, fun h => ?_⟩
    all_goals try exact ⟨by decide, by decide, by decide⟩
    exact absurd (h 0 ⟨1, true, false, false, false, [0]⟩ (by decide) 0 (by decide)) (by decide)

end CheckpointState

end MariaDB.Binlog
