import MariaDB.Binlog.FileRefs

/-!
# Holders of references

Transactions write out-of-band data, roll back to savepoints, commit and are reset; prepared
transactions register their XID until they are unlogged. The first node of a transaction
takes a reference on the file that is active before the node is written. The reference is
released on the file where the node starts.
-/
namespace MariaDB.Binlog

open Library List

/-- The server: its binlog files, the contexts of its transactions, and the registered XIDs
with `refcnt_file_no`. A context whose group was written is not used again before it is
reset. -/
structure RefState (ι κ : Type) where
  refs : FileRefs
  ctxs : ι → OobCtx
  written : ι → Bool
  xids : List (κ × Nat)

inductive RefEvent (ι κ : Type)
  | createFile
  /-- A record of another kind is written and passes the end of `k` files. -/
  | writeRec (k : Nat)
  /-- `innodb_binlog_oob_ordered()`; the piece passes the end of `k` files and starts at a
  position. -/
  | oob (t : ι) (data : List UInt8) (stmtStart savepoint : Bool) (k : Nat) (pos : BinlogPos)
  | rollbackToSavepoint (t : ι) (i : Nat)
  | rollbackToStmtStart (t : ι)
  /-- `innodb_binlog_write_cache()`, with a second context for non-transactional data. -/
  | commit (t : ι) (second : Option ι) (userXa : Bool) (k : Nat)
  | reset (t : ι)
  | xaPrepare (t : ι) (xid : κ) (k : Nat)
  | xaUnlog (xid : κ)

namespace RefState

variable {ι κ : Type} [DecidableEq ι] [DecidableEq κ]

structure Start (s : RefState ι κ) : Prop where
  no_refs : ∀ f n, s.refs.files f = some n → n = 0
  earliest : s.refs.earliest = s.refs.active
  active_le : s.refs.active ≤ s.refs.lastCreated
  present : ∀ f, s.refs.active ≤ f → f ≤ s.refs.lastCreated → (s.refs.files f).isSome
  beyond : ∀ f, s.refs.lastCreated < f → s.refs.files f = none
  ctxs : ∀ t, s.ctxs t = OobCtx.alloc
  written : ∀ t, s.written t = false
  xids : s.xids = []

def setCtx (s : RefState ι κ) (t : ι) (c : OobCtx) : RefState ι κ :=
  { s with ctxs := Function.update s.ctxs t c }

def release (s : RefState ι κ) (t : ι) : RefState ι κ :=
  if (s.ctxs t).pendingRefcount then
    { s with refs := s.refs.oobRefDec (s.ctxs t).firstNode.1 }.setCtx t
      { s.ctxs t with pendingRefcount := false }
  else s

def oobOrdered (s : RefState ι κ) (t : ι) (data : List UInt8) (stmtStart savepoint : Bool) (k : Nat)
    (pos : BinlogPos) : RefState ι κ :=
  if (s.ctxs t).isXaPrepared then s else
  let c := (s.ctxs t).setPoints stmtStart savepoint
  if data = [] then s.setCtx t c
  else if c.nodeList = [] then
    -- the reference is counted before the record is written
    match s.refs.oobRefInc s.refs.active with
    | none => { s with refs := s.refs.writeRec k }.setCtx t (c.binlogPiece pos false)
    | some refs => { s with refs := refs.writeRec k }.setCtx t (c.binlogPiece pos true)
  else { s with refs := s.refs.writeRec k }.setCtx t (c.binlogPiece pos true)

def afterCopyData (s : RefState ι κ) (t : ι) (second : Option ι) : RefState ι κ :=
  if (s.ctxs t).pendingRefcount then
    match second with
    | none => s.release t
    | some u => (s.release t).release u
  else s

def setWritten (s : RefState ι κ) (t : ι) (second : Option ι) : RefState ι κ :=
  { s with written := fun u => s.written u || u = t || second = some u }

/-- `innodb_binlog_write_cache()`; the second context is linked unless this is the commit of a
prepared transaction, or there is no out-of-band data. -/
def commit (s : RefState ι κ) (t : ι) (second : Option ι) (userXa : Bool) (k : Nat) :
    RefState ι κ :=
  let linked := if userXa ∨ (s.ctxs t).nodeList = [] then none else second
  ({ s with refs := s.refs.writeRec k }.afterCopyData t linked).setWritten t second

/-- `reset_oob_context()`. -/
def reset (s : RefState ι κ) (t : ι) : RefState ι κ :=
  let s := s.release t
  { s.setCtx t (s.ctxs t).reset with written := Function.update s.written t false }

/-- `add_xid()`, which fails if the XID is registered already. -/
def addXid (s : RefState ι κ) (xid : κ) (fileNo : Nat) : RefState ι κ :=
  if xid ∈ s.xids.map Prod.fst then s
  else
    { s with
      refs := (s.refs.oobRefInc fileNo).getD s.refs
      xids := (xid, fileNo) :: s.xids }

/-- `ibb_write_xa_prepare_ordered()` and `ibb_write_xa_prepare()`. -/
def xaPrepare (s : RefState ι κ) (t : ι) (xid : κ) (k : Nat) : RefState ι κ :=
  let s := { s with refs := s.refs.writeRec k }
  if (s.ctxs t).nodeList = [] then s.addXid xid s.refs.active
  else s.addXid xid (s.ctxs t).firstNode.1

/-- `ibb_binlog_unlog()`. -/
def xaUnlog (s : RefState ι κ) (xid : κ) : RefState ι κ :=
  match s.xids.find? fun x => x.1 = xid with
  | none => s
  | some x => { s with refs := s.refs.oobRefDec x.2, xids := s.xids.erase x }

def step (s : RefState ι κ) : RefEvent ι κ → RefState ι κ
  | .createFile => { s with refs := s.refs.createFile }
  | .writeRec k => { s with refs := s.refs.writeRec k }
  | .oob t data stmtStart savepoint k pos => s.oobOrdered t data stmtStart savepoint k pos
  | .rollbackToSavepoint t i => s.setCtx t ((s.ctxs t).rollbackToSavepoint i)
  | .rollbackToStmtStart t => s.setCtx t (s.ctxs t).rollbackToStmtStart
  | .commit t second userXa k => s.commit t second userXa k
  | .reset t => s.reset t
  | .xaPrepare t xid k => s.xaPrepare t xid k
  | .xaUnlog xid => s.xaUnlog xid

/-- The events that can happen: a record is written into files that exist and starts in one
of them, a context is not used between the commit and the reset, and rollbacks are to
points that were set. -/
def Legal (s : RefState ι κ) : RefEvent ι κ → Prop
  | .createFile => True
  | .writeRec k => s.refs.active + k ≤ s.refs.lastCreated
  | .oob t _ _ _ k pos => s.written t = false ∧ s.refs.active + k ≤ s.refs.lastCreated ∧
      s.refs.active ≤ pos.1 ∧ pos.1 ≤ s.refs.active + k
  | .rollbackToSavepoint t i => s.written t = false ∧ i < (s.ctxs t).savepointStack.length
  | .rollbackToStmtStart t => s.written t = false ∧ (s.ctxs t).stmtStartPoint.isSome
  | .commit t second _ k => s.written t = false ∧ second ≠ some t ∧
      s.refs.active + k ≤ s.refs.lastCreated
  | .reset _ => True
  | .xaPrepare t _ k => s.written t = false ∧ s.refs.active + k ≤ s.refs.lastCreated
  | .xaUnlog _ => True

/-- When a first node is written, the context has no reference yet, and the node starts in
the file that is active before. -/
def FirstNodeOk (s : RefState ι κ) : RefEvent ι κ → Prop
  | .oob t data _ _ _ pos => data ≠ [] → (s.ctxs t).nodeList = [] →
      (s.ctxs t).pendingRefcount = false ∧ pos.1 = s.refs.active
  | _ => True

/-- The states that are reached if every event meets a condition. -/
inductive Reached (cond : RefState ι κ → RefEvent ι κ → Prop) : RefState ι κ → Prop
  | start {s : RefState ι κ} : s.Start → Reached cond s
  | step {s : RefState ι κ} {e : RefEvent ι κ} :
      Reached cond s → s.Legal e → cond s e → Reached cond (s.step e)

def held (c : OobCtx) : Option Nat := if c.pendingRefcount then some c.firstNode.1 else none

/-- The holders of a file: transactions with a pending reference, and registered XIDs. -/
def holders [Fintype ι] (s : RefState ι κ) (f : Nat) : Nat :=
  holding (fun t => held (s.ctxs t)) f + s.xids.countP fun x => x.2 = f

/-- The count of each file is the number of its holders, no release makes a count wrap
around, the counts are zero when there are no holders, and `earliest_oob_ref` is not greater
than a file with references. -/
structure Balanced [Fintype ι] (s : RefState ι κ) : Prop where
  counted : ∀ f n, s.refs.files f = some n → n = s.holders f
  ctx_pos : ∀ t f, held (s.ctxs t) = some f → ∃ n, s.refs.files f = some n ∧ 0 < n
  xid_pos : ∀ x ∈ s.xids, ∃ n, s.refs.files x.2 = some n ∧ 0 < n
  zero : (∀ t, (s.ctxs t).pendingRefcount = false) → s.xids = [] →
    ∀ f n, s.refs.files f = some n → n = 0
  earliest_le : ∀ f n, s.refs.files f = some n → 0 < n → s.refs.earliest ≤ f

/-! ## The invariant -/

structure CtxEmpty (c : OobCtx) : Prop where
  nodeList : c.nodeList = []
  savepoints : ∀ roots ∈ c.savepointStack, roots = []
  stmtStart : ∀ roots, c.stmtStartPoint = some roots → roots = []

structure Inv [Fintype ι] (s : RefState ι κ) : Prop where
  files : FilesOk s.refs s.holders
  ctxs : ∀ t, s.written t = false → (s.ctxs t).pendingRefcount = false → CtxEmpty (s.ctxs t)

section

variable [Fintype ι] {s : RefState ι κ}

section

omit [DecidableEq κ]

lemma held_eq_some : held c = some f ↔ c.pendingRefcount = true ∧ c.firstNode.1 = f := by
  simp [held]

omit [DecidableEq ι] in
lemma holders_pos_of_held (h : held (s.ctxs t) = some f) : 0 < s.holders f :=
  Nat.add_pos_left (holding_pos (h := fun u => held (s.ctxs u)) h) _

omit [DecidableEq ι] in
lemma holders_pos_of_xid (h : x ∈ s.xids) : 0 < s.holders x.2 :=
  Nat.add_pos_right _ (countP_pos_iff.mpr ⟨x, h, by simp⟩)

omit [DecidableEq ι] in
lemma Inv.balanced (h : s.Inv) : s.Balanced where
  counted := h.files.counted
  ctx_pos t f hf := h.files.isSome_of_count (holders_pos_of_held hf)
  xid_pos x hx := h.files.isSome_of_count (holders_pos_of_xid hx)
  zero hctxs hxids f n hn := by
    rw [h.files.counted f n hn, holders, hxids, countP_nil, add_zero]
    exact holding_eq_zero (fun t => by simp [held, hctxs t]) f
  earliest_le f n hn hpos := by
    rw [h.files.counted f n hn] at hpos
    exact h.files.earliest_le f hpos

attribute [local simp] RefState.setCtx OobCtx.binlogPiece RefState.reset OobCtx.alloc setCtx

omit [DecidableEq ι] in
lemma Start.inv (h : s.Start) : s.Inv where
  files := by
    have hzero : ∀ f, s.holders f = 0 := by
      intro f
      rw [holders, h.xids, countP_nil, add_zero]
      exact holding_eq_zero (fun t => by simp [held, h.ctxs t]) f
    refine ⟨fun f n hn => ?_, fun f _ => hzero f, fun f hf => ?_, h.earliest.le, h.active_le,
      h.present, h.beyond⟩
    · rw [hzero, h.no_refs f n hn]
    · rw [hzero] at hf
      omega
  ctxs t _ _ := by
    rw [h.ctxs t]
    exact ⟨rfl, by simp, by simp⟩

omit [Fintype ι] in
lemma held_setCtx (t : ι) (c : OobCtx) : (fun u => held ((s.setCtx t c).ctxs u)) =
      Function.update (fun u => held (s.ctxs u)) t (held c) := by
  funext u
  by_cases hu : u = t
  · subst hu
    simp
  · simp [hu]

/-- A context changes but keeps its reference. -/
lemma holders_setCtx (hheld : held c = held (s.ctxs t)) : (s.setCtx t c).holders = s.holders := by
  funext f
  simp only [holders]
  rw [held_setCtx, hheld, Function.update_eq_self]
  rfl

lemma Inv.setCtx (h : s.Inv) (hheld : held c = held (s.ctxs t))
    (hctx : s.written t = false → c.pendingRefcount = false → CtxEmpty c) : (s.setCtx t c).Inv where
  files := by
    rw [holders_setCtx hheld]
    exact h.files
  ctxs u hu := by
    by_cases hut : u = t
    · subst hut
      simpa using hctx hu
    · simpa [hut] using h.ctxs u hu

omit [DecidableEq ι] in
lemma Inv.writeRec (h : s.Inv) (hk : s.refs.active + k ≤ s.refs.lastCreated) :
    Inv { s with refs := s.refs.writeRec k } :=
  ⟨h.files.writeRec hk, h.ctxs⟩

/-! ## Releases -/

/-- The state after a release, but for the condition on contexts without a reference. -/
lemma release_files (h : FilesOk s.refs s.holders) (t : ι) :
    FilesOk (s.release t).refs (s.release t).holders := by
  unfold release
  split_ifs with hpending
  · have hheld : held (s.ctxs t) = some (s.ctxs t).firstNode.1 := held_eq_some.mpr ⟨hpending, rfl⟩
    refine (h.oobRefDec fun g => ?_).1
    simp only [holders]
    rw [held_setCtx]
    have hrelease := holding_release (h := fun u => held (s.ctxs u)) hheld g
    have hnone : held { s.ctxs t with pendingRefcount := false } = none := by simp [held]
    rw [hnone]
    dsimp only [RefState.setCtx]
    omega
  · exact h

omit [Fintype ι] in
@[simp] lemma release_written (s : RefState ι κ) (t : ι) : (s.release t).written = s.written := by
  unfold release
  split_ifs <;> rfl

omit [Fintype ι] in
@[simp] lemma release_ctxs_of_ne (hu : u ≠ t) : (s.release t).ctxs u = s.ctxs u := by
  unfold release
  split_ifs
  · simp [hu]
  · rfl

omit [Fintype ι] in
lemma release_pending (s : RefState ι κ) (t : ι) :
    ((s.release t).ctxs t).pendingRefcount = false := by
  unfold release
  split_ifs with h
  · simp
  · simpa using h

/-- A commit releases the references of its contexts, or leaves them to the reset. -/
lemma afterCopyData_files (h : FilesOk s.refs s.holders) (t : ι) (second : Option ι) :
    FilesOk (s.afterCopyData t second).refs (s.afterCopyData t second).holders := by
  unfold afterCopyData
  split_ifs
  · cases second with
    | none => exact release_files h t
    | some u => exact release_files (release_files h t) u
  · exact h

omit [Fintype ι] in
lemma afterCopyData_other (hut : u ≠ t) (hu : second ≠ some u) :
    (s.afterCopyData t second).ctxs u = s.ctxs u := by
  unfold afterCopyData
  grind [release_ctxs_of_ne]

omit [Fintype ι] in
@[simp] lemma afterCopyData_written (s : RefState ι κ) (t : ι) (second : Option ι) :
    (s.afterCopyData t second).written = s.written := by
  unfold afterCopyData
  split_ifs
  · cases second <;> simp
  · rfl

lemma Inv.commit (h : s.Inv) (userXa : Bool)
    (hk : s.refs.active + k ≤ s.refs.lastCreated) : (s.commit t second userXa k).Inv := by
  have hwrite := h.writeRec hk
  unfold RefState.commit
  set linked := if userXa ∨ (s.ctxs t).nodeList = [] then none else second with hlinked
  refine ⟨afterCopyData_files hwrite.files t linked, fun u hu hp => ?_⟩
  simp only [setWritten, afterCopyData_written, Bool.or_eq_false_iff, decide_eq_false_iff_not] at hu
  have hother : linked ≠ some u := by
    rw [hlinked]
    split_ifs
    · simp
    · exact hu.2
  have hctx := afterCopyData_other (s := { s with refs := s.refs.writeRec k }) hu.1.2 hother
  simp only [setWritten, hctx] at hp ⊢
  exact h.ctxs u hu.1.1 hp

lemma Inv.reset (h : s.Inv) (t : ι) : (s.reset t).Inv := by
  have hpending := s.release_pending t
  have hheld : held ((s.release t).ctxs t).reset = held ((s.release t).ctxs t) := by
    simp [held, OobCtx.reset, hpending]
  refine ⟨?_, fun u hu hp => ?_⟩
  · have hfiles := release_files h.files t
    rw [← holders_setCtx hheld] at hfiles
    exact hfiles
  · by_cases hut : u = t
    · subst hut
      have hctx : ((s.reset u).ctxs u) = ((s.release u).ctxs u).reset := by simp
      rw [hctx]
      refine ⟨rfl, by simp [OobCtx.reset], fun roots hroots => ?_⟩
      obtain ⟨_, _, rfl⟩ := Option.map_eq_some_iff.mp hroots
      rfl
    · have hctx : (s.reset t).ctxs u = s.ctxs u := by simp [hut]
      have hw : (s.reset t).written u = s.written u := by simp [hut]
      rw [hctx] at hp ⊢
      exact h.ctxs u (hw ▸ hu) hp

/-! ## Out-of-band pieces -/

lemma setPoints_spec (c : OobCtx) (stmtStart savepoint : Bool) :
    (c.setPoints stmtStart savepoint).nodeList = c.nodeList ∧
      (c.setPoints stmtStart savepoint).pendingRefcount = c.pendingRefcount ∧
      held (c.setPoints stmtStart savepoint) = held c ∧
      (CtxEmpty c → CtxEmpty (c.setPoints stmtStart savepoint)) := by
  have hstart : CtxEmpty c → CtxEmpty c.createStmtStartPoint := by
    intro h
    refine ⟨h.nodeList, h.savepoints, ?_⟩
    rintro roots ⟨⟩
    exact h.nodeList
  have hsave : ∀ c : OobCtx, CtxEmpty c → CtxEmpty c.createSavepoint := by
    intro c h
    exact ⟨h.nodeList, forall_mem_cons.mpr ⟨h.nodeList, h.savepoints⟩, h.stmtStart⟩
  cases stmtStart <;> cases savepoint
  · exact ⟨rfl, rfl, rfl, id⟩
  · exact ⟨rfl, rfl, rfl, hsave c⟩
  · exact ⟨rfl, rfl, rfl, hstart⟩
  · exact ⟨rfl, rfl, rfl, fun h => hsave _ (hstart h)⟩

lemma Inv.firstNode (h : s.Inv) (hc : held c = held (s.ctxs t)) (hnil : c.nodeList = [])
    (hpending : c.pendingRefcount = false) (hk : s.refs.active + k ≤ s.refs.lastCreated)
    (hpos : pos.1 = s.refs.active) :
    ∃ refs, s.refs.oobRefInc s.refs.active = some refs ∧
      ({ s with refs := refs.writeRec k }.setCtx t (c.binlogPiece pos true)).Inv := by
  obtain ⟨refs, hrefs, hok, hactive, hlast⟩ := h.files.oobRefInc
    (h.files.present _ le_rfl h.files.active_le) h.files.earliest_le_active
  refine ⟨refs, hrefs, ?_, fun u hu => ?_⟩
  · have hheld : held (c.binlogPiece pos true) = some s.refs.active := by simp [held, hnil, hpos]
    have hnone : held (s.ctxs t) = none := by
      rw [← hc]
      simp [held, hpending]
    have hholders : ({ s with refs := refs.writeRec k }.setCtx t (c.binlogPiece pos true)).holders =
        fun g => s.holders g + if g = s.refs.active then 1 else 0 := by
      funext g
      simp only [holders]
      rw [held_setCtx, hheld]
      have hacquire := holding_acquire (h := fun u => held (s.ctxs u)) hnone s.refs.active g
      dsimp only [RefState.setCtx]
      omega
    rw [hholders]
    exact hok.writeRec (by omega)
  · by_cases hut : u = t
    · subst hut
      simp [hnil]
    · simpa [hut] using h.ctxs u hu

lemma Inv.oobOrdered (h : s.Inv) (hlegal : s.Legal (.oob t data stmtStart savepoint k pos))
    (hfirst : s.FirstNodeOk (.oob t data stmtStart savepoint k pos)) :
    (s.oobOrdered t data stmtStart savepoint k pos).Inv := by
  obtain ⟨hwritten, hk, -, -⟩ := hlegal
  obtain ⟨hlist, hpending, hheld, hempty⟩ := setPoints_spec (s.ctxs t) stmtStart savepoint
  have hctx := h.ctxs t hwritten
  unfold RefState.oobOrdered
  generalize (s.ctxs t).setPoints stmtStart savepoint = c at *
  dsimp only
  split_ifs with hxa hdata hnil
  · exact h
  · exact h.setCtx hheld fun _ hp => hempty (hctx (hpending ▸ hp))
  · obtain ⟨hp, hpos⟩ := hfirst hdata (hlist ▸ hnil)
    obtain ⟨refs, hrefs, hinv⟩ := h.firstNode hheld hnil (hpending.trans hp) hk hpos
    rwa [hrefs]
  · have hpiece : held (c.binlogPiece pos true) = held c := by simp [held, hnil]
    refine (h.writeRec hk).setCtx (hpiece.trans hheld) fun _ hp => ?_
    -- a context with nodes holds a reference
    have hp' : (s.ctxs t).pendingRefcount = false := by
      rw [← hpending]
      simpa [hnil] using hp
    exact absurd (hlist.trans (hctx hp').nodeList) hnil

end

/-! ## XIDs -/

section

omit [DecidableEq ι]

lemma Inv.addXid (h : s.Inv) (xid : κ) (hf : (s.refs.files f).isSome)
    (hearliest : s.refs.earliest ≤ f) : (s.addXid xid f).Inv := by
  unfold RefState.addXid
  split_ifs
  · exact h
  · obtain ⟨refs, hrefs, hok, -, -⟩ := h.files.oobRefInc hf hearliest
    refine ⟨?_, h.ctxs⟩
    rw [hrefs, Option.getD_some]
    convert hok using 1
    funext g
    simp only [holders, countP_cons, decide_eq_true_eq, eq_comm (a := f)]
    omega

lemma Inv.xaPrepare (h : s.Inv) (xid : κ) (hwritten : s.written t = false)
    (hk : s.refs.active + k ≤ s.refs.lastCreated) : (s.xaPrepare t xid k).Inv := by
  have hwrite := h.writeRec hk
  unfold RefState.xaPrepare
  dsimp only
  split_ifs with hnil
  · exact hwrite.addXid xid (hwrite.files.present _ le_rfl hwrite.files.active_le)
      hwrite.files.earliest_le_active
  · have hpending : (s.ctxs t).pendingRefcount = true := by
      by_contra hpending
      exact hnil (h.ctxs t hwritten (by simpa using hpending)).nodeList
    have hpos := holders_pos_of_held (held_eq_some.mpr ⟨hpending, rfl⟩)
    obtain ⟨n, hn, -⟩ := hwrite.files.isSome_of_count hpos
    exact hwrite.addXid xid (by rw [hn]; rfl) (hwrite.files.earliest_le _ hpos)

lemma Inv.xaUnlog (h : s.Inv) (xid : κ) : (s.xaUnlog xid).Inv := by
  unfold RefState.xaUnlog
  split
  · exact h
  · rename_i x hx
    have hmem := mem_of_find?_eq_some hx
    refine ⟨(h.files.oobRefDec fun g => ?_).1, h.ctxs⟩
    have hcount := countP_erase (fun y : κ × Nat => y.2 = g) s.xids x
    have hpos : x.2 = g → 0 < s.xids.countP fun y => y.2 = g := by
      intro hg
      exact countP_pos_iff.mpr ⟨x, hmem, by simp [hg]⟩
    simp only [hmem, decide_eq_true_eq, true_and] at hcount
    simp only [holders, eq_comm (a := g)]
    split_ifs at hcount ⊢ with hg
    · have := hpos hg
      omega
    · omega

end

/-! ## Runs -/

lemma Inv.step (h : s.Inv) (hlegal : s.Legal e) (hfirst : s.FirstNodeOk e) : (s.step e).Inv := by
  cases e with
  | createFile => exact ⟨h.files.createFile, h.ctxs⟩
  | writeRec => exact h.writeRec hlegal
  | oob => exact h.oobOrdered hlegal hfirst
  | rollbackToSavepoint t =>
    refine h.setCtx rfl fun hw hp => ?_
    obtain ⟨-, hsave, hstart⟩ := h.ctxs t hw hp
    refine ⟨?_, fun roots hroots => hsave roots (mem_of_mem_drop hroots), hstart⟩
    have hi := hlegal.2
    have hget := hsave _ (getElem_mem hi)
    simpa [OobCtx.rollbackToSavepoint, getD, hi] using hget
  | rollbackToStmtStart t =>
    refine h.setCtx rfl fun hw hp => ?_
    obtain ⟨-, hsave, hstart⟩ := h.ctxs t hw hp
    obtain ⟨roots, hroots⟩ := Option.isSome_iff_exists.mp hlegal.2
    refine ⟨?_, hsave, hstart⟩
    simp [OobCtx.rollbackToStmtStart, hroots, hstart roots hroots]
  | commit t second userXa => exact h.commit userXa hlegal.2.2
  | reset t => exact h.reset t
  | xaPrepare t xid => exact h.xaPrepare xid hlegal.1 hlegal.2
  | xaUnlog xid => exact h.xaUnlog xid

lemma Reached.inv (h : Reached FirstNodeOk s) : s.Inv := by
  induction h with
  | start hs => exact hs.inv
  | step _ hlegal hfirst ih => exact ih.step hlegal hfirst

/-- The counts are right in every state that is reached while each first node is written by a
context without a reference, into the file that was active. -/
theorem balanced_of_reached (h : Reached FirstNodeOk s) : s.Balanced := h.inv.balanced

end

/-! ## A reference that is not released -/

def newServer : RefState Unit Unit :=
  ⟨⟨fun f => if f ≤ 1 then some 0 else none, 0, 0, 1⟩, fun _ => .alloc, fun _ => false, []⟩

lemma newServer_start : newServer.Start where
  no_refs f n hn := by
    simp only [newServer] at hn
    split_ifs at hn
    exact (Option.some_inj.mp hn).symm
  earliest := rfl
  active_le := by decide
  present f _ hf := by
    have hf : f ≤ 1 := hf
    simp [newServer, hf]
  beyond f hf := by
    have hf : ¬ f ≤ 1 := not_le.mpr hf
    simp [newServer, hf]
  ctxs _ := rfl
  written _ := rfl
  xids := rfl

/-- A transaction writes two pieces and is committed. -/
theorem balanced_of_reached_newServer :
    let s := (newServer.step (.oob () [1] false false 0 (0, 16424))).step
      (.oob () [2] false false 0 (0, 16434))
    s.refs.files 0 = some 1 ∧ s.Balanced ∧
      ((s.step (.commit () none false 0)).step (.reset ())).Balanced := by
  have h0 : Reached FirstNodeOk newServer := .start newServer_start
  have h1 := h0.step (e := .oob () [1] false false 0 (0, 16424))
    ⟨rfl, by decide, by decide, by decide⟩ fun _ _ => ⟨rfl, rfl⟩
  have h2 := h1.step (e := .oob () [2] false false 0 (0, 16434))
    ⟨rfl, by decide, by decide, by decide⟩ fun _ => nofun
  have h3 := h2.step (e := .commit () none false 0) ⟨rfl, by decide, by decide⟩ trivial
  exact ⟨rfl, balanced_of_reached h2, balanced_of_reached (h3.step trivial trivial)⟩

/-- The first statement of a transaction writes a piece and is rolled back, the next one writes
a piece again; then the transaction is committed. -/
def failedStatement : List (RefEvent Unit Unit) :=
  [.oob () [1] true false 0 (0, 16424), .rollbackToStmtStart (),
    .oob () [2] true false 0 (0, 16434), .commit () none false 0, .reset ()]

/-- The first reference is never released. -/
theorem not_balanced : ∃ s : RefState Unit Unit, Reached (fun _ _ => True) s ∧ ¬ s.Balanced := by
  refine ⟨failedStatement.foldl step newServer, ?_, fun h => ?_⟩
  · have h0 : Reached (fun _ _ => True) newServer := .start newServer_start
    have h1 := h0.step (e := .oob () [1] true false 0 (0, 16424))
      ⟨rfl, by decide, by decide, by decide⟩ trivial
    have h2 := h1.step (e := .rollbackToStmtStart ()) ⟨rfl, rfl⟩ trivial
    have h3 := h2.step (e := .oob () [2] true false 0 (0, 16434))
      ⟨rfl, by decide, by decide, by decide⟩ trivial
    have h4 := h3.step (e := .commit () none false 0) ⟨rfl, by decide, by decide⟩ trivial
    exact h4.step (e := .reset ()) trivial trivial
  · exact absurd (h.zero (fun _ => rfl) rfl 0 1 rfl) (by decide)

end RefState

end MariaDB.Binlog
