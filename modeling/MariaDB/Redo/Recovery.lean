import MariaDB.Redo.Replay

/-!
# Recovering the page-level writes of a mini-transaction

Runs of page-level writes, the parser over the bytes they log and the replay of what
the parser stored. `recovered_iff` says for which runs the parser accepts every record
with the three cursors in agreement after each.
-/
namespace MariaDB.Redo

open Library (Frame)
open Mtr RecvEnv List

namespace Mtr

def stream (m : Mtr) : List MtrOp → List UInt8
  | [] => []
  | op :: ops => m.record op ++ (m.exec op).stream ops

def pageStream (m : Mtr) (id : PageId) : List MtrOp → List UInt8
  | [] => []
  | op :: ops => (if op.block.id = id then m.record op else []) ++ (m.exec op).pageStream id ops

end Mtr

def FaithfulRun (srvPageSize : Nat) (m : Mtr) : List MtrOp → Prop
  | [] => True
  | op :: ops => Faithful srvPageSize m op ∧ FaithfulRun srvPageSize (m.exec op) ops

/-- The runs of legal writes. A page identifier belongs to one buffer page. -/
structure LegalRun (srvPageSize : Nat) (ops : List MtrOp) : Prop where
  min_size : 4096 ≤ srvPageSize
  max_size : srvPageSize ≤ 2 ^ 16
  legal : ∀ op ∈ ops, op.Legal srvPageSize
  block_eq : ∀ op ∈ ops, ∀ op' ∈ ops, op.block.id = op'.block.id → op.block = op'.block

def RecvEnv.Knows (env : RecvEnv) (ops : List MtrOp) : Prop :=
  ∀ op ∈ ops, env.logPageModify op.block.id = .ok

def replayPage (pageOps : PageOps) (id : PageId) (ops : List MtrOp) (f : Frame) : Frame :=
  (ops.filter (·.block.id = id)).foldl (fun f op => op.write.replay pageOps op.block f) f

variable {ps : Nat} {ops : List MtrOp} {m : Mtr} {op : MtrOp}

attribute [local simp] Block.physicalSize PageWrite.Legal pageStream stream

lemma Mtr.run_eq (hps : ps ≤ 2 ^ 16) (hm : m.isLogged = true) (hops : ∀ op ∈ ops, op.Legal ps) :
    (m.run ops).log = m.log ++ m.stream ops ∧ (m.run ops).isLogged = true := by
  induction ops generalizing m with
  | nil => simp [run, hm]
  | cons op ops ih =>
    have hexec := exec_eq hps hm (hops op (by simp))
    obtain ⟨hlog, hlogged⟩ := ih (m := m.exec op) (by rw [hexec])
      (fun o ho => hops o (mem_cons_of_mem _ ho))
    refine ⟨?_, hlogged⟩
    change ((m.exec op).run ops).log = _
    rw [hlog, stream, hexec, append_assoc]

lemma Mtr.stream_append (m : Mtr) (ops ops' : List MtrOp) :
    m.stream (ops ++ ops') = m.stream ops ++ (m.run ops).stream ops' := by
  induction ops generalizing m with
  | nil => rfl
  | cons op ops ih =>
    simp only [cons_append, stream, ih, append_assoc]
    rfl

lemma Mtr.run_append (m : Mtr) (ops ops' : List MtrOp) :
    m.run (ops ++ ops') = (m.run ops).run ops' :=
  foldl_append

lemma Mtr.run_singleton (m : Mtr) (op : MtrOp) : m.run [op] = m.exec op := rfl

lemma faithfulRun_append :
    FaithfulRun ps m (ops ++ ops') ↔ FaithfulRun ps m ops ∧ FaithfulRun ps (m.run ops) ops' := by
  induction ops generalizing m with
  | nil => simp [FaithfulRun, run]
  | cons op ops ih =>
    simp only [cons_append, FaithfulRun, ih, and_assoc]
    rfl

lemma exists_unfaithful (h : ¬ FaithfulRun ps m ops) :
    ∃ pre op post, ops = pre ++ op :: post ∧ FaithfulRun ps m pre ∧
      ¬ Faithful ps (m.run pre) op := by
  induction ops generalizing m with
  | nil => exact absurd trivial h
  | cons op ops ih =>
    by_cases hop : Faithful ps m op
    · obtain ⟨pre, op', post, rfl, hpre, hbad⟩ := ih (m := m.exec op) (fun h' => h ⟨hop, h'⟩)
      exact ⟨op :: pre, op', post, rfl, ⟨hop, hpre⟩, hbad⟩
    · exact ⟨[], op, ops, rfl, trivial, hop⟩

/-! ## The parser over a run -/

lemma pageLog_append_singleton (stored : List (PageId × List UInt8)) (id id' : PageId)
    {recs : List UInt8} (hfree : recType (recs.getD 0 0) ≠ .freePage)
    (hinit : recType (recs.getD 0 0) ≠ .initPage) :
    pageLog (stored ++ [(id', recs)]) id = pageLog stored id ++ if id' = id then recs else [] := by
  unfold pageLog
  grind

lemma PageWrite.parserEnd_gt {w : PageWrite} (h : w.Legal ps b) : 8 < w.parserEnd := by
  cases w with
  | memcpy =>
    have := length_pos_iff.mpr h.1
    have := h.2.1
    simp only [parserEnd]
    omega
  | memset =>
    have := h.2.1
    simp only [parserEnd]
    omega
  | memsetString =>
    have := length_pos_iff.mpr h.1
    have := h.2.2.1
    simp only [parserEnd]
    omega
  | memmove d s =>
    have := h.1
    have := varintSize_pos (memmoveSource d s)
    simp only [parserEnd]
    omega
  | _ => simp [parserEnd, filPageType]

namespace RecvEnv

variable {env : RecvEnv} {st : ParseState}

lemma parseStep_faithful {op : MtrOp} (hmin : 4096 ≤ env.srvPageSize)
    (hps : env.srvPageSize ≤ 2 ^ 16) (hop : op.Legal env.srvPageSize)
    (hmodify : env.logPageModify op.block.id = .ok) (hsync : InSync env m st)
    (hfaith : Faithful env.srvPageSize m op) (rest : List UInt8) :
    ∃ st', env.parseStep st (m.record op ++ rest) = .next st' rest ∧ InSync env (m.exec op) st' ∧
      st'.id = op.block.id ∧
      ∀ id, env.Stores id → pageLog st'.stored id =
        pageLog st.stored id ++ if op.block.id = id then m.record op else [] := by
  obtain ⟨hfit, hend⟩ := (faithful_iff hmin hps m hop).mp hfaith
  have hexec := exec_eq hps hsync.logged hop
  have hrec := m.record_isRecord hps hop
  have hpast : 8 < op.write.endOffset % 2 ^ 16 := hend ▸ PageWrite.parserEnd_gt hop.write
  by_cases hstore : env.storing = .backup
  · obtain ⟨st', hstep, hgot, hid, hcorr⟩ := parseStep_backup hps hstore hop hmodify hsync rest
    refine ⟨st', hstep, ?_, hid, fun id hst => absurd hst.1 (by rw [hstore]; decide)⟩
    rw [hexec]
    refine ⟨rfl, hcorr.trans hsync.uncorrupted, ?_, ?_, ?_⟩
    · rintro id ⟨⟩
      exact ⟨hgot, hid⟩
    · rintro id - (h | ⟨h, -⟩) <;> rw [hstore] at h <;> exact absurd h (by decide)
    · rintro id -
      exact hpast
  · refine ⟨env.afterRecord st op (m.record op)
        (if env.Inspects op.block.id.pageNo then op.write.parserEnd
          else if m.samePage op then st.lastOffset else 0), ?_, ?_, rfl, ?_⟩
    · rw [parseStep_record hps hstore hop hmodify hsync, if_neg (by omega)]
    · rw [hexec]
      refine ⟨rfl, hsync.uncorrupted, ?_, ?_, ?_⟩
      · rintro id ⟨⟩
        exact ⟨rfl, rfl⟩
      · rintro id ⟨⟩ hpage
        exact (if_pos hpage).trans hend
      · rintro id -
        exact hpast
    · intro id hst
      have happ := pageLog_append_singleton st.stored id op.block.id
        (by rw [hrec.type_eq]; exact op.write.type_ne_freePage)
        (by rw [hrec.type_eq]; cases op.write <;> simp [PageWrite.type])
      by_cases hid : op.block.id = id
      · simpa only [afterRecord, hid, if_pos hst] using happ
      · by_cases hst' : env.Stores op.block.id
        · simpa only [afterRecord, if_pos hst'] using happ
        · simp [afterRecord, if_neg hst', if_neg hid]

lemma parseRecords_faithful (hmin : 4096 ≤ env.srvPageSize) (hps : env.srvPageSize ≤ 2 ^ 16)
    (hops : ∀ op ∈ ops, op.Legal env.srvPageSize) (hknow : env.Knows ops) (hsync : InSync env m st)
    (hfaith : FaithfulRun env.srvPageSize m ops) (rest : List UInt8) :
    ∃ st', env.parseRecords ops.length st (m.stream ops ++ rest) = some (st', rest) ∧
      InSync env (m.run ops) st' ∧
      ∀ id, env.Stores id →
        pageLog st'.stored id = pageLog st.stored id ++ m.pageStream id ops := by
  induction ops generalizing m st with
  | nil => exact ⟨st, rfl, hsync, by simp⟩
  | cons op ops ih =>
    obtain ⟨hstep, hrun⟩ := hfaith
    obtain ⟨st₁, hparse, hsync₁, -, hlog₁⟩ := parseStep_faithful hmin hps (hops op (by simp))
      (hknow op (by simp)) hsync hstep ((m.exec op).stream ops ++ rest)
    obtain ⟨st₂, hparse₂, hsync₂, hlog₂⟩ := ih (fun o ho => hops o (mem_cons_of_mem _ ho))
      (fun o ho => hknow o (mem_cons_of_mem _ ho)) hsync₁ hrun
    refine ⟨st₂, ?_, hsync₂, ?_⟩
    · simp [parseRecords, hparse, hparse₂]
    · intro id hst
      rw [hlog₂ id hst, hlog₁ id hst, pageStream, append_assoc]

lemma parseRecords_add (n k : Nat) (st : ParseState) (l : List UInt8) :
    env.parseRecords (n + k) st l =
      (env.parseRecords n st l).bind fun r => env.parseRecords k r.1 r.2 := by
  induction n generalizing st l <;> grind [parseRecords]

lemma parseLoop_of_parseRecords (h : env.parseRecords n st l = some (st', rest)) (fuel : Nat) :
    env.parseLoop (n + fuel) st l = env.parseLoop fuel st' rest := by
  induction n generalizing st l <;> grind [parseRecords, parseLoop]

end RecvEnv

lemma inSync_start (env : RecvEnv) : InSync env start .init where
  logged := rfl
  uncorrupted := rfl
  page := by rintro id ⟨⟩
  cursor := by rintro id ⟨⟩
  past_header := by rintro id ⟨⟩

lemma Mtr.length_le_stream (m : Mtr) (ops : List MtrOp) : ops.length ≤ (m.stream ops).length := by
  induction ops generalizing m with
  | nil => simp
  | cons op ops ih =>
    have := ih (m.exec op)
    have := m.record_length op
    simp only [stream, length_cons, length_append]
    omega

/-! ## The replay over a run -/

lemma Faithful.wholeCopies (h : Faithful ps m op) : op.write.WholeCopies := by
  cases hw : op.write with
  | memsetString => simp only [Faithful, hw] at h
  | _ => trivial

lemma Faithful.endOffset_gt (hmin : 4096 ≤ ps) (hps : ps ≤ 2 ^ 16) (hop : op.Legal ps)
    (h : Faithful ps m op) : 8 < op.write.endOffset % 2 ^ 16 :=
  ((faithful_iff hmin hps m hop).mp h).2 ▸ PageWrite.parserEnd_gt hop.write

namespace ApplyEnv

def OnPage (m : Mtr) (id : PageId) (a : ApplyState) : Prop :=
  m.last = some id → a.lastOffset = m.lastOffset ∧ m.lastOffset ≠ 1

/-- A faithful run is replayed on each of its pages, unless an operation finds the page
corrupted. -/
lemma applyLoop_faithful (env : ApplyEnv) {ops : List MtrOp} {m : Mtr} {a : ApplyState}
    {b : Block} {fuel : Nat} (hmin : 4096 ≤ env.srvPageSize) (hps : env.srvPageSize ≤ 2 ^ 16)
    (hm : m.isLogged = true) (hops : ∀ op ∈ ops, op.Legal env.srvPageSize)
    (hblock : ∀ op ∈ ops, op.block.id = b.id → op.block = b)
    (hfaith : FaithfulRun env.srvPageSize m ops) (hpage : OnPage m b.id a)
    (hfuel : (m.pageStream b.id ops).length < fuel) :
    ∃ a', env.applyLoop b fuel a (m.pageStream b.id ops ++ [0]) = some a' ∧
      a'.recordCorrupted = a.recordCorrupted ∧
      (a'.applied ≠ .corrupted → a'.frame = replayPage env.ops b.id ops a.frame ∧
        OnPage (m.run ops) b.id a') := by
  induction ops generalizing m a fuel with
  | nil =>
    obtain ⟨fuel, rfl⟩ : ∃ k, fuel = k + 1 := ⟨fuel - 1, by omega⟩
    exact ⟨a, by simp [applyLoop, applyStep], rfl, fun _ => ⟨rfl, hpage⟩⟩
  | cons op ops ih =>
    obtain ⟨hstep, hrun⟩ := hfaith
    have hop := hops op (by simp)
    have hexec := exec_eq hps hm hop
    have hm' : (m.exec op).isLogged = true := by rw [hexec]
    have ih := fun a' fuel' => @ih (m.exec op) a' fuel' hm'
      (fun o ho => hops o (mem_cons_of_mem _ ho))
      (fun o ho => hblock o (mem_cons_of_mem _ ho)) hrun
    have hgt := hstep.endOffset_gt hmin hps hop
    by_cases hid : op.block.id = b.id
    · obtain rfl : op.block = b := hblock op (by simp) hid
      have hstream : m.pageStream op.block.id (op :: ops) =
          m.record op ++ (m.exec op).pageStream op.block.id ops := by
        simp
      have hlen := m.record_length op
      rw [hstream, length_append] at hfuel
      obtain ⟨fuel, rfl⟩ : ∃ k, fuel = k + 1 := ⟨fuel - 1, by omega⟩
      obtain ⟨n, verdict, happly, -, hverdict⟩ := replayed_record hps hop hstep.wholeCopies
        hpage ((m.exec op).pageStream op.block.id ops ++ [0])
      rw [hstream, append_assoc]
      simp only [applyLoop, happly]
      cases verdict with
      | applied a₂ =>
        obtain ⟨hframe, hlast, hcorr⟩ := hverdict
        obtain ⟨a', hloop, hcorr', hrest⟩ := ih
          { a₂ with applied := if a₂.applied = .no then .yes else a₂.applied } fuel
          (by rw [hexec]; exact fun _ => ⟨hlast, ne_of_gt (lt_of_le_of_lt (by decide) hgt)⟩)
          (by omega)
        refine ⟨a', hloop, hcorr'.trans hcorr, fun hok => ?_⟩
        obtain ⟨hframe', hon⟩ := hrest hok
        refine ⟨?_, hon⟩
        rw [hframe', hframe]
        simp [replayPage]
      | pageCorrupted => exact ⟨_, rfl, hverdict, fun hok => absurd rfl hok⟩
      | nextNotSamePage | recordCorrupted | undefined => exact hverdict.elim
    · have hstream : m.pageStream b.id (op :: ops) = (m.exec op).pageStream b.id ops := by
        simp [hid]
      have hreplay : replayPage env.ops b.id (op :: ops) = replayPage env.ops b.id ops := by
        funext f
        simp [replayPage, hid]
      rw [hstream] at hfuel ⊢
      rw [hreplay]
      refine ih a fuel ?_ hfuel
      rw [hexec]
      intro hlast
      exact absurd (Option.some.inj hlast) hid

end ApplyEnv

/-! ## Recovery of a run -/

/-- The log of a mini-transaction: its records, and the end marker. -/
def Mtr.committed (ops : List MtrOp) (eom : UInt8) (tail : List UInt8) : List UInt8 :=
  (start.run ops).log ++ eom :: tail

/-- Crash recovery of one mini-transaction works: the parser accepts all records, in each
of its modes, and after each record its cursor and the cursor of the replay of that page
are where the writer's was when it had logged the record. -/
structure Recovered (srvPageSize : Nat) (ops : List MtrOp) : Prop where
  accepted : ∀ env : RecvEnv, env.srvPageSize = srvPageSize → env.Knows ops →
    ∀ eom : UInt8, eom.toNat ≤ 1 → ∀ tail, ∃ st,
      env.parseTail (committed ops eom tail) = (.ok, st) ∧ st.corrupted = false
  cursors : ∀ env : RecvEnv, env.srvPageSize = srvPageSize → env.Knows ops →
    env.storing = .yes → ∀ eom tail pre op post, ops = pre ++ op :: post → ∃ st rest,
      env.parseRecords (pre.length + 1) .init (committed ops eom tail) = some (st, rest) ∧
      st.corrupted = false ∧ st.id = op.block.id ∧
      st.lastOffset = (start.run (pre ++ [op])).lastOffset ∧
      (env.Stores op.block.id → ∀ (aenv : ApplyEnv) (a₀ : ApplyState),
        aenv.srvPageSize = srvPageSize → a₀.recordCorrupted = false →
        ∃ a, aenv.apply op.block a₀ (pageLog st.stored op.block.id) = some a ∧
          a.recordCorrupted = false ∧
          (a.applied ≠ .corrupted → a.lastOffset = (start.run (pre ++ [op])).lastOffset ∧
            a.frame = replayPage aenv.ops op.block.id (pre ++ [op]) a₀.frame))

section

variable {env : RecvEnv} {ps : Nat} {ops : List MtrOp}

lemma LegalRun.committed_eq (h : LegalRun ps ops) (eom : UInt8) (tail : List UInt8) :
    committed ops eom tail = start.stream ops ++ eom :: tail := by
  rw [committed, (run_eq h.max_size rfl h.legal).1]
  rfl

variable {pre post : List MtrOp} {eom : UInt8}

lemma LegalRun.of_append (h : LegalRun ps (pre ++ post)) : LegalRun ps pre where
  __ := h
  legal op ho := h.legal op (by simp [ho])
  block_eq op ho op' ho' := h.block_eq op (by simp [ho]) op' (by simp [ho'])

lemma LegalRun.parse_start (h : LegalRun env.srvPageSize (pre ++ post))
    (hknow : env.Knows (pre ++ post)) (hfaith : FaithfulRun env.srvPageSize start pre)
    (eom : UInt8) (tail : List UInt8) :
    ∃ st, env.parseRecords pre.length .init (committed (pre ++ post) eom tail) =
        some (st, (start.run pre).stream post ++ eom :: tail) ∧
      InSync env (start.run pre) st ∧
      ∀ id, env.Stores id → pageLog st.stored id = start.pageStream id pre := by
  rw [h.committed_eq, stream_append, append_assoc]
  exact parseRecords_faithful h.min_size h.max_size h.of_append.legal
    (fun op ho => hknow op (by simp [ho])) (inSync_start env) hfaith _

lemma accepted_of_faithful (h : LegalRun env.srvPageSize ops) (hknow : env.Knows ops)
    (hfaith : FaithfulRun env.srvPageSize start ops) (heom : eom.toNat ≤ 1)
    (tail : List UInt8) :
    ∃ st, env.parseTail (committed ops eom tail) = (.ok, st) ∧ st.corrupted = false := by
  have happ : ops ++ [] = ops := append_nil ops
  obtain ⟨st, hparse, hsync, -⟩ := (happ.symm ▸ h : LegalRun _ (ops ++ [])).parse_start
    (happ.symm ▸ hknow) hfaith eom tail
  rw [happ] at hparse
  -- there is fuel for all records and for the end marker
  have hlen : ops.length + 1 ≤ (committed ops eom tail).length := by
    have := length_le_stream start ops
    rw [h.committed_eq]
    simp only [length_append, length_cons]
    omega
  refine ⟨st, ?_, hsync.uncorrupted⟩
  obtain ⟨k, hk⟩ := Nat.exists_eq_add_of_le hlen
  rw [parseTail, hk, add_assoc, parseLoop_of_parseRecords hparse, add_comm 1]
  simp [parseLoop, parseStep, heom]

lemma cursors_of_faithful
    (h : LegalRun env.srvPageSize (pre ++ op :: post)) (hknow : env.Knows (pre ++ op :: post))
    (hfaith : FaithfulRun env.srvPageSize start (pre ++ op :: post)) (eom : UInt8)
    (tail : List UInt8) :
    ∃ st rest,
      env.parseRecords (pre.length + 1) .init (committed (pre ++ op :: post) eom tail) =
        some (st, rest) ∧
      InSync env (start.run (pre ++ [op])) st ∧
      ∀ id, env.Stores id → pageLog st.stored id = start.pageStream id (pre ++ [op]) := by
  have happ : pre ++ op :: post = (pre ++ [op]) ++ post := by simp
  rw [happ] at h hknow hfaith ⊢
  obtain ⟨st, hparse, hsync, hlog⟩ := h.parse_start hknow (faithfulRun_append.mp hfaith).1 eom tail
  rw [length_append] at hparse
  exact ⟨st, _, hparse, hsync, hlog⟩

/-- After the first step that is not faithful, the cursors differ or the parser has found
the record corrupted. -/
lemma faithful_of_cursors
    (h : LegalRun env.srvPageSize (pre ++ op :: post)) (hknow : env.Knows (pre ++ op :: post))
    (hstore : env.storing = .yes) (hfaith : FaithfulRun env.srvPageSize start pre)
    {tail rest : List UInt8} {st : ParseState}
    (hparse : env.parseRecords (pre.length + 1) .init
      (committed (pre ++ op :: post) eom tail) = some (st, rest))
    (hcorr : st.corrupted = false)
    (hcur : st.lastOffset = (start.run (pre ++ [op])).lastOffset) :
    Faithful env.srvPageSize (start.run pre) op := by
  have hop := h.legal op (by simp)
  obtain ⟨st₀, hparse₀, hsync, -⟩ := h.parse_start hknow hfaith eom tail
  rw [parseRecords_add, hparse₀] at hparse
  simp only [Option.bind_some, parseRecords, stream, append_assoc] at hparse
  rw [parseStep_record h.max_size (by rw [hstore]; decide) hop (hknow op (by simp)) hsync] at hparse
  rw [run_append, run_singleton, exec_eq h.max_size hsync.logged hop] at hcur
  refine (faithful_iff h.min_size h.max_size _ hop).mpr ?_
  by_cases hsize : ((start.run pre).record op).length > env.srvPageSize
  · -- `record_corrupted` returns, or leaves its mark
    rw [if_pos hsize] at hparse
    unfold recordCorrupted at hparse
    by_cases hforce : env.forceRecovery = true
    · rw [if_pos hforce] at hparse
      obtain ⟨rfl, -⟩ := Prod.mk.inj (Option.some.inj hparse)
      exact absurd hcorr (by simp)
    · rw [if_neg hforce] at hparse
      exact absurd hparse (by simp)
  · have hinspects : env.Inspects op.block.id.pageNo := .inl hstore
    rw [if_neg hsize, if_pos hinspects] at hparse
    obtain ⟨rfl, -⟩ := Prod.mk.inj (Option.some.inj hparse)
    exact ⟨by omega, hcur⟩

end

/-- Recovery of a mini-transaction works if and only if each of its steps is faithful. -/
theorem recovered_iff {ps : Nat} {ops : List MtrOp} (h : LegalRun ps ops) :
    Recovered ps ops ↔ FaithfulRun ps Mtr.start ops := by
  constructor
  · intro hrec
    by_contra hbad
    obtain ⟨pre, op, post, rfl, hpre, hop⟩ := exists_unfaithful hbad
    let env : RecvEnv := ⟨ps, false, .yes, false, fun _ => .ok, fun _ => true, fun _ => false,
      fun _ _ _ _ => false, fun _ _ _ _ => .ok, fun _ => true⟩
    have hknow : env.Knows (pre ++ op :: post) := fun _ _ => rfl
    obtain ⟨st, rest, hparse, hcorr, -, hcur, -⟩ :=
      hrec.cursors env rfl hknow rfl 0 [] pre op post rfl
    exact hop (faithful_of_cursors h hknow rfl hpre hparse hcorr hcur)
  · intro hfaith
    constructor
    · rintro env rfl hknow eom heom tail
      exact accepted_of_faithful h hknow hfaith heom tail
    · rintro env rfl hknow hstore eom tail pre op post rfl
      obtain ⟨st, rest, hparse, hsync, hlog⟩ := cursors_of_faithful h hknow hfaith eom tail
      have happ : pre ++ op :: post = (pre ++ [op]) ++ post := by simp
      rw [happ] at h hfaith
      have hlast : (start.run (pre ++ [op])).last = some op.block.id := by
        rw [run_append, run_singleton, exec_eq h.max_size
          (run_eq h.max_size rfl h.of_append.of_append.legal).2 (h.legal op (by simp))]
      refine ⟨st, rest, hparse, hsync.uncorrupted, (hsync.page _ hlast).2,
        hsync.cursor _ hlast (.inl hstore), ?_⟩
      intro hst aenv a₀ haenv ha₀
      rw [hlog _ hst]
      rw [← haenv] at h hfaith
      obtain ⟨a, happly, hcorr, hok⟩ := aenv.applyLoop_faithful (b := op.block)
        (a := { a₀ with applied := .no }) h.min_size h.max_size rfl h.of_append.legal
        (fun o ho hid => h.block_eq o (mem_append_left _ ho) op (by simp) hid)
        (faithfulRun_append.mp hfaith).1 (by rintro ⟨⟩) (Nat.lt_succ_self _)
      refine ⟨a, happly, hcorr.trans ha₀, fun hne => ?_⟩
      obtain ⟨hframe, hon⟩ := hok hne
      exact ⟨(hon hlast).1, hframe⟩

def twoWrites : List MtrOp :=
  [⟨⟨⟨5, 4⟩, 0⟩, .memcpy 100 [1, 2, 3, 4]⟩, ⟨⟨⟨5, 4⟩, 0⟩, .memcpy 110 [5, 6]⟩]

theorem recovered_memcpy : LegalRun 16384 twoWrites ∧ Recovered 16384 twoWrites := by
  have h : LegalRun 16384 twoWrites := by
    refine ⟨by decide, by decide, ?_, by simp [twoWrites]⟩
    simp only [twoWrites, forall_mem_cons]
    exact ⟨⟨by decide, by decide, by decide, by simp⟩, ⟨by decide, by decide, by decide, by simp⟩,
      by simp⟩
  exact ⟨h, (recovered_iff h).mpr ⟨⟨by decide, fun _ => by decide⟩, ⟨by decide, fun _ => by decide⟩,
    trivial⟩⟩

def memsetThenMemmove : List MtrOp :=
  [⟨⟨⟨5, 4⟩, 0⟩, .memset 100 1000 0⟩, ⟨⟨⟨5, 4⟩, 0⟩, .memmove 1100 200 10⟩]

/-- The parser adds the offset of the move to one that is too small, and finds that its
source is outside the page. -/
theorem memsetThenMemmove_not_recovered :
    LegalRun 16384 memsetThenMemmove ∧ ¬ Recovered 16384 memsetThenMemmove := by
  refine ⟨⟨by decide, by decide, ?_, ?_⟩, ?_⟩
  · simp only [memsetThenMemmove, forall_mem_cons]
    refine ⟨⟨by decide, by decide, by decide, ?_⟩, ⟨by decide, by decide, by decide, ?_⟩, by simp⟩
    · simp
    · simp
  · simp [memsetThenMemmove]
  · intro hrec
    let env : RecvEnv := ⟨16384, false, .yes, false, fun _ => .ok, fun _ => true, fun _ => false,
      fun _ _ _ _ => false, fun _ _ _ _ => .ok, fun _ => true⟩
    obtain ⟨st, hparse, -⟩ := hrec.accepted env rfl (fun _ _ => rfl) 0 (by decide) []
    have heof : (env.parseTail (committed memsetThenMemmove 0 [])).1 = .gotEof := by decide
    rw [hparse] at heof
    cases heof

end MariaDB.Redo
