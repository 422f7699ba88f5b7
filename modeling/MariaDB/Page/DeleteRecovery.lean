import MariaDB.Page.DeleteReplay
import MariaDB.Page.InsertRecovery

/-!
# Recovery of a delete

The log record that the runtime delete writes, executed on the page as it was before the
delete, leaves the page that the delete left.
-/
namespace MariaDB.Page

open Library (Frame)
open Redo (Mtr Block ApplyEnv ApplyState MtrOp PageWrite min3Byte)

variable {env : PageEnv} {f f' : Frame} {comp : Bool} {d : PageDesc} {cur : Nat}

/-- Recovery that executes deletes as these functions do, and stops at a corrupted page. -/
structure ExecutesDelete (aenv : ApplyEnv) (env : PageEnv) : Prop where
  strict : aenv.forceRecovery = false
  size_eq : aenv.srvPageSize = env.srvPageSize
  redundant : ∀ b, aenv.ops.pageApplyDeleteRedundant b = env.pageApplyDeleteRedundant b.id.pageNo
  dynamic : ∀ b, aenv.ops.pageApplyDeleteDynamic b = env.pageApplyDeleteDynamic b.id.pageNo

def DeleteLog.pageWrite (comp : Bool) (log : DeleteLog) : PageWrite :=
  if comp then .deleteDynamic log.prevRec log.hdrSize log.dataSize else .deleteRedundant log.prevRec

structure IndexPage (b : Block) : Prop where
  space_lt : b.id.space < Redo.logBinlogId0
  pageNo_lt : b.id.pageNo < 2 ^ 32 - 1
  index : PageWrite.IndexOrUndoPage b

lemma pageDelete_eq (m : Mtr) (b : Block) (log : DeleteLog) :
    m.pageDelete comp b log = m.exec ⟨b, log.pageWrite comp⟩ := by
  cases comp <;> rfl

lemma recoversTo_of_delete (hexec : ExecutesDelete aenv env) (hps : env.srvPageSize ≤ 2 ^ 16)
    (hb : IndexPage b) {log : DeleteLog} (hlog : (log.pageWrite comp).Legal env.srvPageSize b)
    (m : Mtr) {st : ApplyState}
    (hresult : (log.pageWrite comp).extendedResult aenv.ops b st.frame = (false, f'))
    (rest : List UInt8) : RecoversTo aenv b st (m.record ⟨b, log.pageWrite comp⟩) rest f' := by
  have htype : (log.pageWrite comp).type = .extended := by cases comp <;> rfl
  have hofs : (log.pageWrite comp).type.haveOffset = false := by rw [htype]; rfl
  have hsize : b.physicalSize env.srvPageSize = env.srvPageSize := if_pos hb.index.1
  rw [← hexec.size_eq] at hlog hps hsize
  have hop : MtrOp.Legal aenv.srvPageSize ⟨b, log.pageWrite comp⟩ :=
    ⟨hb.space_lt, hb.pageNo_lt, hsize.le, hlog⟩
  obtain ⟨n, -, hstep⟩ := ApplyEnv.applyStep_record (a := st) (m := m) hps hop
    (fun h => absurd (hofs.symm.trans h) (by decide)) rest
  have hpay : m.pagePayload ⟨b, log.pageWrite comp⟩ = (log.pageWrite comp).body := by
    simp [Mtr.pagePayload, hofs]
  rw [hpay] at hstep
  simp only [htype, ApplyEnv.applyRecord] at hstep
  rw [ApplyEnv.applyExtended_eq hps hlog htype] at hstep
  simp only [hresult, ApplyEnv.pageOp, hexec.strict] at hstep
  exact ⟨_, hstep, rfl, rfl⟩

lemma WellFormed.prev_lt (h : WellFormed env f comp pageNo d) (hr : r ∈ d.recs comp) :
    pageInfimum comp ≤ r ∧ r - pageInfimum comp < env.srvPageSize := by
  have hlt := h.recs_lt hr
  have hends := pageInfimum_lt_pageSupremum comp
  rcases WellFormed.mem_recs.mp hr with rfl | hr | rfl
  · omega
  · have := h.users_ge hr
    omega
  · omega

lemma extendedResult_eq (hexec : ExecutesDelete aenv env) {b : Block}
    (h : WellFormed env f comp b.id.pageNo d) (hrecs : f.read2 pageNRecs = d.users.length)
    (hcur : cur ∈ d.users) (hdel : env.pageCurDeleteRec index f cur = .deleted f' log) :
    (log.pageWrite comp).extendedResult aenv.ops b f = (false, f') ∧ log.prevRec < env.srvPageSize ∧
      log.hdrSize = (env.recGetOffsets f cur).1 - recNExtraBytes comp ∧
      log.dataSize = (env.recGetOffsets f cur).2 := by
  obtain ⟨below, before, first, pre, post, above, hp⟩ := h.exists_place hcur
  obtain ⟨next, rest, -, hnext, hmem⟩ := hp.exists_next h hcur
  obtain ⟨owner, howner⟩ : ∃ owner, (cur :: post).getLast? = some owner :=
    ⟨_, List.getLast?_eq_some_getLast (by simp)⟩
  obtain ⟨rfl, rfl⟩ := hp.deleted_eq h hnext hmem howner hdel
  have hprev : (first :: pre).getLast (by simp) ∈ d.recs comp := by
    have hlast := List.getLast_mem (l := first :: pre) (by simp)
    rw [hp.recs_eq, ← List.cons_append]
    exact List.mem_append_right _ (List.mem_append_left _ hlast)
  obtain ⟨hge, hlt⟩ := h.prev_lt hprev
  refine ⟨?_, hlt, rfl, rfl⟩
  have hsize := h.size_le
  have hrlt := h.recs_lt hprev
  have happly := fun sizes => @Place.applyDelete_eq _ _ _ _ _ _ _ _ _ _ _ _ hp h hcur hrecs _ _
    hnext hmem howner sizes
  have hextra := (h.heap cur (List.mem_append_left _ hcur)).extra_ge
  cases comp with
  | true =>
    rw [if_pos rfl] at hextra
    simp only [DeleteLog.pageWrite, if_true, PageWrite.extendedResult, hexec.dynamic,
      PageEnv.pageApplyDeleteDynamic, Nat.add_sub_cancel' hge]
    rw [Nat.mod_eq_of_lt (by omega)]
    refine happly _ (Prod.ext ?_ rfl)
    exact Nat.add_sub_cancel' (by omega)
  | false =>
    simp only [DeleteLog.pageWrite, Bool.false_eq_true, if_false, PageWrite.extendedResult,
      hexec.redundant, PageEnv.pageApplyDeleteRedundant, Nat.add_sub_cancel' hge]
    exact happly _ (h.recGetOffsets_old cur).symm

/-- A delete that is logged is recovered to the page that it left. -/
theorem delete_recovered {b : Block} (hb : IndexPage b) (h : WellFormed env f comp b.id.pageNo d)
    (hrecs : f.read2 pageNRecs = d.users.length) (hcur : cur ∈ d.users)
    (hhdr : (env.recGetOffsets f cur).1 < recNExtraBytes comp + min3Byte) {index : IndexInfo}
    {log : DeleteLog} (hdel : env.pageCurDeleteRec index f cur = .deleted f' log) {m : Mtr}
    (hm : m.isLogged = true) {aenv : ApplyEnv} (hexec : ExecutesDelete aenv env) {st : ApplyState}
    (hst : st.frame = f) (rest : List UInt8) :
    ∃ record, (m.pageDelete comp b log).log = m.log ++ record ∧
      RecoversTo aenv b st record rest f' := by
  obtain ⟨hresult, hprev, hhdrSize, hdataSize⟩ := extendedResult_eq hexec h hrecs hcur hdel
  have hdata : log.dataSize < env.srvPageSize := by
    have hend := (h.heap cur (List.mem_append_left _ hcur)).end_le
    have htop := h.heap_top_le_last_slot
    unfold PageEnv.recEnd at hend
    omega
  have h3 := Redo.min3Byte_eq
  have hlegal : (log.pageWrite comp).Legal env.srvPageSize b := by
    cases comp with
    | true => exact ⟨hb.index, hprev, by omega, hdata⟩
    | false => exact ⟨hb.index, hprev⟩
  have hps : env.srvPageSize ≤ 2 ^ 16 := h.size_le
  have hop : MtrOp.Legal env.srvPageSize ⟨b, log.pageWrite comp⟩ :=
    ⟨hb.space_lt, hb.pageNo_lt, (if_pos hb.index.1 : b.physicalSize _ = _).le, hlegal⟩
  refine ⟨m.record ⟨b, log.pageWrite comp⟩, ?_, ?_⟩
  · rw [pageDelete_eq, Mtr.exec_eq hps hm hop]
  · exact recoversTo_of_delete hexec hps hb hlegal m (hst ▸ hresult) rest

/-! ## A delete that merges two directory slots -/

def PageEnv.deleteRecovery (env : PageEnv) : ApplyEnv :=
  { env.recovery with
    ops := { env.recovery.ops with
      pageApplyDeleteRedundant := fun b => env.pageApplyDeleteRedundant b.id.pageNo
      pageApplyDeleteDynamic := fun b => env.pageApplyDeleteDynamic b.id.pageNo } }

lemma executesDelete_deleteRecovery (env : PageEnv) : ExecutesDelete env.deleteRecovery env :=
  ⟨rfl, rfl, fun _ => rfl, fun _ => rfl⟩

theorem deleted_of_lt_varcharPage :
    ∃ f' log, varcharEnv.pageCurDeleteRec ⟨false, true⟩ varcharPage 136 = .deleted f' log :=
  varcharPage_wellFormed.deleted_of_lt (by decide) (by decide) (by decide) _

/-- The delete of the second record leaves three records to its slot, which is merged with
the one of the supremum. -/
theorem delete_recovered_varcharPage : ∃ f' log record,
    varcharEnv.pageCurDeleteRec ⟨false, true⟩ varcharPage 136 = .deleted f' log ∧
      f'.read2 pageNDirSlots = 2 ∧
      (Mtr.start.pageDelete true varcharBlock log).log = Mtr.start.log ++ record ∧
      RecoversTo varcharEnv.deleteRecovery varcharBlock ⟨varcharPage, 0, .no, false⟩ record []
        f' := by
  have hrun : (match varcharEnv.pageCurDeleteRec ⟨false, true⟩ varcharPage 136 with
      | .deleted f' _ => decide (f'.read2 pageNDirSlots = 2)
      | _ => false) = true := by
    decide
  split at hrun
  · rename_i f' log hdel
    have hst : (⟨varcharPage, 0, .no, false⟩ : ApplyState).frame = varcharPage := rfl
    obtain ⟨record, hrecord, hrecovers⟩ := delete_recovered (b := varcharBlock)
      ⟨by decide, by decide, rfl, by decide⟩ varcharPage_wellFormed
      (by decide : varcharPage.read2 pageNRecs = varcharDesc.users.length) (by decide)
      (by decide) hdel (m := Mtr.start) rfl (executesDelete_deleteRecovery varcharEnv) hst []
    exact ⟨f', log, record, hdel, of_decide_eq_true hrun, hrecord, hrecovers⟩
  · exact absurd hrun (by decide)

end MariaDB.Page
