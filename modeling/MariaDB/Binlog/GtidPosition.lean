import MariaDB.Binlog.GtidSearch

/-!
# The place that is found for a GTID position

The state that is read at a page is that of the event groups before the page: between the page
and the state record there is at most the rest of a record. So a state that is before a position
has all event groups before the page included in it.
-/
namespace MariaDB.Binlog

open MariaDB.Rpl BinlogState List

namespace GtidBinlog

variable {b : GtidBinlog}

/-! ## What is read -/

lemma Ok.updateAll_init (h : Ok b) (gs : List Gtid) :
    b.init.updateAll gs = updateAll [] (b.init ++ gs) := by
  rw [updateAll_append, updateAll_nil_of_pairwise h.init]

variable {k n : Nat} {f : GtidFile} {gtids pos : List Gtid}

lemma gtidsBefore_eq (hf : b.files[k]? = some f) (p : Nat) :
    b.gtidsBefore k p = b.gtidsBeforeFile k ++ gtidsOf (beforePage p f.entries) := by
  simp [gtidsBefore, hf]

lemma gtidsBefore_isPrefix (hf : b.files[k]? = some f) (p : Nat) :
    b.gtidsBefore k p <+: b.gtids := by
  obtain ⟨hlt, hget⟩ := List.getElem?_eq_some_iff.mp hf
  obtain ⟨rest, hrest⟩ := beforePage_isPrefix p f.entries
  rw [gtidsBefore_eq hf, gtidsBeforeFile]
  refine ⟨gtidsOf rest ++ (b.files.drop (k + 1)).flatMap fun f => gtidsOf f.entries, ?_⟩
  calc _ = ((b.files.take k).flatMap fun f => gtidsOf f.entries) ++ (gtidsOf f.entries ++
          (b.files.drop (k + 1)).flatMap fun f => gtidsOf f.entries) := by
        rw [← hrest, gtidsOf_append, hrest]
        simp
    _ = (b.files.take k ++ b.files.drop k).flatMap fun f => gtidsOf f.entries := by
        rw [flatMap_append, List.drop_eq_getElem_cons hlt, hget, List.flatMap_cons]
    _ = _ := by rw [take_append_drop, gtids]

lemma Ok.increasing_gtidsBefore (h : Ok b) (hf : b.files[k]? = some f) (p : Nat) :
    BinlogState.Increasing (b.init ++ b.gtidsBefore k p) :=
  h.increasing.sublist (Sublist.append_left (gtidsBefore_isPrefix hf p).sublist _)

lemma Ok.gtidsBefore_one (h : Ok b) (hf : b.files[k]? = some f) :
    b.gtidsBefore k 1 = b.gtidsBeforeFile k := by
  rw [gtidsBefore_eq hf]
  obtain hnil | ⟨e, rest, heq, -⟩ := h.page f (List.mem_of_getElem? hf)
  · rw [hnil]
    exact append_nil _
  · rw [heq]
    exact append_nil _

attribute [local simp] dataFrom

lemma readBase_eq (hf : b.files[k]? = some f) (heq : f.entries = .page :: e :: rest)
    (hne : e ≠ .page) :
    b.readBase k = match e with
      | .cont => .error
      | .state gtids => .found gtids
      | _ => .none := by
  have hdata : (b.dataFrom k 1).find? (· ≠ .page) = some e := by simp [hf, heq, seekPage, hne]
  rw [readBase, hdata]
  cases e <;> rfl

lemma Ok.readBase_found (h : Ok b) (hr : b.readBase k = .found gtids) :
    ∃ f, b.files[k]? = some f ∧ gtids = b.init.updateAll (b.gtidsBeforeFile k) := by
  cases hf : b.files[k]? with
  | none => simp [readBase, hf] at hr
  | some f =>
    refine ⟨f, rfl, ?_⟩
    obtain hnil | ⟨e, rest, heq, hne⟩ := h.page f (List.mem_of_getElem? hf)
    · simp [readBase, hf, hnil, seekPage] at hr
    · rw [readBase_eq hf heq hne] at hr
      cases e with
      | page => exact absurd rfl hne
      | cont | start => cases hr
      | state gs =>
        obtain rfl : gs = gtids := by simpa using hr
        have hstate := h.state (x := [.page]) hf heq
        have hone : numPages [.page] = 1 := rfl
        rw [if_pos hone] at hstate
        exact hstate.trans (congrArg _ (append_nil _))

lemma Ok.updateAll_base (h : Ok b) (hr : b.readBase k = .found gtids) :
    updateAll [] gtids = b.init.updateAll (b.gtidsBeforeFile k) := by
  obtain ⟨-, -, hgtids⟩ := h.readBase_found hr
  rw [hgtids, h.updateAll_init]
  exact updateAll_nil_of_pairwise (pairwise_updateAll_nil _)

lemma Ok.eq_cur (h : Ok b) (hf : b.files[k]? = some f) (hnil : f.entries = []) :
    k = b.closed.length ∧ f = b.cur := by
  refine (lt_of_getElem?_files hf).resolve_left fun hk => ?_
  rw [getElem?_files_closed hk] at hf
  exact h.closed f (List.mem_of_getElem? hf) hnil

lemma Ok.find?_drop (h : Ok b)
    (hr : ((b.files.drop k).flatMap GtidFile.entries).find? BinlogEntry.isRecord =
      some (.state gtids)) (hbase : b.readBase k ≠ .error) :
    b.readBase k = .found gtids := by
  cases hf : b.files[k]? with
  | none =>
    rw [drop_eq_nil_of_le (getElem?_eq_none_iff.mp hf)] at hr
    cases hr
  | some f =>
    obtain ⟨hlt, hget⟩ := List.getElem?_eq_some_iff.mp hf
    rw [List.drop_eq_getElem_cons hlt, hget, List.flatMap_cons] at hr
    obtain hnil | ⟨e, rest, heq, hne⟩ := h.page f (List.mem_of_getElem? hf)
    · obtain ⟨rfl, rfl⟩ := h.eq_cur hf hnil
      rw [hnil, drop_eq_nil_of_le (by simp [files])] at hr
      cases hr
    · rw [readBase_eq hf heq hne] at hbase ⊢
      rw [heq] at hr
      cases e with
      | page => exact absurd rfl hne
      | cont => exact absurd rfl hbase
      | start => simp [BinlogEntry.isRecord] at hr
      | state => simpa [BinlogEntry.isRecord] using hr

/-- A state at a page that is not the first one, on top of the state of the file, is the state
of all that starts before the page: only the rest of a record is skipped. -/
lemma Ok.readDiff_found (h : Ok b) (hp : 2 ≤ p) (hr : b.readDiff k p = .found gtids)
    (hnext : b.readBase (k + 1) ≠ .error) :
    (b.init.updateAll (b.gtidsBeforeFile k)).updateAll gtids =
      b.init.updateAll (b.gtidsBefore k p) := by
  have hfind : (b.dataFrom k p).find? BinlogEntry.isRecord = some (.state gtids) := by
    rw [readDiff] at hr
    split at hr
    · next gs hgs =>
      cases hr
      exact hgs
    · cases hr
  cases hf : b.files[k]? with
  | none => simp [hf] at hfind
  | some f =>
    cases hseek : seekPage p f.entries with
    | none => simp [hf, hseek] at hfind
    | some es =>
      obtain ⟨heq, hnum⟩ := eq_beforePage_append hseek
      have hdata : b.dataFrom k p = es ++ (b.files.drop (k + 1)).flatMap GtidFile.entries := by
        simp [hf, hseek]
      rw [hdata, find?_append] at hfind
      rw [gtidsBefore_eq hf]
      cases hes : es.find? BinlogEntry.isRecord with
      | some e =>
        rw [hes] at hfind
        obtain rfl : e = .state gtids := by simpa using hfind
        obtain ⟨-, x, y, rfl, hx⟩ := find?_eq_some_iff_append.mp hes
        have hstate := h.state (x := beforePage p f.entries ++ x) hf (by
          rw [append_assoc]
          exact heq)
        have hpage : ¬ numPages (beforePage p f.entries ++ x) = 1 := by
          rw [numPages_append, hnum]
          omega
        have hnone : gtidsOf x = [] := gtidsOf_eq_nil fun e he => by simpa using hx e he
        rw [if_neg hpage, gtidsOf_append, hnone, append_nil] at hstate
        rw [hstate, updateAll_updateAll_nil, ← updateAll_append]
      | none =>
        rw [hes] at hfind
        have hbase := h.find?_drop (by simpa using hfind) hnext
        obtain ⟨f', -, hgtids⟩ := h.readBase_found hbase
        have hnone : gtidsOf es = [] := gtidsOf_eq_nil fun e he => by
          simpa using find?_eq_none.mp hes e he
        have hfile : b.gtidsBeforeFile (k + 1) =
            b.gtidsBeforeFile k ++ gtidsOf (beforePage p f.entries) := by
          have hall : gtidsOf f.entries = gtidsOf (beforePage p f.entries) := by
            rw [heq, gtidsOf_append, hnone, append_nil, ← heq]
          rw [gtidsBeforeFile, take_add_one, hf, flatMap_append, ← hall]
          simp [gtidsBeforeFile]
        rw [hgtids, hfile, h.updateAll_init, h.updateAll_init, ← append_assoc]
        exact updateAll_of_isPrefix _ _

/-! ## A restart -/

lemma readBase_last : b.readBase (b.closed.length + 1) ≠ .error := by
  have hlast : b.files[b.closed.length + 1]? = none := by simp [files]
  simp [readBase, hlast]

lemma Ok.recoverPage_spec (h : Ok b) (n : Nat) :
    (b.init.updateAll (b.gtidsBeforeFile b.closed.length)).updateAll ((b.recoverPage n).2 ++
      gtidsOf ((seekPage (b.recoverPage n).1 b.cur.entries).getD [])) =
      b.init.updateAll b.gtids := by
  have hgtids : b.gtids = b.gtidsBeforeFile b.closed.length ++ gtidsOf b.cur.entries := by
    rw [gtids_eq, gtidsBeforeFile_of_le (Nat.le_refl _), take_length]
  rw [updateAll_append]
  fun_induction recoverPage with
  | case1 => simp [hgtids, updateAll_append, seekPage, updateAll_nil]
  | case2 n hpage gtids hr =>
    rw [h.readDiff_found hpage hr readBase_last]
    cases hseek : seekPage ((n + 1) * b.cur.interval) b.cur.entries with
    | none => simp [readDiff, getElem?_files_cur, hseek] at hr
    | some es =>
      have hes := congrArg gtidsOf (eq_beforePage_append hseek).1
      rw [gtidsBefore_eq getElem?_files_cur, hgtids, hes, gtidsOf_append, ← append_assoc]
      exact (updateAll_append _ _ _).symm
  | case3 n hpage hr ih => exact ih
  | case4 n hpage =>
    rw [hgtids, updateAll_append]
    obtain hnil | ⟨e, rest, heq, -⟩ := h.page b.cur (by simp [files])
    · rw [hnil]; rfl
    · rw [heq]; rfl

/-- `binlog_state_recover()` finds the state again. -/
lemma Ok.recover_eq (h : Ok b) (hl : b.Legal .restart) (hc : b.BaseState .restart) :
    b.recover = b.init.updateAll b.gtids := by
  unfold recover
  dsimp only
  rw [append_assoc, updateAll_append, ← h.recoverPage_spec]
  congr 1
  cases hr : b.readBase b.closed.length with
  | error => exact absurd hr hl.2
  | none => exact (hc hr).symm
  | found gtids => exact h.updateAll_base hr

/-- What the search needs at every event. -/
structure Sound (b : GtidBinlog) (e : GtidEvent) : Prop where
  inOrder : b.InOrder e
  notSingleton : b.NotSingleton e
  firstState : b.FirstState e
  diffKept : b.DiffKept e
  baseState : b.BaseState e

lemma Ok.step (h : Ok b) {e : GtidEvent} (hl : b.Legal e) (hc : b.Sound e) : Ok (b.step e) := by
  cases e with
  | newFile => exact h.newFile hl
  | purge => exact { h with }
  | restart => exact { h with full := h.recover_eq hl hc.baseState }
  | cont =>
    exact h.append (Added.of_onPage h (by simp) (by simp) hl (by simp)
      (by simp [BinlogEntry.gtid?]))
  | start newPage gtid =>
    refine h.append (Added.of_onPage h (by simp) (by simp) hl (fun gtid' heq => ?_) fun g hg => ?_)
    · exact hc.firstState
    · obtain rfl : gtid = some g := hg
      exact hc.inOrder
  | state => exact h.append (Added.of_state h hc.notSingleton hc.diffKept)

lemma Ok.of_reached (h : Reached Sound b) : Ok b := by
  induction h with
  | start hs => exact .of_start hs
  | step _ hl hc ih => exact ih.step hl hc

/-! ## The loops -/

lemma findFile_base (h : b.findFile pos n = .base k S) :
    ∃ gtids, b.readBase k = .found gtids ∧ S = updateAll [] gtids ∧
      S.isBeforePos pos ∧ ∀ j, k < j → j ≤ n → b.readBase j ≠ .error := by
  fun_induction findFile <;> grind

lemma findFile_emptyFile (h : b.findFile pos n = .emptyFile) : b.readBase 0 = .none := by
  fun_induction findFile <;> grind

/-- What the loop over pages keeps: `page0` is a page that one can start from, and `page1` is
before `page2` if it is looked at. -/
structure PageInv (b : GtidBinlog) (pos : List Gtid) (k page0 page1 page2 : Nat)
    (state : BinlogState) : Prop where
  recorded : b.Recorded k (startPage page0) state
  state_eq : state = b.init.updateAll (b.gtidsBefore k (startPage page0))
  before : state.isBeforePos pos
  le : page0 ≤ page1
  le_end : page0 ≤ page2
  lt : page1 < page2 ∨ page1 = page0

lemma middlePage_spec (interval : Nat) (h : page0 ≤ page2) :
    page0 ≤ middlePage interval page0 page2 ∧
      (middlePage interval page0 page2 < page2 ∨ middlePage interval page0 page2 = page0) := by
  have hhalf : (page2 - page0) / (2 * interval) * interval * 2 ≤ page2 - page0 := by
    rw [Nat.mul_assoc, Nat.mul_comm interval 2]
    exact Nat.div_mul_le_self _ _
  unfold middlePage
  omega

lemma Ok.findPage_spec (h : Ok b) {base : List Gtid} {interval : Nat} (hi : 0 < interval)
    (hbase : b.readBase k = .found base) (hnext : b.readBase (k + 1) ≠ .error) :
    ∀ {fuel page0 page1 page2 : Nat} {state : BinlogState},
      PageInv b pos k page0 page1 page2 state → page2 ≤ n →
      (page2 - page0) * (n + 1) + page1 < fuel →
      ∃ page state', b.findPage pos k interval (updateAll [] base) fuel
          page0 page1 page2 state = some (page, state') ∧
        b.Recorded k (startPage page) state' ∧
        state' = b.init.updateAll (b.gtidsBefore k (startPage page)) ∧
        state'.isBeforePos pos := by
  intro fuel
  induction fuel with
  | zero => intro page0 page1 page2 state _ _ hfuel; omega
  | succ fuel ih =>
    intro page0 page1 page2 state hinv hn hfuel
    obtain ⟨hrec, hstate, hbefore, hle, hle2, hlt⟩ := hinv
    rw [findPage]
    split
    case isFalse => exact ⟨page0, state, rfl, hrec, hstate, hbefore⟩
    case isTrue hguard =>
      have hlt : page1 < page2 := by omega
      -- the distance of `page0` and `page2` gets smaller, or `page1` does
      have hcloser : ∀ {a c q : Nat}, a + 1 ≤ c → q ≤ n →
          c * (n + 1) + page1 < fuel + 1 → a * (n + 1) + q < fuel := by
        intro a c q hac hq hf
        have := Nat.mul_le_mul_right (n + 1) hac
        rw [Nat.succ_mul] at this
        omega
      cases hr : b.readDiff k page1 with
      | found gtids =>
        dsimp only
        split
        case isTrue hpos =>
          have hstart : startPage page1 = page1 := if_neg (by omega)
          obtain ⟨hm1, hm2⟩ := middlePage_spec interval (Nat.le_of_lt hlt)
          refine ih ⟨?_, ?_, hpos, hm1, Nat.le_of_lt hlt, hm2⟩ hn (hcloser ?_ ?_ hfuel)
          · rw [hstart]
            exact ⟨base, hbase, .inr ⟨gtids, hr, rfl⟩⟩
          · rw [hstart, h.updateAll_base hbase]
            exact h.readDiff_found (by omega) hr hnext
          · omega
          · omega
        case isFalse =>
          obtain ⟨hm1, hm2⟩ := middlePage_spec interval hle
          refine ih ⟨hrec, hstate, hbefore, hm1, hle, hm2⟩ (by omega) (hcloser ?_ ?_ hfuel)
          · omega
          · omega
      | error | none => exact ih ⟨hrec, hstate, hbefore, by omega, hle2, by omega⟩ hn (by omega)

/-! ## The place that is found -/

lemma Ok.included (h : Ok b) {p : Nat}
    (hf : b.files[k]? = some f) (hpos : (b.init.updateAll (b.gtidsBefore k p)).isBeforePos pos)
    {before after : List Gtid} {g : Gtid} (heq : b.gtidsBefore k p = before ++ g :: after) :
    BinlogState.Included pos (b.init ++ before) g := by
  rw [h.updateAll_init] at hpos
  exact included_of_isBeforePos (h.increasing_gtidsBefore hf p) hpos (by rw [heq, append_assoc])

lemma Ok.good_of_base (h : Ok b) {base : List Gtid} (hf : b.files[k]? = some f)
    (hbase : b.readBase k = .found base) (hpos : (updateAll [] base).isBeforePos pos)
    (hnext : b.readBase (k + 1) ≠ .error) :
    ∃ page state, b.findPage pos k f.interval (updateAll [] base)
        ((endPage f + 1) * (endPage f + 2)) 0 (middlePage f.interval 0 (endPage f)) (endPage f)
        (updateAll [] base) = some (page, state) ∧
      b.Good pos (.found k (startPage page) state) := by
  obtain ⟨hm1, hm2⟩ := middlePage_spec f.interval (Nat.zero_le (endPage f))
  have hstart : b.Recorded k (startPage 0) (updateAll [] base) := ⟨base, hbase, .inl ⟨rfl, rfl⟩⟩
  have hstate : updateAll [] base = b.init.updateAll (b.gtidsBefore k (startPage 0)) :=
    (h.updateAll_base hbase).trans (congrArg _ (h.gtidsBefore_one hf).symm)
  have hfuel : (endPage f - 0) * (endPage f + 1) + middlePage f.interval 0 (endPage f) <
      (endPage f + 1) * (endPage f + 2) := by
    have : (endPage f + 1) * (endPage f + 2) =
        endPage f * (endPage f + 1) + 2 * (endPage f + 1) := by
      rw [Nat.mul_comm (endPage f + 1), Nat.add_mul]
    rw [Nat.sub_zero]
    omega
  obtain ⟨page, state, heq, hrec, hst, hbefore⟩ :=
    h.findPage_spec (h.interval f (List.mem_of_getElem? hf)) hbase hnext
      ⟨hstart, hstate, hpos, hm1, Nat.zero_le _, hm2⟩ (Nat.le_refl _) hfuel
  refine ⟨page, state, heq, fun before g after hsplit => ?_, .inl ⟨hrec, hst⟩⟩
  exact h.included hf (hst ▸ hbefore) hsplit

lemma Ok.good_of_emptyFile (h : Ok b) (pos : List Gtid) (hr : b.readBase 0 = .none) :
    b.Good pos (.found 0 1 []) := by
  obtain ⟨f, hf⟩ : ∃ f, b.files[0]? = some f := ⟨_, getElem?_eq_getElem (by simp [files])⟩
  have hnone : b.gtidsBefore 0 1 = [] := h.gtidsBefore_one hf
  refine ⟨fun before g after heq => by simp [hnone] at heq, .inr ⟨⟨rfl, rfl, rfl⟩, ?_⟩⟩
  obtain hnil | ⟨e, rest, heq, hne⟩ := h.page f (List.mem_of_getElem? hf)
  · right
    obtain ⟨hk, rfl⟩ := h.eq_cur hf hnil
    rw [files, length_eq_zero_iff.mp hk.symm, ← hnil]
    rfl
  · left
    rw [readBase_eq hf heq hne] at hr
    cases e with
    | page => exact absurd rfl hne
    | cont | state => cases hr
    | start => exact h.first hf heq

/-- The search ends, and what it finds is good, in every history in which the GTIDs of a server
are written in order, the first file has its state, this is not taken for that of the first event
group, and no state is lost by a restart. It starts at the active file, which may be after what
can be read. -/
theorem findGtidPos_good {b : GtidBinlog} (h : Reached Sound b) (pos : List Gtid) {active : Nat}
    (hactive : b.closed.length ≤ active) :
    ∃ res, b.findGtidPos pos active = some res ∧ b.Good pos res := by
  have h := Ok.of_reached h
  unfold findGtidPos
  cases hfile : b.findFile pos active with
  | error | notFound => exact ⟨_, rfl, trivial⟩
  | emptyFile => exact ⟨_, rfl, h.good_of_emptyFile pos (findFile_emptyFile hfile)⟩
  | base k =>
    obtain ⟨base, hbase, rfl, hpos, hrest⟩ := findFile_base hfile
    obtain ⟨f, hf, -⟩ := h.readBase_found hbase
    have hnext : b.readBase (k + 1) ≠ .error := by
      obtain hk | ⟨rfl, -⟩ := lt_of_getElem?_files hf
      · exact hrest (k + 1) (Nat.lt_succ_self k) (by omega)
      · exact readBase_last
    obtain ⟨page, state, heq, hgood⟩ := h.good_of_base hf hbase hpos hnext
    refine ⟨_, ?_, hgood⟩
    simp [hf, heq]

def newBinlog (init : BinlogState) : GtidBinlog := ⟨init, [], ⟨2, []⟩, 0, init, []⟩

lemma start_newBinlog {init : BinlogState} (h : init.Pairwise fun g h => ¬ g.SameServer h) :
    (newBinlog init).Start :=
  ⟨rfl, rfl, ⟨1, rfl⟩, rfl, h, rfl, rfl⟩

instance : DecidablePred b.InOrder := fun e => by unfold InOrder; split <;> infer_instance

instance : DecidablePred b.NotSingleton := fun e => by unfold NotSingleton; split <;> infer_instance

instance : DecidablePred b.FirstState := fun e => by unfold FirstState; split <;> infer_instance

instance : DecidablePred b.DiffKept := fun e => by unfold DiffKept; split <;> infer_instance

instance : DecidablePred b.BaseState := fun e => by unfold BaseState; split <;> infer_instance

/-- A restart after the first page, and one event group behind it. -/
theorem findGtidPos_good_newBinlog :
    let b := ((((newBinlog []).step (.state 0)).step .restart).step
      (.start false (some ⟨0, 1, 1⟩))).step (.state 0)
    Reached Sound b ∧ b.findGtidPos [⟨0, 1, 1⟩] 0 = some (.found 0 2 [⟨0, 1, 1⟩]) ∧
      b.Good [⟨0, 1, 1⟩] (.found 0 2 [⟨0, 1, 1⟩]) := by
  intro b
  have hb : Reached Sound b := by
    refine .step (.step (.step (.step (.start (start_newBinlog .nil)) (.inl rfl) ?_)
      ⟨.inl rfl, by decide⟩ ?_) (.inr (by decide)) ?_) (.inr (by decide)) ?_
    all_goals exact ⟨by decide, by decide, by decide, by decide, by decide⟩
  have hfind : b.findGtidPos [⟨0, 1, 1⟩] 0 = some (.found 0 2 [⟨0, 1, 1⟩]) := by decide
  obtain ⟨res, hres, hgood⟩ := findGtidPos_good hb [⟨0, 1, 1⟩] (Nat.le_refl 0)
  obtain rfl := Option.some.inj (hres.symm.trans hfind)
  exact ⟨hb, hfind, hgood⟩

/-- Some history with this at every event has a place that is not good. -/
def Fails (cond : GtidBinlog → GtidEvent → Prop) : Prop :=
  ∃ b pos res, Reached cond b ∧ b.findGtidPos pos b.closed.length = some res ∧ ¬ b.Good pos res

instance {before : List Gtid} {g : Gtid} : Decidable (BinlogState.Included pos before g) :=
  inferInstanceAs (Decidable (∃ e ∈ pos.find? _, e ∉ before ∧ _))

/-- A state of 20000 GTIDs, for which a small file has no room. -/
lemma exists_start : ∃ init : BinlogState, (newBinlog init).Start ∧ init.length = 20000 ∧
    ∀ g ∈ init, g.seqNo = 7 := by
  refine ⟨(List.range 20000).map fun i => ⟨i, 1, 7⟩, start_newBinlog ?_, by simp, by simp⟩
  exact pairwise_map.mpr (nodup_range.imp fun hne hsame => hne hsame.1)

/-- Each of the conditions is needed. After 0-1-10 and 0-1-5, the first is before the place for
0-1-7. A binlog that starts with the state 0-1-1 has 0-2-2 before the place for the position 0-1-1.
Without a state in the first file, the state of its start is empty. After 0-1-2, 0-1-6 and a
restart, 0-1-6 is before the place for 0-1-3. After a restart in a file without a state, the GTIDs
of the files before it are lost. -/
theorem not_findGtidPos_good :
    Fails (fun b e => b.NotSingleton e ∧ b.FirstState e ∧ b.DiffKept e ∧ b.BaseState e) ∧
    Fails (fun b e => b.InOrder e ∧ b.FirstState e ∧ b.DiffKept e ∧ b.BaseState e) ∧
    Fails (fun b e => b.InOrder e ∧ b.NotSingleton e ∧ b.DiffKept e ∧ b.BaseState e) ∧
    Fails (fun b e => b.InOrder e ∧ b.NotSingleton e ∧ b.FirstState e ∧ b.BaseState e) ∧
    Fails (fun b e => b.InOrder e ∧ b.NotSingleton e ∧ b.FirstState e ∧ b.DiffKept e) := by
  obtain ⟨init, hinit, hlen, hseq⟩ := exists_start
  refine ⟨?_, ?_, ?_, ?_, ?_⟩
  · refine ⟨((((newBinlog []).step (.state 0)).step (.start false (some ⟨0, 1, 10⟩))).step
      (.start false (some ⟨0, 1, 5⟩))).step (.state 0), [⟨0, 1, 7⟩],
      .found 0 2 [⟨0, 1, 5⟩], ?_, by decide, fun hgood => ?_⟩
    · refine .step (.step (.step (.step (.start (start_newBinlog .nil)) (.inl rfl) ?_)
        (.inr (by decide)) ?_) (.inr (by decide)) ?_) (.inr (by decide)) ?_
      all_goals decide
    · exact absurd (hgood.1 [] ⟨0, 1, 10⟩ [⟨0, 1, 5⟩] (by decide)) (by decide)
  · refine ⟨(((newBinlog [⟨0, 1, 1⟩]).step (.state 0)).step
      (.start false (some ⟨0, 2, 2⟩))).step (.state 0), [⟨0, 1, 1⟩],
      .found 0 2 [⟨0, 2, 2⟩], ?_, by decide, fun hgood => ?_⟩
    · refine .step (.step (.step (.start (start_newBinlog (by decide))) (.inl rfl) ?_)
        (.inr (by decide)) ?_) (.inr (by decide)) ?_
      all_goals decide
    · exact absurd (hgood.1 [] ⟨0, 2, 2⟩ [] (by decide)) (by decide)
  · refine ⟨(newBinlog init).step (.start true (some ⟨0, 1, 9⟩)), [⟨0, 1, 7⟩], .found 0 1 [],
      .step (.start hinit) (.inl rfl) ⟨?_, trivial, trivial, trivial⟩, rfl, ?_⟩
    · intro g hg _
      rw [hseq g hg]
      decide
    · rintro ⟨-, ⟨⟨base, hbase, -⟩, -⟩ | ⟨-, hnil | hfiles⟩⟩
      · cases hbase
      · cases (show init = [] from hnil) ▸ hlen
      · cases hfiles
  · refine ⟨((((((newBinlog []).step (.state 0)).step (.start false (some ⟨0, 1, 2⟩))).step
      (.start false (some ⟨0, 1, 6⟩))).step .restart).step (.state 0)).step (.cont false),
      [⟨0, 1, 3⟩], .found 0 2 [], ?_, by decide, fun hgood => ?_⟩
    · refine .step (.step (.step (.step (.step (.step (.start (start_newBinlog .nil)) (.inl rfl) ?_)
        (.inr (by decide)) ?_) (.inr (by decide)) ?_) ⟨.inl rfl, by decide⟩ ?_) (.inr (by decide))
        ?_) (.inr (by decide)) ?_
      all_goals decide
    · exact absurd (hgood.1 [⟨0, 1, 2⟩] ⟨0, 1, 6⟩ [] (by decide)) (by decide)
  · refine ⟨((((((((newBinlog init).step (.state 5)).step
      (.start false (some ⟨1, 1, 9⟩))).step (.newFile 2)).step (.start true none)).step
      .restart).step (.newFile 2)).step (.state 0)), [], .found 2 1 [], ?_,
      by with_unfolding_all rfl, fun hgood => ?_⟩
    · have hsingle : (newBinlog init).singletonCase = false := by
        obtain _ | ⟨_, _ | _⟩ := init <;> first | rfl | cases hlen
      refine .step (.step (.step (.step (.step (.step (.step (.start hinit) (.inl rfl)
        ⟨trivial, fun _ => hsingle, trivial, fun h => absurd rfl h⟩)
        (.inr nofun) ⟨?_, trivial, nofun, trivial⟩)
        ⟨⟨1, rfl⟩, nofun⟩ ⟨trivial, trivial, trivial, trivial⟩)
        (.inl rfl) ⟨trivial, trivial, nofun, trivial⟩)
        ⟨.inr nofun, nofun⟩ ⟨trivial, trivial, trivial, trivial⟩)
        ⟨⟨1, rfl⟩, nofun⟩ ⟨trivial, trivial, trivial, trivial⟩)
        (.inl rfl) ⟨trivial, fun _ => rfl, trivial, fun h => absurd rfl h⟩
      intro g hg _
      rw [hseq g hg]
      decide
    · exact absurd (hgood.1 [] ⟨1, 1, 9⟩ [] rfl) (by simp [BinlogState.Included])

end GtidBinlog

end MariaDB.Binlog
