import MariaDB.Rpl.BinlogState

/-!
# The search for a GTID position

A binlog file has the GTID state at its start and, at every so many pages, the GTIDs since then.
`find_gtid_pos()` goes back to a file whose state is before the position, and searches its
pages for the last state that is. The GTID of an event group is added to the state when the
first byte of its commit record is written. A restart continues the last file with an empty
state of the GTIDs since its start.
-/
namespace MariaDB.Binlog

open MariaDB.Rpl BinlogState List

/-- What a reader meets in a binlog file. A record may go on in further chunks, each on a page of
its own. -/
inductive BinlogEntry
  /-- A page starts; the first one is page 1. -/
  | page
  /-- A chunk that continues a record. -/
  | cont
  /-- The first chunk of a record, with the GTID if it is a commit record. -/
  | start (gtid : Option Gtid)
  /-- The first chunk of a GTID state record. -/
  | state (gtids : List Gtid)
  deriving DecidableEq

namespace BinlogEntry

def gtid? : BinlogEntry → Option Gtid
  | start gtid => gtid
  | _ => none

def isRecord : BinlogEntry → Bool
  | start _ | state _ => true
  | _ => false

end BinlogEntry

def gtidsOf (es : List BinlogEntry) : List Gtid := es.filterMap BinlogEntry.gtid?

def numPages (es : List BinlogEntry) : Nat := es.countP (· = .page)

def seekPage : Nat → List BinlogEntry → Option (List BinlogEntry)
  | 0, es => some es
  | _ + 1, [] => none
  | p + 1, .page :: es => seekPage p es
  | p + 1, _ :: es => seekPage (p + 1) es

def beforePage : Nat → List BinlogEntry → List BinlogEntry
  | 0, _ => []
  | _ + 1, [] => []
  | p + 1, .page :: es => .page :: beforePage p es
  | p + 1, e :: es => e :: beforePage (p + 1) es

structure GtidFile where
  interval : Nat
  entries : List BinlogEntry

/-- A binlog that starts with the state `init`, from file 0 to the current one. `full` and `diff`
are `binlog_full_state` and `binlog_diff_state`. -/
structure GtidBinlog where
  init : BinlogState
  closed : List GtidFile
  cur : GtidFile
  earliest : Nat
  full : BinlogState
  diff : BinlogState

inductive GtidEvent
  | newFile (interval : Nat)
  | cont (newPage : Bool)
  | start (newPage : Bool) (gtid : Option Gtid)
  /-- A state record at the start of a page, which goes on on `more` pages. -/
  | state (more : Nat)
  | purge (fileNo : Nat)
  | restart

inductive SearchResult
  /-- -1 -/
  | error
  /-- 0 -/
  | notFound
  /-- 1, with the file, the page and the state. -/
  | found (fileNo pageNo : Nat) (state : BinlogState)
  deriving DecidableEq

inductive FileResult
  | error
  | notFound
  /-- The first file has no state record. -/
  | emptyFile
  | base (fileNo : Nat) (state : BinlogState)

inductive ReadState
  | error
  | none
  | found (gtids : List Gtid)
  deriving DecidableEq

namespace GtidBinlog

variable (b : GtidBinlog)

def files : List GtidFile := b.closed ++ [b.cur]

def gtidsBeforeFile (fileNo : Nat) : List Gtid :=
  (b.files.take fileNo).flatMap fun f => gtidsOf f.entries

def gtidsBefore (fileNo pageNo : Nat) : List Gtid :=
  b.gtidsBeforeFile fileNo ++
    gtidsOf (beforePage pageNo ((b.files[fileNo]?.map GtidFile.entries).getD []))

def gtids : List Gtid := b.files.flatMap fun f => gtidsOf f.entries

/-! ## The reader of states -/

def dataFrom (fileNo pageNo : Nat) : List BinlogEntry :=
  match b.files[fileNo]? with
  | none => []
  | some f =>
    match seekPage pageNo f.entries with
    | none => []
    | some es => es ++ (b.files.drop (fileNo + 1)).flatMap GtidFile.entries

def readBase (fileNo : Nat) : ReadState :=
  match (b.dataFrom fileNo 1).find? (· ≠ .page) with
  | some .cont => .error
  | some (.state gtids) => .found gtids
  | _ => .none

def readDiff (fileNo pageNo : Nat) : ReadState :=
  match (b.dataFrom fileNo pageNo).find? BinlogEntry.isRecord with
  | some (.state gtids) => .found gtids
  | _ => .none

/-! ## The writer -/

def nextPageNo : Nat := numPages b.cur.entries + 1

/-- At the start of the first file, a state with the first GTID of a server only is taken for
that of the event group which is written, and an empty state is recorded. -/
def singletonCase : Bool :=
  b.closed = [] && match b.full with
    | [g] => g.seqNo = 1
    | _ => false

def recordedState : List Gtid :=
  if b.nextPageNo = 1 then if b.singletonCase then [] else b.full else b.diff

def append (es : List BinlogEntry) : GtidBinlog :=
  { b with
    cur := { b.cur with entries := b.cur.entries ++ es }
    full := b.full.updateAll (gtidsOf es)
    diff := b.diff.updateAll (gtidsOf es) }

def onPage (newPage : Bool) (e : BinlogEntry) : List BinlogEntry :=
  if newPage then [.page, e] else [e]

/-- The last page with a state, from a multiple of the interval down. -/
def recoverPage : Nat → Nat × List Gtid
  | 0 => (0, [])
  | n + 1 =>
    if 1 < (n + 1) * b.cur.interval then
      match b.readDiff b.closed.length ((n + 1) * b.cur.interval) with
      | .found gtids => ((n + 1) * b.cur.interval, gtids)
      | _ => recoverPage n
    else (1, [])

/-- `binlog_state_recover()`: the state of the file, that of its last page with one, and the GTIDs
from there on. -/
def recover : BinlogState :=
  let base := match b.readBase b.closed.length with
    | .found gtids => gtids
    | _ => []
  let (pageNo, diff) := b.recoverPage (numPages b.cur.entries / b.cur.interval)
  updateAll [] (base ++ diff ++ gtidsOf ((seekPage pageNo b.cur.entries).getD []))

def step : GtidEvent → GtidBinlog
  | .newFile interval =>
    { b with closed := b.closed ++ [b.cur], cur := ⟨interval, []⟩, diff := [] }
  | .cont newPage => b.append (onPage newPage .cont)
  | .start newPage gtid => b.append (onPage newPage (.start gtid))
  | .state more =>
    b.append ([.page, .state b.recordedState] ++
      (List.replicate more [BinlogEntry.page, .cont]).flatten)
  | .purge fileNo => { b with earliest := fileNo }
  -- `innodb_binlog_init_state()` empties both states
  | .restart => { b with full := b.recover, diff := [] }

def Legal : GtidEvent → Prop
  | .newFile interval => (∃ k, interval = 2 ^ k) ∧ b.cur.entries ≠ []
  | .cont newPage => newPage ∨ b.cur.entries ≠ []
  | .start newPage _ => newPage ∨ b.cur.entries ≠ []
  | .state _ => b.nextPageNo = 1 ∨ b.cur.interval ∣ b.nextPageNo
  | .purge fileNo => fileNo ≤ b.closed.length
  | .restart => (b.closed = [] ∨ b.cur.entries ≠ []) ∧ b.readBase b.closed.length ≠ .error

/-- A new binlog, after `RESET MASTER` or `SET GLOBAL gtid_binlog_state`. -/
structure Start : Prop where
  closed : b.closed = []
  entries : b.cur.entries = []
  interval : ∃ k, b.cur.interval = 2 ^ k
  earliest : b.earliest = 0
  init : b.init.Pairwise fun g h => ¬ g.SameServer h
  full : b.full = b.init
  diff : b.diff = []

inductive Reached (cond : GtidBinlog → GtidEvent → Prop) : GtidBinlog → Prop
  | start {b : GtidBinlog} : b.Start → Reached cond b
  | step {b : GtidBinlog} {e : GtidEvent} :
      Reached cond b → b.Legal e → cond b e → Reached cond (b.step e)

def InOrder : GtidEvent → Prop
  | .start _ (some g) => ∀ h ∈ b.full, h.SameServer g → h.seqNo < g.seqNo
  | _ => True

/-- The first file does not start with a state that has the first GTID of one server only. -/
def NotSingleton : GtidEvent → Prop
  | .state _ => b.nextPageNo = 1 → b.singletonCase = false
  | _ => True

/-- The first file starts with a state record, if the binlog starts with a state. -/
def FirstState : GtidEvent → Prop
  | .start _ _ => b.closed = [] → b.cur.entries = [] → b.init = []
  | _ => True

/-- A state that is recorded for a page has the GTIDs of the whole file: there were none before a
restart. -/
def DiffKept : GtidEvent → Prop
  | .state _ => b.nextPageNo ≠ 1 → b.diff = updateAll [] (gtidsOf b.cur.entries)
  | _ => True

/-- The file in which a restart goes on has its state, if there is one before it. -/
def BaseState : GtidEvent → Prop
  | .restart => b.readBase b.closed.length = .none →
      b.init.updateAll (b.gtidsBeforeFile b.closed.length) = []
  | _ => True

/-! ## The search -/

def findFile (pos : List Gtid) : Nat → FileResult
  | 0 =>
    match b.readBase 0 with
    | .error => .error
    | .none => .emptyFile
    | .found gtids =>
      if (updateAll [] gtids).isBeforePos pos then
        .base 0 (updateAll [] gtids)
      else .notFound
  | fileNo + 1 =>
    match b.readBase (fileNo + 1) with
    | .error => .error
    | .none => if fileNo + 1 ≤ b.earliest then .notFound else findFile pos fileNo
    | .found gtids =>
      if (updateAll [] gtids).isBeforePos pos then
        .base (fileNo + 1) (updateAll [] gtids)
      else if fileNo + 1 ≤ b.earliest then .notFound else findFile pos fileNo

def middlePage (interval page0 page2 : Nat) : Nat :=
  page0 + (page2 - page0) / (2 * interval) * interval

/-- The loop over pages; `none` is a loop that does not end. -/
def findPage (pos : List Gtid) (fileNo interval : Nat) (base : BinlogState) :
    Nat → Nat → Nat → Nat → BinlogState → Option (Nat × BinlogState)
  | 0, _, _, _, _ => none
  | fuel + 1, page0, page1, page2, state =>
    if page0 + interval ≤ page1 ∧ 1 < page1 then
      match b.readDiff fileNo page1 with
      | .found gtids =>
        let tmp := base.updateAll gtids
        if tmp.isBeforePos pos then
          findPage pos fileNo interval base fuel page1 (middlePage interval page1 page2) page2 tmp
        else
          findPage pos fileNo interval base fuel page0 (middlePage interval page0 page1) page1 state
      | _ => findPage pos fileNo interval base fuel page0 (page1 - interval) page2 state
    else some (page0, state)

def endPage (f : GtidFile) : Nat :=
  let page2 := f.interval + numPages f.entries
  page2 - page2 % f.interval

def startPage (page0 : Nat) : Nat := if page0 = 0 then 1 else page0

def findGtidPos (pos : List Gtid) (fileNo : Nat) : Option SearchResult :=
  match b.findFile pos fileNo with
  | .error => some .error
  | .notFound => some .notFound
  | .emptyFile => some (.found 0 1 [])
  | .base fileNo base =>
    match b.files[fileNo]? with
    | none => some .error
    | some f =>
      (b.findPage pos fileNo f.interval base ((endPage f + 1) * (endPage f + 2)) 0
        (middlePage f.interval 0 (endPage f)) (endPage f) base).map fun (page0, state) =>
          .found fileNo (startPage page0) state

/-- The state that is recorded for a page: that of the file, and on top of it that of the page. -/
def Recorded (fileNo pageNo : Nat) (state : BinlogState) : Prop :=
  ∃ base, b.readBase fileNo = .found base ∧
    (pageNo = 1 ∧ state = updateAll [] base ∨
      ∃ diff, b.readDiff fileNo pageNo = .found diff ∧ state = (updateAll [] base).updateAll diff)

/-- The event groups before the place that is found are included in the position, and the state
is the recorded one, which is that of these event groups. There is no recorded state before
something is written. -/
def Good (pos : List Gtid) : SearchResult → Prop
  | .found fileNo pageNo state =>
    (∀ before g after, b.gtidsBefore fileNo pageNo = before ++ g :: after →
      BinlogState.Included pos (b.init ++ before) g) ∧
    (b.Recorded fileNo pageNo state ∧ state = b.init.updateAll (b.gtidsBefore fileNo pageNo) ∨
      (fileNo = 0 ∧ pageNo = 1 ∧ state = []) ∧ (b.init = [] ∨ b.files = [⟨b.cur.interval, []⟩]))
  | _ => True

/-! ## Entries -/

variable {es : List BinlogEntry} {k : Nat}

lemma eq_beforePage_append : ∀ {suf : List BinlogEntry},
    seekPage p es = some suf → es = beforePage p es ++ suf ∧ numPages (beforePage p es) = p := by
  induction p, es using seekPage.induct <;> grind [seekPage, beforePage, numPages]

lemma beforePage_isPrefix (p : Nat) (es : List BinlogEntry) : beforePage p es <+: es := by
  induction p, es using beforePage.induct <;> grind [beforePage]

@[simp]
lemma gtidsOf_append (es es' : List BinlogEntry) :
    gtidsOf (es ++ es') = gtidsOf es ++ gtidsOf es' :=
  filterMap_append

@[simp]
lemma numPages_append (es es' : List BinlogEntry) :
    numPages (es ++ es') = numPages es + numPages es' :=
  countP_append

lemma gtidsOf_eq_nil (h : ∀ e ∈ es, e.isRecord = false) : gtidsOf es = [] := by
  refine filterMap_eq_nil_iff.mpr fun e he => ?_
  have := h e he
  cases e <;> simp_all [BinlogEntry.isRecord, BinlogEntry.gtid?]

/-! ## What the files have -/

structure Ok (b : GtidBinlog) : Prop where
  init : b.init.Pairwise fun g h => ¬ g.SameServer h
  interval : ∀ f ∈ b.files, 0 < f.interval
  closed : ∀ f ∈ b.closed, f.entries ≠ []
  /-- A page starts with a chunk. -/
  page : ∀ f ∈ b.files, f.entries = [] ∨ ∃ e rest, f.entries = .page :: e :: rest ∧ e ≠ .page
  /-- The state of a file is at its first page, and that of what is new at the others. -/
  state : ∀ {k : Nat} {f : GtidFile} {x y : List BinlogEntry} {gtids : List Gtid},
    b.files[k]? = some f → f.entries = x ++ .state gtids :: y →
    gtids = if numPages x = 1 then b.init.updateAll (b.gtidsBeforeFile k ++ gtidsOf x)
      else updateAll [] (gtidsOf x)
  first : ∀ {f : GtidFile} {gtid : Option Gtid} {rest : List BinlogEntry},
    b.files[0]? = some f → f.entries = .page :: .start gtid :: rest → b.init = []
  increasing : BinlogState.Increasing (b.init ++ b.gtids)
  full : b.full = b.init.updateAll b.gtids

variable {b}

lemma getElem?_files_closed (hk : k < b.closed.length) : b.files[k]? = b.closed[k]? :=
  getElem?_append_left hk

lemma getElem?_files_cur : b.files[b.closed.length]? = some b.cur := by
  simp [files]

lemma lt_of_getElem?_files (h : b.files[k]? = some f) :
    k < b.closed.length ∨ k = b.closed.length ∧ f = b.cur := by
  grind [files]

lemma gtidsBeforeFile_of_le (hk : k ≤ b.closed.length) :
    b.gtidsBeforeFile k = (b.closed.take k).flatMap fun f => gtidsOf f.entries := by
  rw [gtidsBeforeFile, files, take_append_of_le_length hk]

lemma gtids_eq : b.gtids =
    (b.closed.flatMap fun f => gtidsOf f.entries) ++ gtidsOf b.cur.entries := by
  simp [gtids, files]

lemma Ok.of_start (h : b.Start) : Ok b := by
  have hfiles : b.files = [b.cur] := by simp [files, h.closed]
  have hmem : ∀ f ∈ b.files, f = b.cur := by simp [hfiles]
  have hgtids : b.gtids = [] := by simp [gtids_eq, h.closed, h.entries, gtidsOf]
  refine ⟨h.init, ?_, by simp [h.closed], ?_, ?_, ?_, ?_, by rw [hgtids, h.full, updateAll_nil]⟩
  · intro f hf
    obtain ⟨k, hk⟩ := h.interval
    rw [hmem f hf, hk]
    exact Nat.two_pow_pos k
  · exact fun f hf => .inl (hmem f hf ▸ h.entries)
  · intro k f x y gtids hf hx
    rw [hmem f (mem_of_getElem? hf), h.entries] at hx
    simp at hx
  · intro f gtid rest hf hx
    rw [hmem f (mem_of_getElem? hf), h.entries] at hx
    cases hx
  · rw [hgtids, append_nil]
    exact h.init.imp fun hne hsame => absurd hsame hne

/-- The entries that a step adds to the current file: chunks of a page that has some or of a new
page, and a state record with the state of that place. -/
structure Added (b : GtidBinlog) (es : List BinlogEntry) : Prop where
  page : (b.cur.entries = [] → ∃ e rest, es = .page :: e :: rest ∧ e ≠ .page)
  state : ∀ {x y : List BinlogEntry} {gtids : List Gtid}, es = x ++ .state gtids :: y →
    gtids = if numPages (b.cur.entries ++ x) = 1 then
        b.init.updateAll (b.gtidsBeforeFile b.closed.length ++ gtidsOf (b.cur.entries ++ x))
      else updateAll [] (gtidsOf (b.cur.entries ++ x))
  first : b.closed = [] → b.cur.entries = [] →
    ∀ {gtid : Option Gtid} {rest : List BinlogEntry}, es = .page :: .start gtid :: rest →
      b.init = []
  increasing : BinlogState.Increasing (b.init ++ b.gtids ++ gtidsOf es)

lemma Ok.append (h : Ok b) (hes : Added b es) : Ok (b.append es) := by
  have hfiles : (b.append es).files = b.closed ++ [⟨b.cur.interval, b.cur.entries ++ es⟩] := rfl
  have hclosed : (b.append es).closed = b.closed := rfl
  have hmem : ∀ f ∈ (b.append es).files,
      f ∈ b.closed ∨ f = ⟨b.cur.interval, b.cur.entries ++ es⟩ := by
    simp [hfiles]
  have hgtids : (b.append es).gtids = b.gtids ++ gtidsOf es := by
    simp [gtids_eq, GtidBinlog.append]
  refine ⟨h.init, ?_, h.closed, ?_, ?_, ?_, ?_, ?_⟩
  · intro f hf
    obtain hf | rfl := hmem f hf
    · exact h.interval f (mem_append_left _ hf)
    · exact h.interval b.cur (by simp [files])
  · intro f hf
    obtain hf | rfl := hmem f hf
    · exact h.page f (mem_append_left _ hf)
    · right
      obtain hnil | ⟨e, rest, heq, hne⟩ := h.page b.cur (by simp [files])
      · obtain ⟨e, rest, rfl, hne⟩ := hes.page hnil
        exact ⟨e, rest, by simp [hnil], hne⟩
      · exact ⟨e, rest ++ es, by simp [heq], hne⟩
  · intro k f x y gtids hf hx
    have hbefore : ∀ {k : Nat}, k ≤ b.closed.length →
        (b.append es).gtidsBeforeFile k = b.gtidsBeforeFile k := fun hk => by
      rw [gtidsBeforeFile_of_le hk, gtidsBeforeFile_of_le (b := b.append es) hk, hclosed]
    obtain hk | ⟨rfl, rfl⟩ := lt_of_getElem?_files hf
    · have hk : k < b.closed.length := hk
      rw [hbefore (Nat.le_of_lt hk)]
      rw [getElem?_files_closed (b := b.append es) hk, hclosed, ← getElem?_files_closed hk] at hf
      exact h.state hf hx
    · rw [hclosed, hbefore (Nat.le_refl _)]
      rcases append_eq_append_iff.mp (show b.cur.entries ++ es = x ++ _ from hx) with
        ⟨w, rfl, hw⟩ | ⟨w, hw, hrest⟩
      · exact hes.state hw
      · cases w with
        | nil =>
          obtain rfl : b.cur.entries = x := by simpa using hw
          have hstate := hes.state (x := []) (by simpa using hrest.symm)
          rwa [append_nil] at hstate
        | cons =>
          obtain ⟨rfl, -⟩ := cons.inj hrest
          exact h.state getElem?_files_cur hw
  · intro f gtid rest hf hx
    obtain hk | ⟨hk, rfl⟩ := lt_of_getElem?_files hf
    · have hk : 0 < b.closed.length := hk
      rw [getElem?_files_closed (b := b.append es) hk, hclosed, ← getElem?_files_closed hk] at hf
      exact h.first hf hx
    · have hnil : b.closed = [] := length_eq_zero_iff.mp hk.symm
      have hcur : b.files[0]? = some b.cur := by simp [files, hnil]
      have hx : b.cur.entries ++ es = .page :: .start gtid :: rest := hx
      obtain hempty | ⟨e, rest', heq, -⟩ := h.page b.cur (by simp [files])
      · rw [hempty] at hx
        exact hes.first hnil hempty hx
      · rw [heq] at hx
        obtain ⟨-, hx⟩ := cons.inj hx
        obtain ⟨rfl, -⟩ := cons.inj hx
        exact h.first hcur heq
  · rw [hgtids, ← append_assoc]
    exact hes.increasing
  · rw [hgtids, updateAll_append]
    exact congrArg (·.updateAll (gtidsOf es)) h.full

lemma Ok.newFile (h : Ok b) {interval : Nat} (hl : b.Legal (.newFile interval)) :
    Ok (b.step (.newFile interval)) := by
  obtain ⟨⟨n, hn⟩, hne⟩ := hl
  have hfiles : (b.step (.newFile interval)).files = b.files ++ [⟨interval, []⟩] := rfl
  have hmem : ∀ f ∈ (b.step (.newFile interval)).files, f ∈ b.files ∨ f = ⟨interval, []⟩ := by
    simp [hfiles]
  have hgtids : (b.step (.newFile interval)).gtids = b.gtids := by
    rw [gtids, hfiles, flatMap_append]
    exact append_nil _
  refine ⟨h.init, ?_, ?_, ?_, ?_, ?_, ?_, ?_⟩
  · intro f hf
    obtain hf | rfl := hmem f hf
    · exact h.interval f hf
    · exact hn ▸ Nat.two_pow_pos n
  · intro f hf
    obtain hf | hf := mem_append.mp (show f ∈ b.closed ++ [b.cur] from hf)
    · exact h.closed f hf
    · exact mem_singleton.mp hf ▸ hne
  · intro f hf
    obtain hf | rfl := hmem f hf
    · exact h.page f hf
    · exact .inl rfl
  · intro k f x y gtids hf hx
    obtain hk | ⟨rfl, rfl⟩ := lt_of_getElem?_files hf
    · have hk : k < b.files.length := hk
      have hbefore : (b.step (.newFile interval)).gtidsBeforeFile k = b.gtidsBeforeFile k := by
        rw [gtidsBeforeFile, hfiles, take_append_of_le_length (Nat.le_of_lt hk), gtidsBeforeFile]
      rw [hbefore]
      rw [hfiles, getElem?_append_left hk] at hf
      exact h.state hf hx
    · have hx : [] = x ++ .state gtids :: y := hx
      simp at hx
  · intro f gtid rest hf hx
    rw [hfiles, getElem?_append_left (by simp [files])] at hf
    exact h.first hf hx
  · rw [hgtids]
    exact h.increasing
  · rw [hgtids]
    exact h.full

lemma Added.of_onPage (h : Ok b) {newPage : Bool} {e : BinlogEntry} (hpage : e ≠ .page)
    (hstate : ∀ gtids, e ≠ .state gtids) (hl : newPage ∨ b.cur.entries ≠ [])
    (hfirst : ∀ gtid, e = .start gtid → b.FirstState (.start newPage gtid))
    (hinc : ∀ g, e.gtid? = some g → ∀ k ∈ b.full, k.SameServer g → k.seqNo < g.seqNo) :
    Added b (onPage newPage e) := by
  refine ⟨fun hnil => ?_, ?_, ?_, ?_⟩
  · obtain rfl | hne := hl
    · exact ⟨e, [], rfl, hpage⟩
    · exact absurd hnil hne
  · intro x y gtids hx
    have hmem : BinlogEntry.state gtids ∈ onPage newPage e := by rw [hx]; simp
    unfold onPage at hmem
    split at hmem
    · simp at hmem
      exact absurd hmem.symm (hstate gtids)
    · simp at hmem
      exact absurd hmem.symm (hstate gtids)
  · intro hclosed hnil gtid rest hx
    unfold onPage at hx
    split at hx
    · obtain ⟨-, hx⟩ := cons.inj hx
      exact hfirst gtid (cons.inj hx).1 hclosed hnil
    · cases (cons.inj hx).2
  · have hgtids : gtidsOf (onPage newPage e) = e.gtid?.toList := by
      have hone : gtidsOf [e] = e.gtid?.toList := by
        unfold gtidsOf
        cases he : e.gtid? with
        | none => rw [filterMap_cons_none he, filterMap_nil]; rfl
        | some => rw [filterMap_cons_some he, filterMap_nil]; rfl
      cases newPage with
      | false | true => exact hone
    rw [hgtids]
    cases he : e.gtid? with
    | none => simpa using h.increasing
    | some g =>
      refine h.increasing.concat fun k hk hsame => hinc g he k ?_ hsame
      rwa [updateAll_append, updateAll_nil_of_pairwise h.init, ← h.full] at hk

lemma Added.of_state (h : Ok b) (hc : b.NotSingleton (.state more))
    (hdiff : b.DiffKept (.state more)) :
    Added b ([.page, .state b.recordedState] ++
      (List.replicate more [BinlogEntry.page, .cont]).flatten) := by
  have hmore : ∀ e ∈ (List.replicate more [BinlogEntry.page, .cont]).flatten,
      e.isRecord = false := by
    intro e he
    obtain ⟨l, hl, he⟩ := mem_flatten.mp he
    obtain rfl := eq_of_mem_replicate hl
    simp only [mem_cons, not_mem_nil, or_false] at he
    obtain rfl | rfl := he <;> rfl
  refine ⟨fun _ => ⟨_, _, rfl, by simp⟩, ?_, fun _ _ _ _ hx => by simp at hx, ?_⟩
  · intro x y gtids hx
    -- the record is the second entry
    obtain ⟨rfl, rfl⟩ : x = [.page] ∧ gtids = b.recordedState := by
      match x, hx with
      | [], hx => simp at hx
      | [e], hx =>
        simp only [cons_append, nil_append, cons.injEq, BinlogEntry.state.injEq] at hx
        exact ⟨by rw [hx.1], hx.2.1.symm⟩
      | e :: e' :: x, hx =>
        simp only [cons_append, nil_append, cons.injEq] at hx
        have := hmore (.state gtids) (by rw [hx.2.2]; simp)
        simp [BinlogEntry.isRecord] at this
    have hnum : numPages (b.cur.entries ++ [.page]) = b.nextPageNo := by
      rw [numPages_append]
      rfl
    have hgtids : gtidsOf (b.cur.entries ++ [.page]) = gtidsOf b.cur.entries := by
      rw [gtidsOf_append]
      exact append_nil _
    rw [hnum, hgtids]
    unfold recordedState
    by_cases hpage : b.nextPageNo = 1
    · rw [if_pos hpage, if_pos hpage, hc hpage, h.full, gtids_eq,
        gtidsBeforeFile_of_le (Nat.le_refl _), take_length]
      rfl
    · rw [if_neg hpage, if_neg hpage, hdiff hpage]
  · have hnil : gtidsOf ([.page, .state b.recordedState] ++
        (List.replicate more [BinlogEntry.page, .cont]).flatten) = [] := by
      rw [gtidsOf_append, gtidsOf_eq_nil hmore]
      rfl
    rw [hnil, append_nil]
    exact h.increasing

end GtidBinlog

end MariaDB.Binlog
