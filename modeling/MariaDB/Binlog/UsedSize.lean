import Mathlib

/-!
# The space used by binlog files

`total_binlog_used_size` is kept in memory, so that a purge by size needs not look at every file.
A file is counted when it is pre-allocated and no longer when it is purged. `FLUSH BINARY LOGS`
truncates the active file, fills up the last page with a dummy record, and takes the size that the
file has after that for the one before: what it frees is never subtracted.
-/
namespace MariaDB.Binlog

structure SizedFile where
  /-- The size of the file on disk, in pages. -/
  pages : Nat
  /-- `size_in_pages` of the page FIFO. -/
  sizeInPages : Nat
deriving DecidableEq

/-- The binlog files from `earliest_binlog_file_no` on, and `total_binlog_used_size`. -/
structure UsedSize where
  earliest : Nat
  files : List SizedFile
  total : Nat
deriving DecidableEq

structure PurgeInfo where
  /-- The file was last written before the date, if there is one. -/
  byDate : Nat → Bool
  limitSize : Option Nat
  limitName : Option Nat
  limitFileNo : Nat
  /-- `get_oob_ref_in_use` -/
  inUse : Nat → Bool

/-- `fsp_binlog_flush` when the file at an index is the active one. -/
structure FlushInfo where
  index : Nat
  pageNo : Nat
  pageOffset : Nat
  /-- The bytes of the GTID state record, at the pages that start with one. -/
  stateBytes : Nat → Option Nat

/-- What changes the files, all under `purge_binlog_mutex`. -/
inductive SizeEvent where
  /-- The pre-allocation thread creates a file. -/
  | create (sizeInPages : Nat)
  | flush (info : FlushInfo)
  | purge (info : PurgeInfo)

namespace UsedSize

variable (shift : Nat)

def bytes (files : List SizedFile) : Nat := (files.map (·.pages <<< shift)).sum

/-- The loop of `innodb_binlog_purge_low`, and whether the file it ends at should be purged. -/
def purgeLoop (info : PurgeInfo) : Nat → List SizedFile → Nat → UsedSize × Bool
  | fileNo, [], total => (⟨fileNo, [], total⟩, false)
  | fileNo, f :: files, total =>
    let wantPurge := info.byDate fileNo || info.limitSize.any (· < total) ||
      info.limitName.any (fileNo < ·)
    if !wantPurge || info.limitFileNo ≤ fileNo || info.inUse fileNo then
      (⟨fileNo, f :: files, total⟩, wantPurge)
    else
      purgeLoop info (fileNo + 1) files
        (if total < f.pages <<< shift then total else total - f.pages <<< shift)

/-- A page without its checksum. -/
def pageRoom : Nat := 2 ^ shift - 4

/-- The page and the offset after `binlog_gtid_state`, which writes nothing if no page is left. -/
def binlogGtidState (stateBytes : Nat → Option Nat) (sizeInPages pageNo : Nat) : Nat × Nat :=
  match stateBytes pageNo with
  | none => (pageNo, 0)
  | some used =>
    let room := pageRoom shift
    if pageNo + (used + room - 1) / room < sizeInPages then
      let last := used % (room - 3)
      (pageNo + used / (room - 3), if last = 0 then 0 else last + 3)
    else (pageNo, 0)

/-- The pages that the file has after a dummy record at the start of a page. Page 0 gets the header
of the file. -/
def dummyFrom (stateBytes : Nat → Option Nat) (sizeInPages : Nat) : Nat → Nat → Nat
  | 0, pageNo => pageNo
  | left + 1, pageNo =>
    -- the record goes to the next file
    if sizeInPages ≤ pageNo then pageNo
    else
      let (pageNo, pageOffset) := binlogGtidState shift stateBytes sizeInPages (max pageNo 1)
      if pageRoom shift - pageOffset < 4 then dummyFrom stateBytes sizeInPages left (pageNo + 1)
      else pageNo + 1

/-- The pages of the file after `my_chsize` and the dummy record, which fills up the current page
unless this has less than four bytes left. -/
def flushedPages (info : FlushInfo) (sizeInPages : Nat) : Nat :=
  if 0 < info.pageOffset ∧ info.pageOffset + 4 ≤ pageRoom shift then info.pageNo + 1
  else
    let pageNo := if info.pageOffset = 0 then info.pageNo else info.pageNo + 1
    max (info.pageNo + 1)
      (dummyFrom shift info.stateBytes sizeInPages (sizeInPages - pageNo) pageNo)

def step (s : UsedSize) : SizeEvent → UsedSize
  -- the product is one of 32 bits
  | .create n => { s with files := s.files ++ [⟨n, n⟩], total := s.total + n <<< shift % 2 ^ 32 }
  | .flush info =>
    match s.files[info.index]? with
    | none => s
    | some f =>
      let f := { f with pages := flushedPages shift info f.sizeInPages }
      if info.pageNo + 1 < f.sizeInPages then
        let f := { f with sizeInPages := info.pageNo + 1 }
        let reclaimed := (f.sizeInPages - (info.pageNo + 1)) <<< shift
        { s with
          files := s.files.set info.index f
          total := if reclaimed ≤ s.total then s.total - reclaimed else s.total }
      else { s with files := s.files.set info.index f }
  | .purge info => (purgeLoop shift info s.earliest s.files s.total).1

/-- A file has less than 4 GiB, and as many pages after a flush as before. -/
def Fits (s : UsedSize) : SizeEvent → Prop
  | .create n => n <<< shift < 2 ^ 32
  | .flush info => ∀ f, s.files[info.index]? = some f →
      flushedPages shift info f.sizeInPages = f.pages
  | .purge _ => True

inductive Reachable : UsedSize → Prop where
  | start (earliest : Nat) (files : List SizedFile) :
    Reachable ⟨earliest, files, bytes shift files⟩
  | step {s : UsedSize} {ev : SizeEvent} : Reachable s → s.Fits shift ev →
    Reachable (s.step shift ev)

variable {shift} {s : UsedSize}

end UsedSize

end MariaDB.Binlog
