import MariaDB.Binlog.OobTree
import MariaDB.Library.Holders

/-!
# Reference counts of binlog files

`ibb_file_oob_refs` counts the transactions whose out-of-band data starts in a file, so that
the file is not purged. `earliest_oob_ref` follows the lowest file with references.
-/
namespace MariaDB.Binlog

/-- `ibb_file_hash`, and the files there are. -/
structure FileRefs where
  /-- The number `oob_refs` of the files in the hash. -/
  files : Nat → Option Nat
  earliest : Nat
  active : Nat
  lastCreated : Nat

namespace FileRefs

variable (r : FileRefs)

/-- The loop of `do_zero_refcnt_action()`; `limit` is the file that it does not move past. -/
def zeroRefcntLoop (files : Nat → Option Nat) (limit : Nat) : Nat → Nat → Nat → Nat
  | 0, _, earliest => earliest
  | fuel + 1, fileNo, earliest =>
    match files fileNo with
    | none => earliest
    | some refcnt =>
      if 0 < refcnt then earliest
      else if limit ≤ fileNo then earliest
      else zeroRefcntLoop files limit fuel (fileNo + 1)
        (if earliest = fileNo then fileNo + 1 else earliest)

/-- `do_zero_refcnt_action()`. The file number grows up to the limit, which bounds the
rounds. -/
def doZeroRefcntAction (fileNo : Nat) (activeMoving : Bool) : FileRefs :=
  let limit := r.active + activeMoving.toNat
  { r with earliest := zeroRefcntLoop r.files limit (limit + 1 - fileNo) fileNo r.earliest }

def setRefs (fileNo n : Nat) : FileRefs :=
  { r with files := fun f => if f = fileNo then some n else r.files f }

/-- `oob_ref_inc()`; `none` if there is no entry for the file. -/
def oobRefInc (fileNo : Nat) : Option FileRefs :=
  (r.files fileNo).map fun n => r.setRefs fileNo (n + 1)

/-- `fetch_sub(1)`, which wraps around. -/
def fetchSub (n : Nat) : Nat := if n = 0 then 2 ^ 64 - 1 else n - 1

def oobRefDec (fileNo : Nat) : FileRefs :=
  match r.files fileNo with
  | none => r
  | some n =>
    if fetchSub n = 0 then (r.setRefs fileNo (fetchSub n)).doZeroRefcntAction fileNo false
    else r.setRefs fileNo (fetchSub n)

/-- The files after `j` more ends of file were passed by a record that is being written; the
active file moves when the record is complete. -/
def passFiles : Nat → FileRefs
  | 0 => r
  | j + 1 => (passFiles j).doZeroRefcntAction (r.active + j) true

/-- `fsp_binlog_write_rec()`, of a record that passes the end of `k` files. -/
def writeRec (k : Nat) : FileRefs := { r.passFiles k with active := r.active + k }

/-- `fsp_binlog_tablespace_create()`. -/
def createFile : FileRefs :=
  { r.setRefs (r.lastCreated + 1) 0 with lastCreated := r.lastCreated + 1 }

end FileRefs

/-- The counts of the files are right for a number of holders of each file. -/
structure FilesOk (r : FileRefs) (count : Nat → Nat) : Prop where
  counted : ∀ f n, r.files f = some n → n = count f
  absent : ∀ f, r.files f = none → count f = 0
  earliest_le : ∀ f, 0 < count f → r.earliest ≤ f
  earliest_le_active : r.earliest ≤ r.active
  active_le : r.active ≤ r.lastCreated
  present : ∀ f, r.active ≤ f → f ≤ r.lastCreated → (r.files f).isSome
  beyond : ∀ f, r.lastCreated < f → r.files f = none

namespace FileRefs

variable {r : FileRefs} {count : Nat → Nat}

/-- `earliest_oob_ref` passes only files without references, up to the limit. -/
lemma zeroRefcntLoop_le {files : Nat → Option Nat} {limit : Nat} (fuel : Nat) :
    ∀ fileNo earliest, earliest ≤ limit →
      zeroRefcntLoop files limit fuel fileNo earliest ≤ limit ∧
        ∀ f, earliest ≤ f → (∀ n, files f = some n → 0 < n) →
          zeroRefcntLoop files limit fuel fileNo earliest ≤ f := by
  induction fuel <;> grind [zeroRefcntLoop]

lemma doZeroRefcntAction_earliest (r : FileRefs) (fileNo : Nat) (activeMoving : Bool)
    (hle : r.earliest ≤ r.active + activeMoving.toNat) :
    (r.doZeroRefcntAction fileNo activeMoving).earliest ≤ r.active + activeMoving.toNat ∧
      ∀ f, r.earliest ≤ f → (∀ n, r.files f = some n → 0 < n) →
        (r.doZeroRefcntAction fileNo activeMoving).earliest ≤ f :=
  zeroRefcntLoop_le _ _ _ hle

@[simp] lemma passFiles_keeps (r : FileRefs) (k : Nat) : (r.passFiles k).files = r.files ∧
    (r.passFiles k).active = r.active ∧ (r.passFiles k).lastCreated = r.lastCreated := by
  induction k with
  | zero => exact ⟨rfl, rfl, rfl⟩
  | succ k ih => exact ih

lemma passFiles_earliest (h : r.earliest ≤ r.active) (k : Nat) :
    (r.passFiles k).earliest ≤ r.active + min k 1 ∧
      ∀ f, r.earliest ≤ f → (∀ n, r.files f = some n → 0 < n) → (r.passFiles k).earliest ≤ f := by
  induction k with
  | zero => exact ⟨h, fun f hf _ => hf⟩
  | succ k ih =>
    obtain ⟨hle, hrefs⟩ := ih
    have hstep := (r.passFiles k).doZeroRefcntAction_earliest (r.active + k) true (by simp; omega)
    simp only [passFiles_keeps, Bool.toNat_true] at hstep
    refine ⟨?_, fun f hf hn => hstep.2 f (hrefs f hf hn) hn⟩
    simpa [passFiles] using hstep.1

end FileRefs

namespace FilesOk

variable {r : FileRefs} {count : Nat → Nat}

section

variable (h : FilesOk r count) {f : Nat}
include h

lemma pos_of_count (hf : 0 < count f) : ∀ n, r.files f = some n → 0 < n := by
  intro n hn
  rwa [h.counted f n hn]

lemma isSome_of_count (hf : 0 < count f) : ∃ n, r.files f = some n ∧ 0 < n := by
  cases hn : r.files f with
  | none => exact absurd (h.absent f hn) (by omega)
  | some n => exact ⟨n, rfl, h.pos_of_count hf n hn⟩

attribute [local simp] FileRefs.writeRec

lemma writeRec (hk : r.active + k ≤ r.lastCreated) : FilesOk (r.writeRec k) count := by
  obtain ⟨hle, hrefs⟩ := FileRefs.passFiles_earliest h.earliest_le_active k
  refine ⟨?_, ?_, fun f hf => hrefs f (h.earliest_le f hf) (h.pos_of_count hf), ?_, ?_, ?_, ?_⟩
  · simpa using h.counted
  · simpa using h.absent
  · simp only [FileRefs.writeRec]
    omega
  · simpa using hk
  · simp only [FileRefs.writeRec, FileRefs.passFiles_keeps]
    intro f hf hf'
    exact h.present f (by omega) hf'
  · simpa using h.beyond

lemma createFile : FilesOk r.createFile count := by
  have hcount := h.absent _ (h.beyond (r.lastCreated + 1) (by omega))
  refine ⟨fun f n hn => ?_, fun f hn => ?_, h.earliest_le, h.earliest_le_active,
    Nat.le_succ_of_le h.active_le, fun f hf hf' => ?_, fun f hf => ?_⟩
  · simp only [FileRefs.createFile, FileRefs.setRefs] at hn
    split_ifs at hn with hnew
    · rw [hnew, hcount, ← Option.some_inj.mp hn]
    · exact h.counted f n hn
  · simp only [FileRefs.createFile, FileRefs.setRefs] at hn
    split_ifs at hn with hnew
    exact h.absent f hn
  · simp only [FileRefs.createFile, FileRefs.setRefs] at hf hf' ⊢
    split_ifs with hnew
    · rfl
    · exact h.present f hf (by omega)
  · simp only [FileRefs.createFile, FileRefs.setRefs] at hf ⊢
    rw [if_neg (by omega)]
    exact h.beyond f (by omega)

lemma setRefs (hf : (r.files f).isSome) (hn : n = count' f)
    (hother : ∀ g, g ≠ f → count' g = count g) (hearliest : 0 < n → r.earliest ≤ f) :
    FilesOk (r.setRefs f n) count' := by
  refine ⟨fun g m hm => ?_, fun g hg => ?_, fun g hg => ?_, h.earliest_le_active, h.active_le,
    fun g hg hg' => ?_, fun g hg => ?_⟩
  · simp only [FileRefs.setRefs] at hm
    split_ifs at hm with hgf
    · rw [hgf, ← hn, ← Option.some_inj.mp hm]
    · rw [hother g hgf]
      exact h.counted g m hm
  · simp only [FileRefs.setRefs] at hg
    split_ifs at hg with hgf
    rw [hother g hgf]
    exact h.absent g hg
  · by_cases hgf : g = f
    · rw [hgf, ← hn] at hg
      rw [hgf]
      exact hearliest hg
    · rw [hother g hgf] at hg
      exact h.earliest_le g hg
  · simp only [FileRefs.setRefs]
    split_ifs with hgf
    · rfl
    · exact h.present g hg hg'
  · have hnone := h.beyond g hg
    have hgf : g ≠ f := by
      rintro rfl
      rw [hnone] at hf
      cases hf
    simp only [FileRefs.setRefs, if_neg hgf]
    exact hnone

lemma oobRefInc (hf : (r.files f).isSome) (hearliest : r.earliest ≤ f) :
    ∃ r', r.oobRefInc f = some r' ∧ FilesOk r' (fun g => count g + if g = f then 1 else 0) ∧
      r'.active = r.active ∧ r'.lastCreated = r.lastCreated := by
  obtain ⟨n, hn⟩ := Option.isSome_iff_exists.mp hf
  refine ⟨_, by rw [FileRefs.oobRefInc, hn, Option.map_some], h.setRefs hf ?_ ?_ fun _ => hearliest,
    rfl, rfl⟩
  · rw [h.counted f n hn, if_pos rfl]
  · intro g hg
    simp [hg]

lemma oobRefDec (hcount : ∀ g, count' g + (if g = f then 1 else 0) = count g) :
    FilesOk (r.oobRefDec f) count' ∧ (r.oobRefDec f).active = r.active ∧
      (r.oobRefDec f).lastCreated = r.lastCreated := by
  have hself : count' f + 1 = count f := by simpa using hcount f
  obtain ⟨n, hn, hpos⟩ := h.isSome_of_count (f := f) (by omega)
  have hcounted := h.counted f n hn
  have hsub : FileRefs.fetchSub n = count' f := by
    rw [FileRefs.fetchSub, if_neg (by omega)]
    omega
  have hset : FilesOk (r.setRefs f (FileRefs.fetchSub n)) count' := h.setRefs
    (by rw [hn]; rfl) hsub (fun g hg => by simpa [hg] using hcount g)
    fun _ => h.earliest_le f (by omega)
  unfold FileRefs.oobRefDec
  rw [hn]
  dsimp only
  split_ifs with hzero
  · -- the last reference to the file
    have hle := (r.setRefs f (FileRefs.fetchSub n)).doZeroRefcntAction_earliest f false
      (Nat.le_add_right_of_le hset.earliest_le_active)
    refine ⟨{ hset with earliest_le := fun g hg => ?_, earliest_le_active := ?_ }, rfl, rfl⟩
    · exact hle.2 g (hset.earliest_le g hg) (hset.pos_of_count hg)
    · exact hle.1
  · exact ⟨hset, rfl, rfl⟩

end

end FilesOk

end MariaDB.Binlog
