import MariaDB.Heap.KeyLoops

/-!
# Cached positions

A handle continues from its cached position when `last_pos` is set and the version of the
keys has not changed since. The position is good if the saved way still leads from the root of
the tree to the element of the row that was read last. `heap_write()` and `heap_delete()`
count the version up, but only when they succeed; a call that fails at a later index has
restructured the trees of the earlier ones. `heap_update()` never counts the version up. The
version has 32 bits and can come back to a value that a handle has saved.
-/
namespace MariaDB.Heap

open TableDef List

variable {κ σ ρ ι : Type} [DecidableEq ι]

namespace State

variable (tbl : TableDef κ σ ρ) (s : State κ σ ρ ι) (h : ι)

/-- A read returns the element that follows `e` in a traversal. -/
def Neighbour (t : Tree κ) (near : Side) (e : Element κ) (result : Except HaError Nat) : Prop :=
  ∃ xs ys, t.walk near = xs ++ e :: ys ∧
    result = match ys with
      | [] => .error .endOfFile
      | e' :: _ => .ok e'.row

/-- Whenever `heap_rnext()` or `heap_rprev()` continues from a cached position, the saved way
leads to the element of the row that was read last, and the row returned is the next or the
previous one. -/
def GoodPositions : Prop :=
  ∀ h inx pos, (s.handles h).lastinx = some inx → (s.handles h).update.positioned = true →
    s.cachedPos h = some pos →
    ∃ e, PathTo (s.share.trees inx) ((s.handles h).cursor.path pos) e ∧
      (s.handles h).currentPtr = some e.row ∧
      Neighbour (s.share.trees inx) .left e (s.heapRnext tbl h).2 ∧
      Neighbour (s.share.trees inx) .right e (s.heapRprev tbl h).2

def cachedIndex : Option Nat :=
  match s.cachedPos h with
  | some (_ + 1) => (s.handles h).lastinx
  | _ => none

def NewVersion : Prop :=
  ∀ h, (s.handles h).cursor.lastPos ≠ none → (s.handles h).keyVersion ≠ s.share.keyVersion + 1

section Condition

variable [DecidableEq ρ]

/-- The condition on a call. A `heap_write()` or `heap_delete()` that succeeds does not bring
the version back to a saved one. If it fails, no handle has a cached position in an index
before the one that fails. For `heap_update()` no other handle has a cached position in an
index in which the key is replaced. The flag of `heap_rkey()` is one that
`tree_search_key()` knows. -/
def Meets : Call σ ρ → Prop
  | .write record block _ =>
    match s.share.delLink.or block with
    | none => True
    | some pos =>
      if ∃ j < tbl.keys, tbl.duplicate j record pos (s.share.trees j) = true then
        ∀ h', ∀ i ∈ s.cachedIndex h', ∃ j ≤ i, tbl.duplicate j record pos (s.share.trees j) = true
      else s.NewVersion
  | .update old new _ _ =>
    match s.activeRow h old with
    | .error _ => True
    | .ok pos =>
      ∀ h', h' ≠ h → ∀ i ∈ s.cachedIndex h', tbl.keyCmp i old new = true →
        ∃ j < i, tbl.keyCmp j old new = true ∧ tbl.rewrites j old new pos (s.share.trees j) = false
  | .delete record _ =>
    match s.activeRow h record with
    | .error _ => True
    | .ok pos =>
      if ∃ j < tbl.keys, tbl.missing j record pos (s.share.trees j) = true then
        ∀ h', h' ≠ h → ∀ i ∈ s.cachedIndex h',
          ∃ j ≤ i, tbl.missing j record pos (s.share.trees j) = true
      else s.NewVersion
  | .rkey _ _ findFlag => findFlag ≠ .other
  | .rnext | .rprev => True

def AllMeet : State κ σ ρ ι → List (ι × Call σ ρ) → Prop
  | _, [] => True
  | s, (h, call) :: rest => s.Meets tbl h call ∧ AllMeet (s.step tbl h call) rest

end Condition

end State

def Handle.Good (info : Handle σ) (share : Share κ ρ) : Prop :=
  ∀ inx pos, info.lastinx = some inx → info.cursor.lastPos = some pos →
    info.keyVersion = share.keyVersion →
    (pos = 0 → info.update.positioned = false) ∧
    (0 < pos → ∃ e, PathTo (share.trees inx) (info.cursor.path pos) e ∧
      info.currentPtr = some e.row)

structure State.Ok (tbl : TableDef κ σ ρ) (s : State κ σ ρ ι) : Prop where
  nodup : NodupTrees s.share.trees
  inx : ∀ h i, (s.handles h).lastinx = some i → i < tbl.keys
  good : ∀ h, (s.handles h).Good s.share

namespace State

variable {tbl : TableDef κ σ ρ} {s : State κ σ ρ ι} {h : ι}

section Reads

/-- What a search leaves in a handle: a position with the row, or none that will be used. -/
def Searched (t : Tree κ) (found : Option (Element κ) × Cursor) : Prop :=
  (found.1 = none ∧ (found.2.lastPos = none ∨ found.2.lastPos = some 0)) ∨ ∃ e, Finds t found e

variable {info : Handle σ} {e : Element κ} {share : Share κ ρ}

lemma Ok.change (hok : s.Ok tbl)
    (hnodup : NodupTrees share.trees) (hinx : ∀ i, info.lastinx = some i → i < tbl.keys)
    (hgood : info.Good share) (hothers : ∀ h', h' ≠ h → (s.handles h').Good share) :
    (State.setHandle { s with share } h info).Ok tbl where
  nodup := hnodup
  inx := (Function.forall_update_iff s.handles fun _ info => ∀ i, info.lastinx = some i →
    i < tbl.keys).mpr ⟨hinx, fun h' _ => hok.inx h'⟩
  good := (Function.forall_update_iff s.handles fun _ info => info.Good share).mpr ⟨hgood, hothers⟩

lemma Ok.setHandle (hok : s.Ok tbl)
    (hinx : ∀ i, info.lastinx = some i → i < tbl.keys) (hgood : info.Good s.share) :
    (s.setHandle h info).Ok tbl :=
  hok.change hok.nodup hinx hgood fun h' _ => hok.good h'

lemma Good.of_none (h : info.cursor.lastPos = none) : info.Good share := by
  intro inx pos _ hpos
  rw [h] at hpos
  cases hpos

lemma Ok.rkey (hok : s.Ok tbl) {inx : Nat} {key : σ} {findFlag : RkeyFunction}
    (hflag : findFlag ≠ .other) : (s.heapRkey tbl h inx key findFlag).1.Ok tbl := by
  unfold heapRkey
  split_ifs with hle
  · exact hok
  · dsimp only
    have hspec := treeSearchKey_spec (hok.nodup inx) hflag (tbl.findCompare inx key)
      (s.handles h).cursor
    generalize treeSearchKey _ _ _ _ = found at hspec
    obtain ⟨elem, cursor⟩ := found
    rcases hspec with ⟨rfl, hpos⟩ | ⟨e, rfl, pos, hpos, hpos0, hpath⟩
    · refine hok.setHandle ?_ (Good.of_none hpos)
      rintro i ⟨⟩
      omega
    · refine hok.setHandle ?_ ?_
      · rintro i ⟨⟩
        omega
      · rintro inx' pos' ⟨⟩ hpos' -
        obtain rfl : pos = pos' := Option.some.inj (hpos.symm.trans hpos')
        exact ⟨fun h0 => absurd h0 (by omega), fun _ => ⟨e, hpath, rfl⟩⟩

lemma Searched.of_finds (h : Finds t found e) : Searched t found := .inr ⟨e, h⟩

lemma searched_edge (hnodup : t.addrs.Nodup) (near : Side) (cursor : Cursor) :
    Searched t (treeSearchEdge t near cursor) :=
  (treeSearchEdge_spec hnodup near cursor).imp_left fun h => ⟨h.1, .inr h.2⟩

lemma searched_key (hnodup : t.addrs.Nodup) (hflag : flag ≠ .other) (cmp : κ → Ordering)
    (cursor : Cursor) : Searched t (treeSearchKey t flag cmp cursor) :=
  (treeSearchKey_spec hnodup hflag cmp cursor).imp_left fun h => ⟨h.1, .inl h.2⟩

omit [DecidableEq ι] in
lemma Ok.path (hok : s.Ok tbl) {inx pos : Nat} (hinx : (s.handles h).lastinx = some inx)
    (hposd : (s.handles h).update.positioned = true) (hpos : s.cachedPos h = some pos) :
    ∃ e, PathTo (s.share.trees inx) ((s.handles h).cursor.path pos) e ∧
      (s.handles h).currentPtr = some e.row := by
  unfold cachedPos at hpos
  dsimp only at hpos
  split_ifs at hpos with hversion
  obtain ⟨hzero, hsome⟩ := hok.good h inx pos hinx hpos hversion
  refine hsome (Nat.pos_of_ne_zero fun h0 => ?_)
  rw [hzero h0] at hposd
  cases hposd

omit [DecidableEq ι] in
lemma searchOn_spec (hok : s.Ok tbl) (near : Side) {inx : Nat}
    (hinx : (s.handles h).lastinx = some inx)
    (hrestart : Searched (s.share.trees inx)
      (restart inx (s.share.trees inx) (s.handles h))) :
    Searched (s.share.trees inx) (s.searchOn h near restart inx).1 ∨
    s.searchOn h near restart inx = ((none, (s.handles h).cursor), (s.handles h).keyVersion) := by
  unfold searchOn
  dsimp only
  by_cases hposd : (s.handles h).update.positioned = false
  · rw [if_pos hposd]
    split_ifs
    · exact .inr rfl
    · exact .inl (searched_edge (hok.nodup inx) near _)
  · rw [if_neg hposd]
    rw [Bool.not_eq_false] at hposd
    cases hpos : s.cachedPos h with
    | none => exact .inl hrestart
    | some =>
      obtain ⟨e, hpath, -⟩ := hok.path hinx hposd hpos
      obtain ⟨xs, ys, -, hnext⟩ := treeSearchNext_spec (hok.nodup inx) near hpath
      cases ys with
      | nil => exact .inl (.inl ⟨hnext.1, .inr hnext.2⟩)
      | cons => exact .inl (.of_finds hnext)

lemma Ok.readOn (hok : s.Ok tbl) (near : Side) (hrestart : ∀ inx, Searched (s.share.trees inx)
      (restart inx (s.share.trees inx) (s.handles h))) :
    (s.readOn h near restart).1.Ok tbl := by
  unfold State.readOn
  cases hinx : (s.handles h).lastinx with
  | none => exact hok
  | some inx =>
    have hkeys : ∀ i, (s.handles h).lastinx = some i → i < tbl.keys := hok.inx h
    have hnot : (UpdateState.none.setFound near).positioned = false := by cases near <;> rfl
    dsimp only
    rcases searchOn_spec hok near hinx (hrestart inx) with hfound | hsame
    · generalize s.searchOn h near restart inx = found at hfound
      obtain ⟨⟨elem, cursor⟩, keyVersion⟩ := found
      rcases hfound with ⟨hnone, hpos⟩ | ⟨e, hsome, pos, hpos, hpos0, hpath⟩
      · obtain rfl : elem = none := hnone
        refine hok.setHandle hkeys ?_
        intro inx' pos' _ hpos' _
        refine ⟨fun _ => hnot, fun hlt => ?_⟩
        rcases hpos with hpos | hpos
        · cases hpos.symm.trans hpos'
        · cases hpos.symm.trans hpos'
          omega
      · obtain rfl : elem = some e := hsome
        refine hok.setHandle hkeys ?_
        intro inx' pos' hinx' hpos' _
        obtain rfl : inx = inx' := Option.some.inj (hinx.symm.trans hinx')
        obtain rfl : pos = pos' := Option.some.inj (hpos.symm.trans hpos')
        exact ⟨fun h0 => absurd h0 (by omega), fun _ => ⟨e, hpath, rfl⟩⟩
    · rw [hsame]
      refine hok.setHandle hkeys ?_
      intro inx' pos' hinx' hpos' hversion
      exact ⟨fun _ => hnot, (hok.good h inx' pos' hinx' hpos' hversion).2⟩

lemma Ok.rnext (hok : s.Ok tbl) : (s.heapRnext tbl h).1.Ok tbl := by
  refine hok.readOn .left fun inx => ?_
  split_ifs
  · exact searched_edge (hok.nodup inx) .left _
  · exact searched_key (hok.nodup inx) (by decide) _ _

lemma Ok.rprev (hok : s.Ok tbl) : (s.heapRprev tbl h).1.Ok tbl :=
  hok.readOn .right fun inx => searched_key (hok.nodup inx) (by decide) _ _

lemma Ok.neighbour (hok : s.Ok tbl) (near : Side)
    (restart : Nat → Tree κ → Handle σ → Option (Element κ) × Cursor) {inx pos : Nat}
    (hinx : (s.handles h).lastinx = some inx)
    (hposd : (s.handles h).update.positioned = true) (hpos : s.cachedPos h = some pos)
    (hpath : PathTo (s.share.trees inx) ((s.handles h).cursor.path pos) e) :
    Neighbour (s.share.trees inx) near e (s.readOn h near restart).2 := by
  obtain ⟨xs, ys, hwalk, hnext⟩ := treeSearchNext_spec (hok.nodup inx) near hpath
  refine ⟨xs, ys, hwalk, ?_⟩
  have hsearch : s.searchOn h near restart inx =
      (treeSearchNext (s.share.trees inx) near (s.handles h).cursor pos,
        (s.handles h).keyVersion) := by
    simp [searchOn, hposd, hpos]
  unfold State.readOn
  rw [hinx]
  dsimp only
  rw [hsearch]
  generalize treeSearchNext _ _ _ _ = found at hnext
  obtain ⟨elem, cursor⟩ := found
  cases ys with
  | nil =>
    obtain rfl : elem = none := hnext.1
    rfl
  | cons e' =>
    obtain rfl : elem = some e' := hnext.1
    rfl

lemma Ok.goodPositions (hok : s.Ok tbl) : s.GoodPositions tbl := by
  intro h inx pos hinx hposd hpos
  obtain ⟨e, hpath, hptr⟩ := hok.path hinx hposd hpos
  exact ⟨e, hpath, hptr, hok.neighbour .left _ hinx hposd hpos hpath,
    hok.neighbour .right _ hinx hposd hpos hpath⟩

end Reads

section Writes

lemma Good.congr {info : Handle σ} {share share' : Share κ ρ} (hgood : info.Good share)
    (hversion : share'.keyVersion = share.keyVersion)
    (htrees : ∀ inx pos, info.lastinx = some inx → info.cursor.lastPos = some pos → 0 < pos →
      info.keyVersion = share.keyVersion → share'.trees inx = share.trees inx) :
    info.Good share' := by
  intro inx pos hinx hpos hv
  rw [hversion] at hv
  obtain ⟨hzero, hsome⟩ := hgood inx pos hinx hpos hv
  refine ⟨hzero, fun hlt => ?_⟩
  rw [htrees inx pos hinx hpos hlt hv]
  exact hsome hlt

lemma Good.of_newVersion {info : Handle σ} {share : Share κ ρ}
    (h : info.cursor.lastPos ≠ none → info.keyVersion ≠ share.keyVersion) :
    info.Good share := by
  intro inx pos _ hpos hv
  exact absurd hv (h (by rw [hpos]; exact Option.some_ne_none pos))

omit [DecidableEq ι] in
lemma cachedIndex_eq (hinx : (s.handles h).lastinx = some inx)
    (hpos : (s.handles h).cursor.lastPos = some pos) (hlt : 0 < pos)
    (hv : (s.handles h).keyVersion = s.share.keyVersion) : s.cachedIndex h = some inx := by
  obtain ⟨pos, rfl⟩ := Nat.exists_eq_add_of_lt hlt
  simp [cachedIndex, cachedPos, hv, hpos, hinx]

lemma range_sorted (n : Nat) : (range n).Pairwise (· < ·) := pairwise_lt_range

lemma mem_range_keys : ∀ i ∈ range tbl.keys, i < tbl.keys := fun _ hi => mem_range.mp hi

variable [DecidableEq ρ] {record : ρ}

lemma Ok.write (hok : s.Ok tbl) {block : Option Nat} {malloc : Allocator}
    (hmeets : s.Meets tbl h (.write record block malloc)) :
    (s.heapWrite tbl h record block malloc).1.Ok tbl := by
  unfold heapWrite
  unfold Meets at hmeets
  dsimp only at hmeets ⊢
  cases hpos : s.share.delLink.or block with
  | none => exact hok
  | some pos =>
    rw [hpos] at hmeets
    dsimp only at hmeets ⊢
    generalize hout : tbl.writeKeys _ _ _ _ _ = out
    have hnodup := nodup_writeKeys hout mem_range_keys hok.nodup
    obtain ⟨trees, failed⟩ := out
    cases failed with
    | none =>
      have hnone : ¬ ∃ j < tbl.keys, tbl.duplicate j record pos (s.share.trees j) = true := by
        rintro ⟨j, hj, hdup⟩
        rw [writeKeys_all hout (range_sorted _) rfl j (mem_range.mpr hj)] at hdup
        cases hdup
      rw [if_neg hnone] at hmeets
      exact hok.change hnodup (hok.inx h) (Good.of_newVersion (hmeets h))
        fun h' _ => Good.of_newVersion (hmeets h')
    | some j =>
      obtain ⟨hj, hdup, hbefore, hsame⟩ := writeKeys_failed hout (range_sorted _) rfl
      rw [if_pos ⟨j, mem_range.mp hj, hdup⟩] at hmeets
      refine ⟨nodup_removeKeys _ _ hnodup, hok.inx, fun h' => ?_⟩
      refine Good.congr (hok.good h') rfl fun inx pos' hinx hpos' hlt hv => ?_
      obtain ⟨i, hi, hdupi⟩ := hmeets h' inx (cachedIndex_eq hinx hpos' hlt hv)
      have hji : j ≤ i := by
        by_contra hnot
        have hmem := mem_range.mpr ((hi.trans_lt (hok.inx h' inx hinx)))
        rw [hbefore i hmem (by omega)] at hdupi
        cases hdupi
      dsimp only
      rw [removeKeys_of_le _ _ (hji.trans hi)]
      exact hsame inx (hji.trans hi)

section Update

variable {old new : ρ} {pos : Nat} {malloc : Allocator}

omit [DecidableEq ρ] in
/-- After `heap_update()`, whose loop and rollback leave an index alone that the loop has not
written to. -/
lemma Ok.updated (hok : s.Ok tbl)
    (hmeets : ∀ h', h' ≠ h → ∀ i ∈ s.cachedIndex h', tbl.keyCmp i old new = true →
      ∃ j < i, tbl.keyCmp j old new = true ∧ tbl.rewrites j old new pos (s.share.trees j) = false)
    {out : (Nat → Tree κ) × Option Nat × TableDef.Updated}
    (hout : tbl.updateKeys old new pos (s.handles h).lastinx malloc (range tbl.keys)
      s.share.trees (s.handles h).cursor.lastPos = out)
    {trees : Nat → Tree κ} (hnodup : NodupTrees trees)
    (hsame : ∀ i, ¬ TableDef.Touched tbl old new (range tbl.keys) out.2.2 i →
      trees i = s.share.trees i) (rows : Nat → ρ) :
    (State.setHandle { s with share := { s.share with trees, rows } } h
      { s.handles h with
        cursor := { (s.handles h).cursor with lastPos := out.2.1 } }).Ok tbl := by
  refine hok.change hnodup (hok.inx h) ?_ ?_
  · rcases updateKeys_pos hout with hnone | hold
    · exact Good.of_none hnone
    · rw [hold]
      refine Good.congr (hok.good h) rfl fun inx pos' hinx hpos' _ _ => ?_
      refine hsame inx fun htouched => ?_
      rw [updateKeys_resets hout hinx (range_sorted _) htouched] at hold
      cases hold.trans hpos'
  · intro h' hh
    refine Good.congr (hok.good h') rfl fun inx pos' hinx hpos' hlt hv => ?_
    refine hsame inx fun htouched => ?_
    obtain ⟨j, hj, hcmp, hrew⟩ := hmeets h' hh inx (cachedIndex_eq hinx hpos' hlt hv) htouched.2.1
    have hmem := mem_range.mpr (hj.trans (hok.inx h' inx hinx))
    rw [rewrites_of_touched hout (range_sorted _) htouched hmem hj hcmp] at hrew
    cases hrew

lemma Ok.update (hok : s.Ok tbl) (hmeets : s.Meets tbl h (.update old new malloc errno)) :
    (s.heapUpdate tbl h old new malloc errno).1.Ok tbl := by
  unfold heapUpdate
  unfold Meets at hmeets
  dsimp only at hmeets
  cases hrow : s.activeRow h old with
  | error => exact hok
  | ok pos =>
    rw [hrow] at hmeets
    dsimp only at hmeets ⊢
    generalize hout : tbl.updateKeys _ _ _ _ _ _ _ _ = out
    have hnodup := nodup_updateKeys hout mem_range_keys hok.nodup
    have hsame := fun i => updateKeys_of_not_touched hout (i := i) (range_sorted _)
    obtain ⟨trees, lastPos, failed⟩ := out
    cases failed with
    | all => exact hok.updated hmeets hout hnodup hsame _
    | failed j =>
      obtain ⟨hj, hcmp⟩ := updateKeys_failed_mem hout rfl
      refine hok.updated hmeets hout
        (nodup_rollback (mem_range.mp hj) hnodup) (fun i hi => ?_) s.share.rows
      have hout : ¬ (i ≤ j ∧ tbl.keyCmp i old new = true) := by
        rintro ⟨hle, hcmpi⟩
        exact hi ⟨mem_range.mpr (hle.trans_lt (mem_range.mp hj)), hcmpi, hle⟩
      rw [rollback_same hcmp hout]
      exact hsame i hi

end Update

lemma Ok.delete (hok : s.Ok tbl) {errno : HaError}
    (hmeets : s.Meets tbl h (.delete record errno)) :
    (s.heapDelete tbl h record errno).1.Ok tbl := by
  unfold heapDelete
  unfold Meets at hmeets
  dsimp only at hmeets
  cases hrow : s.activeRow h record with
  | error => exact hok
  | ok pos =>
    rw [hrow] at hmeets
    dsimp only at hmeets ⊢
    generalize hout : tbl.deleteKeys _ _ _ _ _ _ = out
    have hnodup := nodup_deleteKeys hout hok.nodup
    have hpos := deleteKeys_pos hout
    obtain ⟨trees, lastPos, done⟩ := out
    cases done with
    | true =>
      have hnone : ¬ ∃ j < tbl.keys, tbl.missing j record pos (s.share.trees j) = true := by
        rintro ⟨j, hj, hmiss⟩
        rw [(deleteKeys_all hout (range_sorted _) rfl j (mem_range.mpr hj)).1] at hmiss
        cases hmiss
      rw [if_neg hnone] at hmeets
      refine hok.change hnodup (hok.inx h) ?_ fun h' _ => Good.of_newVersion (hmeets h')
      refine Good.of_newVersion fun hne => hmeets h ?_
      rcases hpos with hpos | hpos
      · exact absurd hpos hne
      · exact fun hold => hne (hpos.trans hold)
    | false =>
      obtain ⟨j, hj, hmiss, hbefore, hsame, hreset⟩ := deleteKeys_failed hout (range_sorted _) rfl
      rw [if_pos ⟨j, mem_range.mp hj, hmiss⟩] at hmeets
      refine hok.change hnodup (hok.inx h) ?_ ?_
      · rcases hpos with hnone | hold
        · exact Good.of_none hnone
        · obtain rfl : lastPos = (s.handles h).cursor.lastPos := hold
          refine Good.congr (hok.good h) rfl fun inx pos' hinx hpos' _ _ => ?_
          refine hsame inx (Nat.le_of_not_lt fun hlt => ?_)
          have hmem := mem_range.mpr (hok.inx h inx hinx)
          cases (hreset inx hmem hlt hinx).symm.trans hpos'
      · intro h' hh
        refine Good.congr (hok.good h') rfl fun inx pos' hinx hpos' hlt hv => ?_
        obtain ⟨i, hi, hmissi⟩ := hmeets h' hh inx (cachedIndex_eq hinx hpos' hlt hv)
        refine hsame inx (Nat.le_of_not_lt fun hlt' => ?_)
        have hmem := mem_range.mpr (hi.trans_lt (hok.inx h' inx hinx))
        rw [hbefore i hmem (by omega)] at hmissi
        cases hmissi

end Writes

section Run

variable [DecidableEq ρ]

structure Initial (s : State κ σ ρ ι) : Prop where
  nodup : NodupTrees s.share.trees
  lastinx : ∀ h, (s.handles h).lastinx = none
  lastPos : ∀ h, (s.handles h).cursor.lastPos = none

omit [DecidableEq ι] [DecidableEq ρ] in
lemma Initial.ok (hinit : s.Initial) : s.Ok tbl where
  nodup := hinit.nodup
  inx := by
    intro h i hi
    rw [hinit.lastinx h] at hi
    cases hi
  good := fun h => Good.of_none (hinit.lastPos h)

lemma Ok.step (hok : s.Ok tbl) (hmeets : s.Meets tbl h call) : (s.step tbl h call).Ok tbl := by
  cases call with
  | write => exact hok.write hmeets
  | update => exact hok.update hmeets
  | delete => exact hok.delete hmeets
  | rkey => exact hok.rkey hmeets
  | rnext => exact hok.rnext
  | rprev => exact hok.rprev

lemma Ok.run : ∀ (calls : List (ι × Call σ ρ)) {s : State κ σ ρ ι}, s.Ok tbl →
    s.AllMeet tbl calls → (s.run tbl calls).Ok tbl := by
  intro calls
  induction calls with
  | nil => exact fun hok _ => hok
  | cons call rest ih => exact fun hok hmeets => ih (hok.step hmeets.1) hmeets.2

/-- In a run whose calls all meet the condition, every position that a read continues from is
good. -/
theorem goodPositions_run (hinit : s.Initial) (calls : List (ι × Call σ ρ))
    (hmeets : s.AllMeet tbl calls) : (s.run tbl calls).GoodPositions tbl :=
  (Ok.run calls hinit.ok hmeets).goodPositions

end Run

section Example

/-- A table with one unique index, whose records are their keys. -/
def oneKey : TableDef Nat Nat Nat where
  keys := 1
  unique := fun _ => true
  makeKey := fun _ record _ => record
  insertCompare := fun _ => compare
  deleteCompare := fun _ => compare
  findCompare := fun _ key k => compare k key
  prevCompare := fun _ key k => compare k key
  emptyKey := fun _ => false
  keyCmp := fun _ old new => old != new
  withLink := fun _ record => record
  link := fun _ => none

def bump : Allocator where
  addr := fun _ used => used.foldr max 0 + 1
  fresh := by
    intro _ used hmem
    have hle : ∀ xs : List Nat, ∀ a ∈ xs, a ≤ xs.foldr max 0 := by
      intro xs
      induction xs with
      | nil => exact fun a ha => nomatch ha
      | cons x xs ih =>
        intro a ha
        rw [List.foldr_cons]
        rcases List.mem_cons.mp ha with rfl | ha
        · exact le_max_left ..
        · exact (ih a ha).trans (le_max_right ..)
    have := hle used _ hmem
    omega

def opened : State Nat Nat Nat Bool where
  share := ⟨fun _ => .nil, fun _ => 0, none, 0⟩
  handles := fun _ => ⟨none, ⟨[], none⟩, 0, UpdateState.none, none, 0, true⟩

def writeThree : List (Bool × Call Nat Nat) :=
  [(false, .write 10 (some 1) bump), (false, .write 20 (some 2) bump),
    (false, .write 30 (some 3) bump)]

omit [DecidableEq ι] in
lemma meets_write_of_unread [DecidableEq ρ] (hpos : ∀ h', (s.handles h').cursor.lastPos = none) :
    s.Meets tbl h (.write record block malloc) := by
  unfold Meets
  dsimp only
  split
  · trivial
  · split_ifs
    · intro h' i hi
      simp [cachedIndex, cachedPos, hpos h'] at hi
    · exact fun h' hne => absurd (hpos h') hne

lemma opened_initial : opened.Initial where
  nodup := fun _ => nodup_nil
  lastinx := fun _ => rfl
  lastPos := fun _ => rfl

/-- A handle has read the row 10, another one writes a row, and the first one searches its row
again. It continues with the row 20. -/
theorem goodPositions_writeThree :
    let calls := writeThree ++
      [(true, .rkey 0 10 .keyExact), (false, .write 40 (some 4) bump), (true, .rnext)]
    opened.Initial ∧ opened.AllMeet oneKey calls ∧
      (opened.run oneKey calls).cachedPos true = some 2 ∧
      ((opened.run oneKey calls).heapRnext oneKey true).2 = .ok 2 ∧
      (opened.run oneKey calls).GoodPositions oneKey := by
  intro calls
  have hmeets : opened.AllMeet oneKey calls := by
    refine ⟨meets_write_of_unread (by decide), meets_write_of_unread (by decide),
      meets_write_of_unread (by decide), (by decide : RkeyFunction.keyExact ≠ .other), ?_,
      trivial, trivial⟩
    unfold Meets
    dsimp only
    split
    · trivial
    · next pos hpos =>
      obtain rfl : 4 = pos := Option.some.inj hpos
      rw [if_neg (by decide)]
      unfold NewVersion
      decide
  exact ⟨opened_initial, hmeets, by decide, by rfl, goodPositions_run opened_initial _ hmeets⟩

/-- One handle reads the row 20, which is the root of the tree. The other one changes it to
40: the element is freed and another one is the root, but the version stays. -/
theorem not_goodPositions_update : opened.Initial ∧
    ¬ (opened.run oneKey (writeThree ++ [(true, .rkey 0 20 .keyExact),
      (false, .rkey 0 20 .keyExact),
      (false, .update 20 40 bump (.errno 0))])).GoodPositions oneKey := by
  refine ⟨opened_initial, fun hgood => ?_⟩
  obtain ⟨e, hpath, -⟩ := hgood true 0 1 (by decide) (by decide) (by decide)
  exact absurd hpath.head (by decide)

end Example

end State

end MariaDB.Heap
