import MariaDB.Page.Insert
import MariaDB.Page.ApplyInsert

/-!
# Well-formed index pages

The records of a page, as the groups that the directory slots own, and its free list.
A page is well-formed when its header, links, directory and record sizes agree with
such a description and no two records overlap.
-/
namespace MariaDB.Page

open Library (Frame)
open PageEnv

/-- The user records of a page in the order of the list: the groups owned by the
directory slots other than the first and the last, and the records that the supremum
owns; and the records of the free list. -/
structure PageDesc where
  middle : List (List Nat)
  last : List Nat
  free : List Nat

namespace PageDesc

variable (d : PageDesc) (comp : Bool)

def users : List Nat := d.middle.flatten ++ d.last

def upperGroups : List (List Nat) := d.middle ++ [d.last ++ [pageSupremum comp]]

def groups : List (List Nat) := [pageInfimum comp] :: d.upperGroups comp

def recs : List Nat := pageInfimum comp :: (d.users ++ [pageSupremum comp])

lemma flatten_upperGroups : (d.upperGroups comp).flatten = d.users ++ [pageSupremum comp] := by
  simp [upperGroups, users]

end PageDesc

def Linked (f : Frame) (comp : Bool) (rec next : Nat) : Prop :=
  f.read2 (rec - recNext) ≠ 0 ∧ applyNext f comp rec = next

instance (f : Frame) (comp : Bool) (rec next : Nat) : Decidable (Linked f comp rec next) :=
  inferInstanceAs (Decidable (_ ∧ _))

def nextFree (f : Frame) (comp : Bool) (rec : Nat) : Nat :=
  let next := f.read2 (rec - recNext)
  if comp then if next ≠ 0 then (rec + next) % 65536 else 0 else next

def FreeList (f : Frame) (comp : Bool) : Nat → List Nat → Prop
  | p, [] => p = 0
  | p, rec :: recs => p = rec ∧ (recs = [] → f.read2 (rec - recNext) = 0) ∧
      FreeList f comp (nextFree f comp rec) recs

def PageEnv.recStart (env : PageEnv) (f : Frame) (rec : Nat) : Nat :=
  rec - (env.recGetOffsets f rec).1
def PageEnv.recEnd (env : PageEnv) (f : Frame) (rec : Nat) : Nat :=
  rec + (env.recGetOffsets f rec).2
def PageEnv.recSize (env : PageEnv) (f : Frame) (rec : Nat) : Nat :=
  (env.recGetOffsets f rec).1 + (env.recGetOffsets f rec).2

structure HeapRec (env : PageEnv) (f : Frame) (comp : Bool) (rec : Nat) : Prop where
  extra_ge : recNExtraBytes comp + (if comp then 0 else 1) ≤ (env.recGetOffsets f rec).1
  start_ge : pageSupremumEnd comp + (env.recGetOffsets f rec).1 ≤ rec
  end_le : env.recEnd f rec ≤ f.read2 pageHeapTop

structure OwnedGroup (f : Frame) (comp : Bool) (group : List Nat) : Prop where
  length_le : group.length ≤ pageDirSlotMaxNOwned
  owner : ∀ r, group.getLast? = some r → recGetNOwned f comp r = group.length
  owned : ∀ r ∈ group.dropLast, recGetNOwned f comp r = 0

structure WellFormed (env : PageEnv) (f : Frame) (comp : Bool) (pageNo : Nat) (d : PageDesc) :
    Prop where
  size_ge : 4096 ≤ env.srvPageSize
  size_dvd : env.srvPageSize ∣ 65536
  comp_eq : pageIsComp f = comp
  index_page : filPageIndexPageCheck f = true
  page_no : pageGetPageNo f = pageNo
  n_slots : f.read2 pageNDirSlots = (d.groups comp).length
  n_heap_lt : pageDirGetNHeap f < env.srvPageSize / recNExtraBytes comp
  n_heap_ge : (d.recs comp).length + d.free.length ≤ pageDirGetNHeap f
  heap_top_ge : pageSupremumEnd comp ≤ f.read2 pageHeapTop
  heap_top_le : f.read2 pageHeapTop + pageDirCalcReservedSpace (pageDirGetNHeap f - 2) +
    (pageDir + 2 * pageDirSlotSize) ≤ env.srvPageSize
  groups : ∀ g ∈ d.groups comp, OwnedGroup f comp g
  middle : ∀ g ∈ d.middle, pageDirSlotMinNOwned ≤ g.length
  slots : ∀ i g r, (d.groups comp)[i]? = some g → g.getLast? = some r →
    f.read2 (env.pageDirGetNthSlot i) = r
  links : (d.recs comp).IsChain (Linked f comp)
  supremum_link : f.read2 (pageSupremum comp - recNext) = 0
  /-- The infimum has one field of 8 bytes. -/
  infimum : comp = false → env.recGetOffsets f (pageInfimum comp) = (7, 8)
  heap : ∀ r ∈ d.users ++ d.free, HeapRec env f comp r
  disjoint : (d.users ++ d.free).Pairwise fun r s =>
    env.recEnd f r ≤ env.recStart f s ∨ env.recEnd f s ≤ env.recStart f r
  free_list : FreeList f comp (f.read2 pageFree) d.free
  garbage : (d.free.map (env.recSize f)).sum ≤ f.read2 pageGarbage

lemma recNExtraBytes_ge (comp : Bool) : 5 ≤ recNExtraBytes comp := by cases comp <;> decide

lemma pageInfimum_lt_pageSupremum (comp : Bool) : 94 + recNExtraBytes comp ≤ pageInfimum comp ∧
    pageInfimum comp + 8 + recNExtraBytes comp ≤ pageSupremum comp ∧
    pageSupremum comp + 8 ≤ pageSupremumEnd comp ∧ pageSupremumEnd comp ≤ 125 := by
  cases comp <;> decide

namespace WellFormed

variable {env : PageEnv} {f : Frame} {comp : Bool} {pageNo : Nat} {d : PageDesc}

variable (h : WellFormed env f comp pageNo d) {r : Nat}

include h in
lemma users_ge (hr : r ∈ d.users) : pageSupremumEnd comp + recNExtraBytes comp ≤ r := by
  have hheap := h.heap r (List.mem_append_left _ hr)
  have := hheap.extra_ge
  have := hheap.start_ge
  omega

include h in
lemma users_le (hr : r ∈ d.users) : r ≤ f.read2 pageHeapTop := by
  have := (h.heap r (List.mem_append_left _ hr)).end_le
  unfold recEnd at this
  omega

lemma mem_recs : r ∈ d.recs comp ↔ r = pageInfimum comp ∨ r ∈ d.users ∨ r = pageSupremum comp := by
  simp [PageDesc.recs]

section

include h

lemma recs_ge (hr : r ∈ d.recs comp) : 94 + recNExtraBytes comp ≤ r := by
  have hends := pageInfimum_lt_pageSupremum comp
  rcases mem_recs.mp hr with rfl | hr | rfl
  · omega
  · have := h.users_ge hr
    omega
  · omega

lemma recs_le (hr : r ∈ d.recs comp) : r ≤ f.read2 pageHeapTop := by
  have hends := pageInfimum_lt_pageSupremum comp
  have := h.heap_top_ge
  rcases mem_recs.mp hr with rfl | hr | rfl
  · omega
  · exact h.users_le hr
  · omega

lemma disjoint_of_ne (hr : r ∈ d.users ++ d.free) (hs : s ∈ d.users ++ d.free) (hne : r ≠ s) :
    env.recEnd f r ≤ env.recStart f s ∨ env.recEnd f s ≤ env.recStart f r := by
  have : Std.Symm fun r s =>
      env.recEnd f r ≤ env.recStart f s ∨ env.recEnd f s ≤ env.recStart f r :=
    ⟨fun _ _ h => h.symm⟩
  exact h.disjoint.forall hr hs hne

lemma heap_nodup : (d.users ++ d.free).Nodup := by
  -- a record that occurs twice would overlap itself
  refine (List.Pairwise.and_mem.mp h.disjoint).imp fun {r s} hrs heq => ?_
  obtain ⟨hr, -, hdisj⟩ := hrs
  subst heq
  have hheap := h.heap r hr
  have := hheap.extra_ge
  have := hheap.start_ge
  have := recNExtraBytes_ge comp
  unfold recEnd recStart at hdisj
  omega

lemma infimum_not_mem_users : pageInfimum comp ∉ d.users := by
  intro hr
  have := h.users_ge hr
  have := pageInfimum_lt_pageSupremum comp
  omega

lemma supremum_not_mem_users : pageSupremum comp ∉ d.users := by
  intro hr
  have := h.users_ge hr
  have := pageInfimum_lt_pageSupremum comp
  omega

lemma recs_nodup : (d.recs comp).Nodup := by
  have hends := pageInfimum_lt_pageSupremum comp
  have hne : pageInfimum comp ≠ pageSupremum comp := by omega
  have husers := (List.nodup_append.mp h.heap_nodup).1
  simp only [PageDesc.recs, List.nodup_cons, List.mem_append, List.mem_singleton, not_or]
  refine ⟨⟨h.infimum_not_mem_users, hne⟩, ?_⟩
  refine List.nodup_append.mpr ⟨husers, List.nodup_singleton _, ?_⟩
  intro r hr s hs heq
  rw [List.mem_singleton.mp hs] at heq
  exact h.supremum_not_mem_users (heq ▸ hr)

lemma fixed_disjoint (hr : r ∈ d.recs comp) (hs : s ∈ d.recs comp) (hne : r ≠ s) :
    r + recNExtraBytes comp ≤ s ∨ s + recNExtraBytes comp ≤ r := by
  have hends := pageInfimum_lt_pageSupremum comp
  have hin : ∀ t ∈ d.users, pageSupremum comp + recNExtraBytes comp ≤ t := by
    intro t ht
    have := h.users_ge ht
    omega
  rcases mem_recs.mp hr with rfl | hr | rfl <;> rcases mem_recs.mp hs with rfl | hs | rfl
  · exact absurd rfl hne
  · have := hin s hs
    omega
  · omega
  · have := hin r hr
    omega
  · have hr' := List.mem_append_left d.free hr
    have hs' := List.mem_append_left d.free hs
    have hd := h.disjoint_of_ne hr' hs' hne
    have h1 := h.heap r hr'
    have h2 := h.heap s hs'
    have := h1.extra_ge
    have := h1.start_ge
    have := h2.extra_ge
    unfold recEnd recStart at hd
    omega
  · have := hin r hr
    omega
  · omega
  · have := hin s hs
    omega
  · exact absurd rfl hne

end

/-! ## The directory -/

lemma four_mul_le_sum {l : List (List Nat)} (h : ∀ g ∈ l, pageDirSlotMinNOwned ≤ g.length) :
    4 * l.length ≤ l.flatten.length := by
  induction l <;> grind [pageDirSlotMinNOwned]

include h in
lemma n_slots_le :
    4 * (d.groups comp).length ≤ d.users.length + 8 ∧ 2 ≤ (d.groups comp).length := by
  have := four_mul_le_sum h.middle
  simp only [PageDesc.groups, PageDesc.upperGroups, PageDesc.users, List.length_cons,
    List.length_append, List.length_nil]
  omega

include h in
lemma heap_top_le_last_slot :
    f.read2 pageHeapTop + 2 * (d.groups comp).length + 8 ≤ env.srvPageSize := by
  have h1 := h.n_slots_le
  have h2 := h.n_heap_ge
  have h3 := h.heap_top_le
  simp only [PageDesc.recs, List.length_cons, List.length_append, List.length_nil] at h2
  simp only [pageDirCalcReservedSpace, pageDirSlotSize, pageDirSlotMinNOwned, pageDir] at h3
  omega

include h in
lemma size_le : env.srvPageSize ≤ 65536 := Nat.le_of_dvd (by decide) h.size_dvd

lemma exists_owner {gs : List (List Nat)} (hflat : gs.flatten = pre ++ rest) (hrest : rest ≠ []) :
    ∃ (seg : List Nat) (owner : Nat) (post : List Nat) (i : Nat) (g : List Nat),
      rest = seg ++ owner :: post ∧ gs[i]? = some g ∧ g.getLast? = some owner ∧
      (∀ r ∈ seg, r ∈ g.dropLast) ∧ seg.length < g.length := by
  induction gs generalizing pre with
  | nil =>
    have := List.append_eq_nil_iff.mp hflat.symm
    exact absurd this.2 hrest
  | cons g gs ih =>
    rw [List.flatten_cons] at hflat
    -- the rest starts in a later group or in this one
    have hcases : (∃ pre', gs.flatten = pre' ++ rest) ∨ ∃ seg owner,
        g = pre ++ (seg ++ [owner]) ∧ rest = seg ++ [owner] ++ gs.flatten := by
      rcases List.append_eq_append_iff.mp hflat with ⟨pre', -, hflat'⟩ | ⟨g', rfl, rfl⟩
      · exact .inl ⟨pre', hflat'⟩
      · rcases List.eq_nil_or_concat' g' with rfl | ⟨seg, owner, rfl⟩
        · exact .inl ⟨[], rfl⟩
        · exact .inr ⟨seg, owner, rfl, rfl⟩
    rcases hcases with ⟨pre', hpre'⟩ | ⟨seg, owner, rfl, rfl⟩
    · obtain ⟨seg, owner, post, i, g', h1, h2, h3⟩ := ih hpre'
      exact ⟨seg, owner, post, i + 1, g', h1, h2, h3⟩
    · refine ⟨seg, owner, gs.flatten, 0, pre ++ (seg ++ [owner]), by simp, rfl, by simp, ?_, ?_⟩
      · intro r hr
        rw [← List.append_assoc, List.dropLast_concat]
        exact List.mem_append_right _ hr
      · simp only [List.length_append, List.length_cons, List.length_nil]
        omega

/-- A cursor position: the records after it, up to the owner of the place, and the slot
of the owner. -/
structure Position (f : Frame) (comp : Bool) (d : PageDesc) (cur : Nat) (seg : List Nat)
    (owner i : Nat) : Prop where
  mem : cur ∈ d.recs comp
  seg_mem : ∀ r ∈ seg, r ∈ d.recs comp ∧ r ≠ cur ∧ recGetNOwned f comp r = 0
  owner_mem : owner ∈ d.recs comp
  owner_ne : owner ≠ cur
  upper : ∀ r ∈ seg ++ [owner], r ∈ d.users ++ [pageSupremum comp]
  links : (cur :: (seg ++ [owner])).IsChain (Linked f comp)
  n_owned_pos : 0 < recGetNOwned f comp owner
  n_owned_le : recGetNOwned f comp owner ≤ pageDirSlotMaxNOwned
  seg_length : seg.length < pageDirSlotMaxNOwned
  slot_pos : 0 < i
  slot_lt : i < (d.groups comp).length
  group : ∃ g, (d.groups comp)[i]? = some g ∧ g.getLast? = some owner ∧
    recGetNOwned f comp owner = g.length

include h in
lemma exists_position (hcur : cur ∈ d.recs comp) (hsup : cur ≠ pageSupremum comp) :
    ∃ seg owner i, Position f comp d cur seg owner i := by
  obtain ⟨pre, rest, hsplit⟩ := List.append_of_mem hcur
  have hrest : rest ≠ [] := by
    rintro rfl
    have hlast := congrArg List.getLast? hsplit
    rw [PageDesc.recs, ← List.cons_append] at hlast
    simp only [List.getLast?_append, List.getLast?_singleton, Option.some_or,
      Option.some.injEq] at hlast
    exact hsup hlast.symm
  -- the rest is a part of the groups after the first one
  obtain ⟨pre', hpre'⟩ : ∃ pre', (d.upperGroups comp).flatten = pre' ++ rest := by
    rw [PageDesc.flatten_upperGroups]
    cases pre with
    | nil => exact ⟨[], (List.cons.inj hsplit).2⟩
    | cons p pre =>
      refine ⟨pre ++ [cur], ?_⟩
      rw [(List.cons.inj hsplit).2]
      simp
  have hmem : ∀ g ∈ d.upperGroups comp, g ∈ d.groups comp := fun g hg => List.mem_cons_of_mem _ hg
  obtain ⟨seg, owner, post, i, g, rfl, hg, hlast, hseg, hlen⟩ := exists_owner hpre' hrest
  have hgroup := h.groups g (hmem g (List.mem_of_getElem? hg))
  have hnodup := h.recs_nodup
  rw [hsplit] at hnodup
  have hne : ∀ r ∈ seg ++ owner :: post, r ≠ cur := by
    intro r hr heq
    exact (List.nodup_cons.mp (List.nodup_append.mp hnodup).2.1).1 (heq ▸ hr)
  have hin : ∀ r ∈ seg ++ owner :: post, r ∈ d.recs comp := by
    intro r hr
    rw [hsplit]
    exact List.mem_append_right _ (List.mem_cons_of_mem _ hr)
  have hpos : 0 < g.length := by omega
  have hi := (List.getElem?_eq_some_iff.mp hg).1
  refine ⟨seg, owner, i + 1, hcur, ?_, hin owner (by simp), hne owner (by simp), ?_, ?_, ?_, ?_,
    ?_, by omega, by simpa [PageDesc.groups] using hi, g, hg, hlast, hgroup.owner owner hlast⟩
  · intro r hr
    exact ⟨hin r (by simp [hr]), hne r (by simp [hr]), hgroup.owned r (hseg r hr)⟩
  · intro r hr
    rw [← d.flatten_upperGroups, hpre']
    refine List.mem_append_right _ ?_
    rcases List.mem_append.mp hr with hr | hr
    · exact List.mem_append_left _ hr
    · simp [List.mem_singleton.mp hr]
  · have hlinks := h.links
    rw [hsplit, show pre ++ cur :: (seg ++ owner :: post) =
      pre ++ ((cur :: (seg ++ [owner])) ++ post) by simp] at hlinks
    exact hlinks.right_of_append.left_of_append
  · rw [hgroup.owner owner hlast]
    exact hpos
  · rw [hgroup.owner owner hlast]
    exact hgroup.length_le
  · have := hgroup.length_le
    omega

end WellFormed

end MariaDB.Page
