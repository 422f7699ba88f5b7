import MariaDB.Page.Delete
import MariaDB.Page.SplitSlot

/-!
# Replaying a delete

The runtime delete looks for the predecessor of the record from the directory slot before
its own; the replay starts from the predecessor and looks for the owner. On a well-formed
page both arrive at the same predecessor, successor, owner and directory slot, and
`PageEnv.unlinkRec` does the rest.
-/
namespace MariaDB.Page

open Library (Frame)
open WellFormed PageEnv List Option

variable {env : PageEnv} {f : Frame} {comp : Bool} {pageNo : Nat} {d : PageDesc} {cur : Nat}

variable (h : WellFormed env f comp pageNo d)

/-! ## The directory slot of a record -/

/-- Where a user record is: in the group of a directory slot, after the record of the slot
below. -/
structure Place (d : PageDesc) (comp : Bool) (cur : Nat) (below : List (List Nat))
    (before : List Nat) (first : Nat) (pre post : List Nat) (above : List (List Nat)) : Prop where
  groups_eq : d.groups comp = below ++ (before ++ [first]) :: (pre ++ cur :: post) :: above

include h in
lemma WellFormed.exists_place (hcur : cur ∈ d.users) :
    ∃ below before first pre post above, Place d comp cur below before first pre post above := by
  have hmem : cur ∈ (d.upperGroups comp).flatten := by
    rw [d.flatten_upperGroups]
    exact mem_append_left _ hcur
  obtain ⟨g, hg, hcurg⟩ := mem_flatten.mp hmem
  obtain ⟨gs, above, hgs⟩ := append_of_mem hg
  obtain ⟨pre, post, rfl⟩ := append_of_mem hcurg
  -- the last group of those in front
  rcases eq_nil_or_concat' ([pageInfimum comp] :: gs) with hnil | ⟨below, g', hbelow⟩
  · simp at hnil
  have hgroups : d.groups comp = below ++ g' :: (pre ++ cur :: post) :: above := by
    rw [PageDesc.groups, hgs, ← cons_append, hbelow]
    simp
  rcases eq_nil_or_concat' g' with rfl | ⟨before, first, rfl⟩
  · exact absurd rfl (h.groups_ne_nil (by rw [hgroups]; simp))
  · exact ⟨below, before, first, pre, post, above, ⟨hgroups⟩⟩

section

variable (h : WellFormed env f comp pageNo d)
include h

/-! ## Following the links -/

lemma WellFormed.upper_ge (hs : s ∈ d.users ++ [pageSupremum comp]) : pageSupremum comp ≤ s := by
  have := pageInfimum_lt_pageSupremum comp
  rcases mem_append.mp hs with hs | hs
  · have := h.users_ge hs
    omega
  · rw [mem_singleton.mp hs]

lemma WellFormed.pageRecGetNext_eq (hlink : Linked f comp r s)
    (hs : s ∈ d.users ++ [pageSupremum comp]) : env.pageRecGetNext f r = some s := by
  have hmem : s ∈ d.recs comp := mem_cons_of_mem _ hs
  have hle := h.recs_le hmem
  have hge := h.upper_ge hs
  unfold pageRecGetNext
  simp only [h.comp_eq, hlink.recGetNextOffs_eq h.size_dvd (h.recs_lt hmem)]
  rw [if_neg (by omega), if_neg (by omega)]

lemma WellFormed.findOwnerBelow_eq (hlinks : (seg ++ [owner]).IsChain (Linked f comp))
    (hmem : ∀ s ∈ seg ++ [owner], s ∈ d.users ++ [pageSupremum comp])
    (hseg : ∀ s ∈ seg, recGetNOwned f comp s = 0) (howner : 0 < recGetNOwned f comp owner)
    (hfind : env.findOwnerBelow f slot fuel ((seg ++ [owner]).headD 0) = some r) : r = owner := by
  induction seg generalizing fuel with
  | nil =>
    cases fuel with
    | zero => cases hfind
    | succ fuel =>
      change env.findOwnerBelow f slot (fuel + 1) owner = some r at hfind
      rw [findOwnerBelow, h.comp_eq, if_pos (by omega)] at hfind
      exact (some.inj hfind).symm
  | cons s seg ih =>
    cases fuel with
    | zero => cases hfind
    | succ fuel =>
      obtain ⟨hlink, hin⟩ := Linked.headD hlinks
      have hnext := h.pageRecGetNext_eq hlink (hmem _ (mem_cons_of_mem _ hin))
      change env.findOwnerBelow f slot (fuel + 1) s = some r at hfind
      rw [findOwnerBelow, h.comp_eq, if_neg (not_not.mpr (hseg s (by simp))), hnext] at hfind
      simp only [ite_none_left_eq_some] at hfind
      exact ih hlinks.tail (fun t ht => hmem t (mem_cons_of_mem _ ht))
        (fun t ht => hseg t (mem_cons_of_mem _ ht)) hfind.2

lemma WellFormed.findOwnerBelow_isSome (hlinks : (seg ++ [owner]).IsChain (Linked f comp))
    (hmem : ∀ s ∈ seg ++ [owner], s ∈ d.users ++ [pageSupremum comp] ∧ s < slot)
    (howner : 0 < recGetNOwned f comp owner) (hfuel : seg.length < fuel) :
    (env.findOwnerBelow f slot fuel ((seg ++ [owner]).headD 0)).isSome := by
  induction seg generalizing fuel with
  | nil => cases fuel <;> grind [findOwnerBelow, h.comp_eq]
  | cons s seg ih =>
    obtain ⟨fuel, rfl⟩ := Nat.exists_eq_succ_of_ne_zero (by omega : fuel ≠ 0)
    obtain ⟨hlink, hin⟩ := Linked.headD hlinks
    obtain ⟨hupper, hlt⟩ := hmem _ (mem_cons_of_mem _ hin)
    have hnext := h.pageRecGetNext_eq hlink hupper
    have hge := h.upper_ge hupper
    have := ih hlinks.tail (fun t ht => hmem t (mem_cons_of_mem _ ht)) (by simpa using hfuel)
    grind [findOwnerBelow, h.comp_eq]

/-- The walk from the slot below ends at the predecessor. -/
lemma WellFormed.findPrevRec_eq (hlinks : (first :: (pre ++ [cur])).IsChain (Linked f comp))
    (hmem : ∀ s ∈ pre ++ [cur], s ∈ d.users ++ [pageSupremum comp]) (hcur : cur ∉ pre)
    (hfuel : pre.length < fuel) :
    env.findPrevRec f cur fuel first = some ((first :: pre).getLast (by simp)) := by
  induction pre generalizing first fuel with
  | nil =>
    obtain ⟨fuel, rfl⟩ := Nat.exists_eq_succ_of_ne_zero (by omega : fuel ≠ 0)
    have hnext := h.pageRecGetNext_eq (isChain_cons_cons.mp hlinks).1 (hmem cur (by simp))
    simp [findPrevRec, hnext]
  | cons s pre ih =>
    obtain ⟨fuel, rfl⟩ := Nat.exists_eq_succ_of_ne_zero (by omega : fuel ≠ 0)
    have hnext := h.pageRecGetNext_eq (isChain_cons_cons.mp hlinks).1 (hmem s (by simp))
    have hne : s ≠ cur := by
      rintro rfl
      simp at hcur
    rw [findPrevRec, hnext, getLast_cons (by simp)]
    dsimp only
    rw [if_neg hne]
    exact ih hlinks.tail (fun t ht => hmem t (mem_cons_of_mem _ ht))
      (fun hc => hcur (mem_cons_of_mem _ hc)) (by simpa using hfuel)

end

/-! ## The surroundings of a record -/

namespace Place

variable {below above : List (List Nat)} {before pre post : List Nat} {first : Nat}

section

variable (hp : Place d comp cur below before first pre post above)
include hp

lemma recs_eq :
    d.recs comp =
      (below.flatten ++ before) ++ first :: (pre ++ cur :: (post ++ above.flatten)) := by
  rw [← d.flatten_groups, hp.groups_eq]
  simp

/-- The records after the one of the slot below are no infimum. -/
lemma mem_upper (hs : s ∈ pre ++ cur :: (post ++ above.flatten)) :
    s ∈ d.users ++ [pageSupremum comp] := by
  have hrecs := hp.recs_eq
  generalize below.flatten ++ before = l at hrecs
  cases l with
  | nil =>
    rwa [(cons.inj hrecs).2]
  | cons r l =>
    rw [(cons.inj hrecs).2]
    exact mem_append_right _ (mem_cons_of_mem _ hs)

include h in
lemma links : (first :: (pre ++ cur :: (post ++ above.flatten))).IsChain (Linked f comp) := by
  have hlinks := h.links
  rw [hp.recs_eq] at hlinks
  exact hlinks.right_of_append

include h in
lemma nodup : (first :: (pre ++ cur :: (post ++ above.flatten))).Nodup := by
  have hnodup := h.recs_nodup
  rw [hp.recs_eq] at hnodup
  exact (nodup_append.mp hnodup).2.1

lemma length_groups : (d.groups comp).length = below.length + 2 + above.length := by
  rw [hp.groups_eq]
  simp only [length_append, length_cons]
  omega

include h in
lemma slot_below : f.read2 (env.pageDirGetNthSlot below.length) = first := by
  refine h.slots _ (before ++ [first]) first ?_ (by simp)
  rw [hp.groups_eq]
  simp

lemma group_mem : pre ++ cur :: post ∈ d.groups comp := by
  rw [hp.groups_eq]
  simp

include h in
lemma owner_facts (hseg : cur :: post = seg ++ [owner]) :
    f.read2 (env.pageDirGetNthSlot (below.length + 1)) = owner ∧
      recGetNOwned f comp owner = (pre ++ cur :: post).length ∧
      (∀ s ∈ pre ++ seg, recGetNOwned f comp s = 0) := by
  have hgroup := h.groups _ hp.group_mem
  have hlast : (pre ++ cur :: post).getLast? = some owner := by
    rw [hseg]
    simp
  refine ⟨h.slots _ _ _ ?_ hlast, hgroup.owner owner hlast, fun s hs => hgroup.owned s ?_⟩
  · rw [hp.groups_eq]
    simp
  · rw [hseg, ← append_assoc, dropLast_concat]
    exact hs

end

structure Path (f : Frame) (comp : Bool) (d : PageDesc) (cur : Nat) (seg : List Nat)
    (owner : Nat) : Prop where
  head : (seg ++ [owner]).headD 0 = cur
  links : (seg ++ [owner]).IsChain (Linked f comp)
  mem : ∀ s ∈ seg ++ [owner], s ∈ d.users ++ [pageSupremum comp]
  nodup : (seg ++ [owner]).Nodup
  zero : ∀ s ∈ seg, recGetNOwned f comp s = 0
  pos : 0 < recGetNOwned f comp owner

lemma path (hp : Place d comp cur below before first pre post above)
    (h : WellFormed env f comp pageNo d) (hseg : cur :: post = seg ++ [owner]) :
    Path f comp d cur seg owner := by
  obtain ⟨-, hown, hzero⟩ := hp.owner_facts h hseg
  have hlinks := (hp.links h).tail.right_of_append
  have hnodup := (nodup_append.mp (nodup_cons.mp (hp.nodup h)).2).2.1
  rw [← cons_append, hseg] at hlinks hnodup
  refine ⟨by rw [← hseg]; rfl, hlinks.left_of_append, fun s hs => ?_,
    (nodup_append.mp hnodup).1, fun s hs => hzero s (mem_append_right _ hs), ?_⟩
  · refine hp.mem_upper (mem_append_right _ ?_)
    rw [← cons_append, hseg]
    exact mem_append_left _ hs
  · rw [hown]
    simp

lemma exists_seg (cur : Nat) (post : List Nat) : ∃ seg owner, cur :: post = seg ++ [owner] := by
  rcases eq_nil_or_concat' (cur :: post) with hnil | hconcat
  · simp at hnil
  · exact hconcat

lemma exists_next (hp : Place d comp cur below before first pre post above)
    (h : WellFormed env f comp pageNo d) (hcur : cur ∈ d.users) :
    ∃ next rest, post ++ above.flatten = next :: rest ∧ Linked f comp cur next ∧
      next ∈ d.users ++ [pageSupremum comp] := by
  have hlinks := hp.links h
  cases hrest : post ++ above.flatten with
  | nil =>
    -- the last record is the supremum
    have hrecs : (pageInfimum comp :: d.users) ++ [pageSupremum comp] =
        (below.flatten ++ before ++ first :: pre) ++ [cur] := by
      refine hp.recs_eq.trans ?_
      rw [hrest]
      simp
    obtain rfl : pageSupremum comp = cur := singleton_inj.mp (append_inj' hrecs rfl).2
    exact absurd hcur h.supremum_not_mem_users
  | cons next rest =>
    refine ⟨next, rest, rfl, ?_, hp.mem_upper (by rw [hrest]; simp)⟩
    rw [hrest] at hlinks
    have := hlinks.tail.right_of_append
    exact (isChain_cons_cons.mp this).1

end Place

/-! ## The runtime delete and the replay -/

section

variable {below above : List (List Nat)} {before pre post : List Nat} {first : Nat}
  {index : IndexInfo} {f' : Frame} {log : DeleteLog}

section

variable (hp : Place d comp cur below before first pre post above)
  (h : WellFormed env f comp pageNo d)
include hp h

/-- The search for the directory slot of a record, if it succeeds. -/
lemma Place.pageDirFindOwnerSlot_eq (hfind : env.pageDirFindOwnerSlot f cur = some k) :
    k = below.length + 1 := by
  obtain ⟨seg, owner, hseg⟩ := Place.exists_seg cur post
  have hpath := hp.path h hseg
  have hlen := hp.length_groups
  have htop := h.heap_top_le_last_slot
  unfold pageDirFindOwnerSlot at hfind
  obtain ⟨r, hr, hfind⟩ := bind_eq_some_iff.mp hfind
  obtain ⟨s, hs, rfl⟩ := map_eq_some_iff.mp hfind
  rw [← hpath.head] at hr
  obtain rfl := h.findOwnerBelow_eq hpath.links hpath.mem hpath.zero hpath.pos hr
  rw [h.n_slots, ← (hp.owner_facts h hseg).1] at hs
  rw [h.findSlot_eq (by omega) le_rfl hs]
  simp only [pageDirGetNthSlot, pageDir, pageDirSlotSize]
  omega

lemma Place.length_lt : (pre ++ cur :: post).length < env.srvPageSize := by
  have hgroup := (h.groups _ hp.group_mem).length_le
  have hsize := h.size_ge
  simp only [pageDirSlotMaxNOwned] at hgroup
  omega

lemma Place.pageDirFindOwnerSlot_some (hlt : ∀ r ∈ d.users ++ [pageSupremum comp],
      r < env.pageDirGetNthSlot ((d.groups comp).length - 1)) :
    env.pageDirFindOwnerSlot f cur = some (below.length + 1) := by
  obtain ⟨seg, owner, hseg⟩ := Place.exists_seg cur post
  have hpath := hp.path h hseg
  obtain ⟨hslot, -, -⟩ := hp.owner_facts h hseg
  have hlen := hp.length_groups
  have htop := h.heap_top_le_last_slot
  have hfuel : seg.length < env.srvPageSize := by grind [hp.length_lt h]
  obtain ⟨r, hr⟩ := isSome_iff_exists.mp (h.findOwnerBelow_isSome hpath.links
    (fun s hs => ⟨hpath.mem s hs, hlt s (hpath.mem s hs)⟩) hpath.pos hfuel)
  obtain rfl := h.findOwnerBelow_eq hpath.links hpath.mem hpath.zero hpath.pos hr
  have hfind := findSlot_succ (h.findSlot_some (k := below.length + 1) (by omega) (by omega))
  rw [hslot, show (d.groups comp).length - 1 + 1 = (d.groups comp).length by omega] at hfind
  rw [hpath.head] at hr
  unfold pageDirFindOwnerSlot
  simp only [h.n_slots, hr, bind_some, hfind, map_some, some.injEq]
  simp only [pageDirGetNthSlot, pageDir, pageDirSlotSize]
  omega

lemma Place.links_pre :
    (first :: (pre ++ [cur])).IsChain (Linked f comp) ∧
      ∀ s ∈ pre ++ [cur], s ∈ d.users ++ [pageSupremum comp] := by
  have hchain := hp.links h
  rw [show first :: (pre ++ cur :: (post ++ above.flatten)) =
    (first :: (pre ++ [cur])) ++ (post ++ above.flatten) by simp] at hchain
  refine ⟨hchain.left_of_append, fun s hs => hp.mem_upper ?_⟩
  rcases mem_append.mp hs with hs | hs
  · exact mem_append_left _ hs
  · rw [mem_singleton.mp hs]
    simp

lemma Place.findPrevRec_eq : env.findPrevRec f cur env.srvPageSize first =
    some ((first :: pre).getLast (by simp)) := by
  obtain ⟨hlinks, hupper⟩ := hp.links_pre h
  have hlen := hp.length_lt h
  rw [length_append] at hlen
  refine h.findPrevRec_eq hlinks hupper ?_ (by omega)
  have hnodup := (nodup_cons.mp (hp.nodup h)).2
  exact fun hin => (nodup_append.mp hnodup).2.2 cur hin cur (by simp) rfl

lemma Place.slot_succ : env.pageDirGetNthSlot (below.length + 1) + pageDirSlotSize =
    env.pageDirGetNthSlot below.length := by
  have hlen := hp.length_groups
  have htop := h.heap_top_le_last_slot
  simp only [pageDirGetNthSlot, pageDir, pageDirSlotSize]
  omega

lemma Place.deleted_eq {next owner : Nat} (hnext : Linked f comp cur next)
    (hmem : next ∈ d.users ++ [pageSupremum comp]) (howner : (cur :: post).getLast? = some owner)
    (hdel : env.pageCurDeleteRec index f cur = .deleted f' log) :
    f' = env.unlinkRec f comp cur ((first :: pre).getLast (by simp)) next
        (env.pageDirGetNthSlot (below.length + 1)) (below.length + 1) owner
        (pre ++ cur :: post).length (env.recGetOffsets f cur).1 (env.recGetOffsets f cur).2 ∧
      log = ⟨(first :: pre).getLast (by simp) - pageInfimum comp,
        (env.recGetOffsets f cur).1 - recNExtraBytes comp, (env.recGetOffsets f cur).2⟩ := by
  obtain ⟨seg, hseg⟩ := getLast?_eq_some_iff.mp howner
  obtain ⟨hslot, hown, -⟩ := hp.owner_facts h hseg
  unfold pageCurDeleteRec at hdel
  dsimp only at hdel
  split at hdel
  · cases hdel
  split at hdel
  · cases hdel
  · cases hdel
  rename_i s hfind
  obtain rfl : s = below.length := Nat.succ.inj (hp.pageDirFindOwnerSlot_eq h hfind)
  rw [hp.slot_succ h, hp.slot_below h, hslot, h.comp_eq, hown, hp.findPrevRec_eq h,
    h.pageRecGetNext_eq hnext hmem] at hdel
  split at hdel
  · cases hdel
  obtain ⟨rfl, rfl⟩ := DeleteResult.deleted.inj hdel
  exact ⟨rfl, rfl⟩

end

section

variable (h : WellFormed env f comp pageNo d)
include h

/-- The runtime delete works on a well-formed page, unless it is the only record of the
page, or the origin of a record is at the directory: `page_dir_find_owner_slot()` takes a
record without data at the end of a full page for a corrupted link. -/
theorem WellFormed.deleted_of_lt (hcur : cur ∈ d.users) (hn : f.read2 pageNRecs ≠ 1)
    (hlt : ∀ r ∈ d.users ++ [pageSupremum comp],
      r < env.pageDirGetNthSlot ((d.groups comp).length - 1)) (index : IndexInfo) :
    ∃ f' log, env.pageCurDeleteRec index f cur = .deleted f' log := by
  obtain ⟨below, before, first, pre, post, above, hp⟩ := h.exists_place hcur
  obtain ⟨next, rest, -, hnext, hmem⟩ := hp.exists_next h hcur
  have hfirst : first ≠ cur := by
    rintro rfl
    exact absurd (hp.nodup h) (by simp)
  unfold pageCurDeleteRec
  rw [if_neg (by simp [hn]), hp.pageDirFindOwnerSlot_some h hlt]
  dsimp only
  rw [hp.slot_succ h, hp.slot_below h, if_neg hfirst, hp.findPrevRec_eq h,
    h.pageRecGetNext_eq hnext hmem]
  exact ⟨_, _, rfl⟩

lemma WellFormed.applyDeleteCorrupted_eq (hrecs : f.read2 pageNRecs ≠ 0) :
    applyDeleteCorrupted f comp pageNo = false := by
  have hslots := h.n_slots_le
  unfold applyDeleteCorrupted
  rw [decide_eq_false_iff_not]
  simp only [h.n_slots, h.index_page, h.page_no, h.supremum_link, h.comp_eq, hrecs, Bool.not_true,
    Bool.false_eq_true, not_true_eq_false, ne_eq, or_false, false_or]
  omega

/-- The records of the list are below the directory. -/
lemma WellFormed.le_last_slot (hr : r ≤ f.read2 pageHeapTop) :
    r ≤ env.pageDirGetNthSlot ((d.groups comp).length - 1) := by
  have := h.heap_top_le_last_slot
  have := h.n_slots_le
  simp only [pageDirGetNthSlot, pageDir]
  omega

lemma WellFormed.inHeap_last_slot (hr : r ∈ d.users ++ [pageSupremum comp]) :
    inHeap comp (env.pageDirGetNthSlot ((d.groups comp).length - 1)) r = true := by
  have hheap := h.inHeap_of_upper hr
  unfold inHeap at *
  rw [decide_eq_true_iff] at *
  exact hheap.imp_right fun hle => ⟨hle.1, h.le_last_slot hle.2⟩

end

lemma WellFormed.link_bounds (h : WellFormed env f true pageNo d) (hlink : Linked f true r s)
    (hr : r ∈ d.recs true) (hs : s ∈ d.recs true) (hne : r ≠ s) :
    recNExtraBytes true ≤ f.read2 (r - recNext) ∧
      f.read2 (r - recNext) ≤ 65536 - recNExtraBytes true := by
  have hdisj := h.fixed_disjoint hr hs hne
  have h1 := h.recs_ge hr
  have h2 := h.recs_ge hs
  have h3 := h.recs_lt hr
  have hps := h.size_le
  have hlt := f.read2_lt (r - recNext)
  have hnext := hlink.2
  simp only [applyNext, if_true, recNExtraBytes] at *
  omega

include h in
lemma WellFormed.applyDeleteOwner_eq (hlinks : (seg ++ [owner]).IsChain (Linked f comp))
    (hmem : ∀ s ∈ seg ++ [owner], s ∈ d.users ++ [pageSupremum comp])
    (hnodup : (seg ++ [owner]).Nodup) (hseg : ∀ s ∈ seg, recGetNOwned f comp s = 0)
    (howner : 0 < recGetNOwned f comp owner) (hi : seg.length ≤ i) :
    applyDeleteOwner f comp (env.pageDirGetNthSlot ((d.groups comp).length - 1)) i
      ((seg ++ [owner]).headD 0) = some owner := by
  induction seg generalizing i with
  | nil =>
    unfold applyDeleteOwner
    exact if_pos (by change recGetNOwned f comp owner ≠ 0; omega)
  | cons r seg ih =>
    obtain ⟨i, rfl⟩ := Nat.exists_eq_succ_of_ne_zero (n := i) (by
      rintro rfl
      simp at hi)
    obtain ⟨hlink, hnextMem⟩ := Linked.headD hlinks
    have hne : r ≠ (seg ++ [owner]).headD 0 := fun heq =>
      (nodup_cons.mp hnodup).1 (heq ▸ hnextMem)
    have hnext := hmem _ (mem_cons_of_mem _ hnextMem)
    have hbounds : ¬ (comp = true ∧ (f.read2 (r - recNext) < recNExtraBytes comp ∨
        f.read2 (r - recNext) > 65536 - recNExtraBytes comp)) := by
      rintro ⟨rfl, hbad⟩
      have := h.link_bounds hlink (mem_cons_of_mem _ (hmem r (by simp)))
        (mem_cons_of_mem _ hnext) hne
      omega
    change applyDeleteOwner f comp _ (i + 1) r = _
    rw [applyDeleteOwner, if_neg (not_not.mpr (hseg r (by simp)))]
    simp only [hlink.2, h.inHeap_last_slot hnext]
    rw [if_neg hbounds, if_neg (by decide)]
    exact ih hlinks.tail (fun s hs => hmem s (mem_cons_of_mem _ hs))
      (nodup_cons.mp hnodup).2 (fun s hs => hseg s (mem_cons_of_mem _ hs))
      (by simpa using hi)

lemma Place.applyDelete_eq (hp : Place d comp cur below before first pre post above)
    (h : WellFormed env f comp pageNo d) (hcur : cur ∈ d.users)
    (hrecs : f.read2 pageNRecs = d.users.length) {next owner : Nat} (hnext : Linked f comp cur next)
    (hmem : next ∈ d.users ++ [pageSupremum comp]) (howner : (cur :: post).getLast? = some owner)
    {sizes : Nat → Nat × Nat} (hsizes : sizes cur = env.recGetOffsets f cur) :
    env.applyDelete comp pageNo ((first :: pre).getLast (by simp)) sizes f =
      (false, env.unlinkRec f comp cur ((first :: pre).getLast (by simp)) next
        (env.pageDirGetNthSlot (below.length + 1)) (below.length + 1) owner
        (pre ++ cur :: post).length (env.recGetOffsets f cur).1 (env.recGetOffsets f cur).2) := by
  obtain ⟨seg, hseg⟩ := getLast?_eq_some_iff.mp howner
  obtain ⟨hslot, hown, -⟩ := hp.owner_facts h hseg
  have hlen := hp.length_groups
  have htop := h.heap_top_le_last_slot
  have hpos : 0 < d.users.length := length_pos_of_mem hcur
  have hchain := hp.links h
  have hheap := h.heap cur (mem_append_left _ hcur)
  -- the predecessor
  generalize hprevEq : (first :: pre).getLast (by simp) = prev
  have hsplit : ∃ l, first :: pre = l ++ [prev] := ⟨_, by rw [← hprevEq, dropLast_append_getLast]⟩
  obtain ⟨l, hl⟩ := hsplit
  have hlinkPrev : Linked f comp prev cur := by
    rw [← cons_append, hl, append_assoc] at hchain
    exact (isChain_cons_cons.mp hchain.right_of_append).1
  have hprevMem : prev ∈ d.recs comp := by
    rw [hp.recs_eq, ← cons_append, hl]
    simp
  -- the walk to the owner
  have hpath := hp.path h hseg
  have hfind : applyDeleteOwner f comp
      (env.pageDirGetNthSlot ((d.groups comp).length - 1)) d.users.length cur = some owner := by
    have hsub := (subperm_of_subset hpath.nodup hpath.mem).length_le
    simp only [length_append, length_singleton] at hsub
    rw [← hpath.head]
    exact h.applyDeleteOwner_eq hpath.links hpath.mem hpath.nodup hpath.zero hpath.pos (by omega)
  have hfindSlot : findSlot f owner ((d.groups comp).length - 1)
      (env.pageDirGetNthSlot ((d.groups comp).length - 1)) =
        some (env.pageDirGetNthSlot (below.length + 1)) := by
    rw [← hslot]
    exact h.findSlot_some (by omega) (by omega)
  have hnum : (env.pageDirGetNthSlot 0 - env.pageDirGetNthSlot (below.length + 1)) / 2 =
      below.length + 1 := by
    simp only [pageDirGetNthSlot, pageDir]
    omega
  have hge := h.users_ge hcur
  have hend := h.le_last_slot hheap.end_le
  have hstart := hheap.start_ge
  have hprevLe := h.le_last_slot (h.recs_le hprevMem)
  unfold applyDelete
  simp only [h.applyDeleteCorrupted_eq (by omega : f.read2 pageNRecs ≠ 0), h.n_slots, hlinkPrev.2,
    hnext.2, hsizes, h.inHeap_last_slot hmem, hrecs, hfind, hfindSlot, hown, hnum,
    Bool.false_eq_true, if_false, Bool.not_true]
  unfold recEnd at hend
  rw [if_neg (by omega), if_neg (by omega), if_neg (by omega)]

end

end MariaDB.Page
