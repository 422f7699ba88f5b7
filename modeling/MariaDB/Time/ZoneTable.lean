import MariaDB.Time.ZoneInfo

/-!
# The table of local times

For local times that are not near the ends of the range, the table of `prepare_tz_info()` gives
the first instant with that local time, or the gap that the local time is in.
-/
namespace MariaDB.Time

open MariaDB.Library List Option

def offsetFrom : Int → List (Int × Int) → Int → Int
  | o, [], _ => o
  | o, (a, o') :: rest, t => if t < a then o else offsetFrom o' rest t

/-- Each change of the offset is smaller than the intervals before and after it; there is no
bound on the first and the last interval. -/
def SmallChanges : Int → List (Int × Int) → Prop
  | o, (a, o₁) :: (b, o₂) :: rest =>
    |o₁ - o| < b - a ∧ |o₂ - o₁| < b - a ∧ SmallChanges o₁ ((b, o₂) :: rest)
  | _, _ => True

/-- A description without leap seconds whose transitions are sorted and whose offsets change by
less than the length of the neighbouring intervals. -/
structure TimeZoneInfo.Regular (z : TimeZoneInfo) : Prop where
  lsis : z.lsis = []
  sorted : (z.changes.map Prod.fst).Pairwise (· ≤ ·)
  small : SmallChanges (z.gmtoff z.fallbackType) z.changes

/-! ## Offsets -/

variable {o a o₁ : Int}

lemma SmallChanges.tail (h : SmallChanges o ((a, o₁) :: rest)) : SmallChanges o₁ rest := by
  match rest, h with
  | [], _ => trivial
  | (b, o₂) :: rest, h => exact h.2.2

lemma SmallChanges.lt_head (h : SmallChanges o ((a, o₁) :: rest)) : ∀ c ∈ rest.head?, a < c.1 := by
  match rest, h with
  | [], _ => simp
  | (b, o₂) :: rest, h =>
    have := (abs_nonneg _).trans_lt h.1
    simp only [head?_cons, mem_def, some.injEq, forall_eq']
    omega

lemma SmallChanges.start_le : ∀ {o a o₁ t : Int},
    SmallChanges o ((a, o₁) :: rest) → a ≤ t → a + o₁ ≤ t + offsetFrom o₁ rest t := by
  induction rest with
  | nil =>
    intro o a o₁ t _ ht
    simp only [offsetFrom]
    omega
  | cons c rest ih =>
    obtain ⟨b, o₂⟩ := c
    intro o a o₁ t h ht
    rw [offsetFrom]
    split_ifs with hb
    · omega
    · have h1 := ih h.2.2 (not_lt.mp hb)
      have h2 := (abs_lt.mp h.2.1).1
      omega

lemma offsetFrom_of_range {l : List (Int × Int)} : ∀ {o t : Int} {i : Nat},
    (l.map Prod.fst).Pairwise (· ≤ ·) → i < l.length → (l.getD i (0, 0)).1 ≤ t →
    (i + 1 < l.length → t < (l.getD (i + 1) (0, 0)).1) →
    offsetFrom o l t = (l.getD i (0, 0)).2 := by
  induction l with
  | nil =>
    intro o t i _ hi
    simp at hi
  | cons c rest ih =>
    obtain ⟨a, o'⟩ := c
    intro o t i hsorted hi hle hlt
    rw [map_cons, pairwise_cons] at hsorted
    cases i with
    | zero =>
      rw [offsetFrom, if_neg (not_lt.mpr (show a ≤ t from hle))]
      match rest, hlt with
      | [], _ => rfl
      | (b, o₂) :: rest, hlt => exact if_pos (hlt (by simp))
    | succ i =>
      have hi' : i < rest.length := by simpa using hi
      have hat : a ≤ (rest.getD i (0, 0)).1 := by
        refine hsorted.1 _ (mem_map_of_mem ?_)
        simp [List.getD, hi']
      rw [getD_cons_succ] at hle ⊢
      rw [offsetFrom, if_neg (not_lt.mpr (hat.trans hle))]
      exact ih hsorted.2 hi' hle fun h => hlt (by simpa using h)

namespace TimeZoneInfo

variable {z : TimeZoneInfo}

lemma findTransitionType_eq (hz : z.Regular) (t : Int) :
    z.findTransitionType t = offsetFrom (z.gmtoff z.fallbackType) z.changes t := by
  unfold findTransitionType
  have hsorted := hz.sorted
  generalize z.changes = l at hsorted ⊢
  match l with
  | [] => rfl
  | (at₀, o) :: rest =>
    dsimp only
    by_cases ht : t < at₀
    · rw [if_pos ht, offsetFrom, if_pos ht]
    · rw [if_neg ht]
      obtain ⟨h1, h2, h3⟩ := @RangeSearch.find_spec Int _
        (fun i => (((at₀, o) :: rest).getD i (0, 0)).1) t ((at₀, o) :: rest).length (by simp)
        (not_lt.mp ht)
      exact (offsetFrom_of_range hsorted h1 h2 h3).symm

def JumpsOver (z : TimeZoneInfo) (a l : Int) : Prop :=
  a - 1 + z.findTransitionType (a - 1) < l ∧ l < a + z.findTransitionType a

/-! ## The table -/

def Right (z : TimeZoneInfo) (l : Int) (e : RevtInfo) : Prop :=
  if e.gap then
    (∀ t, 0 ≤ t → t + z.findTransitionType t ≠ l) ∧ z.JumpsOver (e.start - e.offset) l
  else
    l - e.offset + z.findTransitionType (l - e.offset) = l ∧
      ∀ t, 0 ≤ t → t + z.findTransitionType t = l → l - e.offset ≤ t

/-- Local times that are away from the ends of the range, for offsets up to `b`. -/
def Inner (b l : Int) : Prop := 2 * b < l ∧ l + b ≤ myTimeTMax

def TableOk (z : TimeZoneInfo) (b : Int) : Int → List RevtInfo → Prop
  | _, [] => True
  | maxL, e :: es =>
    (∀ l, Inner b l → e.start ≤ l → l ≤ maxL → z.Right l e) ∧ TableOk z b (e.start - 1) es

lemma TableOk.right_of_range : ∀ {maxL l : Int} {i : Nat}
    {e : RevtInfo}, TableOk z b maxL es → Inner b l → es.reverse[i]? = some e → e.start ≤ l →
    (∀ e', es.reverse[i + 1]? = some e' → l < e'.start) →
    (es.reverse[i + 1]? = none → l ≤ maxL) → z.Right l e := by
  induction es with
  | nil =>
    intro maxL l i e _ _ he
    simp at he
  | cons e₀ es ih =>
    intro maxL l i e hok hl he hle hnext hlast
    rw [reverse_cons] at he hnext hlast
    rcases lt_trichotomy i es.reverse.length with hi | hi | hi
    · rw [List.getElem?_append_left hi] at he
      refine ih hok.2 hl he hle (fun e' he' => hnext e' ?_) fun hnone => ?_
      · rw [List.getElem?_append_left (List.getElem?_eq_some_iff.mp he').1, he']
      · have hi' : i + 1 = es.reverse.length := by
          have := List.getElem?_eq_none_iff.mp hnone
          omega
        have := hnext e₀ (by rw [hi']; simp)
        omega
    · subst hi
      obtain rfl : e₀ = e := by simpa using he
      exact hok.1 l hl hle (hlast (by simp))
    · rw [getElem?_eq_none (by rw [length_append, length_singleton]; omega)] at he
      cases he

/-! ## The sweep -/

/-- What holds between two rounds of the loop, for offsets up to `b`. -/
structure SweepOk (z : TimeZoneInfo) (b : Int) (s : Sweep) : Prop where
  lsis : s.lsis = []
  curCorr : s.curCorr = 0
  offset_le : |s.curOffset| ≤ b
  suffix : s.changes <:+ z.changes
  /-- The interval starts at `curT` or, in the first round, before it. -/
  interval : ∃ start ≤ s.curT,
    (∀ t, start ≤ t → z.findTransitionType t = offsetFrom s.curOffset s.changes t) ∧
      ∀ c ∈ s.changes.head?, start < c.1
  earlier : ∀ t, 0 ≤ t → t < s.curT → t + z.findTransitionType t ≤ s.curMaxSeenL
  small : SmallChanges s.curOffset s.changes
  table : TableOk z b s.curMaxSeenL s.ranges
  empty : s.ranges = [] → s.curMaxSeenL = 0 ∧ s.curT ≤ b + 1
  /-- The last range is that of the interval before. -/
  last : ∀ e ∈ s.ranges.head?, 0 < s.curMaxSeenL ∧ e.gap = false ∧
    s.curMaxSeenL = s.curT - 1 + e.offset ∧ z.findTransitionType (s.curT - 1) = e.offset ∧
    (∀ t, s.curT ≤ t → z.findTransitionType t = offsetFrom s.curOffset s.changes t) ∧
    SmallChanges e.offset ((s.curT, s.curOffset) :: s.changes)
  first : ∀ e ∈ s.ranges.getLast?, ∀ l, Inner b l → e.start ≤ l

namespace SweepOk

variable {b : Int} {s : Sweep}

section

variable (h : SweepOk z b s)
include h

lemma offAndCorr_eq : s.offAndCorr = s.curOffset := by
  unfold Sweep.offAndCorr
  rw [h.curCorr, Int.sub_zero]

lemma bound_nonneg : 0 ≤ b := (abs_nonneg _).trans h.offset_le

lemma clippedT_cases :
    s.clippedT = s.curT ∨ s.curT ≤ s.clippedT ∧ s.clippedT + s.curOffset = 0 := by
  unfold Sweep.clippedT
  rw [h.offAndCorr_eq]
  unfold myTimeTMin
  split_ifs <;> omega

lemma endT_lt : ∀ c ∈ s.changes.head?, s.endT < c.1 := by
  intro c hc
  unfold Sweep.endT
  rw [mem_def.mp hc, h.lsis, h.offAndCorr_eq]
  simp only [map_some, getD_some, head?_nil, map_none, getD_none]
  split_ifs <;> omega

lemma le_endL_of_atEnd (hend : s.AtEnd) : myTimeTMax - b ≤ s.endT + s.curOffset := by
  have hb := abs_le.mp h.offset_le
  unfold Sweep.AtEnd at hend
  rw [h.offAndCorr_eq] at hend
  omega

lemma endT_of_not_atEnd (hend : ¬ s.AtEnd) :
    ∃ c rest, s.changes = c :: rest ∧ s.endT = c.1 - 1 := by
  unfold Sweep.AtEnd Sweep.endT at hend
  rw [h.lsis, h.offAndCorr_eq] at hend
  unfold Sweep.endT
  rw [h.lsis, h.offAndCorr_eq]
  simp only [head?_nil, map_none, getD_none] at hend ⊢
  match hc : s.changes with
  | [] =>
    simp only [hc, head?_nil, map_none, getD_none] at hend
    split_ifs at hend <;> omega
  | c :: rest =>
    simp only [hc, head?_cons, map_some, getD_some] at hend ⊢
    refine ⟨c, rest, rfl, ?_⟩
    split_ifs at hend ⊢ <;> omega

lemma offset_eq (ht : s.curT ≤ t) (ht' : t ≤ s.endT) : z.findTransitionType t = s.curOffset := by
  obtain ⟨start, hstart, hoff, -⟩ := h.interval
  rw [hoff t (hstart.trans ht)]
  have hlt := h.endT_lt
  match hc : s.changes with
  | [] => rfl
  | (a, o) :: rest =>
    have := hlt (a, o) (by rw [hc]; rfl)
    exact if_pos (by omega)

end

variable {l maxL : Int} {ranges : List RevtInfo}

/-- A local time of the interval that is new has its first instant there. -/
lemma right_range (h : SweepOk z b s) (hmax : s.curMaxSeenL < l)
    (hcur : s.clippedT + s.curOffset ≤ l) (hend : l ≤ s.endT + s.curOffset) :
    z.Right l ⟨start, s.curOffset, false⟩ := by
  have hclip : s.curT ≤ s.clippedT := by
    rcases h.clippedT_cases with h | h <;> omega
  rw [Right, if_neg (by simp)]
  dsimp only
  refine ⟨by rw [h.offset_eq (by omega) (by omega)]; omega, fun t ht hl => ?_⟩
  by_contra hlt
  by_cases hcurT : t < s.curT
  · have := h.earlier t ht hcurT
    omega
  · rw [h.offset_eq (by omega) (by omega)] at hl
    omega

lemma right_gap (h : SweepOk z b s) (he : e ∈ s.ranges.head?) (hmax : s.curMaxSeenL < l)
    (hcur : l < s.clippedT + s.curOffset) : z.Right l ⟨s.curMaxSeenL + 1, e.offset, true⟩ := by
  obtain ⟨hpos, -, hlast, hprev, hoff, hsmall⟩ := h.last e he
  have hclip : s.clippedT = s.curT := by
    rcases h.clippedT_cases with h | h
    · exact h
    · omega
  have hcurT : z.findTransitionType s.curT = s.curOffset := by
    rw [hoff _ (Int.le_refl _)]
    have hlt := hsmall.lt_head
    match hc : s.changes with
    | [] => rfl
    | (a, o) :: rest => exact if_pos (hlt (a, o) (by rw [hc]; rfl))
  rw [Right, if_pos rfl]
  refine ⟨fun t ht hl => ?_, ?_⟩
  · by_cases hcurT : t < s.curT
    · have := h.earlier t ht hcurT
      omega
    · have := hsmall.start_le (not_lt.mp hcurT)
      rw [← hoff t (not_lt.mp hcurT)] at this
      omega
  · rw [show s.curMaxSeenL + 1 - e.offset = s.curT by omega]
    exact ⟨by rw [hprev]; omega, by rw [hcurT]; omega⟩

lemma curL_le (h : SweepOk z b s) (hempty : s.ranges = []) (hl : Inner b l) :
    s.clippedT + s.curOffset ≤ l := by
  have hb := abs_le.mp h.offset_le
  have hT := (h.empty hempty).2
  have := hl.1
  rcases h.clippedT_cases with h | h <;> omega

lemma ranges_of_curMaxSeenL (h : SweepOk z b s) :
    s.ranges = [] ∧ s.curMaxSeenL = 0 ∨ ∃ e es, s.ranges = e :: es ∧ 0 < s.curMaxSeenL := by
  match hr : s.ranges with
  | [] => exact .inl ⟨rfl, (h.empty hr).1⟩
  | e :: es => exact .inr ⟨e, es, rfl, (h.last e (by rw [hr]; rfl)).1⟩

structure Added (z : TimeZoneInfo) (b : Int) (s : Sweep) (maxL : Int) (ranges : List RevtInfo) :
    Prop where
  table : TableOk z b maxL ranges
  first : ∀ e ∈ ranges.getLast?, ∀ l, Inner b l → e.start ≤ l
  result : maxL = s.curMaxSeenL ∧ ranges = s.ranges ∧ s.endT + s.curOffset ≤ maxL ∨
    s.curMaxSeenL < maxL ∧ maxL = s.endT + s.curOffset ∧
      ∃ e ∈ ranges.head?, e.gap = false ∧ e.offset = s.curOffset

lemma added_of_addRange (h : SweepOk z b s)
    (hadd : addRange (s.clippedT + s.offAndCorr) (s.endT + s.offAndCorr) s.offAndCorr
      s.curMaxSeenL s.ranges = some (maxL, ranges)) : Added z b s maxL ranges := by
  rw [h.offAndCorr_eq] at hadd
  unfold addRange at hadd
  by_cases hnew : s.curMaxSeenL < s.endT + s.curOffset
  · rw [if_pos hnew] at hadd
    rcases h.ranges_of_curMaxSeenL with ⟨hempty, h0⟩ | ⟨e, es, hr, hpos⟩
    · -- the first range
      rw [if_pos (show s.curMaxSeenL = myTimeTMin from h0)] at hadd
      obtain ⟨rfl, rfl⟩ := Prod.mk.inj (some.inj hadd)
      rw [hempty]
      refine ⟨⟨fun l hl hle hend => h.right_range ?_ hle hend, trivial⟩, ?_, .inr ⟨hnew, rfl, ?_⟩⟩
      · have := h.bound_nonneg
        have := hl.1
        omega
      · intro e he l hl
        obtain rfl : _ = e := by simpa using he
        exact h.curL_le hempty hl
      · exact ⟨_, rfl, rfl, rfl⟩
    · rw [if_neg (by unfold myTimeTMin; omega)] at hadd
      have hfirst : ∀ new : List RevtInfo, ∀ e' ∈ (new ++ s.ranges).getLast?, ∀ l, Inner b l →
          e'.start ≤ l := by
        intro new e' he'
        refine h.first e' ?_
        rw [getLast?_append] at he'
        simpa [hr] using he'
      by_cases hgap : s.curMaxSeenL + 1 < s.clippedT + s.curOffset
      · rw [if_pos hgap] at hadd
        dsimp only at hadd
        split_ifs at hadd
        obtain ⟨rfl, rfl⟩ := Prod.mk.inj (some.inj hadd)
        refine ⟨⟨fun l hl hle hend => h.right_range ?_ hle hend,
          fun l hl hle hend => ?_, ?_⟩, hfirst [_, _], .inr ⟨hnew, rfl, ?_⟩⟩
        · dsimp only at hle
          omega
        · dsimp only at hle hend
          have := h.right_gap (e := e) (by rw [hr]; rfl) (by omega : s.curMaxSeenL < l) (by omega)
          simpa [hr] using this
        · simpa using h.table
        · exact ⟨_, rfl, rfl, rfl⟩
      · rw [if_neg hgap] at hadd
        obtain ⟨rfl, rfl⟩ := Prod.mk.inj (some.inj hadd)
        refine ⟨⟨fun l hl hle hend => h.right_range ?_ ?_ hend, ?_⟩, hfirst [_],
          .inr ⟨hnew, rfl, ?_⟩⟩
        · dsimp only at hle
          omega
        · dsimp only at hle
          omega
        · simpa using h.table
        · exact ⟨_, rfl, rfl, rfl⟩
  · rw [if_neg hnew] at hadd
    obtain ⟨rfl, rfl⟩ := Prod.mk.inj (some.inj hadd)
    exact ⟨h.table, h.first, .inl ⟨rfl, rfl, not_lt.mp hnew⟩⟩

lemma next_eq (h : SweepOk z b s) (hz : z.Regular) (hc : s.changes = (a, o) :: rest)
    (hend : s.endT = a - 1) : Sweep.next z s maxL ranges = ⟨a, o, 0, rest, [], maxL, ranges⟩ := by
  have hhead : ∃ a₀ o₀ rest₀, z.changes = (a₀, o₀) :: rest₀ ∧ a₀ ≤ a := by
    have hsuffix := h.suffix
    have hsorted := hz.sorted
    rw [hc] at hsuffix
    match hzc : z.changes with
    | [] => simp [hzc] at hsuffix
    | (a₀, o₀) :: rest₀ =>
      refine ⟨a₀, o₀, rest₀, rfl, ?_⟩
      rw [hzc, map_cons, pairwise_cons] at hsorted
      rw [hzc] at hsuffix
      obtain heq | hmem := mem_cons.mp (hsuffix.subset (mem_cons_self ..))
      · exact Int.le_of_eq (Prod.mk.inj heq).1.symm
      · exact hsorted.1 _ (mem_map_of_mem hmem)
  obtain ⟨a₀, o₀, rest₀, hzc, hle⟩ := hhead
  unfold Sweep.next
  rw [hzc, hc, h.lsis, h.curCorr, hend, Int.sub_add_cancel]
  simp [hle]

lemma next (h : SweepOk z b s) (hz : z.Regular) (hbound : ∀ c ∈ z.changes, |c.2| ≤ b)
    (hend : ¬ s.AtEnd) (hadd : Added z b s maxL ranges) :
    SweepOk z b (Sweep.next z s maxL ranges) ∧
      (Sweep.next z s maxL ranges).changes.length < s.changes.length := by
  obtain ⟨⟨a, o⟩, rest, hc, hendT⟩ := h.endT_of_not_atEnd hend
  rw [h.next_eq hz hc hendT]
  refine ⟨?_, by simp [hc]⟩
  have hsuffix : rest <:+ z.changes := (hc ▸ suffix_cons _ _ : rest <:+ s.changes).trans h.suffix
  have hsmall : SmallChanges s.curOffset ((a, o) :: rest) := hc ▸ h.small
  obtain ⟨start, hstart, hoff, hlt⟩ := h.interval
  have hlt : start < a := hlt (a, o) (by rw [hc]; rfl)
  have hoff' : ∀ t, a ≤ t → z.findTransitionType t = offsetFrom o rest t := by
    intro t ht
    rw [hoff t (by omega), hc, offsetFrom, if_neg (by omega)]
  have hprev : z.findTransitionType (a - 1) = s.curOffset := by
    rw [hoff _ (by omega), hc, offsetFrom, if_pos (by omega)]
  have hmax : s.curMaxSeenL ≤ maxL ∧ s.endT + s.curOffset ≤ maxL := by
    rcases hadd.result with ⟨h1, -, h2⟩ | ⟨h1, h2, -⟩ <;> omega
  exact {
    lsis := rfl
    curCorr := rfl
    offset_le := hbound (a, o) (h.suffix.subset (by rw [hc]; exact mem_cons_self ..))
    suffix := hsuffix
    interval := ⟨a, Int.le_refl _, hoff', hsmall.lt_head⟩
    earlier := by
      intro t ht hlt
      dsimp only at hlt ⊢
      by_cases hcur : t < s.curT
      · exact (h.earlier t ht hcur).trans hmax.1
      · rw [h.offset_eq (not_lt.mp hcur) (by omega)]
        omega
    small := hsmall.tail
    table := hadd.table
    empty := by
      intro hempty
      rcases hadd.result with ⟨h1, h2, h3⟩ | ⟨-, -, e, he, -⟩
      · have h4 := (h.empty (h2 ▸ hempty)).1
        have h5 := abs_le.mp h.offset_le
        exact ⟨h1.trans h4, by dsimp only; omega⟩
      · dsimp only at hempty
        simp [hempty] at he
    last := by
      intro e he
      rcases hadd.result with ⟨h1, h2, h3⟩ | ⟨h1, h2, e', he', h3, h4⟩
      · -- the interval ends after the one before
        obtain ⟨-, -, h4, -, -, h5⟩ := h.last e (h2 ▸ he)
        rw [hc] at h5
        have := (abs_lt.mp h5.1).1
        omega
      · obtain rfl : e' = e := some.inj (he'.symm.trans he)
        have hpos : 0 ≤ s.curMaxSeenL := by
          rcases h.ranges_of_curMaxSeenL with ⟨-, h⟩ | ⟨_, _, -, h⟩ <;> omega
        refine ⟨by dsimp only; omega, h3, by dsimp only; omega, ?_, hoff', ?_⟩
        · rw [h4]
          exact hprev
        · rw [h4]
          exact hsmall
    first := hadd.first }

end SweepOk

structure TableGood (z : TimeZoneInfo) (b : Int) (r : RevTable) : Prop where
  table : ∃ maxL, r.endL ≤ maxL ∧ TableOk z b maxL r.ranges.reverse
  first : ∀ l, Inner b l → ∃ e, r.ranges[0]? = some e ∧ e.start ≤ l
  last : myTimeTMax - b ≤ r.endL

variable {b : Int}

lemma tableGood_of_sweep (hz : z.Regular) (hbound : ∀ c ∈ z.changes, |c.2| ≤ b) :
    ∀ {s : Sweep} {r : RevTable}, SweepOk z b s → z.sweep fuel s = some r →
    TableGood z b r := by
  induction fuel with
  | zero =>
    intro s r _ hr
    cases hr
  | succ fuel ih =>
    intro s r hs hr
    rw [sweep] at hr
    by_cases hcount : tzMaxRevRanges - 1 ≤ s.ranges.length
    · rw [if_pos hcount] at hr
      cases hr
    rw [if_neg hcount] at hr
    split at hr
    · cases hr
    · rename_i maxL ranges hadd
      have hadded := hs.added_of_addRange hadd
      by_cases hend : s.AtEnd
      · rw [if_pos hend] at hr
        split_ifs at hr
        cases hr
        have hlast := hs.le_endL_of_atEnd hend
        rw [hs.offAndCorr_eq]
        have hmax : s.endT + s.curOffset ≤ maxL := by
          rcases hadded.result with ⟨-, -, h⟩ | ⟨-, h, -⟩ <;> omega
        refine ⟨⟨maxL, hmax, by rw [reverse_reverse]; exact hadded.table⟩, fun l hl => ?_, hlast⟩
        have hne : ranges ≠ [] := by
          rintro rfl
          rcases hadded.result with ⟨h1, h2, h3⟩ | ⟨-, -, e, he, -⟩
          · have h4 := (hs.empty h2.symm).1
            have h5 := hs.bound_nonneg
            have h6 := hl.1
            have h7 := hl.2
            omega
          · simp at he
        obtain ⟨e, he⟩ : ∃ e, ranges.getLast? = some e := ⟨_, getLast?_eq_some_getLast hne⟩
        refine ⟨e, ?_, hadded.first e he l hl⟩
        rw [← head?_eq_getElem?, head?_reverse, he]
      · rw [if_neg hend] at hr
        exact ih (hs.next hz hbound hend hadded).1 hr

lemma addRange_eq_some (curL endL offset maxL : Int) {ranges : List RevtInfo}
    (hlen : ranges.length + 2 < tzMaxRevRanges) :
    ∃ maxL' ranges', addRange curL endL offset maxL ranges = some (maxL', ranges') ∧
      ranges'.length ≤ ranges.length + 2 := by
  unfold tzMaxRevRanges at hlen
  unfold addRange
  dsimp only
  split_ifs with h1 h2 h3 h4
  · exact ⟨_, _, rfl, by simp⟩
  · rw [length_cons] at h4
    omega
  · exact ⟨_, _, rfl, by simp⟩
  · exact ⟨_, _, rfl, by simp⟩
  · exact ⟨_, _, rfl, by omega⟩

lemma exists_sweep (hz : z.Regular) (hbound : ∀ c ∈ z.changes, |c.2| ≤ b) :
    ∀ {s : Sweep}, SweepOk z b s → s.changes.length < fuel →
    s.ranges.length + 2 * (s.changes.length + 1) < tzMaxRevRanges - 1 →
    ∃ r, z.sweep fuel s = some r := by
  induction fuel with
  | zero =>
    intro s _ hfuel
    omega
  | succ fuel ih =>
    intro s hs hfuel hspace
    obtain ⟨maxL, ranges, hadd, hlen⟩ := addRange_eq_some (s.clippedT + s.offAndCorr)
      (s.endT + s.offAndCorr) s.offAndCorr s.curMaxSeenL
      (by omega : s.ranges.length + 2 < tzMaxRevRanges)
    rw [sweep, if_neg (by omega), hadd]
    dsimp only
    by_cases hend : s.AtEnd
    · rw [if_pos hend, if_neg (by omega)]
      exact ⟨_, rfl⟩
    · rw [if_neg hend]
      obtain ⟨hnext, hless⟩ := hs.next hz hbound hend (hs.added_of_addRange hadd)
      refine ih hnext (by omega) ?_
      have : (Sweep.next z s maxL ranges).ranges = ranges := rfl
      rw [this]
      omega

/-! ## The whole table -/

lemma gmtoff_le (hb : ∀ tti ∈ z.ttis, |tti.gmtoff| ≤ b) (type : Nat) : |z.gmtoff type| ≤ b := by
  obtain ⟨tti, htti⟩ := exists_mem_of_ne_nil _ z.ttis_ne
  grind [gmtoff]

lemma changes_le (hb : ∀ tti ∈ z.ttis, |tti.gmtoff| ≤ b) : ∀ c ∈ z.changes, |c.2| ≤ b := by
  intro c hc
  obtain ⟨tr, -, rfl⟩ := mem_map.mp hc
  exact gmtoff_le hb tr.2

lemma offsetFrom_le : ∀ {o t : Int}, |o| ≤ b → (∀ c ∈ l, |c.2| ≤ b) → |offsetFrom o l t| ≤ b := by
  induction l <;> grind [offsetFrom]

variable (hz : z.Regular) (hb : ∀ tti ∈ z.ttis, |tti.gmtoff| ≤ b) {r : RevTable}

include hz hb in
lemma findTransitionType_le (t : Int) : |z.findTransitionType t| ≤ b := by
  rw [findTransitionType_eq hz]
  exact offsetFrom_le (gmtoff_le hb _) (changes_le hb)

include hz hb in
lemma sweepOk_firstRound : SweepOk z b z.firstRound := by
  have h0 : 0 ≤ b := (abs_nonneg _).trans (gmtoff_le hb 0)
  have hoff := findTransitionType_eq hz
  have hsmall := hz.small
  have hbound := changes_le hb
  -- What does not depend on the offset of the first round.
  have key : ∀ {o : Int} {l : List (Int × Int)}, |o| ≤ b → l <:+ z.changes → SmallChanges o l →
      (∃ start ≤ (0 : Int), (∀ t, start ≤ t → z.findTransitionType t = offsetFrom o l t) ∧
        ∀ c ∈ l.head?, start < c.1) → SweepOk z b ⟨0, o, 0, l, [], 0, []⟩ := by
    intro o l ho hl hsmall hint
    exact ⟨rfl, rfl, ho, hl, hint, fun t ht hlt => absurd hlt (not_lt.mpr ht), hsmall, trivial,
      fun _ => ⟨rfl, by dsimp only; omega⟩, by simp, by simp⟩
  unfold firstRound
  rw [hz.lsis]
  match hc : z.changes with
  | [] =>
    rw [hc] at hoff
    exact key (gmtoff_le hb _) (nil_suffix ..) trivial ⟨0, le_rfl, fun t _ => hoff t, by simp⟩
  | (a, o) :: rest =>
    rw [hc] at hoff hsmall hbound
    by_cases ha : myTimeTMin < a
    · simp only [if_pos ha]
      refine key (gmtoff_le hb _) (hc ▸ suffix_refl _) hsmall
        ⟨0, Int.le_refl _, fun t _ => hoff t, ?_⟩
      intro c hc
      obtain rfl : _ = c := some.inj hc
      exact ha
    · simp only [if_neg ha]
      refine key (hbound _ (mem_cons_self ..)) (hc ▸ suffix_cons ..) hsmall.tail
        ⟨a, not_lt.mp ha, fun t ht => ?_, hsmall.lt_head⟩
      rw [hoff, offsetFrom, if_neg (not_lt.mpr ht)]

/-- `prepare_tz_info()` succeeds if there is space for two ranges for each transition. -/
theorem exists_prepareTzInfo (hz : z.Regular)
    (hspace : 2 * (z.transitions.length + 1) < tzMaxRevRanges - 1) :
    ∃ r, z.prepareTzInfo = some r := by
  obtain ⟨b, hb⟩ : ∃ b, ∀ tti ∈ z.ttis, |tti.gmtoff| ≤ b := by
    simpa using (z.ttis.map fun tti => |tti.gmtoff|).toFinset.exists_le
  have hok := sweepOk_firstRound hz hb
  have hlen : z.firstRound.changes.length ≤ z.transitions.length := by
    simpa [changes] using hok.suffix.length_le
  have hranges : z.firstRound.ranges = [] := rfl
  exact exists_sweep hz (changes_le hb) hok (by grind [changes]) (by grind)

theorem exists_prepareTzInfo_twoTransitions : ∃ r, (⟨[(1000000, 1), (2000000, 0)],
    [⟨0, false⟩, ⟨3600, true⟩], [], by decide, by decide⟩ : TimeZoneInfo).prepareTzInfo = some r :=
  exists_prepareTzInfo ⟨rfl, by decide, by decide, by decide, trivial⟩ (by decide)

include hz hb in
lemma tableGood (hr : z.prepareTzInfo = some r) : TableGood z b r :=
  tableGood_of_sweep hz (changes_le hb) (sweepOk_firstRound hz hb) hr

lemma TableGood.exists_range (h : TableGood z b r) (hl : Inner b l) :
    let start i := (r.ranges.map RevtInfo.start).getD i r.endL
    ¬ (l < start 0 ∨ r.endL < l) ∧
      ∃ e, r.ranges[RangeSearch.find start l r.ranges.length]? = some e ∧ z.Right l e := by
  intro start
  have hstart : ∀ {i : Nat} {e : RevtInfo}, r.ranges[i]? = some e → start i = e.start := by
    intro i e he
    simp [start, getD_eq_getElem?_getD, he]
  obtain ⟨e₀, he₀, hle₀⟩ := h.first l hl
  have hend : l ≤ r.endL := by
    have := h.last
    have := hl.2
    omega
  rw [← hstart he₀] at hle₀
  refine ⟨by omega, ?_⟩
  have hpos : 0 < r.ranges.length := (List.getElem?_eq_some_iff.mp he₀).1
  obtain ⟨hi, hle, hlt⟩ := RangeSearch.find_spec hpos hle₀
  set i := RangeSearch.find start l r.ranges.length
  obtain ⟨e, he⟩ : ∃ e, r.ranges[i]? = some e := ⟨_, List.getElem?_eq_getElem hi⟩
  obtain ⟨maxL, hmax, htable⟩ := h.table
  refine ⟨e, he, htable.right_of_range hl (by rw [reverse_reverse]; exact he)
    (hstart he ▸ hle) (fun e' he' => ?_) fun _ => hend.trans hmax⟩
  rw [reverse_reverse] at he'
  rw [← hstart he']
  exact hlt (List.getElem?_eq_some_iff.mp he').1

end TimeZoneInfo

end MariaDB.Time
