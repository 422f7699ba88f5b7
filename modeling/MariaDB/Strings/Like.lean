import Mathlib

/-!
# LIKE

`my_wildcmp_bin()` and `my_wildcmp_8bit()`. The result -1 means that no end of the string matches
either, which ends the search for what follows a `w_many`.
-/
namespace MariaDB.Strings

open List

/-- What a call has besides the two strings. `likeconv` is the identity for `my_wildcmp_bin()` and
`sort_order` for `my_wildcmp_8bit()`. -/
structure Wildcmp where
  charSigned : Bool
  likeconv : UInt8 → UInt8
  escape : Int
  wOne : Int
  wMany : Int

inductive Token where
  | one
  | many
  | lit (c : UInt8)

namespace Wildcmp

variable (w : Wildcmp)

def chr (c : UInt8) : Int := if w.charSigned ∧ 128 ≤ c.toNat then c.toNat - 256 else c.toNat

def literal (c : UInt8) (rest : List UInt8 → Int) : List UInt8 → Int
  | [] => 1
  | s :: str => if w.likeconv c ≠ w.likeconv s then 1 else rest str

/-- The search for the character that follows a `w_many`. -/
def search (cmp : UInt8) (rest : List UInt8 → Int) : List UInt8 → Int
  | [] => -1
  | s :: str =>
    if w.likeconv s ≠ cmp then search cmp rest str
    else
      let tmp := rest str
      if tmp ≤ 0 then tmp else search cmp rest str

mutual

/-- The loop of `my_wildcmp_bin_impl()`. The end of the pattern is checked in one place. -/
def wildcmpImpl (result : Int) : List UInt8 → List UInt8 → Int
  | [], str => if str ≠ [] then 1 else 0
  | c :: wild, str =>
    if w.chr c ≠ w.wMany ∧ w.chr c ≠ w.wOne then
      if w.chr c = w.escape then
        match wild with
        | [] => w.literal c (wildcmpImpl 1 []) str
        | c' :: wild' => w.literal c' (wildcmpImpl 1 wild') str
      else w.literal c (wildcmpImpl 1 wild) str
    else if w.chr c = w.wOne then
      match str with
      | [] => result
      | _ :: str => wildcmpImpl result wild str
    else afterMany wild str

/-- What follows a `w_many`. The character is compared with `escape` as an `uchar`. -/
def afterMany : List UInt8 → List UInt8 → Int
  | [], _ => 0
  | c :: wild, str =>
    if w.chr c = w.wMany then afterMany wild str
    else if w.chr c = w.wOne then
      match str with
      | [] => -1
      | _ :: str => afterMany wild str
    else if (c.toNat : Int) = w.escape then
      match wild with
      | [] => w.search (w.likeconv c) (wildcmpImpl (-1) []) str
      | c' :: wild' => w.search (w.likeconv c') (wildcmpImpl (-1) wild') str
    else w.search (w.likeconv c) (wildcmpImpl (-1) wild) str

end

def wildcmp (str wild : List UInt8) : Int :=
  w.wildcmpImpl (-1) wild str

def tokens : List UInt8 → List Token
  | [] => []
  | c :: wild =>
    if w.chr c = w.wMany then .many :: tokens wild
    else if w.chr c = w.wOne then .one :: tokens wild
    else if w.chr c = w.escape then
      match wild with
      | [] => [.lit c]
      | c' :: wild' => .lit c' :: tokens wild'
    else .lit c :: tokens wild

def Matches : List Token → List UInt8 → Prop
  | [], str => str = []
  | .lit c :: ts, str => ∃ s str', str = s :: str' ∧ w.likeconv s = w.likeconv c ∧ Matches ts str'
  | .one :: ts, str => ∃ s str', str = s :: str' ∧ Matches ts str'
  | .many :: ts, str => ∃ k, Matches ts (str.drop k)

variable {w} {ts : List Token} {str : List UInt8} {r : Int}

/-- What a result of `my_wildcmp_bin_impl()` says. -/
structure Result (w : Wildcmp) (ts : List Token) (str : List UInt8) (r : Int) : Prop where
  zero : r = 0 ↔ w.Matches ts str
  neg : r = -1 → ∀ k, ¬w.Matches ts (str.drop k)
  range : r = -1 ∨ r = 0 ∨ r = 1

/-- What a result says after a `w_many`. -/
structure ManyResult (w : Wildcmp) (ts : List Token) (str : List UInt8) (r : Int) : Prop where
  zero : r = 0 ↔ ∃ k, w.Matches ts (str.drop k)
  range : r = -1 ∨ r = 0

@[simp] lemma matches_nil : w.Matches [] str ↔ str = [] := Iff.rfl

@[simp] lemma not_matches_lit_nil (c : UInt8) : ¬w.Matches (.lit c :: ts) [] := by
  simp [Matches]

@[simp] lemma matches_lit_cons (c s : UInt8) : w.Matches (.lit c :: ts) (s :: str) ↔
    w.likeconv s = w.likeconv c ∧ w.Matches ts str := by
  simp [Matches]

@[simp] lemma not_matches_one_nil : ¬w.Matches (.one :: ts) [] := by simp [Matches]

@[simp] lemma matches_one_cons (s : UInt8) :
    w.Matches (.one :: ts) (s :: str) ↔ w.Matches ts str := by
  simp [Matches]

lemma matches_many : w.Matches (.many :: ts) str ↔ ∃ k, w.Matches ts (str.drop k) := Iff.rfl

lemma Matches.tail (ht : t ≠ .many) (h : w.Matches (t :: ts) str) : w.Matches ts str.tail := by
  cases t <;> cases str <;> simp_all

lemma exists_drop_cons (s : UInt8) : (∃ k, w.Matches ts ((s :: str).drop k)) ↔
    w.Matches ts (s :: str) ∨ ∃ k, w.Matches ts (str.drop k) :=
  Nat.or_exists_add_one.symm

lemma exists_drop_one (s : UInt8) (str : List UInt8) :
    (∃ k, w.Matches (.one :: ts) ((s :: str).drop k)) ↔ ∃ k, w.Matches ts (str.drop k) := by
  induction str generalizing s with
  | nil => simp [exists_drop_cons]
  | cons x str ih => rw [exists_drop_cons, ih, exists_drop_cons, matches_one_cons]

lemma Result.cons (h : w.Result ts str r) (ht : t ≠ .many)
    (hs : w.Matches (t :: ts) (s :: str) ↔ w.Matches ts str) : w.Result (t :: ts) (s :: str) r := by
  refine ⟨h.zero.trans hs.symm, fun hr k hk => h.neg hr k ?_, h.range⟩
  simpa [tail_drop] using hk.tail ht

lemma Result.of_ne_zero (hno : ¬w.Matches ts []) (hr : r = -1 ∨ r = 1) : w.Result ts [] r :=
  ⟨by grind, by simp [hno], by grind⟩

lemma Result.literal (h : ∀ str, w.Result ts str (rest str)) (str : List UInt8) :
    w.Result (.lit c :: ts) str (w.literal c rest str) := by
  cases str with
  | nil => exact .of_ne_zero (by simp) (.inr rfl)
  | cons s str =>
    rw [Wildcmp.literal]
    split_ifs with hne
    · exact ⟨by simp [Ne.symm hne], by simp, by simp⟩
    · exact (h str).cons (by simp) (by simp [not_not.mp hne])

lemma ManyResult.search (h : ∀ str, w.Result ts str (rest str)) (str : List UInt8) :
    w.ManyResult (.lit c :: ts) str (w.search (w.likeconv c) rest str) := by
  induction str with
  | nil => exact ⟨by simp [Wildcmp.search], by simp [Wildcmp.search]⟩
  | cons s str ih =>
    obtain ⟨hzero, hneg, hrange⟩ := h str
    rw [Wildcmp.search]
    dsimp only
    split_ifs with hne hle
    · exact ⟨by simp [exists_drop_cons, hne, ih.zero], ih.range⟩
    · -- the rest matches here, or at no later place either
      refine ⟨?_, by omega⟩
      simp only [exists_drop_cons, matches_lit_cons, not_not.mp hne, true_and, ← hzero]
      refine ⟨.inl, fun hor => hor.elim id fun ⟨k, hk⟩ => ?_⟩
      by_contra hr
      exact hneg (by omega) (k + 1) (by simpa [tail_drop] using hk.tail (t := .lit c) (by simp))
    · have hno : ¬w.Matches ts str := fun hm => hle (hzero.mpr hm ▸ Int.le_refl 0)
      exact ⟨by simp [exists_drop_cons, hno, ih.zero], ih.range⟩

lemma ManyResult.result (h : w.ManyResult ts str r) : w.Result (.many :: ts) str r := by
  refine ⟨h.zero, fun hr k ⟨j, hj⟩ => ?_, h.range.imp_right .inl⟩
  rw [drop_drop] at hj
  have := h.zero.mpr ⟨_, hj⟩
  omega

lemma ManyResult.many (h : w.ManyResult ts str r) : w.ManyResult (.many :: ts) str r := by
  refine ⟨h.zero.trans ⟨fun ⟨k, hk⟩ => ⟨k, 0, hk⟩, fun ⟨k, j, hj⟩ => ⟨k + j, ?_⟩⟩, h.range⟩
  rwa [drop_drop] at hj

/-- The invariant of both loops for a pattern. -/
def Correct (w : Wildcmp) (wild : List UInt8) : Prop :=
  (∀ result str, result = -1 ∨ result = 1 →
    w.Result (w.tokens wild) str (w.wildcmpImpl result wild str)) ∧
  ∀ m str, w.chr m = w.wMany → w.ManyResult (w.tokens wild) str (w.afterMany wild str)

/-- After a `w_many`, `escape` is the same character as a `char` and as an `uchar`. -/
def EscapeAfterMany (w : Wildcmp) : Prop :=
  ∀ m c : UInt8, w.chr m = w.wMany → w.chr c ≠ w.wMany → w.chr c ≠ w.wOne →
    (w.chr c = w.escape ↔ (c.toNat : Int) = w.escape)

lemma correct_nil : w.Correct [] := by
  refine ⟨fun result str _ => ?_, fun _ str _ => ?_⟩
  · rw [wildcmpImpl, tokens]
    split_ifs with hne
    · exact ⟨by simp [hne], by simp, by simp⟩
    · exact ⟨by simp [not_not.mp hne], by simp, by simp⟩
  · rw [afterMany, tokens]
    exact ⟨by simpa using ⟨str.length, Nat.le_refl _⟩, .inr rfl⟩

lemma correct (hone : w.wOne ≠ w.wMany) (hesc : w.EscapeAfterMany) (n : Nat) :
    ∀ wild : List UInt8, wild.length ≤ n → w.Correct wild := by
  induction n with
  | zero =>
    intro wild hlen
    rw [length_eq_zero_iff.mp (Nat.le_zero.mp hlen)]
    exact correct_nil
  | succ n ih =>
    rintro (_ | ⟨c, wild⟩) hlen
    · exact correct_nil
    have hlen : wild.length ≤ n := by simpa using hlen
    obtain ⟨ihs, ihm⟩ := ih wild hlen
    constructor
    · intro result str hresult
      unfold wildcmpImpl tokens
      by_cases hmany : w.chr c = w.wMany
      · simpa [hmany, hone.symm] using (ihm c str hmany).result
      by_cases hw : w.chr c = w.wOne
      · cases str with
        | nil => simpa [hw, hone] using Result.of_ne_zero not_matches_one_nil hresult
        | cons s str =>
          simpa [hw, hone] using
            (ihs result str hresult).cons (t := .one) (by simp) (matches_one_cons s)
      rw [if_neg hmany, if_neg hw, if_pos (And.intro hmany hw)]
      split_ifs with hescape
      · cases wild with
        | nil => exact .literal (correct_nil.1 1 · (.inr rfl)) str
        | cons c' wild => exact .literal ((ih wild (Nat.le_of_succ_le hlen)).1 1 · (.inr rfl)) str
      · exact .literal (ihs 1 · (.inr rfl)) str
    · intro m str hm
      unfold afterMany tokens
      by_cases hmany : w.chr c = w.wMany
      · simpa [hmany] using (ihm m str hm).many
      by_cases hw : w.chr c = w.wOne
      · cases str with
        | nil => simpa [hw, hone] using ⟨by simp, .inl rfl⟩
        | cons s str =>
          obtain ⟨hzero, hrange⟩ := ihm m str hm
          simpa [hw, hone] using ⟨hzero.trans (exists_drop_one s str).symm, hrange⟩
      rw [if_neg hmany, if_neg hw, if_neg hmany, if_neg hw]
      simp only [hesc m c hm hmany hw]
      split_ifs with hescape
      · cases wild with
        | nil => exact .search (correct_nil.1 _ · (.inl rfl)) str
        | cons c' wild => exact .search ((ih wild (Nat.le_of_succ_le hlen)).1 _ · (.inl rfl)) str
      · exact .search (ihs _ · (.inl rfl)) str

lemma escapeAfterMany_of_wildcmp (hone : w.wOne ≠ w.wMany)
    (h : ∀ str wild, w.wildcmp str wild = 0 ↔ w.Matches (w.tokens wild) str) :
    w.EscapeAfterMany := by
  intro m c hm hmany hw
  -- the pattern `w_many c c` is one character long if `c` is the escape character
  have hc := h [c] [m, c, c]
  by_contra hne
  by_cases hescape : w.chr c = w.escape <;>
    simp_all [wildcmp, wildcmpImpl, afterMany, tokens, literal, search, matches_many,
      exists_drop_cons, hone.symm]

/-- The result is 0 exactly for the strings that match, for all strings and patterns, if and only
if `escape` is the same character everywhere. -/
theorem wildcmp_eq_zero_iff (hone : w.wOne ≠ w.wMany) :
    (∀ str wild, w.wildcmp str wild = 0 ↔ w.Matches (w.tokens wild) str) ↔ w.EscapeAfterMany :=
  ⟨escapeAfterMany_of_wildcmp hone, fun hesc str wild =>
    ((correct hone hesc _ wild (Nat.le_refl _)).1 _ str (.inl rfl)).zero⟩

/-- The pattern `a\%`. -/
theorem wildcmp_eq_zero_iff_escape :
    wildcmp ⟨true, id, 92, 95, 37⟩ [97, 37] [97, 92, 37] = 0 ↔
      Matches ⟨true, id, 92, 95, 37⟩ [.lit 97, .lit 37] [97, 37] :=
  (wildcmp_eq_zero_iff (by decide)).mpr (fun _ c _ _ _ => by grind [chr, c.toNat_lt]) _ _

/-- The escape character `0xA7` is not recognised after `%`. -/
theorem not_wildcmp_eq_zero_iff :
    wildcmp ⟨true, id, -89, 95, 37⟩ [37] [37, 0xA7, 37] ≠ 0 ∧
      Matches ⟨true, id, -89, 95, 37⟩ (tokens ⟨true, id, -89, 95, 37⟩ [37, 0xA7, 37]) [37] :=
  ⟨by decide, 0, 37, [], rfl, rfl, rfl⟩

end Wildcmp

/-! ### The range of keys -/

section Range

variable (sortOrder : UInt8 → UInt8) (pad : Bool)

def spacesLe (swap : Bool) : List UInt8 → Bool
  | [] => true
  | c :: cs =>
    if sortOrder c ≠ sortOrder 32 then
      if swap then sortOrder 32 < sortOrder c else sortOrder c < sortOrder 32
    else spacesLe swap cs

/-- Whether a string is not greater than another one, for a collation with PAD SPACE or NO PAD. -/
def collLe : List UInt8 → List UInt8 → Bool
  | [], bs => !pad || spacesLe sortOrder true bs
  | a :: as, [] => pad && spacesLe sortOrder false (a :: as)
  | a :: as, b :: bs =>
    if sortOrder a ≠ sortOrder b then sortOrder a < sortOrder b else collLe as bs

namespace Wildcmp

/-- The keys as far as the loop of `my_like_range_simple()` writes them, and whether it found a
`w_many`. -/
def likeRangeLoop (w : Wildcmp) (maxSortChar : UInt8) :
    Nat → List UInt8 → List UInt8 × List UInt8 × Bool
  | 0, _ | _, [] => ([], [], false)
  | n + 1, c :: wild =>
    let push (lo hi : UInt8) (wild : List UInt8) :=
      let r := likeRangeLoop w maxSortChar n wild
      (lo :: r.1, hi :: r.2.1, r.2.2)
    match decide (w.chr c = w.escape), wild with
    | true, c' :: wild' => push c' c' wild'
    | _, wild =>
      if w.chr c = w.wOne then push 0 maxSortChar wild
      else if w.chr c = w.wMany then ([], [], true)
      else push c c wild

/-- The keys of `my_like_range_simple()`, with the lengths that it returns. -/
def likeRangeSimple (w : Wildcmp) (maxSortChar : UInt8) (binsort nopad : Bool) (resLength : Nat)
    (wild : List UInt8) : List UInt8 × List UInt8 :=
  let (lo, hi, many) := w.likeRangeLoop maxSortChar resLength wild
  let rest := resLength - lo.length
  if many then
    ((lo ++ replicate rest 0).take (if binsort || nopad then lo.length else resLength),
      (hi ++ replicate rest maxSortChar).take resLength)
  else
    ((lo ++ replicate rest 32).take lo.length, (hi ++ replicate rest 32).take lo.length)

end Wildcmp

variable {sortOrder pad} {a b maxSortChar : UInt8} {as bs str : List UInt8}

lemma collLe_cons (h : sortOrder a ≤ sortOrder b) (hrest : collLe sortOrder pad as bs) :
    collLe sortOrder pad (a :: as) (b :: bs) := by
  rw [collLe]
  split_ifs with hne
  · exact decide_eq_true (UInt8.lt_of_le_of_ne h hne)
  · exact hrest

lemma spacesLe_replicate {swap : Bool} (n : Nat)
    (h : if swap then sortOrder 32 ≤ sortOrder c else sortOrder c ≤ sortOrder 32) :
    spacesLe sortOrder swap (replicate n c) := by
  induction n with
  | zero => rfl
  | succ n ih =>
    rw [replicate_succ, spacesLe]
    grind [UInt8.lt_of_le_of_ne]

lemma collLe_zeros (hmin : ∀ c, sortOrder 0 ≤ sortOrder c) (n : Nat) (str : List UInt8)
    (hstr : str.length ≤ n) : collLe sortOrder true (replicate n 0) str := by
  induction n generalizing str with
  | zero => simp [length_eq_zero_iff.mp (Nat.le_zero.mp hstr), collLe, spacesLe]
  | succ n ih =>
    cases str with
    | nil => exact spacesLe_replicate (n + 1) (hmin 32)
    | cons s str => exact collLe_cons (hmin s) (ih str (by simpa using hstr))

lemma collLe_max (hmax : ∀ c, sortOrder c ≤ sortOrder maxSortChar) (n : Nat) (str : List UInt8)
    (hstr : str.length ≤ n) : collLe sortOrder pad str (replicate n maxSortChar) := by
  induction n generalizing str with
  | zero => simp [length_eq_zero_iff.mp (Nat.le_zero.mp hstr), collLe, spacesLe]
  | succ n ih =>
    cases str with
    | nil =>
      have hspaces : spacesLe sortOrder true _ := spacesLe_replicate (n + 1) (hmax 32)
      simp [collLe, hspaces]
    | cons s str => exact collLe_cons (hmax s) (ih str (by simpa using hstr))

namespace Wildcmp

variable {w : Wildcmp}

lemma length_likeRangeLoop (w : Wildcmp) (maxSortChar : UInt8) (n : Nat) (wild : List UInt8) :
    (w.likeRangeLoop maxSortChar n wild).2.1.length =
      (w.likeRangeLoop maxSortChar n wild).1.length ∧
    (w.likeRangeLoop maxSortChar n wild).1.length ≤ n := by
  fun_induction likeRangeLoop w maxSortChar n wild <;> grind

def Bounds (w : Wildcmp) (maxSortChar : UInt8) (pad : Bool) (n : Nat)
    (r : List UInt8 × List UInt8 × Bool) (str : List UInt8) : Prop :=
  collLe w.likeconv pad
    (r.1 ++ if r.2.2 && pad then replicate (n - r.1.length) 0 else []) str ∧
  collLe w.likeconv pad str
    (r.2.1 ++ if r.2.2 then replicate (n - r.2.1.length) maxSortChar else [])

lemma Bounds.push (h : w.Bounds maxSortChar pad n r str) (hlo : w.likeconv lo ≤ w.likeconv s)
    (hhi : w.likeconv s ≤ w.likeconv hi) :
    w.Bounds maxSortChar pad (n + 1) (lo :: r.1, hi :: r.2.1, r.2.2) (s :: str) := by
  simp only [Bounds, length_cons, Nat.add_sub_add_right]
  exact ⟨collLe_cons hlo h.1, collLe_cons hhi h.2⟩

lemma exists_of_literal (h : w.literal c rest str = 0) :
    ∃ s str', str = s :: str' ∧ w.likeconv c = w.likeconv s ∧ rest str' = 0 := by
  cases str <;> grind [literal]

section

variable (hesc : ∀ c, w.chr c = w.escape → w.escape ≠ w.wOne ∧ w.escape ≠ w.wMany)
  (hmin : ∀ c, w.likeconv 0 ≤ w.likeconv c) (hmax : ∀ c, w.likeconv c ≤ w.likeconv maxSortChar)

include hesc hmin hmax

lemma likeRangeLoop_bounds (pad : Bool) (n : Nat) (wild : List UInt8) :
    ∀ result str, result ≠ 0 → w.wildcmpImpl result wild str = 0 → str.length ≤ n →
      w.Bounds maxSortChar pad n (w.likeRangeLoop maxSortChar n wild) str := by
  fun_induction likeRangeLoop w maxSortChar n wild with
  | case1 =>
    intro result str _ _ hstr
    simp [length_eq_zero_iff.mp (Nat.le_zero.mp hstr), Bounds, collLe, spacesLe]
  | case2 n =>
    intro result str _ h _
    have hstr : str = [] := by simpa [wildcmpImpl] using h
    simp [hstr, Bounds, collLe, spacesLe]
  | case3 n c push c' wild hescape ih =>
    intro result str _ h hstr
    have hchr : w.chr c = w.escape := by simpa using hescape
    unfold wildcmpImpl at h
    rw [if_pos (by grind), if_pos hchr] at h
    obtain ⟨s, str, rfl, heq, hrest⟩ := exists_of_literal h
    exact (ih wild 1 str (by decide) hrest (by simpa using hstr)).push
      (UInt8.le_of_eq heq) (UInt8.le_of_eq heq.symm)
  | case4 n c push wild hw _ ih =>
    intro result str hresult h hstr
    unfold wildcmpImpl at h
    rw [if_neg (by grind), if_pos hw] at h
    cases str with
    | nil => exact (hresult h).elim
    | cons s str =>
      exact (ih wild result str hresult h (by simpa using hstr)).push (hmin s) (hmax s)
  | case5 n c wild hw hmany _ ih =>
    -- anything may follow, and only PAD SPACE needs the zeros
    intro result str _ _ hstr
    refine ⟨?_, collLe_max hmax _ str hstr⟩
    cases pad with
    | false => cases str <;> simp [collLe]
    | true => exact collLe_zeros hmin _ str hstr
  | case6 n c push wild hw hmany _ ih =>
    intro result str _ h hstr
    have hlit : w.literal c (w.wildcmpImpl 1 wild) str = 0 := by
      unfold wildcmpImpl at h
      grind
    obtain ⟨s, str, rfl, heq, hrest⟩ := exists_of_literal hlit
    exact (ih wild 1 str (by decide) hrest (by simpa using hstr)).push
      (UInt8.le_of_eq heq) (UInt8.le_of_eq heq.symm)

/-- No PAD SPACE collation of `my_wildcmp_8bit()` has `MY_CS_BINSORT`. -/
lemma likeRangeSimple_le {binsort : Bool} (hpad : pad = true → binsort = false) (n : Nat)
    (wild str : List UInt8) (hstr : str.length ≤ n) (h : w.wildcmp str wild = 0) :
    let keys := w.likeRangeSimple maxSortChar binsort (!pad) n wild
    collLe w.likeconv pad keys.1 str ∧ collLe w.likeconv pad str keys.2 := by
  have hbounds := likeRangeLoop_bounds hesc hmin hmax pad n wild (-1) str (by decide) h hstr
  obtain ⟨heq, hle⟩ := w.length_likeRangeLoop maxSortChar n wild
  unfold likeRangeSimple
  generalize w.likeRangeLoop maxSortChar n wild = r at *
  obtain ⟨lo, hi, many⟩ := r
  dsimp only [Bounds] at heq hle hbounds ⊢
  rw [heq] at hbounds
  cases many with
  | false => simpa [take_left' heq] using hbounds
  | true =>
    have htake (l : List UInt8) (x : UInt8) (hl : l.length = lo.length) :
        (l ++ replicate (n - lo.length) x).take n = l ++ replicate (n - lo.length) x :=
      take_of_length_le (by simp; omega)
    cases pad with
    | false => simpa [htake hi _ heq] using hbounds
    | true => simpa [hpad rfl, htake hi _ heq, htake lo _ rfl] using hbounds

end

lemma not_likeRangeSimple_le {binsort nopad : Bool} (he : w.chr e = w.escape)
    (hw : w.escape = w.wOne ∨ w.escape = w.wMany) (hx : w.likeconv x ≠ w.likeconv e) :
    let keys := w.likeRangeSimple maxSortChar binsort nopad 2 [e, e]
    w.wildcmp [x, x] [e, e] = 0 ∧
      ¬(collLe w.likeconv pad keys.1 [x, x] ∧ collLe w.likeconv pad [x, x] keys.2) := by
  grind [wildcmp, wildcmpImpl, afterMany, likeRangeSimple, likeRangeLoop, collLe]

/-- All matching strings are between the keys, for all patterns and lengths, if and only if the
escape character is none of the two wildcards. -/
theorem likeRangeSimple_bounds {binsort : Bool} (hpad : pad = true → binsort = false)
    (hmin : ∀ c, w.likeconv 0 ≤ w.likeconv c) (hmax : ∀ c, w.likeconv c ≤ w.likeconv maxSortChar)
    (hne : w.likeconv 0 ≠ w.likeconv maxSortChar) :
    (∀ n wild str, str.length ≤ n → w.wildcmp str wild = 0 →
      let keys := w.likeRangeSimple maxSortChar binsort (!pad) n wild
      collLe w.likeconv pad keys.1 str ∧ collLe w.likeconv pad str keys.2) ↔
    ∀ c, w.chr c = w.escape → w.escape ≠ w.wOne ∧ w.escape ≠ w.wMany := by
  refine ⟨fun h e he => ?_, fun hesc => likeRangeSimple_le hesc hmin hmax hpad⟩
  by_contra hw
  obtain ⟨x, hx⟩ : ∃ x, w.likeconv x ≠ w.likeconv e := by
    by_contra! hall
    exact hne ((hall 0).trans (hall maxSortChar).symm)
  obtain ⟨hmatch, hnot⟩ := not_likeRangeSimple_le he (by tauto) hx
  exact hnot (h 2 _ _ (by simp) hmatch)

/-- `ab` and the pattern `a%`, in a PAD SPACE collation. -/
theorem likeRangeSimple_bounds_two :
    let keys := likeRangeSimple ⟨true, id, 92, 95, 37⟩ 255 false false 3 [97, 37]
    collLe id true keys.1 [97, 98] ∧ collLe id true [97, 98] keys.2 :=
  (likeRangeSimple_bounds (w := ⟨true, id, 92, 95, 37⟩) (fun _ => rfl) (fun _ => UInt8.zero_le)
    (by exact fun c => Nat.le_of_lt_succ c.toNat_lt) (by decide)).mpr (by simp)
    3 _ _ (by decide) (by decide)

/-- `ab` matches `__` and is above the last key if `_` is the escape character. -/
theorem not_likeRangeSimple_bounds :
    wildcmp ⟨true, id, 95, 95, 37⟩ [97, 98] [95, 95] = 0 ∧ collLe id true [97, 98]
      (likeRangeSimple ⟨true, id, 95, 95, 37⟩ 255 false false 3 [95, 95]).2 = false := by
  decide

end Wildcmp

end Range

end MariaDB.Strings
