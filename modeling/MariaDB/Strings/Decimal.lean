import MariaDB.Library.BigEndian

/-!
# Decimal numbers

`decimal_t`: `intg` digits before and `frac` digits after the point, in words of nine
digits. The integer words are filled from the point to the left and the fraction words
from the point to the right. `decimal_cmp()` compares two numbers word by word, and is
shown to compare their values.
-/
namespace MariaDB.Strings

open Library List

def digPerDec1 : Nat := 9

def digBase : Nat := 1000000000

def digMax : Nat := digBase - 1

def powers10 (i : Nat) : Nat := 10 ^ i

def roundUp (x : Nat) : Nat := (x + if 0 < x then digPerDec1 - 1 else 0) / digPerDec1

/-- `decimal_t`. `buf` may be longer than the number. -/
structure Decimal where
  intg : Nat
  frac : Nat
  sign : Bool
  buf : List Nat
  deriving DecidableEq, Repr

namespace Decimal

def intWords (d : Decimal) : List Nat := d.buf.take (roundUp d.intg)

def fracWords (d : Decimal) : List Nat := (d.buf.drop (roundUp d.intg)).take (roundUp d.frac)

/-- The words are in range and the first one has no more digits than `intg` says. -/
structure InRange (d : Decimal) : Prop where
  /-- `decimal_digits_t` has 16 bits. -/
  intg_lt : d.intg < 2 ^ 16
  length : roundUp d.intg + roundUp d.frac ≤ d.buf.length
  word : ∀ w ∈ d.intWords ++ d.fracWords, w ≤ digMax
  first : ∀ w ∈ d.intWords.head?, w < powers10 ((d.intg - 1) % digPerDec1 + 1)

/-- The digits of the last word behind `frac` digits are zero. -/
structure WellFormed (d : Decimal) : Prop extends InRange d where
  last : ∀ w ∈ d.fracWords.getLast?, powers10 (digPerDec1 * roundUp d.frac - d.frac) ∣ w

def magnitude (d : Decimal) : ℚ :=
  ofBE digBase (d.intWords ++ d.fracWords) / (digBase : ℚ) ^ d.fracWords.length

def value (d : Decimal) : ℚ := if d.sign then -d.magnitude else d.magnitude

def NotNegativeZero (d : Decimal) : Prop := d.sign = true → d.value ≠ 0

end Decimal

def skipWords : List Nat → Nat → Nat → List Nat × Nat
  | w :: ws, intg, i =>
    if 0 < intg ∧ w = 0 then skipWords ws (intg - i) digPerDec1 else (w :: ws, intg)
  | [], intg, _ => ([], intg)

/-- Skip digits of a word that are zero; `i` digits are below the first one. -/
def skipDigits (w : Nat) : Nat → Nat → Nat
  | i + 1, intg => if w < powers10 (i + 1) then skipDigits w i (intg - 1) else intg
  | 0, intg => intg

/-- The words from the first one that is not zero on, and the number of digits before the
point. The counter is a `decimal_digits_t`. -/
def removeLeadingZeroes (d : Decimal) : List Nat × Nat :=
  let intg := d.intg % 2 ^ 16
  let (buf0, intg) := skipWords d.buf intg ((intg - 1) % digPerDec1 + 1)
  if 0 < intg then (buf0, skipDigits (buf0.headD 0) ((intg - 1) % digPerDec1) intg) else (buf0, 0)

def skipZeros : Nat → List Nat → List Nat × Nat
  | n + 1, w :: ws => if w = 0 then skipZeros n ws else (w :: ws, n + 1)
  | n, ws => (ws, n)

/-- Whether the second number is greater, `none` if they are equal. -/
def cmpWords : List Nat → List Nat → Option Bool
  | a :: as, b :: bs => if a = b then cmpWords as bs else some (a < b)
  | _ :: _, [] => some false
  | [], _ :: _ => some true
  | [], [] => none

/-- The carry of `do_sub()`: whether the second number is greater without its sign. -/
def doSubCarry (from1 from2 : Decimal) : Option Bool :=
  let (buf1, intg1) := skipZeros (roundUp from1.intg) from1.buf
  let (buf2, intg2) := skipZeros (roundUp from2.intg) from2.buf
  if intg2 > intg1 then some true
  else if intg2 = intg1 then
    let words1 := (buf1.take (intg1 + roundUp from1.frac)).rdropWhile (· = 0)
    let words2 := (buf2.take (intg2 + roundUp from2.frac)).rdropWhile (· = 0)
    cmpWords words1 words2
  else some false

/-- `do_sub()` without a result. -/
def doSubCmp (from1 from2 : Decimal) : Int :=
  match doSubCarry from1 from2 with
  | none => 0
  | some carry => if carry = from1.sign then 1 else -1

def decimalCmp (from1 from2 : Decimal) : Int :=
  if from1.sign = from2.sign then doSubCmp from1 from2
  else if from1.sign > from2.sign then -1 else 1

section Fraction

def fraction (ws : List Nat) : ℚ := ofBE digBase ws / (digBase : ℚ) ^ ws.length

variable {w : Nat} (ws : List Nat)

lemma digBase_pos : (0 : ℚ) < digBase := by norm_num [digBase]

@[simp] lemma fraction_nil : fraction [] = 0 := by simp [fraction]

lemma fraction_cons (w : Nat) (ws : List Nat) :
    fraction (w :: ws) = (w + fraction ws) / digBase := by
  have := digBase_pos
  simp only [fraction, ofBE, length_cons]
  push_cast
  field_simp
  ring

lemma fraction_nonneg : 0 ≤ fraction ws := by
  unfold fraction
  positivity

lemma fraction_lt_one (h : ∀ w ∈ xs, w < digBase) : fraction xs < 1 := by
  have := digBase_pos
  have hlt := ofBE_lt h
  rw [fraction, div_lt_one (by positivity)]
  exact_mod_cast hlt

lemma fraction_append_replicate (n : Nat) : fraction (ws ++ replicate n 0) = fraction ws := by
  have := digBase_pos
  simp only [fraction, ofBE_append, ofBE_replicate_zero, length_append, length_replicate]
  push_cast
  field_simp
  ring

lemma fraction_pos (hw : w ∈ xs) (hne : w ≠ 0) : 0 < fraction xs := by
  induction xs with
  | nil => cases hw
  | cons x xs ih =>
    have hbase := digBase_pos
    have hnonneg := fraction_nonneg xs
    rw [fraction_cons]
    rcases mem_cons.mp hw with rfl | hw
    · have : (0 : ℚ) < w := by exact_mod_cast Nat.pos_of_ne_zero hne
      positivity
    · have := ih hw
      positivity

lemma fraction_rdropWhile : fraction (ws.rdropWhile (· = 0)) = fraction ws := by
  induction ws using reverseRecOn with
  | nil => simp
  | append_singleton ws w ih =>
    by_cases hw : w = 0
    · rw [rdropWhile_concat_pos _ _ _ (by simpa using hw), ih, hw]
      exact (fraction_append_replicate ws 1).symm
    · rw [rdropWhile_concat_neg _ _ _ (by simpa using hw)]

def NoTrailingZero (ws : List Nat) : Prop := ∀ w ∈ ws.getLast?, w ≠ 0

lemma NoTrailingZero.tail {ws : List Nat} (h : NoTrailingZero (w :: ws)) : NoTrailingZero ws := by
  cases ws with
  | nil => simp [NoTrailingZero]
  | cons v ws => simpa [NoTrailingZero] using h

lemma NoTrailingZero.fraction_pos {ws : List Nat} (h : NoTrailingZero (w :: ws)) :
    0 < fraction (w :: ws) := by
  have hlast := getLast?_eq_some_getLast (cons_ne_nil w ws)
  exact Strings.fraction_pos (getLast_mem (cons_ne_nil w ws)) (h _ hlast)

lemma noTrailingZero_rdropWhile : NoTrailingZero (ws.rdropWhile (· = 0)) := by
  intro w hw
  have hne : ws.rdropWhile (· = 0) ≠ [] := by
    rintro h
    simp [h] at hw
  have := rdropWhile_last_not (fun x => decide (x = 0)) ws hne
  rw [getLast?_eq_some_getLast hne] at hw
  cases hw
  simpa using this

lemma cmpWords_spec (hx : ∀ w ∈ xs, w < digBase) (hy : ∀ w ∈ ys, w < digBase)
    (hxs : NoTrailingZero xs) (hys : NoTrailingZero ys) :
    (cmpWords xs ys = some true ↔ fraction xs < fraction ys) ∧
    (cmpWords xs ys = none ↔ fraction xs = fraction ys) := by
  induction xs generalizing ys with
  | nil =>
    cases ys with
    | nil => simp [cmpWords]
    | cons y ys =>
      have := hys.fraction_pos
      simp [cmpWords, this, this.ne]
  | cons x xs ih =>
    cases ys with
    | nil =>
      have := hxs.fraction_pos
      simp [cmpWords, this.le, this.ne']
    | cons y ys =>
      have hbase := digBase_pos
      rw [fraction_cons, fraction_cons, div_lt_div_iff_of_pos_right hbase,
        div_left_inj' hbase.ne', cmpWords]
      have hx' : ∀ w ∈ xs, w < digBase := fun w hw => hx w (by simp [hw])
      have hy' : ∀ w ∈ ys, w < digBase := fun w hw => hy w (by simp [hw])
      by_cases hxy : x = y
      · subst hxy
        simpa using ih hx' hy' hxs.tail hys.tail
      · have h1 := fraction_lt_one hx'
        have h2 := fraction_lt_one hy'
        have h3 := fraction_nonneg xs
        have h4 := fraction_nonneg ys
        rw [if_neg hxy]
        rcases Nat.lt_or_gt_of_ne hxy with hlt | hlt
        · have : (x : ℚ) + 1 ≤ y := by exact_mod_cast hlt
          simp only [hlt, decide_true, true_iff, reduceCtorEq, false_iff]
          constructor <;> linarith
        · have : (y : ℚ) + 1 ≤ x := by exact_mod_cast hlt
          simp only [not_lt_of_gt hlt, decide_false, Option.some.injEq, Bool.false_eq_true,
            false_iff, reduceCtorEq, not_lt]
          constructor <;> linarith

end Fraction

lemma skipZeros_spec {buf : List Nat} (h : n ≤ buf.length) :
    ∃ z A, buf.take n = replicate z 0 ++ A ∧ skipZeros n buf = (A ++ buf.drop n, A.length) ∧
      ∀ w ∈ A.head?, w ≠ 0 := by
  induction n generalizing buf with
  | zero => exact ⟨0, [], by simp, by simp [skipZeros], by simp⟩
  | succ n ih =>
    cases buf with
    | nil => simp at h
    | cons w ws =>
      rw [skipZeros]
      split
      · rename_i hw
        obtain ⟨z, A, htake, hskip, hhead⟩ := ih (Nat.le_of_succ_le_succ h)
        exact ⟨z + 1, A, by simp [htake, hw, replicate_succ], by simpa using hskip, hhead⟩
      · rename_i hw
        refine ⟨0, w :: ws.take n, by simp, ?_, by simpa using hw⟩
        have hlen : (ws.take n).length = n := by
          rw [length_take]
          exact min_eq_left (Nat.le_of_succ_le_succ h)
        simp [hlen]

namespace Decimal

variable {d a b : Decimal}

lemma magnitude_eq (h : d.intWords = replicate z 0 ++ A) :
    d.magnitude = fraction (A ++ d.fracWords) * (digBase : ℚ) ^ A.length := by
  have := digBase_pos
  rw [magnitude, h, append_assoc, ofBE_pad, fraction, length_append, pow_add]
  field_simp

lemma magnitude_nonneg (d : Decimal) : 0 ≤ d.magnitude := by
  unfold magnitude
  positivity

lemma value_nonneg (d : Decimal) (h : d.sign = false) : 0 ≤ d.value := by
  rw [value, if_neg (by simp [h])]
  exact d.magnitude_nonneg

lemma value_neg (d : Decimal) (h : d.sign = true) (hz : d.NotNegativeZero) : d.value < 0 := by
  refine lt_of_le_of_ne ?_ (hz h)
  rw [value, if_pos h]
  exact neg_nonpos.mpr d.magnitude_nonneg

lemma InRange.word_lt (h : d.InRange) (hw : w ∈ d.intWords ++ d.fracWords) : w < digBase := by
  have := h.word w hw
  unfold digMax digBase at *
  omega

/-- More words before the point make a greater number. -/
lemma fraction_lt_of_length_lt {A B F G : List Nat} (hA : ∀ w ∈ A ++ F, w < digBase)
    (hB : ∀ w ∈ B.head?, w ≠ 0) (hlen : A.length < B.length) :
    fraction (A ++ F) * (digBase : ℚ) ^ A.length <
      fraction (B ++ G) * (digBase : ℚ) ^ B.length := by
  have hone : (1 : ℚ) ≤ digBase := by norm_num [digBase]
  cases B with
  | nil => simp at hlen
  | cons w B =>
    have hw : (1 : ℚ) ≤ w := by exact_mod_cast Nat.one_le_iff_ne_zero.mpr (hB w (by simp))
    have hnonneg := fraction_nonneg (B ++ G)
    calc fraction (A ++ F) * (digBase : ℚ) ^ A.length
      _ < 1 * (digBase : ℚ) ^ A.length := by
        gcongr
        exact fraction_lt_one hA
      _ ≤ 1 * (digBase : ℚ) ^ B.length := by
        gcongr
        exact Nat.le_of_lt_succ hlen
      _ ≤ (w + fraction (B ++ G)) * (digBase : ℚ) ^ B.length := by
        gcongr
        linarith
      _ = fraction (w :: B ++ G) * (digBase : ℚ) ^ (w :: B).length := by
        rw [cons_append, fraction_cons, length_cons, pow_succ]
        field_simp

lemma doSubCarry_spec (ha : a.InRange) (hb : b.InRange) :
    (doSubCarry a b = some true ↔ a.magnitude < b.magnitude) ∧
    (doSubCarry a b = none ↔ a.magnitude = b.magnitude) := by
  obtain ⟨z, A, hA, hskipA, hheadA⟩ := skipZeros_spec (Nat.le_of_add_right_le ha.length)
  obtain ⟨y, B, hB, hskipB, hheadB⟩ := skipZeros_spec (Nat.le_of_add_right_le hb.length)
  have hwordA : ∀ w ∈ A ++ a.fracWords, w < digBase := by
    intro w hw
    refine ha.word_lt ?_
    rw [intWords, hA]
    simp only [mem_append] at hw ⊢
    tauto
  have hwordB : ∀ w ∈ B ++ b.fracWords, w < digBase := by
    intro w hw
    refine hb.word_lt ?_
    rw [intWords, hB]
    simp only [mem_append] at hw ⊢
    tauto
  rw [magnitude_eq hA, magnitude_eq hB, doSubCarry, hskipA, hskipB]
  simp only [take_length_add_append]
  rcases lt_trichotomy A.length B.length with hlt | heq | hlt
  · have := fraction_lt_of_length_lt (G := b.fracWords) hwordA hheadB hlt
    simp [hlt, this, this.ne]
  · have hpos : (0 : ℚ) < (digBase : ℚ) ^ B.length := pow_pos digBase_pos _
    have hspec := cmpWords_spec (fun w hw => hwordA w ((List.rdropWhile_prefix _ _).mem hw))
      (fun w hw => hwordB w ((List.rdropWhile_prefix _ _).mem hw))
      (noTrailingZero_rdropWhile _) (noTrailingZero_rdropWhile _)
    rw [fraction_rdropWhile, fraction_rdropWhile] at hspec
    rw [heq, mul_lt_mul_iff_left₀ hpos, mul_left_inj' hpos.ne']
    simpa [heq, fracWords] using hspec
  · have := fraction_lt_of_length_lt (G := a.fracWords) hwordB hheadA hlt
    simp [hlt.not_gt, hlt.ne, this.le, this.ne']

lemma doSubCmp_eq (ha : a.InRange) (hb : b.InRange) (hsign : a.sign = b.sign) :
    doSubCmp a b = cmpSign a.value b.value := by
  obtain ⟨hlt, heq⟩ := doSubCarry_spec ha hb
  unfold doSubCmp value
  rw [← hsign]
  cases hcarry : doSubCarry a b with
  | none =>
    have := heq.mp hcarry
    simp [this, cmpSign]
  | some carry =>
    have hne : a.magnitude ≠ b.magnitude := by
      intro h
      simp [hcarry] at heq
      exact heq h
    cases carry with
    | true =>
      have := hlt.mp hcarry
      cases a.sign <;> simp [cmpSign, this, this.not_gt, hne]
    | false =>
      have hle : ¬a.magnitude < b.magnitude := by simpa [hcarry] using hlt
      have := lt_of_le_of_ne (not_lt.mp hle) hne.symm
      cases a.sign <;> simp [cmpSign, this, hle, hne]

/-- `decimal_cmp()` compares the values. -/
lemma decimalCmp_eq (ha : a.InRange) (hb : b.InRange) (hza : a.NotNegativeZero)
    (hzb : b.NotNegativeZero) : decimalCmp a b = cmpSign a.value b.value := by
  unfold decimalCmp
  split
  · rename_i hsign
    exact doSubCmp_eq ha hb hsign
  · rename_i hsign
    cases hsa : a.sign <;> cases hsb : b.sign
    · exact absurd (hsa.trans hsb.symm) hsign
    · have := a.value_nonneg hsa
      have := b.value_neg hsb hzb
      rw [cmpSign_of_gt (by linarith)]
      rfl
    · have := b.value_nonneg hsb
      have := a.value_neg hsa hza
      rw [cmpSign_eq_neg_one.mpr (by linarith)]
      rfl
    · exact absurd (hsa.trans hsb.symm) hsign

end Decimal

end MariaDB.Strings
