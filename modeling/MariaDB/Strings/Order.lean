import MariaDB.Strings.Encode

/-!
# The order of the binary format

`memcmp()` compares two numbers in the binary format first by their full words and then
by the digits behind them as whole numbers, whereas `decimal_cmp()` compares the digits
behind them as digits of a fraction. The two agree if both numbers have the same number
of digits there, which is that of the scale if no number has more digits than the scale.
-/
namespace MariaDB.Strings

open Library List

namespace Decimal

variable {a b d : Decimal} {precision scale : Nat}

def wholePart (scale : Nat) (d : Decimal) : Nat := ofBE digBase (d.intWords ++ d.fullWords scale)

lemma WellFormed.tail_mul (h : d.WellFormed) (hlen : d.fracWords.length = scale / 9 + 1) :
    d.tail scale * 10 ^ (9 - d.tailDigits scale) = d.fracWords.getD (scale / 9) 0 := by
  have hround : d.fracWords.length = roundUp d.frac := by
    have := h.length
    simp only [fracWords, length_take, length_drop]
    omega
  have hlast : d.fracWords.getLast? = some (d.fracWords.getD (scale / 9) 0) := by
    rw [getLast?_eq_getElem?, hlen, Nat.add_sub_cancel,
      getD_eq_getElem _ _ (by omega), getElem?_eq_getElem (by omega)]
  have hdvd := h.last _ hlast
  have hle : 9 - d.tailDigits scale ≤ 9 * roundUp d.frac - d.frac := by
    rw [← hround, hlen, tailDigits, digPerDec1]
    omega
  exact Nat.div_mul_cancel ((pow_dvd_pow 10 hle).trans hdvd)

lemma WellFormed.magnitude_mul (h : d.WellFormed) (hfit : binSize d.frac ≤ binSize scale) :
    d.magnitude * (digBase : ℚ) ^ (scale / 9) =
      d.wholePart scale + (d.tail scale : ℚ) / 10 ^ d.tailDigits scale := by
  have hbase := digBase_pos
  obtain ⟨hdigits, -, -⟩ := d.tailDigits_spec hfit
  have hround : d.fracWords.length ≤ scale / 9 + 1 := by
    have hle := dig2bytes_le (scale % 9) (by omega)
    have := dig2bytes_pos (d.frac % 9) (by omega)
    rw [binSize_eq, binSize_eq] at hfit
    simp only [fracWords, length_take, roundUp_eq]
    omega
  rcases lt_or_ge (scale / 9) d.fracWords.length with hlt | hge
  · -- the last word is behind the full words
    have hlen : d.fracWords.length = scale / 9 + 1 := by omega
    have hfull : d.fracWords = d.fullWords scale ++ [d.fracWords.getD (scale / 9) 0] := by
      have htake : d.fullWords scale = d.fracWords.take (scale / 9) :=
        take_append_of_le_length (by rw [digPerDec1]; omega)
      rw [htake, getD_eq_getElem _ _ hlt, ← take_succ_eq_append_getElem hlt,
        take_of_length_le hlen.le]
    have hword := h.tail_mul hlen
    have hpow : (digBase : ℚ) = 10 ^ (9 - d.tailDigits scale) * 10 ^ d.tailDigits scale := by
      rw [← pow_add, Nat.sub_add_cancel (by omega)]
      norm_num [digBase]
    have hq : (d.fracWords.getD (scale / 9) 0 : ℚ) / digBase =
        (d.tail scale : ℚ) / 10 ^ d.tailDigits scale := by
      rw [← hword, hpow]
      push_cast
      field_simp
    have hwhole : ofBE digBase (d.intWords ++ d.fracWords) =
        d.wholePart scale * digBase + d.fracWords.getD (scale / 9) 0 := by
      generalize d.fracWords.getD (scale / 9) 0 = w at hfull
      rw [hfull, ← append_assoc, ofBE_append, ofBE_singleton, length_singleton, pow_one, wholePart]
    rw [magnitude, hlen, hwhole, ← hq, pow_succ]
    push_cast
    field_simp
  · have hzero : d.tail scale = 0 := by rw [tail, digPerDec1, getD_eq_default _ _ hge, Nat.zero_div]
    obtain ⟨m, hm⟩ := Nat.exists_eq_add_of_le hge
    have hfull : d.fullWords scale = d.fracWords ++ replicate m 0 := by
      rw [fullWords, digPerDec1, take_append, take_of_length_le hge, take_replicate]
      congr 2
      omega
    have hwhole : d.wholePart scale = ofBE digBase (d.intWords ++ d.fracWords) * digBase ^ m := by
      rw [wholePart, hfull, ← append_assoc, ofBE_append (d.intWords ++ d.fracWords),
        ofBE_replicate_zero, length_replicate, add_zero]
    rw [magnitude, hwhole, hzero, hm, pow_add]
    push_cast
    field_simp
    simp

lemma InRange.tail_div_lt (h : d.InRange) (hfit : binSize d.frac ≤ binSize scale) :
    (d.tail scale : ℚ) / 10 ^ d.tailDigits scale < 1 := by
  rw [div_lt_one (by positivity)]
  exact_mod_cast h.tail_lt hfit

lemma WellFormed.floor_eq (h : d.WellFormed) (hfit : binSize d.frac ≤ binSize scale) :
    ⌊d.magnitude * (digBase : ℚ) ^ (scale / 9)⌋₊ = d.wholePart scale := by
  have hlt := h.tail_div_lt hfit
  rw [h.magnitude_mul hfit, Nat.floor_eq_iff (by positivity)]
  constructor
  · have : (0 : ℚ) ≤ (d.tail scale : ℚ) / 10 ^ d.tailDigits scale := by positivity
    linarith
  · linarith

lemma cmpSign_magnitude (ha : a.WellFormed) (hb : b.WellFormed)
    (hfita : binSize a.frac ≤ binSize scale) (hfitb : binSize b.frac ≤ binSize scale) :
    cmpSign a.magnitude b.magnitude =
      if a.wholePart scale = b.wholePart scale then
        cmpSign (a.tail scale * 10 ^ b.tailDigits scale) (b.tail scale * 10 ^ a.tailDigits scale)
      else cmpSign (a.wholePart scale) (b.wholePart scale) := by
  have hpos : (0 : ℚ) < (digBase : ℚ) ^ (scale / 9) := pow_pos digBase_pos _
  have hmula := ha.magnitude_mul hfita
  have hmulb := hb.magnitude_mul hfitb
  have hlta := ha.tail_div_lt hfita
  have hltb := hb.tail_div_lt hfitb
  have hna : (0 : ℚ) ≤ (a.tail scale : ℚ) / 10 ^ a.tailDigits scale := by positivity
  have hnb : (0 : ℚ) ≤ (b.tail scale : ℚ) / 10 ^ b.tailDigits scale := by positivity
  have hscale : cmpSign a.magnitude b.magnitude =
      cmpSign (a.magnitude * (digBase : ℚ) ^ (scale / 9))
        (b.magnitude * (digBase : ℚ) ^ (scale / 9)) :=
    cmpSign_congr (mul_lt_mul_iff_left₀ hpos).symm (mul_left_inj' hpos.ne').symm
  rw [hscale, hmula, hmulb]
  split
  · rename_i heq
    have h10a : (0 : ℚ) < 10 ^ a.tailDigits scale := by positivity
    have h10b : (0 : ℚ) < 10 ^ b.tailDigits scale := by positivity
    rw [heq]
    refine cmpSign_congr ?_ ?_
    · rw [add_lt_add_iff_left, div_lt_div_iff₀ h10a h10b]
      exact_mod_cast Iff.rfl
    · rw [add_right_inj, div_eq_div_iff h10a.ne' h10b.ne']
      exact_mod_cast Iff.rfl
  · rename_i hne
    rcases Nat.lt_or_gt_of_ne hne with hlt | hlt
    · have : (a.wholePart scale : ℚ) + 1 ≤ b.wholePart scale := by exact_mod_cast hlt
      rw [cmpSign_eq_neg_one.mpr hlt, cmpSign_eq_neg_one.mpr (by linarith)]
    · have : (b.wholePart scale : ℚ) + 1 ≤ a.wholePart scale := by exact_mod_cast hlt
      rw [cmpSign_of_gt hlt, cmpSign_of_gt (by linarith)]

lemma cmpSign_code (ha : a.InRange) (hb : b.InRange)
    (hfita : binSize a.frac ≤ binSize scale) (hfitb : binSize b.frac ≤ binSize scale) :
    cmpSign (a.code scale) (b.code scale) =
      if a.wholePart scale = b.wholePart scale then cmpSign (a.tail scale) (b.tail scale)
      else cmpSign (a.wholePart scale) (b.wholePart scale) := by
  have htail : ∀ {d : Decimal}, d.InRange → binSize d.frac ≤ binSize scale →
      d.tail scale < 256 ^ dig2bytes (scale % 9) := by
    intro d h hfit
    obtain ⟨hdigits, hbytes, -⟩ := d.tailDigits_spec hfit
    exact (h.tail_lt hfit).trans_le ((pow_le_pow_dig2bytes hdigits).trans
      (Nat.pow_le_pow_right (by omega) hbytes))
  have hword : ∀ {d : Decimal}, d.InRange → ∀ w ∈ d.intWords ++ d.fullWords scale,
      w < 256 ^ sizeofDec1 ∧ w < digBase := by
    intro d h w hw
    have hlt : w < digBase := by
      rcases mem_append.mp hw with hw | hw
      · exact h.word_lt (mem_append_left _ hw)
      · exact h.fullWords_lt hw
    exact ⟨hlt.trans digBase_lt, hlt⟩
  have hbase : 0 < digBase := by decide
  have hlt := ofBE_lt_ofBE_iff (by positivity) hbase (hword ha) (hword hb)
  have heq := ofBE_eq_ofBE_iff (by positivity) hbase (hword ha) (hword hb)
  unfold code
  rw [digPerDec1, cmpSign_lex (htail ha hfita) (htail hb hfitb)]
  simp only [heq, cmpSign_congr hlt heq]
  rfl

/-- The tails compare in the same way as whole numbers and as fractions. -/
def TailsAgree (scale : Nat) (a b : Decimal) : Prop :=
  cmpSign (a.tail scale) (b.tail scale) =
    cmpSign (a.tail scale * 10 ^ b.tailDigits scale) (b.tail scale * 10 ^ a.tailDigits scale)

instance (scale : Nat) (a b : Decimal) : Decidable (TailsAgree scale a b) :=
  inferInstanceAs (Decidable (_ = _))

/-- Tails of one number of digits agree, in particular if neither number has more digits than
the scale. -/
lemma tailsAgree_of_max_eq (h : max a.frac scale = max b.frac scale) : TailsAgree scale a b := by
  have hdigits : a.tailDigits scale = b.tailDigits scale := by rw [tailDigits, tailDigits, h]
  have hpos : 0 < 10 ^ b.tailDigits scale := by positivity
  unfold TailsAgree
  rw [hdigits]
  exact cmpSign_congr (Nat.mul_lt_mul_right hpos).symm (Nat.mul_left_inj hpos.ne').symm

lemma memcmp_decimal2bin (ha : a.InRange) (hb : b.InRange) (hza : a.NotNegativeZero)
    (hzb : b.NotNegativeZero) (hs : scale ≤ precision) (hp : 0 < precision)
    (hoka : (decimal2bin a precision scale).2 = .ok)
    (hokb : (decimal2bin b precision scale).2 = .ok) :
    memcmp (decimal2bin a precision scale).1 (decimal2bin b precision scale).1 =
      if a.sign = b.sign then
        if a.sign then cmpSign (b.code scale) (a.code scale)
        else cmpSign (a.code scale) (b.code scale)
      else if a.sign then -1 else 1 := by
  obtain ⟨-, hpos, hlta, hlena, hvala⟩ := decimal2bin_spec ha (fun h => .inr (hza h)) hs hp hoka
  obtain ⟨-, -, hltb, hlenb, hvalb⟩ := decimal2bin_spec hb (fun h => .inr (hzb h)) hs hp hokb
  rw [memcmp_eq_cmpSign (hlena.trans hlenb.symm), hvala, hvalb]
  cases a.sign <;> cases b.sign <;>
    simp
  · exact cmpSign_congr (by omega) (by omega)
  · exact cmpSign_of_gt (by omega)
  · exact cmpSign_eq_neg_one.mpr (by omega)
  · exact cmpSign_congr (by omega) (by omega)

/-- The binary format compares as the numbers do if and only if the signs or the whole parts
differ or the tails agree. -/
theorem memcmp_decimal2bin_iff (ha : a.WellFormed) (hb : b.WellFormed) (hza : a.NotNegativeZero)
    (hzb : b.NotNegativeZero) (hs : scale ≤ precision) (hp : 0 < precision)
    (hoka : (decimal2bin a precision scale).2 = .ok)
    (hokb : (decimal2bin b precision scale).2 = .ok) :
    (memcmp (decimal2bin a precision scale).1 (decimal2bin b precision scale).1 = decimalCmp a b ∧
      ((decimal2bin a precision scale).1 = (decimal2bin b precision scale).1 ↔ a.value = b.value)) ↔
    a.sign ≠ b.sign ∨
      ⌊a.magnitude * (digBase : ℚ) ^ (scale / digPerDec1)⌋₊ ≠
        ⌊b.magnitude * (digBase : ℚ) ^ (scale / digPerDec1)⌋₊ ∨
      TailsAgree scale a b := by
  obtain ⟨hfita, -, -, hlena, -⟩ := decimal2bin_spec ha.toInRange (fun h => .inr (hza h)) hs hp hoka
  obtain ⟨hfitb, -, -, hlenb, -⟩ := decimal2bin_spec hb.toInRange (fun h => .inr (hzb h)) hs hp hokb
  have hlen := hlena.trans hlenb.symm
  have hcmp := decimalCmp_eq ha.toInRange hb.toInRange hza hzb
  have hmem := memcmp_decimal2bin ha.toInRange hb.toInRange hza hzb hs hp hoka hokb
  have hcode := cmpSign_code ha.toInRange hb.toInRange hfita hfitb
  have hmag := cmpSign_magnitude ha hb hfita hfitb
  -- equal bytes and equal values are the case of sign zero
  refine (and_iff_left_of_imp fun h => by
    rw [← ofBytes_inj hlen, ← cmpSign_eq_zero, ← memcmp_eq_cmpSign hlen, h, hcmp,
      cmpSign_eq_zero]).trans ?_
  rw [hmem, hcmp, digPerDec1, ha.floor_eq hfita, hb.floor_eq hfitb]
  have hwhole : cmpSign (a.code scale) (b.code scale) = cmpSign a.magnitude b.magnitude ↔
      a.wholePart scale ≠ b.wholePart scale ∨ TailsAgree scale a b := by
    rw [hcode, hmag]
    unfold TailsAgree
    split <;> simp_all
  by_cases hsign : a.sign = b.sign
  · rw [if_pos hsign]
    simp only [ne_eq, hsign, not_true_eq_false, false_or]
    rw [← ne_eq, ← hwhole]
    cases hb' : b.sign with
    | false =>
      simp [value, hsign, hb']
    | true =>
      rw [if_pos rfl, cmpSign_swap]
      simp only [value, hsign, hb', if_true]
      have hneg : cmpSign (-a.magnitude) (-b.magnitude) = -cmpSign a.magnitude b.magnitude := by
        rw [← cmpSign_swap]
        exact cmpSign_congr neg_lt_neg_iff (by rw [neg_inj]; exact eq_comm)
      rw [hneg, neg_inj]
  · rw [if_neg hsign]
    simp only [ne_eq, hsign, not_false_eq_true, true_or, iff_true]
    cases ha' : a.sign with
    | false =>
      have hnb := b.value_neg (by simpa [ha'] using hsign) hzb
      have hna := a.value_nonneg ha'
      exact (cmpSign_of_gt (by linarith)).symm
    | true =>
      have hna := a.value_neg ha' hza
      have hnb := b.value_nonneg (by simpa [ha'] using hsign)
      exact (cmpSign_eq_neg_one.mpr (by linarith)).symm

/-- 1.5 and 1.25 -/
theorem memcmp_decimal2bin_halfAndQuarter :
    let a : Decimal := ⟨1, 1, false, [1, 500000000]⟩
    let b : Decimal := ⟨1, 2, false, [1, 250000000]⟩
    memcmp (decimal2bin a 4 2).1 (decimal2bin b 4 2).1 = decimalCmp a b ∧
      ((decimal2bin a 4 2).1 = (decimal2bin b 4 2).1 ↔ a.value = b.value) := by
  intro a b
  have ha : a.WellFormed := ⟨⟨by decide, by decide, by decide, by decide⟩, by decide⟩
  have hb : b.WellFormed := ⟨⟨by decide, by decide, by decide, by decide⟩, by decide⟩
  have hza : a.NotNegativeZero := fun h => by cases h
  have hzb : b.NotNegativeZero := fun h => by cases h
  exact (memcmp_decimal2bin_iff ha hb hza hzb (by decide) (by decide) (by decide)
    (by decide)).mpr (.inr (.inr (tailsAgree_of_max_eq (by decide))))

/-- 0.12 and 0.2 with one digit behind the point: 0.12 is stored as 12 in its byte. -/
theorem memcmp_decimal2bin_not_order :
    let a : Decimal := ⟨0, 2, false, [120000000]⟩
    let b : Decimal := ⟨0, 1, false, [200000000]⟩
    a.WellFormed ∧ b.WellFormed ∧ a.NotNegativeZero ∧ b.NotNegativeZero ∧
      decimal2bin a 2 1 = ([128, 12], .ok) ∧ decimal2bin b 2 1 = ([128, 2], .ok) ∧
      memcmp (decimal2bin a 2 1).1 (decimal2bin b 2 1).1 = 1 ∧ decimalCmp a b = -1 := by
  refine ⟨⟨⟨by decide, by decide, by decide, by decide⟩, by decide⟩,
    ⟨⟨by decide, by decide, by decide, by decide⟩, by decide⟩, fun h => ?_, fun h => ?_,
    by decide, by decide, by decide, by decide⟩
  · cases h
  · cases h

end Decimal

end MariaDB.Strings
