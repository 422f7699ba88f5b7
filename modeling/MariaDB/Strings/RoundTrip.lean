import MariaDB.Strings.Groups
import MariaDB.Strings.Order

/-!
# Round trips of the binary format

`bin2decimal()` gives back the number that `decimal2bin()` has written unless the number
has digits behind the scale, and `decimal2bin()` gives back the bytes that `bin2decimal()`
has read unless the last group has more digits than the scale.
-/
namespace MariaDB.Strings

open Library List Nat

/-- The bytes of the groups, without mask and with the first bit as it was. -/
def unmask (src : List UInt8) : List UInt8 :=
  (invertFirst src).map (· ^^^ maskByte (src.headD 0 &&& 128 = 0))

def leadGroup (precision scale : Nat) (src : List UInt8) : Nat :=
  ofBytes ((unmask src).take (dig2bytes ((precision - scale) % digPerDec1)))

def tailGroup (scale : Nat) (src : List UInt8) : Nat :=
  ofBytes ((unmask src).drop (src.length - dig2bytes (scale % digPerDec1)))

def MinusZero (src : List UInt8) : Prop := src.headD 0 &&& 128 = 0 ∧ ofBytes (unmask src) = 0

section Masks

variable {src : List UInt8} (l : List UInt8)

lemma invertFirst_invertFirst : invertFirst (invertFirst l) = l := by
  cases l with
  | nil => rfl
  | cons b l => simp [invertFirst]

lemma map_xor_map_xor (mask : Bool) :
    (l.map (· ^^^ maskByte mask)).map (· ^^^ maskByte mask) = l := by
  simp [Function.comp_def]

lemma headD_and_eq_zero (hsrc : 0 < src.length) :
    src.headD 0 &&& 128 = 0 ↔ ofBytes src < half src.length := by
  have hand : ∀ a : UInt8, a &&& 128 = 0 ↔ a.toNat < 128 := by decide +kernel
  cases src with
  | nil => simp at hsrc
  | cons a l =>
    have hhalf : half (a :: l).length = 128 * 256 ^ l.length := rfl
    have := @lex_lt_iff (256 ^ l.length) a.toNat 128 (ofBytes l) 0 (ofBytes_lt l) (by positivity)
    rw [add_zero] at this
    rw [headD_cons, hand, ofBytes_cons, hhalf, this]
    omega

lemma length_unmask (src : List UInt8) : (unmask src).length = src.length := by
  simp [unmask]

lemma invertFirst_eq_unmask (src : List UInt8) :
    invertFirst src = (unmask src).map (· ^^^ maskByte (src.headD 0 &&& 128 = 0)) := by
  rw [unmask, map_xor_map_xor]

lemma ofBytes_unmask_lt (hsrc : 0 < src.length) : ofBytes (unmask src) < half src.length := by
  have htwo := two_mul_half hsrc
  have hhead := headD_and_eq_zero hsrc
  have hfirst := ofBytes_invertFirst hsrc
  have hlt := ofBytes_lt src
  unfold unmask
  by_cases hneg : src.headD 0 &&& 128 = 0
  · have hinv := ofBytes_map_xor (invertFirst src)
    rw [length_invertFirst] at hinv
    have hmap : (invertFirst src).map (· ^^^ maskByte (src.headD 0 &&& 128 = 0)) =
        (invertFirst src).map (· ^^^ 255) := by
      simp only [hneg, decide_true, maskByte, if_true]
    rw [hmap]
    rw [if_pos (hhead.mp hneg)] at hfirst
    omega
  · have hmap : (invertFirst src).map (· ^^^ maskByte (src.headD 0 &&& 128 = 0)) =
        invertFirst src := by
      simp only [hneg, decide_false, maskByte, Bool.false_eq_true, if_false, UInt8.xor_zero,
        map_id']
    rw [hmap, hfirst, if_neg (fun h => hneg (hhead.mpr h))]
    omega

lemma ofBytes_eq_unmask (hsrc : 0 < src.length) :
    ofBytes src = if src.headD 0 &&& 128 = 0 then half src.length - 1 - ofBytes (unmask src)
      else half src.length + ofBytes (unmask src) := by
  have hfinish := @ofBytes_finish (unmask src) (by rwa [length_unmask])
    (by rw [length_unmask]; exact ofBytes_unmask_lt hsrc) (src.headD 0 &&& 128 = 0)
  rw [← invertFirst_eq_unmask, invertFirst_invertFirst, length_unmask] at hfinish
  simpa using hfinish

end Masks

namespace Groups

variable {precision scale : Nat} {g : Groups} {w : Nat}

def intWords (precision scale : Nat) (g : Groups) : List Nat :=
  if 0 < (precision - scale) % 9 ∧ g.lead ≠ 0 then g.lead :: g.ints else g.ints.dropWhile (· = 0)

def tailWords (scale : Nat) (g : Groups) : List Nat :=
  if 0 < scale % 9 then [g.tailWord scale] else []

section

variable (hg : g.Fits precision scale) (mask : Bool)
include hg

lemma roundUp_decoded :
    roundUp (g.decoded precision scale mask).intg = (g.intWords precision scale).length := by
  rw [roundUp_eq]
  unfold decoded intWords
  split
  · have := hg.length_ints
    simp only [length_cons]
    omega
  · simp only
    omega

lemma length_full_tailWords : (g.full ++ g.tailWords scale).length = roundUp scale := by
  rw [length_append, hg.length_full, roundUp_eq, tailWords]
  split <;> simp <;> omega

lemma intWords_decoded :
    (g.decoded precision scale mask).intWords = g.intWords precision scale := by
  rw [Decimal.intWords, roundUp_decoded hg, decoded, append_assoc]
  exact take_left' rfl

lemma fracWords_decoded :
    (g.decoded precision scale mask).fracWords = g.full ++ g.tailWords scale := by
  have hbuf : (g.decoded precision scale mask).buf =
      g.intWords precision scale ++ (g.full ++ g.tailWords scale) := append_assoc ..
  rw [Decimal.fracWords, roundUp_decoded hg, hbuf, drop_left' rfl]
  exact take_of_length_le (length_full_tailWords hg).le

lemma ofBE_intWords (b : Nat) :
    ofBE b (g.intWords precision scale) = ofBE b (g.lead :: g.ints) := by
  unfold intWords
  split
  · rfl
  · rename_i hskip
    have hlead : g.lead = 0 := by
      by_contra hne
      have hzero : (precision - scale) % 9 = 0 := by omega
      have := hg.lead_lt
      rw [hzero] at this
      simp [dig2bytes] at this
      exact hne this
    have hall : g.ints.takeWhile (· = 0) = replicate (g.ints.takeWhile (· = 0)).length 0 := by
      refine eq_replicate_of_mem fun w hw => ?_
      simpa using mem_takeWhile_imp hw
    have hsplit := takeWhile_append_dropWhile (p := fun x => decide (x = 0)) (l := g.ints)
    rw [hall] at hsplit
    calc ofBE b (g.ints.dropWhile (· = 0))
      _ = ofBE b (replicate (g.ints.takeWhile (· = 0)).length 0 ++
          g.ints.dropWhile (· = 0)) := (ofBE_pad _ _).symm
      _ = ofBE b g.ints := by rw [hsplit]
      _ = ofBE b (g.lead :: g.ints) := by simp [ofBE, hlead]

end

lemma Accepted.intWords_le (h : g.Accepted precision scale) (hlead : g.lead ≤ digMax)
    (hw : w ∈ g.intWords precision scale) : w ≤ digMax := by
  unfold intWords at hw
  split at hw
  · rcases mem_cons.mp hw with rfl | hw
    · exact hlead
    · exact h.ints w hw
  · exact h.ints w ((dropWhile_sublist _).mem hw)

lemma Accepted.tailWords_le (h : g.Accepted precision scale)
    (hw : w ∈ g.tailWords scale) : w ≤ digMax := by
  unfold tailWords at hw
  split at hw
  · rename_i h0
    rw [mem_singleton.mp hw]
    exact h.tail h0
  · cases hw

lemma intWords_head (g : Groups) (precision scale : Nat)
    (hw : w ∈ (g.intWords precision scale).head?) : w ≠ 0 := by
  unfold intWords at hw
  split at hw
  · rename_i h
    cases hw
    exact h.2
  · have := head?_dropWhile_not (fun x => decide (x = 0)) g.ints
    rw [hw] at this
    simpa using this

lemma magnitude_decoded (hg : g.Fits precision scale) (mask : Bool) :
    (g.decoded precision scale mask).magnitude * (digBase : ℚ) ^ (scale / 9) =
      ofBE digBase (g.lead :: g.ints ++ g.full) +
        if 0 < scale % 9 then (g.tailWord scale : ℚ) / digBase else 0 := by
  have hbase := digBase_pos
  have hints : ofBE digBase (g.intWords precision scale ++ g.full) =
      ofBE digBase (g.lead :: g.ints ++ g.full) := by
    rw [ofBE_append, ofBE_intWords hg, ← ofBE_append]
  rw [Decimal.magnitude, intWords_decoded hg, fracWords_decoded hg, ← append_assoc,
    ofBE_append, hints, length_append, hg.length_full, pow_add]
  unfold tailWords
  split
  · simp only [ofBE_singleton, length_singleton, pow_one]
    push_cast
    field_simp
  · simp only [ofBE_nil, length_nil, pow_zero, mul_one, add_zero]
    field_simp

lemma tailWord_eq (hpos : 2 * g.tail < 256 ^ dig2bytes (scale % 9)) :
    g.tailWord scale = g.tail * 10 ^ (9 - scale % 9) % 2 ^ 32 := by
  unfold tailWord
  rw [miSintKorr_toBytes (by omega), if_pos hpos, powers10]
  omega

end Groups

namespace Decimal

variable {d : Decimal} {precision scale : Nat}

/-- The groups of a number that `decimal2bin()` writes without an error. -/
lemma exists_groups_of_ok (h : d.InRange) (hz : d.NotNegativeZero) (hs : scale ≤ precision)
    (hp : 0 < precision) (hok : (decimal2bin d precision scale).2 = .ok) :
    ∃ g : Groups, g.Fits precision scale ∧ g.lead < 10 ^ ((precision - scale) % 9) ∧
      (∀ w ∈ g.ints, w ≤ digMax) ∧ g.full = d.fullWords scale ∧ g.tail = d.tail scale ∧
      (∀ b, ofBE b (g.lead :: g.ints) = ofBE b d.intWords) ∧
      invertFirst (decimal2bin d precision scale).1 =
        (g.bytes precision scale).map (· ^^^ maskByte d.sign) ∧
      d.sign = decide ((decimal2bin d precision scale).1.headD 0 &&& 128 = 0) := by
  obtain ⟨hfit, hlenpos, hhalf, hlen, hval⟩ :=
    decimal2bin_spec h (fun hsign => .inr (hz hsign)) hs hp hok
  obtain ⟨-, z, A, k, hint, hA, hk, -⟩ := decimal2bin_ok h hok
  have hword : ∀ w ∈ A, w ≤ digMax := fun w hw => h.word w (by simp [hint, hw])
  -- the words before the full ones of the scale
  obtain ⟨lead, ints, hlead, hlenints, hints, hofBE⟩ : ∃ lead ints,
      lead < 10 ^ ((precision - scale) % 9) ∧ ints.length = (precision - scale) / 9 ∧
      (∀ w ∈ ints, w ≤ digMax) ∧ ∀ b, ofBE b (lead :: ints) = ofBE b A := by
    by_cases hshort : A.length ≤ (precision - scale) / 9
    · refine ⟨0, replicate ((precision - scale) / 9 - A.length) 0 ++ A, by positivity,
        by simp; omega, fun w hw => ?_, fun b => ?_⟩
      · rcases mem_append.mp hw with hw | hw
        · rw [eq_of_mem_replicate hw]
          exact zero_le _
        · exact hword w hw
      · rw [ofBE, ofBE_pad, zero_mul, zero_add]
    · cases hA with
      | zero => exact absurd (zero_le _) hshort
      | cons w ws j hj hle hlt =>
        rw [length_cons] at hshort
        exact ⟨w, ws, hlt.trans_le (Nat.pow_le_pow_right (by omega) (by omega)), by omega,
          fun v hv => hword v (by simp [hv]), fun b => rfl⟩
  obtain ⟨hdigits, hbytes, -⟩ := d.tailDigits_spec hfit
  have hdigMax : digMax < 256 ^ sizeofDec1 := by decide
  set g : Groups := ⟨lead, ints, d.fullWords scale, d.tail scale⟩ with hg
  have hfits : g.Fits precision scale :=
    { lead_lt := hlead.trans_le (pow_le_pow_dig2bytes (by omega))
      length_ints := hlenints
      ints_lt := fun w hw => (hints w hw).trans_lt hdigMax
      length_full := d.length_fullWords scale
      full_lt := fun w hw => (h.fullWords_lt hw).trans digBase_lt
      tail_lt := (h.tail_lt hfit).trans_le ((pow_le_pow_dig2bytes hdigits).trans
        (Nat.pow_le_pow_right (by omega) hbytes)) }
  have hofBE' : ∀ b, ofBE b (lead :: ints) = ofBE b d.intWords := by
    intro b
    rw [hofBE b, ofBE_intWords hint]
  have hnumber : ofBytes (g.bytes precision scale) = d.code scale := by
    rw [hfits.ofBytes_bytes, Groups.number, code, ofBE_append, hofBE', ← ofBE_append]
    rfl
  have hbyteslen := hfits.length_bytes
  have hsrc : (decimal2bin d precision scale).1 =
      invertFirst ((g.bytes precision scale).map (· ^^^ maskByte d.sign)) := by
    have hfinish := @ofBytes_finish (g.bytes precision scale) (by omega)
      (by rw [hnumber, hbyteslen]; exact hhalf) d.sign
    refine (ofBytes_inj ?_).mp ?_
    · rw [length_invertFirst, length_map, hbyteslen, hlen]
    · rw [hfinish, hval, hnumber, hbyteslen]
  refine ⟨g, hfits, hlead, hints, rfl, rfl, hofBE', ?_, ?_⟩
  · rw [hsrc, invertFirst_invertFirst]
  · have hhead := @headD_and_eq_zero (decimal2bin d precision scale).1 (by omega)
    rw [hlen, hval] at hhead
    simp only [hhead]
    cases d.sign with
    | false => simp
    | true =>
      simp
      omega

lemma value_result (g : Groups) (mask : Bool) :
    (if (g.decoded precision scale mask).intg = 0 ∧ scale = 0 then decimalMakeZero
      else g.decoded precision scale mask).value =
      if mask then -(g.decoded precision scale mask).magnitude
      else (g.decoded precision scale mask).magnitude := by
  split
  · rename_i hzero
    have hmag : (g.decoded precision scale mask).magnitude = 0 := by
      refine magnitude_eq_zero (z := 0) ?_ hzero.2
      simp [Decimal.intWords, hzero.1, roundUp]
    have hvalue : decimalMakeZero.value = 0 := by
      simp [value, decimalMakeZero, magnitude, Decimal.intWords, Decimal.fracWords, roundUp,
        digPerDec1]
    rw [hmag, hvalue]
    simp
  · rfl

/-- A product by a power of ten is another number, also in 32 bits. -/
lemma mul_pow_mod_eq (hw : w < 10 ^ 9) (hm : 0 < m) : w * 10 ^ m % 2 ^ 32 = w ↔ w = 0 := by
  constructor
  · intro h
    have hlt : w < 2 ^ 32 := hw.trans (by norm_num)
    have hmod : w ≡ w * 10 ^ m [MOD 2 ^ 32] := by rw [Nat.ModEq, h, Nat.mod_eq_of_lt hlt]
    have hdvd : 2 ^ 32 ∣ w * (10 ^ m - 1) := by
      rw [Nat.mul_sub_one]
      exact (Nat.modEq_iff_dvd' (Nat.le_mul_of_pos_right w (by positivity))).mp hmod
    have hodd : Odd (10 ^ m - 1) := by
      refine Nat.Even.sub_odd (Nat.one_le_pow _ _ (by norm_num)) ?_ odd_one
      exact Even.pow_of_ne_zero (by decide) hm.ne'
    have hcop : Nat.Coprime (2 ^ 32) (10 ^ m - 1) :=
      Nat.Coprime.pow_left 32 (Nat.coprime_two_left.mpr hodd)
    exact eq_zero_of_dvd_of_lt (hcop.dvd_of_dvd_mul_right hdvd) hlt
  · rintro rfl
    simp

lemma tail_read_iff (h : d.InRange) (hfit : binSize d.frac ≤ binSize scale) {g : Groups}
    (htail : g.tail = d.tail scale) :
    ((0 < scale % 9 → g.tailWord scale ≤ digMax) ∧
      (if 0 < scale % 9 then (g.tailWord scale : ℚ) / digBase else 0) =
        (d.tail scale : ℚ) / 10 ^ d.tailDigits scale) ↔
      d.frac ≤ scale ∨ d.tail scale = 0 := by
  obtain ⟨hdigits, hbytes, hle⟩ := d.tailDigits_spec hfit
  have hlt := h.tail_lt hfit
  have hfrac : d.frac ≤ scale ↔ d.tailDigits scale = scale % 9 := by
    unfold tailDigits digPerDec1
    omega
  rw [hfrac]
  generalize d.tailDigits scale = e at *
  rcases Nat.eq_zero_or_pos (scale % 9) with hzero | hpos
  · -- there is no tail
    have he : e = 0 := by
      by_contra hne
      have := dig2bytes_pos e hdigits (by omega)
      rw [hzero] at hbytes
      have : dig2bytes 0 = 0 := rfl
      omega
    have htail0 : d.tail scale = 0 := by
      rw [he] at hlt
      omega
    simp [hzero, htail0]
  · have hsign : 2 * g.tail < 256 ^ dig2bytes (scale % 9) := by
      have h1 := (pow_le_dig2bytes e hdigits).resolve_right (by omega)
      have h2 : 256 ^ dig2bytes e ≤ 256 ^ dig2bytes (scale % 9) :=
        Nat.pow_le_pow_right (by omega) hbytes
      omega
    have hword := Groups.tailWord_eq hsign
    -- the last word of the number
    set w := d.tail scale * 10 ^ (9 - e) with hw
    have hwlt : w < 10 ^ 9 := by
      have : 10 ^ 9 = 10 ^ e * 10 ^ (9 - e) := by
        rw [← pow_add]
        congr 1
        omega
      rw [this, hw]
      exact mul_lt_mul_of_pos_right hlt (by positivity)
    have hwzero : w = 0 ↔ d.tail scale = 0 := by
      rw [hw, mul_eq_zero]
      simp
    have hprod : g.tail * 10 ^ (9 - scale % 9) = w * 10 ^ (e - scale % 9) := by
      rw [htail, hw, mul_assoc, ← pow_add]
      congr 2
      omega
    have hq : (g.tailWord scale : ℚ) / digBase = (d.tail scale : ℚ) / 10 ^ e ↔
        g.tailWord scale = w := by
      have hbase : (digBase : ℚ) = 10 ^ (9 - e) * 10 ^ e := by
        rw [← pow_add, Nat.sub_add_cancel (by omega)]
        norm_num [digBase]
      rw [hbase, ← div_div, div_left_inj' (by positivity), div_eq_iff (by positivity), hw]
      exact_mod_cast Iff.rfl
    rw [if_pos hpos, hq, ← hwzero, hword, hprod]
    rcases eq_or_lt_of_le hle with heq | hgt
    · have hmod : w * 10 ^ (e - scale % 9) % 2 ^ 32 = w := by
        rw [heq, Nat.sub_self, pow_zero, mul_one]
        exact Nat.mod_eq_of_lt (hwlt.trans (by norm_num))
      simp only [heq, true_or, iff_true]
      rw [heq] at hmod
      exact ⟨fun _ => by rw [hmod]; exact Nat.le_sub_one_of_lt hwlt, hmod⟩
    · have hmod := mul_pow_mod_eq hwlt (Nat.sub_pos_of_lt hgt)
      rw [hmod]
      constructor
      · rintro ⟨-, hw0⟩
        exact .inr hw0
      · intro hor
        have hw0 : w = 0 := hor.resolve_left hgt.ne'
        exact ⟨fun _ => by simp [hw0], hw0⟩

lemma bin2decimal_decimal2bin (h : d.WellFormed) (hz : d.NotNegativeZero) (hs : scale ≤ precision)
    (hp : 0 < precision) (hlen : roundUp (precision - scale) + roundUp scale ≤ len)
    (hok : (decimal2bin d precision scale).2 = .ok) :
    ((bin2decimal (decimal2bin d precision scale).1 len precision scale).2 = .ok ∧
      (bin2decimal (decimal2bin d precision scale).1 len precision scale).1.value = d.value) ↔
    d.frac ≤ scale ∨ d.tail scale = 0 := by
  obtain ⟨hfit, -⟩ := decimal2bin_ok h.toInRange hok
  obtain ⟨g, hg, hlead, hints, hfull, htail, hofBE, hsrc, hmask⟩ :=
    exists_groups_of_ok h.toInRange hz hs hp hok
  obtain ⟨haccept, hresult⟩ := Groups.bin2decimal_eq hlen hg hsrc hmask
  have hacc : g.Accepted precision scale ↔ (0 < scale % 9 → g.tailWord scale ≤ digMax) := by
    refine ⟨fun hacc => hacc.tail, fun htailw => ⟨fun hpos => ?_, hints, fun w hw => ?_, htailw⟩⟩
    · have h1 := (pow_le_dig2bytes ((precision - scale) % 9) (by omega)).resolve_right (by omega)
      exact ⟨by omega, hlead.trans_le (Nat.pow_le_pow_right (by omega) (by omega))⟩
    · rw [hfull] at hw
      have := h.fullWords_lt hw
      unfold digMax
      omega
  have hpos : (0 : ℚ) < (digBase : ℚ) ^ (scale / 9) := pow_pos digBase_pos _
  have hwhole : (ofBE digBase (g.lead :: g.ints ++ g.full) : ℚ) = d.wholePart scale := by
    rw [wholePart, ofBE_append, hofBE, hfull, ← ofBE_append]
  have hmag : (g.decoded precision scale d.sign).magnitude = d.magnitude ↔
      (if 0 < scale % 9 then (g.tailWord scale : ℚ) / digBase else 0) =
        (d.tail scale : ℚ) / 10 ^ d.tailDigits scale := by
    rw [← mul_left_inj' hpos.ne', Groups.magnitude_decoded hg, h.magnitude_mul hfit, hwhole,
      add_right_inj]
  rw [← tail_read_iff h.toInRange hfit htail, haccept, hacc, ← hmag]
  refine and_congr_right fun htailw => ?_
  rw [hresult (hacc.mpr htailw), value_result, value]
  cases d.sign <;> simp

/-- The number of digits before the point without leading zeros is at most `intg`. -/
lemma significant_le (h : d.InRange) {z k : Nat} (hint : d.intWords = replicate z 0 ++ A)
    (hA : Significant A k) : k ≤ d.intg := by
  cases hA with
  | zero => exact zero_le _
  | cons w ws j hj hle hlt =>
    have hlen : d.intWords.length = roundUp d.intg := by
      rw [intWords, length_take]
      exact min_eq_left (le_of_add_right_le h.length)
    rw [hint, length_append, length_replicate, length_cons, roundUp_eq] at hlen
    rcases Nat.eq_zero_or_pos z with hz | hz
    · have hhead : d.intWords.head? = some w := by simp [hint, hz]
      have hfirst := h.first w hhead
      have hj' : j < (d.intg - 1) % 9 + 1 :=
        (Nat.pow_lt_pow_iff_right (by norm_num : 1 < 10)).mp (hle.trans_lt hfirst)
      omega
    · omega

/-- A number that has no more digits than the precision and the scale is written without an
error. -/
lemma decimal2bin_eq_ok (h : d.InRange) (hintg : d.intg ≤ precision - scale)
    (hfrac : d.frac ≤ scale) : (decimal2bin d precision scale).2 = .ok := by
  obtain ⟨z, A, k, hint, hA, hrem⟩ := removeLeadingZeroes_spec h
  have hk := (significant_le h hint hA).trans hintg
  have hfit := binSize_mono hfrac
  by_cases hz : k + binSize d.frac = 0
  · have hk0 : k = 0 := by omega
    simp only [decimal2bin, hrem, if_neg (not_lt.mpr hfit), hk0]
    simp
  · simp only [decimal2bin, hrem, if_neg hz, if_neg (not_lt.mpr hfit), if_neg (not_lt.mpr hk)]

lemma decimal2bin_eq_iff (h : d.InRange) (hz : d.sign = true → 0 < d.frac ∨ d.value ≠ 0)
    (hs : scale ≤ precision) (hp : 0 < precision) (hok : (decimal2bin d precision scale).2 = .ok)
    {src : List UInt8} (hsrc : src.length = decimalBinSize precision scale)
    (hsign : d.sign = decide (src.headD 0 &&& 128 = 0)) :
    decimal2bin d precision scale = (src, .ok) ↔ d.code scale = ofBytes (unmask src) := by
  obtain ⟨-, hpos, hhalf, hlen, hval⟩ := decimal2bin_spec h hz hs hp hok
  have hlt := @ofBytes_unmask_lt src (by omega)
  have hnum := @ofBytes_eq_unmask src (by omega)
  have hpair : decimal2bin d precision scale = (src, .ok) ↔
      (decimal2bin d precision scale).1 = src := by
    rw [Prod.ext_iff]
    simp [hok]
  rw [hpair, ← ofBytes_inj (hlen.trans hsrc.symm), hval, hnum, hsrc, hsign]
  rw [hsrc] at hlt
  by_cases hneg : src.headD 0 &&& 128 = 0
  · simp only [hneg, decide_true, if_true]
    omega
  · simp only [hneg, decide_false, Bool.false_eq_true, if_false]
    omega

end Decimal

namespace Groups

variable {precision scale : Nat} {g : Groups} {src : List UInt8}

lemma leadGroup_eq (hg : g.Fits precision scale) (hsrc : unmask src = g.bytes precision scale) :
    leadGroup precision scale src = g.lead := by
  rw [leadGroup, hsrc, bytes, append_assoc, digPerDec1, take_left' (by simp),
    ofBytes_toBytes, Nat.mod_eq_of_lt hg.lead_lt]

lemma tailGroup_eq (hg : g.Fits precision scale) (hsrc : unmask src = g.bytes precision scale) :
    tailGroup scale src = g.tail := by
  have hlen := congrArg length hsrc
  rw [length_unmask, bytes, ← append_assoc, length_append, length_toBytes] at hlen
  rw [tailGroup, hsrc, bytes, ← append_assoc, digPerDec1, drop_left' (by omega),
    ofBytes_toBytes, Nat.mod_eq_of_lt hg.tail_lt]

lemma Accepted.inRange (h : g.Accepted precision scale) (hg : g.Fits precision scale)
    (hlead : g.lead < 10 ^ ((precision - scale) % 9)) (hp : precision < 2 ^ 16) (mask : Bool) :
    (g.decoded precision scale mask).InRange := by
  have hround := roundUp_decoded hg mask
  have hlead9 : g.lead ≤ digMax := by
    have : 10 ^ ((precision - scale) % 9) ≤ 10 ^ 9 := Nat.pow_le_pow_right (by omega) (by omega)
    unfold digMax digBase
    omega
  refine ⟨?_, ?_, ?_, ?_⟩
  · have hlen := (dropWhile_sublist (fun x => decide (x = 0)) (l := g.ints)).length_le
    have := hg.length_ints
    simp only [decoded]
    split <;> omega
  · have hbuf : (g.decoded precision scale mask).buf =
        g.intWords precision scale ++ (g.full ++ g.tailWords scale) := append_assoc ..
    have hfrac : (g.decoded precision scale mask).frac = scale := rfl
    rw [hround, hbuf, length_append, length_full_tailWords hg, hfrac]
  · intro w hw
    rw [intWords_decoded hg, fracWords_decoded hg] at hw
    rcases mem_append.mp hw with hw | hw
    · exact h.intWords_le hlead9 hw
    · rcases mem_append.mp hw with hw | hw
      · exact h.full w hw
      · exact h.tailWords_le hw
  · intro w hw
    rw [intWords_decoded hg] at hw
    have hmem := mem_of_mem_head? hw
    by_cases hskip : 0 < (precision - scale) % 9 ∧ g.lead ≠ 0
    · rw [intWords, if_pos hskip] at hw
      cases hw
      have hintg : (g.decoded precision scale mask).intg = precision - scale := if_pos hskip
      rw [hintg, powers10, digPerDec1]
      refine hlead.trans_le (Nat.pow_le_pow_right (by omega) (by omega))
    · have hintg : (g.decoded precision scale mask).intg =
          9 * (g.intWords precision scale).length := by
        rw [intWords, if_neg hskip]
        exact if_neg hskip
      have hpos := length_pos_of_mem hmem
      rw [hintg, powers10, digPerDec1,
        show (9 * (g.intWords precision scale).length - 1) % 9 + 1 = 9 by omega]
      have := h.intWords_le hlead9 hmem
      unfold digMax digBase at this
      omega

lemma fullWords_decoded (hg : g.Fits precision scale) (mask : Bool) :
    (g.decoded precision scale mask).fullWords scale = g.full := by
  rw [Decimal.fullWords, fracWords_decoded hg, append_assoc, digPerDec1]
  exact take_left' hg.length_full

lemma tail_decoded (hg : g.Fits precision scale) (mask : Bool) :
    (g.decoded precision scale mask).tail scale =
      if 0 < scale % 9 then g.tailWord scale / 10 ^ (9 - scale % 9) else 0 := by
  have hdigits : (g.decoded precision scale mask).tailDigits scale = scale % 9 := by
    have hfrac : (g.decoded precision scale mask).frac = scale := rfl
    rw [Decimal.tailDigits, hfrac, max_self, digPerDec1]
    omega
  rw [Decimal.tail, hdigits, fracWords_decoded hg, powers10, digPerDec1, ← hg.length_full]
  unfold tailWords
  split <;> simp

lemma Accepted.tail_decoded_iff (h : g.Accepted precision scale) (hg : g.Fits precision scale)
    (mask : Bool) :
    (g.decoded precision scale mask).tail scale = g.tail ↔ g.tail < 10 ^ (scale % 9) := by
  rw [tail_decoded hg]
  rcases Nat.eq_zero_or_pos (scale % 9) with hzero | hpos
  · have := hg.tail_lt
    rw [hzero, show dig2bytes 0 = 0 from rfl] at this
    simp only [hzero, lt_irrefl, if_false, pow_zero] at this ⊢
    omega
  · rw [if_pos hpos]
    have hnine : 10 ^ (scale % 9) * 10 ^ (9 - scale % 9) = 10 ^ 9 := by
      rw [← pow_add, Nat.add_sub_cancel' (by omega)]
    constructor
    · intro heq
      rw [← heq, Nat.div_lt_iff_lt_mul (by positivity), hnine]
      have := h.tail hpos
      unfold digMax digBase at this
      omega
    · intro hlt
      have hsign : 2 * g.tail < 256 ^ dig2bytes (scale % 9) := by
        have := (pow_le_dig2bytes (scale % 9) (by omega)).resolve_right (by omega)
        omega
      have hprod : g.tail * 10 ^ (9 - scale % 9) < 2 ^ 32 := by
        have : g.tail * 10 ^ (9 - scale % 9) < 10 ^ 9 := by
          rw [← hnine]
          exact mul_lt_mul_of_pos_right hlt (by positivity)
        omega
      rw [tailWord_eq hsign, Nat.mod_eq_of_lt hprod, Nat.mul_div_cancel _ (by positivity)]

lemma value_decoded_ne_zero (hg : g.Fits precision scale) {mask : Bool}
    (hintg : (g.decoded precision scale mask).intg ≠ 0) :
    (g.decoded precision scale mask).value ≠ 0 := by
  have hround := roundUp_decoded hg mask
  have hne : g.intWords precision scale ≠ [] := by
    intro hnil
    rw [hnil, roundUp_eq, length_nil] at hround
    omega
  have hmem := head_mem hne
  have hhead := intWords_head g precision scale (head?_eq_some_head hne)
  have hpos : 0 < (g.decoded precision scale mask).magnitude := by
    rw [Decimal.magnitude_eq (z := 0) (A := g.intWords precision scale)
      (by simp [intWords_decoded hg])]
    exact mul_pos (fraction_pos (mem_append_left _ hmem) hhead) (pow_pos digBase_pos _)
  unfold Decimal.value
  split
  · exact neg_ne_zero.mpr hpos.ne'
  · exact hpos.ne'

lemma decimal2bin_bin2decimal (hs : scale ≤ precision) (hp : 0 < precision)
    (hp16 : precision < 2 ^ 16) (hlen : roundUp (precision - scale) + roundUp scale ≤ len)
    (hsrc : src.length = decimalBinSize precision scale)
    (hok : (bin2decimal src len precision scale).2 = .ok)
    (hlead : leadGroup precision scale src < 10 ^ ((precision - scale) % digPerDec1))
    (hz : ¬MinusZero src) :
    decimal2bin (bin2decimal src len precision scale).1 precision scale = (src, .ok) ↔
      tailGroup scale src < 10 ^ (scale % digPerDec1) := by
  obtain ⟨g, hg, hbytes⟩ := @exists_groups precision scale (unmask src)
    (by rw [length_unmask, hsrc])
  have hsrc' := invertFirst_eq_unmask src
  rw [hbytes] at hsrc'
  obtain ⟨haccept, hresult⟩ := bin2decimal_eq hlen hg hsrc' rfl
  have hacc := haccept.mp hok
  have hnumber : ofBytes (unmask src) = g.number scale := by rw [hbytes, hg.ofBytes_bytes]
  rw [leadGroup_eq hg hbytes, digPerDec1] at hlead
  rw [tailGroup_eq hg hbytes, hresult hacc, digPerDec1]
  by_cases hzero : (g.decoded precision scale (src.headD 0 &&& 128 = 0)).intg = 0 ∧ scale = 0
  · -- no digits at all
    rw [if_pos hzero]
    obtain ⟨hintg, rfl⟩ := hzero
    have hnil : g.intWords precision 0 = [] := by
      have hround := roundUp_decoded hg (src.headD 0 &&& 128 = 0)
      rw [hintg] at hround
      exact length_eq_zero_iff.mp hround.symm
    have hfull : g.full = [] := length_eq_zero_iff.mp hg.length_full
    have htail : g.tail = 0 := lt_one_iff.mp hg.tail_lt
    have hnum0 : ofBytes (unmask src) = 0 := by
      rw [hnumber, number, hfull, append_nil, ← ofBE_intWords hg, hnil, htail]
      rfl
    have hpositive : ¬src.headD 0 &&& 128 = 0 := fun hneg => hz ⟨hneg, hnum0⟩
    have hrange : decimalMakeZero.InRange := ⟨by decide, by decide, by decide, by decide⟩
    have hone : decimalMakeZero.intg = 1 := rfl
    have hmade := @Decimal.decimal2bin_eq_ok decimalMakeZero precision 0 hrange
      (by rw [hone]; omega) le_rfl
    rw [Decimal.decimal2bin_eq_iff hrange (fun h => by cases h) hs hp hmade hsrc
      (by simp only [hpositive, decide_false]; rfl), hnum0, htail]
    have hcode : decimalMakeZero.code 0 = 0 := by decide
    simp [hcode]
  · rw [if_neg hzero]
    have hrange := hacc.inRange hg hlead hp16 (src.headD 0 &&& 128 = 0)
    have hle : (g.decoded precision scale (src.headD 0 &&& 128 = 0)).intg ≤ precision - scale := by
      have hlen := (dropWhile_sublist (fun x => decide (x = 0)) (l := g.ints)).length_le
      have := hg.length_ints
      simp only [decoded]
      split <;> omega
    have hmade := Decimal.decimal2bin_eq_ok hrange hle le_rfl
    have hnonzero :
        0 < scale ∨ (g.decoded precision scale (src.headD 0 &&& 128 = 0)).value ≠ 0 := by
      rcases Nat.eq_zero_or_pos scale with h0 | hpos
      · exact .inr (value_decoded_ne_zero hg fun hintg => hzero ⟨hintg, h0⟩)
      · exact .inl hpos
    rw [Decimal.decimal2bin_eq_iff hrange (fun _ => hnonzero) hs hp hmade hsrc rfl, hnumber,
      ← hacc.tail_decoded_iff hg (src.headD 0 &&& 128 = 0), Decimal.code, number,
      intWords_decoded hg, fullWords_decoded hg, ofBE_append, ofBE_intWords hg, ← ofBE_append,
      digPerDec1, add_right_inj]

end Groups

/-- Both round trips. -/
theorem binary_roundTrip_iff {precision scale len : Nat} (hs : scale ≤ precision)
    (hp : 0 < precision) (hp16 : precision < 2 ^ 16)
    (hlen : roundUp (precision - scale) + roundUp scale ≤ len) :
    (∀ d : Decimal, d.WellFormed → d.NotNegativeZero → (decimal2bin d precision scale).2 = .ok →
      ((bin2decimal (decimal2bin d precision scale).1 len precision scale).2 = .ok ∧
        (bin2decimal (decimal2bin d precision scale).1 len precision scale).1.value = d.value ↔
      d.frac ≤ scale ∨ d.tail scale = 0)) ∧
    ∀ src : List UInt8, src.length = decimalBinSize precision scale →
      (bin2decimal src len precision scale).2 = .ok →
      leadGroup precision scale src < 10 ^ ((precision - scale) % digPerDec1) → ¬MinusZero src →
      (decimal2bin (bin2decimal src len precision scale).1 precision scale = (src, .ok) ↔
        tailGroup scale src < 10 ^ (scale % digPerDec1)) :=
  ⟨fun _ h hz hok => Decimal.bin2decimal_decimal2bin h hz hs hp hlen hok,
    fun _ hsrc hok hlead hz => Groups.decimal2bin_bin2decimal hs hp hp16 hlen hsrc hok hlead hz⟩

/-- With one digit before and one behind the point. -/
theorem binary_roundTrip_oneAndHalf :
    ((bin2decimal (decimal2bin ⟨1, 1, true, [1, 500000000]⟩ 2 1).1 2 2 1).2 = .ok ∧
      (bin2decimal (decimal2bin ⟨1, 1, true, [1, 500000000]⟩ 2 1).1 2 2 1).1.value =
        (⟨1, 1, true, [1, 500000000]⟩ : Decimal).value) ∧
    decimal2bin (bin2decimal [129, 5] 2 2 1).1 2 1 = ([129, 5], .ok) := by
  obtain ⟨hforth, hback⟩ :=
    @binary_roundTrip_iff 2 1 2 (by decide) (by decide) (by decide) (by decide)
  refine ⟨(hforth _ ⟨⟨by decide, by decide, by decide, by decide⟩, by decide⟩ (fun _ => ?_)
    (by decide)).mpr (.inl (by decide)), (hback [129, 5] (by decide) (by decide) (by decide)
    (by unfold MinusZero; decide)).mpr (by decide)⟩
  norm_num [Decimal.value, Decimal.magnitude, Decimal.intWords, Decimal.fracWords, roundUp,
    digPerDec1, digBase, ofBE]

/-- 0.43 with one digit behind the point is read as another number, and so are its bytes
written as other bytes: 43 times 10⁸ has more than 32 bits. -/
theorem not_binary_roundTrip :
    (∃ d : Decimal, d.WellFormed ∧ d.NotNegativeZero ∧ decimal2bin d 2 1 = ([128, 43], .ok) ∧
      bin2decimal [128, 43] 2 2 1 = (⟨0, 1, false, [5032704]⟩, .ok) ∧
      (⟨0, 1, false, [5032704]⟩ : Decimal).value ≠ d.value) ∧
    ¬MinusZero [128, 43] ∧ leadGroup 2 1 [128, 43] = 0 ∧
      decimal2bin (bin2decimal [128, 43] 2 2 1).1 2 1 = ([128, 0], .ok) := by
  refine ⟨⟨⟨0, 2, false, [430000000]⟩, ⟨⟨by decide, by decide, by decide, by decide⟩, by decide⟩,
    fun h => (by cases h), by decide, by decide, ?_⟩, by unfold MinusZero; decide, by decide,
    by decide⟩
  norm_num [Decimal.value, Decimal.magnitude, Decimal.intWords, Decimal.fracWords, roundUp,
    digPerDec1, digBase, ofBE]

end MariaDB.Strings
