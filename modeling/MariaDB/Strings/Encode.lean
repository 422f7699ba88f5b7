import MariaDB.Strings.LeadingZeroes

/-!
# What `decimal2bin()` writes

Without an error the bytes are those of one number: the words of the integer part and the
full words of the scale are its digits in base 2³², and the digits behind the full words,
the tail, are its low bytes. If the decimal has more digits than the scale but they fit
in the same bytes, the tail has all of them.
-/
namespace MariaDB.Strings

open Library List Nat

namespace Decimal

def fullWords (scale : Nat) (d : Decimal) : List Nat :=
  (d.fracWords ++ List.replicate (scale / digPerDec1) 0).take (scale / digPerDec1)

def tailDigits (scale : Nat) (d : Decimal) : Nat :=
  max d.frac scale - digPerDec1 * (scale / digPerDec1)

def tail (scale : Nat) (d : Decimal) : Nat :=
  d.fracWords.getD (scale / digPerDec1) 0 / powers10 (digPerDec1 - d.tailDigits scale)

def code (scale : Nat) (d : Decimal) : Nat :=
  ofBE (256 ^ sizeofDec1) (d.intWords ++ d.fullWords scale) * 256 ^ dig2bytes (scale % digPerDec1) +
    d.tail scale

end Decimal

lemma extendFrac_eq : ∀ t < 9, ∀ l < 10, dig2bytes t = dig2bytes l →
    extendFrac (dig2bytes t) (l - t) t = max t l := by
  decide

lemma storeFracx_mask (frac0 frac0x frac1 frac1x w : Nat) (mask : Bool) :
    storeFracx frac0 frac0x frac1 frac1x w mask =
      (storeFracx frac0 frac0x frac1 frac1x w false).map (· ^^^ maskByte mask) := by
  unfold storeFracx
  split <;> simp [miStore, maskByte]

/-- The bytes of the fraction: full words, the digits behind them, and filling. -/
def fracBytes (scale frac : Nat) (R : List Nat) : List UInt8 :=
  let (frac1, frac1x, rest) := fitFrac (scale / 9) (scale % 9) (frac / 9) (frac % 9)
    (binSize scale) (binSize frac)
  let dst := (R.take frac1).flatMap (toBytes sizeofDec1) ++
    storeFracx (scale / 9) (scale % 9) frac1 frac1x ((R.drop frac1).headD 0) false
  dst ++ List.replicate (min (rest - binSize frac) (binSize scale - dst.length)) 0

/-- What the bytes of a fraction with the words `F` have to be. -/
structure FracSpec (scale frac : Nat) (F : List Nat) (bytes : List UInt8) : Prop where
  length : bytes.length = binSize scale
  ofBytes_eq : ofBytes bytes =
    ofBE (256 ^ sizeofDec1) ((F ++ List.replicate (scale / 9) 0).take (scale / 9)) *
        256 ^ dig2bytes (scale % 9) +
      F.getD (scale / 9) 0 / 10 ^ (9 - (max frac scale - 9 * (scale / 9)))

section FracSpec

variable {scale frac : Nat} {F R : List Nat}

lemma fracSpec_fill (hF : ∀ w ∈ F, w < digBase) (hm : F.length = m) (hlen : m ≤ scale / 9)
    (hn : n = binSize scale - 4 * m) :
    FracSpec scale frac F (F.flatMap (toBytes sizeofDec1) ++ replicate n 0) := by
  subst hm
  obtain ⟨m, hm⟩ := Nat.exists_eq_add_of_le hlen
  have hsize := binSize_eq scale
  have hn' : n = 4 * m + dig2bytes (scale % 9) := by omega
  refine ⟨?_, ?_⟩
  · simp only [length_append, length_wordBytes, length_replicate]
    omega
  · have htake : (F ++ replicate (scale / 9) 0).take (scale / 9) = F ++ replicate m 0 := by
      rw [take_append, take_of_length_le hlen, take_replicate]
      congr 2
      omega
    have hget : F.getD (scale / 9) 0 = 0 := getD_eq_default _ _ hlen
    rw [htake, hget, Nat.zero_div, add_zero, ofBytes_append,
      ofBytes_flatMap_toBytes fun w hw => (hF w hw).trans digBase_lt, ofBytes_replicate_zero,
      add_zero, length_replicate, hn', pow_add, pow_word, ofBE_append,
      ofBE_replicate_zero, length_replicate, add_zero, mul_assoc]

lemma div_lt_pow_dig2bytes (hw : w < digBase) (he : e < 10) :
    w / 10 ^ (9 - e) < 256 ^ dig2bytes e := by
  refine lt_of_lt_of_le ?_ (pow_le_pow_dig2bytes he)
  rwa [Nat.div_lt_iff_lt_mul (by positivity), ← pow_add, Nat.add_sub_cancel' (by omega)]

lemma getD_take (h : n < m) (l : List Nat) : (l.take m).getD n 0 = l.getD n 0 := by
  simp [getD_eq_getElem?_getD, h]

lemma fracSpec_last (hR : roundUp frac ≤ R.length) (hF : ∀ w ∈ R.take (roundUp frac), w < digBase)
    (hlen : scale / 9 < roundUp frac) (hdigits : max frac scale - 9 * (scale / 9) = e) (he : e < 10)
    (hbytes : dig2bytes (scale % 9) = dig2bytes e) :
    FracSpec scale frac (R.take (roundUp frac))
      ((R.take (scale / 9)).flatMap (toBytes sizeofDec1) ++
      toBytes (dig2bytes e) (R.getD (scale / 9) 0 / 10 ^ (9 - e))) := by
  have hlast : R.getD (scale / 9) 0 < digBase := by
    rw [← getD_take hlen, getD_eq_getElem _ _ (by rw [length_take]; omega)]
    exact hF _ (getElem_mem _)
  refine ⟨?_, ?_⟩
  · simp only [length_append, length_wordBytes, length_toBytes, length_take, binSize_eq]
    omega
  · have htake : (R.take (roundUp frac) ++ replicate (scale / 9) 0).take (scale / 9) =
        R.take (scale / 9) := by
      rw [take_append_of_le_length (by rw [length_take]; omega), take_take, min_eq_left hlen.le]
    rw [htake, getD_take hlen, hdigits, ofBytes_append, ofBytes_flatMap_toBytes fun w hw =>
      (hF w ((take_sublist_take_left hlen.le).subset hw)).trans digBase_lt, ofBytes_toBytes,
      mod_eq_of_lt (div_lt_pow_dig2bytes hlast he), length_toBytes, hbytes]

lemma miStore_false (i x : Nat) : miStore i x false = toBytes i x := by
  simp [miStore, maskByte]

/-- The digits behind the full words, once the number `e` of digits to store is known. -/
lemma storeFracx_eq (ht : 0 < t) (ht9 : t < 9) (he : e < 10)
    (hlim : (if frac1 < frac0 then digPerDec1 else frac0x) ≤ e)
    (hmax : max t (if frac1 < frac0 then digPerDec1 else frac0x) = e)
    (hbytes : dig2bytes t = dig2bytes (if frac1 < frac0 then digPerDec1 else frac0x)) (w : Nat) :
    storeFracx frac0 frac0x frac1 t w false = toBytes (dig2bytes t) (w / 10 ^ (9 - e)) := by
  unfold storeFracx
  rw [if_pos ht]
  simp only
  rw [extendFrac_eq t ht9 _ (by omega) hbytes, hmax, miStore_false, powers10, digPerDec1]

lemma headD_drop (l : List Nat) (n : Nat) : (l.drop n).headD 0 = l.getD n 0 := by
  simp [headD_eq_head?_getD, head?_drop, getD_eq_getElem?_getD]

lemma flatMap_take_succ (h : n < R.length) :
    (R.take (n + 1)).flatMap (toBytes sizeofDec1) =
      (R.take n).flatMap (toBytes sizeofDec1) ++ toBytes 4 (R.getD n 0) := by
  rw [take_succ_eq_append_getElem h, flatMap_append, getD_eq_getElem _ _ h]
  simp [sizeofDec1]

lemma fracBytes_spec (hR : roundUp frac ≤ R.length)
    (hF : ∀ w ∈ R.take (roundUp frac), w < digBase) (hfit : binSize frac ≤ binSize scale) :
    FracSpec scale frac (R.take (roundUp frac)) (fracBytes scale frac R) := by
  have hlen : (R.take (roundUp frac)).length = roundUp frac := by
    rw [length_take]
    exact min_eq_left hR
  have hround := roundUp_eq frac
  have hsize0 := binSize_eq scale
  have hsize1 := binSize_eq frac
  have hle0 := dig2bytes_le (scale % 9) (by omega)
  have hle1 := dig2bytes_le (frac % 9) (by omega)
  have hzero : dig2bytes 0 = 0 := rfl
  have hneg : ¬binSize scale < binSize frac := by omega
  by_cases hlt : binSize scale > binSize frac ∧ 0 < frac % 9
  · have hx := dig2bytes_pos _ (by omega) hlt.2
    by_cases heq : scale / 9 = frac / 9
    · -- the word behind the full words gets the digits of the scale
      have hscale : frac % 9 < scale % 9 := by
        by_contra hge
        have := dig2bytes_mono (scale % 9) (by omega) (frac % 9) (by omega) (by omega)
        omega
      simp only [fracBytes, fitFrac, if_neg hneg, if_pos hlt, if_pos heq]
      rw [storeFracx_eq (e := scale % 9) (by omega) (by omega) (by omega)
        (by rw [if_neg (by omega)]) (by rw [if_neg (by omega), max_self])
        (by rw [if_neg (by omega)])]
      simp only [headD_drop, Nat.sub_self, zero_min, replicate_zero, append_nil]
      rw [← heq]
      exact fracSpec_last hR hF (by omega) (by omega) (by omega) rfl
    · -- the word behind the full words becomes a full word of the scale
      have hround' : roundUp frac = frac / 9 + 1 := by omega
      simp only [fracBytes, fitFrac, if_neg hneg, if_pos hlt, if_neg heq, storeFracx, lt_irrefl,
        if_false, append_nil, length_wordBytes]
      rw [← hround', hlen]
      exact fracSpec_fill hF hlen (by omega) (by omega)
  · simp only [fracBytes, fitFrac, if_neg hneg, if_neg hlt]
    rcases Nat.eq_zero_or_pos (frac % 9) with hmod | hmod
    · have hround' : roundUp frac = frac / 9 := by omega
      rw [hmod] at hsize1
      simp only [hmod, storeFracx, lt_irrefl, if_false, append_nil, length_wordBytes]
      rw [← hround', hlen]
      rcases lt_or_ge (scale / 9) (roundUp frac) with hgt | hge
      · -- a full word for seven or eight digits of the scale
        have hnine : roundUp frac = scale / 9 + 1 := by omega
        have hfour : dig2bytes (scale % 9) = dig2bytes 9 := by
          have : dig2bytes 9 = 4 := rfl
          omega
        have hspec := fracSpec_last hR hF (by omega) (by omega : _ = 9) (by omega) hfour
        rw [Nat.sub_self, pow_zero, Nat.div_one] at hspec
        rw [show min (binSize scale - binSize frac) (binSize scale - 4 * roundUp frac) = 0 by omega,
          replicate_zero, append_nil, hnine, flatMap_take_succ (by omega), ← hnine]
        exact hspec
      · exact fracSpec_fill hF hlen (by omega) (by omega)
    · have hround' : roundUp frac = frac / 9 + 1 := by omega
      have hx := dig2bytes_pos _ (by omega) hmod
      have hfill : binSize scale - binSize frac = 0 := by omega
      by_cases heq : scale / 9 = frac / 9
      · -- the word behind the full words gets the digits of the number or of the scale
        have hbytes : dig2bytes (frac % 9) = dig2bytes (scale % 9) := by omega
        set e := max (frac % 9) (scale % 9) with he
        have hdigits : max frac scale - 9 * (scale / 9) = e := by omega
        have hebytes : dig2bytes (scale % 9) = dig2bytes e := by
          rcases max_choice (frac % 9) (scale % 9) with h | h <;> rw [he, h]
          exact hbytes.symm
        rw [storeFracx_eq (e := e) hmod (by omega) (by omega) (by rw [if_neg (by omega)]; omega)
          (by rw [if_neg (by omega)]) (by rw [if_neg (by omega), hbytes])]
        simp only [headD_drop, hfill, zero_min, replicate_zero, append_nil]
        rw [← heq, hbytes, hebytes]
        exact fracSpec_last hR hF (by omega) hdigits (by omega) hebytes
      · -- seven or eight digits of the number in a full word of the scale
        have hlim : (if frac / 9 < scale / 9 then digPerDec1 else scale % 9) = 9 := by
          rw [if_pos (by omega)]
          rfl
        have hfour : dig2bytes (frac % 9) = 4 := by omega
        rw [storeFracx_eq (e := 9) hmod (by omega) (by omega) hlim.le (by rw [hlim]; omega)
          (by rw [hlim, hfour]; rfl)]
        simp only [headD_drop, hfill, zero_min, Nat.sub_self, pow_zero, Nat.div_one, hfour]
        rw [← flatMap_take_succ (by omega), ← hround']
        exact fracSpec_fill hF hlen (by omega) (by omega)

end FracSpec

lemma replicate_maskByte (n : Nat) (mask : Bool) :
    replicate n (maskByte mask) = (replicate n 0).map (· ^^^ maskByte mask) := by
  simp

lemma flatMap_miStore (ws : List Nat) (mask : Bool) :
    ws.flatMap (miStore sizeofDec1 · mask) =
      (ws.flatMap (toBytes sizeofDec1)).map (· ^^^ maskByte mask) := by
  simp only [map_flatMap]
  rfl

lemma binSize_eq_zero (h : binSize n = 0) : n = 0 := by
  rw [binSize_eq] at h
  have := dig2bytes_pos (n % 9) (by omega)
  omega

lemma fracBytes_zero (scale : Nat) (h : frac = 0) (R R' : List Nat) :
    fracBytes scale frac R = fracBytes scale frac R' := by
  subst h
  have hfit : fitFrac (scale / 9) (scale % 9) 0 0 (binSize scale) (binSize 0) =
      (0, 0, binSize scale) := by
    simp [fitFrac, binSize_eq, dig2bytes]
  simp [fracBytes, hfit, storeFracx]

/-- The parts that `decimal2bin()` stores with a mask. -/
lemma assemble_eq {scale frac isize frac1 frac1x rest : Nat}
    (hff : fitFrac (scale / 9) (scale % 9) (frac / 9) (frac % 9) (binSize scale) (binSize frac) =
      (frac1, frac1x, rest)) (mask : Bool) (pre : List UInt8) (I R : List Nat)
    (hlen : (pre ++ I.flatMap (toBytes sizeofDec1)).length = isize) :
    let dst := pre.map (· ^^^ maskByte mask) ++
      ((I ++ R).take (I.length + frac1)).flatMap (miStore sizeofDec1 · mask) ++
      storeFracx (scale / 9) (scale % 9) frac1 frac1x (((I ++ R).drop (I.length + frac1)).headD 0)
        mask
    dst ++ replicate (min (rest - binSize frac) (binSize scale + isize - dst.length))
        (maskByte mask) =
      (pre ++ I.flatMap (toBytes sizeofDec1) ++ fracBytes scale frac R).map
        (· ^^^ maskByte mask) := by
  intro dst
  obtain ⟨F, hF⟩ : ∃ F, F = (R.take frac1).flatMap (toBytes sizeofDec1) ++
    storeFracx (scale / 9) (scale % 9) frac1 frac1x ((R.drop frac1).headD 0) false := ⟨_, rfl⟩
  have hdst : dst = (pre ++ I.flatMap (toBytes sizeofDec1) ++ F).map (· ^^^ maskByte mask) := by
    simp only [dst, hF]
    rw [take_length_add_append, drop_length_add_append, flatMap_miStore, storeFracx_mask]
    simp
  have hfill : binSize scale + isize - dst.length = binSize scale - F.length := by
    rw [hdst, length_map, length_append, hlen]
    omega
  rw [hfill, hdst, replicate_maskByte, ← map_append]
  simp [fracBytes, hff, hF]

lemma decimal2bin_ok {d : Decimal} {precision scale : Nat} (h : d.InRange)
    (hok : (decimal2bin d precision scale).2 = .ok) :
    binSize d.frac ≤ binSize scale ∧ ∃ z A k, d.intWords = replicate z 0 ++ A ∧
      Significant A k ∧ k ≤ precision - scale ∧ ∃ I F, I.length = binSize (precision - scale) ∧
      ofBytes I = ofBE (256 ^ sizeofDec1) A ∧ FracSpec scale d.frac d.fracWords F ∧
      (decimal2bin d precision scale).1 = invertFirst ((I ++ F).map
        (· ^^^ maskByte (if k + binSize d.frac = 0 then false else d.sign))) := by
  obtain ⟨z, A, k, hint, hA, hrem⟩ := removeLeadingZeroes_spec h
  have hword : ∀ w ∈ A, w < digBase := fun w hw => h.word_lt (by simp [hint, hw])
  have hfit : ¬binSize scale < binSize d.frac := by
    intro hlt
    simp [decimal2bin, hrem, hlt] at hok
  have hk : k ≤ precision - scale := by
    by_contra hgt
    have hne : k ≠ 0 := by omega
    simp [decimal2bin, hrem, hfit, hne, Nat.lt_of_not_le hgt] at hok
  have hR : roundUp d.frac ≤ (d.buf.drop (roundUp d.intg)).length := by
    have := h.length
    rw [length_drop]
    omega
  have hF := fracBytes_spec hR (fun w hw => h.word_lt (mem_append_right _ hw))
    (Nat.le_of_not_lt hfit)
  obtain ⟨I, hbuf, hlenI, hlen, hval⟩ := intBytes_spec hA hk hword (d.buf.drop (roundUp d.intg))
  refine ⟨Nat.le_of_not_lt hfit, z, A, k, hint, hA, hk, _, _, hlen, hval, hF, ?_⟩
  have hnine : digPerDec1 = 9 := rfl
  have hmod : ∀ n, n - n / 9 * 9 = n % 9 := by omega
  rcases hff : fitFrac (scale / 9) (scale % 9) (d.frac / 9) (d.frac % 9) (binSize scale)
    (binSize d.frac) with ⟨frac1, frac1x, rest⟩
  by_cases hz : k + binSize d.frac = 0
  · -- no digits are stored
    obtain rfl : k = 0 := by omega
    have hfrac : d.frac = 0 := binSize_eq_zero (by omega)
    obtain rfl : I = [] := length_eq_zero_iff.mp hlenI
    have hassemble := @assemble_eq scale d.frac _ frac1 frac1x rest hff false _ [] [0] hlen
    rw [fracBytes_zero scale hfrac (d.buf.drop (roundUp d.intg)) [0], if_pos hz, ← hassemble]
    simp only [decimal2bin, hrem, if_pos hz, hnine, hmod, hff]
    simp [maskByte]
  · have hassemble := assemble_eq hff d.sign _ I (d.buf.drop (roundUp d.intg)) hlen
    simp only [decimal2bin, hrem, if_neg hz, if_neg (not_lt.mpr hk), hnine, hmod, hff]
    by_cases hx : 0 < k % 9
    · simp only [if_pos hx] at hbuf hassemble ⊢
      rw [hbuf, ← hlenI, ← hassemble]
      simp only [map_append, replicate_maskByte, miStore]
    · simp only [if_neg hx] at hbuf hassemble ⊢
      rw [hbuf, ← hlenI, ← hassemble]
      simp only [replicate_maskByte, append_nil]

def half (n : Nat) : Nat := 128 * 256 ^ (n - 1)

lemma two_mul_half (hn : 0 < n) : 2 * half n = 256 ^ n := by
  obtain ⟨m, rfl⟩ := exists_eq_succ_of_ne_zero hn.ne'
  rw [half, succ_sub_one, pow_succ]
  ring

@[simp] lemma length_invertFirst (l : List UInt8) : (invertFirst l).length = l.length := by
  cases l <;> rfl

lemma ofBytes_invertFirst {l : List UInt8} (hl : 0 < l.length) :
    ofBytes (invertFirst l) = if ofBytes l < half l.length then ofBytes l + half l.length
      else ofBytes l - half l.length := by
  have hxor : ∀ a : UInt8, (a ^^^ 128).toNat =
      if a.toNat < 128 then a.toNat + 128 else a.toNat - 128 := by decide +kernel
  cases l with
  | nil => simp at hl
  | cons a l =>
    have hlt := ofBytes_lt l
    have hhalf : half (a :: l).length = 128 * 256 ^ l.length := rfl
    rw [invertFirst, ofBytes_cons, ofBytes_cons, hhalf, hxor a]
    have hiff : a.toNat * 256 ^ l.length + ofBytes l < 128 * 256 ^ l.length ↔ a.toNat < 128 := by
      have := @lex_lt_iff (256 ^ l.length) a.toNat 128 (ofBytes l) 0 hlt (by positivity)
      rw [add_zero] at this
      rw [this]
      omega
    simp only [hiff]
    split
    · rw [add_mul]
      omega
    · rw [Nat.sub_mul]
      have : 128 * 256 ^ l.length ≤ a.toNat * 256 ^ l.length := Nat.mul_le_mul_right _ (by omega)
      omega

lemma ofBytes_finish {raw : List UInt8} (hl : 0 < raw.length)
    (hraw : ofBytes raw < half raw.length) (mask : Bool) :
    ofBytes (invertFirst (raw.map (· ^^^ maskByte mask))) =
      if mask then half raw.length - 1 - ofBytes raw else half raw.length + ofBytes raw := by
  have htwo := two_mul_half hl
  rw [ofBytes_invertFirst (by simpa using hl), length_map]
  cases mask with
  | false =>
    have hmap : raw.map (· ^^^ maskByte false) = raw := by simp [maskByte]
    rw [hmap, if_pos hraw, if_neg (by simp), add_comm]
  | true =>
    have hinv := ofBytes_map_xor raw
    have hmap : raw.map (· ^^^ maskByte true) = raw.map (· ^^^ 255) := by simp [maskByte]
    rw [hmap, if_neg (by omega), if_pos rfl]
    omega

/-- Digits that leave the first bit free, followed by other bytes. -/
lemma append_lt_half (hx : 2 * x < 256 ^ i) (hi : 0 < i) (hy : y < 256 ^ m) :
    x * 256 ^ m + y < half (i + m) := by
  have htwo := two_mul_half hi
  have hlt : x + 1 ≤ half i := by omega
  calc x * 256 ^ m + y
    _ < (x + 1) * 256 ^ m := by rw [add_mul, one_mul]; omega
    _ ≤ half i * 256 ^ m := Nat.mul_le_mul_right _ hlt
    _ = half (i + m) := by
      rw [half, half, mul_assoc, ← pow_add]
      congr 2
      omega

lemma two_mul_ofBE_cons_lt (hL : ofBE b L < b ^ L.length) (hw : w < n) :
    2 * (w * b ^ L.length + ofBE b L) < 2 * n * b ^ L.length := by
  calc 2 * (w * b ^ L.length + ofBE b L)
    _ < 2 * ((w + 1) * b ^ L.length) := by
      rw [add_mul, one_mul]
      omega
    _ ≤ 2 * (n * b ^ L.length) := by
      gcongr
      exact hw
    _ = 2 * n * b ^ L.length := by ring

lemma Significant.two_mul_lt (h : Significant A k) (hword : ∀ w ∈ A, w < digBase) :
    2 * ofBE (256 ^ sizeofDec1) A < 256 ^ binSize k := by
  cases h with
  | zero => simp
  | cons w ws j hj hle hlt =>
    have hws := @ofBE_lt (256 ^ sizeofDec1) ws fun v hv => (hword v (by simp [hv])).trans digBase_lt
    have hsize : binSize (9 * ws.length + j + 1) = dig2bytes (j + 1) + 4 * ws.length := by
      rw [binSize_eq]
      rcases lt_or_ge j 8 with h | h
      · rw [show (9 * ws.length + j + 1) % 9 = j + 1 by omega]
        omega
      · obtain rfl : j = 8 := by omega
        rw [show (9 * ws.length + 8 + 1) % 9 = 0 by omega, show dig2bytes 0 = 0 from rfl,
          show dig2bytes (8 + 1) = 4 from rfl]
        omega
    have hdigits : 2 * 10 ^ (j + 1) ≤ 256 ^ dig2bytes (j + 1) :=
      (pow_le_dig2bytes (j + 1) (by omega)).resolve_right (by omega)
    rw [hsize, pow_add, pow_word, ofBE]
    exact (two_mul_ofBE_cons_lt hws hlt).trans_le (Nat.mul_le_mul_right _ hdigits)

namespace Decimal

variable {d : Decimal} {precision scale : Nat}

lemma tailDigits_spec (hfit : binSize d.frac ≤ binSize scale) :
    d.tailDigits scale < 10 ∧ dig2bytes (d.tailDigits scale) ≤ dig2bytes (scale % 9) ∧
      scale % 9 ≤ d.tailDigits scale := by
  have h0 := dig2bytes_le (scale % 9) (by omega)
  have h1 := dig2bytes_pos (d.frac % 9) (by omega)
  rw [binSize_eq, binSize_eq] at hfit
  unfold tailDigits digPerDec1
  rcases lt_or_ge scale d.frac with hlt | hge
  · rw [max_eq_left hlt.le]
    rcases lt_or_ge (scale / 9) (d.frac / 9) with hq | hq
    · have hnine : d.frac - 9 * (scale / 9) = 9 := by omega
      rw [hnine, show dig2bytes 9 = 4 from rfl]
      omega
    · have hmod : d.frac - 9 * (scale / 9) = d.frac % 9 := by omega
      rw [hmod]
      omega
  · rw [max_eq_right hge]
    have hmod : scale - 9 * (scale / 9) = scale % 9 := by omega
    rw [hmod]
    omega

lemma InRange.getD_lt (h : d.InRange) (n : Nat) : d.fracWords.getD n 0 < digBase := by
  rw [getD_eq_getElem?_getD]
  cases hget : d.fracWords[n]? with
  | none => exact zero_lt_succ _
  | some w => exact h.word_lt (mem_append_right _ (mem_of_getElem? hget))

lemma InRange.tail_lt (h : d.InRange) (hfit : binSize d.frac ≤ binSize scale) :
    d.tail scale < 10 ^ d.tailDigits scale := by
  have hdigits := (d.tailDigits_spec hfit).1
  rw [tail, powers10, Nat.div_lt_iff_lt_mul (by positivity), ← pow_add, digPerDec1,
    Nat.add_sub_cancel' (by omega)]
  exact h.getD_lt _

lemma two_mul_ofBE_lt (hne : L ≠ []) (hL : ∀ w ∈ L, w < digBase) :
    2 * ofBE (256 ^ sizeofDec1) L < (256 ^ sizeofDec1) ^ L.length := by
  have hbase : 2 * digBase ≤ 256 ^ sizeofDec1 := by decide
  cases L with
  | nil => exact absurd rfl hne
  | cons w L =>
    have hlt := @ofBE_lt (256 ^ sizeofDec1) L fun v hv => (hL v (by simp [hv])).trans digBase_lt
    have hw := hL w (by simp)
    rw [ofBE, length_cons, pow_succ']
    exact (two_mul_ofBE_cons_lt hlt hw).trans_le (Nat.mul_le_mul_right _ hbase)

lemma InRange.fullWords_lt (h : d.InRange) (hw : w ∈ d.fullWords scale) : w < digBase := by
  rcases mem_append.mp (mem_of_mem_take hw) with hw | hw
  · exact h.word_lt (mem_append_right _ hw)
  · rw [eq_of_mem_replicate hw]
    exact zero_lt_succ _

lemma length_fullWords (d : Decimal) (scale : Nat) : (d.fullWords scale).length = scale / 9 := by
  simp [fullWords, digPerDec1]

lemma fracSpec_lt_half (h : d.InRange) (hfit : binSize d.frac ≤ binSize scale) (hscale : 0 < scale)
    (hF : FracSpec scale d.frac d.fracWords F) : ofBytes F < half (binSize scale) := by
  obtain ⟨hdigits, hbytes, hle⟩ := d.tailDigits_spec hfit
  have htail := h.tail_lt hfit
  have hval : ofBytes F = ofBE (256 ^ sizeofDec1) (d.fullWords scale) *
      256 ^ dig2bytes (scale % 9) + d.tail scale := hF.ofBytes_eq
  rw [hval, binSize_eq]
  rcases Nat.eq_zero_or_pos (scale / 9) with hzero | hpos
  · have hfull : d.fullWords scale = [] :=
      length_eq_zero_iff.mp ((d.length_fullWords scale).trans hzero)
    have hpow := (pow_le_dig2bytes (d.tailDigits scale) hdigits).resolve_right (by omega)
    have hmono : 256 ^ dig2bytes (d.tailDigits scale) ≤ 256 ^ dig2bytes (scale % 9) :=
      Nat.pow_le_pow_right (by omega) hbytes
    have htwo := two_mul_half (dig2bytes_pos (scale % 9) (by omega) (by omega))
    rw [hfull, hzero, ofBE_nil, zero_mul, zero_add, mul_zero, zero_add]
    omega
  · have hne : d.fullWords scale ≠ [] := by
      intro hnil
      have := d.length_fullWords scale
      rw [hnil] at this
      exact absurd this (by simp; omega)
    have htwo := two_mul_ofBE_lt hne fun w hw => h.fullWords_lt hw
    rw [length_fullWords, ← pow_word] at htwo
    refine append_lt_half htwo (by omega) (htail.trans_le ?_)
    exact (pow_le_pow_dig2bytes hdigits).trans (Nat.pow_le_pow_right (by omega) hbytes)

lemma ofBE_intWords (h : d.intWords = replicate z 0 ++ A) (b : Nat) :
    ofBE b d.intWords = ofBE b A := by
  rw [h, ofBE_pad]

lemma magnitude_eq_zero (h : d.intWords = replicate z 0) (hfrac : d.frac = 0) :
    d.magnitude = 0 := by
  have hnil : d.fracWords = [] := by simp [fracWords, hfrac, roundUp]
  simp [magnitude, h, hnil]

/-- Without an error `decimal2bin()` writes the bytes of the code, above half of the numbers
if the decimal is positive and below if it is negative. Only a zero without a fraction loses
its sign. -/
lemma decimal2bin_spec (h : d.InRange) (hz : d.sign = true → 0 < d.frac ∨ d.value ≠ 0)
    (hs : scale ≤ precision) (hp : 0 < precision) (hok : (decimal2bin d precision scale).2 = .ok) :
    binSize d.frac ≤ binSize scale ∧ 0 < decimalBinSize precision scale ∧
      d.code scale < half (decimalBinSize precision scale) ∧
      (decimal2bin d precision scale).1.length = decimalBinSize precision scale ∧
      ofBytes (decimal2bin d precision scale).1 =
        if d.sign then half (decimalBinSize precision scale) - 1 - d.code scale
        else half (decimalBinSize precision scale) + d.code scale := by
  obtain ⟨hfit, z, A, k, hint, hA, hk, I, F, hI, hvalI, hF, hbytes⟩ := decimal2bin_ok h hok
  have hword : ∀ w ∈ A, w < digBase := fun w hw => h.word_lt (by simp [hint, hw])
  have hsign : (if k + binSize d.frac = 0 then false else d.sign) = d.sign := by
    split
    · rename_i hzero
      cases hA with
      | zero =>
        have hfrac : d.frac = 0 := binSize_eq_zero (by omega)
        have hmag := magnitude_eq_zero (d := d) (z := z) (by simpa using hint) hfrac
        cases hd : d.sign with
        | false => rfl
        | true => exact absurd (by simp [value, hd, hmag]) ((hz hd).resolve_left (by omega))
      | cons => omega
    · rfl
  have hpos : ∀ n, 0 < n → 0 < binSize n := by
    intro n hn
    by_contra hle
    exact absurd (binSize_eq_zero (Nat.eq_zero_of_not_pos hle)) hn.ne'
  have hlen : (I ++ F).length = decimalBinSize precision scale := by
    rw [length_append, hI, hF.length, decimalBinSize]
  have hcode : ofBytes (I ++ F) = d.code scale := by
    rw [ofBytes_append, hvalI, hF.length, hF.ofBytes_eq, code, ofBE_append, ofBE_intWords hint,
      length_fullWords, binSize_eq, pow_add, pow_word, add_mul, mul_assoc, add_assoc]
    rfl
  have hhalf : ofBytes (I ++ F) < half (I ++ F).length := by
    rcases Nat.eq_zero_or_pos (precision - scale) with hzero | hgt
    · have hnil : I = [] := by
        rw [hzero] at hI
        exact length_eq_zero_iff.mp hI
      rw [hnil, nil_append, hF.length]
      exact fracSpec_lt_half h hfit (by omega) hF
    · rw [ofBytes_append, length_append, hI]
      refine append_lt_half ?_ (hpos _ hgt) (ofBytes_lt F)
      rw [hvalI]
      exact (hA.two_mul_lt hword).trans_le (Nat.pow_le_pow_right (by omega) (binSize_mono hk))
  have hlenpos : 0 < (I ++ F).length := by
    rw [hlen, decimalBinSize]
    rcases Nat.eq_zero_or_pos (precision - scale) with hzero | hgt
    · have := hpos scale (by omega)
      omega
    · have := hpos _ hgt
      omega
  have hfinish := ofBytes_finish hlenpos hhalf d.sign
  rw [hsign] at hbytes
  rw [← hbytes, hcode, hlen] at hfinish
  rw [hlen] at hlenpos
  rw [hcode, hlen] at hhalf
  refine ⟨hfit, hlenpos, hhalf, ?_, hfinish⟩
  rw [hbytes, length_invertFirst, length_map, hlen]

end Decimal

end MariaDB.Strings
