import MariaDB.Strings.DecimalBin

/-!
# The digits before the point

`remove_leading_zeroes()` finds the first word of the integer part that is not zero and
the number of digits from there to the point. The bytes that `decimal2bin()` writes for
the integer part are the bytes of a number in base 2³² that has the words as its digits.
-/
namespace MariaDB.Strings

open Library List Nat

lemma roundUp_eq (x : Nat) : roundUp x = (x + 8) / 9 := by
  unfold roundUp digPerDec1
  split
  · rfl
  · omega

/-- The integer words without leading zeros, and their number of digits. -/
inductive Significant : List Nat → Nat → Prop
  | zero : Significant [] 0
  | cons (w : Nat) (ws : List Nat) (j : Nat) (hj : j < 9) (hle : 10 ^ j ≤ w)
    (hlt : w < 10 ^ (j + 1)) : Significant (w :: ws) (9 * ws.length + j + 1)

attribute [local simp] Decimal.intWords skipWords

lemma skipWords_spec (hi : 0 < i) {buf : List Nat} (hlen : m + 1 ≤ buf.length) :
    ∃ z A, buf.take (m + 1) = replicate z 0 ++ A ∧
      (A = [] ∧ skipWords buf (9 * m + i) i = (buf.drop (m + 1), 0) ∨
        ∃ w ws, A = w :: ws ∧ w ≠ 0 ∧ skipWords buf (9 * m + i) i =
          (A ++ buf.drop (m + 1), 9 * ws.length + if z = 0 then i else 9)) := by
  induction m generalizing buf i with
  | zero =>
    cases buf with
    | nil => simp at hlen
    | cons w ws =>
      by_cases hw : w = 0
      · refine ⟨1, [], by simp [hw], .inl ⟨rfl, ?_⟩⟩
        cases ws with
        | nil | cons => simp [hw, hi]
      · exact ⟨0, [w], by simp, .inr ⟨w, [], rfl, hw, by simp [hw]⟩⟩
  | succ m ih =>
    cases buf with
    | nil => simp at hlen
    | cons w ws =>
      have hlen' : m + 1 ≤ ws.length := le_of_succ_le_succ hlen
      by_cases hw : w = 0
      · have hskip : skipWords (w :: ws) (9 * (m + 1) + i) i = skipWords ws (9 * m + 9) 9 := by
          rw [skipWords, if_pos ⟨by omega, hw⟩, digPerDec1]
          congr 1
          omega
        obtain ⟨z, A, htake, hor⟩ := ih (i := 9) (by omega) hlen'
        refine ⟨z + 1, A, by simp [htake, hw, replicate_succ], ?_⟩
        rw [hskip]
        rcases hor with ⟨hnil, heq⟩ | ⟨v, vs, hA, hv, heq⟩
        · exact .inl ⟨hnil, by simpa using heq⟩
        · exact .inr ⟨v, vs, hA, hv, by simpa using heq⟩
      · refine ⟨0, w :: ws.take (m + 1), by simp, .inr ⟨w, _, rfl, hw, ?_⟩⟩
        simp [hw, min_eq_left hlen']

lemma skipDigits_spec (hw : w ≠ 0) (hlt : w < 10 ^ (i + 1)) (hi : i ≤ intg) :
    ∃ j ≤ i, 10 ^ j ≤ w ∧ w < 10 ^ (j + 1) ∧ skipDigits w i intg = intg - (i - j) := by
  induction i generalizing intg with
  | zero => exact ⟨0, le_rfl, by simpa using one_le_iff_ne_zero.mpr hw, hlt, by simp [skipDigits]⟩
  | succ i ih =>
    by_cases hlt' : w < 10 ^ (i + 1)
    · obtain ⟨j, hj, hle, hlt'', heq⟩ := ih hlt' (show i ≤ intg - 1 by omega)
      refine ⟨j, by omega, hle, hlt'', ?_⟩
      rw [skipDigits, powers10, if_pos hlt', heq]
      omega
    · refine ⟨i + 1, le_rfl, not_lt.mp hlt', hlt, ?_⟩
      rw [skipDigits, powers10, if_neg hlt']
      omega

lemma removeLeadingZeroes_spec {d : Decimal} (h : d.InRange) :
    ∃ z A k, d.intWords = replicate z 0 ++ A ∧ Significant A k ∧
      removeLeadingZeroes d = (A ++ d.buf.drop (roundUp d.intg), k) := by
  have hmod : d.intg % 2 ^ 16 = d.intg := Nat.mod_eq_of_lt h.intg_lt
  rcases Nat.eq_zero_or_pos d.intg with hzero | hpos
  · refine ⟨0, [], 0, by simp [hzero, roundUp], .zero, ?_⟩
    cases hbuf : d.buf <;> simp [removeLeadingZeroes, hzero, hbuf, roundUp]
  · -- the first word has `i` digits and `m` words of nine digits follow
    obtain ⟨m, i, hi, hi9, hintg⟩ : ∃ m i, 0 < i ∧ i ≤ 9 ∧ d.intg = 9 * m + i :=
      ⟨(d.intg - 1) / 9, (d.intg - 1) % 9 + 1, by omega, by omega, by omega⟩
    have hround : roundUp d.intg = m + 1 := by
      rw [roundUp_eq]
      omega
    have hdigits : (d.intg - 1) % digPerDec1 + 1 = i := by
      unfold digPerDec1
      omega
    have hlen : m + 1 ≤ d.buf.length := by
      have := h.length
      omega
    obtain ⟨z, A, htake, hor⟩ := skipWords_spec hi hlen
    rw [← hround] at htake hor
    rw [← hintg] at hor
    rcases hor with ⟨rfl, heq⟩ | ⟨w, ws, rfl, hw, heq⟩
    · refine ⟨z, [], 0, htake, .zero, ?_⟩
      simp only [removeLeadingZeroes, hmod, hdigits]
      rw [heq]
      simp
    · -- the digits of the first word that is left
      set e := if z = 0 then i else 9 with he
      have he9 : 0 < e ∧ e ≤ 9 := by
        rw [he]
        split <;> omega
      have hlt : w < 10 ^ e := by
        rcases Nat.eq_zero_or_pos z with hz | hz
        · have hhead : d.intWords.head? = some w := by simp [htake, hz]
          have := h.first w hhead
          rwa [powers10, hdigits, ← show e = i by rw [he, if_pos hz]] at this
        · have hmem : w ∈ d.intWords ++ d.fracWords := by simp [htake]
          have := h.word_lt hmem
          rw [he, if_neg (by omega)]
          exact this
      obtain ⟨j, hj, hle, hlt', hskip⟩ :=
        skipDigits_spec (i := e - 1) hw (by rwa [Nat.sub_add_cancel he9.1])
          (show e - 1 ≤ 9 * ws.length + e by omega)
      refine ⟨z, w :: ws, 9 * ws.length + j + 1, htake, .cons w ws j (by omega) hle hlt', ?_⟩
      have hmod9 : (9 * ws.length + e - 1) % digPerDec1 = e - 1 := by
        unfold digPerDec1
        omega
      simp only [removeLeadingZeroes, hmod, hdigits]
      rw [heq]
      simp only [if_pos (show 0 < 9 * ws.length + e by omega), cons_append, headD_cons,
        hmod9, hskip]
      congr 1
      omega

lemma rest_eq_mod (n : Nat) : n - n / digPerDec1 * digPerDec1 = n % 9 := by
  unfold digPerDec1
  omega

lemma binSize_eq (n : Nat) : binSize n = 4 * (n / 9) + dig2bytes (n % 9) := by
  simp only [binSize, rest_eq_mod]
  simp only [digPerDec1, sizeofDec1]
  omega

lemma dig2bytes_le : ∀ i < 10, dig2bytes i ≤ 4 := by decide

lemma dig2bytes_pos : ∀ i < 10, 0 < i → 0 < dig2bytes i := by decide

lemma dig2bytes_mono : ∀ i < 10, ∀ j < 10, i ≤ j → dig2bytes i ≤ dig2bytes j := by decide

lemma pow_le_dig2bytes : ∀ i < 10, 2 * 10 ^ i ≤ 256 ^ dig2bytes i ∨ i = 0 := by decide

lemma pow_le_pow_dig2bytes (hi : i < 10) : 10 ^ i ≤ 256 ^ dig2bytes i := by
  rcases pow_le_dig2bytes i hi with h | rfl
  · omega
  · simp [dig2bytes]

lemma binSize_mono (h : n ≤ m) : binSize n ≤ binSize m := by
  rw [binSize_eq, binSize_eq]
  have h1 := dig2bytes_le (n % 9) (by omega)
  rcases lt_or_ge (n / 9) (m / 9) with hlt | hge
  · omega
  · have h2 := dig2bytes_mono (n % 9) (by omega) (m % 9) (by omega) (by omega)
    omega

lemma digBase_lt : digBase < 256 ^ sizeofDec1 := by decide

lemma length_wordBytes (ws : List Nat) :
    (ws.flatMap (toBytes sizeofDec1)).length = 4 * ws.length := by
  simp [length_flatMap, sizeofDec1, mul_comm]

lemma pow_word (n : Nat) : 256 ^ (4 * n) = (256 ^ sizeofDec1) ^ n := pow_mul 256 4 n

lemma intBytes_spec (hA : Significant A k) (hk : k ≤ intg) (hword : ∀ w ∈ A, w < digBase)
    (R : List Nat) :
    ∃ I, (if 0 < k % 9 then (A ++ R).drop 1 else A ++ R) = I ++ R ∧ I.length = k / 9 ∧
      let bytes := replicate (binSize intg - binSize k) 0 ++
        (if 0 < k % 9 then
          toBytes (dig2bytes (k % 9)) ((A ++ R).headD 0 % powers10 (k % 9)) else []) ++
        I.flatMap (toBytes sizeofDec1)
      bytes.length = binSize intg ∧ ofBytes bytes = ofBE (256 ^ sizeofDec1) A := by
  have hsize := binSize_mono hk
  cases hA with
  | zero => exact ⟨[], by simp, rfl, by simp [binSize_eq, dig2bytes], by simp⟩
  | cons w ws j hj hle hlt =>
    have hws : ∀ v ∈ ws, v < 256 ^ sizeofDec1 :=
      fun v hv => (hword v (by simp [hv])).trans digBase_lt
    rw [binSize_eq (9 * ws.length + j + 1)] at hsize ⊢
    rcases lt_or_ge j 8 with hj8 | hj8
    · have hmod : (9 * ws.length + j + 1) % 9 = j + 1 := by omega
      have hdiv : (9 * ws.length + j + 1) / 9 = ws.length := by omega
      rw [hmod, hdiv] at hsize ⊢
      refine ⟨ws, by simp, rfl, ?_, ?_⟩
      · simp only [length_append, length_replicate, zero_lt_succ, if_true,
          length_toBytes, length_wordBytes]
        omega
      · have hfit : w < 256 ^ dig2bytes (j + 1) := hlt.trans_le (pow_le_pow_dig2bytes (by omega))
        simp only [zero_lt_succ, if_true, cons_append, headD_cons, powers10,
          Nat.mod_eq_of_lt hlt, ofBytes_append, ofBytes_replicate_zero, ofBytes_toBytes,
          Nat.mod_eq_of_lt hfit, ofBytes_flatMap_toBytes hws, length_wordBytes, ofBE, pow_word,
          zero_mul, zero_add]
    · obtain rfl : j = 8 := by omega
      have hmod : (9 * ws.length + 8 + 1) % 9 = 0 := by omega
      have hdiv : (9 * ws.length + 8 + 1) / 9 = ws.length + 1 := by omega
      rw [hmod, hdiv] at hsize ⊢
      refine ⟨w :: ws, by simp, rfl, ?_, ?_⟩
      · simp only [length_append, length_replicate, lt_irrefl, if_false,
          length_nil, length_wordBytes, length_cons]
        have : dig2bytes 0 = 0 := rfl
        omega
      · have hall : ∀ v ∈ w :: ws, v < 256 ^ sizeofDec1 := fun v hv => (hword v hv).trans digBase_lt
        simp only [lt_irrefl, if_false, append_nil, ofBytes_append, ofBytes_replicate_zero,
          ofBytes_flatMap_toBytes hall, zero_mul, zero_add]

end MariaDB.Strings
