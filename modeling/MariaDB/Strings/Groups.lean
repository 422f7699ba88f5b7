import MariaDB.Strings.Encode

/-!
# Reading the binary format

The bytes of the binary format, without mask and inverted first bit, are the bytes of
groups: the digits before the full words of the integer part, the full words, and the
digits behind the full words of the fraction. `bin2decimal()` accepts some groups and
makes a decimal of them.
-/
namespace MariaDB.Strings

open Library List Option

structure Groups where
  lead : Nat
  ints : List Nat
  full : List Nat
  tail : Nat

namespace Groups

variable {precision scale : Nat} {g : Groups}

def bytes (precision scale : Nat) (g : Groups) : List UInt8 :=
  toBytes (dig2bytes ((precision - scale) % 9)) g.lead ++ g.ints.flatMap (toBytes sizeofDec1) ++
    (g.full.flatMap (toBytes sizeofDec1) ++ toBytes (dig2bytes (scale % 9)) g.tail)

structure Fits (precision scale : Nat) (g : Groups) : Prop where
  lead_lt : g.lead < 256 ^ dig2bytes ((precision - scale) % 9)
  length_ints : g.ints.length = (precision - scale) / 9
  ints_lt : ∀ w ∈ g.ints, w < 256 ^ sizeofDec1
  length_full : g.full.length = scale / 9
  full_lt : ∀ w ∈ g.full, w < 256 ^ sizeofDec1
  tail_lt : g.tail < 256 ^ dig2bytes (scale % 9)

def number (scale : Nat) (g : Groups) : Nat :=
  ofBE (256 ^ sizeofDec1) (g.lead :: g.ints ++ g.full) * 256 ^ dig2bytes (scale % 9) + g.tail

lemma Fits.length_bytes (h : g.Fits precision scale) :
    (g.bytes precision scale).length = decimalBinSize precision scale := by
  simp only [bytes, length_append, length_toBytes, length_wordBytes, h.length_ints,
    h.length_full, decimalBinSize, binSize_eq]
  omega

lemma Fits.ofBytes_bytes (h : g.Fits precision scale) :
    ofBytes (g.bytes precision scale) = g.number scale := by
  rw [bytes, ofBytes_append, ofBytes_append, ofBytes_append, ofBytes_toBytes, ofBytes_toBytes,
    ofBytes_flatMap_toBytes h.ints_lt, ofBytes_flatMap_toBytes h.full_lt,
    Nat.mod_eq_of_lt h.lead_lt, Nat.mod_eq_of_lt h.tail_lt, length_append, length_toBytes,
    length_wordBytes, length_wordBytes, pow_add, pow_word, pow_word, number, ofBE_append, ofBE]
  ring

lemma exists_words (n : Nat) {l : List UInt8} (hl : l.length = 4 * n) :
    ∃ ws : List Nat, ws.length = n ∧ (∀ w ∈ ws, w < 256 ^ sizeofDec1) ∧
      l = ws.flatMap (toBytes sizeofDec1) := by
  induction n generalizing l with
  | zero => exact ⟨[], rfl, by simp, length_eq_zero_iff.mp hl⟩
  | succ n ih =>
    obtain ⟨ws, hlen, hlt, heq⟩ := ih (l := l.drop 4) (by rw [length_drop]; omega)
    have htake : (l.take 4).length = 4 := by
      rw [length_take]
      omega
    refine ⟨ofBytes (l.take 4) :: ws, by simp [hlen], ?_, ?_⟩
    · intro w hw
      rcases mem_cons.mp hw with rfl | hw
      · have := ofBytes_lt (l.take 4)
        rwa [htake] at this
      · exact hlt w hw
    · have hword : toBytes sizeofDec1 (ofBytes (l.take 4)) = l.take 4 := by
        have := toBytes_ofBytes (l.take 4)
        rwa [htake] at this
      rw [flatMap_cons, hword, ← heq, take_append_drop]

lemma exists_toBytes {l : List UInt8} (hl : l.length = n) : ∃ x, x < 256 ^ n ∧ l = toBytes n x :=
  ⟨ofBytes l, hl ▸ ofBytes_lt l, by rw [← hl, toBytes_ofBytes]⟩

lemma exists_groups {l : List UInt8} (hl : l.length = decimalBinSize precision scale) :
    ∃ g : Groups, g.Fits precision scale ∧ l = g.bytes precision scale := by
  rw [decimalBinSize, binSize_eq, binSize_eq] at hl
  set a := dig2bytes ((precision - scale) % 9)
  set b := (precision - scale) / 9
  set c := scale / 9
  obtain ⟨lead, hlead, heq1⟩ := @exists_toBytes a (l.take a) (by simp; omega)
  obtain ⟨ints, hlen2, hlt2, heq2⟩ := @exists_words b ((l.drop a).take (4 * b)) (by simp; omega)
  obtain ⟨full, hlen3, hlt3, heq3⟩ := @exists_words c (((l.drop a).drop (4 * b)).take (4 * c))
    (by simp; omega)
  obtain ⟨tail, htail, heq4⟩ := @exists_toBytes (dig2bytes (scale % 9))
    (((l.drop a).drop (4 * b)).drop (4 * c)) (by simp; omega)
  refine ⟨⟨lead, ints, full, tail⟩, ⟨hlead, hlen2, hlt2, hlen3, hlt3, htail⟩, ?_⟩
  rw [bytes, ← heq1, ← heq2, ← heq3, ← heq4, append_assoc, take_append_drop,
    take_append_drop, take_append_drop]

end Groups

section Read

lemma miSintKorr_toBytes (hx : x < 256 ^ n) :
    miSintKorr (toBytes n x) = if 2 * x < 256 ^ n then (x : Int) else x - 256 ^ n := by
  simp [miSintKorr, ofBytes_toBytes, Nat.mod_eq_of_lt hx]

lemma xorMask_miSintKorr (hl : 0 < l.length) (mask : Bool) :
    xorMask (miSintKorr (l.map (· ^^^ maskByte mask))) mask = miSintKorr l := by
  cases mask with
  | false => simp [xorMask, maskByte]
  | true =>
    have hmap : l.map (· ^^^ maskByte true) = l.map (· ^^^ 255) := by simp [maskByte]
    have hinv := ofBytes_map_xor l
    have htwo := two_mul_half hl
    have hcast : (256 : Int) ^ l.length = ((2 * half l.length : Nat) : Int) := by
      rw [htwo]
      rfl
    rw [hmap, xorMask, if_pos rfl, miSintKorr, miSintKorr, length_map, hcast]
    split <;> split <;> omega

lemma miSintKorr_word (hw : w < 256 ^ sizeofDec1) :
    miSintKorr (toBytes sizeofDec1 w) % 2 ^ 32 = w ∧
      (w ≤ digMax → miSintKorr (toBytes sizeofDec1 w) = w) := by
  rw [miSintKorr_toBytes hw]
  unfold sizeofDec1 digMax digBase at *
  constructor
  · split <;> omega
  · intro hle
    rw [if_pos (by omega)]

lemma take_map_word (w : Nat) (rest : List UInt8) (mask : Bool) :
    ((toBytes sizeofDec1 w ++ rest).map (· ^^^ maskByte mask)).take sizeofDec1 =
      (toBytes sizeofDec1 w).map (· ^^^ maskByte mask) := by
  rw [map_append, take_left' (by simp)]

lemma drop_map_word (w : Nat) (rest : List UInt8) (mask : Bool) :
    ((toBytes sizeofDec1 w ++ rest).map (· ^^^ maskByte mask)).drop sizeofDec1 =
      rest.map (· ^^^ maskByte mask) := by
  rw [map_append, drop_left' (by simp)]

lemma readFracWords_eq (hws : ∀ w ∈ ws, w < 256 ^ sizeofDec1) (mask : Bool) (buf : List Nat)
    (rest : List UInt8) :
    readFracWords mask ws.length buf
        ((ws.flatMap (toBytes sizeofDec1) ++ rest).map (· ^^^ maskByte mask)) =
      if ∀ w ∈ ws, w ≤ digMax then some (buf ++ ws, rest.map (· ^^^ maskByte mask)) else none := by
  induction ws generalizing buf with
  | nil => simp [readFracWords]
  | cons w ws ih =>
    obtain ⟨hmod, hval⟩ := miSintKorr_word (hws w (by simp))
    have hlen : 0 < (toBytes sizeofDec1 w).length := by simp [sizeofDec1]
    rw [length_cons, readFracWords, flatMap_cons, append_assoc, take_map_word,
      drop_map_word, xorMask_miSintKorr hlen]
    by_cases hle : w ≤ digMax
    · rw [if_neg (by omega), hval hle, Int.toNat_natCast, ih fun v hv => hws v (by simp [hv])]
      simp [hle]
    · rw [if_pos (by omega), if_neg]
      intro hall
      exact hle (hall w (by simp))

lemma readIntWords_eq (hws : ∀ w ∈ ws, w < 256 ^ sizeofDec1) (mask : Bool) (buf : List Nat)
    (intg : Nat) (rest : List UInt8) :
    readIntWords mask ws.length buf intg
        ((ws.flatMap (toBytes sizeofDec1) ++ rest).map (· ^^^ maskByte mask)) =
      if ∀ w ∈ ws, w ≤ digMax then
        some (if buf = [] then
          (ws.dropWhile (· = 0), intg - 9 * (ws.takeWhile (· = 0)).length,
            rest.map (· ^^^ maskByte mask))
          else (buf ++ ws, intg, rest.map (· ^^^ maskByte mask)))
      else none := by
  induction ws generalizing buf intg with
  | nil =>
    by_cases hbuf : buf = []
    · simp [readIntWords, hbuf]
    · simp [readIntWords, hbuf]
  | cons w ws ih =>
    obtain ⟨hmod, hval⟩ := miSintKorr_word (hws w (by simp))
    have hlen : 0 < (toBytes sizeofDec1 w).length := by simp [sizeofDec1]
    have ih' := fun buf intg => ih (fun v hv => hws v (by simp [hv])) buf intg
    rw [length_cons, readIntWords, flatMap_cons, append_assoc, take_map_word,
      drop_map_word, xorMask_miSintKorr hlen]
    by_cases hle : w ≤ digMax
    · rw [if_neg (by omega), hval hle]
      by_cases hbuf : buf = []
      · by_cases hw : w = 0
        · rw [if_neg (by simp [hbuf, hw]), ih']
          have hsub : ∀ n, intg - 9 - 9 * n = intg - 9 * (n + 1) := by omega
          simp [hbuf, hw, digPerDec1, hsub]
        · rw [if_pos (by simp [hw]), Int.toNat_natCast, ih']
          simp [hbuf, hw, hle]
      · rw [if_pos (by simp [hbuf]), Int.toNat_natCast, ih']
        simp [hbuf, hle]
    · rw [if_pos (by omega), if_neg]
      intro hall
      exact hle (hall w (by simp))

end Read

namespace Groups

variable {precision scale : Nat} {g : Groups}

def tailWord (scale : Nat) (g : Groups) : Nat :=
  (miSintKorr (toBytes (dig2bytes (scale % 9)) g.tail) * powers10 (9 - scale % 9) % 2 ^ 32).toNat

/-- The groups that `bin2decimal()` accepts. -/
structure Accepted (precision scale : Nat) (g : Groups) : Prop where
  lead : 0 < (precision - scale) % 9 →
    2 * g.lead < 256 ^ dig2bytes ((precision - scale) % 9) ∧
      g.lead < 10 ^ ((precision - scale) % 9 + 1)
  ints : ∀ w ∈ g.ints, w ≤ digMax
  full : ∀ w ∈ g.full, w ≤ digMax
  tail : 0 < scale % 9 → g.tailWord scale ≤ digMax

/-- The decimal that `bin2decimal()` makes of the groups. -/
def decoded (precision scale : Nat) (mask : Bool) (g : Groups) : Decimal where
  intg := if 0 < (precision - scale) % 9 ∧ g.lead ≠ 0 then precision - scale
    else 9 * (g.ints.dropWhile (· = 0)).length
  frac := scale
  sign := mask
  buf := (if 0 < (precision - scale) % 9 ∧ g.lead ≠ 0 then g.lead :: g.ints
      else g.ints.dropWhile (· = 0)) ++ g.full ++
    if 0 < scale % 9 then [g.tailWord scale] else []

lemma lead_check {t lead : Nat} (ht : t < 9) (hlead : lead < 256 ^ dig2bytes t) :
    (miSintKorr (toBytes (dig2bytes t) lead) % 2 ^ 64 ≥ (powers10 (t + 1) : Int) ↔
      ¬(2 * lead < 256 ^ dig2bytes t ∧ lead < 10 ^ (t + 1))) ∧
    (2 * lead < 256 ^ dig2bytes t → miSintKorr (toBytes (dig2bytes t) lead) = lead) := by
  have hpow : 256 ^ dig2bytes t ≤ 256 ^ 4 :=
    Nat.pow_le_pow_right (by omega) (dig2bytes_le t (by omega))
  have hten : 10 ^ (t + 1) ≤ 10 ^ 9 := Nat.pow_le_pow_right (by omega) (by omega)
  grind [miSintKorr_toBytes, powers10]

lemma readFracx_eq (mask : Bool) (buf : List Nat) :
    readFracx mask (scale % 9) buf
        ((toBytes (dig2bytes (scale % 9)) g.tail).map (· ^^^ maskByte mask)) =
      if 0 < scale % 9 then
        if g.tailWord scale ≤ digMax then some (buf ++ [g.tailWord scale]) else none
      else some buf := by
  unfold readFracx tailWord
  split
  · rename_i h0
    rw [take_of_length_le (by simp), xorMask_miSintKorr
      (by simpa using dig2bytes_pos _ (by omega) h0), digPerDec1]
    simp only
    generalize miSintKorr _ * (powers10 _ : Int) = y
    have hbmod : Int.bmod y (2 ^ 32) =
        if y % 2 ^ 32 < 2147483648 then y % 2 ^ 32 else y % 2 ^ 32 - 2 ^ 32 := by
      rw [Int.bmod_def]
      norm_num
    have hmax : digMax = 999999999 := rfl
    by_cases hle : (y % 2 ^ 32).toNat ≤ digMax
    · have hval : Int.bmod y (2 ^ 32) = y % 2 ^ 32 := by rw [hbmod, if_pos (by omega)]
      rw [if_pos hle, hval, if_neg (by omega)]
    · rw [if_neg hle, if_pos (by omega)]
  · rfl

lemma readIntx_eq {t x : Nat} (ht : t < 9) (hx : x < 256 ^ dig2bytes t) (mask : Bool)
    (intg : Nat) (rest : List UInt8) :
    readIntx mask t intg ((toBytes (dig2bytes t) x ++ rest).map (· ^^^ maskByte mask)) =
      if 0 < t → 2 * x < 256 ^ dig2bytes t ∧ x < 10 ^ (t + 1) then
        some (if 0 < t ∧ x ≠ 0 then ([x], intg, rest.map (· ^^^ maskByte mask))
          else ([], intg - t, rest.map (· ^^^ maskByte mask)))
      else none := by
  unfold readIntx
  split
  · rename_i h0
    obtain ⟨hcheck, hval⟩ := lead_check ht hx
    have htake : ((toBytes (dig2bytes t) x ++ rest).map (· ^^^ maskByte mask)).take (dig2bytes t) =
        (toBytes (dig2bytes t) x).map (· ^^^ maskByte mask) := by
      rw [map_append, take_left' (by simp)]
    have hdrop : ((toBytes (dig2bytes t) x ++ rest).map (· ^^^ maskByte mask)).drop (dig2bytes t) =
        rest.map (· ^^^ maskByte mask) := by
      rw [map_append, drop_left' (by simp)]
    simp only [htake, hdrop]
    rw [xorMask_miSintKorr (by simpa using dig2bytes_pos t (by omega) h0)]
    simp only [hcheck, h0, true_implies, true_and]
    by_cases hok : 2 * x < 256 ^ dig2bytes t ∧ x < 10 ^ (t + 1)
    · rw [if_neg (by simpa using hok), if_pos hok, hval hok.1]
      by_cases h : x = 0 <;> simp [h]
    · rw [if_pos hok, if_neg hok]
  · rename_i h0
    obtain rfl : t = 0 := by omega
    simp [dig2bytes, toBytes]

lemma readFracs_eq (hg : g.Fits precision scale) (mask : Bool) (buf : List Nat) (intg : Nat)
    (d : Decimal) :
    (do
      let x ← readFracWords mask g.full.length buf ((g.full.flatMap (toBytes sizeofDec1) ++
        toBytes (dig2bytes (scale % 9)) g.tail).map (· ^^^ maskByte mask))
      let buf ← readFracx mask (scale % 9) x.1 x.2
      pure (⟨intg, scale, mask, buf⟩ : Decimal)) = some d ↔
    ((∀ w ∈ g.full, w ≤ digMax) ∧ (0 < scale % 9 → g.tailWord scale ≤ digMax)) ∧
      d = ⟨intg, scale, mask,
        buf ++ g.full ++ if 0 < scale % 9 then [g.tailWord scale] else []⟩ := by
  rw [readFracWords_eq hg.full_lt]
  by_cases hfull : ∀ w ∈ g.full, w ≤ digMax
  · rw [if_pos hfull]
    simp only [bind_eq_bind, Option.bind_some, readFracx_eq]
    by_cases h0 : 0 < scale % 9
    · by_cases htail : g.tailWord scale ≤ digMax
      · simp [h0, htail, eq_true hfull, eq_comm]
      · simp [h0, htail]
    · simp [h0, eq_true hfull, eq_comm]
  · simp [hfull]

/-- `bin2decimal()` reads the groups. -/
lemma readGroups_eq (hg : g.Fits precision scale) (mask : Bool) (d : Decimal) :
    readGroups mask ((precision - scale) / 9) ((precision - scale) % 9) (scale / 9) (scale % 9)
        ((g.bytes precision scale).map (· ^^^ maskByte mask)) = some d ↔
      g.Accepted precision scale ∧ d = g.decoded precision scale mask := by
  have hbytes : g.bytes precision scale =
      toBytes (dig2bytes ((precision - scale) % 9)) g.lead ++
        (g.ints.flatMap (toBytes sizeofDec1) ++
        (g.full.flatMap (toBytes sizeofDec1) ++ toBytes (dig2bytes (scale % 9)) g.tail)) := by
    rw [bytes, append_assoc]
  have hintg : (precision - scale) / 9 * digPerDec1 + (precision - scale) % 9 =
      precision - scale := by
    unfold digPerDec1
    omega
  have hfrac : scale / 9 * digPerDec1 + scale % 9 = scale := by
    unfold digPerDec1
    omega
  simp only [readGroups, hintg, hfrac]
  rw [hbytes, readIntx_eq (by omega) hg.lead_lt, ← hg.length_ints, ← hg.length_full]
  by_cases hlead : 0 < (precision - scale) % 9 →
      2 * g.lead < 256 ^ dig2bytes ((precision - scale) % 9) ∧
        g.lead < 10 ^ ((precision - scale) % 9 + 1)
  · rw [if_pos hlead]
    by_cases hints : ∀ w ∈ g.ints, w ≤ digMax
    · have hacc : g.Accepted precision scale ↔
          (∀ w ∈ g.full, w ≤ digMax) ∧ (0 < scale % 9 → g.tailWord scale ≤ digMax) :=
        ⟨fun h => ⟨h.full, h.tail⟩, fun h => ⟨hlead, hints, h.1, h.2⟩⟩
      rw [hacc]
      by_cases hskip : 0 < (precision - scale) % 9 ∧ g.lead ≠ 0
      · -- the first group is written
        have hread := readFracs_eq hg mask (g.lead :: g.ints) (precision - scale) d
        simp only [if_pos hskip, bind_eq_bind, Option.bind_some, readIntWords_eq hg.ints_lt,
          if_pos hints, cons_ne_nil, if_false, cons_append, nil_append,
          decoded] at hread ⊢
        exact hread
      · -- the words are written from the first one that is not zero on
        have hlen : precision - scale - (precision - scale) % 9 -
            9 * (g.ints.takeWhile (· = 0)).length = 9 * (g.ints.dropWhile (· = 0)).length := by
          have hsplit := congrArg length (takeWhile_append_dropWhile
            (p := fun x => decide (x = 0)) (l := g.ints))
          rw [length_append, hg.length_ints] at hsplit
          omega
        have hread := readFracs_eq hg mask (g.ints.dropWhile (· = 0))
          (9 * (g.ints.dropWhile (· = 0)).length) d
        simp only [if_neg hskip, bind_eq_bind, Option.bind_some, readIntWords_eq hg.ints_lt,
          if_pos hints, if_true, decoded, hlen] at hread ⊢
        exact hread
    · have hnot : ¬ g.Accepted precision scale := fun h => hints h.ints
      split_ifs <;> simp only [bind_eq_bind, Option.bind_some, readIntWords_eq hg.ints_lt,
        if_neg hints, bind_none, reduceCtorEq, hnot, false_and]
  · rw [if_neg hlead]
    simp only [bind_none, bind_eq_bind, reduceCtorEq, false_iff]
    exact fun h => hlead h.1.lead

lemma words_eq_roundUp (n : Nat) : (n / 9 + if 0 < n % 9 then 1 else 0) = roundUp n := by
  rw [roundUp_eq]
  split <;> omega

/-- `bin2decimal()` into a decimal that has room for all words. -/
lemma bin2decimal_eq (hlen : roundUp (precision - scale) + roundUp scale ≤ len)
    (hg : g.Fits precision scale)
    (hsrc : invertFirst src = (g.bytes precision scale).map (· ^^^ maskByte mask))
    (hmask : mask = decide (src.headD 0 &&& 128 = 0)) :
    ((bin2decimal src len precision scale).2 = .ok ↔ g.Accepted precision scale) ∧
    (g.Accepted precision scale → (bin2decimal src len precision scale).1 =
      if (g.decoded precision scale mask).intg = 0 ∧ scale = 0 then decimalMakeZero
      else g.decoded precision scale mask) := by
  have hlength : src.length = decimalBinSize precision scale := by
    have := congrArg length hsrc
    rwa [length_invertFirst, length_map, hg.length_bytes] at this
  have hfix : fixIntgFracError len (roundUp (precision - scale)) (roundUp scale) =
      (roundUp (precision - scale), roundUp scale, .ok) := by
    rw [fixIntgFracError, if_neg (by omega)]
  have hread := readGroups_eq hg mask
  have hnine : digPerDec1 = 9 := rfl
  have hmod : ∀ n, n - n / 9 * 9 = n % 9 := by omega
  simp only [bin2decimal, hnine, hmod, words_eq_roundUp, hfix, if_true,
    take_of_length_le hlength.le, hsrc, ← hmask]
  cases hgroups : readGroups mask ((precision - scale) / 9) ((precision - scale) % 9) (scale / 9)
      (scale % 9) ((g.bytes precision scale).map (· ^^^ maskByte mask)) with
  | none =>
    have hnot : ¬g.Accepted precision scale := by
      intro hacc
      have := (hread _).mpr ⟨hacc, rfl⟩
      rw [hgroups] at this
      cases this
    simp [hnot]
  | some d =>
    obtain ⟨hacc, rfl⟩ := (hread d).mp hgroups
    simp only [hacc, true_implies]
    exact ⟨trivial, rfl⟩

end Groups

end MariaDB.Strings
