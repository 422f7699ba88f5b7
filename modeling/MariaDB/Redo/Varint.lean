import Mathlib

/-!
# Variable-length integers of the redo log

The 1-to-5-byte integer encoding of `mtr0log.h` and its decoder in `log0recv.cc`.
Lengths, page identifiers and byte offsets of every redo log record use it, and
the decoder reads the length of an integer off its first byte alone.
-/
namespace MariaDB.Redo

open List Nat

def min2Byte : Nat := 1 <<< 7
def min3Byte : Nat := min2Byte + (1 <<< 14)
def min4Byte : Nat := min3Byte + (1 <<< 21)
def min5Byte : Nat := min4Byte + (1 <<< 28)

lemma min2Byte_eq : min2Byte = 128 := rfl
lemma min3Byte_eq : min3Byte = 16512 := rfl
lemma min4Byte_eq : min4Byte = 2113664 := rfl
lemma min5Byte_eq : min5Byte = 270549120 := rfl

/-- `static_cast<byte>`. -/
def toByte (i : Nat) : UInt8 := UInt8.ofNat i

@[simp] lemma toByte_toNat (i : Nat) : (toByte i).toNat = i % 256 := by simp [toByte]

/-- The byte at offset `k`; the callers only read inside the record. -/
def byteAt (l : List UInt8) (k : Nat) : Nat := (l.getD k 0).toNat

@[simp] lemma byteAt_cons_zero (b : UInt8) (l : List UInt8) : byteAt (b :: l) 0 = b.toNat := rfl
@[simp] lemma byteAt_cons_succ (b : UInt8) (l : List UInt8) (k : Nat) :
    byteAt (b :: l) (k + 1) = byteAt l k := rfl

def mlogEncodeVarint (i : Nat) : List UInt8 :=
  if i < min2Byte then [toByte i]
  else if i < min3Byte then
    let i := i - min2Byte
    [(0x80 : UInt8) ||| toByte (i >>> 8), toByte i]
  else if i < min4Byte then
    let i := i - min3Byte
    [(0xc0 : UInt8) ||| toByte (i >>> 16), toByte (i >>> 8), toByte i]
  else if i < min5Byte then
    let i := i - min4Byte
    [(0xe0 : UInt8) ||| toByte (i >>> 24), toByte (i >>> 16), toByte (i >>> 8), toByte i]
  else
    let i := i - min5Byte
    [0xf0, toByte (i >>> 24), toByte (i >>> 16), toByte (i >>> 8), toByte i]

/-- `std::countl_one()` of a byte, as the loop of the portable variant counts. -/
def countlOne (first : UInt8) : Nat := go 8 first.toNat
where
  go : Nat → Nat → Nat
    | 0, _ => 0
    | k + 1, f => if f.testBit 7 then go k (f * 2) + 1 else 0

def mlogDecodeVarintLength (first : UInt8) : Nat := 1 + countlOne first

def mlogDecodeError : Nat := 2 ^ 32 - 1

def mlogDecodeVarint (log : List UInt8) : Nat :=
  let i := byteAt log 0
  if i < min2Byte then i
  else if i < 0xc0 then min2Byte + ((i % 0x40) <<< 8 ||| byteAt log 1)
  else if i < 0xe0 then
    min3Byte + ((i % 0x20) <<< 16 ||| byteAt log 1 <<< 8 ||| byteAt log 2)
  else if i < 0xf0 then
    min4Byte + ((i % 0x10) <<< 24 ||| byteAt log 1 <<< 16 ||| byteAt log 2 <<< 8 ||| byteAt log 3)
  else if i = 0xf0 then
    let i := byteAt log 1 <<< 24 ||| byteAt log 2 <<< 16 ||| byteAt log 3 <<< 8 ||| byteAt log 4
    if i ≤ 2 ^ 32 - 1 - min5Byte then min5Byte + i else mlogDecodeError
  else mlogDecodeError

/-- The length of an encoded integer, as the writers compute it ahead of the encoding. -/
def varintSize (i : Nat) : Nat :=
  if i < min2Byte then 1 else if i < min3Byte then 2 else if i < min4Byte then 3
  else if i < min5Byte then 4 else 5

@[simp] lemma mlogEncodeVarint_length (i : Nat) : (mlogEncodeVarint i).length = varintSize i := by
  unfold mlogEncodeVarint varintSize
  split_ifs <;> rfl

lemma varintSize_pos (i : Nat) : 0 < varintSize i := by
  unfold varintSize; split_ifs <;> omega

lemma varintSize_le (i : Nat) : varintSize i ≤ 5 := by
  unfold varintSize; split_ifs <;> omega

lemma varintSize_le_three (h : i < min4Byte) : varintSize i ≤ 3 := by
  unfold varintSize; split_ifs <;> omega

/-! ## The first byte determines the length -/

lemma decodeVarintLength_lt : ∀ b : UInt8, (b.toNat < 0x80 → mlogDecodeVarintLength b = 1) ∧
    (0x80 ≤ b.toNat → b.toNat < 0xc0 → mlogDecodeVarintLength b = 2) ∧
    (0xc0 ≤ b.toNat → b.toNat < 0xe0 → mlogDecodeVarintLength b = 3) ∧
    (0xe0 ≤ b.toNat → b.toNat < 0xf0 → mlogDecodeVarintLength b = 4) := by decide +kernel

/-! ## Tag bits and payload bits do not overlap -/

lemma tag_or_toByte (tag : UInt8) (hk : n / 2 ^ s < 2 ^ k) (htag : tag.toNat % 2 ^ k = 0)
    (hfit : 2 ^ k ≤ 256) : (tag ||| toByte (n >>> s)).toNat = tag.toNat + n / 2 ^ s := by
  have h := Nat.two_pow_add_eq_or_of_lt hk (tag.toNat / 2 ^ k)
  rw [Nat.mul_div_cancel' (Nat.dvd_of_mod_eq_zero htag)] at h
  rw [UInt8.toNat_or, toByte_toNat, shiftRight_eq_div_pow, Nat.mod_eq_of_lt (by omega), ← h]

lemma shiftLeft_or (m : Nat) (hk : n < 2 ^ k) : m <<< k ||| n = m * 2 ^ k + n := by
  rw [shiftLeft_eq, mul_comm, Nat.two_pow_add_eq_or_of_lt hk]

/-- The decoder finds the end of an encoded integer and gives it back, whatever follows it. -/
lemma decode_encodeVarint (i : Nat) (l : List UInt8) :
    mlogDecodeVarintLength ((mlogEncodeVarint i ++ l).getD 0 0) = (mlogEncodeVarint i).length ∧
      (i < 2 ^ 32 → mlogDecodeVarint (mlogEncodeVarint i ++ l) = i) := by
  have h2 := min2Byte_eq
  have h3 := min3Byte_eq
  have h4 := min4Byte_eq
  have h5 := min5Byte_eq
  -- the first byte tells the width, and the payload bits are put together again
  have hbyte : ∀ n, (toByte n).toNat < 2 ^ 8 := fun n => (toByte n).toNat_lt
  have h24 (x j : Nat) : x <<< 24 ||| (toByte (j >>> 16)).toNat <<< 16 |||
      (toByte (j >>> 8)).toNat <<< 8 ||| (toByte j).toNat = x * 2 ^ 24 + j % 2 ^ 24 := by
    have ha := hbyte j
    have hb := hbyte (j >>> 8)
    have hc := hbyte (j >>> 16)
    rw [Nat.or_assoc, Nat.or_assoc, shiftLeft_or _ ha, shiftLeft_or (k := 16) _ (by omega),
      shiftLeft_or _ (by omega)]
    simp only [toByte_toNat, shiftRight_eq_div_pow]
    omega
  fun_cases mlogEncodeVarint with
  | case1 h =>
    have hfirst : (toByte i).toNat = i := by rw [toByte_toNat]; omega
    rw [cons_append, getD_cons_zero]
    refine ⟨(decodeVarintLength_lt _).1 (by omega), fun _ => ?_⟩
    rw [mlogDecodeVarint, byteAt_cons_zero, hfirst, if_pos h]
  | case2 h h' j =>
    have hfirst : _ = 0x80 + _ :=
      tag_or_toByte (n := j) (s := 8) (k := 6) 0x80 (by omega) rfl (by decide)
    refine ⟨(decodeVarintLength_lt _).2.1 (hfirst ▸ by omega) (hfirst ▸ by omega), fun _ => ?_⟩
    rw [cons_append, mlogDecodeVarint, byteAt_cons_zero, hfirst, if_neg (by omega),
      if_pos (by omega)]
    simp only [cons_append, byteAt_cons_succ, byteAt_cons_zero]
    rw [shiftLeft_or _ (hbyte _)]
    simp only [toByte_toNat]
    omega
  | case3 h h' h'' j =>
    have hfirst : _ = 0xc0 + _ :=
      tag_or_toByte (n := j) (s := 16) (k := 5) 0xc0 (by omega) rfl (by decide)
    refine ⟨(decodeVarintLength_lt _).2.2.1 (hfirst ▸ by omega) (hfirst ▸ by omega), fun _ => ?_⟩
    rw [cons_append, mlogDecodeVarint, byteAt_cons_zero, hfirst, if_neg (by omega),
      if_neg (by omega), if_pos (by omega)]
    simp only [cons_append, byteAt_cons_succ, byteAt_cons_zero]
    have ha := hbyte j
    have hb := hbyte (j >>> 8)
    rw [Nat.or_assoc, shiftLeft_or _ ha, shiftLeft_or _ (by omega)]
    simp only [toByte_toNat, shiftRight_eq_div_pow]
    omega
  | case4 h h' h'' h3 j =>
    have hfirst : _ = 0xe0 + _ :=
      tag_or_toByte (n := j) (s := 24) (k := 4) 0xe0 (by omega) rfl (by decide)
    refine ⟨(decodeVarintLength_lt _).2.2.2 (hfirst ▸ by omega) (hfirst ▸ by omega), fun _ => ?_⟩
    rw [cons_append, mlogDecodeVarint, byteAt_cons_zero, hfirst, if_neg (by omega),
      if_neg (by omega), if_neg (by omega), if_pos (by omega)]
    simp only [cons_append, byteAt_cons_succ, byteAt_cons_zero]
    rw [h24]
    omega
  | case5 h h' h'' h3 j =>
    refine ⟨(by decide : mlogDecodeVarintLength 0xf0 = 5), fun hi => ?_⟩
    have hv : _ = j := (h24 (toByte (j >>> 24)).toNat j).trans (by
      rw [toByte_toNat, shiftRight_eq_div_pow]
      omega)
    have hfirst : (0xf0 : UInt8).toNat = 0xf0 := rfl
    rw [mlogDecodeVarint]
    simp only [cons_append, byteAt_cons_zero, byteAt_cons_succ, hv, hfirst, -reducePow, -reduceSub]
    rw [if_neg (by omega), if_neg (by omega), if_neg (by omega), if_neg (by omega),
      if_pos trivial, if_pos (by omega)]
    omega

lemma decodeVarintLength_encode (i : Nat) (l : List UInt8) :
    mlogDecodeVarintLength ((mlogEncodeVarint i ++ l).getD 0 0) = varintSize i := by
  rw [← mlogEncodeVarint_length]
  exact (decode_encodeVarint i l).1

lemma decodeVarint_encode (hi : i < 2 ^ 32) (l : List UInt8) :
    mlogDecodeVarint (mlogEncodeVarint i ++ l) = i :=
  (decode_encodeVarint i l).2 hi

@[simp] lemma drop_varintSize (i : Nat) (l : List UInt8) :
    (mlogEncodeVarint i ++ l).drop (varintSize i) = l := by
  rw [← mlogEncodeVarint_length, drop_left]

end MariaDB.Redo
