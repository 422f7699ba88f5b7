import Mathlib

/-!
# Linear hashing

`LINEAR HASH` takes as many bits of the hash value as it needs for the number of partitions,
and one bit less where this gives a partition that there is not. One more partition takes rows
from one other partition only.
-/
namespace MariaDB.Partition

open Nat

/-- The loop does not end if `mask`, of 32 bits, becomes 0. -/
def linearHashMaskLoop (numParts : Nat) : Nat → Nat → Option Nat
  | 0, _ => none
  | fuel + 1, mask =>
    if mask < numParts then linearHashMaskLoop numParts fuel (mask * 2 % 2 ^ 32) else some mask

def setLinearHashMask (numParts : Nat) : Option Nat :=
  (linearHashMaskLoop numParts 33 1).map fun mask => (mask - 1) % 2 ^ 16

def getPartIdFromLinearHash (hashValue : BitVec 64) (mask numParts : Nat) : Nat :=
  let partId := (hashValue &&& BitVec.ofNat 64 mask).toNat % 2 ^ 32
  if partId ≥ numParts then
    let newMask := ((mask + 1) % 2 ^ 32 / 2 + (2 ^ 32 - 1)) % 2 ^ 32
    (hashValue &&& BitVec.ofNat 64 newMask).toNat % 2 ^ 32
  else partId

/-- With `n` partitions all ids are below `n`. One more partition leaves the id of a hash value or
moves it from one partition to the new one. -/
def GrowsByOne (n : Nat) : Prop :=
  ∃ mask mask', setLinearHashMask n = some mask ∧ setLinearHashMask (n + 1) = some mask' ∧
    ∀ hashValue, getPartIdFromLinearHash hashValue mask n < n ∧
      (getPartIdFromLinearHash hashValue mask' (n + 1) = getPartIdFromLinearHash hashValue mask n ∨
        getPartIdFromLinearHash hashValue mask n = n - 2 ^ n.log2 ∧
          getPartIdFromLinearHash hashValue mask' (n + 1) = n)

variable {n : Nat}

lemma linearHashMaskLoop_eq (hn : n ≤ 2 ^ 31) (hfuel : fuel + j = 33) (hj : j ≤ clog 2 n) :
    linearHashMaskLoop n fuel (2 ^ j) = some (2 ^ clog 2 n) := by
  induction fuel generalizing j with
  | zero =>
    have := clog_le_of_le_pow hn
    omega
  | succ fuel ih =>
    rw [linearHashMaskLoop]
    split_ifs with hlt
    · rw [← pow_succ, mod_eq_of_lt (by omega)]
      exact ih (by omega) ((lt_clog_iff_pow_lt one_lt_two).mpr hlt)
    · rw [hj.antisymm (clog_le_of_le_pow (not_lt.mp hlt))]

lemma setLinearHashMask_eq (hn : n ≤ 2 ^ 31) :
    setLinearHashMask n = some (2 ^ min (clog 2 n) 16 - 1) := by
  rw [setLinearHashMask, ← pow_zero 2, linearHashMaskLoop_eq hn rfl (zero_le _)]
  rcases le_total (clog 2 n) 16 with h | h
  · have hle : 2 ^ clog 2 n ≤ 2 ^ 16 := Nat.pow_le_pow_right two_pos h
    rw [min_eq_left h, Option.map_some, mod_eq_of_lt (by omega)]
  · obtain ⟨j, hj⟩ := Nat.exists_eq_add_of_le h
    have hpos := Nat.two_pow_pos j
    rw [min_eq_right h, hj, pow_add, Option.map_some]
    congr 1
    omega

lemma toNat_and_mask (hashValue : BitVec 64) (hw : w ≤ 16) :
    (hashValue &&& BitVec.ofNat 64 (2 ^ w - 1)).toNat % 2 ^ 32 = hashValue.toNat % 2 ^ w := by
  have hle : 2 ^ w ≤ 2 ^ 16 := Nat.pow_le_pow_right (by decide) hw
  have hlt : hashValue.toNat % 2 ^ w < 2 ^ w := mod_lt _ (Nat.two_pow_pos w)
  rw [BitVec.toNat_and, BitVec.toNat_ofNat, mod_eq_of_lt (by omega : 2 ^ w - 1 < 2 ^ 64),
    and_two_pow_sub_one_eq_mod, mod_eq_of_lt (by omega)]

lemma getPartIdFromLinearHash_eq (hpos : 0 < n) (hashValue : BitVec 64) (hw : w ≤ 16) :
    getPartIdFromLinearHash hashValue (2 ^ w - 1) n =
      if hashValue.toNat % 2 ^ w < n then hashValue.toNat % 2 ^ w
      else hashValue.toNat % 2 ^ (w - 1) := by
  simp only [getPartIdFromLinearHash, toNat_and_mask hashValue hw]
  split_ifs with hge hlt hlt
  · omega
  · cases w with
    | zero => omega
    | succ w =>
      have hle : 2 ^ w ≤ 2 ^ 16 := Nat.pow_le_pow_right (by decide) (by omega)
      have hmask : ((2 ^ (w + 1) - 1 + 1) % 2 ^ 32 / 2 + (2 ^ 32 - 1)) % 2 ^ 32 = 2 ^ w - 1 := by
        have hpos : 0 < 2 ^ w := Nat.two_pow_pos _
        omega
      rw [hmask, toNat_and_mask _ (by omega), Nat.add_sub_cancel]
  · rfl
  · omega

theorem linearHash_spec (hpos : 0 < n) (hn : n < 2 ^ 31) : GrowsByOne n := by
  refine ⟨_, _, setLinearHashMask_eq hn.le, setLinearHashMask_eq hn, fun hashValue => ?_⟩
  rw [getPartIdFromLinearHash_eq hpos _ (min_le_right ..),
    getPartIdFromLinearHash_eq n.succ_pos _ (min_le_right ..)]
  generalize hashValue.toNat = x
  have hlt := fun j => mod_lt x (Nat.two_pow_pos j)
  have hsplit : ∀ j, x % 2 ^ (j + 1) = x % 2 ^ j ∨ x % 2 ^ (j + 1) = x % 2 ^ j + 2 ^ j := by
    intro j
    rw [mod_pow_succ]
    rcases mod_two_eq_zero_or_one (x / 2 ^ j) with h | h <;> simp [h]
  have hmono : clog 2 n ≤ clog 2 (n + 1) := clog_mono_right 2 n.le_succ
  rcases lt_or_ge n (2 ^ 16) with hsmall | hbig
  · have hle := clog_le_of_le_pow hsmall
    rw [min_eq_left (hmono.trans hle), min_eq_left hle]
    rcases (le_pow_clog one_lt_two n).lt_or_eq with h | h
    · -- no bit more than for `n`
      rw [(clog_le_of_le_pow h).antisymm hmono]
      obtain ⟨j, hj⟩ : ∃ j, clog 2 n = j + 1 :=
        exists_eq_add_one_of_ne_zero fun h0 => by rw [h0] at h; omega
      have hlow : 2 ^ j < n := pow_lt_of_lt_clog (by omega)
      rw [hj] at h ⊢
      rw [(log2_eq_iff hpos.ne').mpr ⟨hlow.le, h⟩, Nat.add_sub_cancel]
      have := hlt j
      have := hsplit j
      split_ifs <;> omega
    · generalize clog 2 n = k at *
      subst h
      have hnext : clog 2 (2 ^ k + 1) = k + 1 :=
        (clog_le_of_le_pow (by rw [pow_succ]; omega)).antisymm
          ((lt_clog_iff_pow_lt one_lt_two).mpr (lt_add_one _))
      rw [hnext, log2_two_pow, Nat.add_sub_cancel]
      have := hlt k
      have := hsplit k
      split_ifs <;> omega
  · -- all bits of the mask are in use
    have h16 : 16 ≤ clog 2 n := clog_pow 2 16 one_lt_two ▸ clog_mono_right 2 hbig
    have hid := hlt 16
    rw [min_eq_right h16, min_eq_right (h16.trans hmono), if_pos (by omega), if_pos (by omega)]
    exact ⟨by omega, .inl rfl⟩

theorem linearHash_spec_three : GrowsByOne 3 := linearHash_spec (by decide) (by decide)

end MariaDB.Partition
