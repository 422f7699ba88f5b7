import MariaDB.Library.Frame
import MariaDB.Library.LittleEndian

/-!
# Compressed integers

A 64-bit number is written with one to nine bytes. The three low bits of the first byte
hold the number of bytes less one; 7 stands for nine bytes, and eight are never used.
-/
namespace MariaDB.Binlog

open Library (Frame toLE ofLE)
open Nat

def comprIntNeeded (v : Nat) : Nat := (3 + Nat.log2 (v ||| 1)) / 8 + 1

def comprIntBytes (v : Nat) : Nat := comprIntNeeded v ||| comprIntNeeded v >>> 3
def comprIntLen (v : Nat) : Nat := comprIntNeeded v - 1 - (comprIntNeeded v - 1) >>> 3

def comprIntWrite (v : Nat) : List UInt8 :=
  toLE (comprIntBytes v) (comprIntLen v ||| v <<< 3)

def comprIntRead (m : Frame) (p : Nat) : Nat × Nat :=
  let len := (m p).toNat &&& 7
  let bytes := len + 1 + (len + 1) >>> 3
  (ofLE (m.slice p bytes) >>> 3 % 2 ^ 64, p + bytes)

lemma comprIntNeeded_le (hk : 0 < k) : comprIntNeeded v ≤ k ↔ v < 2 ^ (8 * k - 3) := by
  have hne : v ||| 1 ≠ 0 := by
    intro h
    exact absurd (or_eq_zero_iff.mp h).2 (by decide)
  have hor : v ||| 1 < 2 ^ (8 * k - 3) ↔ v < 2 ^ (8 * k - 3) :=
    ⟨left_le_or.trans_lt, fun h => or_lt_two_pow h (Nat.one_lt_two_pow (by omega))⟩
  rw [← hor, ← log2_lt hne, comprIntNeeded]
  omega

lemma comprIntNeeded_bounds (hv : v < 2 ^ 64) :
    1 ≤ comprIntNeeded v ∧ comprIntNeeded v ≤ 9 ∧ 8 * (v + 1) ≤ 256 ^ comprIntNeeded v := by
  have hpos : 1 ≤ comprIntNeeded v := Nat.le_add_left ..
  have hlt := (comprIntNeeded_le hpos).mp le_rfl
  refine ⟨hpos, (comprIntNeeded_le (by decide)).mpr (hv.trans (by decide)), ?_⟩
  calc 8 * (v + 1)
    _ ≤ 2 ^ 3 * 2 ^ (8 * comprIntNeeded v - 3) := by omega
    _ = 2 ^ (8 * comprIntNeeded v) := by rw [← pow_add, Nat.add_sub_cancel' (by omega)]
    _ = 256 ^ comprIntNeeded v := pow_mul 2 8 _

/-- The encoded length determines the number of bytes, which are enough. -/
lemma comprIntLen_bounds (hv : v < 2 ^ 64) :
    comprIntLen v < 8 ∧ comprIntBytes v = comprIntLen v + 1 + (comprIntLen v + 1) >>> 3 ∧
      comprIntNeeded v ≤ comprIntBytes v ∧ comprIntBytes v ≤ 9 := by
  obtain ⟨h1, h9, -⟩ := comprIntNeeded_bounds hv
  unfold comprIntLen comprIntBytes
  generalize comprIntNeeded v = n at *
  interval_cases n <;> decide

lemma comprIntLen_or (hv : v < 2 ^ 64) : comprIntLen v ||| v <<< 3 = 8 * v + comprIntLen v := by
  rw [Nat.or_comm, ← Nat.shiftLeft_add_eq_or_of_lt (comprIntLen_bounds hv).1, Nat.shiftLeft_eq,
    mul_comm]

@[simp] lemma length_comprIntWrite (v : Nat) : (comprIntWrite v).length = comprIntBytes v := by
  simp [comprIntWrite]

/-- A value is read back, and the position moves past it. -/
lemma comprIntRead_write (hv : v < 2 ^ 64) (h : m.slice p (comprIntBytes v) = comprIntWrite v) :
    comprIntRead m p = (v, p + comprIntBytes v) := by
  obtain ⟨hlen, hbytes, hneeded, -⟩ := comprIntLen_bounds hv
  obtain ⟨hpos, -, hfit⟩ := comprIntNeeded_bounds hv
  -- the first byte holds the length
  have hfirst : (m p).toNat &&& 7 = comprIntLen v := by
    have hget := congrArg (fun l => l.getD 0 0) h
    rw [Frame.slice_getD _ _ (by omega : 0 < comprIntBytes v), add_zero] at hget
    obtain ⟨n, hn⟩ := exists_eq_succ_of_ne_zero (by omega : comprIntBytes v ≠ 0)
    rw [hget, comprIntWrite, hn, toLE, comprIntLen_or hv]
    have hand : (8 * v + comprIntLen v) % 2 ^ 8 &&& 7 = (8 * v + comprIntLen v) % 2 ^ 8 % 8 :=
      and_two_pow_sub_one_eq_mod _ 3
    rw [List.getD_cons_zero, UInt8.toNat_ofNat', hand]
    omega
  have hlt : 8 * v + comprIntLen v < 256 ^ comprIntBytes v := by
    have hmono : 256 ^ comprIntNeeded v ≤ 256 ^ comprIntBytes v :=
      Nat.pow_le_pow_right (by decide) hneeded
    omega
  unfold comprIntRead
  simp only [hfirst, ← hbytes, h, comprIntWrite, comprIntLen_or hv, Library.ofLE_toLE_of_lt hlt]
  rw [shiftRight_eq_div_pow, Prod.mk.injEq]
  refine ⟨?_, rfl⟩
  omega

end MariaDB.Binlog
