import Mathlib

/-!
# Little-endian byte strings

`toLE n v` are the `n` low bytes of `v`, the least significant byte first, and `ofLE` is
the number that a byte string denotes.
-/
namespace MariaDB.Library

open Nat

def toLE : Nat → Nat → List UInt8
  | 0, _ => []
  | n + 1, v => UInt8.ofNat v :: toLE n (v / 256)

def ofLE : List UInt8 → Nat
  | [] => 0
  | b :: bs => b.toNat + 256 * ofLE bs

@[simp] lemma length_toLE (n v : Nat) : (toLE n v).length = n := by
  induction n generalizing v with
  | zero => rfl
  | succ n ih => simp [toLE, ih]

/-- Reading a number back keeps the bytes that were written. -/
lemma ofLE_toLE (n v : Nat) : ofLE (toLE n v) = v % 256 ^ n := by
  induction n generalizing v with
  | zero => simp [toLE, ofLE, mod_one]
  | succ n ih =>
    have hsplit : v % 256 ^ (n + 1) = v % 256 + 256 * (v / 256 % 256 ^ n) := by
      rw [pow_succ', mod_mul]
    rw [toLE, ofLE, ih, UInt8.toNat_ofNat', hsplit]

lemma ofLE_toLE_of_lt (h : v < 256 ^ n) : ofLE (toLE n v) = v := by
  rw [ofLE_toLE, mod_eq_of_lt h]

lemma ofLE_lt (bytes : List UInt8) : ofLE bytes < 256 ^ bytes.length := by
  induction bytes with
  | nil => simp [ofLE]
  | cons b bytes ih =>
    have hb := b.toNat_lt
    rw [ofLE, List.length_cons, pow_succ]
    omega

lemma ofLE_append (a b : List UInt8) : ofLE (a ++ b) = ofLE a + 256 ^ a.length * ofLE b := by
  induction a with
  | nil => simp [ofLE]
  | cons x a ih =>
    rw [List.cons_append, ofLE, ofLE, ih, List.length_cons, pow_succ]
    ring

lemma toLE_add (a b v : Nat) : toLE (a + b) v = toLE a v ++ toLE b (v / 256 ^ a) := by
  induction a generalizing v with
  | zero => simp [toLE]
  | succ a ih =>
    rw [add_right_comm, toLE, toLE, ih, Nat.div_div_eq_div_mul, ← pow_succ', List.cons_append]

lemma toLE_ofLE_add (bytes : List UInt8) (n v : Nat) :
    toLE (bytes.length + n) (ofLE bytes + 256 ^ bytes.length * v) = bytes ++ toLE n v := by
  induction bytes with
  | nil => simp [ofLE]
  | cons b bytes ih =>
    have hb := b.toNat_lt
    have hrest : (b.toNat + 256 * ofLE bytes + 256 ^ (bytes.length + 1) * v) / 256
        = ofLE bytes + 256 ^ bytes.length * v := by
      rw [pow_succ', mul_assoc, add_assoc, ← mul_add]
      omega
    have hbyte : UInt8.ofNat (b.toNat + 256 * ofLE bytes + 256 ^ (bytes.length + 1) * v) = b := by
      refine UInt8.toNat.inj ?_
      rw [UInt8.toNat_ofNat', pow_succ', mul_assoc]
      omega
    rw [List.length_cons, add_right_comm, toLE, ofLE, hrest, hbyte, ih, List.cons_append]

lemma toLE_mod (n v : Nat) : toLE n (v % 256 ^ n) = toLE n v := by
  induction n generalizing v with
  | zero => rfl
  | succ n ih =>
    have hbyte : UInt8.ofNat (v % 256 ^ (n + 1)) = UInt8.ofNat v := by
      refine UInt8.toNat.inj ?_
      rw [UInt8.toNat_ofNat', UInt8.toNat_ofNat', pow_succ', mod_mul_right_mod]
    rw [toLE, toLE, hbyte, pow_succ', mod_mul_right_div_self, ih]

end MariaDB.Library
