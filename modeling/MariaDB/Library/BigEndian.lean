import Mathlib

/-!
# Big-endian numerals and byte strings

`ofBE b ds` is the number with the digits `ds` in base `b`, the most significant digit
first. Byte strings are numerals in base 256: `toBytes n x` are the `n` low bytes of
`x`, and two byte strings of one length compare by `memcmp` as their numbers do.
-/
namespace MariaDB.Library

open List

/-- The number with the given digits, the most significant one first. -/
def ofBE (b : Nat) : List Nat → Nat
  | [] => 0
  | d :: ds => d * b ^ ds.length + ofBE b ds

section ofBE

variable {b b' : Nat} {xs ys : List Nat}

@[simp] lemma ofBE_nil : ofBE b [] = 0 := rfl

@[simp] lemma ofBE_singleton (d : Nat) : ofBE b [d] = d := by simp [ofBE]

lemma ofBE_append (xs ys : List Nat) :
    ofBE b (xs ++ ys) = ofBE b xs * b ^ ys.length + ofBE b ys := by
  induction xs with
  | nil => simp
  | cons x xs ih =>
    simp only [cons_append, ofBE, ih, length_append, pow_add]
    ring

@[simp] lemma ofBE_replicate_zero (n : Nat) : ofBE b (replicate n 0) = 0 := by
  induction n with
  | zero => rfl
  | succ n ih => simp [replicate_succ, ofBE, ih]

lemma ofBE_lt (h : ∀ x ∈ xs, x < b) : ofBE b xs < b ^ xs.length := by
  induction xs with
  | nil => simp
  | cons x xs ih =>
    have hx := h x (by simp)
    have hxs := ih fun y hy => h y (by simp [hy])
    calc x * b ^ xs.length + ofBE b xs
      _ < (x + 1) * b ^ xs.length := by rw [add_mul, one_mul]; omega
      _ ≤ b * b ^ xs.length := Nat.mul_le_mul_right _ hx
      _ = b ^ (x :: xs).length := by rw [length_cons, pow_succ']

lemma lex_lt_iff {m x y u v : Nat} (hu : u < m) (hv : v < m) :
    x * m + u < y * m + v ↔ x < y ∨ x = y ∧ u < v := by
  rcases lt_trichotomy x y with h | rfl | h
  · have : (x + 1) * m ≤ y * m := Nat.mul_le_mul_right m h
    rw [add_mul] at this
    omega
  · simp
  · have : (y + 1) * m ≤ x * m := Nat.mul_le_mul_right m h
    rw [add_mul] at this
    omega

lemma lex_eq_iff {m x y u v : Nat} (hu : u < m) (hv : v < m) :
    x * m + u = y * m + v ↔ x = y ∧ u = v := by
  have hlt := lex_lt_iff (x := x) (y := y) hu hv
  have hgt := lex_lt_iff (x := y) (y := x) hv hu
  omega

lemma ofBE_lt_iff (hlen : xs.length = ys.length) (hx : ∀ x ∈ xs, x < b) (hy : ∀ y ∈ ys, y < b) :
    ofBE b xs < ofBE b ys ↔ xs < ys := by
  induction xs generalizing ys with
  | nil =>
    obtain rfl := length_eq_zero_iff.mp hlen.symm
    simp
  | cons x xs ih =>
    cases ys with
    | nil => cases hlen
    | cons y ys =>
      have hlen : xs.length = ys.length := Nat.succ.inj hlen
      have hx' : ∀ z ∈ xs, z < b := fun z hz => hx z (by simp [hz])
      have hy' : ∀ z ∈ ys, z < b := fun z hz => hy z (by simp [hz])
      have hlt := ofBE_lt hx'
      rw [hlen] at hlt
      rw [ofBE, ofBE, hlen, lex_lt_iff hlt (ofBE_lt hy'), ih hlen hx' hy', cons_lt_cons_iff]

lemma ofBE_inj (hlen : xs.length = ys.length) (hx : ∀ x ∈ xs, x < b) (hy : ∀ y ∈ ys, y < b) :
    ofBE b xs = ofBE b ys ↔ xs = ys := by
  constructor
  · intro heq
    rcases lt_trichotomy xs ys with h | h | h
    · exact absurd ((ofBE_lt_iff hlen hx hy).mpr h) (by omega)
    · exact h
    · exact absurd ((ofBE_lt_iff hlen.symm hy hx).mpr h) (by omega)
  · rintro rfl
    rfl

lemma ofBE_pad (n : Nat) (xs : List Nat) : ofBE b (replicate n 0 ++ xs) = ofBE b xs := by
  simp [ofBE_append]

section

variable (hb : 0 < b) (hb' : 0 < b') (hx : ∀ x ∈ xs, x < b ∧ x < b') (hy : ∀ y ∈ ys, y < b ∧ y < b')
include hb hb' hx hy

/-- The base does not matter for the order, nor do leading zeros. -/
lemma ofBE_lt_ofBE_iff : ofBE b xs < ofBE b ys ↔ ofBE b' xs < ofBE b' ys := by
  have hlen : (replicate ys.length 0 ++ xs).length = (replicate xs.length 0 ++ ys).length := by
    simp [add_comm]
  have hpad : ∀ (n c : Nat) (zs : List Nat), 0 < c → (∀ z ∈ zs, z < c) →
      ∀ z ∈ replicate n 0 ++ zs, z < c := by
    intro n c zs hc hzs z hz
    rcases mem_append.mp hz with hz | hz
    · rwa [eq_of_mem_replicate hz]
    · exact hzs z hz
  rw [← ofBE_pad ys.length xs, ← ofBE_pad xs.length ys, ← ofBE_pad (b := b') ys.length xs,
    ← ofBE_pad (b := b') xs.length ys,
    ofBE_lt_iff hlen (hpad _ _ _ hb fun x h => (hx x h).1) (hpad _ _ _ hb fun y h => (hy y h).1),
    ofBE_lt_iff hlen (hpad _ _ _ hb' fun x h => (hx x h).2) (hpad _ _ _ hb' fun y h => (hy y h).2)]

lemma ofBE_eq_ofBE_iff : ofBE b xs = ofBE b ys ↔ ofBE b' xs = ofBE b' ys := by
  have hlt := ofBE_lt_ofBE_iff hb hb' hx hy
  have hgt := ofBE_lt_ofBE_iff hb hb' hy hx
  omega

end

end ofBE

def cmpSign {α : Type*} [LinearOrder α] (x y : α) : Int :=
  if x < y then -1 else if x = y then 0 else 1

section cmpSign

variable {α β : Type*} [LinearOrder α] [LinearOrder β] {x y : α} {u v : β}

lemma cmpSign_congr (hlt : x < y ↔ u < v) (heq : x = y ↔ u = v) : cmpSign x y = cmpSign u v := by
  simp [cmpSign, hlt, heq]

lemma cmpSign_eq_neg_one : cmpSign x y = -1 ↔ x < y := by
  unfold cmpSign
  split_ifs with hlt heq <;> simp [hlt]

lemma cmpSign_of_gt (h : y < x) : cmpSign x y = 1 := by
  simp [cmpSign, h.not_gt, h.ne']

lemma cmpSign_eq_zero : cmpSign x y = 0 ↔ x = y := by
  unfold cmpSign
  split_ifs with hlt heq
  · simp [hlt.ne]
  · simp [heq]
  · simp [heq]

lemma cmpSign_swap (x y : α) : cmpSign y x = -cmpSign x y := by
  grind [cmpSign]

lemma cmpSign_lex {m x y u v : Nat} (hu : u < m) (hv : v < m) :
    cmpSign (x * m + u) (y * m + v) = if x = y then cmpSign u v else cmpSign x y := by
  have hlt := lex_lt_iff (x := x) (y := y) hu hv
  have heq := lex_eq_iff (x := x) (y := y) hu hv
  split
  · rename_i hxy
    exact cmpSign_congr (by rw [hlt]; simp [hxy]) (by rw [heq]; simp [hxy])
  · rename_i hxy
    exact cmpSign_congr (by rw [hlt]; simp [hxy]) (by rw [heq]; simp [hxy])

end cmpSign

def ofBytes (l : List UInt8) : Nat := ofBE 256 (l.map (·.toNat))

def toBytes : Nat → Nat → List UInt8
  | 0, _ => []
  | n + 1, x => UInt8.ofNat (x / 256 ^ n) :: toBytes n x

def memcmp : List UInt8 → List UInt8 → Int
  | a :: as, b :: bs => if a = b then memcmp as bs else if a < b then -1 else 1
  | _, _ => 0

section Bytes

variable {l l' : List UInt8}

@[simp] lemma ofBytes_nil : ofBytes [] = 0 := rfl

lemma ofBytes_cons (a : UInt8) (l : List UInt8) :
    ofBytes (a :: l) = a.toNat * 256 ^ l.length + ofBytes l := by
  simp [ofBytes, ofBE]

lemma ofBytes_append (l l' : List UInt8) :
    ofBytes (l ++ l') = ofBytes l * 256 ^ l'.length + ofBytes l' := by
  simp [ofBytes, ofBE_append]

lemma toNat_lt_of_mem_map (h : x ∈ l.map (·.toNat)) : x < 256 := by
  obtain ⟨a, -, rfl⟩ := mem_map.mp h
  exact a.toNat_lt

lemma ofBytes_lt (l : List UInt8) : ofBytes l < 256 ^ l.length := by
  have h := @ofBE_lt 256 (l.map (·.toNat)) fun x h => toNat_lt_of_mem_map h
  simpa [ofBytes] using h

lemma ofBytes_inj (hlen : l.length = l'.length) : ofBytes l = ofBytes l' ↔ l = l' := by
  rw [ofBytes, ofBytes, ofBE_inj (by simpa using hlen) (fun x h => toNat_lt_of_mem_map h)
    fun x h => toNat_lt_of_mem_map h]
  exact (map_injective_iff.mpr fun a b h => UInt8.toNat_inj.mp h).eq_iff

@[simp] lemma ofBytes_replicate_zero (n : Nat) : ofBytes (replicate n 0) = 0 := by
  simp [ofBytes]

@[simp] lemma length_toBytes (n x : Nat) : (toBytes n x).length = n := by
  induction n with
  | zero => rfl
  | succ n ih => simp [toBytes, ih]

lemma ofBytes_toBytes (n x : Nat) : ofBytes (toBytes n x) = x % 256 ^ n := by
  induction n with
  | zero => simp [toBytes, Nat.mod_one]
  | succ n ih =>
    rw [toBytes, ofBytes_cons, ih, length_toBytes, pow_succ, Nat.mod_mul]
    simp
    ring

lemma toBytes_ofBytes (l : List UInt8) : toBytes l.length (ofBytes l) = l := by
  refine (ofBytes_inj (by simp)).mp ?_
  rw [ofBytes_toBytes, Nat.mod_eq_of_lt (ofBytes_lt l)]

lemma memcmp_eq_cmpSign (hlen : l.length = l'.length) :
    memcmp l l' = cmpSign (ofBytes l) (ofBytes l') := by
  induction l generalizing l' with
  | nil =>
    obtain rfl := length_eq_zero_iff.mp hlen.symm
    simp [memcmp, cmpSign]
  | cons a l ih =>
    cases l' with
    | nil => cases hlen
    | cons b l' =>
      have hlen : l.length = l'.length := Nat.succ.inj hlen
      have hl := ofBytes_lt l
      rw [hlen] at hl
      have hlt := lex_lt_iff (x := a.toNat) (y := b.toNat) hl (ofBytes_lt l')
      have heq := lex_eq_iff (x := a.toNat) (y := b.toNat) hl (ofBytes_lt l')
      rw [memcmp, ih hlen, ofBytes_cons, ofBytes_cons, hlen]
      by_cases hab : a = b
      · subst hab
        rw [if_pos rfl]
        exact cmpSign_congr (by simp) (by simp)
      · have hne : a.toNat ≠ b.toNat := fun h => hab (UInt8.toNat_inj.mp h)
        rw [if_neg hab, cmpSign]
        simp only [hlt, heq, hne, false_and, or_false, if_false, UInt8.lt_iff_toNat_lt]

lemma ofBytes_map_xor (l : List UInt8) :
    ofBytes (l.map (· ^^^ 255)) + ofBytes l + 1 = 256 ^ l.length := by
  have hxor : ∀ a : UInt8, (a ^^^ 255).toNat + a.toNat = 255 := by decide +kernel
  induction l with
  | nil => simp
  | cons a l ih =>
    have ha := hxor a
    rw [map_cons, ofBytes_cons, ofBytes_cons, length_map, length_cons, pow_succ, ← ih]
    generalize ofBytes (l.map (· ^^^ 255)) = x at *
    generalize ofBytes l = y at *
    rw [ih]
    have : (a ^^^ 255).toNat * 256 ^ l.length + a.toNat * 256 ^ l.length =
        255 * 256 ^ l.length := by
      rw [← add_mul, ha]
    omega

lemma ofBytes_flatMap_toBytes (h : ∀ w ∈ ws, w < 256 ^ n) :
    ofBytes (ws.flatMap (toBytes n)) = ofBE (256 ^ n) ws := by
  induction ws with
  | nil => rfl
  | cons w ws ih =>
    have hlen : (ws.flatMap (toBytes n)).length = n * ws.length := by
      simp [length_flatMap, mul_comm]
    rw [flatMap_cons, ofBytes_append, ih fun v hv => h v (by simp [hv]), ofBytes_toBytes,
      Nat.mod_eq_of_lt (h w (by simp)), hlen, ofBE, pow_mul]

end Bytes

end MariaDB.Library
