import MariaDB.Binlog.ComprInt

/-!
# Compressed integers in aligned words

`compr_int_write()` and `compr_int_read()` access one or two aligned 64-bit words, with masks and
shifts that depend on the alignment of the position. What they store and fetch are the bytes of
the encoding, and no byte before the position changes.
-/
namespace MariaDB.Binlog

open Library Frame

def word (m : Frame) (p : Nat) : Nat := ofLE (m.slice p 8)

def storeWord (m : Frame) (p w : Nat) : Frame := m.memcpy p (toLE 8 w)

/-- `~(uint64_t)0` -/
def allOnes : Nat := 2 ^ 64 - 1

/-- `compr_int_write()`: the memory and the position after the value. -/
def comprIntWriteWords (m : Frame) (p v : Nat) : Frame × Nat :=
  let bytes := comprIntBytes v
  let offset := p % 8
  let offsetBits := offset <<< 3
  let v1 := (comprIntLen v ||| v <<< 3 % 2 ^ 64) <<< offsetBits % 2 ^ 64
  let p1 := p - offset
  let mask1 := allOnes <<< offsetBits % 2 ^ 64
  let v2 := v >>> (64 - 3 - offsetBits)
  let m1 := storeWord m p1 (word m p1 &&& (allOnes ^^^ mask1) ||| v1)
  (if offset + bytes ≥ 8 then storeWord m1 (p1 + 8) v2 else m1, p + bytes)

def comprIntReadWords (m : Frame) (p : Nat) : Nat × Nat :=
  let offset := p % 8
  let offsetBits := offset <<< 3
  let pAlign := p - offset
  let v1 := word m pAlign
  let len := v1 >>> offsetBits &&& 7
  let bytes := len + 1 + (len + 1) >>> 3
  if offset + bytes > 8 then
    let mask2 := allOnes >>> ((16 - (offset + bytes)) <<< 3)
    (v1 >>> (3 + offsetBits) ||| (word m (pAlign + 8) &&& mask2) <<< (61 - offsetBits) % 2 ^ 64,
      p + bytes)
  else
    let mask1 := allOnes >>> ((7 - (offset + len)) <<< 3)
    ((v1 &&& mask1) >>> (3 + offsetBits), p + bytes)

def comprIntWriteAll (m : Frame) (p : Nat) : List Nat → Frame × Nat
  | [] => (m, p)
  | v :: vs =>
    let (m', p') := comprIntWriteWords m p v
    comprIntWriteAll m' p' vs

def comprIntReadAll (m : Frame) (p : Nat) : Nat → List Nat × Nat
  | 0 => ([], p)
  | n + 1 =>
    let (v, p') := comprIntReadWords m p
    let (vs, q) := comprIntReadAll m p' n
    (v :: vs, q)

section Words

lemma mask_before (ho : o < 8) (x : Nat) :
    x &&& (allOnes ^^^ allOnes <<< (o <<< 3) % 2 ^ 64) = x % 2 ^ (8 * o) := by
  have hmask : allOnes ^^^ allOnes <<< (o <<< 3) % 2 ^ 64 = 2 ^ (8 * o) - 1 := by
    interval_cases o <;> rfl
  rw [hmask, Nat.and_two_pow_sub_one_eq_mod]

lemma mask_upTo (hn : 1 ≤ n) (hn' : n ≤ 8) (x : Nat) :
    x &&& allOnes >>> ((8 - n) <<< 3) = x % 2 ^ (8 * n) := by
  have hmask : allOnes >>> ((8 - n) <<< 3) = 2 ^ (8 * n) - 1 := by
    interval_cases n <;> rfl
  rw [hmask, Nat.and_two_pow_sub_one_eq_mod]

variable (m : Frame)

lemma ofLE_slice_add (p a b : Nat) :
    ofLE (m.slice p (a + b)) = ofLE (m.slice p a) + 2 ^ (8 * a) * ofLE (m.slice (p + a) b) := by
  rw [slice_add, ofLE_append, slice_length, pow_mul]
  rfl

lemma ofLE_slice_lt (p n : Nat) : ofLE (m.slice p n) < 2 ^ (8 * n) := by
  have h := ofLE_lt (m.slice p n)
  rwa [slice_length, show (256 : Nat) = 2 ^ 8 from rfl, ← pow_mul] at h

lemma ofLE_slice_mod (p a b : Nat) :
    ofLE (m.slice p (a + b)) % 2 ^ (8 * a) = ofLE (m.slice p a) := by
  rw [ofLE_slice_add, Nat.add_mul_mod_self_left, Nat.mod_eq_of_lt (ofLE_slice_lt m p a)]

lemma ofLE_slice_shiftRight (p a b : Nat) :
    ofLE (m.slice p (a + b)) >>> (8 * a) = ofLE (m.slice (p + a) b) := by
  rw [Nat.shiftRight_eq_div_pow, ofLE_slice_add, Nat.add_mul_div_left _ _ (Nat.two_pow_pos _),
    Nat.div_eq_of_lt (ofLE_slice_lt m p a), zero_add]

/-- Bits put above those of `a`, in a word. -/
lemma or_shiftLeft_mod (ha : a < 2 ^ k) (hk : k ≤ 64) (b : Nat) :
    a ||| b <<< k % 2 ^ 64 = (a + 2 ^ k * b) % 2 ^ 64 := by
  have ha' : a < 2 ^ 64 := ha.trans_le (Nat.pow_le_pow_right (by decide) hk)
  rw [add_comm, mul_comm, ← Nat.shiftLeft_eq, Nat.shiftLeft_add_eq_or_of_lt ha,
    Nat.or_mod_two_pow, Nat.mod_eq_of_lt ha', Nat.or_comm]

lemma comprIntReadWords_eq (p : Nat) : comprIntReadWords m p = comprIntRead m p := by
  obtain ⟨q, o, ho, rfl⟩ : ∃ q o, o < 8 ∧ p = 8 * q + o := ⟨p / 8, p % 8, by omega, by omega⟩
  have hoff : (8 * q + o) % 8 = o := by omega
  have hbits : o <<< 3 = 8 * o := by rw [Nat.shiftLeft_eq, mul_comm]
  have hword : ofLE (m.slice (8 * q) 8) >>> (8 * o) = ofLE (m.slice (8 * q + o) (8 - o)) := by
    rw [← ofLE_slice_shiftRight, Nat.add_sub_cancel' ho.le]
  have hlen : ofLE (m.slice (8 * q + o) (8 - o)) &&& 7 = (m (8 * q + o)).toNat &&& 7 := by
    have h := ofLE_slice_add m (8 * q + o) 1 (7 - o)
    have hand := fun x => Nat.and_two_pow_sub_one_eq_mod x 3
    rw [show 1 + (7 - o) = 8 - o by omega] at h
    simp only [show 2 ^ 3 - 1 = 7 from rfl] at hand
    have hone : ofLE (m.slice (8 * q + o) 1) = (m (8 * q + o)).toNat := by simp [Frame.slice, ofLE]
    rw [hand, hand, h, hone]
    omega
  unfold comprIntReadWords comprIntRead word
  simp only [hoff, hbits, Nat.add_sub_cancel, hword, hlen]
  generalize hl : (m (8 * q + o)).toNat &&& 7 = len
  have hlt : len < 8 := hl ▸ Nat.and_lt_two_pow _ (by decide : 7 < 2 ^ 3)
  obtain ⟨n, hn⟩ : ∃ n, n = len + 1 + (len + 1) >>> 3 := ⟨_, rfl⟩
  have hnle : n ≤ 9 ∧ (n = len + 1 ∨ n = 9) := by
    subst hn
    interval_cases len <;> decide
  rw [← hn]
  split_ifs with htwo
  · -- the rest of the value is in the second word
    obtain ⟨k, hk⟩ : ∃ k, o + n = 8 + k := ⟨o + n - 8, by omega⟩
    rw [show 16 - (o + n) = 8 - k by omega, mask_upTo (by omega) (by omega),
      add_comm 3, Nat.shiftRight_add, hword]
    have hrest := ofLE_slice_mod m (8 * q + 8) k (8 - k)
    rw [show k + (8 - k) = 8 by omega] at hrest
    have hall := ofLE_slice_add m (8 * q + o) (8 - o) k
    rw [show 8 - o + k = n by omega, show 8 * q + o + (8 - o) = 8 * q + 8 by omega,
      show 8 * (8 - o) = 61 - 8 * o + 3 by omega, pow_add] at hall
    have hfirst := ofLE_slice_lt m (8 * q + o) (8 - o)
    rw [show 8 * (8 - o) = 61 - 8 * o + 3 by omega, pow_add] at hfirst
    rw [hrest, or_shiftLeft_mod (by rw [Nat.shiftRight_eq_div_pow]; omega) (by omega), hall]
    congr 2
    simp only [Nat.shiftRight_eq_div_pow]
    rw [Nat.mul_right_comm, Nat.add_mul_div_right _ _ (by decide)]
  · have hbytes : n = len + 1 := by omega
    have hpart := ofLE_slice_mod m (8 * q) (o + n) (8 - (o + n))
    rw [show o + n + (8 - (o + n)) = 8 by omega] at hpart
    rw [show 7 - (o + len) = 8 - (o + n) by omega, mask_upTo (by omega) (by omega), hpart,
      add_comm 3, Nat.shiftRight_add, ofLE_slice_shiftRight]
    have hfits := ofLE_slice_lt m (8 * q + o) n
    have hpow : 2 ^ (8 * n) ≤ 2 ^ 64 := Nat.pow_le_pow_right (by decide) (by omega)
    rw [Nat.mod_eq_of_lt]
    rw [Nat.shiftRight_eq_div_pow]
    omega

variable {v : Nat}

lemma comprIntWriteWords_eq (hv : v < 2 ^ 64) (m : Frame) (p : Nat) :
    ∃ k, comprIntWriteWords m p v = (m.memcpy p (toLE (comprIntBytes v + k)
      (comprIntLen v ||| v <<< 3)), p + comprIntBytes v) := by
  obtain ⟨q, o, ho, rfl⟩ : ∃ q o, o < 8 ∧ p = 8 * q + o := ⟨p / 8, p % 8, by omega, by omega⟩
  obtain ⟨hlen, -, -, hnine⟩ := comprIntLen_bounds hv
  have hoff : (8 * q + o) % 8 = o := by omega
  have hbits : o <<< 3 = 8 * o := by rw [Nat.shiftLeft_eq, mul_comm]
  have hfirst := ofLE_slice_mod m (8 * q) o (8 - o)
  rw [Nat.add_sub_cancel' ho.le] at hfirst
  unfold comprIntWriteWords word storeWord
  simp only [hoff, hbits, Nat.add_sub_cancel]
  rw [← hbits, mask_before ho, hbits, hfirst,
    or_shiftLeft_mod (a := comprIntLen v) (k := 3) hlen (by decide), add_comm (comprIntLen v),
    comprIntLen_or hv]
  generalize hx : 8 * v + comprIntLen v = x
  have hword : ofLE (m.slice (8 * q) o) ||| (x % 2 ^ 64) <<< (8 * o) % 2 ^ 64
      = (ofLE (m.slice (8 * q) o) + 256 ^ o * x) % 256 ^ 8 := by
    rw [or_shiftLeft_mod (ofLE_slice_lt m (8 * q) o) (by omega), pow_mul, Nat.add_mod,
      Nat.mul_mod_mod, ← Nat.add_mod]
    rfl
  have hstored : toLE 8 ((ofLE (m.slice (8 * q) o) + 256 ^ o * x) % 256 ^ 8)
      = m.slice (8 * q) o ++ toLE (8 - o) x := by
    have h := toLE_ofLE_add (m.slice (8 * q) o) (8 - o) x
    rw [slice_length, Nat.add_sub_cancel' ho.le] at h
    rw [toLE_mod, h]
  have hshift : v >>> (64 - 3 - 8 * o) = x / 256 ^ (8 - o) := by
    have hpow : 256 ^ (8 - o) = 2 ^ 3 * 2 ^ (64 - 3 - 8 * o) := by
      interval_cases o <;> rfl
    rw [hpow, ← Nat.div_div_eq_div_mul, Nat.shiftRight_eq_div_pow, show x / 2 ^ 3 = v by omega]
  rw [hword, hstored, hshift, memcpy_slice_append]
  split_ifs with htwo
  · refine ⟨16 - o - comprIntBytes v, ?_⟩
    rw [show comprIntBytes v + (16 - o - comprIntBytes v) = 8 - o + 8 by omega, toLE_add,
      memcpy_append_of_eq _ _ (by rw [length_toLE]; omega)]
  · refine ⟨8 - o - comprIntBytes v, ?_⟩
    rw [show comprIntBytes v + (8 - o - comprIntBytes v) = 8 - o by omega]

/-- The encoding is stored, and the bytes before it stay. -/
lemma comprIntWriteWords_spec (hv : v < 2 ^ 64) (m : Frame) (p : Nat) :
    (comprIntWriteWords m p v).2 = p + comprIntBytes v ∧
      (comprIntWriteWords m p v).1.slice p (comprIntBytes v) = comprIntWrite v ∧
      (∀ i < p, (comprIntWriteWords m p v).1 i = m i) := by
  obtain ⟨k, hk⟩ := comprIntWriteWords_eq hv m p
  rw [hk, toLE_add, ← comprIntWrite]
  refine ⟨rfl, ?_, fun i hi => m.memcpy_of_not_mem _ (.inl hi)⟩
  simpa using m.slice_memcpy_append p [] (comprIntWrite v)
    (toLE k ((comprIntLen v ||| v <<< 3) / 256 ^ comprIntBytes v)) (by simp)

lemma comprIntWriteAll_spec (hvs : ∀ v ∈ vs, v < 2 ^ 64) (m : Frame) (p : Nat) :
    p ≤ (comprIntWriteAll m p vs).2 ∧ (∀ i < p, (comprIntWriteAll m p vs).1 i = m i) ∧
      ∀ m' : Frame, (∀ i, p ≤ i → i < (comprIntWriteAll m p vs).2 →
          m' i = (comprIntWriteAll m p vs).1 i) →
        comprIntReadAll m' p vs.length = (vs, (comprIntWriteAll m p vs).2) := by
  induction vs generalizing m p with
  | nil => exact ⟨le_rfl, fun _ _ => rfl, fun _ _ => rfl⟩
  | cons v vs ih =>
    have hv := hvs v List.mem_cons_self
    obtain ⟨hend, hslice, hbefore⟩ := comprIntWriteWords_spec hv m p
    obtain ⟨hle, hkeep, hread⟩ := ih (fun x hx => hvs x (List.mem_cons_of_mem _ hx))
      (comprIntWriteWords m p v).1 (comprIntWriteWords m p v).2
    rw [hend] at hle hkeep hread
    simp only [comprIntWriteAll, hend]
    refine ⟨by omega, fun i hi => (hkeep i (by omega)).trans (hbefore i hi), fun m' hm' => ?_⟩
    -- the later integers leave this one as it was
    have hthis : m'.slice p (comprIntBytes v) = comprIntWrite v := by
      rw [← hslice]
      refine slice_congr fun i hi hi' => ?_
      rw [hm' i hi (by omega), hkeep i hi']
    simp [comprIntReadAll, comprIntReadWords_eq, comprIntRead_write hv hthis,
      hread m' fun i hi hi' => hm' i (by omega) hi']

/-- The numbers of bytes into which a value fits with its tag. -/
def comprIntSizes (v : Nat) : Set Nat := {n | 1 ≤ n ∧ n ≤ 9 ∧ n ≠ 8 ∧ v < 2 ^ (8 * n - 3)}

lemma comprIntBytes_spec (hv : v < 2 ^ 64) : IsLeast (comprIntSizes v) (comprIntBytes v) ∧
    comprIntLen v = if comprIntBytes v = 9 then 7 else comprIntBytes v - 1 := by
  obtain ⟨h1, h9, -⟩ := comprIntNeeded_bounds hv
  have hfits {k : Nat} (hk : 0 < k) := comprIntNeeded_le (v := v) hk
  obtain ⟨hbytes, htag⟩ : comprIntBytes v = (if comprIntNeeded v = 8 then 9 else comprIntNeeded v) ∧
      comprIntLen v = if comprIntBytes v = 9 then 7 else comprIntBytes v - 1 := by
    unfold comprIntLen comprIntBytes
    generalize comprIntNeeded v = n at *
    interval_cases n <;> decide
  refine ⟨⟨⟨?_, ?_, ?_, (hfits ?_).mp ?_⟩, fun k ⟨hk, _, hne, hlt⟩ => ?_⟩, htag⟩
  case refine_6 =>
    have := (hfits hk).mpr hlt
    grind
  all_goals grind

/-- At every alignment the encoding of a 64-bit value takes the least number of bytes, of one to
nine but eight, into which it fits; it is `TAG | (NUMBER << 3)` in little-endian order, where the
tag is the number of bytes less one, or 7 for nine; the bytes before it stay, and it is read back
whatever follows. So are any number of integers written back to back. -/
theorem comprInt_written_read (m : Frame) (p : Nat) :
    (∀ v, v < 2 ^ 64 → ∃ n, IsLeast (comprIntSizes v) n ∧ (comprIntWriteWords m p v).2 = p + n ∧
      (comprIntWriteWords m p v).1.slice p n = toLE n ((if n = 9 then 7 else n - 1) ||| v <<< 3) ∧
      (∀ i < p, (comprIntWriteWords m p v).1 i = m i) ∧
      ∀ m' : Frame, m'.slice p n = (comprIntWriteWords m p v).1.slice p n →
        comprIntReadWords m' p = (v, p + n)) ∧
    ∀ vs : List Nat, (∀ v ∈ vs, v < 2 ^ 64) →
      ∀ m' : Frame, (∀ i, p ≤ i → i < (comprIntWriteAll m p vs).2 →
          m' i = (comprIntWriteAll m p vs).1 i) →
        comprIntReadAll m' p vs.length = (vs, (comprIntWriteAll m p vs).2) := by
  refine ⟨fun v hv => ?_, fun vs hvs => (comprIntWriteAll_spec hvs m p).2.2⟩
  obtain ⟨hleast, htag⟩ := comprIntBytes_spec hv
  obtain ⟨hend, hslice, hbefore⟩ := comprIntWriteWords_spec hv m p
  refine ⟨comprIntBytes v, hleast, hend, ?_, hbefore, fun m' hm' => ?_⟩
  · rw [hslice, comprIntWrite, htag]
  · rw [comprIntReadWords_eq, comprIntRead_write hv (hm'.trans hslice)]

/-- The smallest value of nine bytes, across a word boundary. -/
theorem comprInt_nine_bytes : comprIntReadWords (comprIntWriteWords .zeros 5 0x20000000000000).1 5
      = (0x20000000000000, 14) := by
  obtain ⟨n, -, hend, -, -, hread⟩ :=
    (comprInt_written_read .zeros 5).1 0x20000000000000 (by decide)
  have hn : n = 9 := Nat.add_left_cancel (hend.symm.trans (by decide : _ = 5 + 9))
  rw [hread _ rfl, hn]

end Words

end MariaDB.Binlog
