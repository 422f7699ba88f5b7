import Mathlib

/-!
# Byte frames

A frame is a block of memory seen as a function from byte offsets to bytes. Copies,
fills and overlapping moves are total: a caller states the bounds it needs. Each
operation only changes the range it writes to, and operations that read and write
disjoint ranges commute.
-/
namespace MariaDB.Library

open List

def Frame := Nat → UInt8

namespace Frame

variable {f g : Frame} {i len ofs ofs' lo hi : Nat} {data : List UInt8} {op : Frame → Frame}

@[ext] lemma ext (h : ∀ i, f i = g i) : f = g := funext h

def memcpy (f : Frame) (ofs : Nat) (data : List UInt8) : Frame := fun i =>
  if ofs ≤ i ∧ i < ofs + data.length then data.getD (i - ofs) 0 else f i

def memset (f : Frame) (ofs len : Nat) (val : UInt8) : Frame := fun i =>
  if ofs ≤ i ∧ i < ofs + len then val else f i

/-- Copy `len` bytes from offset `s` to offset `d`; the ranges may overlap. -/
def memmove (f : Frame) (d s len : Nat) : Frame := fun i =>
  if d ≤ i ∧ i < d + len then f (s + (i - d)) else f i

def slice (f : Frame) (ofs len : Nat) : List UInt8 := (List.range len).map fun i => f (ofs + i)

def zeros : Frame := fun _ => 0

def read2 (f : Frame) (ofs : Nat) : Nat := (f ofs).toNat * 256 + (f (ofs + 1)).toNat

def write1 (f : Frame) (ofs val : Nat) : Frame := f.memcpy ofs [UInt8.ofNat val]

def write2 (f : Frame) (ofs val : Nat) : Frame :=
  f.memcpy ofs [UInt8.ofNat (val / 256), UInt8.ofNat val]

section

variable (f)

@[simp] lemma slice_length (ofs len : Nat) : (f.slice ofs len).length = len := by
  simp [slice]

lemma slice_getD (ofs : Nat) (h : i < len) : (f.slice ofs len).getD i 0 = f (ofs + i) := by
  simp [slice, getD, h]

lemma memcpy_of_mem (data : List UInt8) (h : ofs ≤ i)
    (h' : i < ofs + data.length) : f.memcpy ofs data i = data.getD (i - ofs) 0 :=
  if_pos ⟨h, h'⟩

lemma memcpy_of_not_mem (data : List UInt8)
    (h : i < ofs ∨ ofs + data.length ≤ i) : f.memcpy ofs data i = f i :=
  if_neg (by omega)

lemma memmove_of_mem (src : Nat) (h : dst ≤ i) (h' : i < dst + len) :
    f.memmove dst src len i = f (src + (i - dst)) :=
  if_pos ⟨h, h'⟩

lemma memmove_of_not_mem (src : Nat) (h : i < dst ∨ dst + len ≤ i) :
    f.memmove dst src len i = f i :=
  if_neg (by omega)

lemma memcpy_nil (ofs : Nat) : f.memcpy ofs [] = f := by
  refine Frame.ext fun i => ?_
  exact f.memcpy_of_not_mem [] (by simp only [length_nil]; omega)

lemma memcpy_append (ofs : Nat) (data data' : List UInt8) :
    (f.memcpy ofs data).memcpy (ofs + data.length) data' = f.memcpy ofs (data ++ data') := by
  refine Frame.ext fun i => ?_
  unfold memcpy
  grind

lemma memcpy_append_of_eq (data' : List UInt8) (h : ofs' = ofs + data.length) :
    (f.memcpy ofs data).memcpy ofs' data' = f.memcpy ofs (data ++ data') := by
  rw [h, memcpy_append]

/-- A later copy over the same bytes wins. -/
lemma memcpy_memcpy (ofs : Nat) (h : data.length = data'.length) :
    (f.memcpy ofs data).memcpy ofs data' = f.memcpy ofs data' := by
  refine Frame.ext fun i => ?_
  unfold memcpy
  rw [h]
  split_ifs <;> rfl

end

lemma memcpy_inj (h : data.length = data'.length) (heq : f.memcpy ofs data = f.memcpy ofs data') :
    data = data' := by
  refine ext_getElem h fun i hi hi' => ?_
  have hbyte := congrFun heq (ofs + i)
  grind [memcpy_of_mem]

/-! ## Local operations -/

/-- An operation that reads and writes only the bytes from `lo` to before `hi`. -/
structure LocalTo (lo hi : Nat) (op : Frame → Frame) : Prop where
  unchanged : ∀ f i, i < lo ∨ hi ≤ i → op f i = f i
  congr : ∀ f g : Frame, (∀ i, lo ≤ i → i < hi → f i = g i) → ∀ i, lo ≤ i → i < hi → op f i = op g i

lemma localTo_memcpy (ofs : Nat) (data : List UInt8) :
    LocalTo ofs (ofs + data.length) (·.memcpy ofs data) where
  unchanged f i h := f.memcpy_of_not_mem data h
  congr f g h i hlo hhi := by rw [memcpy_of_mem _ _ hlo hhi, memcpy_of_mem _ _ hlo hhi]

lemma localTo_write1 (ofs val : Nat) : LocalTo ofs (ofs + 1) (·.write1 ofs val) :=
  localTo_memcpy ofs [UInt8.ofNat val]

lemma localTo_write2 (ofs val : Nat) : LocalTo ofs (ofs + 2) (·.write2 ofs val) :=
  localTo_memcpy ofs [UInt8.ofNat (val / 256), UInt8.ofNat val]

lemma LocalTo.mono (h : LocalTo lo hi op)
    (hlo : lo' ≤ lo) (hhi : hi ≤ hi') : LocalTo lo' hi' op where
  unchanged f i hi := h.unchanged f i (by omega)
  congr f g hfg i _ _ := by
    by_cases hin : lo ≤ i ∧ i < hi
    · exact h.congr f g (fun j _ _ => hfg j (by omega) (by omega)) i hin.1 hin.2
    · rw [h.unchanged f i (by omega), h.unchanged g i (by omega)]
      exact hfg i (by omega) (by omega)

lemma LocalTo.comp (h : LocalTo lo hi op)
    (h' : LocalTo lo hi op') : LocalTo lo hi fun f => op (op' f) where
  unchanged f i hi := (h.unchanged _ i hi).trans (h'.unchanged f i hi)
  congr f g hfg := h.congr _ _ (h'.congr f g hfg)

lemma LocalTo.comm (h : LocalTo lo hi op)
    (h' : LocalTo lo' hi' op') (hdisj : hi ≤ lo' ∨ hi' ≤ lo) (f : Frame) :
    op (op' f) = op' (op f) := by
  refine Frame.ext fun i => ?_
  by_cases hin : lo ≤ i ∧ i < hi
  · rw [h'.unchanged (op f) i (by omega)]
    exact h.congr _ _ (fun j _ _ => h'.unchanged f j (by omega)) i hin.1 hin.2
  · rw [h.unchanged _ i (by omega)]
    by_cases hin' : lo' ≤ i ∧ i < hi'
    · exact h'.congr _ _ (fun j _ _ => (h.unchanged f j (by omega)).symm) i hin'.1 hin'.2
    · rw [h'.unchanged f i (by omega), h'.unchanged _ i (by omega), h.unchanged f i (by omega)]

lemma write2_comm (f : Frame) (val val' : Nat) (h : ofs + 2 ≤ ofs' ∨ ofs' + 2 ≤ ofs) :
    (f.write2 ofs val).write2 ofs' val' = (f.write2 ofs' val').write2 ofs val :=
  (localTo_write2 ofs' val').comm (localTo_write2 ofs val) h.symm f

lemma memcpy_overwrite (f : Frame) (ofs : Nat) (a c : List UInt8) (h : b.length = b'.length) :
    (f.memcpy ofs (a ++ (b ++ c))).memcpy (ofs + a.length) b' = f.memcpy ofs (a ++ (b' ++ c)) := by
  have hcomm := (localTo_memcpy (ofs + a.length) b').comm
    (localTo_memcpy (ofs + a.length + b.length) c) (by omega)
  rw [← memcpy_append, ← memcpy_append, hcomm, memcpy_memcpy _ _ h, h, memcpy_append, memcpy_append]

/-! ## Reading -/

lemma read2_congr (h : f ofs = g ofs')
    (h' : f (ofs + 1) = g (ofs' + 1)) : f.read2 ofs = g.read2 ofs' := by
  rw [read2, read2, h, h']

lemma slice_congr (h : ∀ i, ofs ≤ i → i < ofs + len → f i = g i) :
    f.slice ofs len = g.slice ofs len := by
  refine map_congr_left fun i hi => ?_
  have := mem_range.mp hi
  exact h _ (by omega) (by omega)

section

variable (f)

lemma slice_add (ofs m n : Nat) : f.slice ofs (m + n) = f.slice ofs m ++ f.slice (ofs + m) n := by
  simp only [slice, range_add, map_append, map_map, append_cancel_left_eq]
  refine map_congr_left fun i _ => ?_
  simp only [Function.comp_apply, add_assoc]

lemma memcpy_slice_append (ofs n : Nat) (data : List UInt8) :
    f.memcpy ofs (f.slice ofs n ++ data) = f.memcpy (ofs + n) data := by
  have hsame : f.memcpy ofs (f.slice ofs n) = f := by
    refine Frame.ext fun i => ?_
    unfold memcpy
    split_ifs with h
    · rw [slice_length] at h
      rw [slice_getD _ _ (by omega), Nat.add_sub_cancel' h.1]
    · rfl
  rw [← memcpy_append, hsame, slice_length]

/-- Reading a part of a copy back. -/
lemma slice_memcpy_append (ofs : Nat) (a b c : List UInt8) (hn : n = b.length) :
    (f.memcpy ofs (a ++ (b ++ c))).slice (ofs + a.length) n = b := by
  subst hn
  refine ext_getElem (by simp) fun i hi hi' => ?_
  have hbyte := f.memcpy_of_mem (i := ofs + a.length + i) (a ++ (b ++ c)) (by omega : ofs ≤ _)
    (by simp; omega)
  simp only [slice, getElem_map, getElem_range]
  rw [hbyte, getD_append_right _ _ _ _ (by omega), getD_append _ _ _ _ (by omega)]
  simp [show ofs + a.length + i - ofs - a.length = i by omega, hi']

lemma slice_memcpy_zero (hn : n = data.length) : (f.memcpy 0 data).slice 0 n = data := by
  simpa using f.slice_memcpy_append 0 [] data [] hn

lemma read2_memcpy (data : List UInt8) (h : ofs' + 2 ≤ ofs ∨ ofs + data.length ≤ ofs') :
    (f.memcpy ofs data).read2 ofs' = f.read2 ofs' :=
  read2_congr (f.memcpy_of_not_mem data (by omega)) (f.memcpy_of_not_mem data (by omega))

lemma write1_of_ne (val : Nat) (h : i ≠ ofs) : f.write1 ofs val i = f i :=
  f.memcpy_of_not_mem _ (by simp only [length_singleton]; omega)

lemma write1_self (ofs val : Nat) : f.write1 ofs val ofs = UInt8.ofNat val :=
  (f.memcpy_of_mem _ le_rfl (by simp)).trans (by simp)

end

lemma write2_of_not_mem {f : Frame} {val : Nat} (h : i < ofs ∨ ofs + 2 ≤ i) :
    f.write2 ofs val i = f i :=
  f.memcpy_of_not_mem _ h

lemma read2_write2_of_disjoint {f : Frame} {val : Nat}
    (h : ofs' + 2 ≤ ofs ∨ ofs + 2 ≤ ofs') : (f.write2 ofs val).read2 ofs' = f.read2 ofs' :=
  f.read2_memcpy _ h

lemma write2_congr (f : Frame) (ofs : Nat) {val val' : Nat} (h : val % 65536 = val' % 65536) :
    f.write2 ofs val = f.write2 ofs val' := by
  grind [UInt8.toNat_inj, UInt8.toNat_ofNat', write2]

/-! ## Fields inside of a copy -/

section

variable (f : Frame) (ofs : Nat) (a c : List UInt8) (x y : UInt8) (val : Nat)

lemma memcpy_append_cons : f.memcpy ofs (a ++ x :: c) (ofs + a.length) = x := by
  rw [memcpy_of_mem _ _ (by omega) (by simp)]
  simp

lemma read2_memcpy_append :
    (f.memcpy ofs (a ++ x :: y :: c)).read2 (ofs + a.length) = x.toNat * 256 + y.toNat := by
  have hy := memcpy_append_cons f ofs (a ++ [x]) c y
  simp only [append_assoc, singleton_append, length_append, length_singleton, ← add_assoc] at hy
  rw [read2, memcpy_append_cons, hy]

lemma write1_memcpy_append : (f.memcpy ofs (a ++ x :: c)).write1 (ofs + a.length) val =
    f.memcpy ofs (a ++ UInt8.ofNat val :: c) :=
  memcpy_overwrite f ofs a c (b := [x]) rfl

lemma write2_memcpy_append : (f.memcpy ofs (a ++ x :: y :: c)).write2 (ofs + a.length) val =
    f.memcpy ofs (a ++ UInt8.ofNat (val / 256) :: UInt8.ofNat val :: c) :=
  memcpy_overwrite f ofs a c (b := [x, y]) rfl

end

lemma read2_lt (f : Frame) (ofs : Nat) : f.read2 ofs < 65536 := by
  have h1 := UInt8.toNat_lt (f ofs)
  have h2 := UInt8.toNat_lt (f (ofs + 1))
  unfold read2
  omega

lemma read2_write2 (f : Frame) (ofs val : Nat) : (f.write2 ofs val).read2 ofs = val % 65536 := by
  have h1 : f.write2 ofs val ofs = UInt8.ofNat (val / 256) :=
    (f.memcpy_of_mem _ (by omega) (by simp)).trans (by simp)
  have h2 : f.write2 ofs val (ofs + 1) = UInt8.ofNat val :=
    (f.memcpy_of_mem _ (by omega) (by simp)).trans (by simp)
  rw [read2, h1, h2]
  simp only [UInt8.toNat_ofNat']
  omega

lemma write2_read2 (f g : Frame) (ofs ofs' : Nat) :
    f.write2 ofs (g.read2 ofs') = f.memcpy ofs (g.slice ofs' 2) := by
  have h1 := UInt8.toNat_lt (g ofs')
  have h2 := UInt8.toNat_lt (g (ofs' + 1))
  have hhi : UInt8.ofNat (g.read2 ofs' / 256) = g ofs' := by
    rw [← UInt8.toNat_inj, UInt8.toNat_ofNat', read2]
    omega
  have hlo : UInt8.ofNat (g.read2 ofs') = g (ofs' + 1) := by
    rw [← UInt8.toNat_inj, UInt8.toNat_ofNat', read2]
    omega
  rw [write2, hhi, hlo]
  rfl

end Frame

end MariaDB.Library
