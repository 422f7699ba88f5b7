import Mathlib

/-!
# Counting holders

Each party holds at most one resource. `holding h f` is the number of parties that hold `f`.
-/
namespace MariaDB.Library

open Finset

variable {ι φ : Type*} [Fintype ι] [DecidableEq φ]

def holding (h : ι → Option φ) (f : φ) : Nat := (Finset.univ.filter fun i => h i = some f).card

variable {h : ι → Option φ} {i : ι}

lemma holding_pos (hi : h i = some f) : 0 < holding h f :=
  card_pos.mpr ⟨i, mem_filter.mpr ⟨mem_univ i, hi⟩⟩

lemma holding_eq_zero (hnone : ∀ i, h i = none) (f : φ) : holding h f = 0 := by
  simp [holding, hnone]

variable [DecidableEq ι]

lemma holding_update (h : ι → Option φ) (i : ι) (v : Option φ) (f : φ) :
    holding (Function.update h i v) f + (if h i = some f then 1 else 0) =
      holding h f + (if v = some f then 1 else 0) := by
  have hothers : ∑ j ∈ univ.erase i, (if Function.update h i v j = some f then 1 else 0) =
      ∑ j ∈ univ.erase i, (if h j = some f then 1 else 0) := by
    refine sum_congr rfl fun j hj => ?_
    rw [Function.update_of_ne (ne_of_mem_erase hj)]
  simp only [holding, card_filter]
  rw [← add_sum_erase _ _ (mem_univ i),
    ← add_sum_erase _ (fun j => if h j = some f then 1 else 0) (mem_univ i), hothers,
    Function.update_self]
  omega

lemma holding_acquire (hi : h i = none) (g f : φ) :
    holding (Function.update h i (some g)) f = holding h f + (if f = g then 1 else 0) := by
  have := holding_update h i (some g) f
  simpa [hi, eq_comm] using this

lemma holding_release (hi : h i = some g) (f : φ) :
    holding (Function.update h i none) f + (if f = g then 1 else 0) = holding h f := by
  have := holding_update h i none f
  simpa [hi, eq_comm] using this

end MariaDB.Library
