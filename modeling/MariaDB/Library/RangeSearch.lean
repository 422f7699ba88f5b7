import Mathlib

/-!
# Binary search for a range

Ranges are given by their starts. The search keeps a range that starts at or before the
element and one that starts after it, and halves the distance between the two.
-/
namespace MariaDB.Library.RangeSearch

variable {α : Type} [LinearOrder α] (starts : Nat → α) (x : α)

/-- The rounds of the search; `fuel` is at least `higher - lower`. -/
def search : Nat → Nat → Nat → Nat
  | 0, lower, _ => lower
  | fuel + 1, lower, higher =>
    if 1 < higher - lower then
      let i := (lower + higher) / 2
      if starts i ≤ x then search fuel i higher else search fuel lower i
    else lower

def find (n : Nat) : Nat := search starts x n 0 n

variable {starts x}

/-- The starts need not be sorted for the range to be one that has `x`. -/
lemma search_spec : ∀ {lower higher : Nat}, higher - lower ≤ fuel →
    lower < higher → higher ≤ n → starts lower ≤ x → (higher < n → x < starts higher) →
    search starts x fuel lower higher < n ∧ starts (search starts x fuel lower higher) ≤ x ∧
      (search starts x fuel lower higher + 1 < n →
        x < starts (search starts x fuel lower higher + 1)) := by
  induction fuel with
  | zero => intro lower higher hfuel hlt; omega
  | succ fuel ih =>
    intro lower higher hfuel hlt hn hlow hhigh
    unfold search
    split_ifs with hgap
    · dsimp only
      split_ifs with hle
      · exact ih (by omega) (by omega) hn hle hhigh
      · exact ih (by omega) (by omega) (by omega) hlow fun _ => lt_of_not_ge hle
    · obtain rfl : higher = lower + 1 := by omega
      exact ⟨by omega, hlow, hhigh⟩

lemma find_spec (hn : 0 < n) (h0 : starts 0 ≤ x) :
    find starts x n < n ∧ starts (find starts x n) ≤ x ∧
      (find starts x n + 1 < n → x < starts (find starts x n + 1)) :=
  search_spec (Nat.le_refl _) hn (Nat.le_refl _) h0 fun h => absurd h (Nat.lt_irrefl _)

end MariaDB.Library.RangeSearch
