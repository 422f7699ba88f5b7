import Mathlib

/-!
# Lexicographic comparison with a prefix

Tuples are compared position by position, each position with its own order. The comparison
ends where the first tuple does, so a tuple is equal to all tuples that it is a prefix of.
-/
namespace MariaDB.Library

open Std

variable {β : Type} (cmp : Nat → β → β → Ordering)

/-- Compare `xs`, a tuple from position `i` on, with the beginning of `ys`. -/
def prefixCompare : Nat → List β → List β → Ordering
  | _, [], _ => .eq
  | _, _ :: _, [] => .gt
  | i, x :: xs, y :: ys =>
    match cmp i x y with
    | .eq => prefixCompare (i + 1) xs ys
    | o => o

variable {cmp} [∀ i, TransCmp (cmp i)]

attribute [local simp] prefixCompare

lemma prefixCompare_lt (zs : List β) (h : prefixCompare cmp i xs ys = .lt)
    (h' : prefixCompare cmp i ys zs ≠ .gt) : prefixCompare cmp i xs zs = .lt := by
  fun_induction prefixCompare cmp i xs ys generalizing zs with
  | case1 | case2 => simp at h
  | case3 i x xs y ys hxy ih =>
    cases zs with
    | nil => simp at h'
    | cons z zs =>
      simp only [prefixCompare, TransCmp.congr_left hxy] at h' ⊢
      cases hyz : cmp i y z with
      | lt => rfl
      | eq => exact ih zs h (by simpa [hyz] using h')
      | gt => simp [hyz] at h'
  | case4 i x xs y ys =>
    cases zs with
    | nil => simp at h'
    | cons z zs =>
      have hle : (cmp i y z).isLE := by
        cases hyz : cmp i y z <;> simp [hyz] at h' ⊢
      simp [TransCmp.lt_of_lt_of_isLE h hle]

lemma prefixCompare_gt {xs ys : List β} (zs : List β) (hlen : xs.length ≤ ys.length)
    (h : prefixCompare cmp i xs ys = .gt) (h' : prefixCompare cmp i ys zs ≠ .lt) :
    prefixCompare cmp i xs zs = .gt := by
  fun_induction prefixCompare cmp i xs ys generalizing zs with
  | case1 => simp at h
  | case2 => simp at hlen
  | case3 i x xs y ys hxy ih =>
    cases zs with
    | nil => rfl
    | cons z zs =>
      simp only [prefixCompare, TransCmp.congr_left hxy] at h' ⊢
      cases hyz : cmp i y z with
      | lt => simp [hyz] at h'
      | eq => exact ih zs (by simpa using hlen) h (by simpa [hyz] using h')
      | gt => rfl
  | case4 i x xs y ys =>
    cases zs with
    | nil => rfl
    | cons z zs =>
      have hge : (cmp i y z).isGE := by
        cases hyz : cmp i y z <;> simp [hyz] at h' ⊢
      simp [TransCmp.gt_of_gt_of_isGE h hge]

/-- A tuple that is equal to the beginning of another one compares as that one does, or is
too short to tell. -/
lemma prefixCompare_eq (zs : List β) (h : prefixCompare cmp i xs ys = .eq) :
    prefixCompare cmp i xs zs = .eq ∧ xs.length ≠ ys.length ∨
      prefixCompare cmp i xs zs = prefixCompare cmp i ys zs := by
  fun_induction prefixCompare cmp i xs ys generalizing zs with
  | case1 _ ys => cases ys <;> simp
  | case2 => simp at h
  | case3 i x xs y ys hxy ih =>
    cases zs with
    | nil => exact .inr rfl
    | cons z zs =>
      simp only [prefixCompare, TransCmp.congr_left hxy]
      cases hyz : cmp i y z with
      | eq => simpa using ih zs h
      | lt | gt => exact .inr rfl
  | case4 _ _ _ _ _ hne => exact absurd h hne

/-- Tuples of one length that are equal compare alike. -/
lemma prefixCompare_congr {xs ys : List β} (zs : List β) (hlen : xs.length = ys.length)
    (h : prefixCompare cmp i xs ys = .eq) :
    prefixCompare cmp i xs zs = prefixCompare cmp i ys zs :=
  (prefixCompare_eq zs h).resolve_left fun h => h.2 hlen

end MariaDB.Library
