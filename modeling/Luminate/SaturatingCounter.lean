import Mathlib.Data.List.Count

/-! # Saturating counters

A guard that takes a number only if it is not below the next one expected, and
then expects its successor. Where the successor saturates, the largest number can
be taken again. -/
namespace SaturatingCounter

/-- `Taken top next xs`: the numbers of `xs` pass one after the other, from `next` on. -/
inductive Taken (top : ℕ) : ℕ → List ℕ → Prop where
  | nil {next : ℕ} : Taken top next []
  | cons {next x : ℕ} {xs : List ℕ} (expected : next ≤ x) (bounded : x ≤ top)
      (rest : Taken top (min (x + 1) top) xs) : Taken top next (x :: xs)

variable {top next : ℕ} {xs : List ℕ}

theorem Taken.ge (h : Taken top next xs) : ∀ x ∈ xs, next ≤ x := by
  induction h with
  | nil => simp
  | cons expected bounded rest ih =>
    intro y hy
    rcases List.mem_cons.1 hy with rfl | hy
    · exact expected
    · have := ih y hy
      omega

theorem Taken.le (h : Taken top next xs) : ∀ x ∈ xs, x ≤ top := by
  induction h with
  | nil => simp
  | cons expected bounded rest ih =>
    intro y hy
    rcases List.mem_cons.1 hy with rfl | hy
    · exact bounded
    · exact ih y hy

/-- The numbers taken increase unless the largest is taken twice. -/
theorem Taken.pairwise_iff (h : Taken top next xs) : xs.Pairwise (· < ·) ↔ xs.count top ≤ 1 := by
  induction h with
  | nil => simp
  | @cons next x xs expected bounded rest ih =>
    have hr := rest.ge
    rw [List.pairwise_cons, ih]
    by_cases ht : x = top
    · -- nothing is above the largest number, so nothing may follow it
      subst ht
      rw [List.count_cons_self]
      have hal : ∀ y ∈ xs, y = x := by
        intro y hy
        have := hr y hy
        have := rest.le y hy
        omega
      constructor
      · rintro ⟨ha, -⟩
        have hn : x ∉ xs := fun hx => Nat.lt_irrefl x (ha x hx)
        simp [List.count_eq_zero.2 hn]
      · intro hc
        have hn : x ∉ xs := List.count_eq_zero.1 (by omega)
        refine ⟨fun y hy => absurd (hal y hy ▸ hy) hn, by omega⟩
    · rw [List.count_cons_of_ne ht]
      refine and_iff_right fun y hy => ?_
      have := hr y hy
      omega

end SaturatingCounter
