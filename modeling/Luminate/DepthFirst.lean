import Mathlib.Data.List.Basic

/-! # Depth-first searches with fuel

A search that enters no node twice needs one level for each node and one more. -/
namespace DepthFirst

open List

universe u v w

variable {α : Type u} {κ : Type v} [DecidableEq κ] {key : α → κ} {nodes : List α}
  {visited later : List κ} {node : α}

def unvisited (key : α → κ) (nodes : List α) (visited : List κ) : ℕ :=
  (nodes.filter fun node => key node ∉ visited).length

theorem unvisited_anti (key : α → κ) (nodes : List α) (visited : List κ) (h : visited ⊆ later) :
    unvisited key nodes later ≤ unvisited key nodes visited := by
  refine Sublist.length_le (monotone_filter_right _ fun node hn => ?_)
  exact decide_eq_true fun hv => of_decide_eq_true hn (h hv)

theorem unvisited_lt (hm : node ∈ nodes) (h : key node ∉ visited) :
    unvisited key nodes (key node :: visited) < unvisited key nodes visited := by
  have hf : nodes.filter (fun n => key n ∉ key node :: visited) =
      (nodes.filter fun n => key n ∉ visited).filter fun n => key n ≠ key node := by
    rw [filter_filter]
    refine filter_congr fun n _ => ?_
    simp
  rw [unvisited, hf]
  refine length_filter_lt_length_iff_exists.2 ⟨node, ?_, by simp⟩
  simp [hm, h]

/-- A search that one more level does not change is the same with any number more. -/
theorem enough_fuel {β : Type w} (search : ℕ → β)
    (h : ∀ fuel, unvisited key nodes [] ≤ fuel → search (fuel + 1) = search (fuel + 2)) :
    search (nodes.length + 1 + extra) = search (nodes.length + 1) := by
  induction extra with
  | zero => rfl
  | succ extra ih =>
    have hs := h (nodes.length + extra) (Nat.le_trans (length_filter_le _ _) (Nat.le_add_right _ _))
    rw [← ih, show nodes.length + 1 + extra = nodes.length + extra + 1 by omega, hs]
    exact congrArg search (by omega)

end DepthFirst
