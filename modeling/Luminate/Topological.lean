import Mathlib.Data.List.Basic

/-! # Topological lists

A list in which every element stands before all it refers to. A depth-first search
that fails on cycles produces one; the length of the rest is then a rank that
decreases along references. -/
namespace Topological

universe u

variable {α : Type u} {references : α → List α} {item : α} {rest : List α}

inductive Ordered (references : α → List α) : List α → Prop where
  | nil : Ordered references []
  | cons {item : α} {rest : List α} (below : ∀ other ∈ references item, other ∈ rest)
      (new : item ∉ rest) (ordered : Ordered references rest) : Ordered references (item :: rest)

theorem Ordered.nodup (h : Ordered references rest) : rest.Nodup := by
  induction h with
  | nil => exact List.nodup_nil
  | cons _ new _ ih => exact List.nodup_cons.2 ⟨new, ih⟩

variable [DecidableEq α]

def rank (item : α) : List α → ℕ
  | [] => 0
  | first :: rest => if item = first then rest.length else rank item rest

theorem rank_lt (hm : item ∈ rest) : rank item rest < rest.length := by
  induction rest with
  | nil => exact absurd hm List.not_mem_nil
  | cons first rest ih =>
    rw [rank]
    split
    · exact Nat.lt_succ_self _
    · next hne =>
      rcases List.mem_cons.1 hm with rfl | hm
      · exact absurd rfl hne
      · exact Nat.lt_succ_of_lt (ih hm)

theorem Ordered.rank_lt_of_mem (h : Ordered references rest) (hm : item ∈ rest)
    (ho : other ∈ references item) : other ∈ rest ∧ rank other rest < rank item rest := by
  induction h with
  | nil => exact absurd hm List.not_mem_nil
  | @cons first rest hb new ordered ih =>
    rcases List.mem_cons.1 hm with rfl | hm
    · have hl := hb other ho
      have hne : other ≠ item := fun h => new (h ▸ hl)
      refine ⟨List.mem_cons_of_mem _ hl, ?_⟩
      rw [rank, rank, if_neg hne, if_pos rfl]
      exact rank_lt hl
    · obtain ⟨hl, hle⟩ := ih hm
      have hne : item ≠ first := fun h => new (h ▸ hm)
      have hne' : other ≠ first := fun h => new (h ▸ hl)
      refine ⟨List.mem_cons_of_mem _ hl, ?_⟩
      rw [rank, rank, if_neg hne, if_neg hne']
      exact hle

end Topological
