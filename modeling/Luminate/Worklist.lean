import Mathlib.Data.Finset.Card

/-! # Worklist closure

A stack of discovered nodes is drained; popping a node discovers its successors
and pushes those not seen before. With fuel for every node of a closed finite
universe, the nodes seen are exactly those reachable from the initial ones. -/
namespace Worklist

open List Std

universe u

variable {α : Type u} {cmp : α → α → Ordering} [TransCmp cmp]

/-- `if seen.insert(node) { pending.push(node) }`. -/
def discover (acc : List α × ExtTreeSet α cmp) (node : α) : List α × ExtTreeSet α cmp :=
  if node ∈ acc.2 then acc else (node :: acc.1, acc.2.insert node)

/-- The head of `pending` is the top of the stack. -/
def drain (next : α → List α) : ℕ → List α → ExtTreeSet α cmp → ExtTreeSet α cmp
  | 0, _, seen => seen
  | _ + 1, [], seen => seen
  | fuel + 1, node :: pending, seen =>
    let found := (next node).foldl discover (pending, seen)
    drain next fuel found.1 found.2

def Reaches (next : α → List α) : α → α → Prop := Relation.ReflTransGen fun a b => b ∈ next a

/-- Every seen node is either still pending or has all its successors seen. -/
structure Frontier (next : α → List α) (pending : List α) (seen : ExtTreeSet α cmp) :
    Prop where
  pending_seen : ∀ a ∈ pending, a ∈ seen
  expanded : ∀ a ∈ seen, a ∉ pending → ∀ b ∈ next a, b ∈ seen

variable {pending : List α} {seen : ExtTreeSet α cmp} {next : α → List α}

theorem Frontier.initial (next : α → List α)
    (h : ∀ a, a ∈ pending ↔ a ∈ seen) : Frontier next pending seen :=
  ⟨fun a => (h a).1, fun a ha hn => absurd ((h a).2 ha) hn⟩

theorem Frontier.closed
    (h : Frontier next [] seen) {s a : α} (hs : s ∈ seen) (ha : Reaches next s a) : a ∈ seen := by
  induction ha with
  | refl => exact hs
  | tail _ hb ih => exact h.expanded _ ih (by simp) _ hb

theorem Frontier.mem_iff (h : Frontier next [] seen) : a ∈ seen ↔ ∃ s ∈ seen, Reaches next s a :=
  ⟨fun ha => ⟨a, ha, Relation.ReflTransGen.refl⟩, fun ⟨_, hs, ha⟩ => h.closed hs ha⟩

/-- What scanning a successor list discovers: `new` is pushed, and is what `seen` grows by. -/
structure Discovered (nodes pending : List α) (seen : ExtTreeSet α cmp)
    (found : List α × ExtTreeSet α cmp) (new : List α) : Prop where
  pushed : found.1 = new ++ pending
  nodup : new.Nodup
  fresh : ∀ a ∈ new, a ∈ nodes ∧ a ∉ seen
  grown : ∀ a, a ∈ found.2 ↔ a ∈ new ∨ a ∈ seen
  covered : ∀ a ∈ nodes, a ∈ found.2

theorem Frontier.pop {node : α} {new : List α} {fd : List α × ExtTreeSet α cmp}
    (h : Frontier next (node :: pending) seen)
    (hf : Discovered (next node) pending seen fd new) : Frontier next fd.1 fd.2 := by
  rw [hf.pushed]
  constructor
  · intro a ha
    rcases mem_append.1 ha with ha | ha
    · exact (hf.grown a).2 (.inl ha)
    · exact (hf.grown a).2 (.inr (h.pending_seen a (mem_cons_of_mem _ ha)))
  · intro a ha hn b hb
    rw [mem_append, not_or] at hn
    by_cases hno : a = node
    · subst hno
      exact hf.covered b hb
    · have hs : a ∈ seen := ((hf.grown a).1 ha).resolve_left hn.1
      exact (hf.grown b).2 (.inr (h.expanded a hs (by simp [hno, hn.2]) b hb))

open Classical in
/-- The nodes of `bound` not seen yet, and those waiting on the stack. -/
noncomputable def remaining (bound : Finset α) (pending : List α) (seen : ExtTreeSet α cmp) :
    ℕ := (bound.filter (· ∉ seen)).card + pending.length

theorem remaining_pop {bound : Finset α} {nodes new : List α} (node : α)
    {fd : List α × ExtTreeSet α cmp}
    (hb : ∀ a ∈ nodes, a ∈ bound) (hf : Discovered nodes pending seen fd new) :
    remaining bound fd.1 fd.2 + 1 ≤ remaining bound (node :: pending) seen := by
  classical
  have hd : Disjoint (bound.filter (· ∉ fd.2)) new.toFinset := by
    rw [Finset.disjoint_left]
    intro a ha hn
    exact (Finset.mem_filter.1 ha).2 ((hf.grown a).2 (.inl (mem_toFinset.1 hn)))
  have hsu : bound.filter (· ∉ fd.2) ∪ new.toFinset ⊆ bound.filter (· ∉ seen) := by
    intro a ha
    rcases Finset.mem_union.1 ha with ha | ha
    · obtain ⟨ha, hn⟩ := Finset.mem_filter.1 ha
      exact Finset.mem_filter.2 ⟨ha, fun hs => hn ((hf.grown a).2 (.inr hs))⟩
    · obtain ⟨ha, hn⟩ := hf.fresh a (mem_toFinset.1 ha)
      exact Finset.mem_filter.2 ⟨hb a ha, hn⟩
  have hc := Finset.card_le_card hsu
  rw [Finset.card_union_of_disjoint hd, toFinset_card_of_nodup hf.nodup] at hc
  simp only [remaining, hf.pushed, length_append, length_cons]
  omega

theorem remaining_initial {bound : Finset α}
    (hs : ∀ a ∈ seen, a ∈ bound) (hp : ∀ a, a ∈ pending ↔ a ∈ seen) (hn : pending.Nodup) :
    remaining bound pending seen = bound.card := by
  classical
  have hpe : pending.toFinset = bound.filter (· ∈ seen) := by
    ext a
    simp only [mem_toFinset, Finset.mem_filter, hp a]
    exact ⟨fun ha => ⟨hs a ha, ha⟩, fun ha => ha.2⟩
  rw [remaining, ← toFinset_card_of_nodup hn, hpe, Nat.add_comm]
  exact Finset.card_filter_add_card_filter_not _

variable [LawfulEqCmp cmp]

theorem mem_insert_iff {node a : α} : a ∈ seen.insert node ↔ a = node ∨ a ∈ seen := by
  rw [ExtTreeSet.mem_insert, LawfulEqCmp.compare_eq_iff_eq, eq_comm]

theorem foldl_discover (pending : List α) (seen : ExtTreeSet α cmp) :
    ∃ new, Discovered nodes pending seen (nodes.foldl discover (pending, seen)) new := by
  induction nodes generalizing pending seen with
  | nil => exact ⟨[], by constructor <;> simp⟩
  | cons node rest ih =>
    rw [foldl_cons]
    by_cases hn : node ∈ seen
    · rw [show discover (pending, seen) node = (pending, seen) by simp [discover, hn]]
      obtain ⟨new, h⟩ := ih pending seen
      refine ⟨new, h.pushed, h.nodup, ?_, h.grown, ?_⟩
      · exact fun a ha => ⟨mem_cons_of_mem _ (h.fresh a ha).1, (h.fresh a ha).2⟩
      · intro a ha
        rcases mem_cons.1 ha with rfl | ha
        · exact (h.grown a).2 (.inr hn)
        · exact h.covered a ha
    · rw [show discover (pending, seen) node = (node :: pending, seen.insert node) by
        simp [discover, hn]]
      obtain ⟨new, h⟩ := ih (node :: pending) (seen.insert node)
      have hne : node ∉ new := fun hm => (h.fresh node hm).2 (mem_insert_iff.2 (.inl rfl))
      refine ⟨new ++ [node], by simp [h.pushed], ?_, ?_, ?_, ?_⟩
      · rw [nodup_append]
        refine ⟨h.nodup, nodup_singleton _, ?_⟩
        rintro a ha b hb rfl
        exact hne (mem_singleton.1 hb ▸ ha)
      · intro a ha
        rcases mem_append.1 ha with ha | ha
        · exact ⟨mem_cons_of_mem _ (h.fresh a ha).1,
            fun hs => (h.fresh a ha).2 (mem_insert_iff.2 (.inr hs))⟩
        · obtain rfl := mem_singleton.1 ha
          exact ⟨mem_cons_self, hn⟩
      · intro a
        rw [h.grown a, mem_insert_iff, mem_append, mem_singleton, or_assoc]
      · intro a ha
        rcases mem_cons.1 ha with rfl | ha
        · exact (h.grown a).2 (.inr (mem_insert_iff.2 (.inl rfl)))
        · exact h.covered a ha

/-- With enough fuel the drained set is exactly what the initially seen nodes reach. -/
theorem mem_drain (hb : ∀ a ∈ bound, ∀ b ∈ next a, b ∈ bound) {fuel : ℕ}
    (hs : ∀ a ∈ seen, a ∈ bound) (h : Frontier next pending seen)
    (hfu : remaining bound pending seen ≤ fuel) :
    a ∈ drain next fuel pending seen ↔ ∃ s ∈ seen, Reaches next s a := by
  induction fuel generalizing pending seen with
  | zero =>
    obtain rfl : pending = [] := length_eq_zero_iff.1 (by unfold remaining at hfu; omega)
    exact h.mem_iff
  | succ fuel ih =>
    cases pending with
    | nil => exact h.mem_iff
    | cons node pending =>
      obtain ⟨new, hf⟩ := foldl_discover pending seen
      have hno : node ∈ seen := h.pending_seen node mem_cons_self
      have hn := hb node (hs node hno)
      have hbo : ∀ s ∈ ((next node).foldl discover (pending, seen)).2, s ∈ bound := by
        intro s hm
        rcases (hf.grown s).1 hm with hm | hm
        · exact hn s (hf.fresh s hm).1
        · exact hs s hm
      rw [drain, ih hbo (h.pop hf) (by have := remaining_pop node hn hf; omega)]
      constructor
      · rintro ⟨s, hm, ha⟩
        rcases (hf.grown s).1 hm with hm | hm
        · exact ⟨node, hno, Relation.ReflTransGen.head (hf.fresh s hm).1 ha⟩
        · exact ⟨s, hm, ha⟩
      · rintro ⟨s, hm, ha⟩
        exact ⟨s, (hf.grown s).2 (.inr hm), ha⟩

end Worklist
