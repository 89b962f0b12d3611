import Mathlib.Data.List.Nodup

/-! # Batches

Work is cut into chunks of bounded size, sent off in groups, and the answers are
written back to the slots of the items they belong to. -/
namespace Batching

open List

universe u v

variable {α : Type u} {β : Type v} {size : ℕ}

/-- Consecutive chunks of `size` items, the last one possibly shorter. -/
def chunks (size : ℕ) (items : List α) : List (List α) :=
  (range ((items.length + size - 1) / size)).map fun k => (items.drop (k * size)).take size

theorem chunks_nil (hs : 0 < size) : chunks size ([] : List α) = [] := by
  have hc : (([] : List α).length + size - 1) / size = 0 := by
    rw [length_nil]
    exact Nat.div_eq_of_lt (by omega)
  rw [chunks, hc, range_zero, map_nil]

theorem chunks_of_ne_nil (hs : 0 < size) (hne : is ≠ []) :
    chunks size is = is.take size :: chunks size (is.drop size) := by
  have hp : 0 < is.length := length_pos_iff.2 hne
  have hc : (is.length + size - 1) / size = ((is.drop size).length + size - 1) / size + 1 := by
    rw [length_drop, ← Nat.add_div_right _ hs]
    by_cases hl : size ≤ is.length
    · congr 1
      omega
    · rw [show is.length + size - 1 = (is.length - 1) + size by omega,
        Nat.add_div_right _ hs, Nat.add_div_right _ hs,
        Nat.div_eq_of_lt (by omega), Nat.div_eq_of_lt (by omega)]
  rw [chunks, hc, range_succ_eq_map, map_cons, map_map, Nat.zero_mul, drop_zero]
  refine congrArg _ (map_congr_left fun k _ => ?_)
  simp only [Function.comp_apply, drop_drop]
  rw [Nat.succ_mul, Nat.add_comm]

theorem chunks_induction (hs : 0 < size) {motive : List α → Prop} (hn : motive [])
    (hm : ∀ is, is ≠ [] → motive (is.drop size) → motive is) (is : List α) : motive is := by
  induction hl : is.length using Nat.strongRecOn generalizing is with
  | _ n ih =>
    by_cases hne : is = []
    · rw [hne]
      exact hn
    · have hp : 0 < is.length := length_pos_iff.2 hne
      refine hm is hne (ih _ ?_ _ rfl)
      rw [length_drop]
      omega

theorem flatten_chunks (hs : 0 < size) (is : List α) : (chunks size is).flatten = is := by
  induction is using chunks_induction hs with
  | hn => rw [chunks_nil hs, flatten_nil]
  | hm is hne ih => rw [chunks_of_ne_nil hs hne, flatten_cons, ih, take_append_drop]

theorem length_le_of_mem_chunks (h : chunk ∈ chunks size is) : chunk.length ≤ size := by
  obtain ⟨k, -, rfl⟩ := mem_map.1 h
  exact length_take_le _ _

theorem getElem?_flatten (hs : 0 < size) {lists : List (List β)}
    (hl : lists.map length = (chunks size is).map length) (hp : position < is.length) :
    lists.flatten[position]? = lists[position / size]?.bind (·[position % size]?) := by
  induction is using chunks_induction hs generalizing lists position with
  | hn => exact absurd hp (Nat.not_lt_zero _)
  | hm is hne ih =>
    rw [chunks_of_ne_nil hs hne] at hl
    obtain ⟨first, rest, rfl, hf, hr⟩ := map_eq_cons_iff.1 hl
    rw [length_take] at hf
    rw [flatten_cons]
    by_cases hh : position < size
    · rw [Nat.div_eq_of_lt hh, Nat.mod_eq_of_lt hh,
        getElem?_append_left (by omega), getElem?_cons_zero, Option.bind_some]
    · have hlo : first.length = size := by omega
      obtain ⟨further, rfl⟩ : ∃ further, position = further + size := ⟨position - size, by omega⟩
      rw [getElem?_append_right (by omega), hlo, Nat.add_sub_cancel,
        Nat.add_div_right _ hs, Nat.add_mod_right, getElem?_cons_succ]
      apply ih hr
      rw [length_drop]
      omega

theorem getElem?_chunks (hs : 0 < size) {position : ℕ} (hp : position < is.length) :
    is[position]? = (chunks size is)[position / size]?.bind (·[position % size]?) := by
  rw [← getElem?_flatten hs rfl hp, flatten_chunks hs]

theorem getElem?_filter_zipIdx {is : List α} (selected : α → Bool) (hi : is[i]? = some it)
    (hs : selected it = true) :
    (is.zipIdx.filter (selected ·.1))[((is.take i).filter selected).length]? = some (it, i) := by
  obtain ⟨hlt, hg⟩ := List.getElem?_eq_some_iff.1 hi
  have hsp : is = is.take i ++ it :: is.drop (i + 1) := by
    rw [← hg, getElem_cons_drop, take_append_drop]
  have ht : (is.take i).length = i := length_take_of_le (Nat.le_of_lt hlt)
  have hb : ((is.take i).zipIdx.filter (selected ·.1)).length =
      ((is.take i).filter selected).length := by
    conv_rhs => rw [← zipIdx_map_fst 0 (is.take i), filter_map, length_map]
    rfl
  conv_lhs => rw [hsp]
  rw [zipIdx_append, filter_append, getElem?_append_right, zipIdx_cons,
    filter_cons_of_pos (by simpa using hs)]
  · rw [hb, take_append_of_le_length (by omega), take_take, Nat.min_self,
      Nat.sub_self, getElem?_cons_zero, ht, Nat.zero_add]
  · apply Nat.le_of_eq
    rw [hb, take_append_of_le_length (by omega), take_take, Nat.min_self]

theorem nodup_snd_filter_zipIdx (is : List α) (selected : α × ℕ → Bool) :
    ((is.zipIdx.filter selected).map Prod.snd).Nodup := by
  have ha : (is.zipIdx.map Prod.snd).Nodup := by
    rw [zipIdx_map_snd]
    exact nodup_range'
  exact ha.sublist (filter_sublist.map Prod.snd)

theorem position_of_filter_zipIdx {is : List α}
    (h : (is.zipIdx.filter (selected ·.1))[j]? = some (it, i)) :
    is[i]? = some it ∧ selected it = true ∧ j = ((is.take i).filter selected).length := by
  obtain ⟨hm, hs⟩ := mem_filter.1 (mem_of_getElem? h)
  have hi := mem_zipIdx_iff_getElem?.1 hm
  refine ⟨hi, hs, ?_⟩
  have ht := getElem?_filter_zipIdx selected hi hs
  have hn := nodup_snd_filter_zipIdx is (selected ·.1)
  have hsn : ∀ k : ℕ, (is.zipIdx.filter (selected ·.1))[k]? = some (it, i) →
      ((is.zipIdx.filter (selected ·.1)).map Prod.snd)[k]? = some i := by
    intro k hk
    rw [getElem?_map, hk]
    rfl
  exact (getElem?_inj (List.getElem?_eq_some_iff.1 (hsn j h)).1 hn).1
    ((hsn j h).trans (hsn _ ht).symm)

def scatter (slots : List (Option β)) (writes : List (ℕ × β)) : List (Option β) :=
  writes.foldl (fun slots write => slots.set write.1 (some write.2)) slots

/-- The slots written so far hold what they may hold. -/
structure Written (count : ℕ) (allowed : ℕ → β → Prop) (covered : ℕ → Prop)
    (slots : List (Option β)) : Prop where
  length : slots.length = count
  value : ∀ i value, slots[i]? = some (some value) → allowed i value
  covers : ∀ i, covered i → i < count → ∃ value, slots[i]? = some (some value)

variable {count : ℕ} {allowed : ℕ → β → Prop} {covered : ℕ → Prop} {slots : List (Option β)}

theorem Written.empty : Written count allowed (fun _ => False) (replicate count none) where
  length := length_replicate
  value := by
    intro i v h
    rw [getElem?_replicate] at h
    split at h <;> cases h
  covers := fun _ h => h.elim

theorem Written.set (h : Written count allowed covered slots) (hv : allowed ix v) :
    Written count allowed (fun i => covered i ∨ i = ix) (slots.set ix (some v)) where
  length := by rw [length_set, h.length]
  value := by
    intro i fd hf
    rw [getElem?_set] at hf
    split at hf
    · next hs =>
      split at hf
      · cases hf
        rwa [← hs]
      · cases hf
    · exact h.value i fd hf
  covers := by
    intro i hc hi
    rw [getElem?_set]
    by_cases hs : ix = i
    · rw [if_pos hs, if_pos (by rw [hs, h.length]; exact hi)]
      exact ⟨v, rfl⟩
    · rw [if_neg hs]
      rcases hc with hc | hin
      · exact h.covers i hc hi
      · exact absurd hin.symm hs

theorem Written.mono (h : Written count allowed covered slots) (hf : ∀ i, fewer i → covered i) :
    Written count allowed fewer slots := ⟨h.length, h.value, fun i hi => h.covers i (hf i hi)⟩

theorem Written.foldl {ι γ : Type} {f : γ → ι → γ} {p : γ → List (Option β)} {q : ι → ℕ → Prop}
    {s : γ} (h : Written count allowed covered (p s)) (is : List ι)
    (hf : ∀ it ∈ is, ∀ covered s, Written count allowed covered (p s) →
      Written count allowed (fun i => covered i ∨ q it i) (p (f s it))) :
    Written count allowed (fun i => covered i ∨ ∃ it ∈ is, q it i) (p (is.foldl f s)) := by
  induction is generalizing covered s with
  | nil => exact h.mono fun i hi => by simpa using hi
  | cons it rest ih =>
    obtain ⟨hi, hr⟩ := forall_mem_cons.1 hf
    refine (ih (hi covered s h) hr).mono fun i hi => ?_
    rw [exists_mem_cons_iff] at hi
    exact or_assoc.2 hi

theorem Written.scatter {β : Type} {allowed : ℕ → β → Prop} {slots : List (Option β)}
    (h : Written count allowed covered slots) {writes : List (ℕ × β)}
    (hw : ∀ i v, (i, v) ∈ writes → allowed i v) :
    Written count allowed (fun i => covered i ∨ i ∈ writes.map Prod.fst)
      (Batching.scatter slots writes) := by
  refine (h.foldl (p := id) writes fun write hm _ _ hs => hs.set (hw _ _ hm)).mono fun i hi => ?_
  rw [mem_map] at hi
  exact hi.imp_right fun ⟨write, hm, hi⟩ => ⟨write, hm, hi.symm⟩

end Batching
