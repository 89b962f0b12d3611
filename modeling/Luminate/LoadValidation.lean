import Mathlib.Algebra.Order.BigOperators.Group.List
import Luminate.CollectionGraph
import Luminate.PersistedSnapshot

/-! # What an accepted snapshot guarantees

The depth-first search of `validate_collection_graph` ends within its fuel, and a
collection it closes has nothing below it that is missing or open. -/
namespace LoadValidation

open Checks DeviceModel DaemonModel Membership CollectionGraph PersistedSnapshot List Std.ExtTreeMap

variable {p : Platform} {cs : Collections} {search next : GraphSearch}
  {id : CollectionId}

/-- The scanned members of an open collection are closed, except for the collection
opened from it last. -/
def Opened (collections : Collections) (complete : List CollectionId) :
    Option CollectionId → List (CollectionId × List CollectionMember) → Prop
  | _, [] => True
  | above, (id, left) :: below =>
    (∃ (collection : Collection) (scanned : List CollectionMember),
      collections[id]? = some collection ∧ collection.members = scanned ++ left ∧
        ∀ nested, .collection nested ∈ scanned → nested ∈ complete ∨ above = some nested) ∧
      Opened collections complete (some id) below

structure Consistent (collections : Collections) (search : GraphSearch) : Prop where
  complete : ∀ id ∈ search.complete, Grounded (memberRegistry collections) id
  opened : Opened collections search.complete none search.stack

variable {complete : List CollectionId} {c : Collection}

theorem Opened.close (h : Opened cs complete above stack) (id : CollectionId) :
    Opened cs (id :: complete) above stack := by
  induction stack generalizing above with
  | nil => trivial
  | cons entry below ih =>
    obtain ⟨⟨c, scanned, hf, hm, hs⟩, hb⟩ := h
    refine ⟨⟨c, scanned, hf, hm, fun n hn => ?_⟩, ih hb⟩
    exact (hs n hn).imp_left (mem_cons_of_mem id)

theorem Opened.return (h : Opened cs complete (some id) stack) :
    Opened cs (id :: complete) none stack := by
  cases stack with
  | nil => trivial
  | cons entry below =>
    obtain ⟨⟨c, scanned, hf, hm, hs⟩, hb⟩ := h
    refine ⟨⟨c, scanned, hf, hm, fun n hn => .inl ?_⟩, hb.close id⟩
    obtain hc | heq := hs n hn
    · exact mem_cons_of_mem id hc
    · exact Option.some.inj heq ▸ mem_cons_self

theorem Opened.scan (h : Opened cs complete none ((id, m :: left) :: below))
    (hme : ∀ n, m = .collection n → n ∈ complete ∨ last = some n) :
    Opened cs complete last ((id, left) :: below) := by
  obtain ⟨⟨c, scanned, hf, hm, hs⟩, hb⟩ := h
  refine ⟨⟨c, scanned ++ [m], hf, by simp [hm], ?_⟩, hb⟩
  intro n hn
  obtain hn | hn := mem_append.1 hn
  · obtain hc | heq := hs n hn
    · exact .inl hc
    · cases heq
  · exact hme n (mem_singleton.1 hn).symm

theorem graphStep_cases (h : graphStep p cs search = .ok next) (hs : search.stack ≠ []) :
    (∃ id below, search.stack = (id, []) :: below ∧
      next = ⟨id :: search.complete, search.visiting.erase id, below⟩) ∨
    (∃ id m left below, search.stack = (id, m :: left) :: below ∧
      (∀ n, m = .collection n → n ∈ search.complete) ∧
      next = { search with stack := (id, left) :: below }) ∨
    ∃ id n left below, ∃ c : Collection, search.stack = (id, .collection n :: left) :: below ∧
      cs[n]? = some c ∧ n ∉ search.complete ∧ n ∉ search.visiting ∧
      next = { search with
        visiting := n :: search.visiting
        stack := (n, c.members) :: (id, left) :: below } := by
  rw [graphStep] at h
  split at h
  · next heq => exact absurd heq hs
  · next id below heq => exact .inl ⟨id, below, heq, (Except.ok.inj h).symm⟩
  · next id target left below heq =>
    refine .inr (.inl ⟨id, .target target, left, below, heq, ?_, (Except.ok.inj h).symm⟩)
    intro n hm
    cases hm
  · next id n left below heq =>
    split at h
    · cases h
    · next c hf =>
      split at h
      · next hc =>
        refine .inr (.inl ⟨id, .collection n, left, below, heq, ?_, (Except.ok.inj h).symm⟩)
        intro other hm
        exact CollectionMember.collection.inj hm ▸ hc
      · next ho =>
        split at h
        · cases h
        · next hn =>
          exact .inr (.inr ⟨id, n, left, below, c, heq, hf, ho, hn, (Except.ok.inj h).symm⟩)

theorem graphStep_consistent (hse : Consistent cs search)
    (h : graphStep p cs search = .ok next) (hst : search.stack ≠ []) : Consistent cs next := by
  obtain ⟨hc, ho⟩ := hse
  obtain ⟨id, below, heq, rfl⟩ | ⟨id, m, left, below, heq, hme, rfl⟩ |
    ⟨id, n, left, below, c, heq, hf, _, _, rfl⟩ := graphStep_cases h hst
  · rw [heq] at ho
    obtain ⟨⟨c, scanned, hf, hm, hs⟩, hb⟩ := ho
    have hg : Grounded (memberRegistry cs) id := by
      refine .intro (memberRegistry_eq hf) fun n hn => ?_
      rw [inr_mem_links, hm, append_nil] at hn
      obtain hcl | heq := hs n hn
      · exact hc n hcl
      · cases heq
    refine ⟨fun closed hcl => ?_, hb.return⟩
    obtain rfl | hcl := mem_cons.1 hcl
    · exact hg
    · exact hc closed hcl
  · rw [heq] at ho
    exact ⟨hc, ho.scan fun n hn => .inl (hme n hn)⟩
  · rw [heq] at ho
    refine ⟨hc, ⟨c, [], hf, rfl, fun _ h => absurd h not_mem_nil⟩, ?_⟩
    refine ho.scan fun other hot => .inr ?_
    exact congrArg some (CollectionMember.collection.inj hot)

def Tracked (search : GraphSearch) (id : CollectionId) : Prop :=
  id ∈ search.complete ∨ id ∈ search.stack.map Prod.fst

theorem graphStep_tracked (h : graphStep p cs search = .ok next)
    (hs : search.stack ≠ []) (ht : Tracked search id) : Tracked next id := by
  obtain ⟨closed, below, heq, rfl⟩ | ⟨_, m, left, below, heq, _, rfl⟩ |
    ⟨_, n, left, below, c, heq, _, _, _, rfl⟩ := graphStep_cases h hs
  all_goals rw [Tracked, heq] at ht
  · obtain hc | ho := ht
    · exact .inl (mem_cons_of_mem closed hc)
    · obtain rfl | hb := mem_cons.1 ho
      · exact .inl mem_cons_self
      · exact .inr hb
  · exact ht
  · exact ht.imp_right (mem_cons_of_mem n)

section

variable {α : Type} {p q : α → Bool} {weight : α → ℕ} {is : List α}

theorem sum_filter_le (h : ∀ it ∈ is, q it = true → p it = true) :
    ((is.filter q).map weight).sum ≤ ((is.filter p).map weight).sum := by
  have hs : (is.filter q).Sublist (is.filter p) := by
    have hf : is.filter q = (is.filter p).filter q := by
      rw [filter_filter]
      refine filter_congr fun it hi => ?_
      cases hq : q it
      · rfl
      · rw [h it hi hq]
        rfl
    rw [hf]
    exact filter_sublist
  exact (hs.map weight).sum_le_sum fun _ _ => Nat.zero_le _

theorem sum_filter_add_le (hi : it ∈ is) (hp : p it = true) (hq : q it = false)
    (h : ∀ it ∈ is, q it = true → p it = true) :
    weight it + ((is.filter q).map weight).sum ≤ ((is.filter p).map weight).sum := by
  obtain ⟨pre, after, rfl⟩ := append_of_mem hi
  have hb : ((pre.filter q).map weight).sum ≤ ((pre.filter p).map weight).sum :=
    sum_filter_le fun other ho => h other (mem_append_left _ ho)
  have ha : ((after.filter q).map weight).sum ≤ ((after.filter p).map weight).sum :=
    sum_filter_le fun other ho =>
      h other (mem_append_right _ (mem_cons_of_mem _ ho))
  simp only [filter_append, filter_cons, hp, hq, if_true, Bool.false_eq_true, if_false,
    map_append, map_cons, sum_append, sum_cons]
  omega

end

def cost (entry : CollectionId × Collection) : ℕ := entry.2.members.length + 1

def unopened (search : GraphSearch) (entry : CollectionId × Collection) : Bool :=
  entry.1 ∉ search.complete ∧ entry.1 ∉ search.visiting

/-- The members left to scan, with one for closing each collection. -/
def remaining (collections : Collections) (search : GraphSearch) : ℕ :=
  (search.stack.map fun entry => entry.2.length + 1).sum +
    ((collections.toList.filter (unopened search)).map cost).sum

theorem graphStep_remaining (h : graphStep p cs search = .ok next)
    (hs : search.stack ≠ []) : remaining cs next < remaining cs search := by
  obtain ⟨id, below, heq, rfl⟩ | ⟨id, m, left, below, heq, _, rfl⟩ |
    ⟨id, n, left, below, c, heq, hf, hco, hv, rfl⟩ := graphStep_cases h hs
  · have hl : ((cs.toList.filter (unopened
          ⟨id :: search.complete, search.visiting.erase id, below⟩)).map cost).sum ≤
        ((cs.toList.filter (unopened search)).map cost).sum := by
      refine sum_filter_le fun entry _ he => ?_
      obtain ⟨hc, ho⟩ := of_decide_eq_true he
      rw [mem_cons, not_or] at hc
      obtain ⟨hne, hc⟩ := hc
      exact decide_eq_true ⟨hc, fun hm => ho ((mem_erase_of_ne hne).2 hm)⟩
    simp only [remaining, heq, map_cons, sum_cons, length_nil]
    omega
  · simp only [remaining, heq, map_cons, sum_cons, length_cons]
    exact Nat.add_lt_add_right (by omega) _
  · have hcs : cost (n, c) = c.members.length + 1 := rfl
    have hl : cost (n, c) + ((cs.toList.filter (unopened
          { search with visiting := n :: search.visiting, stack :=
              (n, c.members) :: (id, left) :: below })).map cost).sum ≤
        ((cs.toList.filter (unopened search)).map cost).sum := by
      have hm : (n, c) ∈ cs.toList := mem_toList_iff_getElem?_eq_some.2 hf
      have hu : unopened search (n, c) = true := decide_eq_true ⟨hco, hv⟩
      refine sum_filter_add_le hm hu ?_ fun entry _ he => ?_
      · refine decide_eq_false fun hb => hb.2 ?_
        exact mem_cons_self
      · obtain ⟨hc, ho⟩ := of_decide_eq_true he
        exact decide_eq_true ⟨hc, fun hm => ho (mem_cons_of_mem _ hm)⟩
    simp only [remaining, heq, map_cons, sum_cons, length_cons]
    omega

theorem graphLoop_done (hf : remaining cs search ≤ fuel) (hs : Consistent cs search)
    (h : graphLoop p cs fuel search = .ok result) :
    (∀ id, Tracked search id → id ∈ result.complete) ∧
      ∀ id ∈ result.complete, Grounded (memberRegistry cs) id := by
  induction fuel generalizing search with
  | zero =>
    obtain rfl := Except.ok.inj h
    have he : search.stack = [] := by
      by_contra hne
      obtain ⟨entry, below, heq⟩ := exists_cons_of_ne_nil hne
      simp [remaining, heq] at hf
    refine ⟨fun id ht => ht.resolve_right ?_, hs.complete⟩
    rw [he]
    exact not_mem_nil
  | succ fuel ih =>
    rw [graphLoop] at h
    split at h
    · next he =>
      cases h
      refine ⟨fun id ht => ht.resolve_right ?_, hs.complete⟩
      rw [isEmpty_iff.1 he]
      exact not_mem_nil
    · next he =>
      have hst : search.stack ≠ [] := fun heq => he (heq ▸ rfl)
      obtain ⟨next, hn, hr⟩ := bind_ok_iff.1 h
      have hl := graphStep_remaining hn hst
      obtain ⟨ht, hg⟩ := ih (by omega) (graphStep_consistent hs hn hst) hr
      exact ⟨fun id hid => ht id (graphStep_tracked hn hst hid), hg⟩

theorem consistent_root (hc : ∀ id ∈ complete, Grounded (memberRegistry cs) id)
    (hf : cs[id]? = some c) : Consistent cs ⟨complete, [id], [(id, c.members)]⟩ where
  complete := hc
  opened := ⟨⟨c, [], hf, rfl, fun _ h => absurd h not_mem_nil⟩, trivial⟩

theorem remaining_root (hf : cs[id]? = some c) :
    remaining cs ⟨complete, [id], [(id, c.members)]⟩ ≤ graphFuel cs := by
  have hm : (id, c) ∈ cs.toList := mem_toList_iff_getElem?_eq_some.2 hf
  have ha : cs.toList.filter (fun _ => true) = cs.toList := filter_eq_self.2 fun _ _ => rfl
  have hl : cost (id, c) + ((cs.toList.filter (unopened
        ⟨complete, [id], [(id, c.members)]⟩)).map cost).sum ≤
      ((cs.toList.filter fun _ => true).map cost).sum := by
    refine sum_filter_add_le hm rfl ?_ fun _ _ _ => rfl
    exact decide_eq_false fun hb => hb.2 mem_cons_self
  rw [ha] at hl
  exact hl

theorem validateRoots_grounded {roots : List (CollectionId × Collection)}
    (hr : ∀ entry ∈ roots, cs[entry.1]? = some entry.2)
    (hc : ∀ id ∈ complete, Grounded (memberRegistry cs) id)
    (h : roots.foldlM (fun (complete : List CollectionId) (entry : _ × Collection) =>
      if entry.1 ∈ complete then return complete
      else do
        let search ← graphLoop p cs (graphFuel cs)
          ⟨complete, [entry.1], [(entry.1, entry.2.members)]⟩
        return search.complete) complete = .ok result) :
    ∀ id ∈ roots.map Prod.fst ++ complete, Grounded (memberRegistry cs) id := by
  induction roots generalizing complete with
  | nil => exact hc
  | cons root roots ih =>
    rw [foldlM_cons] at h
    obtain ⟨between, hb, hrs⟩ := bind_ok_iff.1 h
    -- The root is closed, and what was closed before still is.
    have hcl : root.1 ∈ between ∧ complete ⊆ between ∧
        ∀ id ∈ between, Grounded (memberRegistry cs) id := by
      split at hb
      · next hm =>
        cases hb
        exact ⟨hm, Subset.refl _, hc⟩
      · obtain ⟨search, hs, hre⟩ := bind_ok_iff.1 hb
        cases hre
        have hf := hr root mem_cons_self
        obtain ⟨ht, hg⟩ := graphLoop_done (remaining_root hf) (consistent_root hc hf) hs
        refine ⟨ht root.1 (.inr mem_cons_self), fun id hid => ?_, hg⟩
        exact ht id (.inl hid)
    obtain ⟨hro, hk, hg⟩ := hcl
    have hl := ih (fun entry he => hr entry (mem_cons_of_mem _ he)) hg hrs
    intro id hid
    rw [map_cons, cons_append, mem_cons, mem_append] at hid
    obtain rfl | hid | hid := hid
    · exact hg _ hro
    · exact hl id (mem_append_left _ hid)
    · exact hg id (hk hid)

theorem validateCollectionGraph_grounded (h : validateCollectionGraph p cs = .ok ())
    (hf : cs[id]? = some c) : Grounded (memberRegistry cs) id := by
  obtain ⟨complete, hc, _⟩ := bind_ok_iff.1 h
  have hs : (id, c) ∈ cs.toList := mem_toList_iff_getElem?_eq_some.2 hf
  have hr : ∀ entry ∈ cs.toList, cs[entry.1]? = some entry.2 :=
    fun _ he => mem_toList_iff_getElem?_eq_some.1 he
  apply validateRoots_grounded hr (fun _ h => absurd h not_mem_nil) hc id
  exact mem_append_left _ (mem_map_of_mem hs)

end LoadValidation
