import Luminate.DaemonModel
import Luminate.Membership

/-! # Collection membership

`CollectionGraph` of `luminate-core/src/collection.rs`: expanding a collection
to its concrete leaf targets, depth first. -/
namespace CollectionGraph

open Checks DepthFirst DeviceModel DaemonModel Membership List

inductive CollectionGraphError where
  | collectionNotFound (id : CollectionId)
  | duplicateCollection (id : CollectionId)
  | cycle (id : CollectionId)
  deriving DecidableEq

/-- The collections fully expanded so far, and the leaves in order of their
first occurrence. -/
structure Expansion where
  expanded : List CollectionId := []
  leaves : List TargetId := []
  deriving DecidableEq

def addLeaf (walk : Expansion) (target : TargetId) : Expansion :=
  if target ∈ walk.leaves then walk else { walk with leaves := walk.leaves ++ [target] }

/-- One member of a collection; `expand` expands a nested one. -/
def collectMember (expand : Expansion → CollectionId → Except CollectionGraphError Expansion)
    (walk : Expansion) : CollectionMember → Except CollectionGraphError Expansion
  | .target target => .ok (addLeaf walk target)
  | .collection nested => expand walk nested

/-- `collect_leaves`; `visiting` holds the collections being expanded, which are
distinct, so one level per collection is enough. -/
def collectLeaves (collections : List Collection) : ℕ → List CollectionId → Expansion →
    CollectionId → Except CollectionGraphError Expansion
  | 0, _, _, id => .error (.cycle id)
  | fuel + 1, visiting, walk, id =>
    if id ∈ walk.expanded then .ok walk
    else
      match collections.filter (·.id == id) with
      | _ :: _ :: _ => .error (.duplicateCollection id)
      | [] => .error (if id ∈ visiting then .cycle id else .collectionNotFound id)
      | [collection] =>
        if id ∈ visiting then .error (.cycle id)
        else do
          let walked ← collection.members.foldlM
            (collectMember (collectLeaves collections fuel (id :: visiting))) walk
          return { walked with expanded := id :: walked.expanded }

def resolveLeaves (collections : List Collection) (id : CollectionId) :
    Except CollectionGraphError (List TargetId) := do
  let walked ← collectLeaves collections (collections.length + 1) [] {} id
  return walked.leaves

variable {vis : List CollectionId} {fuel : ℕ}
  {expand : Expansion → CollectionId → Except CollectionGraphError Expansion}
  {motive : ℕ → List CollectionId → CollectionId → Prop}

variable {cs : List Collection} {target : TargetId}

theorem found_of_filter {id : CollectionId} (h : cs.filter (·.id == id) = [co]) :
    co ∈ cs ∧ co.id = id := by
  have hm : co ∈ cs.filter (·.id == id) := by
    rw [h]
    exact mem_singleton_self co
  obtain ⟨hc, hid⟩ := mem_filter.1 hm
  exact ⟨hc, beq_iff_eq.1 hid⟩

theorem collectLeaves_succ (hf : unvisited Collection.id cs vis ≤ fuel) (walk : Expansion)
    (id : CollectionId) :
    collectLeaves cs (fuel + 1) vis walk id = collectLeaves cs (fuel + 2) vis walk id := by
  induction fuel generalizing vis walk id with
  | zero =>
    rw [collectLeaves, collectLeaves]
    split
    · rfl
    · split
      · rfl
      · rfl
      · next co heq =>
        obtain ⟨hm, hid⟩ := found_of_filter heq
        rw [if_pos, if_pos]
        all_goals
          by_contra h
          have := unvisited_lt hm (hid ▸ h)
          omega
  | succ fuel ih =>
    rw [collectLeaves, collectLeaves]
    split
    · rfl
    · split
      · rfl
      · rfl
      · next co heq =>
        obtain ⟨hm, hid⟩ := found_of_filter heq
        split
        · rfl
        · next h =>
          have hl := unvisited_lt hm (hid ▸ h)
          rw [hid] at hl
          have hn : collectLeaves cs (fuel + 1) (id :: vis) =
              collectLeaves cs (fuel + 2) (id :: vis) := by
            funext walk nested
            exact ih (by omega) walk nested
          rw [hn]

theorem collectLeaves_enough_fuel (id : CollectionId) (extra : ℕ) :
    collectLeaves cs (cs.length + 1 + extra) [] walk id =
      collectLeaves cs (cs.length + 1) [] walk id :=
  enough_fuel (fun fuel => collectLeaves cs fuel [] walk id)
    (fun _ hf => collectLeaves_succ hf walk id)

def link : CollectionMember → TargetId ⊕ CollectionId
  | .target target => .inl target
  | .collection nested => .inr nested

def lookup (collections : List Collection) (id : CollectionId) : Option Collection :=
  match collections.filter (·.id == id) with
  | [collection] => some collection
  | _ => none

def registryOf (collections : List Collection) : Registry TargetId CollectionId :=
  fun id => (lookup collections id).map fun collection => collection.members.map link

variable {cs : List Collection} {co : Collection} {id nested : CollectionId}
  {walk walked : Expansion} {ms : List CollectionMember}

theorem inl_mem_links : .inl target ∈ ms.map link ↔ .target target ∈ ms := by
  constructor
  · intro h
    obtain ⟨m, hm, hl⟩ := mem_map.1 h
    cases m with
    | target other => exact Sum.inl.inj hl ▸ hm
    | collection nested => cases hl
  · exact fun h => mem_map.2 ⟨_, h, rfl⟩

theorem inr_mem_links : .inr nested ∈ ms.map link ↔ .collection nested ∈ ms := by
  constructor
  · intro h
    obtain ⟨m, hm, hl⟩ := mem_map.1 h
    cases m with
    | target target => cases hl
    | collection other => exact Sum.inr.inj hl ▸ hm
  · exact fun h => mem_map.2 ⟨_, h, rfl⟩

theorem lookup_eq_some : lookup cs id = some co ↔ cs.filter (·.id == id) = [co] := by
  rw [lookup]
  split
  · next fd heq => rw [heq, Option.some.injEq, cons.injEq, and_iff_left rfl]
  · next hn =>
    constructor
    · exact fun h => nomatch h
    · exact fun h => absurd h (hn co)

theorem lookup_mem (h : lookup cs id = some co) : co ∈ cs ∧ co.id = id :=
  found_of_filter (lookup_eq_some.1 h)

theorem registryOf_eq (h : lookup cs id = some co) :
    registryOf cs id = some (co.members.map link) := by
  rw [registryOf, h]
  rfl

theorem exists_lookup (h : registryOf cs id = some links) :
    ∃ co, lookup cs id = some co ∧ links = co.members.map link := by
  obtain ⟨co, hl, hli⟩ := Option.map_eq_some_iff.1 h
  exact ⟨co, hl, hli.symm⟩

section

variable (collections : List Collection)

/-- The leaves below an expanded collection have all been collected. -/
def Expansion.Done (walk : Expansion) : Prop :=
  ∀ id ∈ walk.expanded, flatten (registryOf collections) id ⊆ walk.leaves

noncomputable def leavesOf : TargetId ⊕ CollectionId → List TargetId :=
  Sum.elim (fun target => [target]) (flatten (registryOf collections))

/-- `found` has been collected on the way from `walk` to `walked`. -/
def Collected (walk : Expansion) (found : List TargetId) (walked : Expansion) : Prop :=
  walked.leaves = addAll walk.leaves found ∧ walked.Done collections

theorem addLeaf_expanded : (addLeaf walk target).expanded = walk.expanded := by
  rw [addLeaf]
  split
  · rfl
  · rfl

theorem collected_addLeaf (hd : walk.Done cs) :
    Collected cs walk [target] (addLeaf walk target) := by
  have hl : (addLeaf walk target).leaves = addAll walk.leaves [target] := by
    simp only [addLeaf, addAll, foldl_cons, foldl_nil]
    split
    · rfl
    · rfl
  refine ⟨hl, fun id hid leaf hle => ?_⟩
  rw [hl]
  exact mem_addAll.2 (.inl (hd id (addLeaf_expanded ▸ hid) hle))

theorem collectMembers_ok (he : ∀ nested, .collection nested ∈ ms → ∀ walk : Expansion,
      walk.Done cs → ∃ walked, expand walk nested = .ok walked ∧
        Collected cs walk (flatten (registryOf cs) nested) walked)
    (hd : walk.Done cs) : ∃ walked, ms.foldlM (collectMember expand) walk = .ok walked ∧
      Collected cs walk ((ms.map link).flatMap (leavesOf cs)) walked := by
  induction ms generalizing walk with
  | nil => exact ⟨walk, rfl, rfl, hd⟩
  | cons m ms ih =>
    have hf : ∃ walked, collectMember expand walk m = .ok walked ∧
        Collected cs walk (leavesOf cs (link m)) walked := by
      cases m with
      | target target => exact ⟨addLeaf walk target, rfl, collected_addLeaf hd⟩
      | collection nested => exact he nested mem_cons_self walk hd
    obtain ⟨between, hb, hl, hd⟩ := hf
    obtain ⟨walked, hw, hr, hd⟩ := ih (fun nested hn => he nested (mem_cons_of_mem _ hn)) hd
    refine ⟨walked, ?_, ?_, hd⟩
    · rw [foldlM_cons, hb]
      exact hw
    · rw [hr, hl, map_cons, flatMap_cons, addAll_append]

/-- Induction along a depth-first walk that carries the collections being visited. -/
theorem walk_induction (step : ∀ fuel vis id co, lookup cs id = some co →
      Grounded (registryOf cs) id → id ∉ vis →
      (∀ nested, .collection nested ∈ co.members → motive fuel (id :: vis) nested) →
      motive (fuel + 1) vis id) (hg : Grounded (registryOf cs) id)
    (hf : unvisited Collection.id cs vis ≤ fuel) (hvi : ∀ visited ∈ vis,
      ¬ Relation.ReflTransGen (Contains (registryOf cs)) id visited) :
    motive (fuel + 1) vis id := by
  induction hg generalizing fuel vis with
  | @intro id links fd below ih =>
    have hs : Grounded (registryOf cs) id := .intro fd below
    obtain ⟨co, hl, rfl⟩ := exists_lookup fd
    obtain ⟨hm, hid⟩ := lookup_mem hl
    have hne : id ∉ vis := fun h => hvi id h .refl
    have hle : unvisited Collection.id cs (id :: vis) < unvisited Collection.id cs vis :=
      hid ▸ unvisited_lt hm (hid.symm ▸ hne)
    refine step fuel vis id co hl hs hne fun nested hn => ?_
    have hc : Contains (registryOf cs) id nested := ⟨_, fd, inr_mem_links.2 hn⟩
    -- A nested collection cannot lead back to one being visited.
    have ha : ∀ visited ∈ id :: vis,
        ¬ Relation.ReflTransGen (Contains (registryOf cs)) nested visited := by
      intro visited hv hr
      obtain rfl | hv := mem_cons.1 hv
      · exact hs.not_reaches_self (.head' hc hr)
      · exact hvi visited hv (.head hc hr)
    obtain ⟨fuel, rfl⟩ : ∃ less, fuel = less + 1 := ⟨fuel - 1, by omega⟩
    exact ih nested (inr_mem_links.2 hn) (by omega) ha

theorem walk_induction_from_start (step : ∀ fuel vis id co, lookup cs id = some co →
      Grounded (registryOf cs) id → id ∉ vis →
      (∀ nested, .collection nested ∈ co.members → motive fuel (id :: vis) nested) →
      motive (fuel + 1) vis id) (hg : Grounded (registryOf cs) id) :
    motive (cs.length + 1) [] id :=
  walk_induction step hg (length_filter_le _ _) fun _ h => absurd h not_mem_nil

theorem collectLeaves_ok (hg : Grounded (registryOf cs) id) : ∀ walk : Expansion, walk.Done cs →
      ∃ walked, collectLeaves cs (cs.length + 1) [] walk id = .ok walked ∧
        Collected cs walk (flatten (registryOf cs) id) walked := by
  refine walk_induction_from_start (motive := fun fuel vis id => ∀ walk : Expansion, walk.Done cs →
      ∃ walked, collectLeaves cs fuel vis walk id = .ok walked ∧
        Collected cs walk (flatten (registryOf cs) id) walked)
    ?_ hg
  intro fuel vis id co hlo hs hn ih walk hd
  by_cases he : id ∈ walk.expanded
  · refine ⟨walk, ?_, (addAll_of_subset (hd id he)).symm, hd⟩
    rw [collectLeaves, if_pos he]
  obtain ⟨walked, hw, hl, hd⟩ := collectMembers_ok ih hd
  have hf : flatten (registryOf cs) id = (co.members.map link).flatMap (leavesOf cs) :=
    flatten_eq hs (registryOf_eq hlo)
  refine ⟨{ walked with expanded := id :: walked.expanded }, ?_, ?_, ?_⟩
  · rw [collectLeaves, if_neg he, lookup_eq_some.1 hlo]
    simp only [if_neg hn, hw]
    rfl
  · rw [hf]
    exact hl
  · intro expanded hm leaf hle
    obtain rfl | hm := mem_cons.1 hm
    · rw [hf] at hle
      exact hl.symm ▸ mem_addAll.2 (.inr hle)
    · exact hd expanded hm hle

theorem grounded_of_collectMembers
    (he : ∀ walk walked nested, (∀ id ∈ walk.expanded, Grounded (registryOf cs) id) →
      expand walk nested = .ok walked → Grounded (registryOf cs) nested ∧
        ∀ id ∈ walked.expanded, Grounded (registryOf cs) id)
    (hwa : ∀ id ∈ walk.expanded, Grounded (registryOf cs) id)
    (h : ms.foldlM (collectMember expand) walk = .ok walked) :
    (∀ nested, .collection nested ∈ ms → Grounded (registryOf cs) nested) ∧
      ∀ id ∈ walked.expanded, Grounded (registryOf cs) id := by
  induction ms generalizing walk with
  | nil =>
    cases h
    exact ⟨fun _ hm => absurd hm not_mem_nil, hwa⟩
  | cons m ms ih =>
    obtain ⟨between, hb, hr⟩ := bind_ok_iff.1 h
    cases m with
    | target target =>
      cases hb
      obtain ⟨hn, hw⟩ := ih (fun id hid => hwa id (addLeaf_expanded ▸ hid)) hr
      refine ⟨fun nested hm => ?_, hw⟩
      obtain heq | hm := mem_cons.1 hm
      · cases heq
      · exact hn nested hm
    | collection inner =>
      obtain ⟨hi, hb⟩ := he walk between inner hwa hb
      obtain ⟨hn, hw⟩ := ih hb hr
      refine ⟨fun nested hm => ?_, hw⟩
      obtain heq | hm := mem_cons.1 hm
      · exact CollectionMember.collection.inj heq ▸ hi
      · exact hn nested hm

theorem grounded_of_collectLeaves (hwa : ∀ id ∈ walk.expanded, Grounded (registryOf cs) id)
    (h : collectLeaves cs fuel vis walk id = .ok walked) :
    Grounded (registryOf cs) id ∧ ∀ id ∈ walked.expanded, Grounded (registryOf cs) id := by
  induction fuel generalizing vis walk walked id with
  | zero => cases h
  | succ fuel ih =>
    rw [collectLeaves] at h
    split at h
    · next he =>
      cases h
      exact ⟨hwa id he, hwa⟩
    · split at h
      · cases h
      · cases h
      · next co hf =>
        split at h
        · cases h
        · obtain ⟨between, hb, hw⟩ := bind_ok_iff.1 h
          cases hw
          obtain ⟨hn, he⟩ := grounded_of_collectMembers
            (fun walk walked nested hwa hok => ih hwa hok) hwa hb
          have hs : Grounded (registryOf cs) id :=
            .intro (registryOf_eq (lookup_eq_some.2 hf)) fun nested hm =>
              hn nested (inr_mem_links.1 hm)
          refine ⟨hs, fun expanded hm => ?_⟩
          obtain rfl | hm := mem_cons.1 hm
          · exact hs
          · exact he expanded hm

/-- Resolution succeeds exactly below a sound part of the registry, with the
leaves in the order of their first occurrence. -/
theorem resolveLeaves_ok_iff : resolveLeaves cs id = .ok leaves ↔
      Grounded (registryOf cs) id ∧ leaves = addAll [] (flatten (registryOf cs) id) := by
  have hr : Grounded (registryOf cs) id →
      resolveLeaves cs id = .ok (addAll [] (flatten (registryOf cs) id)) := by
    intro hg
    have hf : Expansion.Done cs {} := fun _ h => absurd h not_mem_nil
    obtain ⟨walked, hw, hl, _⟩ := collectLeaves_ok hg {} hf
    rw [resolveLeaves, hw]
    exact congrArg Except.ok hl
  constructor
  · intro h
    obtain ⟨walked, hw, _⟩ := bind_ok_iff.1 h
    have hg := (grounded_of_collectLeaves (fun _ h => absurd h not_mem_nil) hw).1
    exact ⟨hg, Except.ok.inj (h.symm.trans (hr hg))⟩
  · rintro ⟨hg, rfl⟩
    exact hr hg

/-- The registry of a map, whatever identifiers its collections carry. -/
def memberRegistry (collections : Collections) : Registry TargetId CollectionId :=
  fun id => collections[id]?.map fun collection => collection.members.map link

theorem memberRegistry_eq {cs : Collections} (h : cs[id]? = some co) :
    memberRegistry cs id = some (co.members.map link) := by
  rw [memberRegistry, h]
  rfl

theorem contains_memberRegistry {cs : Collections} : Contains (memberRegistry cs) id nested ↔
      ∃ co : Collection, cs[id]? = some co ∧ .collection nested ∈ co.members := by
  constructor
  · rintro ⟨links, hl, hn⟩
    obtain ⟨co, hf, rfl⟩ := Option.map_eq_some_iff.1 hl
    exact ⟨co, hf, inr_mem_links.1 hn⟩
  · rintro ⟨co, hf, hn⟩
    exact ⟨_, memberRegistry_eq hf, inr_mem_links.2 hn⟩

def Keyed (collections : Collections) : Prop :=
  ∀ (id : CollectionId) (collection : Collection),
    collections[id]? = some collection → collection.id = id

theorem keyed_empty : Keyed ∅ := by
  intro id co h
  simp at h

theorem Keyed.insert {cs : Collections} (h : Keyed cs)
    (co : Collection) : Keyed (cs.insert co.id co) := by
  intro id stored hs
  rw [Std.ExtTreeMap.getElem?_insert] at hs
  split at hs
  · next heq =>
    cases hs
    exact Std.LawfulEqCmp.eq_of_compare heq
  · exact h id stored hs

def Nests (outer inner : CollectionId) : Prop :=
  ∃ collection ∈ collections, collection.id = outer ∧ .collection inner ∈ collection.members

structure Sound (collections : List Collection) : Prop where
  unique : (collections.map (·.id)).Nodup
  closed : ∀ collection ∈ collections, ∀ nested, .collection nested ∈ collection.members →
    ∃ other ∈ collections, other.id = nested
  acyclic : ∀ collection ∈ collections,
    ¬ Relation.TransGen (Nests collections) collection.id collection.id

theorem lookup_of_mem (hu : (cs.map (·.id)).Nodup) (hm : co ∈ cs) : lookup cs co.id = some co := by
  apply lookup_eq_some.2
  obtain ⟨pre, after, rfl⟩ := append_of_mem hm
  rw [map_append, map_cons, nodup_middle, nodup_cons, mem_append, not_or] at hu
  obtain ⟨⟨hb, ha⟩, _⟩ := hu
  have ho : ∀ {others : List Collection}, co.id ∉ others.map (·.id) →
      others.filter (·.id == co.id) = [] := by
    intro others h
    refine filter_eq_nil_iff.2 fun other hm heq => h ?_
    exact mem_map.2 ⟨other, hm, beq_iff_eq.1 heq⟩
  rw [filter_append, filter_cons, ho hb, ho ha, beq_self_eq_true]
  rfl

theorem lookup_iff (hu : (cs.map (·.id)).Nodup) :
    lookup cs id = some co ↔ co ∈ cs ∧ co.id = id := by
  constructor
  · exact lookup_mem
  · rintro ⟨hm, rfl⟩
    exact lookup_of_mem hu hm

theorem nests_of_contains (h : Contains (registryOf cs) id nested) : Nests cs id nested := by
  obtain ⟨links, hli, hn⟩ := h
  obtain ⟨co, hl, rfl⟩ := exists_lookup hli
  obtain ⟨hm, hid⟩ := lookup_mem hl
  exact ⟨co, hm, hid, inr_mem_links.1 hn⟩

theorem contains_iff (hu : (cs.map (·.id)).Nodup) :
    Contains (registryOf cs) id nested ↔ Nests cs id nested := by
  constructor
  · exact nests_of_contains
  · rintro ⟨co, hm, rfl, hn⟩
    exact ⟨_, registryOf_eq (lookup_of_mem hu hm), inr_mem_links.2 hn⟩

theorem reaches_iff (hu : (cs.map (·.id)).Nodup) :
    Relation.TransGen (Contains (registryOf cs)) id nested ↔
      Relation.TransGen (Nests cs) id nested := by
  have hs : Contains (registryOf cs) = Nests cs := by
    funext outer inner
    exact propext (contains_iff hu)
  rw [hs]

theorem Sound.grounded (h : Sound cs) (hm : co ∈ cs) : Grounded (registryOf cs) co.id := by
  have hs : ∀ id ∈ cs.map (·.id), ∃ co ∈ cs, co.id = id := fun id hid => mem_map.1 hid
  refine grounded_of_acyclic (cs.map (·.id)) ?_ ?_ ?_ _ (mem_map_of_mem hm)
  · intro id hid
    obtain ⟨co, hm, rfl⟩ := hs id hid
    exact ⟨_, registryOf_eq (lookup_of_mem h.unique hm)⟩
  · intro id _ nested hc
    obtain ⟨co, hm, _, hn⟩ := (contains_iff h.unique).1 hc
    obtain ⟨other, ho, rfl⟩ := h.closed co hm nested hn
    exact mem_map_of_mem ho
  · intro id hid hcy
    obtain ⟨co, hm, rfl⟩ := hs id hid
    exact h.acyclic co hm ((reaches_iff h.unique).1 hcy)

theorem sound_of_grounded (hu : (cs.map (·.id)).Nodup)
    (hg : ∀ co ∈ cs, Grounded (registryOf cs) co.id) : Sound cs where
  unique := hu
  closed := by
    intro co hm nested hn
    have hc : Contains (registryOf cs) co.id nested := (contains_iff hu).2 ⟨co, hm, rfl, hn⟩
    obtain ⟨links, hli⟩ := ((hg co hm).of_contains hc).exists_members
    obtain ⟨other, hl, _⟩ := exists_lookup hli
    exact ⟨other, lookup_mem hl⟩
  acyclic := by
    intro co hm hcy
    exact (hg co hm).not_reaches_self ((reaches_iff hu).2 hcy)

theorem sound_of_resolved (hu : (cs.map (·.id)).Nodup)
    (h : ∀ co ∈ cs, (resolveLeaves cs co.id).isOk = true) : Sound cs := by
  refine sound_of_grounded hu fun co hm => ?_
  cases hr : resolveLeaves cs co.id with
  | ok leaves => exact (resolveLeaves_ok_iff.1 hr).1
  | error e =>
    have hok := h co hm
    rw [hr] at hok
    cases hok

theorem exists_lookup_iff : (∃ co, lookup cs id = some co) ↔ (cs.map (·.id)).count id = 1 := by
  simp only [lookup_eq_some]
  rw [count, countP_map, countP_eq_length_filter, length_eq_one_iff]
  rfl

theorem lookup_of_grounded (hg : Grounded (registryOf cs) co.id)
    (hm : co ∈ cs) : lookup cs co.id = some co := by
  obtain ⟨links, hli⟩ := hg.exists_members
  obtain ⟨fd, hl, _⟩ := exists_lookup hli
  have hf : co ∈ cs.filter (·.id == co.id) := mem_filter.2 ⟨hm, beq_self_eq_true _⟩
  rw [lookup_eq_some.1 hl] at hf
  exact mem_singleton.1 hf ▸ hl

theorem contains_of_grounded (hg : Grounded (registryOf cs) id)
    (h : Nests cs id nested) : Contains (registryOf cs) id nested := by
  obtain ⟨co, hm, rfl, hn⟩ := h
  exact ⟨_, registryOf_eq (lookup_of_grounded hg hm), inr_mem_links.2 hn⟩

theorem reaches_of_grounded (hg : Grounded (registryOf cs) id)
    (h : Relation.ReflTransGen (Nests cs) id nested) : Grounded (registryOf cs) nested ∧
      Relation.ReflTransGen (Contains (registryOf cs)) id nested := by
  induction h with
  | refl => exact ⟨hg, .refl⟩
  | tail _ hn ih =>
    have hc := contains_of_grounded ih.1 hn
    exact ⟨ih.1.of_contains hc, ih.2.tail hc⟩

/-- Every collection below exists once, and no cycle is reached. -/
def Resolvable (id : CollectionId) : Prop :=
  ∀ other, Relation.ReflTransGen (Nests collections) id other →
    (collections.map (·.id)).count other = 1 ∧ ¬ Relation.TransGen (Nests collections) other other

theorem Resolvable.grounded (h : Resolvable cs id) : Grounded (registryOf cs) id := by
  classical
  have hm : ∀ other, Relation.ReflTransGen (Nests cs) id other → other ∈ (cs.map (·.id)).filter
        (Relation.ReflTransGen (Nests cs) id) := by
    intro other hr
    refine mem_filter.2 ⟨?_, decide_eq_true hr⟩
    exact count_pos_iff.1 (by rw [(h other hr).1]; exact one_pos)
  have hr : ∀ other ∈ (cs.map (·.id)).filter (Relation.ReflTransGen (Nests cs) id),
      Relation.ReflTransGen (Nests cs) id other :=
    fun other ho => of_decide_eq_true (mem_filter.1 ho).2
  refine grounded_of_acyclic _ ?_ ?_ ?_ id (hm id .refl)
  · intro other ho
    obtain ⟨co, hl⟩ := exists_lookup_iff.2 (h other (hr other ho)).1
    exact ⟨_, registryOf_eq hl⟩
  · intro other ho nested hc
    exact hm nested ((hr other ho).tail (nests_of_contains hc))
  · intro other ho hc
    exact (h other (hr other ho)).2 (Relation.TransGen.mono (fun _ _ => nests_of_contains) _ _ hc)

theorem grounded_iff_resolvable : Grounded (registryOf cs) id ↔ Resolvable cs id := by
  constructor
  · intro hg other hr
    obtain ⟨ho, _⟩ := reaches_of_grounded hg hr
    obtain ⟨links, hli⟩ := ho.exists_members
    obtain ⟨co, hl, _⟩ := exists_lookup hli
    refine ⟨exists_lookup_iff.1 ⟨co, hl⟩, fun hc => ho.not_reaches_self ?_⟩
    obtain ⟨last, hb, hn⟩ := Relation.TransGen.tail'_iff.1 hc
    obtain ⟨hla, hb⟩ := reaches_of_grounded ho hb
    exact .tail' hb (contains_of_grounded hla hn)
  · exact Resolvable.grounded

def ReachesTarget (id : CollectionId) (target : TargetId) : Prop :=
  ∃ collection ∈ collections, Relation.ReflTransGen (Nests collections) id collection.id ∧
    .target target ∈ collection.members

end

/-- The targets a depth-first walk of the members meets, each as often as it meets it. -/
inductive DepthFirst (collections : List Collection) :
    List CollectionMember → List TargetId → Prop
  | nil : DepthFirst collections [] []
  | target {target : TargetId} {rest : List CollectionMember} {found : List TargetId}
      (next : DepthFirst collections rest found) :
      DepthFirst collections (.target target :: rest) (target :: found)
  | collection {collection : Collection} {rest : List CollectionMember}
      {inner found : List TargetId} (listed : collection ∈ collections)
      (below : DepthFirst collections collection.members inner)
      (next : DepthFirst collections rest found) :
      DepthFirst collections (.collection collection.id :: rest) (inner ++ found)

theorem depthFirst_of_members (h : ∀ nested, .collection nested ∈ ms → ∃ co ∈ cs, co.id = nested ∧
        DepthFirst cs co.members (flatten (registryOf cs) nested)) :
    DepthFirst cs ms ((ms.map link).flatMap (leavesOf cs)) := by
  induction ms with
  | nil => exact .nil
  | cons m ms ih =>
    have hr := ih fun nested hn => h nested (mem_cons_of_mem _ hn)
    cases m with
    | target target => exact .target hr
    | collection nested =>
      obtain ⟨co, hm, rfl, hd⟩ := h nested mem_cons_self
      exact .collection hm hd hr

theorem depthFirst_of_grounded (hg : Grounded (registryOf cs) id) : ∃ co ∈ cs, co.id = id ∧
      DepthFirst cs co.members (flatten (registryOf cs) id) := by
  induction hg with
  | @intro id links fd below ih =>
    obtain ⟨co, hl, rfl⟩ := exists_lookup fd
    obtain ⟨hm, hid⟩ := lookup_mem hl
    refine ⟨co, hm, hid, ?_⟩
    rw [flatten_eq (.intro fd below) fd]
    exact depthFirst_of_members fun nested hn => ih nested (inr_mem_links.2 hn)

theorem mem_flatten_iff (hg : Grounded (registryOf cs) id) :
    target ∈ flatten (registryOf cs) id ↔ ReachesTarget cs id target := by
  rw [mem_flatten hg, reachedThrough_iff]
  constructor
  · rintro ⟨outer, links, hr, hli, ht⟩
    obtain ⟨co, hl, rfl⟩ := exists_lookup hli
    obtain ⟨hm, rfl⟩ := lookup_mem hl
    exact ⟨co, hm, Relation.ReflTransGen.mono (fun _ _ => nests_of_contains) _ _ hr,
      inl_mem_links.1 ht⟩
  · rintro ⟨co, hm, hr, ht⟩
    obtain ⟨ho, hr⟩ := reaches_of_grounded hg hr
    exact ⟨co.id, _, hr, registryOf_eq (lookup_of_grounded ho hm), inl_mem_links.2 ht⟩

/-- The resolution succeeds exactly where every collection below exists once and no cycle
is reached, lists each target below once, in the order of a depth-first walk, and needs no
more than one level for each collection. -/
theorem resolveLeaves_exact (cs : List Collection) (id : CollectionId) :
    ((∃ leaves, resolveLeaves cs id = .ok leaves) ↔ Resolvable cs id) ∧
    (∀ leaves, resolveLeaves cs id = .ok leaves → leaves.Nodup ∧
      (∀ target, target ∈ leaves ↔ ReachesTarget cs id target) ∧
      ∃ visits, DepthFirst cs [.collection id] visits ∧ leaves = addAll [] visits) ∧
    ∀ extra, collectLeaves cs (cs.length + 1 + extra) [] {} id =
      collectLeaves cs (cs.length + 1) [] {} id := by
  refine ⟨?_, ?_, collectLeaves_enough_fuel id⟩
  · rw [← grounded_iff_resolvable]
    constructor
    · rintro ⟨leaves, h⟩
      exact (resolveLeaves_ok_iff.1 h).1
    · exact fun hg => ⟨_, resolveLeaves_ok_iff.2 ⟨hg, rfl⟩⟩
  · intro leaves h
    obtain ⟨hg, rfl⟩ := resolveLeaves_ok_iff.1 h
    refine ⟨nodup_addAll nodup_nil, fun target => ?_, ?_⟩
    · rw [mem_addAll, mem_flatten_iff hg]
      simp
    · obtain ⟨collection, hm, rfl, hd⟩ := depthFirst_of_grounded hg
      refine ⟨_, .collection hm hd .nil, ?_⟩
      rw [append_nil]

def resolveCollectionLeaves (state : DaemonState) (id : CollectionId) :
    Except DaemonError (List TargetId) :=
  (resolveLeaves (state.collections.toList.map Prod.snd) id).mapError fun
    | .collectionNotFound id => .collectionNotFound id
    | .duplicateCollection id => .internal ("duplicate collection identifier: " ++ id)
    | .cycle id => .collectionCycle id

end CollectionGraph
