import Luminate.AggregateObservation
import Luminate.CollectionGraph

/-! # The status of a collection

`collection_state_status` of `state/observation.rs`: one appearance for the whole
membership of a collection, with the support its leaves give it. -/
namespace CollectionStatus

open Checks DeviceModel DaemonModel Membership CollectionGraph AggregateObservation List Std

structure AggregateWalk where
  memo : List (CollectionId × Option FacetObservation) := []
  visiting : List CollectionId := []
  deriving DecidableEq

/-- One member; `aggregate` aggregates a nested collection. -/
def constituent (look : TargetId → Option FacetObservation)
    (aggregate : AggregateWalk → CollectionId → Option FacetObservation × AggregateWalk)
    (progress : List (Option FacetObservation) × AggregateWalk) :
    CollectionMember → List (Option FacetObservation) × AggregateWalk
  | .target target => (progress.1 ++ [look target], progress.2)
  | .collection nested =>
    let (value, walk) := aggregate progress.2 nested
    (progress.1 ++ [value], walk)

/-- `collection_aggregate`. A missing collection stays marked as being visited. -/
def collectionAggregate (collections : Collections) (look : TargetId → Option FacetObservation) :
    ℕ → AggregateWalk → CollectionId → Option FacetObservation × AggregateWalk
  | 0, walk, _ => (none, walk)
  | fuel + 1, walk, id =>
    match walk.memo.lookup id with
    | some cached => (cached, walk)
    | none =>
      if id ∈ walk.visiting then (none, walk)
      else
        let walk := { walk with visiting := id :: walk.visiting }
        match collections[id]? with
        | none => (none, walk)
        | some collection =>
          let (constituents, walk) := collection.members.foldl
            (constituent look (collectionAggregate collections look fuel)) ([], walk)
          let aggregate := aggregateObservations constituents none
          (aggregate, ⟨(id, aggregate) :: walk.memo, walk.visiting.erase id⟩)

section

variable (clock : TargetId → ℕ) (state : DaemonState)

def storedCollections : List Collection :=
  state.collections.toList.map Prod.snd

/-- One level for each collection and one for a reference that is missing. -/
def facetAggregate (facet : StateFacetKind) (id : CollectionId) : Option FacetObservation :=
  (collectionAggregate state.collections (observationOf clock state · facet)
    ((storedCollections state).length + 1) {} id).1

structure CollectionStateStatus where
  collection : CollectionId
  appearance : Option (Reading AppearanceState)
  effectiveAppearance : Option (Reading EffectiveAppearanceState)
  deriving DecidableEq

def collectionAppearanceObservation (observation : FacetObservation) :
    Option (Reading AppearanceState) :=
  match observation.value with
  | .appearance value =>
    some ⟨value, observation.confidence, observation.observedAtMs, observation.stale⟩
  | _ => none

def collectionEffectiveAppearanceObservation (observation : FacetObservation) :
    Option (Reading EffectiveAppearanceState) :=
  match observation.value with
  | .effectiveAppearance value =>
    some ⟨value, observation.confidence, observation.observedAtMs, observation.stale⟩
  | _ => none

def synthesizedStatus (id : CollectionId) : CollectionStateStatus where
  collection := id
  appearance := (facetAggregate clock state .appearance id).bind collectionAppearanceObservation
  effectiveAppearance := (facetAggregate clock state .effectiveAppearance id).bind
    collectionEffectiveAppearanceObservation

def collectionStateStatus (id : CollectionId) : Option CollectionStateStatus := do
  let _ ← state.collections[id]?
  return synthesizedStatus clock state id

end

variable {clock : TargetId → ℕ} {state : DaemonState} {id : CollectionId}
  {facet : StateFacetKind} {mixed : FacetValue} {collection : Collection}

theorem mem_storedCollections : collection ∈ storedCollections state ↔
      ∃ key : CollectionId, state.collections[key]? = some collection := by
  rw [storedCollections, mem_map]
  constructor
  · rintro ⟨⟨key, stored⟩, he, rfl⟩
    exact ⟨key, ExtTreeMap.mem_toList_iff_getElem?_eq_some.1 he⟩
  · rintro ⟨key, hk⟩
    exact ⟨(key, collection), ExtTreeMap.mem_toList_iff_getElem?_eq_some.2 hk, rfl⟩

theorem nodup_storedCollections (hk : Keyed state.collections) :
    ((storedCollections state).map (·.id)).Nodup := by
  have hke : (storedCollections state).map (·.id) = state.collections.keys := by
    rw [storedCollections, map_map, ← ExtTreeMap.map_fst_toList_eq_keys]
    apply map_congr_left
    rintro ⟨key, stored⟩ he
    exact hk key stored (ExtTreeMap.mem_toList_iff_getElem?_eq_some.1 he)
  rw [hke]
  exact ExtTreeMap.nodup_keys

theorem lookup_storedCollections (hk : Keyed state.collections) :
    lookup (storedCollections state) id = state.collections[id]? := by
  refine Option.ext fun collection => ?_
  rw [lookup_iff (nodup_storedCollections hk), mem_storedCollections]
  constructor
  · rintro ⟨⟨key, hke⟩, hid⟩
    rw [← hid, hk key collection hke]
    exact hke
  · intro h
    exact ⟨⟨id, h⟩, hk id collection h⟩

noncomputable def aggregateOf (state : DaemonState) (look : TargetId → Option FacetObservation) :
    CollectionId → Option FacetObservation :=
  eval (registryOf (storedCollections state)) look
    (fun _ constituents => aggregateObservations constituents none) none

/-- The memo holds the values computed for its collections. -/
def Remembers (state : DaemonState) (look : TargetId → Option FacetObservation)
    (memo : List (CollectionId × Option FacetObservation)) : Prop :=
  ∀ entry ∈ memo, entry.2 = aggregateOf state look entry.1

/-- `aggregate` computes the value of `id` and leaves the visited collections alone. -/
def Computes (state : DaemonState) (look : TargetId → Option FacetObservation)
    (aggregate : AggregateWalk → CollectionId → Option FacetObservation × AggregateWalk)
    (visiting : List CollectionId) (id : CollectionId) : Prop :=
  ∀ memo, Remembers state look memo → ∃ after,
    aggregate ⟨memo, visiting⟩ id = (aggregateOf state look id, ⟨after, visiting⟩) ∧
      Remembers state look after

theorem constituents_computed {ms : List CollectionMember}
    (hn : ∀ n, .collection n ∈ ms → Computes state look aggregate vis n)
    (pre : List (Option FacetObservation)) (hm : Remembers state look memo) :
    ∃ after, ms.foldl (constituent look aggregate) (pre, ⟨memo, vis⟩) =
        (pre ++ (ms.map link).map (Sum.elim look (aggregateOf state look)), ⟨after, vis⟩) ∧
      Remembers state look after := by
  induction ms generalizing pre memo with
  | nil => exact ⟨memo, by rw [map_nil, map_nil, append_nil]; rfl, hm⟩
  | cons m ms ih =>
    have hf : ∃ after, constituent look aggregate (pre, ⟨memo, vis⟩) m =
          (pre ++ [Sum.elim look (aggregateOf state look) (link m)], ⟨after, vis⟩) ∧
        Remembers state look after := by
      cases m with
      | target target => exact ⟨memo, rfl, hm⟩
      | collection n =>
        obtain ⟨after, ha, hr⟩ := hn n mem_cons_self memo hm
        refine ⟨after, ?_, hr⟩
        rw [constituent, ha]
        rfl
    obtain ⟨between, hb, hr⟩ := hf
    obtain ⟨after, ha, hr⟩ := ih (fun n h => hn n (mem_cons_of_mem _ h)) _ hr
    refine ⟨after, ?_, hr⟩
    rw [foldl_cons, hb, ha, append_assoc]
    rfl

theorem Remembers.lookup (h : Remembers state look memo) (hl : memo.lookup id = some cached) :
    cached = aggregateOf state look id := by
  obtain ⟨pre, after, rfl, _⟩ := lookup_eq_some_iff.1 hl
  exact h (id, cached) (mem_append_right _ mem_cons_self)

theorem collectionAggregate_computes (hk : Keyed state.collections)
    (hg : Grounded (registryOf (storedCollections state)) id) :
    Computes state look (collectionAggregate state.collections look
      ((storedCollections state).length + 1)) [] id := by
  refine walk_induction_from_start (motive := fun fuel vis id => Computes state look
      (collectionAggregate state.collections look fuel) vis id) ?_ hg
  intro fuel vis id collection hl hse hn ih memo hm
  have hs : state.collections[id]? = some collection :=
    (lookup_storedCollections hk).symm.trans hl
  cases hc : memo.lookup id with
  | some cached =>
    refine ⟨memo, ?_, hm⟩
    simp only [collectionAggregate, hc, hm.lookup hc]
  | none =>
    obtain ⟨after, ha, hr⟩ := constituents_computed ih [] hm
    have hv : aggregateOf state look id = aggregateObservations
        ((collection.members.map link).map (Sum.elim look (aggregateOf state look))) none :=
      eval_eq hse (registryOf_eq hl)
    refine ⟨(id, aggregateOf state look id) :: after, ?_, ?_⟩
    · simp only [collectionAggregate, hc, if_neg hn, hs, ha, nil_append, ← hv, erase_cons_head]
    · intro entry he
      obtain rfl | he := mem_cons.1 he
      · rfl
      · exact hr entry he

theorem facetAggregate_eq (hk : Keyed state.collections)
    (hg : Grounded (registryOf (storedCollections state)) id) :
    facetAggregate clock state facet id =
      aggregateOf state (observationOf clock state · facet) id := by
  have he : Remembers state (observationOf clock state · facet) [] :=
    fun _ h => absurd h not_mem_nil
  obtain ⟨after, ha, _⟩ := collectionAggregate_computes hk hg [] he
  exact congrArg Prod.fst ha

theorem observationOf_kind (h : observationOf clock state target facet = some ob) :
    ob.value.kind = facet := by
  obtain ⟨observations, _, hf⟩ := Option.bind_eq_some_iff.1 h
  obtain ⟨_, hfa⟩ := Option.filter_eq_some_iff.1 hf
  exact of_decide_eq_true (Bool.and_eq_true_iff.1 hfa).2

section

variable {reg : Registry TargetId CollectionId}
  {readingAt : TargetId → Option (Reading FacetValue)} {sum : Reading FacetValue}

noncomputable def summaryOf (registry : Registry TargetId CollectionId)
    (readingAt : TargetId → Option (Reading FacetValue)) (mixed : FacetValue) :
    CollectionId → Option (Reading FacetValue) :=
  eval registry readingAt (fun _ => combine mixed) none

def KnownBelow (registry : Registry TargetId CollectionId)
    (readingAt : TargetId → Option (Reading FacetValue)) (mixed : FacetValue) :
    CollectionId → TargetId → Prop :=
  ReachedThrough registry fun nested => (summaryOf registry readingAt mixed nested).isSome = true

theorem summarises_members (h : Grounded reg id) (hl : reg id = some links)
    (hs : summaryOf reg readingAt mixed id = some sum) :
    Summarises mixed (links.map (Sum.elim readingAt (summaryOf reg readingAt mixed))) sum := by
  rw [summaryOf, eval_eq h hl] at hs
  exact combine_eq_some_iff.1 hs

theorem shared_below (h : Grounded reg id) (hsu : summaryOf reg readingAt mixed id = some sum)
    (hv : sum.value ≠ mixed) (ht : ReachedThrough reg (fun _ => True) id target) :
    (∃ known, readingAt target = some known ∧ known.value = sum.value) ∧
      KnownBelow reg readingAt mixed id target := by
  induction ht generalizing sum with
  | @leaf id target links found listed =>
    obtain ⟨_, hm⟩ | ⟨_, hsa⟩ := (summarises_members h found hsu).value
    · exact absurd hm hv
    · obtain ⟨known, hk, hs⟩ := hsa _ (mem_map_of_mem listed)
      exact ⟨⟨known, hk, hs⟩, .leaf found listed⟩
  | @nested id nested target links found listed _ _ ih =>
    obtain ⟨_, hm⟩ | ⟨_, hsa⟩ := (summarises_members h found hsu).value
    · exact absurd hm hv
    · obtain ⟨known, hk, hs⟩ := hsa _ (mem_map_of_mem listed)
      have hn : summaryOf reg readingAt mixed nested = some known := hk
      obtain ⟨⟨leaf, hle, hl⟩, hb⟩ := ih (h.of_contains ⟨links, found, listed⟩) hn (hs ▸ hv)
      refine ⟨⟨leaf, hle, hl.trans hs⟩, .nested found listed ?_ hb⟩
      exact Option.isSome_iff_exists.2 ⟨known, hn⟩

theorem summary_weakest (h : Grounded reg id) (hs : summaryOf reg readingAt mixed id = some sum) :
    Weakest {known | ∃ target, readingAt target = some known ∧
      KnownBelow reg readingAt mixed id target} sum := by
  have hn : ∀ (id : CollectionId) (vs : List (Option (Reading FacetValue)))
      (result : Reading FacetValue), combine mixed vs = some result →
      Weakest {known | some known ∈ vs} result := fun _ _ _ hc => (combine_eq_some_iff.1 hc).weakest
  exact
    { confidence := eval_least (fun id vs result hr => (hn id vs result hr).confidence) h hs
      observedAtMs := eval_least (fun id vs result hr => (hn id vs result hr).observedAtMs) h hs
      freshness := eval_least (fun id vs result hr => (hn id vs result hr).freshness) h hs }

def LeavesDiffer (registry : Registry TargetId CollectionId)
    (readingAt : TargetId → Option (Reading FacetValue)) (mixed : FacetValue)
    (id : CollectionId) : Prop :=
  (∃ target known, ReachedThrough registry (fun _ => True) id target ∧
    readingAt target = some known ∧ known.value = mixed) ∨
  ∃ s t a b, ReachedThrough registry (fun _ => True) id s ∧
    ReachedThrough registry (fun _ => True) id t ∧
    readingAt s = some a ∧ readingAt t = some b ∧ a.value ≠ b.value

theorem LeavesDiffer.outer (h : LeavesDiffer reg readingAt mixed n) (fd : reg id = some links)
    (listed : .inr n ∈ links) : LeavesDiffer reg readingAt mixed id := by
  obtain ⟨target, known, hr, hk⟩ | ⟨s, t, a, b, hs, ht, hv⟩ := h
  · exact .inl ⟨target, known, .nested fd listed trivial hr, hk⟩
  · exact .inr ⟨s, t, a, b, .nested fd listed trivial hs, .nested fd listed trivial ht, hv⟩

theorem exists_leaf_with_value (h : Grounded reg id)
    (hs : summaryOf reg readingAt mixed id = some sum) (hv : sum.value ≠ mixed) :
    ∃ target known, ReachedThrough reg (fun _ => True) id target ∧
      readingAt target = some known ∧ known.value = sum.value := by
  obtain ⟨⟨_, ⟨target, _, hb⟩, _⟩, _⟩ := (summary_weakest h hs).observedAtMs
  have hr : ReachedThrough reg (fun _ => True) id target := hb.mono h fun _ _ _ => trivial
  obtain ⟨⟨known, hk, hsh⟩, _⟩ := shared_below h hs hv hr
  exact ⟨target, known, hr, hk, hsh⟩

theorem differing_below (h : Grounded reg id) (hsm : summaryOf reg readingAt mixed id = some sum)
    (hv : sum.value = mixed) : LeavesDiffer reg readingAt mixed id := by
  induction h generalizing sum with
  | @intro id links fd below ih =>
    have hsu := summarises_members (.intro fd below) fd hsm
    -- A known member is mixed below, or has a leaf with its value.
    have hme : ∀ known, some known ∈ links.map
        (Sum.elim readingAt (summaryOf reg readingAt mixed)) →
        LeavesDiffer reg readingAt mixed id ∨ (known.value ≠ mixed ∧
          ∃ target leaf, ReachedThrough reg (fun _ => True) id target ∧
            readingAt target = some leaf ∧ leaf.value = known.value) := by
      intro known hk
      obtain ⟨m, hl, hk⟩ := mem_map.1 hk
      by_cases hm : known.value = mixed
      · cases m with
        | inl target => exact .inl (.inl ⟨target, known, .leaf fd hl, hk, hm⟩)
        | inr n => exact .inl ((ih n hl hk hm).outer fd hl)
      · cases m with
        | inl target => exact .inr ⟨hm, target, known, .leaf fd hl, hk, rfl⟩
        | inr n =>
          obtain ⟨target, leaf, hre, hla⟩ := exists_leaf_with_value (below n hl) hk hm
          exact .inr ⟨hm, target, leaf, .nested fd hl trivial hre, hla⟩
    have hdi : Differ mixed (links.map (Sum.elim readingAt (summaryOf reg readingAt mixed))) := by
      obtain ⟨hdi, _⟩ | ⟨_, hsa⟩ := hsu.value
      · exact hdi
      · obtain ⟨⟨known, hk, _⟩, _⟩ := hsu.weakest.observedAtMs
        obtain ⟨same, heq, hsh⟩ := hsa _ hk
        exact .inl ⟨same, heq ▸ hk, hsh.trans hv⟩
    obtain ⟨known, hk, hm⟩ | ⟨a, b, ha, hb, hne⟩ := hdi
    · obtain hd | ⟨hn, _⟩ := hme known hk
      · exact hd
      · exact absurd hm hn
    · obtain hd | ⟨_, s, left, hs, hlf, hle⟩ := hme a ha
      · exact hd
      obtain hd | ⟨_, t, right, ht, hri, hr⟩ := hme b hb
      · exact hd
      refine .inr ⟨s, t, left, right, hs, ht, hlf, hri, ?_⟩
      rw [hle, hr]
      exact hne

end

theorem aggregateOf_reading (hmi : mixedValue facet = some mixed)
    (hki : ∀ target ob, look target = some ob → ob.value.kind = facet)
    (h : Grounded (registryOf (storedCollections state)) id) :
    (∀ ob, aggregateOf state look id = some ob → ob.value.kind = facet) ∧
    (aggregateOf state look id).map reading =
      summaryOf (registryOf (storedCollections state)) (fun target => (look target).map reading)
        mixed id := by
  induction h with
  | @intro id links fd below ih =>
    have hv : aggregateOf state look id = aggregateObservations
        (links.map (Sum.elim look (aggregateOf state look))) none := eval_eq (.intro fd below) fd
    have hk : ∀ ob, some ob ∈ links.map (Sum.elim look (aggregateOf state look)) →
        ob.value.kind = facet := by
      intro ob hme
      obtain ⟨m, hl, hm⟩ := mem_map.1 hme
      cases m with
      | inl target => exact hki target ob hm
      | inr n => exact (ih n hl).1 ob hm
    constructor
    · intro ob ho
      exact aggregateObservations_kind hmi hk (hv.symm.trans ho)
    · rw [hv, aggregateObservations_reading hmi hk, summaryOf,
        eval_eq (.intro fd below) fd, readings, map_map]
      refine congrArg (combine mixed) (map_congr_left fun m hl => ?_)
      cases m with
      | inl target => rfl
      | inr n => exact (ih n hl).2

section

variable (clock) (state) (facet)

/-- The leaf is observed, and reached through nested collections whose own aggregate
is known. -/
def Contributes (id : CollectionId) (leaf : TargetId) : Prop :=
  (observationOf clock state leaf facet).isSome = true ∧
    ReachedThrough (registryOf (storedCollections state))
      (fun nested => (facetAggregate clock state facet nested).isSome = true) id leaf

def contributions (id : CollectionId) : Set FacetObservation :=
  {observation | ∃ leaf, Contributes clock state facet id leaf ∧
    observationOf clock state leaf facet = some observation}

structure Supported (mixed : FacetValue) (id : CollectionId) (leaves : List TargetId)
    (summary : Reading FacetValue) : Prop where
  shared : summary.value ≠ mixed → ∀ leaf ∈ leaves, Contributes clock state facet id leaf ∧
    ∃ observation, observationOf clock state leaf facet = some observation ∧
      observation.value = summary.value
  differing : summary.value = mixed →
    (∃ leaf ∈ leaves, ∃ observation, observationOf clock state leaf facet = some observation ∧
      observation.value = mixed) ∨
    ∃ s ∈ leaves, ∃ t ∈ leaves, ∃ a b, observationOf clock state s facet = some a ∧
      observationOf clock state t facet = some b ∧ a.value ≠ b.value
  among : ∀ leaf, Contributes clock state facet id leaf → leaf ∈ leaves
  confidence : IsLeast ((confidenceRank ·.confidence) '' contributions clock state facet id)
    (confidenceRank summary.confidence)
  observedAtMs : IsLeast ((·.observedAtMs) '' contributions clock state facet id)
    summary.observedAtMs
  stale : summary.stale = true ↔
    ∃ observation ∈ contributions clock state facet id, observation.stale = true

end

theorem stale_of_freshness (h : IsLeast (freshness '' (reading '' observed)) (freshness summary)) :
    summary.stale = true ↔ ∃ ob ∈ observed, ob.stale = true := by
  have hz : ∀ known : Reading FacetValue, freshness known = 0 ↔ known.stale = true := by
    intro known
    cases hs : known.stale <;> simp [freshness, hs]
  constructor
  · intro hs
    obtain ⟨_, ⟨ob, hm, rfl⟩, heq⟩ := h.1
    exact ⟨ob, hm, (hz (reading ob)).1 (heq.trans ((hz summary).2 hs))⟩
  · rintro ⟨ob, hm, hs⟩
    have hle := h.2 ⟨reading ob, ⟨ob, hm, rfl⟩, rfl⟩
    rw [(hz (reading ob)).2 hs] at hle
    exact (hz summary).1 (Nat.le_zero.1 hle)

variable {leaves : List TargetId}

theorem facetAggregate_reading (hk : Keyed state.collections) (hm : mixedValue facet = some mixed)
    (hg : Grounded (registryOf (storedCollections state)) id) :
    (facetAggregate clock state facet id).map reading =
      summaryOf (registryOf (storedCollections state))
        (fun target => (observationOf clock state target facet).map reading) mixed id := by
  rw [facetAggregate_eq hk hg]
  exact (aggregateOf_reading hm (fun _ _ => observationOf_kind) hg).2

theorem knownBelow_iff (hk : Keyed state.collections) (hm : mixedValue facet = some mixed)
    (hg : Grounded (registryOf (storedCollections state)) id) :
    KnownBelow (registryOf (storedCollections state))
        (fun target => (observationOf clock state target facet).map reading) mixed id leaf ↔
      ReachedThrough (registryOf (storedCollections state))
        (fun n => (facetAggregate clock state facet n).isSome = true) id leaf := by
  have hs : ∀ n, Grounded (registryOf (storedCollections state)) n →
      ((summaryOf (registryOf (storedCollections state))
          (fun target => (observationOf clock state target facet).map reading) mixed
          n).isSome = true ↔
        (facetAggregate clock state facet n).isSome = true) := by
    intro n hn
    rw [← facetAggregate_reading hk hm hn, Option.isSome_map]
  constructor
  · exact fun h => h.mono hg fun n hn => (hs n hn).1
  · exact fun h => h.mono hg fun n hn => (hs n hn).2

variable {aggregate : FacetObservation}

theorem supported_of_aggregate (hke : Keyed state.collections) (hm : mixedValue facet = some mixed)
    (hl : resolveLeaves (storedCollections state) id = .ok leaves)
    (hag : facetAggregate clock state facet id = some aggregate) :
    Supported clock state facet mixed id leaves (reading aggregate) := by
  obtain ⟨hg, rfl⟩ := resolveLeaves_ok_iff.1 hl
  have hle : ∀ {leaf}, leaf ∈ addAll [] (flatten (registryOf (storedCollections state)) id) ↔
      ReachedThrough (registryOf (storedCollections state)) (fun _ => True) id leaf := by
    intro leaf
    rw [mem_addAll, mem_flatten hg]
    exact or_iff_right not_mem_nil
  have hsu : summaryOf (registryOf (storedCollections state))
      (fun target => (observationOf clock state target facet).map reading) mixed id =
      some (reading aggregate) := by
    rw [← facetAggregate_reading hke hm hg, hag]
    rfl
  have hob : ∀ {leaf known}, (observationOf clock state leaf facet).map reading = some known →
      ∃ ob, observationOf clock state leaf facet = some ob ∧
        reading ob = known := Option.map_eq_some_iff.1
  have hw := summary_weakest hg hsu
  have hc : {known | ∃ target, (observationOf clock state target facet).map reading = some known ∧
        KnownBelow (registryOf (storedCollections state))
          (fun target => (observationOf clock state target facet).map reading) mixed id target} =
      reading '' contributions clock state facet id := by
    ext known
    constructor
    · rintro ⟨leaf, hk, hbe⟩
      obtain ⟨ob, ho, rfl⟩ := hob hk
      exact ⟨ob, ⟨leaf, ⟨Option.isSome_iff_exists.2 ⟨_, ho⟩,
        (knownBelow_iff hke hm hg).1 hbe⟩, ho⟩, rfl⟩
    · rintro ⟨ob, ⟨leaf, ⟨_, hr⟩, ho⟩, rfl⟩
      exact ⟨leaf, congrArg (Option.map reading) ho, (knownBelow_iff hke hm hg).2 hr⟩
  rw [hc] at hw
  refine ⟨?_, ?_, ?_, ?_, ?_, stale_of_freshness hw.freshness⟩
  · intro hv leaf hme
    obtain ⟨⟨known, hk, hsh⟩, hbe⟩ := shared_below hg hsu hv (hle.1 hme)
    obtain ⟨ob, ho, rfl⟩ := hob hk
    exact ⟨⟨Option.isSome_iff_exists.2 ⟨_, ho⟩, (knownBelow_iff hke hm hg).1 hbe⟩, ob, ho, hsh⟩
  · intro hv
    obtain ⟨leaf, known, hr, hk, hmi⟩ | ⟨s, t, a, b, hs, ht, ha, hb, hne⟩ :=
      differing_below hg hsu hv
    · obtain ⟨ob, ho, rfl⟩ := hob hk
      exact .inl ⟨leaf, hle.2 hr, ob, ho, hmi⟩
    · obtain ⟨left, hlf, rfl⟩ := hob ha
      obtain ⟨right, hri, rfl⟩ := hob hb
      exact .inr ⟨s, hle.2 hs, t, hle.2 ht, left, right, hlf, hri, hne⟩
  · intro leaf hco
    exact hle.2 (hco.2.mono hg fun _ _ _ => trivial)
  · have hcn := hw.confidence
    rwa [Set.image_image] at hcn
  · have hos := hw.observedAtMs
    rwa [Set.image_image] at hos

theorem collectionAppearanceObservation_iff :
    collectionAppearanceObservation aggregate = some summary ↔
      reading aggregate = summary.map .appearance := by
  obtain ⟨_, v, confidence, _, observedAtMs, stale⟩ := aggregate
  obtain ⟨_, _, _, _⟩ := summary
  cases v <;> simp [collectionAppearanceObservation, reading, Reading.map]

theorem collectionEffectiveAppearanceObservation_iff :
    collectionEffectiveAppearanceObservation aggregate = some summary ↔
      reading aggregate = summary.map .effectiveAppearance := by
  obtain ⟨_, v, confidence, _, observedAtMs, stale⟩ := aggregate
  obtain ⟨_, _, _, _⟩ := summary
  cases v <;> simp [collectionEffectiveAppearanceObservation, reading, Reading.map]

theorem reported_congr {α : Type} {report : FacetObservation → Option (Reading α)}
    {wrap : α → FacetValue} (hr : ∀ aggregate summary, report aggregate = some summary ↔
      reading aggregate = Reading.map wrap summary)
    {left right : Option FacetObservation} (h : left.map reading = right.map reading) :
    left.bind report = right.bind report := by
  refine Option.ext fun summary => ?_
  have hs : ∀ side : Option FacetObservation,
      side.bind report = some summary ↔ side.map reading = some (Reading.map wrap summary) := by
    intro side
    cases side with
    | none => simp
    | some aggregate => simp [hr]
  rw [hs, hs, h]

theorem facetAggregate_alike (clock : TargetId → ℕ) (facet : StateFacetKind)
    (hk : Keyed state.collections) (hm : mixedValue facet = some mixed)
    (hg : Grounded (registryOf (storedCollections state)) id) (ho : Keyed cs)
    (ha : Alike (registryOf (storedCollections state))
      (registryOf (storedCollections { state with collections := cs })) related)
    (hr : related id other) :
    (facetAggregate clock { state with collections := cs } facet other).map reading =
      (facetAggregate clock state facet id).map reading := by
  rw [facetAggregate_reading hk hm hg, facetAggregate_reading ho hm (ha.grounded hg hr)]
  exact (ha.eval_eq (fun _ _ _ _ hs => combine_congr hs) hg hr).symm

theorem stored_of_grounded (hk : Keyed state.collections)
    (hg : Grounded (registryOf (storedCollections state)) id) :
    ∃ collection, state.collections[id]? = some collection := by
  obtain ⟨links, hli⟩ := hg.exists_members
  obtain ⟨collection, hl, _⟩ := exists_lookup hli
  exact ⟨collection, (lookup_storedCollections hk).symm.trans hl⟩

/-- Where its leaves resolve, a collection has a status. Its summaries are supported by those
leaves, and a registry alike below the collection gives the same one. -/
theorem collection_status_sound (clock : TargetId → ℕ) (hkeyed : Keyed state.collections)
    (hleaves : resolveCollectionLeaves state id = .ok leaves) :
    ∃ status, collectionStateStatus clock state id = some status ∧
      (∀ summary, status.appearance = some summary →
        Supported clock state .appearance (.appearance .mixed) id leaves
          (summary.map .appearance)) ∧
      (∀ summary, status.effectiveAppearance = some summary →
        Supported clock state .effectiveAppearance (.effectiveAppearance .mixed) id leaves
          (summary.map .effectiveAppearance)) ∧
      ∀ collections related other, Keyed collections → Alike (registryOf (storedCollections state))
          (registryOf (storedCollections { state with collections := collections })) related →
        related id other →
        collectionStateStatus clock { state with collections := collections } other =
          some { status with collection := other } := by
  have hr : resolveLeaves (storedCollections state) id = .ok leaves := mapError_ok_iff.1 hleaves
  obtain ⟨hg, _⟩ := resolveLeaves_ok_iff.1 hr
  obtain ⟨collection, hst⟩ := stored_of_grounded hkeyed hg
  refine ⟨synthesizedStatus clock state id, ?_, ?_, ?_, ?_⟩
  · rw [collectionStateStatus, hst]
    rfl
  · intro summary hs
    obtain ⟨aggregate, ha, hrp⟩ := Option.bind_eq_some_iff.1 hs
    rw [← collectionAppearanceObservation_iff.1 hrp]
    exact supported_of_aggregate hkeyed rfl hr ha
  · intro summary hs
    obtain ⟨aggregate, ha, hrp⟩ := Option.bind_eq_some_iff.1 hs
    rw [← collectionEffectiveAppearanceObservation_iff.1 hrp]
    exact supported_of_aggregate hkeyed rfl hr ha
  · intro collections related other ho hal hre
    have hgr := hal.grounded hg hre
    obtain ⟨found, hf⟩ : ∃ found : Collection,
        ({ state with collections := collections } : DaemonState).collections[other]? =
          some found := stored_of_grounded ho hgr
    have hap := reported_congr (fun _ _ => collectionAppearanceObservation_iff)
      (facetAggregate_alike clock .appearance hkeyed rfl hg ho hal hre)
    have he := reported_congr (fun _ _ => collectionEffectiveAppearanceObservation_iff)
      (facetAggregate_alike clock .effectiveAppearance hkeyed rfl hg ho hal hre)
    rw [collectionStateStatus, hf]
    exact congrArg some (congrArg₂ (CollectionStateStatus.mk other) hap he)

namespace Sample

def coloured : CapabilitySet := { colour := [.rgb8] }

def bulb (id : DeviceId) : Device :=
  { id := id
    surfaces := [{ id := "light", elements := [{ id := "led", capabilities := coloured }] }] }

def keyboard : Device :=
  { id := "keyboard"
    surfaces := [{ id := "main", elements := [{ id := "logo", capabilities := coloured },
      { id := "keys", capabilities := coloured }] }] }

def led (device : DeviceId) : TargetId := .element device "light" "led"

def observed (target : TargetId) (kelvin : ℕ) (confidence : ObservationConfidence) (time : ℕ)
    (stale : Bool) : FacetObservation :=
  ⟨target, .appearance (.static (.cct kelvin)), confidence, .readback, time, stale⟩

/-- The keyboard shows two colours; the attic bulb was seen long ago, and of the
cellar bulb nothing is known. -/
def observations : Observations :=
  [observed (.element "keyboard" "main" "logo") 2700 .confirmed 50 false,
    observed (.element "keyboard" "main" "keys") 6500 .confirmed 60 false,
    observed (led "hall") 2700 .confirmed 70 false,
    observed (led "attic") 6500 .assumed 3 true].foldl Observation.storeObservation
      (fun _ _ => none)

def room (id : CollectionId) (members : List CollectionMember) : Collection :=
  ⟨id, id, none, .uid 1000, none, members⟩

def stored (collections : List Collection) : Collections :=
  collections.foldl (fun map collection => map.insert collection.id collection) ∅

def home : DaemonState :=
  { fromDevices [keyboard, bulb "hall", bulb "attic", bulb "cellar"] with
    observations := observations
    collections := stored
      [room "desk" [.target (.device "keyboard")],
        room "remote" [.target (led "attic"), .target (led "cellar")],
        room "house" [.collection "remote", .target (led "hall"),
          .target (.element "keyboard" "main" "keys")],
        room "evening" [.target (led "hall"), .collection "lounge",
          .target (.element "keyboard" "main" "logo")],
        room "lounge" [.target (led "hall")]] }

theorem keyed_stored : Keyed (stored cs) := by
  suffices h : ∀ map, Keyed map →
      Keyed (cs.foldl (fun map collection => map.insert collection.id collection) map) from
    h ∅ keyed_empty
  induction cs with
  | nil => exact fun _ h => h
  | cons collection cs ih => exact fun map h => ih _ (h.insert collection)

end Sample

open Sample in
/-- A single leaf that shows several colours makes the collection mixed, and a nested
collection whose appearance is unknown does not count among its constituents. -/
theorem Counterexample.mixed_without_two_leaves :
    (resolveCollectionLeaves home "desk" = .ok [.device "keyboard"] ∧
      (collectionStateStatus (fun _ => 0) home "desk").bind (·.appearance) =
        some ⟨.mixed, .confirmed, 50, false⟩) ∧
    (resolveCollectionLeaves home "house" =
        .ok [led "attic", led "cellar", led "hall", .element "keyboard" "main" "keys"] ∧
      (collectionStateStatus (fun _ => 0) home "house").bind (·.appearance) =
        some ⟨.mixed, .confirmed, 60, false⟩ ∧
      (observationOf (fun _ => 0) home (led "attic") .appearance).map reading =
        some ⟨.appearance (.static (.cct 6500)), .assumed, 3, true⟩) := by
  decide +kernel

open Sample in
/-- Hall and logo show one white; the older observation dates the summary. -/
theorem evening_is_warm :
    ∃ status, collectionStateStatus (fun _ => 0) home "evening" = some status ∧
      status.appearance = some ⟨.static (.cct 2700), .confirmed, 50, false⟩ ∧
      Supported (fun _ => 0) home .appearance (.appearance .mixed) "evening"
        [led "hall", .element "keyboard" "main" "logo"]
        ⟨.appearance (.static (.cct 2700)), .confirmed, 50, false⟩ := by
  have hl : resolveCollectionLeaves home "evening" =
      .ok [led "hall", .element "keyboard" "main" "logo"] := by decide +kernel
  have ha : (collectionStateStatus (fun _ => 0) home "evening").bind (·.appearance) =
      some ⟨.static (.cct 2700), .confirmed, 50, false⟩ := by decide +kernel
  obtain ⟨status, hs, hsu, _, _⟩ := collection_status_sound (fun _ => 0) keyed_stored hl
  rw [hs] at ha
  exact ⟨status, hs, ha, hsu _ ha⟩

end CollectionStatus
