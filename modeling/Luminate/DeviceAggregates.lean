import Luminate.CollectionStatus
import Luminate.NormalizedDevices

/-! # Device aggregates

What `synthesize_device_aggregates` leaves for the surfaces, groups and the device
itself: each one is the aggregate of its own constituents, although it is written
into the observations it is read from. -/
namespace DeviceAggregates

open DeviceModel TargetTopology DaemonModel Membership AggregateObservation NormalizedDevices List

def memberTarget (device : Device) : GroupMember → Option TargetId
  | .surface surface => some (.surface device.id surface)
  | .element surface element => some (.element device.id surface element)
  | .group nested => (findGroup device nested).map fun group => .group device.id group.id

def surfaceConstituents (device : Device) (surface : Surface) : List TargetId :=
  (surface.elements.filter (appearanceCapable ·.capabilities)).map fun element =>
    .element device.id surface.id element.id

def groupConstituents (device : Device) (group : Group) : List TargetId :=
  group.members.filterMap (memberTarget device)

def deviceConstituents (device : Device) : List TargetId :=
  (device.surfaces.filter fun surface => appearanceCapable surface.capabilities ||
    surface.elements.any (appearanceCapable ·.capabilities)).map fun surface =>
      .surface device.id surface.id

/-- The targets whose observations are aggregated for a target of the device. -/
def constituents (device : Device) : TargetId → List TargetId
  | .element .. => []
  | .surface owner surface =>
    if owner = device.id then (findSurface device surface).elim [] (surfaceConstituents device)
    else []
  | .group owner group =>
    if owner = device.id then (findGroup device group).elim [] (groupConstituents device) else []
  | .device owner => if owner = device.id then deviceConstituents device else []

def isStreaming (observation : Option FacetObservation) : Bool :=
  observation.any (·.value = .effectiveAppearance .streaming)

section

variable (device : Device) (observations : Observations) (facet : StateFacetKind)

/-- The observation of this target is an aggregate: it has constituents, and does not
stream itself. -/
def synthesized (target : TargetId) : Bool :=
  !(constituents device target).isEmpty && !isStreaming (observations target facet)

def registry : Registry TargetId TargetId := fun target =>
  if synthesized device observations facet target then
    some ((constituents device target).map fun member =>
      if synthesized device observations facet member then .inr member else .inl member)
  else none

def combined (target : TargetId) (children : List (Option FacetObservation)) :
    Option FacetObservation :=
  (aggregateObservations children none).map fun aggregate => { aggregate with target }

/-- The observation of a target once everything below it has been synthesized. -/
noncomputable def valueAt (target : TargetId) : Option FacetObservation :=
  if synthesized device observations facet target then
    eval (registry device observations facet) (observations · facet) combined none target
  else observations target facet

end

variable {d : Device} {member : TargetId}

theorem synthesized_eq : synthesized d obs f tg =
    !((constituents d tg).isEmpty || isStreaming (obs tg f)) := (Bool.not_or _ _).symm

def targetRank (rank : GroupId → ℕ) : TargetId → ℕ
  | .element .. => 0
  | .surface .. => 1
  | .group _ group => rank group + 2
  | .device _ => 2

variable {group : Group} {done : List TargetId} {walk : GroupWalk} {mixed : FacetValue}

theorem find_group_id (h : findGroup d n = some group) : group.id = n := by
  simpa using find?_some h

theorem rank_constituent (hr : Ranked d.groups rank) (hm : member ∈ constituents d tg) :
    targetRank rank member < targetRank rank tg := by
  cases tg with
  | element owner surf el => exact absurd hm not_mem_nil
  | surface owner id =>
    rw [constituents] at hm
    split at hm
    · cases hs : findSurface d id with
      | none =>
        rw [hs] at hm
        exact absurd hm not_mem_nil
      | some surf =>
        rw [hs] at hm
        obtain ⟨el, -, rfl⟩ := mem_map.1 hm
        exact Nat.zero_lt_one
    · exact absurd hm not_mem_nil
  | device owner =>
    rw [constituents] at hm
    split at hm
    · obtain ⟨surf, -, rfl⟩ := mem_map.1 hm
      exact Nat.one_lt_two
    · exact absurd hm not_mem_nil
  | group owner id =>
    rw [constituents] at hm
    split at hm
    · cases hg : findGroup d id with
      | none =>
        rw [hg] at hm
        exact absurd hm not_mem_nil
      | some group =>
        rw [hg] at hm
        obtain ⟨listed, hl, hme⟩ := mem_filterMap.1 hm
        have hgr := mem_of_find?_eq_some hg
        cases listed with
        | surface surf =>
          cases hme
          simp only [targetRank]
          omega
        | element surf el =>
          cases hme
          simp only [targetRank]
          omega
        | group n =>
          obtain ⟨inner, hi, rfl⟩ := Option.map_eq_some_iff.1 hme
          have hle := hr.nested group hgr n hl
          rw [find_group_id hg] at hle
          simp only [targetRank, find_group_id hi]
          omega
    · exact absurd hm not_mem_nil

theorem constituents_induction (hnz : Normalized d) {motive : TargetId → Prop}
    (step : ∀ tg, (∀ member ∈ constituents d tg, motive member) → motive tg) (tg : TargetId) :
    motive tg := by
  obtain ⟨rank, hr⟩ := hnz.ranked
  induction hra : targetRank rank tg using Nat.strong_induction_on generalizing tg with
  | _ n ih =>
    subst hra
    exact step tg fun member hm => ih _ (rank_constituent hr hm) member rfl

theorem grounded (hnz : Normalized d) (h : synthesized d obs f tg = true) :
    Grounded (registry d obs f) tg := by
  induction tg using constituents_induction hnz with
  | step tg ih =>
    refine .intro (if_pos h) fun ns hn => ?_
    obtain ⟨member, hm, heq⟩ := mem_map.1 hn
    split at heq
    · next hs =>
      cases heq
      exact ih _ hm hs
    · cases heq

theorem valueAt_eq (hnz : Normalized d) (h : synthesized d obs f tg = true) : valueAt d obs f tg =
      combined tg ((constituents d tg).map (valueAt d obs f)) := by
  rw [valueAt, if_pos h, eval_eq (grounded hnz h) (if_pos h), map_map]
  refine congrArg (combined tg) (map_congr_left fun member _ => ?_)
  rw [Function.comp_apply, valueAt]
  split <;> rfl

theorem valueAt_of_not (h : ¬ synthesized d obs f tg = true) :
    valueAt d obs f tg = obs tg f := if_neg h

section

variable (device : Device) (observations : Observations) (facet : StateFacetKind)

noncomputable def written (done : List TargetId) : Observations :=
  fun target kind =>
    if kind = facet ∧ target ∈ done then valueAt device observations facet target
    else observations target kind

theorem written_nil : written d obs f [] = obs := by
  funext tg kind
  exact if_neg fun h => absurd h.2 not_mem_nil

theorem written_read (h : synthesized d obs f tg = true → tg ∈ done) :
    written d obs f done tg f = valueAt d obs f tg := by
  rw [written]
  split
  · rfl
  · next hn =>
    rw [valueAt_of_not]
    exact fun hs => hn ⟨rfl, h hs⟩

theorem replaceWithAggregate_eq :
    replaceWithAggregate pre tg f children = if children.isEmpty || isStreaming (pre tg f) then pre
      else fun t k => if t = tg ∧ k = f then combined tg children else pre t k := by
  rw [replaceWithAggregate]
  by_cases he : children.isEmpty = true
  · rw [if_pos he, he, Bool.true_or, if_pos rfl]
  rw [if_neg he, Bool.eq_false_of_not_eq_true he]
  apply if_congr Iff.rfl rfl
  have hf : aggregateObservations children (pre tg f) = aggregateObservations children none := by
    rw [aggregateObservations, aggregateObservations, if_neg he, if_neg he]
  rw [combined, hf]
  cases aggregateObservations children none with
  | none => rfl
  | some ag => rfl

theorem written_cons (hv : valueAt d obs f tg = v) : (fun t k => if t = tg ∧ k = f then v
      else written d obs f done t k) = written d obs f (tg :: done) := by
  funext t k
  by_cases hs : t = tg ∧ k = f
  · obtain ⟨rfl, rfl⟩ := hs
    rw [if_pos ⟨rfl, rfl⟩, written, if_pos ⟨rfl, mem_cons_self⟩, hv]
  · rw [if_neg hs]
    refine if_congr (and_congr_right fun hk => ?_) rfl rfl
    rw [mem_cons, or_iff_right fun h => hs ⟨h, hk⟩]

/-- Replacing one target by the aggregate of final observations writes its own. A target
that has been written before is not changed by it. -/
theorem replaceWithAggregate_written (hnz : Normalized d) (obs : Observations)
    (f : StateFacetKind) (tg : TargetId) (done : List TargetId) :
    replaceWithAggregate (written d obs f done) tg f ((constituents d tg).map (valueAt d obs f)) =
      written d obs f (tg :: done) := by
  -- A target that keeps the observation it has keeps its final one.
  have hke (h : written d obs f done tg f = valueAt d obs f tg) :
      written d obs f done = written d obs f (tg :: done) := by
    rw [← written_cons h.symm]
    funext t k
    split
    · next hsa => rw [hsa.1, hsa.2]
    · rfl
  rw [replaceWithAggregate_eq, isEmpty_map]
  by_cases hs : synthesized d obs f tg = true
  · rw [← valueAt_eq hnz hs]
    split
    · next hk =>
      refine hke (written_read fun _ => ?_)
      by_contra hn
      rw [written, if_neg fun h => hn h.2] at hk
      rw [synthesized_eq, hk] at hs
      exact Bool.false_ne_true hs
    · exact written_cons rfl
  · have hb : written d obs f done tg f = valueAt d obs f tg := written_read fun h => absurd h hs
    have hk : ((constituents d tg).isEmpty || isStreaming (obs tg f)) = true := by
      rwa [synthesized_eq, Bool.not_eq_true', Bool.not_eq_false] at hs
    rw [hb, valueAt_of_not hs, hk]
    exact hke hb

theorem constituents_surface (hnz : Normalized d) (hm : surf ∈ d.surfaces) :
    constituents d (.surface d.id surf.id) = surfaceConstituents d surf := by
  rw [constituents, if_pos rfl, findSurface, find_id hnz.surfaces.nodup hm]
  rfl

theorem constituents_group (hnz : Normalized d) (hm : group ∈ d.groups) :
    constituents d (.group d.id group.id) = groupConstituents d group := by
  rw [constituents, if_pos rfl, findGroup, find_id hnz.groups.nodup hm]
  rfl

theorem not_synthesized_element : ¬ synthesized d obs f (.element owner surf el) = true := by
  simp [synthesized, constituents]

theorem synthesizeSurfaces_written (hnz : Normalized d) (obs : Observations) (f : StateFacetKind)
    (hsu : surfaces ⊆ d.surfaces) (done : List TargetId) :
    ∃ done', surfaces.foldl (synthesizeSurface d f) (written d obs f done) = written d obs f done' ∧
      done ⊆ done' ∧ ∀ surf ∈ surfaces, TargetId.surface d.id surf.id ∈ done' := by
  induction surfaces generalizing done with
  | nil => exact ⟨done, rfl, Subset.refl _, by simp⟩
  | cons surf rest ih =>
    obtain ⟨hs, hr⟩ := cons_subset.1 hsu
    have hst : synthesizeSurface d f (written d obs f done) surf =
        written d obs f (.surface d.id surf.id :: done) := by
      rw [← replaceWithAggregate_written hnz,
        constituents_surface hnz hs, surfaceConstituents, map_map]
      refine congrArg _ (map_congr_left fun el _ => ?_)
      exact written_read fun h => absurd h not_synthesized_element
    rw [foldl_cons, hst]
    obtain ⟨done', ha, hk, hal⟩ := ih hr (.surface d.id surf.id :: done)
    obtain ⟨hl, hk⟩ := cons_subset.1 hk
    refine ⟨done', ha, hk, fun other ho => ?_⟩
    rcases mem_cons.1 ho with rfl | ho
    · exact hl
    · exact hal other ho

/-- What the walk over groups has written, and what it remembers. -/
structure Walked (device : Device) (observations : Observations) (facet : StateFacetKind)
    (walk : GroupWalk) (done : List TargetId) : Prop where
  written : walk.observations = written device observations facet done
  surfaces : ∀ surface,
    synthesized device observations facet (.surface device.id surface) = true →
      TargetId.surface device.id surface ∈ done
  cached : ∀ group value, walk.memo.lookup group = some value →
    value = valueAt device observations facet (.group device.id group) ∧
      TargetId.group device.id group ∈ done

/-- `synthesize` returns the final observation of the group and writes it. -/
def Synthesizes (synthesize : GroupWalk → Group → Option FacetObservation × GroupWalk)
    (group : Group) : Prop :=
  ∀ walk done, Walked device observations facet walk done → ∃ after done',
    synthesize walk group =
      (valueAt device observations facet (.group device.id group.id), after) ∧
    Walked device observations facet after done' ∧ done ⊆ done' ∧
    TargetId.group device.id group.id ∈ done'

theorem groupChild_walked {member : GroupMember}
    (hn : ∀ n group, member = .group n → findGroup d n = some group →
      Synthesizes d obs f synthesize group)
    (pre : List (Option FacetObservation)) (hwa : Walked d obs f walk done) :
    ∃ after done', groupChild d f synthesize (pre, walk) member =
        (pre ++ ((memberTarget d member).map (valueAt d obs f)).toList, after) ∧
      Walked d obs f after done' ∧ done ⊆ done' := by
  cases member with
  | surface surf =>
    refine ⟨walk, done, ?_, hwa, Subset.refl _⟩
    rw [groupChild, hwa.written, written_read (hwa.surfaces surf)]
    rfl
  | element surf el =>
    refine ⟨walk, done, ?_, hwa, Subset.refl _⟩
    rw [groupChild, hwa.written, written_read]
    · rfl
    · exact fun h => absurd h not_synthesized_element
  | group n =>
    rw [memberTarget]
    cases hf : findGroup d n with
    | none =>
      refine ⟨walk, done, ?_, hwa, Subset.refl _⟩
      rw [findGroup] at hf
      simp [groupChild, hf]
    | some group =>
      obtain ⟨after, done', ha, hw, hs, -⟩ := hn n group rfl hf walk done hwa
      refine ⟨after, done', ?_, hw, hs⟩
      rw [findGroup] at hf
      simp [groupChild, hf, ha]

theorem groupChildren_walked {ms : List GroupMember}
    (hn : ∀ n group, .group n ∈ ms → findGroup d n = some group →
      Synthesizes d obs f synthesize group)
    (pre : List (Option FacetObservation)) (hwa : Walked d obs f walk done) :
    ∃ after done', ms.foldl (groupChild d f synthesize) (pre, walk) =
        (pre ++ (ms.filterMap (memberTarget d)).map (valueAt d obs f), after) ∧
      Walked d obs f after done' ∧ done ⊆ done' := by
  induction ms generalizing pre walk done with
  | nil => exact ⟨walk, done, by simp, hwa, Subset.refl _⟩
  | cons member rest ih =>
    obtain ⟨between, done₁, hc, hb, hsub₁⟩ := groupChild_walked
      (fun n group h => hn n group (h ▸ mem_cons_self)) pre hwa
    obtain ⟨after, done₂, ha, hw, hsub₂⟩ := ih
      (fun n group h => hn n group (mem_cons_of_mem _ h)) _ hb
    refine ⟨after, done₂, ?_, hw, Subset.trans hsub₁ hsub₂⟩
    rw [foldl_cons, hc, ha]
    cases hm : memberTarget d member <;> simp [hm]

theorem Walked.remember (h : Walked d obs f walk done) (group : GroupId) : Walked d obs f
      ⟨DeviceAggregates.written d obs f (.group d.id group :: done),
        (group, valueAt d obs f (.group d.id group)) :: walk.memo⟩
      (.group d.id group :: done) where
  written := rfl
  surfaces := fun surf hs => mem_cons_of_mem _ (h.surfaces surf hs)
  cached := fun other v hl => by
    rw [lookup_cons] at hl
    split at hl
    · next hsa =>
      cases hl
      rw [beq_iff_eq.1 hsa]
      exact ⟨rfl, mem_cons_self⟩
    · obtain ⟨hv, hli⟩ := h.cached other v hl
      exact ⟨hv, mem_cons_of_mem _ hli⟩

theorem synthesizeGroup_synthesizes (hnz : Normalized d)
    (hr : Ranked d.groups rank) {fuel : ℕ} (hm : group ∈ d.groups) (hfu : rank group.id < fuel) :
    Synthesizes d obs f (synthesizeGroup d f fuel) group := by
  induction fuel generalizing group with
  | zero => exact absurd hfu (Nat.not_lt_zero _)
  | succ fuel ih =>
    intro walk done hwl
    cases hc : walk.memo.lookup group.id with
    | some v =>
      obtain ⟨rfl, hl⟩ := hwl.cached group.id v hc
      refine ⟨walk, done, ?_, hwl, Subset.refl _, hl⟩
      simp only [synthesizeGroup, hc]
    | none =>
      have hn : ∀ n inner, .group n ∈ group.members → findGroup d n = some inner →
          Synthesizes d obs f (synthesizeGroup d f fuel) inner := by
        intro n inner hl hf
        have hle := hr.nested group hm n hl
        rw [← find_group_id hf] at hle
        exact ih (mem_of_find?_eq_some hf) (by omega)
      obtain ⟨after, done', ha, hwa, hs⟩ := groupChildren_walked hn [] hwl
      have hw := replaceWithAggregate_written hnz obs f (.group d.id group.id) done'
      rw [constituents_group hnz hm, groupConstituents] at hw
      have hv : written d obs f (.group d.id group.id :: done') (.group d.id group.id) f =
            valueAt d obs f (.group d.id group.id) := written_read fun _ => mem_cons_self
      refine ⟨_, .group d.id group.id :: done', ?_, hwa.remember group.id,
        subset_cons_of_subset _ hs, mem_cons_self⟩
      rw [nil_append] at ha
      simp only [synthesizeGroup, hc, ha, hwa.written, hw, hv]

theorem synthesizeGroups_walked (hnz : Normalized d) (hs : groups ⊆ d.groups)
    (hwa : Walked d obs f walk done) : ∃ done', Walked d obs f (groups.foldl (fun walk group =>
          (synthesizeGroup d f (d.groups.length + 1) walk group).2) walk) done' ∧
      done ⊆ done' ∧ ∀ group ∈ groups, TargetId.group d.id group.id ∈ done' := by
  induction groups generalizing walk done with
  | nil => exact ⟨done, hwa, Subset.refl _, by simp⟩
  | cons group rest ih =>
    obtain ⟨hg, hre⟩ := cons_subset.1 hs
    obtain ⟨rank, hr⟩ := hnz.ranked
    have hf : rank group.id < d.groups.length + 1 := Nat.lt_succ_of_lt (hr.bounded group hg)
    obtain ⟨after, between, ha, hw, hsub₁, hl⟩ :=
      synthesizeGroup_synthesizes hnz hr hg hf walk done hwa
    obtain ⟨done', hw', hsub₂, hal⟩ := ih hre hw
    refine ⟨done', ?_, Subset.trans hsub₁ hsub₂, ?_⟩
    · rw [foldl_cons, ha]
      exact hw'
    · intro other ho
      rcases mem_cons.1 ho with rfl | ho
      · exact hsub₂ hl
      · exact hal other ho

noncomputable def settled : Observations :=
  fun target kind =>
    if kind = facet then valueAt device observations facet target else observations target kind

theorem written_eq_settled (h : ∀ tg, synthesized d obs f tg = true → tg ∈ done) :
    written d obs f done = settled d obs f := by
  funext tg kind
  by_cases hk : kind = f
  · subst hk
    rw [written_read (h tg), settled, if_pos rfl]
  · rw [written, settled, if_neg hk, if_neg fun h => hk h.1]

theorem synthesized_cases (h : synthesized d obs f tg = true) :
    tg = .device d.id ∨ (∃ surf ∈ d.surfaces, tg = .surface d.id surf.id) ∨
    ∃ group ∈ d.groups, tg = .group d.id group.id := by
  have hne : constituents d tg ≠ [] := by
    intro hn
    rw [synthesized_eq, hn, isEmpty_nil] at h
    exact Bool.false_ne_true h
  cases tg with
  | element owner surf el => exact absurd rfl hne
  | surface owner id =>
    rw [constituents] at hne
    split at hne
    · next ho =>
      cases hs : findSurface d id with
      | none =>
        rw [hs] at hne
        exact absurd rfl hne
      | some surf =>
        have hid : surf.id = id := by simpa using find?_some hs
        exact .inr (.inl ⟨surf, mem_of_find?_eq_some hs, by rw [ho, hid]⟩)
    · exact absurd rfl hne
  | group owner id =>
    rw [constituents] at hne
    split at hne
    · next ho =>
      cases hg : findGroup d id with
      | none =>
        rw [hg] at hne
        exact absurd rfl hne
      | some group =>
        refine .inr (.inr ⟨group, mem_of_find?_eq_some hg, ?_⟩)
        rw [ho, find_group_id hg]
    · exact absurd rfl hne
  | device owner =>
    rw [constituents] at hne
    split at hne
    · next ho => exact .inl (by rw [ho])
    · exact absurd rfl hne

theorem synthesizeFacet_settled (hnz : Normalized d) :
    synthesizeFacet d obs f = settled d obs f := by
  obtain ⟨done, hsu, -, hl⟩ := synthesizeSurfaces_written hnz obs f (Subset.refl d.surfaces) []
  rw [written_nil] at hsu
  have hst : Walked d obs f ⟨written d obs f done, []⟩ done := by
    refine ⟨rfl, fun surf hs => ?_, fun group v hlo => by cases hlo⟩
    rcases synthesized_cases hs with hsa | ⟨other, ho, hsa⟩ | ⟨group, -, hsa⟩
    · cases hsa
    · rw [hsa]
      exact hl other ho
    · cases hsa
  obtain ⟨done', hw, hk, hg⟩ := synthesizeGroups_walked hnz (Subset.refl d.groups) hst
  have hd := replaceWithAggregate_written hnz obs f (.device d.id) done'
  have ha : ∀ tg, synthesized d obs f tg = true → tg ∈ TargetId.device d.id :: done' := by
    intro tg ht
    rcases synthesized_cases ht with rfl | ⟨surf, hs, rfl⟩ | ⟨group, hgr, rfl⟩
    · exact mem_cons_self
    · exact mem_cons_of_mem _ (hk (hl surf hs))
    · exact mem_cons_of_mem _ (hg group hgr)
  rw [← written_eq_settled ha, ← hd, constituents, if_pos rfl, deviceConstituents, map_map]
  simp only [synthesizeFacet, hsu, hw.written]
  refine congrArg _ (map_congr_left fun surf _ => ?_)
  exact written_read (hw.surfaces surf.id)

theorem valueAt_congr (h : ∀ t, obs t f = others t f) : valueAt d obs f = valueAt d others f := by
  have hl : (obs · f) = (others · f) := funext h
  have hs : synthesized d obs f = synthesized d others f := by
    funext tg
    rw [synthesized, synthesized, h]
  have hr : registry d obs f = registry d others f := by
    funext tg
    rw [registry, registry, hs]
  funext tg
  rw [valueAt, valueAt, hs, hr, hl, h]

theorem mixedValue_cases (hmixed : mixedValue f = some mixed) :
    f = .appearance ∨ f = .effectiveAppearance := by
  cases f with
  | appearance => exact .inl rfl
  | effectiveAppearance => exact .inr rfl
  | _ => cases hmixed

theorem synthesizeDeviceAggregates_eq (hnz : Normalized d)
    (hmixed : mixedValue f = some mixed) (tg : TargetId) :
    synthesizeDeviceAggregates d obs tg f = valueAt d obs f tg := by
  simp only [synthesizeDeviceAggregates, foldl_cons, foldl_nil, synthesizeFacet_settled hnz]
  rcases mixedValue_cases hmixed with rfl | rfl
  · rfl
  · exact congrFun (valueAt_congr fun _ => rfl) tg

/-- Observations of the facet that are not themselves mixed, as plugins report them. -/
def Canonical (mixed : FacetValue) : Prop :=
  ∀ target observation, observations target facet = some observation →
    observation.value.kind = facet ∧ observation.value ≠ mixed

def Member (target member : TargetId) : Prop :=
  synthesized device observations facet target = true ∧ member ∈ constituents device target

end

/-- The aggregate claims no more certainty than the observation it is made from. -/
structure NotStronger (aggregate observation : FacetObservation) : Prop where
  confidence : confidenceRank aggregate.confidence ≤ confidenceRank observation.confidence
  observedAtMs : aggregate.observedAtMs ≤ observation.observedAtMs
  stale : observation.stale = true → aggregate.stale = true

theorem NotStronger.trans (h : NotStronger first second) (h' : NotStronger second third) :
    NotStronger first third :=
  ⟨h.confidence.trans h'.confidence, h.observedAtMs.trans h'.observedAtMs,
    fun hs => h.stale (h'.stale hs)⟩

theorem not_stronger_of_weakest (h : Weakest known (reading ag)) (hk : reading obv ∈ known) :
    NotStronger ag obv := by
  refine ⟨h.confidence.2 ⟨_, hk, rfl⟩, h.observedAtMs.2 ⟨_, hk, rfl⟩, fun hs => ?_⟩
  have hle := h.freshness.2 ⟨_, hk, rfl⟩
  cases ha : ag.stale with
  | true => rfl
  | false => simp [freshness, reading, hs, ha] at hle

section

section

variable (device : Device) (observations : Observations) (facet : StateFacetKind)
  (target : TargetId)

/-- A member the plugin reported itself, below the target. -/
def Leaf (leaf : TargetId) : Prop :=
  Relation.ReflTransGen (Member device observations facet) target leaf ∧
    synthesized device observations facet leaf = false

theorem Leaf.outer (hm : Member d obs f tg member) (h : Leaf d obs f member leaf) :
    Leaf d obs f tg leaf := ⟨.head hm h.1, h.2⟩

def LeavesDiffer : Prop :=
  ∃ s t a b, Leaf device observations facet target s ∧ Leaf device observations facet target t ∧
    observations s facet = some a ∧ observations t facet = some b ∧ a.value ≠ b.value

end

theorem LeavesDiffer.outer (hm : Member d obs f tg member) (h : LeavesDiffer d obs f member) :
    LeavesDiffer d obs f tg := by
  obtain ⟨s, t, a, b, hs, ht, hv⟩ := h
  exact ⟨s, t, a, b, hs.outer hm, ht.outer hm, hv⟩

theorem differ_of_mixed {constituents : List (Option (Reading FacetValue))}
    {sum : Reading FacetValue} (h : Summarises mixed constituents sum)
    (hv : sum.value = mixed) : Differ mixed constituents := by
  rcases h.value with ⟨hd, -⟩ | ⟨-, hsa⟩
  · exact hd
  · obtain ⟨⟨known, hk, -⟩, -⟩ := h.weakest.confidence
    obtain ⟨same, heq, hs⟩ := hsa _ hk
    exact .inl ⟨same, heq ▸ hk, hs.trans hv⟩

variable (hnz : Normalized d) (hmixed : mixedValue f = some mixed)
  (hcanonical : Canonical obs f mixed) (h : valueAt d obs f tg = some agg)

include hnz hmixed hcanonical h

theorem valueAt_kind : agg.value.kind = f := by
  induction tg using constituents_induction hnz generalizing agg with
  | step tg ih =>
    by_cases hs : synthesized d obs f tg = true
    · rw [valueAt_eq hnz hs, combined, Option.map_eq_some_iff] at h
      obtain ⟨inner, hi, rfl⟩ := h
      have hk : inner.value.kind = f := by
        refine aggregateObservations_kind hmixed (fun ob hl => ?_) hi
        obtain ⟨member, hm, hv⟩ := mem_map.1 hl
        exact ih _ hm hv
      exact hk
    · rw [valueAt_of_not hs] at h
      exact (hcanonical tg agg h).1

theorem valueAt_summarises (hs : synthesized d obs f tg = true) :
    Summarises mixed (readings ((constituents d tg).map (valueAt d obs f))) (reading agg) := by
  rw [valueAt_eq hnz hs, combined, Option.map_eq_some_iff] at h
  obtain ⟨inner, hi, rfl⟩ := h
  refine (aggregateObservations_iff hmixed fun ob hl => ?_).1 (congrArg (Option.map reading) hi)
  obtain ⟨member, -, hv⟩ := mem_map.1 hl
  exact valueAt_kind hnz hmixed hcanonical hv

theorem not_stronger_member (hm : Member d obs f tg member)
    (ho : valueAt d obs f member = some ob) : NotStronger agg ob :=
  not_stronger_of_weakest (valueAt_summarises hnz hmixed hcanonical h hm.1).weakest
    (some_mem_readings.2 ⟨ob, mem_map.2 ⟨member, hm.2, ho⟩, rfl⟩)

theorem shared_member (hm : Member d obs f tg member) (hs : agg.value ≠ mixed) :
    ∃ ob, valueAt d obs f member = some ob ∧ ob.value = agg.value := by
  rcases (valueAt_summarises hnz hmixed hcanonical h hm.1).value with
    ⟨-, hv⟩ | ⟨-, hsa⟩
  · exact absurd hv hs
  · obtain ⟨known, hk, hv⟩ := hsa _ (mem_map_of_mem (mem_map_of_mem hm.2))
    obtain ⟨ob, ho, rfl⟩ := Option.map_eq_some_iff.1 hk
    exact ⟨ob, ho, hv⟩

theorem shared_below (hbe : Relation.TransGen (Member d obs f) tg member)
    (hsi : agg.value ≠ mixed) :
    ∃ ob, valueAt d obs f member = some ob ∧ ob.value = agg.value ∧ NotStronger agg ob := by
  induction hbe with
  | single hm =>
    obtain ⟨ob, ho, hv⟩ := shared_member hnz hmixed hcanonical h hm hsi
    exact ⟨ob, ho, hv, not_stronger_member hnz hmixed hcanonical h hm ho⟩
  | tail _ hm ih =>
    obtain ⟨between, hb, hs, hst⟩ := ih
    obtain ⟨ob, ho, hv⟩ := shared_member hnz hmixed hcanonical hb hm (hs ▸ hsi)
    exact ⟨ob, ho, hv.trans hs, hst.trans (not_stronger_member hnz hmixed hcanonical hb hm ho)⟩

theorem not_stronger_below (hb : Relation.TransGen (fun outer inner => Member d obs f outer inner ∧
      (valueAt d obs f inner).isSome = true) tg member)
    (ho : valueAt d obs f member = some ob) : NotStronger agg ob := by
  induction hb generalizing ob with
  | single hm => exact not_stronger_member hnz hmixed hcanonical h hm.1 ho
  | @tail inner member hb hm ih =>
    have hi : (valueAt d obs f inner).isSome = true := by
      cases hb with
      | single hm => exact hm.2
      | tail _ hm => exact hm.2
    obtain ⟨between, hbe⟩ := Option.isSome_iff_exists.1 hi
    exact (ih hbe).trans (not_stronger_member hnz hmixed hcanonical hbe hm.1 ho)

theorem exists_leaf (hsi : agg.value ≠ mixed) :
    ∃ leaf ob, Leaf d obs f tg leaf ∧ obs leaf f = some ob ∧ ob.value = agg.value := by
  induction tg using constituents_induction hnz generalizing agg with
  | step tg ih =>
    cases hs : synthesized d obs f tg with
    | false =>
      refine ⟨tg, agg, ⟨.refl, hs⟩, ?_, rfl⟩
      rwa [valueAt_of_not (by simp [hs])] at h
    | true =>
      have hsu := valueAt_summarises hnz hmixed hcanonical h hs
      obtain ⟨⟨known, hk, -⟩, -⟩ := hsu.weakest.confidence
      obtain ⟨ob, hli, rfl⟩ := some_mem_readings.1 hk
      obtain ⟨member, hc, hv⟩ := mem_map.1 hli
      have hm : Member d obs f tg member := ⟨hs, hc⟩
      obtain ⟨same, hsa, hsh⟩ := shared_member hnz hmixed hcanonical h hm hsi
      obtain ⟨leaf, leafObservation, hle, ho, hl⟩ := ih _ hc hsa (hsh ▸ hsi)
      exact ⟨leaf, leafObservation, hle.outer hm, ho, hl.trans hsh⟩

theorem mixed_below (hv : agg.value = mixed) : LeavesDiffer d obs f tg := by
  induction tg using constituents_induction hnz generalizing agg with
  | step tg ih =>
    have hsy : synthesized d obs f tg = true := by
      by_contra hn
      rw [valueAt_of_not hn] at h
      exact (hcanonical tg agg h).2 hv
    -- A known member is mixed itself, or has a reported member with its value.
    have hme : ∀ known, some known ∈ readings ((constituents d tg).map
        (valueAt d obs f)) → LeavesDiffer d obs f tg ∨
        (known.value ≠ mixed ∧ ∃ leaf ob, Leaf d obs f tg leaf ∧
          obs leaf f = some ob ∧ ob.value = known.value) := by
      intro known hk
      obtain ⟨ob, hli, rfl⟩ := some_mem_readings.1 hk
      obtain ⟨member, hc, ho⟩ := mem_map.1 hli
      by_cases hm : ob.value = mixed
      · exact .inl ((ih _ hc ho hm).outer ⟨hsy, hc⟩)
      · obtain ⟨leaf, leafObservation, hle, hob⟩ := exists_leaf hnz hmixed hcanonical ho hm
        exact .inr ⟨hm, leaf, leafObservation, hle.outer ⟨hsy, hc⟩, hob⟩
    have hsu := valueAt_summarises hnz hmixed hcanonical h hsy
    rcases differ_of_mixed hsu hv with ⟨known, hk, hkn⟩ | ⟨a, b, ha, hb, hne⟩
    · rcases hme known hk with hd | ⟨hn, -⟩
      · exact hd
      · exact absurd hkn hn
    · rcases hme a ha with hd | ⟨-, s, left, hs, hlf, hl⟩
      · exact hd
      rcases hme b hb with hd | ⟨-, t, right, ht, hri, hr⟩
      · exact hd
      refine ⟨s, t, left, right, hs, ht, hlf, hri, ?_⟩
      rw [hl, hr]
      exact hne

end

/-- The observations a list of them is collected into, the later of two for one target
and facet being kept. -/
def byFacet (reported : List FacetObservation) : Observations :=
  reported.foldl Observation.storeObservation fun _ _ => none

theorem byFacet_reported (h : byFacet reported tg f = some obv) :
    obv ∈ reported ∧ obv.value.kind = f := by
  rw [byFacet, Observation.foldl_storeObservation, Option.or_none] at h
  have hk := find?_some h
  simp only [decide_eq_true_eq] at hk
  exact ⟨mem_reverse.1 (mem_of_find?_eq_some h), hk.2⟩

theorem canonical_byFacet (hmixed : mixedValue f = some mixed)
    (hr : ∀ obv ∈ reported, isMixed obv.value = false) : Canonical (byFacet reported) f mixed := by
  intro tg obv h
  obtain ⟨hm, hk⟩ := byFacet_reported h
  refine ⟨hk, fun hv => ?_⟩
  have ht := (isMixed_iff hmixed hk).2 hv
  rw [hr obv hm] at ht
  exact Bool.false_ne_true ht

theorem synthesizeGroup_fuel (hr : Ranked d.groups rank) (hme : group ∈ d.groups)
    (hfu : rank group.id < fuel) (hm : rank group.id < more) (walk : GroupWalk) :
    synthesizeGroup d f fuel walk group = synthesizeGroup d f more walk group := by
  induction fuel generalizing more group walk with
  | zero => exact absurd hfu (Nat.not_lt_zero _)
  | succ fuel ih =>
    cases more with
    | zero => exact absurd hm (Nat.not_lt_zero _)
    | succ more =>
      have hc : group.members.foldl (groupChild d f (synthesizeGroup d f fuel)) ([], walk) =
          group.members.foldl (groupChild d f (synthesizeGroup d f more)) ([], walk) := by
        refine foldl_ext _ _ _ fun progress member hl => ?_
        cases member with
        | surface surf => rfl
        | element surf el => rfl
        | group n =>
          cases hf : d.groups.find? (·.id == n) with
          | none => simp only [groupChild, hf]
          | some inner =>
            have hle := hr.nested group hme n hl
            rw [← find_group_id hf] at hle
            have hi : synthesizeGroup d f fuel progress.2 inner =
                synthesizeGroup d f more progress.2 inner :=
              ih (mem_of_find?_eq_some hf) (by omega) (by omega) progress.2
            simp only [groupChild, hf, hi]
      simp only [synthesizeGroup, hc]

structure Sound (device : Device) (observed final : Observations) (facet : StateFacetKind)
    (mixed : FacetValue) (target : TargetId) : Prop where
  single : ∀ aggregate, final target facet = some aggregate → aggregate.value ≠ mixed →
    ∀ member, Relation.TransGen (Member device observed facet) target member →
      ∃ observation, final member facet = some observation ∧
        observation.value = aggregate.value ∧ NotStronger aggregate observation
  differing : ∀ aggregate, final target facet = some aggregate → aggregate.value = mixed →
    LeavesDiffer device observed facet target
  missing : ∀ member, Relation.TransGen (Member device observed facet) target member →
    final member facet = none →
      final target facet = none ∨ LeavesDiffer device observed facet target
  weakest : ∀ aggregate, final target facet = some aggregate → ∀ member observation,
    Relation.TransGen (fun outer inner => Member device observed facet outer inner ∧
      (final inner facet).isSome = true) target member →
    final member facet = some observation → NotStronger aggregate observation

theorem sound_of_final (hnz : Normalized d) (hmixed : mixedValue f = some mixed)
    (hcanonical : Canonical obs f mixed) (hf : ∀ t, final t f = valueAt d obs f t) :
    Sound d obs final f mixed tg where
  single := by
    intro ag ha hs member hb
    rw [hf] at ha
    rw [hf]
    exact shared_below hnz hmixed hcanonical ha hb hs
  differing := by
    intro ag ha hv
    rw [hf] at ha
    exact mixed_below hnz hmixed hcanonical ha hv
  missing := by
    intro member hb hn
    rw [hf] at hn
    rw [hf]
    cases hv : valueAt d obs f tg with
    | none => exact .inl rfl
    | some ag =>
      by_cases hs : ag.value = mixed
      · exact .inr (mixed_below hnz hmixed hcanonical hv hs)
      · obtain ⟨obv, ho, -⟩ := shared_below hnz hmixed hcanonical hv hb hs
        rw [hn] at ho
        cases ho
  weakest := by
    intro ag ha member obv hb ho
    simp only [hf] at ha hb ho
    exact not_stronger_below hnz hmixed hcanonical ha hb ho

/-- The aggregates of a normalized device are sound, what was reported itself is kept, and more
fuel changes nothing. -/
theorem device_aggregates_sound {descriptor : Normalization.DeviceDescriptor} {device : Device}
    (hdevice : Normalization.normalizeDevice descriptor = .ok device)
    {reported : List FacetObservation}
    (hreported : ∀ observation ∈ reported, isMixed observation.value = false)
    {facet : StateFacetKind} {mixed : FacetValue} (hmixed : mixedValue facet = some mixed) :
    (∀ target, Sound device (byFacet reported)
      (synthesizeDeviceAggregates device (byFacet reported)) facet mixed target) ∧
    (∀ target, synthesized device (byFacet reported) facet target = false →
      synthesizeDeviceAggregates device (byFacet reported) target facet =
        byFacet reported target facet) ∧
    ∀ group ∈ device.groups, ∀ walk more, device.groups.length < more →
      synthesizeGroup device facet more walk group =
        synthesizeGroup device facet (device.groups.length + 1) walk group := by
  have hnormalized := normalizeDevice_normalized hdevice
  have hcanonical := canonical_byFacet hmixed hreported
  refine ⟨fun target => ?_, fun target hn => ?_, fun group hg walk more hm => ?_⟩
  · exact sound_of_final hnormalized hmixed hcanonical
      (synthesizeDeviceAggregates_eq hnormalized hmixed)
  · rw [synthesizeDeviceAggregates_eq hnormalized hmixed, valueAt_of_not (by simp [hn])]
  · obtain ⟨rank, hr⟩ := hnormalized.ranked
    have hb := hr.bounded group hg
    exact synthesizeGroup_fuel hr hg (by omega) (by omega) walk

namespace Lights

open CollectionStatus.Sample (observed)

def led (id : String) : Normalization.ElementDescriptor :=
  { id := id, capabilities := { colour := [.rgb8] } }

def descriptor : Normalization.DeviceDescriptor :=
  { id := "strip"
    name := "Strip"
    surfaces := [
      { id := "front", name := "Front", elements := [led "a", led "b", led "c"] },
      { id := "back", name := "Back", elements := [led "d", led "e"] }]
    groups := [
      { id := "all", name := "All", members := [.group "dim", .group "ends"] },
      { id := "dim", name := "Dim", members := [.element "back" "d", .element "back" "e"] },
      { id := "ends", name := "Ends", members := [.element "front" "a", .element "front" "b"] },
      { id := "warm", name := "Warm", members := [.group "lower", .element "front" "a"] },
      { id := "lower", name := "Lower", members := [.element "back" "d"] }] }

def front (element : ElementId) : TargetId := .element "strip" "front" element

def back (element : ElementId) : TargetId := .element "strip" "back" element

/-- Nothing is known of the third light in front and of the second at the back. -/
def reported : List FacetObservation :=
  [observed (front "a") 2700 .confirmed 50 false, observed (front "b") 6500 .confirmed 60 false,
    observed (back "d") 2700 .assumed 3 true]

def strip : Device :=
  { id := "strip"
    surfaces := [
      { id := "front", elements := ["a", "b", "c"].map fun id => ⟨id, { colour := [.rgb8] }⟩ },
      { id := "back", elements := ["d", "e"].map fun id => ⟨id, { colour := [.rgb8] }⟩ }]
    groups := [
      { id := "all", members := [.group "dim", .group "ends"] },
      { id := "dim", members := [.element "back" "d", .element "back" "e"] },
      { id := "ends", members := [.element "front" "a", .element "front" "b"] },
      { id := "warm", members := [.group "lower", .element "front" "a"] },
      { id := "lower", members := [.element "back" "d"] }] }

def final : Observations := synthesizeDeviceAggregates strip (byFacet reported)

end Lights

open Lights in
/-- Two lights of the front differ, so it is mixed although the third is unknown; and the
group of all is mixed on the strength of its two ends, although the light seen last
below it is older and stale. -/
theorem Counterexample.mixed_with_unknown_member :
    Normalization.normalizeDevice descriptor = .ok strip ∧
    (∀ observation ∈ reported, isMixed observation.value = false) ∧
    (front "c" ∈ constituents strip (.surface "strip" "front") ∧
      final (front "c") .appearance = none ∧
      (final (.surface "strip" "front") .appearance).map reading =
        some ⟨.appearance .mixed, .confirmed, 50, false⟩) ∧
    (constituents strip (.group "strip" "all") = [.group "strip" "dim", .group "strip" "ends"] ∧
      constituents strip (.group "strip" "dim") = [back "d", back "e"] ∧
      (final (back "d") .appearance).map reading =
        some ⟨.appearance (.static (.cct 2700)), .assumed, 3, true⟩ ∧
      (final (.group "strip" "all") .appearance).map reading =
        some ⟨.appearance .mixed, .confirmed, 50, false⟩) := by
  decide +kernel

open Lights in
/-- The two lights agree, and the weaker observation supports the group. -/
theorem warm_group_is_sound : (final (.group "strip" "warm") .appearance).map reading =
      some ⟨.appearance (.static (.cct 2700)), .assumed, 3, true⟩ ∧
    Sound strip (byFacet reported) final .appearance (.appearance .mixed)
      (.group "strip" "warm") := by
  have hs : Normalization.normalizeDevice descriptor = .ok strip := by decide +kernel
  have hr : ∀ observation ∈ reported, isMixed observation.value = false := by decide
  have hmixed : mixedValue .appearance = some (.appearance .mixed) := rfl
  exact ⟨by decide +kernel, (device_aggregates_sound hs hr hmixed).1 _⟩

end DeviceAggregates
