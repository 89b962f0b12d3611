import Mathlib.Data.List.MinMax
import Mathlib.Data.List.ReduceOption
import Mathlib.Order.Bounds.Basic
import Luminate.Observation

/-! # Aggregate observations

`state/observation.rs`: how the observations of constituents combine, and the
observations a device reports, with those of its surfaces, groups and itself
synthesized from the bottom up. -/
namespace AggregateObservation

open DeviceModel TargetTopology DaemonModel List

def confidenceRank : ObservationConfidence → ℕ
  | .assumed => 0
  | .bestEffort => 1
  | .confirmed => 2

def isMixed : FacetValue → Bool
  | .appearance .mixed | .effectiveAppearance .mixed => true
  | _ => false

def mixedValue : StateFacetKind → Option FacetValue
  | .appearance => some (.appearance .mixed)
  | .effectiveAppearance => some (.effectiveAppearance .mixed)
  | .brightness | .emission | .physicalPower | .appearanceSlots => none

def aggregateKnown (first : FacetObservation) (known : List FacetObservation)
    (value : FacetValue) : Option FacetObservation := do
  let confidence ← (known.map (·.confidence)).argmin confidenceRank
  let observedAtMs ← (known.map (·.observedAtMs)).argmin id
  return { target := first.target, value, confidence, source := .derived, observedAtMs,
           stale := known.any (·.stale) }

def aggregateObservations (constituents : List (Option FacetObservation))
    (fallback : Option FacetObservation) : Option FacetObservation :=
  if constituents.isEmpty then fallback
  else
    let known := constituents.reduceOption
    match known with
    | [] => none
    | first :: rest =>
      let mixed := known.any (isMixed ·.value) || rest.any (·.value ≠ first.value)
      if !mixed && known.length ≠ constituents.length then none
      else if mixed then (mixedValue first.value.kind).bind (aggregateKnown first known)
      else aggregateKnown first known first.value

def effectiveAppearanceObservation (appearance : AppearanceState) (emission : EmissionState)
    (appearanceObservation emissionObservation : FacetObservation) : FacetObservation :=
  let effective : EffectiveAppearanceState :=
    match emission, appearance with
    | .dark, _ => .off
    | .emitting, .static colour => .static colour
    | .emitting, .effect effect => .effect effect
    | .emitting, .mixed => .mixed
  { target := appearanceObservation.target
    value := .effectiveAppearance effective
    confidence :=
      if confidenceRank appearanceObservation.confidence ≤
          confidenceRank emissionObservation.confidence then appearanceObservation.confidence
      else emissionObservation.confidence
    source := .derived
    observedAtMs := min appearanceObservation.observedAtMs emissionObservation.observedAtMs
    stale := appearanceObservation.stale || emissionObservation.stale }

section

variable (clock : TargetId → ℕ) (state : DaemonState) (observations : Observations)
  (target : TargetId)

/-- `clock` is the time read when the observation of that target is made. -/
def streamingEffectiveAppearanceObservation : FacetObservation :=
  ⟨target, .effectiveAppearance .streaming, .confirmed, .derived, clock target, false⟩

def isFrameStreaming : Bool :=
  state.frameStreams.keys.any fun owner => targetCovers state.topology owner target

def derivedEffective : Option FacetObservation :=
  match state.observations target .appearance with
  | some observation =>
    match observation.value with
    | .appearance appearance =>
      if isFrameStreaming state target then
        some (streamingEffectiveAppearanceObservation clock target)
      else
        match state.observations target .emission with
        | some emission =>
          match emission.value with
          | .emission emissionState =>
            some (effectiveAppearanceObservation appearance emissionState observation emission)
          | _ => none
        | none => none
    | _ => none
  | none => none

/-- The stored observations with the effective appearances, before aggregation.
A stream's own target is reported even when its appearance never was. -/
def reportedObservations : Observations
  | target, .effectiveAppearance =>
    if target ∈ state.frameStreams.keys then
      some (streamingEffectiveAppearanceObservation clock target)
    else (derivedEffective clock state target).or (state.observations target .effectiveAppearance)
  | target, kind => state.observations target kind

def appearanceCapable (capabilities : CapabilitySet) : Bool :=
  !capabilities.colour.isEmpty || capabilities.hardwareEffects.isSome

def forgetObservation (kind : StateFacetKind) : Observations :=
  fun t k => if t = target ∧ k = kind then none else observations t k

def replaceWithAggregate (facet : StateFacetKind) (children : List (Option FacetObservation)) :
    Observations :=
  if children.isEmpty then observations
  else
    let fallback := observations target facet
    if fallback.any (·.value = .effectiveAppearance .streaming) then observations
    else
      match aggregateObservations children fallback with
      | some aggregate => observations.insert target facet { aggregate with target := target }
      | none => forgetObservation observations target facet

end

structure GroupWalk where
  observations : Observations
  memo : List (GroupId × Option FacetObservation) := []

section

variable (device : Device) (observations : Observations) (clock : TargetId → ℕ)
  (facet : StateFacetKind)

/-- One member of a group; `synthesize` synthesizes a nested group. -/
def groupChild (synthesize : GroupWalk → Group → Option FacetObservation × GroupWalk)
    (progress : List (Option FacetObservation) × GroupWalk) :
    GroupMember → List (Option FacetObservation) × GroupWalk
  | .surface surface =>
    (progress.1 ++ [progress.2.observations (.surface device.id surface) facet], progress.2)
  | .element surface element =>
    (progress.1 ++ [progress.2.observations (.element device.id surface element) facet], progress.2)
  | .group nested =>
    match device.groups.find? (·.id == nested) with
    | some group =>
      let (aggregate, walk) := synthesize progress.2 group
      (progress.1 ++ [aggregate], walk)
    | none => progress

/-- Groups of a validated device do not nest in a cycle, so one level per group is
enough. -/
def synthesizeGroup (device : Device) (facet : StateFacetKind) :
    ℕ → GroupWalk → Group → Option FacetObservation × GroupWalk
  | 0, walk, _ => (none, walk)
  | fuel + 1, walk, group =>
    match walk.memo.lookup group.id with
    | some cached => (cached, walk)
    | none =>
      let (children, walk) :=
        group.members.foldl (groupChild device facet (synthesizeGroup device facet fuel)) ([], walk)
      let target := .group device.id group.id
      let observations := replaceWithAggregate walk.observations target facet children
      let aggregate := observations target facet
      (aggregate, ⟨observations, (group.id, aggregate) :: walk.memo⟩)

def synthesizeSurface (observations : Observations) (surface : Surface) : Observations :=
  replaceWithAggregate observations (.surface device.id surface.id) facet
    ((surface.elements.filter (appearanceCapable ·.capabilities)).map fun element =>
      observations (.element device.id surface.id element.id) facet)

def synthesizeFacet : Observations :=
  let observations := device.surfaces.foldl (synthesizeSurface device facet) observations
  let walk := device.groups.foldl
    (fun walk group => (synthesizeGroup device facet (device.groups.length + 1) walk group).2)
    { observations := observations }
  let children :=
    (device.surfaces.filter fun surface => appearanceCapable surface.capabilities ||
      surface.elements.any (appearanceCapable ·.capabilities)).map fun surface =>
        walk.observations (.surface device.id surface.id) facet
  replaceWithAggregate walk.observations (.device device.id) facet children

def synthesizeDeviceAggregates : Observations :=
  [StateFacetKind.appearance, .effectiveAppearance].foldl (synthesizeFacet device) observations

/-- The observations of `device_state_status`, by target and facet. -/
def deviceObservations (state : DaemonState) (device : DeviceId) : Option Observations :=
  (findDevice state.topology device).map fun topology =>
    synthesizeDeviceAggregates topology (reportedObservations clock state)

/-- `DeviceStateStatus::observation` of the status of the target's device. -/
def observationOf (state : DaemonState) (target : TargetId) (facet : StateFacetKind) :
    Option FacetObservation := do
  let observations ← deviceObservations clock state target.deviceId
  (observations target facet).filter fun observation =>
    observation.target = target && observation.value.kind = facet

end

/-- A value with its support: `AggregateAppearanceObservation` and
`AggregateEffectiveAppearanceObservation`, which differ in the type of the value. -/
structure Reading (α : Type) where
  value : α
  confidence : ObservationConfidence
  observedAtMs : ℕ
  stale : Bool
  deriving DecidableEq

def Reading.map {α β : Type} (f : α → β) (reading : Reading α) : Reading β :=
  ⟨f reading.value, reading.confidence, reading.observedAtMs, reading.stale⟩

def reading (observation : FacetObservation) : Reading FacetValue :=
  ⟨observation.value, observation.confidence, observation.observedAtMs, observation.stale⟩

/-- Zero when stale, so that the least is stale as soon as one is. -/
def freshness (reading : Reading FacetValue) : ℕ := if reading.stale then 0 else 1

/-- Some constituent is mixed itself, or two that are known differ. -/
def Differ (mixed : FacetValue) (constituents : List (Option (Reading FacetValue))) : Prop :=
  (∃ known, some known ∈ constituents ∧ known.value = mixed) ∨
    ∃ a b, some a ∈ constituents ∧ some b ∈ constituents ∧ a.value ≠ b.value

structure Weakest (constituents : Set (Reading FacetValue)) (summary : Reading FacetValue) :
    Prop where
  confidence : IsLeast ((confidenceRank ·.confidence) '' constituents)
    (confidenceRank summary.confidence)
  observedAtMs : IsLeast ((·.observedAtMs) '' constituents) summary.observedAtMs
  freshness : IsLeast (freshness '' constituents) (freshness summary)

/-- The aggregate of `constituents`, by what it says about them. -/
structure Summarises (mixed : FacetValue) (constituents : List (Option (Reading FacetValue)))
    (summary : Reading FacetValue) : Prop where
  value : (Differ mixed constituents ∧ summary.value = mixed) ∨
    (¬ Differ mixed constituents ∧
      ∀ constituent ∈ constituents, ∃ known, constituent = some known ∧
        known.value = summary.value)
  weakest : Weakest {known | some known ∈ constituents} summary

variable {mixed : FacetValue} {constituents : List (Option (Reading FacetValue))}
  {summary : Reading FacetValue}

theorem Summarises.unique (h : Summarises mixed constituents summary)
    (ho : Summarises mixed constituents o) : summary = o := by
  have hc := h.weakest.confidence.unique ho.weakest.confidence
  have hf := h.weakest.freshness.unique ho.weakest.freshness
  obtain ⟨⟨known, hknown, _⟩, _⟩ := h.weakest.confidence
  have hv : summary.value = o.value := by
    obtain ⟨hd, hmixed⟩ | ⟨ha, hsa⟩ := h.value
    · obtain ⟨_, hm'⟩ | ⟨ha, _⟩ := ho.value
      · exact hmixed.trans hm'.symm
      · exact absurd hd ha
    · obtain ⟨hd, _⟩ | ⟨_, hs'⟩ := ho.value
      · exact absurd hd ha
      · obtain ⟨first, hfi, hl⟩ := hsa _ hknown
        obtain ⟨second, hs, hr⟩ := hs' _ hknown
        cases hfi
        cases hs
        exact hl.symm.trans hr
  obtain ⟨v, confidence, observedAtMs, stale⟩ := summary
  obtain ⟨v', confidence', observedAtMs', stale'⟩ := o
  obtain rfl : v = v' := hv
  obtain rfl : confidence = confidence' := by
    revert hc
    cases confidence <;> cases confidence' <;> simp [confidenceRank]
  obtain rfl : observedAtMs = observedAtMs' := h.weakest.observedAtMs.unique ho.weakest.observedAtMs
  obtain rfl : stale = stale' := by
    revert hf
    cases stale <;> cases stale' <;> simp [freshness]
  rfl

section

variable {f : StateFacetKind} {obs : List (Option FacetObservation)} {first : FacetObservation}

def readings (observations : List (Option FacetObservation)) : List (Option (Reading FacetValue)) :=
  observations.map (Option.map reading)

theorem some_mem_readings : some summary ∈ readings obs ↔
      ∃ ob, some ob ∈ obs ∧ reading ob = summary := by
  rw [readings, mem_map]
  constructor
  · rintro ⟨constituent, hm, heq⟩
    obtain ⟨ob, rfl, hr⟩ := Option.map_eq_some_iff.1 heq
    exact ⟨ob, hm, hr⟩
  · rintro ⟨ob, hm, rfl⟩
    exact ⟨some ob, hm, rfl⟩

theorem isMixed_iff (hmixed : mixedValue f = some mixed) (hkind : v.kind = f) :
    isMixed v = true ↔ v = mixed := by
  subst hkind
  cases v with
  | appearance state =>
    cases hmixed
    cases state <;> simp [isMixed]
  | effectiveAppearance state =>
    cases hmixed
    cases state <;> simp [isMixed]
  | _ => cases hmixed

theorem argmin_least {α : Type} (measure : α → ℕ) (part : FacetObservation → α) (hne : known ≠ []) :
    ∃ least, (known.map part).argmin measure = some least ∧
      IsLeast ((fun ob => measure (part ob)) '' {o | o ∈ known}) (measure least) := by
  have hn : (known.map part).argmin measure ≠ none := by
    rw [Ne, argmin_eq_none, map_eq_nil_iff]
    exact hne
  obtain ⟨least, hl⟩ := Option.ne_none_iff_exists'.1 hn
  refine ⟨least, hl, ?_, ?_⟩
  · obtain ⟨ob, hm, heq⟩ := mem_map.1 (argmin_mem hl)
    exact ⟨ob, hm, congrArg measure heq⟩
  · rintro _ ⟨ob, hm, rfl⟩
    exact le_of_mem_argmin (mem_map_of_mem hm) hl

theorem freshness_least (hne : known ≠ []) (hs : summary.stale = known.any (·.stale)) :
    IsLeast ((fun ob => freshness (reading ob)) '' {o | o ∈ known}) (freshness summary) := by
  rw [freshness, hs]
  cases ha : known.any (·.stale) with
  | true =>
    obtain ⟨ob, hm, ho⟩ := any_eq_true.1 ha
    refine ⟨⟨ob, hm, ?_⟩, fun _ _ => Nat.zero_le _⟩
    simp [freshness, reading, ho]
  | false =>
    have hf : ∀ ob ∈ known, freshness (reading ob) = 1 := by
      intro ob hm
      have ho := any_eq_false.1 ha ob hm
      simp [freshness, reading, ho]
    obtain ⟨ob, hm⟩ := exists_mem_of_ne_nil known hne
    refine ⟨⟨ob, hm, hf ob hm⟩, ?_⟩
    rintro _ ⟨ob, hm, rfl⟩
    exact (hf ob hm).ge

theorem aggregateKnown_weakest (hne : known ≠ []) :
    ∃ agg, aggregateKnown first known v = some agg ∧ agg.value = v ∧
      Weakest (reading '' {o | o ∈ known}) (reading agg) := by
  obtain ⟨confidence, hc, hw⟩ := argmin_least confidenceRank (·.confidence) hne
  obtain ⟨observedAtMs, ho, hol⟩ := argmin_least id (·.observedAtMs) hne
  refine ⟨⟨first.target, v, confidence, .derived, observedAtMs, known.any (·.stale)⟩, ?_, rfl,
    ?_, ?_, ?_⟩
  · rw [aggregateKnown, hc, ho]
    rfl
  · rw [Set.image_image]
    exact hw
  · rw [Set.image_image]
    exact hol
  · rw [Set.image_image]
    exact freshness_least hne rfl

theorem knownReadings : {known | some known ∈ readings obs} =
      reading '' {o | o ∈ obs.reduceOption} := by
  ext summary
  rw [Set.mem_ofPred_eq, some_mem_readings]
  simp only [Set.mem_image, Set.mem_ofPred_eq, reduceOption_mem_iff]

theorem ne_nil_of_summarises (h : Summarises mixed (readings obs) summary) :
    obs.reduceOption ≠ [] := by
  obtain ⟨⟨known, hknown, _⟩, _⟩ := h.weakest.confidence
  rw [knownReadings] at hknown
  obtain ⟨ob, hm, _⟩ := hknown
  exact ne_nil_of_mem hm

theorem aggregateObservations_known (hknown : obs.reduceOption = first :: rest)
    (hd : ((first :: rest).any (isMixed ·.value) || rest.any (·.value ≠ first.value)) = differing) :
    aggregateObservations obs none = if !differing && (first :: rest).length ≠ obs.length then none
      else if differing then
        (mixedValue first.value.kind).bind (aggregateKnown first (first :: rest))
      else aggregateKnown first (first :: rest) first.value := by
  have hne : ¬ obs.isEmpty = true := by
    intro he
    rw [List.isEmpty_iff.1 he] at hknown
    cases hknown
  simp only [aggregateObservations, if_neg hne, hknown, hd]

theorem aggregateKnown_summary (hknown : obs.reduceOption = first :: rest) :
    ∃ agg, aggregateKnown first (first :: rest) v = some agg ∧ agg.value = v ∧
      Weakest {known | some known ∈ readings obs} (reading agg) := by
  rw [knownReadings, hknown]
  exact aggregateKnown_weakest (cons_ne_nil first rest)

open Classical in
noncomputable def combine (mixed : FacetValue) (constituents : List (Option (Reading FacetValue))) :
    Option (Reading FacetValue) :=
  if h : ∃ summary, Summarises mixed constituents summary then some h.choose else none

theorem combine_eq_some_iff :
    combine mixed constituents = some summary ↔ Summarises mixed constituents summary := by
  rw [combine]
  split
  · next he =>
    rw [Option.some.injEq]
    constructor
    · rintro rfl
      exact he.choose_spec
    · exact he.choose_spec.unique
  · next hn =>
    constructor
    · intro h
      cases h
    · intro h
      exact absurd ⟨summary, h⟩ hn

theorem combine_congr (hsa : ∀ constituent, constituent ∈ constituents ↔ constituent ∈ others) :
    combine mixed constituents = combine mixed others := by
  have hs : ∀ summary, Summarises mixed constituents summary ↔ Summarises mixed others summary := by
    intro summary
    have hd : Differ mixed constituents ↔ Differ mixed others := by simp only [Differ, hsa]
    have hknown : {known | some known ∈ constituents} = {known | some known ∈ others} := by
      ext known
      exact hsa (some known)
    constructor
    · rintro ⟨hv, hw⟩
      exact ⟨by simpa only [hd, hsa] using hv, hknown ▸ hw⟩
    · rintro ⟨hv, hw⟩
      exact ⟨by simpa only [hd, hsa] using hv, hknown ▸ hw⟩
  refine Option.ext fun summary => ?_
  rw [combine_eq_some_iff, combine_eq_some_iff, hs]

theorem mixedValue_kind (hmixed : mixedValue f = some mixed) : mixed.kind = f := by
  cases f with
  | appearance => exact Option.some.inj hmixed ▸ rfl
  | effectiveAppearance => exact Option.some.inj hmixed ▸ rfl
  | _ => cases hmixed

section

variable (hmixed : mixedValue f = some mixed)
  (hkind : ∀ observation, some observation ∈ obs → observation.value.kind = f)
include hmixed hkind

section

variable (hknown : obs.reduceOption = first :: rest)
include hknown

theorem differ_iff : Differ mixed (readings obs) ↔
      ((first :: rest).any (isMixed ·.value) || rest.any (·.value ≠ first.value)) = true := by
  have hm : ∀ ob, ob ∈ first :: rest ↔ some ob ∈ obs := by
    intro ob
    rw [← hknown, reduceOption_mem_iff]
  rw [Bool.or_eq_true, any_eq_true, any_eq_true]
  constructor
  · rintro (⟨summary, hs, hv⟩ | ⟨a, b, ha, hb, hne⟩)
    · obtain ⟨ob, hl, rfl⟩ := some_mem_readings.1 hs
      have hi := (isMixed_iff hmixed (hkind ob hl)).2 hv
      exact .inl ⟨ob, (hm ob).2 hl, hi⟩
    · obtain ⟨left, hle, rfl⟩ := some_mem_readings.1 ha
      obtain ⟨right, hr, rfl⟩ := some_mem_readings.1 hb
      -- One of the two differs from the first, and is not the first itself.
      by_cases hf : left.value = first.value
      · have ho : right.value ≠ first.value := fun h => hne (hf.trans h.symm)
        obtain rfl | hre := mem_cons.1 ((hm right).2 hr)
        · exact absurd rfl ho
        · exact .inr ⟨right, hre, decide_eq_true ho⟩
      · obtain rfl | hre := mem_cons.1 ((hm left).2 hle)
        · exact absurd rfl hf
        · exact .inr ⟨left, hre, decide_eq_true hf⟩
  · rintro (⟨ob, hl, hi⟩ | ⟨ob, hl, hne⟩)
    · have hso := (hm ob).1 hl
      exact .inl ⟨reading ob, some_mem_readings.2 ⟨ob, hso, rfl⟩,
        (isMixed_iff hmixed (hkind ob hso)).1 hi⟩
    · have hso := (hm ob).1 (mem_cons_of_mem _ hl)
      have hf := (hm first).1 mem_cons_self
      exact .inr ⟨reading ob, reading first,
        some_mem_readings.2 ⟨ob, hso, rfl⟩, some_mem_readings.2 ⟨first, hf, rfl⟩,
        of_decide_eq_true hne⟩

theorem aggregate_differing (hd : Differ mixed (readings obs)) :
    ∃ agg, aggregateObservations obs none = some agg ∧
      Summarises mixed (readings obs) (reading agg) := by
  have hf : first.value.kind = f := by
    refine hkind first (reduceOption_mem_iff.1 ?_)
    rw [hknown]
    exact mem_cons_self
  obtain ⟨agg, ha, hv, hw⟩ := aggregateKnown_summary hknown
  refine ⟨agg, ?_, .inl ⟨hd, hv⟩, hw⟩
  rw [aggregateObservations_known hknown ((differ_iff hmixed hkind hknown).1 hd), hf, hmixed]
  exact ha

theorem aggregate_agreeing (ha : ¬ Differ mixed (readings obs))
    (hal : (first :: rest).length = obs.length) : ∃ agg, aggregateObservations obs none = some agg ∧
      Summarises mixed (readings obs) (reading agg) := by
  have hb := Bool.eq_false_of_not_eq_true (mt (differ_iff hmixed hkind hknown).2 ha)
  have hf : some (reading first) ∈ readings obs := by
    refine some_mem_readings.2 ⟨first, reduceOption_mem_iff.1 ?_, rfl⟩
    rw [hknown]
    exact mem_cons_self
  obtain ⟨agg, hag, hv, hw⟩ := aggregateKnown_summary hknown
  refine ⟨agg, ?_, .inr ⟨ha, ?_⟩, hw⟩
  · rw [aggregateObservations_known hknown hb, hal]
    simpa using hag
  · intro constituent hc
    obtain ⟨listed, hl, rfl⟩ := mem_map.1 hc
    rw [← hknown, reduceOption_length_eq_iff] at hal
    obtain ⟨ob, rfl⟩ := Option.isSome_iff_exists.1 (hal listed hl)
    refine ⟨reading ob, rfl, ?_⟩
    by_contra hne
    exact ha (.inr ⟨reading ob, reading first, hc, hf, fun h => hne (h.trans hv.symm)⟩)

theorem aggregate_unknown (ha : ¬ Differ mixed (readings obs))
    (hm : (first :: rest).length ≠ obs.length) : aggregateObservations obs none = none ∧
      ∀ summary, ¬ Summarises mixed (readings obs) summary := by
  have hb := Bool.eq_false_of_not_eq_true (mt (differ_iff hmixed hkind hknown).2 ha)
  constructor
  · rw [aggregateObservations_known hknown hb, decide_eq_true hm]
    rfl
  · intro summary h
    obtain ⟨hd, _⟩ | ⟨_, hs⟩ := h.value
    · exact ha hd
    · rw [← hknown, Ne, reduceOption_length_eq_iff] at hm
      refine hm fun listed hl => ?_
      obtain ⟨known, hr, _⟩ := hs _ (mem_map_of_mem hl)
      obtain ⟨ob, rfl, _⟩ := Option.map_eq_some_iff.1 hr
      rfl

end

theorem aggregateObservations_iff : (aggregateObservations obs none).map reading = some summary ↔
      Summarises mixed (readings obs) summary := by
  have hc : (∃ agg, aggregateObservations obs none = some agg ∧
        Summarises mixed (readings obs) (reading agg)) ∨
      (aggregateObservations obs none = none ∧
        ∀ summary, ¬ Summarises mixed (readings obs) summary) := by
    cases hknown : obs.reduceOption with
    | nil =>
      refine .inr ⟨?_, fun summary h => ne_nil_of_summarises h hknown⟩
      simp [aggregateObservations, hknown]
    | cons first rest =>
      by_cases hd : Differ mixed (readings obs)
      · exact .inl (aggregate_differing hmixed hkind hknown hd)
      · by_cases hal : (first :: rest).length = obs.length
        · exact .inl (aggregate_agreeing hmixed hkind hknown hd hal)
        · exact .inr (aggregate_unknown hmixed hkind hknown hd hal)
  obtain ⟨agg, ha, hs⟩ | ⟨hn, hu⟩ := hc
  · rw [ha, Option.map_some, Option.some.injEq]
    constructor
    · rintro rfl
      exact hs
    · exact hs.unique
  · rw [hn]
    constructor
    · intro h
      cases h
    · intro h
      exact absurd h (hu summary)

theorem aggregateObservations_reading : (aggregateObservations obs none).map reading =
      combine mixed (readings obs) := by
  refine Option.ext fun summary => ?_
  rw [aggregateObservations_iff hmixed hkind, combine_eq_some_iff]

theorem aggregateObservations_kind (h : aggregateObservations obs none = some agg) :
    agg.value.kind = f := by
  have hs : Summarises mixed (readings obs) (reading agg) :=
    (aggregateObservations_iff hmixed hkind).1 (congrArg (Option.map reading) h)
  obtain ⟨_, hv⟩ | ⟨_, hsa⟩ := hs.value
  · exact (congrArg FacetValue.kind hv).trans (mixedValue_kind hmixed)
  · obtain ⟨⟨known, hknown, _⟩, _⟩ := hs.weakest.confidence
    obtain ⟨ob, hm, rfl⟩ := some_mem_readings.1 hknown
    obtain ⟨same, heq, hv⟩ := hsa _ hknown
    cases heq
    exact (congrArg FacetValue.kind hv).symm.trans (hkind ob hm)

end

end

end AggregateObservation
