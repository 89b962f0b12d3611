import Luminate.CollectionMutation
import Luminate.Transition

/-! # Restoring devices

`daemon/reconciliation.rs`: the operations replayed to a device, adopted facets
beneath desired entries, and the verification that reads them back. -/
namespace Reconciliation

open DeviceModel TargetTopology DaemonModel DesiredState Adoption Transition List

def facetOperation : FacetValue → Option PluginUpdateOperation
  | .appearance (.static colour) => some (.setEffect (.static colour))
  | .appearance (.effect effect) => some (.setEffect effect)
  | .appearance .mixed => none
  | .brightness value => some (.setBrightness value)
  | .appearanceSlots slots => some (.setAppearanceSlots slots.values)
  | .emission .dark => some (.setEffect .off)
  | .emission .emitting => none
  | .physicalPower .off => some (.setEffect .off)
  | .physicalPower .on => none
  | .effectiveAppearance _ => none

def operationForTargetState : TargetState → PluginUpdateOperation
  | .effect effect => .setEffect effect
  | .brightness value => .setBrightness value
  | .appearanceSlots values => .setAppearanceSlots values
  | .clear => .clear

def persistenceRequirement : PersistenceCapability → Option PersistenceRequirement
  | .none => none
  | .currentState requirement _ _ => some requirement
  | .profiles requirement _ _ _ => some requirement

section

variable (state : DaemonState) (devices : Option (List DeviceId)) (target : TargetId)

def persistenceRequirementForTarget : Option PersistenceRequirement :=
  (capabilitiesForTarget state.topology target).bind fun capabilities =>
    persistenceRequirement capabilities.persistence

def isSelected : Bool :=
  (capabilitiesForTarget state.topology target).isSome &&
    devices.all fun selected => selected.contains target.deviceId

def selectedFacets : List AdoptedFacet :=
  state.adoptedBaseline.filter fun facet => isSelected state devices facet.target

/-- Desired entries to replay; hardware that persists every write is left alone. -/
def selectedEntries : List TargetStateEntry :=
  state.targetState.filter fun entry =>
    isSelected state devices entry.target &&
      persistenceRequirementForTarget state entry.target != some .required

/-- The operations derived from adopted facets, each with its facet. -/
def adoptedReplay : List (AdoptedFacet × TargetId × PluginUpdateOperation) :=
  (selectedFacets state devices).filterMap fun facet =>
    (facetOperation facet.value).map fun operation => (facet, facet.target, operation)

def entryOperation (entry : TargetStateEntry) : TargetId × PluginUpdateOperation :=
  (entry.target, operationForTargetState entry.state)

def pendingCachedState : List (TargetId × PluginUpdateOperation) :=
  (adoptedReplay state devices).map Prod.snd ++ (selectedEntries state devices).map entryOperation

def expectedFacet (operation : TargetId × PluginUpdateOperation) : Option FacetValue :=
  match operation.2 with
  | .setEffect .off => some (.emission .dark)
  | .setEffect (.static colour) => some (.appearance (.static colour))
  | .setEffect effect => some (.appearance (.effect effect))
  | .setBrightness value => some (.brightness value)
  | .setAppearanceSlots values =>
    let slotCount := (capabilitiesForTarget state.topology operation.1).bind fun capabilities =>
      capabilities.appearanceSlots.map (·.slots.length)
    some (.appearanceSlots ⟨values, slotCount = some values.length⟩)
  | .clear => none
  | .saveCurrent => none

def confirmedObservation (kind : StateFacetKind) : Option FacetObservation :=
  (state.observations target kind).filter fun o => o.confidence = .confirmed

def confirmedObservationsMatch (operations : List (TargetId × PluginUpdateOperation)) : Bool :=
  operations.all fun operation =>
    match expectedFacet state operation with
    | none => true
    | some expected =>
      (confirmedObservation state operation.1 expected.kind).all fun o => o.value = expected

def replayWrite (operation : TargetId × PluginUpdateOperation) (target : TargetId)
    (kind : StateFacetKind) : Option FacetValue :=
  if operation.1 = target then (expectedFacet state operation).filter fun v => v.kind = kind
  else none

def HoldsReplay (operations : List (TargetId × PluginUpdateOperation)) : Prop :=
  ∀ target kind, ∀ o ∈ confirmedObservation state target kind,
    ∀ value ∈ OverlayLog.lastWrite (replayWrite state) target kind operations, o.value = value

/-- Two operations do not write different values to a confirmed facet. -/
def Agree (a b : TargetId × PluginUpdateOperation) : Prop :=
  ∀ target kind, (confirmedObservation state target kind).isSome = true →
    ∀ v ∈ replayWrite state a target kind, ∀ w ∈ replayWrite state b target kind, v = w

end

variable {s : DaemonState}

theorem mem_replayWrite : v ∈ replayWrite s op target kind ↔
      op.1 = target ∧ expectedFacet s op = some v ∧ v.kind = kind := by
  rw [replayWrite]
  split <;> simp [*, Option.filter_eq_some_iff]

theorem confirmedObservationsMatch_iff : confirmedObservationsMatch s operations = true ↔
      ∀ op ∈ operations, ∀ target kind, ∀ o ∈ confirmedObservation s target kind,
        ∀ v ∈ replayWrite s op target kind, o.value = v := by
  rw [confirmedObservationsMatch, all_eq_true]
  refine forall₂_congr fun op _ => ?_
  constructor
  · intro h target kind o ho v hv
    obtain ⟨rfl, he, rfl⟩ := mem_replayWrite.1 hv
    rw [he] at h
    simpa using (Option.all_eq_true _ _).1 h o ho
  · intro h
    split
    next => rfl
    next expected he =>
      refine (Option.all_eq_true _ _).2 fun o ho => ?_
      simpa using h op.1 expected.kind o ho expected (mem_replayWrite.2 ⟨rfl, he, rfl⟩)

/-- When the hardware holds what the replay left, verification accepts exactly
the replays whose operations never disagree on a confirmed facet. -/
theorem match_iff_pairwise_agree (h : HoldsReplay s operations) :
    confirmedObservationsMatch s operations = true ↔ operations.Pairwise (Agree s) := by
  rw [confirmedObservationsMatch_iff]
  constructor
  · intro hm
    refine pairwise_of_forall_mem_list fun a ha b hb target kind hs v hv w hw => ?_
    obtain ⟨o, ho⟩ := Option.isSome_iff_exists.1 hs
    rw [← hm a ha target kind o ho v hv, hm b hb target kind o ho w hw]
  · intro hag op hop target kind o ho v hv
    obtain ⟨pre, after, rfl⟩ := append_of_mem hop
    have hla := h target kind o ho
    rw [← singleton_append, ← append_assoc, OverlayLog.lastWrite_append,
      OverlayLog.lastWrite_concat, hv] at hla
    -- either a later operation wrote the facet last, or this one did
    cases hl : OverlayLog.lastWrite (replayWrite s) target kind after with
    | none => exact hla v (by simp [hl])
    | some w =>
      obtain ⟨later, hme, hw⟩ := exists_of_findSome?_eq_some hl
      have ht := (pairwise_append.1 hag).2.1
      have hp := (pairwise_cons.1 ht).1 later (mem_reverse.1 hme)
      rw [hla w (by simp [hl])]
      exact (hp target kind (Option.isSome_iff_exists.2 ⟨o, ho⟩) v hv w hw).symm

/-- No two adopted facets or desired entries replayed to a target write
different values to a facet with a confirmed observation. -/
structure ReplayAgrees (state : DaemonState) (devices : Option (List DeviceId)) : Prop where
  adopted : (selectedFacets state devices).Pairwise fun f g =>
    ∀ a ∈ facetOperation f.value, ∀ b ∈ facetOperation g.value,
      Agree state (f.target, a) (g.target, b)
  overlaid : ∀ f ∈ selectedFacets state devices, ∀ entry ∈ selectedEntries state devices,
    ∀ a ∈ facetOperation f.value, Agree state (f.target, a) (entryOperation entry)
  desired : (selectedEntries state devices).Pairwise fun e f =>
    Agree state (entryOperation e) (entryOperation f)

theorem pairwise_agree_iff : (pendingCachedState s ds).Pairwise (Agree s) ↔ ReplayAgrees s ds := by
  simp only [pendingCachedState, adoptedReplay, pairwise_append, pairwise_map,
    pairwise_filterMap, mem_map, mem_filterMap, Option.map_eq_some_iff]
  constructor
  · rintro ⟨had, hd, hc⟩
    refine ⟨had.imp fun h a ha b hb => h _ ⟨a, ha, rfl⟩ _ ⟨b, hb, rfl⟩,
      fun f hf entry he a ha => ?_, hd⟩
    exact hc _ ⟨_, ⟨f, hf, a, ha, rfl⟩, rfl⟩ _ ⟨entry, he, rfl⟩
  · intro h
    refine ⟨h.adopted.imp ?_, h.desired, ?_⟩
    · rintro f g hfg _ ⟨a, ha, rfl⟩ _ ⟨b, hb, rfl⟩
      exact hfg a ha b hb
    · rintro _ ⟨_, ⟨f, hf, a, ha, rfl⟩, rfl⟩ _ ⟨entry, he, rfl⟩
      exact h.overlaid f hf entry he a ha

/-- Restore verification reports no drift on hardware that holds what the replay
left exactly when nothing replayed was superseded by a different value. -/
theorem restore_verification_iff (state : DaemonState) (devices : Option (List DeviceId))
    (hheld : HoldsReplay state (pendingCachedState state devices)) :
    confirmedObservationsMatch state (pendingCachedState state devices) = true ↔
      ReplayAgrees state devices := by
  rw [match_iff_pairwise_agree hheld, pairwise_agree_iff]

section

open DesiredState.Sample

/-- Only a brightness is observed, as the desired entry left it. -/
def dimmed (adopted desired : ℕ) : DaemonState where
  topology := topology
  adoptedBaseline := [⟨device, .brightness adopted, 0⟩]
  targetState := [⟨device, .brightness desired⟩]
  observations := Observation.storeObservation (fun _ _ => none)
    ⟨device, .brightness desired, .confirmed, .readback, 0, false⟩

theorem dimmed_holdsReplay :
    HoldsReplay (dimmed adopted des) (pendingCachedState (dimmed adopted des) none) := by
  intro target kind o ho v hv
  simp only [confirmedObservation, dimmed, Observation.storeObservation, Observations.insert,
    FacetValue.kind] at ho
  split at ho
  next hk =>
    obtain ⟨rfl, rfl⟩ := hk
    simp only [Option.filter_some, decide_true, if_true, Option.mem_some_iff] at ho
    rw [← ho, ← Option.some_inj]
    exact hv
  next => simp at ho

theorem uniform_brightness_agrees : ReplayAgrees (dimmed 10 10) none :=
  (restore_verification_iff (dimmed 10 10) none dimmed_holdsReplay).1
    (by decide +kernel)

namespace Counterexample

/-- The hardware holds the desired brightness, and verification compares it with
the adopted one beneath. -/
theorem superseded_brightness_drifts :
    HoldsReplay (dimmed 5 10) (pendingCachedState (dimmed 5 10) none) ∧
      confirmedObservationsMatch (dimmed 5 10) (pendingCachedState (dimmed 5 10) none) = false :=
  ⟨dimmed_holdsReplay, by decide +kernel⟩

end Counterexample

end

def Darkens (facet : AdoptedFacet) : Prop :=
  facet.value = .emission .dark ∨ facet.value = .physicalPower .off

/-- An operation with an implicit power-on: an appearance or a brightness. -/
def IsLighting : PluginUpdateOperation → Prop
  | .setEffect effect => effect ≠ .off
  | .setBrightness _ => True
  | _ => False

def Lights (facet : AdoptedFacet) : Prop := ∃ operation ∈ facetOperation facet.value,
  IsLighting operation

def DarknessLast (facets : List AdoptedFacet) : Prop :=
  facets.Pairwise fun f g => Darkens f → Lights g → f.target ≠ g.target

section

variable (platform : Platform) (state : DaemonState)

/-- No appearance or brightness operation follows the `Off` of a dark facet of
the same target. -/
def DarknessReplaysLast (devices : Option (List DeviceId)) : Prop :=
  (adoptedReplay state devices).Pairwise fun a b =>
    Darkens a.1 → IsLighting b.2.2 → a.2.1 ≠ b.2.1

theorem darknessReplaysLast_of_baseline (h : DarknessLast s.adoptedBaseline) :
    DarknessReplaysLast s ds := by
  rw [DarknessReplaysLast, adoptedReplay, pairwise_filterMap]
  refine (Pairwise.filter _ h).imp fun hfg a ha b hb hd hl => ?_
  obtain ⟨_, _, rfl⟩ := Option.map_eq_some_iff.1 ha
  obtain ⟨op, ho, rfl⟩ := Option.map_eq_some_iff.1 hb
  exact hfg hd ⟨op, ho, hl⟩

/-- Every dark facet that `delta` would put before a lighting facet of its
target is adopted again later in `delta`. -/
structure KeepsDarknessLast (baseline delta : List AdoptedFacet) : Prop where
  adopted : ∀ f ∈ baseline, ∀ g ∈ delta, Darkens f → Lights g → f.target = g.target →
    ∃ again ∈ delta, SameFacet f again
  fresh : ∀ before f between g after, delta = before ++ f :: between ++ g :: after →
    Darkens f → Lights g → f.target = g.target → ∃ again ∈ between ++ g :: after, SameFacet f again

/-- A facet without its slot values, which replacement may merge. -/
def eraseSlots (facet : AdoptedFacet) : AdoptedFacet :=
  match facet.value with
  | .appearanceSlots _ => { facet with value := .appearanceSlots ⟨[], false⟩ }
  | _ => facet

def sameFacet (new old : AdoptedFacet) : Bool := SameFacet old new

theorem eraseSlots_target : (eraseSlots f).target = f.target := by
  rw [eraseSlots]
  split <;> rfl

theorem eraseSlots_kind : (eraseSlots f).value.kind = f.value.kind := by
  rw [eraseSlots]
  split
  next h => simp [h, FacetValue.kind]
  next => rfl

theorem eraseSlots_inheritSlots (facets : List AdoptedFacet) :
    eraseSlots (inheritSlots facets repl) = eraseSlots repl := by
  rw [inheritSlots]
  split
  next h _ => simp [eraseSlots, h]
  next => rfl

theorem darkens_eraseSlots : Darkens (eraseSlots f) ↔ Darkens f := by
  rw [eraseSlots]
  split
  next h => simp [Darkens, h]
  next => rfl

theorem lights_eraseSlots : Lights (eraseSlots f) ↔ Lights f := by
  rw [eraseSlots]
  split
  next h => simp [Lights, h, facetOperation, IsLighting]
  next => rfl

theorem sameFacet_eraseSlots : SameFacet (eraseSlots f) (eraseSlots g) ↔ SameFacet f g := by
  simp [SameFacet, eraseSlots_target, eraseSlots_kind]

theorem darknessLast_eraseSlots (facets : List AdoptedFacet) :
    DarknessLast (facets.map eraseSlots) ↔ DarknessLast facets := by
  simp [DarknessLast, pairwise_map, darkens_eraseSlots, lights_eraseSlots, eraseSlots_target]

theorem mergedAdoptedBaseline_eraseSlots : (mergedAdoptedBaseline s delta).map eraseSlots =
      (delta.map eraseSlots).foldl (OverlayLog.insert sameFacet)
        (s.adoptedBaseline.map eraseSlots) := by
  induction delta using reverseRecOn with
  | nil => rfl
  | append_singleton delta f ih =>
    rw [mergedAdoptedBaseline, foldl_append, map_append, foldl_append, ← ih]
    simp only [foldl_cons, foldl_nil, map_cons, map_nil, replaceAdoptedFacet,
      OverlayLog.insert, map_append, filter_map, eraseSlots_inheritSlots]
    congr 2
    refine filter_congr fun old _ => ?_
    simp [sameFacet, sameFacet_eraseSlots]

theorem compact_darknessLast (h : KeepsDarknessLast baseline delta) :
    DarknessLast (OverlayLog.compact sameFacet (delta.map eraseSlots)) := by
  refine OverlayLog.compact_pairwise sameFacet fun pre f between g after heq hla hd hl ht => ?_
  -- pull the split of the erased delta back to the delta itself
  obtain ⟨front, back, rfl, hf, hb⟩ := map_eq_append_iff.1 heq
  obtain ⟨pre', rest, rfl, -, hr⟩ := map_eq_append_iff.1 hf
  obtain ⟨f', between', rfl, rfl, rfl⟩ := map_eq_cons_iff.1 hr
  obtain ⟨g', after', rfl, rfl, rfl⟩ := map_eq_cons_iff.1 hb
  rw [darkens_eraseSlots] at hd
  rw [lights_eraseSlots] at hl
  rw [eraseSlots_target, eraseSlots_target] at ht
  obtain ⟨again, ha, hs⟩ := h.fresh pre' f' between' g' after' rfl hd hl ht
  have hk := hla (eraseSlots again) (by
    simpa using mem_map_of_mem ha)
  simp [sameFacet, sameFacet_eraseSlots, hs] at hk

/-- Adopting a delta that re-adopts darkness after it lights a target keeps
darkness last. -/
theorem merged_darknessLast (hb : DarknessLast s.adoptedBaseline)
    (h : KeepsDarknessLast s.adoptedBaseline delta) :
    DarknessLast (mergedAdoptedBaseline s delta) := by
  rw [← darknessLast_eraseSlots, mergedAdoptedBaseline_eraseSlots, OverlayLog.foldl_insert_eq]
  refine pairwise_append.2 ⟨?_, compact_darknessLast h, ?_⟩
  · exact Pairwise.filter _ ((darknessLast_eraseSlots _).2 hb)
  · intro f hf g hg hd hl ht
    obtain ⟨hm, hk⟩ := mem_filter.1 hf
    obtain ⟨f', hf', rfl⟩ := mem_map.1 hm
    obtain ⟨g', hg', rfl⟩ := mem_map.1 (OverlayLog.mem_of_mem_compact sameFacet hg)
    rw [darkens_eraseSlots] at hd
    rw [lights_eraseSlots] at hl
    rw [eraseSlots_target, eraseSlots_target] at ht
    obtain ⟨again, ha, hsa⟩ := h.adopted f' hf' g' hg' hd hl ht
    have hs := all_eq_true.1 hk _ (mem_map_of_mem ha)
    simp [sameFacet, sameFacet_eraseSlots, hsa] at hs

inductive AdoptionStep where
  | acceptSnapshot (now : ℕ) (device : DeviceId) (expectedGeneration : ℕ)
      (snapshot : PluginStateSnapshot) (adopt : Bool)
  | stageAdoption (delta : List AdoptedFacet)
  | finishPendingAdoption (persisted : Bool)
  | commitAdoptedBaseline (delta : List AdoptedFacet)
  | restoreAdoptedBaseline (adopted : List AdoptedFacet)

/-- The state after a step; a refused one changes nothing. -/
def adoptionStep : AdoptionStep → DaemonState
  | .acceptSnapshot now device expectedGeneration snapshot adopt =>
    match acceptSnapshot platform now state device expectedGeneration snapshot adopt with
    | .ok (after, _) => after
    | .error _ => state
  | .stageAdoption delta =>
    match stageAdoption platform state delta with
    | .ok after => after
    | .error _ => state
  | .finishPendingAdoption persisted => finishPendingAdoption state persisted
  | .commitAdoptedBaseline delta => commitAdoptedBaseline state delta
  | .restoreAdoptedBaseline adopted => restoreAdoptedBaseline state adopted

def NothingAdopted : Prop :=
  state.adoptedBaseline = [] ∧ state.pendingAdoption = []

def AdoptsDarknessLast : AdoptionStep → Prop
  | .acceptSnapshot .. => True
  | .stageAdoption _ => True
  | .finishPendingAdoption persisted => persisted = true →
      KeepsDarknessLast state.adoptedBaseline state.pendingAdoption
  | .commitAdoptedBaseline delta => KeepsDarknessLast state.adoptedBaseline delta
  | .restoreAdoptedBaseline adopted => DarknessLast adopted

theorem adoptionStep_darknessLast (h : DarknessLast s.adoptedBaseline)
    (hg : AdoptsDarknessLast s step) : DarknessLast (adoptionStep p s step).adoptedBaseline := by
  cases step with
  | acceptSnapshot now d gen snapshot adopt =>
    simp only [adoptionStep]
    split
    next after _ hok => rwa [(acceptSnapshot_observes hok).adoptedBaseline]
    next => exact h
  | stageAdoption delta =>
    simp only [adoptionStep]
    split
    next after hok => rwa [stageAdoption_adoptedBaseline hok]
    next => exact h
  | finishPendingAdoption persisted =>
    cases persisted with
    | true =>
      simp only [adoptionStep, finishPendingAdoption, if_true,
        commitAdoptedBaseline_adoptedBaseline]
      exact merged_darknessLast h (hg rfl)
    | false =>
      simp only [adoptionStep, finishPendingAdoption, Bool.false_eq_true, if_false,
        (foldl_noteAdoption_observes ..).adoptedBaseline]
      exact h
  | commitAdoptedBaseline delta =>
    simp only [adoptionStep, commitAdoptedBaseline_adoptedBaseline]
    exact merged_darknessLast h hg
  | restoreAdoptedBaseline adopted => exact Pairwise.filter _ hg

/-- Over whole adoption histories, darkness replays last as long as every
committed delta re-adopts the darkness it would overtake. -/
theorem adopted_darkness_replays_last {state : DaemonState}
    (h : Reachable NothingAdopted (fun s l t => adoptionStep platform s l = t) AdoptsDarknessLast
      state) (devices : Option (List DeviceId)) : DarknessReplaysLast state devices := by
  have hb : DarknessLast state.adoptedBaseline := by
    refine h.holds (fun s => DarknessLast s.adoptedBaseline) (fun s hs => ?_) ?_
    · rw [hs.1]
      exact Pairwise.nil
    · intro s l t hs hg ht
      exact ht ▸ adoptionStep_darknessLast hs hg
  exact darknessReplaysLast_of_baseline hb

end

section

open DesiredState.Sample

def lamp : Device where
  id := "lamp"
  capabilities :=
    { colour := [.rgb8], emission := true,
      stateReadback := .readable [⟨.emission, .exact⟩, ⟨.appearance, .exact⟩] false false }

def lampState : DaemonState := { topology := fromDevices [lamp] }

def lampDark : AdoptedFacet := ⟨.device "lamp", .emission .dark, 0⟩

def lampRed : AdoptedFacet := ⟨.device "lamp", .appearance (.static (.rgb ⟨255, 0, 0⟩)), 0⟩

def snapshot (facets : List AdoptedFacet) : PluginStateSnapshot where
  observations := facets.map fun facet => ⟨.device "lamp", facet.value⟩

def readback (facets : List AdoptedFacet) : AdoptionStep :=
  .acceptSnapshot 0 "lamp" 0 (snapshot facets) true

def adoptedLamp (facets : List AdoptedFacet) : DaemonState :=
  adoptionStep platform (adoptionStep platform lampState (readback facets))
    (.commitAdoptedBaseline facets)

theorem adoptedLamp_reachable {guard : DaemonState → AdoptionStep → Prop}
    {facets : List AdoptedFacet} (hr : guard lampState (readback facets))
    (hc : guard (adoptionStep platform lampState (readback facets))
      (.commitAdoptedBaseline facets)) :
    Reachable NothingAdopted (fun s l t => adoptionStep platform s l = t) guard
      (adoptedLamp facets) := .step (.step (.initial ⟨rfl, rfl⟩) hr rfl) hc rfl

theorem appearance_first_replays_dark_last :
    DarknessReplaysLast (adoptedLamp [lampRed, lampDark]) none := by
  refine adopted_darkness_replays_last platform (adoptedLamp_reachable trivial ?_) none
  constructor
  · have he : (adoptionStep platform lampState
        (readback [lampRed, lampDark])).adoptedBaseline = [] := by decide +kernel
    simp [he]
  · intro before f between g after heq hd
    cases before with
    | nil => simp [← (cons.inj heq).1, Darkens, lampRed] at hd
    | cons _ rest =>
      have hl := congrArg length heq
      simp only [length_cons, length_nil, length_append] at hl
      omega

namespace Counterexample

/-- A snapshot that reports darkness before the appearance is adopted in that
order, and the replay turns the lamp off before it lights it. -/
theorem dark_lamp_replays_lit :
    Reachable NothingAdopted (fun s l t => adoptionStep platform s l = t) (fun _ _ => True)
        (adoptedLamp [lampDark, lampRed]) ∧
      (acceptSnapshot platform 0 lampState "lamp" 0 (snapshot [lampDark, lampRed]) true).map
        Prod.snd = .ok [lampDark, lampRed] ∧
      pendingCachedState (adoptedLamp [lampDark, lampRed]) none =
        [(.device "lamp", .setEffect .off), (.device "lamp", .setEffect red)] ∧
      ¬ DarknessReplaysLast (adoptedLamp [lampDark, lampRed]) none := by
  refine ⟨adoptedLamp_reachable trivial trivial, by decide +kernel, by decide +kernel, fun h => ?_⟩
  have hr : adoptedReplay (adoptedLamp [lampDark, lampRed]) none =
      [(lampDark, .device "lamp", .setEffect .off), (lampRed, .device "lamp", .setEffect red)] := by
    decide +kernel
  rw [DarknessReplaysLast, hr] at h
  have hl : IsLighting (.setEffect red) := by simp [IsLighting, red]
  exact (pairwise_cons.1 h).1 _ (mem_singleton_self _) (.inl rfl) hl rfl

end Counterexample

end

end Reconciliation
