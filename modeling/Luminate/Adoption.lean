import Luminate.Observation

/-! # Readback and adoption

Accepting a plugin's state snapshot, and promoting confirmed facets to the
adopted baseline: staged first, committed once the state file has been written. -/
namespace Adoption

open Checks DeviceModel TargetTopology DaemonModel Validation PersistedSnapshot

/-- Keeps the values of `current` for slots that `values` does not name. -/
def mergeSlotValues (values current : List AppearanceSlotValue) : List AppearanceSlotValue :=
  current.foldl (fun merged value =>
    if merged.any (·.slot == value.slot) then merged else merged ++ [value]) values

def SameFacet (f g : AdoptedFacet) : Prop := f.target = g.target ∧ f.value.kind = g.value.kind

instance (f g : AdoptedFacet) : Decidable (SameFacet f g) := inferInstanceAs (Decidable (_ ∧ _))

theorem SameFacet.symm (h : SameFacet f g) : SameFacet g f := ⟨h.1.symm, h.2.symm⟩

theorem SameFacet.trans (hfg : SameFacet f g) (hgk : SameFacet g k) : SameFacet f k :=
  ⟨hfg.1.trans hgk.1, hfg.2.trans hgk.2⟩

def inheritSlots (facets : List AdoptedFacet) (replacement : AdoptedFacet) : AdoptedFacet :=
  match replacement.value, facets.find? (SameFacet · replacement) with
  | .appearanceSlots slots, some ⟨_, .appearanceSlots current, _⟩ =>
    let merged := mergeSlotValues slots.values current.values
    { replacement with value := .appearanceSlots ⟨merged, slots.complete || current.complete⟩ }
  | _, _ => replacement

def replaceAdoptedFacet (facets : List AdoptedFacet) (replacement : AdoptedFacet) :
    List AdoptedFacet :=
  facets.filter (fun current => ¬ SameFacet current replacement) ++
    [inheritSlots facets replacement]

section

variable (now : ℕ) (platform : Platform) (state : DaemonState) (device : DeviceId)

def mergedAdoptedBaseline (delta : List AdoptedFacet) :
    List AdoptedFacet := delta.foldl replaceAdoptedFacet state.adoptedBaseline

def adoptedBaselineForPersistence : List AdoptedFacet :=
  mergedAdoptedBaseline state state.pendingAdoption

def ensurePersistable : Except DaemonError Unit :=
  (validateSnapshot platform
    { targets := state.targetState, collections := state.collections, scenes := state.scenes,
      adoptedBaseline := adoptedBaselineForPersistence state }).mapError .resourceLimit

def setAdoptionStatus (status : DeviceStateStatus) (target : TargetId) (facet : StateFacetKind)
    (adoption : AdoptionStatus) : DeviceStateStatus :=
  let isKey (entry : TargetId × StateFacetKind × AdoptionStatus) : Bool :=
    entry.1 = target ∧ entry.2.1 = facet
  { status with
    adoption :=
      match status.adoption.findIdx? isKey with
      | some i => status.adoption.modify i fun entry => (entry.1, entry.2.1, adoption)
      | none => status.adoption ++ [(target, facet, adoption)] }

def updateStatus (update : DeviceStateStatus → DeviceStateStatus) : DaemonState :=
  { state with
    deviceStatus := fun d =>
      if d = device then some (update ((state.deviceStatus d).getD {})) else state.deviceStatus d }

def noteAdoption (adoption : AdoptionStatus) (state : DaemonState) (facet : AdoptedFacet) :
    DaemonState :=
  updateStatus state facet.target.deviceId fun status =>
    setAdoptionStatus status facet.target facet.value.kind adoption

def completeReconciliation : DaemonState :=
  updateStatus state device fun status =>
    { status with
      reachability := .reachable, reconciliation := .complete, latestAttemptMs := some now }

def partialReconciliationFailure (diagnostic : String) : DaemonState :=
  updateStatus state device fun status =>
    { status with
      reachability := .reachable, reconciliation := .failed, latestAttemptMs := some now,
      latestError := some diagnostic }

def markStale (observations : Observations) : Observations :=
  fun t k => (observations t k).map fun o =>
    if t.deviceId = device then { o with stale := true } else o

def failReconciliation (diagnostic : String) : DaemonState :=
  updateStatus { state with observations := markStale device state.observations } device
    fun status =>
      { status with
        reachability := .unavailable, reconciliation := .failed, latestAttemptMs := some now,
        latestError := some diagnostic }

def commitAdoptedBaseline (delta : List AdoptedFacet) : DaemonState :=
  delta.foldl (noteAdoption .durable)
    { state with adoptedBaseline := mergedAdoptedBaseline state delta }

/-- A delta that cannot be persisted leaves the state as it was. -/
def stageAdoption (delta : List AdoptedFacet) : Except DaemonError DaemonState := do
  let staged :=
    { state with pendingAdoption := delta.foldl replaceAdoptedFacet state.pendingAdoption }
  ensurePersistable platform staged
  return staged

end

section

variable (platform : Platform) (now : ℕ) (state : DaemonState) (d : DeviceId)

def finishPendingAdoption (persisted : Bool) : DaemonState :=
  let pending := state.pendingAdoption
  let taken := { state with pendingAdoption := [] }
  if persisted then commitAdoptedBaseline taken pending
  else pending.foldl (noteAdoption .persistenceFailed) taken

def restoredObservation (facet : AdoptedFacet) : FacetObservation where
  target := facet.target
  value := facet.value
  confidence := .confirmed
  source := .adoptedBaseline
  observedAtMs := facet.confirmedAtMs
  stale := true

def restoreAdoptedBaseline (adopted : List AdoptedFacet) : DaemonState :=
  let retained := adopted.filter fun facet =>
    !containsDevice state.topology facet.target.deviceId ||
      (capabilitiesForTarget state.topology facet.target).isSome
  { state with
    adoptedBaseline := retained
    observations :=
      (retained.map restoredObservation).foldl Observation.storeObservation state.observations }

inductive PluginTarget where
  | device (device : DeviceId)
  | surface (device : DeviceId) (surface : SurfaceId)
  | element (device : DeviceId) (surface : SurfaceId) (element : ElementId)
  | group (device : DeviceId) (group : GroupId)
  deriving DecidableEq

structure PluginFacetObservation where
  target : PluginTarget
  value : FacetValue
  deriving DecidableEq

structure PluginReadError where
  target : PluginTarget
  diagnostic : String
  deriving DecidableEq

structure PluginStateSnapshot where
  observations : List PluginFacetObservation
  errors : List PluginReadError := []
  deriving DecidableEq

def canonicalTargetFromPlugin : PluginTarget → Except DaemonError TargetId
  | .device d => .ok (.device d)
  | .surface d s => .ok (.surface d s)
  | .element d s e => .ok (.element d s e)
  | .group .. => .error (.internal "plugin snapshot used a non-canonical group target")

def readableFidelity (capabilities : CapabilitySet) (facet : StateFacetKind) :
    Option ReadbackFidelity :=
  match capabilities.stateReadback with
  | .readable facets _ _ => (facets.find? (·.facet == facet)).map (·.fidelity)
  | .none => none

def validateReadError (device : DeviceId) (error : PluginReadError) : Except DaemonError Unit := do
  let target ← canonicalTargetFromPlugin error.target
  ensure (target.deviceId = device && (capabilitiesForTarget state.topology target).isSome)
    (.internal "plugin snapshot error referenced a foreign target")

def validateObservedValue (target : TargetId) (capabilities : CapabilitySet) :
    FacetValue → Except DaemonError Unit
  | .appearance (.static colour) => validateColour platform state target colour
  | .appearance (.effect effect) => validateEffect platform state target effect
  | .appearance .mixed => .error (.internal
      ("plugin reported daemon-synthesized mixed appearance for " ++ targetDebug platform target))
  | .brightness value => validateBrightness state target value
  | .appearanceSlots slots => do
    let complete ← validateObservedAppearanceSlotValues platform state target slots.values
    ensure (slots.complete = complete) (.internal
      ("plugin reported inconsistent appearance-slot completeness for " ++
        targetDebug platform target))
  | .emission _ => ensure capabilities.emission (.internal
      ("plugin reported emission for unsupported target " ++ targetDebug platform target))
  | .physicalPower _ => ensure capabilities.physicalPower.isSome (.internal
      ("plugin reported physical power for unsupported target " ++ targetDebug platform target))
  | .effectiveAppearance _ => .ok ()

/-- The observation loop of `validate_snapshot`. -/
def validateObservations (platform : Platform) (state : DaemonState) (device : DeviceId)
    (seen : List (TargetId × StateFacetKind)) : List PluginFacetObservation →
    Except DaemonError (List (TargetId × FacetValue × ReadbackFidelity))
  | [] => .ok []
  | observation :: rest => do
    let target ← canonicalTargetFromPlugin observation.target
    ensure (target.deviceId = device)
      (.internal "plugin snapshot contained a foreign device target")
    let capabilities ← capabilitiesForTargetOrError state target
    let facet := observation.value.kind
    ensure ((target, facet) ∉ seen) (.internal "plugin snapshot contained a duplicate facet")
    match readableFidelity capabilities facet with
    | none => .error (.internal ("plugin reported unadvertised " ++ facetKindDebug facet ++
        " readback for " ++ targetDebug platform target))
    | some fidelity =>
      validateObservedValue platform state target capabilities observation.value
      let validated ← validateObservations platform state device ((target, facet) :: seen) rest
      return (target, observation.value, fidelity) :: validated

/-- `DaemonState::validate_snapshot`. -/
def validatePluginSnapshot (device : DeviceId) (snapshot : PluginStateSnapshot) :
    Except DaemonError (List (TargetId × FacetValue × ReadbackFidelity)) := do
  checkAll (validateReadError state device) snapshot.errors
  validateObservations platform state device [] snapshot.observations

def readbackConfidence : ReadbackFidelity → ObservationConfidence
  | .exact => .confirmed
  | .bestEffort => .bestEffort

def mergeObservedSlots (target : TargetId) : FacetValue → FacetValue
  | .appearanceSlots slots =>
    let previous := match state.observations target .appearanceSlots with
      | some ⟨_, .appearanceSlots previous, _, _, _, _⟩ => previous.values
      | _ => []
    let values := mergeSlotValues slots.values previous
    let slotCount := (capabilitiesForTarget state.topology target).bind fun capabilities =>
      capabilities.appearanceSlots.map (·.slots.length)
    .appearanceSlots ⟨values, slotCount = some values.length⟩
  | value => value

/-- One validated facet of the publishing loop, with the facets adopted so far. -/
def acceptFacet (device : DeviceId) (adopt : Bool) (acc : DaemonState × List AdoptedFacet)
    (item : TargetId × FacetValue × ReadbackFidelity) : DaemonState × List AdoptedFacet :=
  let (state, adopted) := acc
  let (target, reported, fidelity) := item
  let value := mergeObservedSlots state target reported
  let observation : FacetObservation :=
    { target := target, value := value, confidence := readbackConfidence fidelity,
      source := .readback, observedAtMs := now, stale := false }
  let published :=
    { state with observations := Observation.storeObservation state.observations observation }
  let mark adoption := updateStatus published device fun status =>
    setAdoptionStatus status target value.kind adoption
  if !adopt then (published, adopted)
  else
    match fidelity with
    | .exact => (mark .pending, adopted ++ [⟨target, value, now⟩])
    | .bestEffort => (mark .ineligibleFidelity, adopted)

def settleReconciliation (device : DeviceId) (snapshot : PluginStateSnapshot)
    (state : DaemonState) : DaemonState :=
  if snapshot.errors.isEmpty then completeReconciliation now state device
  else
    let diagnostic := String.intercalate "; " (snapshot.errors.map (·.diagnostic))
    if !snapshot.observations.isEmpty then
      partialReconciliationFailure now state device diagnostic
    else failReconciliation now state device diagnostic

def generation (device : DeviceId) : ℕ := (state.generations device).getD 0

def acceptSnapshot (device : DeviceId) (expectedGeneration : ℕ) (snapshot : PluginStateSnapshot)
    (adopt : Bool) : Except DaemonError (DaemonState × List AdoptedFacet) := do
  ensure (generation state device = expectedGeneration)
    (.internal "discarded stale state snapshot after a newer mutation")
  let validated ← validatePluginSnapshot platform state device snapshot
  let (published, adopted) := validated.foldl (acceptFacet now device adopt) (state, [])
  return (settleReconciliation now device snapshot published, adopted)

/-- `after` differs from `state` at most in what is known of the devices. -/
def Observes (after : DaemonState) : Prop :=
  after = { state with observations := after.observations, deviceStatus := after.deviceStatus }

theorem Observes.trans (hst : Observes s t) (htu : Observes t u) : Observes s u := by
  unfold Observes at *
  rw [htu, hst]

theorem Observes.topology (h : Observes s t) : t.topology = s.topology := by
  rw [h]

theorem Observes.adoptedBaseline (h : Observes s t) : t.adoptedBaseline = s.adoptedBaseline := by
  rw [h]

theorem Observes.pendingAdoption (h : Observes s t) : t.pendingAdoption = s.pendingAdoption := by
  rw [h]

theorem foldl_noteAdoption_observes (adoption : AdoptionStatus) (st : DaemonState)
    (delta : List AdoptedFacet) : Observes st (delta.foldl (noteAdoption adoption) st) := by
  induction delta generalizing st with
  | nil => rfl
  | cons f rest ih => exact ih _

theorem commitAdoptedBaseline_adoptedBaseline (st : DaemonState) (delta : List AdoptedFacet) :
    (commitAdoptedBaseline st delta).adoptedBaseline = mergedAdoptedBaseline st delta :=
  (foldl_noteAdoption_observes ..).adoptedBaseline

theorem acceptFacet_observes (adopt : Bool) (acc : DaemonState × List AdoptedFacet)
    (it : TargetId × FacetValue × ReadbackFidelity) :
    Observes acc.1 (acceptFacet now d adopt acc it).1 := by
  obtain ⟨target, v, fidelity⟩ := it
  cases adopt <;> cases fidelity <;> rfl

theorem foldl_acceptFacet_observes (adopt : Bool) (acc : DaemonState × List AdoptedFacet)
    (is : List (TargetId × FacetValue × ReadbackFidelity)) :
    Observes acc.1 (is.foldl (acceptFacet now d adopt) acc).1 := by
  induction is generalizing acc with
  | nil => rfl
  | cons it rest ih => exact (acceptFacet_observes now d adopt acc it).trans (ih _)

theorem settleReconciliation_observes : Observes st (settleReconciliation now d snapshot st) := by
  rw [settleReconciliation]
  split
  · rfl
  · split <;> rfl

end

theorem acceptSnapshot_observes (h : acceptSnapshot p now st d gen snapshot adopt =
      .ok (after, adopted)) : Observes st after := by
  rw [acceptSnapshot, then_ok_iff] at h
  obtain ⟨validated, -, h⟩ := bind_ok_iff.1 h.2
  cases h
  exact (foldl_acceptFacet_observes now d adopt (st, []) validated).trans
    (settleReconciliation_observes ..)

theorem finishPendingAdoption_pendingAdoption (st : DaemonState) (persisted : Bool) :
    (finishPendingAdoption st persisted).pendingAdoption = [] := by
  cases persisted <;> exact (foldl_noteAdoption_observes ..).pendingAdoption

theorem finishPendingAdoption_adoptedBaseline (st : DaemonState) (persisted : Bool) :
    (finishPendingAdoption st persisted).adoptedBaseline =
      if persisted then adoptedBaselineForPersistence st else st.adoptedBaseline := by
  cases persisted <;> exact (foldl_noteAdoption_observes ..).adoptedBaseline

theorem stageAdoption_adoptedBaseline (h : stageAdoption p st delta = .ok after) :
    after.adoptedBaseline = st.adoptedBaseline := by
  rw [stageAdoption, then_ok_iff] at h
  obtain rfl := Except.ok.inj h.2
  rfl

theorem stageAdoption_pendingAdoption (h : stageAdoption p st delta = .ok after) :
    after.pendingAdoption = delta.foldl replaceAdoptedFacet st.pendingAdoption := by
  rw [stageAdoption, then_ok_iff] at h
  obtain rfl := Except.ok.inj h.2
  rfl

end Adoption
