import Luminate.PersistedSnapshot

/-! # Observations after a successful write

`state/observation.rs`: the facets a write is assumed to have changed, on the
written target and on every canonical target below it. -/
namespace Observation

open DeviceModel TargetTopology DaemonModel List

section

variable (topology : Topology) (now : ℕ) (observations : Observations) (device : Device)

def surfaceTargets (surface : Surface) : List TargetId :=
  .surface device.id surface.id ::
    surface.elements.map fun element => .element device.id surface.id element.id

def atomTargets : TargetAtom → List TargetId
  | .surface s =>
    match findSurface device s with
    | some surface => surfaceTargets device surface
    | none => []
  | .element s e => [.element device.id s e]

def deduplicate (targets : List TargetId) : List TargetId :=
  targets.foldl (fun kept target => if target ∈ kept then kept else kept ++ [target]) []

/-- The canonical scopes whose observed state a write to `target` changes. -/
def observationTargetsAfterWrite (target : TargetId) : List TargetId :=
  match findDevice topology target.deviceId with
  | none => []
  | some device =>
    deduplicate <|
      match target with
      | .device _ => target :: device.surfaces.flatMap (surfaceTargets device)
      | .surface _ s =>
        match findSurface device s with
        | some surface => surfaceTargets device surface
        | none => []
      | .element .. => [target]
      | .group .. => ((targetAtoms topology target).getD []).flatMap (atomTargets device)

def effectEmission : Effect → EmissionState
  | .off => .dark
  | .static colour => if colour.isDark then .dark else .emitting
  | _ => .emitting

def effectAppearance : Effect → AppearanceState
  | .static colour => .static colour
  | effect => .effect effect

def projectedObservations (state : TargetState) (ownsPowerDomain : Bool) : List FacetValue :=
  match state with
  | .effect .off =>
    .emission .dark :: if ownsPowerDomain then [.physicalPower .off] else []
  | .effect effect => [.appearance (effectAppearance effect), .emission (effectEmission effect)]
  | .brightness value =>
    if value = 0 then [.brightness value, .emission .dark] else [.brightness value]
  | .appearanceSlots values => [.appearanceSlots ⟨values, false⟩]
  | .clear => []

def powerDomainTarget (target : TargetId) : PowerDomainRef → TargetId
  | .device => .device target.deviceId
  | .surface s => .surface target.deviceId s

/-- Slot values are complete when there is one for every advertised slot. -/
def markComplete (slotCount : Option ℕ) : FacetValue → FacetValue
  | .appearanceSlots slots =>
    .appearanceSlots { slots with complete := slotCount = some slots.values.length }
  | value => value

/-- The observations stored for a write other than `Clear`, in order. A power
domain is assumed on unless the write turned that very target off. -/
def appliedObservations (target : TargetId) (state : TargetState) : List FacetObservation :=
  let capabilities := capabilitiesForTarget topology target
  let ownsPowerDomain := (capabilities.bind (·.physicalPower)).isSome
  let slotCount := (capabilities.bind (·.appearanceSlots)).map (·.slots.length)
  let assumed := (projectedObservations state ownsPowerDomain).map fun value =>
    { target := target, value := markComplete slotCount value, confidence := .assumed,
      source := .successfulApply, observedAtMs := now, stale := false }
  let powered := (capabilities.bind (·.powerDomain)).toList.flatMap fun domain =>
    let domainTarget := powerDomainTarget target domain
    if domainTarget = target ∧ state = .effect .off then []
    else [{ target := domainTarget, value := .physicalPower .on, confidence := .assumed,
            source := .derived, observedAtMs := now, stale := false }]
  assumed ++ powered

def storeObservation (observation : FacetObservation) :
    Observations := observations.insert observation.target observation.value.kind observation

def forgetCovered (target : TargetId) (observations : Observations) :
    Observations := fun t k => if targetCovers topology target t then none else observations t k

def noteSuccessfulApplyAtCanonicalTarget (state : TargetState) (observations : Observations)
    (target : TargetId) : Observations :=
  match state with
  | .clear => forgetCovered topology target observations
  | _ => (appliedObservations topology now target state).foldl storeObservation observations

/-- The canonical targets `note_successful_apply` visits. -/
def notedTargets : TargetId → List TargetId
  | .element d s e => [.element d s e]
  | target => observationTargetsAfterWrite topology target

def noteSuccessfulApply (state : DaemonState) (target : TargetId) (targetState : TargetState) :
    DaemonState :=
  { state with
    observations := (notedTargets state.topology target).foldl
      (noteSuccessfulApplyAtCanonicalTarget state.topology now targetState) state.observations }

def lastStored (writes : List FacetObservation) (target : TargetId) (kind : StateFacetKind) :
    Option FacetObservation := writes.reverse.find? fun o => o.target = target ∧ o.value.kind = kind

theorem foldl_storeObservation (writes : List FacetObservation) (obs : Observations)
    (target : TargetId) (kind : StateFacetKind) : writes.foldl storeObservation obs target kind =
      (lastStored writes target kind).or (obs target kind) := by
  induction writes using List.reverseRecOn with
  | nil => rfl
  | append_singleton writes o ih =>
    rw [foldl_append, foldl_cons, foldl_nil, storeObservation, Observations.insert,
      lastStored, reverse_append, reverse_singleton, singleton_append]
    by_cases h : o.target = target ∧ o.value.kind = kind
    · simp [h]
    · have h' : ¬ (target = o.target ∧ kind = o.value.kind) := fun he => h ⟨he.1.symm, he.2.symm⟩
      rw [if_neg h', ih]
      simp [h, lastStored]

theorem foldl_forgetCovered (ts : List TargetId) (obs : Observations) (t : TargetId)
    (kind : StateFacetKind) :
    ts.foldl (fun o target => forgetCovered topology target o) obs t kind =
      if ts.any (targetCovers topology · t) then none else obs t kind := by
  induction ts generalizing obs with
  | nil => rfl
  | cons target rest ih =>
    rw [foldl_cons, ih, any_cons, forgetCovered]
    cases targetCovers topology target t <;> simp

/-- The observations a write to `targets` leaves are stored already; for `Clear`,
nothing is stored below them. -/
def AlreadyObserved (state : TargetState) (targets : List TargetId) : Prop :=
  match state with
  | .clear => ∀ target ∈ targets, ∀ t, targetCovers topology target t = true →
      ∀ kind, observations t kind = none
  | _ => ∀ t kind o,
      lastStored (targets.flatMap (appliedObservations topology now · state)) t kind = some o →
        observations t kind = some o

theorem stored_eq_self_iff : writes.foldl storeObservation obs = obs ↔
      ∀ t kind o, lastStored writes t kind = some o → obs t kind = some o := by
  constructor
  · intro h t kind o ho
    have hv := foldl_storeObservation writes obs t kind
    rw [h, ho] at hv
    exact hv
  · intro h
    funext t kind
    rw [foldl_storeObservation]
    cases hl : lastStored writes t kind with
    | none => rfl
    | some o => exact (h t kind o hl).symm

theorem forgotten_eq_self_iff (ts : List TargetId) (obs : Observations) :
    ts.foldl (fun o target => forgetCovered topology target o) obs = obs ↔
      ∀ target ∈ ts, ∀ t, targetCovers topology target t = true → ∀ kind, obs t kind = none := by
  constructor
  · intro h target ht t hc kind
    have ha : ts.any (targetCovers topology · t) = true := any_eq_true.2 ⟨target, ht, hc⟩
    have hv := foldl_forgetCovered topology ts obs t kind
    rwa [h, if_pos ha] at hv
  · intro h
    funext t kind
    rw [foldl_forgetCovered]
    split
    next ha =>
      obtain ⟨target, ht, hc⟩ := any_eq_true.1 ha
      exact (h target ht t hc kind).symm
    next => rfl

theorem noted_eq_self_iff : ts.foldl (noteSuccessfulApplyAtCanonicalTarget topology now state) obs =
      obs ↔ AlreadyObserved topology now obs state ts := by
  cases state with
  | clear => exact forgotten_eq_self_iff topology ts obs
  | _ =>
    simp only [AlreadyObserved, ← stored_eq_self_iff, foldl_flatMap]
    rfl

end

end Observation
