import Luminate.AccessPolicy
import Luminate.TargetTopology
import Mathlib.Data.List.AList

/-! # Daemon state

The record behind `DaemonState`, the registry and observation types it stores,
and the errors its operations return. -/
namespace DaemonModel

open DeviceModel TargetTopology

inductive TargetState where
  | effect (effect : Effect)
  | brightness (value : ℕ)
  | appearanceSlots (values : List AppearanceSlotValue)
  | clear
  deriving DecidableEq, Repr

structure TargetStateEntry where
  target : TargetId
  state : TargetState
  deriving DecidableEq, Repr

inductive OwnerIdentity where
  | uid (uid : ℕ)
  | sid (sid : String)
  | principal (id : AccessPolicy.PrincipalId)
  deriving DecidableEq

inductive CollectionMember where
  | target (target : TargetId)
  | collection (id : CollectionId)
  deriving DecidableEq, Repr

structure Collection where
  id : CollectionId
  name : String
  description : Option String
  owner : OwnerIdentity
  kind : Option String
  members : List CollectionMember
  deriving DecidableEq

structure SceneTargetState where
  appearance : Option Effect := none
  brightness : Option ℕ := none
  emission : Option EmissionState := none
  appearanceSlots : Option (List AppearanceSlotValue) := none
  deriving DecidableEq, Repr

inductive SceneBinding where
  | frozen (target : TargetId) (state : SceneTargetState)
  | dynamicCollectionMember (collection : CollectionId) (target : TargetId)
      (state : SceneTargetState)
  deriving DecidableEq, Repr

def SceneBinding.target : SceneBinding → TargetId
  | .frozen t _ => t
  | .dynamicCollectionMember _ t _ => t

def SceneBinding.state : SceneBinding → SceneTargetState
  | .frozen _ s => s
  | .dynamicCollectionMember _ _ s => s

def SceneBinding.dynamicCollection : SceneBinding → Option CollectionId
  | .frozen .. => none
  | .dynamicCollectionMember c _ _ => some c

structure Scene where
  id : SceneId
  revision : ℕ
  name : String
  description : Option String
  owner : OwnerIdentity
  bindings : List SceneBinding
  deriving DecidableEq

abbrev Collections := Std.ExtTreeMap CollectionId Collection compare
abbrev Scenes := Std.ExtTreeMap SceneId Scene compare

inductive ObservationConfidence where
  | assumed | bestEffort | confirmed
  deriving DecidableEq, Repr

inductive ObservationSource where
  | successfulApply | readback | derived | adoptedBaseline
  deriving DecidableEq, Repr

structure FacetObservation where
  target : TargetId
  value : FacetValue
  confidence : ObservationConfidence
  source : ObservationSource
  observedAtMs : ℕ
  stale : Bool
  deriving DecidableEq, Repr

/-- `HashMap<(TargetId, StateFacetKind), FacetObservation>`. -/
abbrev Observations := TargetId → StateFacetKind → Option FacetObservation

def Observations.insert (observations : Observations) (target : TargetId) (kind : StateFacetKind)
    (observation : FacetObservation) : Observations :=
  fun t k => if t = target ∧ k = kind then some observation else observations t k

inductive Reachability where
  | unknown | reachable | unavailable
  deriving DecidableEq, Repr

inductive ReconciliationStatus where
  | idle | reconciling | complete | drifted | failed
  deriving DecidableEq, Repr

inductive AdoptionStatus where
  | notApplicable | pending | durable | ineligibleFidelity | persistenceFailed
  deriving DecidableEq, Repr

/-- The stored part of `DeviceStateStatus`; its observation list is filled in
from `observations` when a status is reported. -/
structure DeviceStateStatus where
  reachability : Reachability := .unknown
  reconciliation : ReconciliationStatus := .idle
  adoption : List (TargetId × StateFacetKind × AdoptionStatus) := []
  latestError : Option String := none
  latestAttemptMs : Option ℕ := none
  deriving DecidableEq, Repr

structure FrameStream where
  generation : ℕ
  topologyGeneration : ℕ
  nextSequence : ℕ
  lastForwardedAt : Option ℕ
  deriving DecidableEq, Repr

structure DaemonState where
  topology : Topology
  topologyGeneration : ℕ := 0
  targetState : List TargetStateEntry := []
  collections : Collections := ∅
  scenes : Scenes := ∅
  adoptedBaseline : List AdoptedFacet := []
  pendingAdoption : List AdoptedFacet := []
  observations : Observations := fun _ _ => none
  deviceStatus : DeviceId → Option DeviceStateStatus := fun _ => none
  generations : DeviceId → Option ℕ := fun _ => none
  frameStreams : AList (fun _ : TargetId => FrameStream) := ∅
  cctEmulationOverride : Option CctEmulation := none

def fromDevices (devices : List Device) : DaemonState where
  topology := TargetTopology.fromDevices devices

structure PersistedState where
  targets : List TargetStateEntry
  collections : Collections
  scenes : Scenes
  adoptedBaseline : List AdoptedFacet

/-- What the model takes from outside the daemon's logic: the floating-point
`kelvin_to_rgb`, the `{:?}` rendering of text, UUID syntax and the lengths of
serialized documents. -/
structure Platform where
  kelvinToRgb : ℕ → Rgb
  debugText : String → String
  isUuid : String → Bool
  collectionBytes : Collection → ℕ
  sceneBytes : Scene → ℕ
  stateBytes : PersistedState → ℕ

inductive SceneValidationError where
  | invalidId
  | zeroRevision
  | noBindings
  | emptyTargetState
  | offAppearance
  | emittingWithoutAppearance
  | emittingAtZeroBrightness
  | emptyAppearanceSlots
  | duplicateAppearanceSlot (slot : AppearanceSlotId)
  | duplicateTarget (target : TargetId)
  deriving DecidableEq, Repr

inductive DaemonError where
  | targetNotFound (target : TargetId)
  | unsupportedCapability (target : TargetId) (reason : String)
  | invalidArgument (target : TargetId) (reason : String)
  | unknownState (target : TargetId)
  | conflict (target : TargetId) (reason : String)
  | authorizationConflict (reason : String)
  | internal (reason : String)
  | resourceLimit (reason : String)
  | partialMutation (diagnostic : String) (appliedTargets : List TargetId)
  | collectionNotFound (id : CollectionId)
  | collectionCycle (id : CollectionId)
  | invalidScene (error : SceneValidationError)
  | plugin (diagnostic : String)
  deriving DecidableEq, Repr

inductive PluginUpdateOperation where
  | setEffect (effect : Effect)
  | setAppearanceSlots (values : List AppearanceSlotValue)
  | setBrightness (value : ℕ)
  | clear
  | saveCurrent
  deriving DecidableEq, Repr

/-- The plugin hosts, seen through the result of each operation. -/
abbrev PluginManager := TargetId → PluginUpdateOperation → Except DaemonError Unit

end DaemonModel
