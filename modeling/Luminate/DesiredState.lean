import Luminate.OverlayLog
import Luminate.Validation

/-! # Desired target state

`state/target_state.rs`: the facets an operation governs, compaction on
insertion, and restoring persisted entries. The desired list is an overlay log
whose entries are superseded facet-wise by covering ones. -/
namespace DesiredState

open DeviceModel TargetTopology DaemonModel Validation List

abbrev TargetStateFacets := UInt8

def appearanceBit : TargetStateFacets := 1

def brightnessBit : TargetStateFacets := 2

def emissionBit : TargetStateFacets := 4

def physicalPowerBit : TargetStateFacets := 8

def appearanceSlotsBit : TargetStateFacets := 16

def allFacets : TargetStateFacets :=
  appearanceBit ||| brightnessBit ||| emissionBit ||| physicalPowerBit ||| appearanceSlotsBit

def isCoveredBy (facets newer : TargetStateFacets) : Bool := facets &&& ~~~newer == 0

def hasPower : Option CapabilitySet → Bool
  | some capabilities => capabilities.physicalPower.isSome || capabilities.powerDomain.isSome
  | none => false

def powerFacet (capabilities : Option CapabilitySet) : TargetStateFacets :=
  if hasPower capabilities then physicalPowerBit else 0

def facets (state : TargetState) (capabilities : Option CapabilitySet) : TargetStateFacets :=
  match state with
  | .effect .off => emissionBit ||| powerFacet capabilities
  | .effect _ => appearanceBit ||| emissionBit ||| powerFacet capabilities
  | .brightness value =>
    brightnessBit ||| powerFacet capabilities ||| if value = 0 then emissionBit else 0
  | .appearanceSlots _ => appearanceSlotsBit
  | .clear => allFacets

section

variable (topology : Topology) (platform : Platform) (state : DaemonState) (target : TargetId)

def entryFacets (entry : TargetStateEntry) : TargetStateFacets :=
  facets entry.state (capabilitiesForTarget topology entry.target)

/-- The entries `insert_target_state` drops before it appends `new`. -/
def supersedes (new old : TargetStateEntry) : Bool :=
  targetCovers topology new.target old.target &&
    (entryFacets topology new == allFacets ||
      isCoveredBy (entryFacets topology old) (entryFacets topology new))

def insertTargetState (targetState : TargetState) : DaemonState :=
  let newFacets := facets targetState (capabilitiesForTarget state.topology target)
  let retained := state.targetState.filter fun entry =>
    !targetCovers state.topology target entry.target ||
      (newFacets != allFacets &&
        !isCoveredBy (facets entry.state (capabilitiesForTarget state.topology entry.target))
          newFacets)
  { state with targetState := retained ++ [⟨target, targetState⟩] }

def targetRestoreOrder : TargetId → ℕ
  | .element .. => 0
  | .surface .. => 1
  | .group .. => 2
  | .device _ => 3

def restoreEntry (acc : DaemonState × ℕ) (entry : TargetStateEntry) : DaemonState × ℕ :=
  match validateTargetState platform acc.1 entry.target entry.state with
  | .ok _ => (insertTargetState acc.1 entry.target entry.state, acc.2 + 1)
  | .error _ => acc

/-- The restored state, the number of entries restored and the number dropped. -/
def restorePersisted (persisted : List TargetStateEntry) (preserveOrder : Bool) :
    DaemonState × ℕ × ℕ :=
  let ordered := if preserveOrder then persisted
    else persisted.insertionSort fun a b =>
      targetRestoreOrder a.target ≤ targetRestoreOrder b.target
  let result := ordered.foldl (restoreEntry platform) (state, 0)
  (result.1, result.2, persisted.length - result.2)

def isActive (entry : TargetStateEntry) : Bool :=
  containsDevice topology entry.target.deviceId

/-- The restored state and the numbers of restored, withdrawn and dropped entries. -/
def restorePersistedRetainingWithdrawn (persisted : List TargetStateEntry) (preserveOrder : Bool) :
    DaemonState × ℕ × ℕ × ℕ :=
  let active := persisted.filter (isActive state.topology)
  let withdrawn := persisted.filter (!isActive state.topology ·)
  let (restored, count, dropped) := restorePersisted platform state active preserveOrder
  ({ restored with targetState := restored.targetState ++ withdrawn }, count,
    withdrawn.length, dropped)

theorem insertTargetState_targetState (entry : TargetStateEntry) :
    (insertTargetState state entry.target entry.state).targetState =
      OverlayLog.insert (supersedes state.topology) state.targetState entry := by
  simp only [insertTargetState, OverlayLog.insert]
  congr 1
  refine filter_congr fun old _ => ?_
  simp [supersedes, entryFacets, Bool.not_and, Bool.not_or, bne]

@[simp] theorem insertTargetState_topology (ts : TargetState) :
    (insertTargetState state target ts).topology = state.topology := rfl

def insertAll (history : List TargetStateEntry) : DaemonState :=
  history.foldl (fun s entry => insertTargetState s entry.target entry.state) state

theorem insertAll_eq (hist : List TargetStateEntry) : insertAll state hist =
      { state with targetState :=
          hist.foldl (OverlayLog.insert (supersedes state.topology)) state.targetState } := by
  induction hist generalizing state with
  | nil => rfl
  | cons entry rest ih =>
    rw [insertAll, foldl_cons, ← insertAll, ih]
    simp only [insertTargetState_topology, insertTargetState_targetState, foldl_cons]
    rfl

end

theorem insertAll_targetState (h : state.targetState = []) (hist : List TargetStateEntry) :
    (insertAll state hist).targetState = OverlayLog.compact (supersedes state.topology) hist := by
  rw [insertAll_eq, h]
  rfl

theorem foldl_restoreEntry
    (hv : ∀ entry ∈ entries, validateTargetState platform state entry.target entry.state = .ok ())
    (hn : ∀ entry ∈ entries, NamesAllSlots state.topology entry) (count : ℕ) :
    entries.foldl (restoreEntry platform) (state, count) =
      (insertAll state entries, count + entries.length) := by
  induction entries generalizing state count with
  | nil => rfl
  | cons entry rest ih =>
    have hen := hv entry mem_cons_self
    rw [foldl_cons, restoreEntry, hen]
    -- later entries validate the same after this one has been inserted
    have hr : ∀ e ∈ rest, validateTargetState platform
        (insertTargetState state entry.target entry.state) e.target e.state = .ok () := by
      intro e he
      rw [← hv e (mem_cons_of_mem _ he)]
      exact validateTargetState_congr rfl rfl (hn e (mem_cons_of_mem _ he))
    rw [ih hr fun e he => hn e (mem_cons_of_mem _ he)]
    simp [insertAll, Nat.add_assoc, Nat.add_comm 1]

theorem filter_active_append_withdrawn (entries : List TargetStateEntry) :
    (entries.filter (isActive topology) ++ entries.filter (!isActive topology ·)).filter
        (·.target.deviceId == d) = entries.filter (·.target.deviceId == d) := by
  have ha : ∀ entry : TargetStateEntry, entry.target.deviceId = d →
      isActive topology entry = containsDevice topology d := fun entry h => by rw [isActive, h]
  rw [filter_append, filter_filter, filter_filter]
  cases hd : containsDevice topology d with
  | true =>
    have hl : ∀ entry ∈ entries, (entry.target.deviceId == d && isActive topology entry) =
        (entry.target.deviceId == d) := by
      intro entry _
      by_cases h : entry.target.deviceId = d <;> simp [h, ha, hd]
    have hr : ∀ entry ∈ entries,
        ¬ (entry.target.deviceId == d && !isActive topology entry) = true := by
      intro entry _
      by_cases h : entry.target.deviceId = d <;> simp [h, ha, hd]
    rw [filter_congr hl, filter_eq_nil_iff.2 hr, append_nil]
  | false =>
    have hl : ∀ entry ∈ entries,
        ¬ (entry.target.deviceId == d && isActive topology entry) = true := by
      intro entry _
      by_cases h : entry.target.deviceId = d <;> simp [h, ha, hd]
    have hr : ∀ entry ∈ entries, (entry.target.deviceId == d && !isActive topology entry) =
        (entry.target.deviceId == d) := by
      intro entry _
      by_cases h : entry.target.deviceId = d <;> simp [h, ha, hd]
    rw [filter_congr hr, filter_eq_nil_iff.2 hl, nil_append]

/-- Restarting with an unchanged topology reproduces the desired state: nothing
is dropped and every device keeps its entries in order, withdrawn devices
included. -/
theorem restore_round_trip (platform : Platform) (topology : Topology)
    (emulation : Option CctEmulation) (history persisted : List TargetStateEntry)
    (hvalid : ∀ entry ∈ history, validateTargetState platform
      { topology := topology, cctEmulationOverride := emulation } entry.target entry.state = .ok ())
    (hnamed : ∀ entry ∈ history, NamesAllSlots topology entry)
    (hactive : persisted.filter (isActive topology) =
      (insertAll { topology := topology, cctEmulationOverride := emulation } history).targetState) :
    let result := restorePersistedRetainingWithdrawn platform
      { topology := topology, cctEmulationOverride := emulation } persisted true
    result.2.2.2 = 0 ∧ ∀ d : DeviceId, result.1.targetState.filter (·.target.deviceId == d) =
        persisted.filter (·.target.deviceId == d) := by
  set fresh : DaemonState := { topology := topology, cctEmulationOverride := emulation }
  have hc := insertAll_targetState (show fresh.targetState = [] from rfl) history
  rw [← hactive] at hc
  have hm : ∀ entry ∈ persisted.filter (isActive topology), entry ∈ history := by
    intro entry h
    exact OverlayLog.mem_of_mem_compact _ (hc ▸ h)
  have hre : (persisted.filter (isActive topology)).foldl (restoreEntry platform) (fresh, 0) =
      (insertAll fresh (persisted.filter (isActive topology)), _) :=
    foldl_restoreEntry (fun e he => hvalid e (hm e he)) (fun e he => hnamed e (hm e he)) 0
  have hr : (insertAll fresh (persisted.filter (isActive topology))).targetState =
      persisted.filter (isActive topology) := by
    rw [insertAll_targetState rfl, hc]
    exact OverlayLog.compact_of_irredundant (OverlayLog.compact_irredundant history)
  simp only [restorePersistedRetainingWithdrawn, restorePersisted, if_true]
  rw [show fresh.topology = topology from rfl, hre]
  refine ⟨by simp, fun d => ?_⟩
  simp only [hr]
  exact filter_active_append_withdrawn persisted

namespace Sample

def platform : Platform where
  kelvinToRgb _ := ⟨255, 255, 255⟩
  debugText text := "\"" ++ text ++ "\""
  isUuid _ := true
  collectionBytes _ := 0
  sceneBytes _ := 0
  stateBytes _ := 0

def colours (scope : CapabilityScope) : CapabilitySet where
  colour := [.rgb8]
  brightness := .independent 8 255 scope

def keyboard : Device where
  id := "keyboard"
  surfaces := [⟨"keys", [⟨"escape", colours .element⟩], colours .surface⟩]
  capabilities := colours .device

def topology : Topology := fromDevices [keyboard]

def device : TargetId := .device "keyboard"

def surface : TargetId := .surface "keyboard" "keys"

def element : TargetId := .element "keyboard" "keys" "escape"

def red : Effect := .static (.rgb ⟨255, 0, 0⟩)

def blue : Effect := .static (.rgb ⟨0, 0, 255⟩)

end Sample

open Sample in
/-- The lamp's entry stays although the lamp is withdrawn. -/
theorem restore_round_trip_keyboard :
    let lamp : TargetStateEntry := ⟨.device "lamp", .clear⟩
    let persisted := [⟨element, .effect red⟩, lamp, ⟨surface, .brightness 9⟩]
    let result := restorePersistedRetainingWithdrawn platform { topology := topology }
      persisted true
    result.2.2.2 = 0 ∧ ∀ d : DeviceId, result.1.targetState.filter (·.target.deviceId == d) =
        persisted.filter (·.target.deviceId == d) :=
  restore_round_trip platform topology none
    [⟨element, .brightness 7⟩, ⟨element, .effect red⟩, ⟨surface, .brightness 9⟩] _
    (by decide +kernel)
    (by simp [NamesAllSlots])
    (by decide +kernel)

end DesiredState
