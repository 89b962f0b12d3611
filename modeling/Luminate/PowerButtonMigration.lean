import Luminate.GuardedRegister
import Luminate.RegistryIntegrity

/-! # Migrating the Alienware power button

`migrate_alienware_power_button` of `persistence.rs` moves the legacy AC and
battery surfaces into slots of one power-button surface while a state file is
loaded; startup then restores the loaded state. -/
namespace PowerButtonMigration

open Checks DeviceModel TargetTopology DaemonModel Validation DesiredState PersistedSnapshot List
  Option
open RegistryIntegrity Adoption

def alienwareDevice : DeviceId := "alienware-aw-elc"

def legacyPowerButtonAc : SurfaceId := "power-button-ac"

def legacyPowerButtonBattery : SurfaceId := "power-button-battery"

def powerButtonSurface : SurfaceId := "power-button"

def powerButton : TargetId := .surface alienwareDevice powerButtonSurface

def legacyPowerButtonSlot : TargetId → Option AppearanceSlotId
  | .surface device surface =>
    if device ≠ alienwareDevice then none
    else if surface = legacyPowerButtonAc then some "ac"
    else if surface = legacyPowerButtonBattery then some "battery"
    else none
  | _ => none

/-- The slot loop over target entries; `seen` holds the slots migrated so far. -/
def migrateTargets (platform : Platform) (seen : List AppearanceSlotId) :
    List TargetStateEntry → Except String (List TargetStateEntry × Bool)
  | [] => .ok ([], false)
  | entry :: rest =>
    match legacyPowerButtonSlot entry.target with
    | none => do
      let (others, migrated) ← migrateTargets platform seen rest
      return (entry :: others, migrated)
    | some slot => do
      ensure (slot ∉ seen)
        ("persisted state has duplicate legacy Alienware " ++ slot ++ " target entries")
      match entry.state with
      | .effect effect =>
        let (others, _) ← migrateTargets platform (slot :: seen) rest
        return (⟨powerButton, .appearanceSlots [⟨slot, effect⟩]⟩ :: others, true)
      | _ => .error ("legacy Alienware target " ++ targetDebug platform entry.target ++
          " has state that cannot be represented as an appearance slot")

def adoptedEffect : AppearanceState → Option Effect
  | .static colour => some (.static colour)
  | .effect effect => some effect
  | .mixed => none

def migrateFacets (platform : Platform) (seen : List AppearanceSlotId) :
    List AdoptedFacet → Except String (List AdoptedFacet × Bool)
  | [] => .ok ([], false)
  | facet :: rest =>
    match legacyPowerButtonSlot facet.target with
    | none => do
      let (others, migrated) ← migrateFacets platform seen rest
      return (facet :: others, migrated)
    | some slot => do
      ensure (slot ∉ seen)
        ("adopted baseline has duplicate legacy Alienware " ++ slot ++ " facets")
      match facet.value with
      | .appearance appearance =>
        match adoptedEffect appearance with
        | some effect =>
          let (others, _) ← migrateFacets platform (slot :: seen) rest
          return ({ facet with
            target := powerButton
            value := .appearanceSlots ⟨[⟨slot, effect⟩], false⟩ } :: others, true)
        | none => .error ("legacy Alienware adopted facet " ++ targetDebug platform facet.target ++
            " has a mixed appearance")
      | _ => .error ("legacy Alienware adopted facet " ++ targetDebug platform facet.target ++
          " cannot be represented as an appearance slot")

def sameSceneBindingIdentity : SceneBinding → SceneBinding → Bool
  | .frozen left _, .frozen right _ => left == right
  | .dynamicCollectionMember leftCollection leftTarget _,
      .dynamicCollectionMember rightCollection rightTarget _ =>
    leftCollection == rightCollection && leftTarget == rightTarget
  | _, _ => false

section

variable (platform : Platform) (target : TargetId)

def rebind (state : SceneTargetState) : SceneBinding → SceneBinding
  | .frozen .. => .frozen target state
  | .dynamicCollectionMember collection .. => .dynamicCollectionMember collection target state

/-- The migrated binding and the one slot value it carries. -/
def migrateBinding (scene : SceneId) (slot : AppearanceSlotId) (binding : SceneBinding) :
    Except String (SceneBinding × AppearanceSlotValue) :=
  match binding.state.appearance with
  | none => .error ("scene " ++ scene ++ " legacy Alienware binding has no appearance to migrate")
  | some effect => do
    ensure (binding.state.brightness.isNone && binding.state.emission.isNone &&
        binding.state.appearanceSlots.isNone)
      ("scene " ++ scene ++ " legacy Alienware binding contains incompatible additional state")
    return (rebind powerButton
      { binding.state with appearance := none, appearanceSlots := some [⟨slot, effect⟩] } binding,
      ⟨slot, effect⟩)

/-- Adds a migrated value to the first binding of the same identity. -/
def mergeBinding (scene : SceneId) (binding : SceneBinding) (value : AppearanceSlotValue) :
    List SceneBinding → Except String (List SceneBinding)
  | [] => .ok [binding]
  | existing :: rest =>
    if sameSceneBindingIdentity existing binding then
      match existing.state.appearanceSlots with
      | none => .error ("scene " ++ scene ++ " has a contradictory power-button binding")
      | some values => do
        ensure (!values.any (·.slot == value.slot)) ("scene " ++ scene ++
          " has duplicate legacy Alienware " ++ value.slot ++ " bindings")
        return rebind existing.target
          { existing.state with appearanceSlots := some (values ++ [value]) } existing :: rest
    else do
      let merged ← mergeBinding scene binding value rest
      return existing :: merged

def migrateSceneBinding (scene : SceneId) (acc : List SceneBinding × Bool)
    (binding : SceneBinding) : Except String (List SceneBinding × Bool) :=
  match legacyPowerButtonSlot binding.target with
  | none => .ok (acc.1 ++ [binding], acc.2)
  | some slot => do
    let (migrated, value) ← migrateBinding scene slot binding
    let bindings ← mergeBinding scene migrated value acc.1
    return (bindings, true)

def migrateAlienwareScene (scene : Scene) : Except String (Scene × Bool) := do
  let (bindings, migrated) ← scene.bindings.foldlM (migrateSceneBinding scene.id) ([], false)
  return ({ scene with bindings := bindings }, migrated)

def migrateScenes (scenes : Scenes) : Except String (Scenes × Bool) :=
  scenes.toList.foldlM (fun acc entry => do
    let (scene, migrated) ← migrateAlienwareScene entry.2
    return (acc.1.insert entry.1 scene, acc.2 || migrated)) (scenes, false)

def migrateAlienwarePowerButton (state : PersistedState) :
    Except String (PersistedState × Bool) := do
  let (targets, desired) ← migrateTargets platform [] state.targets
  let (adoptedBaseline, adopted) ← migrateFacets platform [] state.adoptedBaseline
  let (scenes, captured) ← migrateScenes state.scenes
  return ({ state with targets, adoptedBaseline, scenes }, desired || adopted || captured)

structure StateFile where
  version : ℕ
  state : PersistedState

def orderedSinceVersion : ℕ := 2

structure LoadedState extends PersistedState where
  preserveOrder : Bool

def emptyState : LoadedState where
  targets := []
  collections := ∅
  scenes := ∅
  adoptedBaseline := []
  preserveOrder := false

inductive LoadRefusal where
  | migration (error : String)
  | legacyOwner (error : String)
  | snapshot (error : String)

def hasLegacyOwner : OwnerIdentity → Bool
  | .uid _ | .sid _ => true
  | .principal _ => false

def resetHint : String :=
  " has legacy UID/SID ownership; run `luminated state reset-owned-objects --confirm`" ++
    " while the daemon is stopped"

def rejectOwners (state : PersistedState) : Except LoadRefusal Unit :=
  match state.collections.toList.find? (hasLegacyOwner ·.2.owner) with
  | some (id, _) =>
    .error (.legacyOwner ("persisted collection " ++ collectionDebug platform id ++ resetHint))
  | none =>
    match state.scenes.toList.find? (hasLegacyOwner ·.2.owner) with
    | some (id, _) => .error (.legacyOwner
        ("persisted scene SceneId(" ++ platform.debugText id ++ ")" ++ resetHint))
    | none => .ok ()

def checkOwners (rejectLegacyOwners : Bool) (state : PersistedState) :
    Except LoadRefusal Unit := if rejectLegacyOwners then rejectOwners platform state else .ok ()

/-- `load_internal` once the file has been parsed, up to what a refusal leads to. -/
def accept (rejectLegacyOwners : Bool) (file : StateFile) : Except LoadRefusal LoadedState := do
  let (migrated, _) ← (migrateAlienwarePowerButton platform file.state).mapError .migration
  checkOwners platform rejectLegacyOwners migrated
  (validateSnapshot platform migrated).mapError .snapshot
  return { migrated with preserveOrder := orderedSinceVersion ≤ file.version }

/-- A file that cannot be migrated or is invalid is set aside and the daemon
starts empty; legacy owners stop the start. -/
def load (rejectLegacyOwners : Bool) (file : StateFile) : Except String LoadedState :=
  match accept platform rejectLegacyOwners file with
  | .ok loaded => .ok loaded
  | .error (.legacyOwner error) => .error error
  | .error (.migration _) | .error (.snapshot _) => .ok emptyState

def restoreTargets (loaded : LoadedState) (state : DaemonState) : DaemonState :=
  if loaded.targets.isEmpty then state
  else (restorePersistedRetainingWithdrawn platform state loaded.targets loaded.preserveOrder).1

def restoreBaseline (loaded : LoadedState) (state : DaemonState) : DaemonState :=
  if loaded.adoptedBaseline.isEmpty then state
  else restoreAdoptedBaseline state loaded.adoptedBaseline

/-- Startup restores target entries, then the registries, then the baseline. -/
def restoreLoaded (loaded : LoadedState) (state : DaemonState) : DaemonState :=
  restoreBaseline loaded
    (restoreRegistries loaded.toPersistedState (restoreTargets platform loaded state))

def migratedEntry (entry : TargetStateEntry) : TargetStateEntry :=
  match legacyPowerButtonSlot entry.target, entry.state with
  | some slot, .effect effect => ⟨powerButton, .appearanceSlots [⟨slot, effect⟩]⟩
  | _, _ => entry

def migratedFacet (facet : AdoptedFacet) : AdoptedFacet :=
  match legacyPowerButtonSlot facet.target, facet.value with
  | some slot, .appearance appearance =>
    match adoptedEffect appearance with
    | some effect => { facet with
        target := powerButton
        value := .appearanceSlots ⟨[⟨slot, effect⟩], false⟩ }
    | none => facet
  | _, _ => facet

theorem migrateTargets_ok (h : migrateTargets p seen entries = .ok (result, migrated)) :
    result = entries.map migratedEntry := by
  induction entries generalizing seen result migrated with
  | nil =>
    cases h
    rfl
  | cons entry rest ih =>
    rw [migrateTargets] at h
    rw [map_cons, migratedEntry]
    cases hsl : legacyPowerButtonSlot entry.target with
    | none =>
      simp only [hsl] at h
      obtain ⟨⟨others, flag⟩, ho, h⟩ := bind_ok_iff.1 h
      cases h
      rw [ih ho]
    | some slot =>
      simp only [hsl] at h
      obtain ⟨_, _, h⟩ := bind_ok_iff.1 h
      cases hs : entry.state with
      | effect eff =>
        simp only [hs] at h
        obtain ⟨⟨others, flag⟩, ho, h⟩ := bind_ok_iff.1 h
        cases h
        rw [ih ho]
      | brightness v => simp [hs] at h
      | appearanceSlots values => simp [hs] at h
      | clear => simp [hs] at h

theorem migrateFacets_ok {facets result : List AdoptedFacet}
    (h : migrateFacets p seen facets = .ok (result, migrated)) :
    result = facets.map migratedFacet := by
  induction facets generalizing seen result migrated with
  | nil =>
    cases h
    rfl
  | cons f rest ih =>
    rw [migrateFacets] at h
    rw [map_cons, migratedFacet]
    cases hs : legacyPowerButtonSlot f.target with
    | none =>
      simp only [hs] at h
      obtain ⟨⟨others, flag⟩, ho, h⟩ := bind_ok_iff.1 h
      cases h
      rw [ih ho]
    | some slot =>
      simp only [hs] at h
      obtain ⟨_, _, h⟩ := bind_ok_iff.1 h
      cases hv : f.value with
      | appearance app =>
        simp only [hv] at h
        cases he : adoptedEffect app with
        | none => simp [he] at h
        | some eff =>
          simp only [he] at h
          obtain ⟨⟨others, flag⟩, ho, h⟩ := bind_ok_iff.1 h
          cases h
          simp only [he]
          rw [ih ho]
      | brightness v => simp [hv] at h
      | emission state => simp [hv] at h
      | physicalPower state => simp [hv] at h
      | effectiveAppearance state => simp [hv] at h
      | appearanceSlots state => simp [hv] at h

theorem accept_ok (h : accept p rejectLegacyOwners file = .ok ld) :
    ld.targets = file.state.targets.map migratedEntry ∧
      ld.adoptedBaseline = file.state.adoptedBaseline.map migratedFacet ∧
      ld.preserveOrder = decide (orderedSinceVersion ≤ file.version) := by
  obtain ⟨⟨state, flag⟩, hm, h⟩ := bind_ok_iff.1 h
  have hl : ld = { state with preserveOrder := decide (orderedSinceVersion ≤ file.version) } := by
    obtain ⟨-, h⟩ := then_ok_iff.1 h
    obtain ⟨-, h⟩ := then_ok_iff.1 h
    exact (Except.ok.inj h).symm
  rw [mapError_ok_iff] at hm
  obtain ⟨⟨ts, des⟩, ht, hm⟩ := bind_ok_iff.1 hm
  obtain ⟨⟨facets, adopted⟩, hf, hm⟩ := bind_ok_iff.1 hm
  obtain ⟨⟨scs, cap⟩, -, hm⟩ := bind_ok_iff.1 hm
  cases hm
  rw [hl]
  exact ⟨migrateTargets_ok ht, migrateFacets_ok hf, rfl⟩

/-- The slot values an entry leaves known for `target`. -/
def heldSlots (entry : TargetStateEntry) (target : TargetId) (_ : Unit) :
    Option (List AppearanceSlotValue) :=
  if entry.target = target then
    match entry.state with
    | .appearanceSlots values => some values
    | .clear => some []
    | _ => none
  else none

def heldAt (log : List TargetStateEntry) : Option (List AppearanceSlotValue) :=
  OverlayLog.lastWrite heldSlots target () log

def adoptedSlots (facets : List AdoptedFacet) : List AppearanceSlotValue :=
  facets.flatMap fun facet =>
    if facet.target = target then
      match facet.value with
      | .appearanceSlots slots => slots.values
      | _ => []
    else []

end

/-- What an accepted entry makes of the values held for `target`. Clearing a
larger target leaves only the adopted ones. -/
def slotWrite (topology : Topology) (target : TargetId) (entry : TargetStateEntry) :
    Option (Option (List AppearanceSlotValue)) :=
  if entry.target = target then (heldSlots entry target ()).map some
  else if entry.state = .clear ∧ targetCovers topology entry.target target then some none
  else none

section

variable {t : TargetId} {s : DaemonState} {e old : TargetStateEntry}

theorem slotWrite_slots : slotWrite topo t ⟨t, .appearanceSlots values⟩ = some (some values) := by
  rw [slotWrite, if_pos rfl, heldSlots, if_pos rfl]
  rfl

theorem slotWrite_clear (hne : larger ≠ t) (hc : targetCovers topo larger t = true) :
    slotWrite topo t ⟨larger, .clear⟩ = some none := by
  rw [slotWrite, if_neg hne, if_pos ⟨rfl, hc⟩]

theorem knownAppearanceSlotValues_eq : knownAppearanceSlotValues s t =
      (heldAt t s.targetState).getD (adoptedSlots t s.adoptedBaseline) := by
  rw [knownAppearanceSlotValues]
  induction s.targetState using reverseRecOn with
  | nil => rfl
  | append_singleton log e ih =>
    rw [foldl_append, heldAt, OverlayLog.lastWrite_concat, ← heldAt, foldl_cons, ih,
      foldl_nil, heldSlots]
    by_cases ht : e.target = t
    · rw [if_pos ht, if_pos ht]
      cases e.state <;> rfl
    · rw [if_neg ht, if_neg ht, none_or]

theorem desiredWrite_of_held (h : (heldSlots e t ()).isSome) : e.target = t ∧
      (SceneCapture.desiredWrite e.state .appearanceSlots).isSome := by
  rw [heldSlots] at h
  split at h
  · next ht =>
    refine ⟨ht, ?_⟩
    cases hs : e.state with
    | effect eff => simp [hs] at h
    | brightness v => simp [hs] at h
    | appearanceSlots values => rfl
    | clear => rfl
  · cases h

theorem state_of_desiredWrite (h : (SceneCapture.desiredWrite e.state .appearanceSlots).isSome) :
    e.state = .clear ∨ ∃ values, e.state = .appearanceSlots values := by
  cases hs : e.state with
  | effect eff => cases eff <;> simp [hs, SceneCapture.desiredWrite] at h
  | brightness v => simp [hs, SceneCapture.desiredWrite] at h
  | appearanceSlots values => exact .inr ⟨values, rfl⟩
  | clear => exact .inl rfl

theorem supersedes_held (h : supersedes topo e old = true) (hol : (heldSlots old t ()).isSome) :
    targetCovers topo e.target t = true ∧
      (e.state = .clear ∨ ∃ values, e.state = .appearanceSlots values) := by
  obtain ⟨ht, hw⟩ := desiredWrite_of_held hol
  have ho : (SceneCapture.entryWrite topo old t .appearanceSlots).isSome := by
    rw [SceneCapture.entryWrite, ht, if_pos (targetCovers_refl topo t)]
    exact hw
  have hn := SceneCapture.supersedes_sound topo e old h t _ ho
  rw [SceneCapture.entryWrite] at hn
  split at hn
  · next hc => exact ⟨hc, state_of_desiredWrite hn⟩
  · cases hn

theorem heldAt_insertTargetState (e : TargetStateEntry) :
    heldAt t (insertTargetState s e.target e.state).targetState = (heldSlots e t ()).or (heldAt t
        (s.targetState.filter fun old => !supersedes s.topology e old)) := by
  rw [insertTargetState_targetState, OverlayLog.insert, heldAt, OverlayLog.lastWrite_concat]
  rfl

theorem heldAt_of_kept (hn : heldSlots e t () = none)
    (hk : ∀ old, (heldSlots old t ()).isSome → supersedes s.topology e old = false) :
    heldAt t (insertTargetState s e.target e.state).targetState = heldAt t s.targetState := by
  rw [heldAt_insertTargetState, hn]
  refine OverlayLog.lastWrite_filter _ fun old _ hd => ?_
  by_contra hs
  rw [hk old (isSome_iff_ne_none.2 hs)] at hd
  cases hd

theorem heldAt_of_cleared (hne : e.target ≠ t) (hcl : e.state = .clear)
    (hc : targetCovers s.topology e.target t = true) :
    heldAt t (insertTargetState s e.target e.state).targetState = none := by
  have hk : ∀ old, (heldSlots old t ()).isSome → supersedes s.topology e old = true := by
    intro old ho
    have ht := (desiredWrite_of_held ho).1
    rw [supersedes, ht, hc, entryFacets, hcl]
    rfl
  have hn : heldSlots e t () = none := if_neg hne
  rw [heldAt_insertTargetState, hn, heldAt, OverlayLog.lastWrite]
  refine findSome?_eq_none_iff.2 fun old ho => ?_
  obtain ⟨-, hr⟩ := mem_filter.1 (mem_reverse.1 ho)
  by_contra hs
  rw [hk old (isSome_iff_ne_none.2 hs)] at hr
  cases hr

theorem heldAt_insert (hsr : isSurface t = true)
    (hv : validateTargetState p s e.target e.state = .ok ()) :
    heldAt t (insertTargetState s e.target e.state).targetState =
      (slotWrite s.topology t e).getD (heldAt t s.targetState) := by
  rw [slotWrite]
  by_cases ht : e.target = t
  · rw [if_pos ht]
    cases hh : heldSlots e t () with
    | some values =>
      rw [heldAt_insertTargetState, hh]
      rfl
    | none =>
      refine heldAt_of_kept hh fun old ho => ?_
      by_contra hsu
      rw [heldSlots, if_pos ht] at hh
      obtain ⟨-, hs | ⟨values, hs⟩⟩ := supersedes_held (Bool.eq_true_of_not_eq_false hsu) ho
      · simp [hs] at hh
      · simp [hs] at hh
  rw [if_neg ht]
  by_cases hc : e.state = .clear ∧ targetCovers s.topology e.target t
  · rw [if_pos hc]
    exact heldAt_of_cleared ht hc.1 hc.2
  · rw [if_neg hc]
    refine heldAt_of_kept (if_neg ht) fun old ho => ?_
    by_contra hsu
    obtain ⟨hco, hs | ⟨values, hs⟩⟩ := supersedes_held (Bool.eq_true_of_not_eq_false hsu) ho
    · exact hc ⟨hs, hco⟩
    · -- slot values are accepted for surfaces only, and no other surface covers this one
      rw [hs] at hv
      obtain ⟨resolved, hr, -⟩ := bind_ok_iff.1 hv
      rw [validateAppearanceSlotValues, then_ok_iff, ensure_ok_iff] at hr
      rw [SceneApplication.targetCovers_surface hr.1 hsr ht] at hco
      cases hco

end

def withLog (state : DaemonState) (log : List TargetStateEntry) : DaemonState :=
  { state with targetState := log }

def holding (state : DaemonState) (target : TargetId) (held : Option (List AppearanceSlotValue)) :
    DaemonState := withLog state (held.map fun values => ⟨target, .appearanceSlots values⟩).toList

def slotAccepts (platform : Platform) (state : DaemonState) (target : TargetId)
    (held : Option (List AppearanceSlotValue)) (entry : TargetStateEntry) : Bool :=
  (validateTargetState platform (holding state target held) entry.target entry.state).isOk

/-- The entries of active devices in the order they are restored. -/
def restoreOrder (topology : Topology) (preserveOrder : Bool) (entries : List TargetStateEntry) :
    List TargetStateEntry :=
  let active := entries.filter (isActive topology)
  if preserveOrder then active
  else active.insertionSort fun a b => targetRestoreOrder a.target ≤ targetRestoreOrder b.target

section

variable {s : DaemonState}

theorem known_holding (held : Option (List AppearanceSlotValue)) :
    knownAppearanceSlotValues (holding s t held) t =
      held.getD (adoptedSlots t s.adoptedBaseline) := by
  rw [knownAppearanceSlotValues_eq]
  cases held with
  | none => rfl
  | some values =>
    have hh : heldAt t (holding s t (some values)).targetState = some values := by
      simp [heldAt, OverlayLog.lastWrite, holding, withLog, heldSlots]
    rw [hh]
    rfl

theorem target_or_clear_of_slotWrite (h : (slotWrite topology t e).isSome) :
    e.target = t ∨ e.state = .clear := by
  rw [slotWrite] at h
  split at h
  · next ht => exact .inl ht
  · split at h
    · next hc => exact .inr hc.1
    · cases h

theorem slotAccepts_eq (p : Platform) (log : List TargetStateEntry)
    (h : (slotWrite s.topology t e).isSome) : slotAccepts p s t (heldAt t log) e =
      (validateTargetState p (withLog s log) e.target e.state).isOk := by
  rw [slotAccepts]
  rcases target_or_clear_of_slotWrite h with rfl | hc
  · have hk : knownAppearanceSlotValues (holding s e.target (heldAt e.target log)) e.target =
          knownAppearanceSlotValues (withLog s log) e.target := by
      rw [known_holding, knownAppearanceSlotValues_eq]
      rfl
    exact congrArg Except.isOk (validateTargetState_congr_known rfl rfl hk)
  · rw [hc]
    rfl

theorem restoreEntry_held (hs : isSurface t = true) (count : ℕ) :
    ∃ after restored, restoreEntry p (withLog s log, count) e = (withLog s after, restored) ∧
      heldAt t after = GuardedRegister.step (slotWrite s.topology t)
        (slotAccepts p s t) (heldAt t log) e := by
  cases hv : validateTargetState p (withLog s log) e.target e.state with
  | ok valid =>
    refine ⟨(insertTargetState (withLog s log) e.target e.state).targetState, count + 1, ?_, ?_⟩
    · rw [restoreEntry, hv]
      rfl
    rw [heldAt_insert hs hv]
    change (slotWrite s.topology t e).getD (heldAt t log) = _
    cases hw : slotWrite s.topology t e with
    | none =>
      rw [GuardedRegister.step_of_refused (by simp [hw])]
      rfl
    | some v =>
      have ha := slotAccepts_eq p log (isSome_of_eq_some hw)
      rw [hv] at ha
      rw [GuardedRegister.step_of_accepted hw ha]
      rfl
  | error error =>
    refine ⟨log, count, ?_, ?_⟩
    · rw [restoreEntry, hv]
    · refine (GuardedRegister.step_of_refused fun hw => ?_).symm
      rw [slotAccepts_eq p log hw, hv]
      rfl

theorem foldl_restoreEntry_held (log : List TargetStateEntry) (hs : isSurface t = true)
    (count : ℕ) : ∃ after restored, entries.foldl (restoreEntry p) (withLog s log, count) =
        (withLog s after, restored) ∧
      heldAt t after = GuardedRegister.run (slotWrite s.topology t)
        (slotAccepts p s t) (heldAt t log) entries := by
  induction entries generalizing log count with
  | nil => exact ⟨log, count, rfl, rfl⟩
  | cons e rest ih =>
    obtain ⟨next, restored, he, hn⟩ := restoreEntry_held hs count
    obtain ⟨after, total, hr, ha⟩ := ih next restored
    refine ⟨after, total, ?_, ?_⟩
    · rw [foldl_cons, he, hr]
    · rw [ha, hn]
      rfl

theorem containsDevice_of_capabilities (h : (capabilitiesForTarget topology t).isSome) :
    containsDevice topology t.deviceId = true := by
  have hf : (findDevice topology t.deviceId).isSome := by
    cases t <;> cases hd : findDevice topology _ <;>
      simp_all [capabilitiesForTarget, TargetId.deviceId]
  rw [findDevice, Std.ExtTreeMap.isSome_getElem?_iff_mem] at hf
  exact Std.ExtTreeMap.mem_iff_contains.1 hf

theorem heldAt_append_withdrawn (ha : containsDevice s.topology t.deviceId = true)
    (entries : List TargetStateEntry) :
    heldAt t (log ++ entries.filter (!isActive s.topology ·)) = heldAt t log := by
  have hn : heldAt t (entries.filter (!isActive s.topology ·)) = none := by
    refine findSome?_eq_none_iff.2 fun e he => ?_
    obtain ⟨-, hw⟩ := mem_filter.1 (mem_reverse.1 he)
    refine if_neg fun ht => ?_
    rw [isActive, ht, ha] at hw
    cases hw
  rw [heldAt, OverlayLog.lastWrite_append, ← heldAt, hn]
  rfl

theorem restored_held (hs : isSurface t = true) (hc : (capabilitiesForTarget s.topology t).isSome)
    (entries : List TargetStateEntry) (preserveOrder : Bool) :
    ∃ after, (restorePersistedRetainingWithdrawn p s entries preserveOrder).1 = withLog s after ∧
      heldAt t after = GuardedRegister.run (slotWrite s.topology t)
        (slotAccepts p s t) (heldAt t s.targetState)
        (restoreOrder s.topology preserveOrder entries) := by
  obtain ⟨after, restored, hf, ha⟩ := foldl_restoreEntry_held s.targetState hs 0
  refine ⟨after ++ entries.filter (!isActive s.topology ·), ?_, ?_⟩
  · have hf' : (restoreOrder s.topology preserveOrder entries).foldl
        (restoreEntry p) (s, 0) = (withLog s after, restored) := hf
    rw [restoreOrder] at hf'
    simp only [restorePersistedRetainingWithdrawn, restorePersisted, hf']
    rfl
  · rw [heldAt_append_withdrawn (containsDevice_of_capabilities hc), ha]

theorem adoptedSlots_restored (hc : (capabilitiesForTarget s.topology t).isSome)
    (facets : List AdoptedFacet) :
    adoptedSlots t (restoreAdoptedBaseline s facets).adoptedBaseline = adoptedSlots t facets := by
  rw [restoreAdoptedBaseline]
  induction facets with
  | nil => rfl
  | cons f rest ih =>
    rw [filter_cons]
    split
    · rw [adoptedSlots, flatMap_cons, ← adoptedSlots, ih]
      rfl
    · next hd =>
      have hne : f.target ≠ t := by
        rintro rfl
        simp [hc] at hd
      rw [ih, adoptedSlots, adoptedSlots, flatMap_cons, if_neg hne]
      rfl

end

def powerSlots : List AppearanceSlotId := ["ac", "battery"]

def lastLegacyEffect (slot : AppearanceSlotId) (entries : List TargetStateEntry) : Option Effect :=
  entries.reverse.findSome? fun entry =>
    if legacyPowerButtonSlot entry.target = some slot then
      match entry.state with
      | .effect effect => some effect
      | _ => none
    else none

def slotEffect (slot : AppearanceSlotId) (values : List AppearanceSlotValue) : Option Effect :=
  (values.find? (·.slot == slot)).map (·.effect)

def HoldsBoth (file : StateFile) : Prop :=
  ∀ slot ∈ powerSlots, (lastLegacyEffect slot file.state.targets).isSome

def AdvertisesBoth (topology : Topology) : Prop :=
  ∃ capabilities slots, capabilitiesForTarget topology powerButton = some capabilities ∧
    capabilities.appearanceSlots = some slots ∧ (slots.slots.map (·.id)).Perm powerSlots

def KeepsBoth (file : StateFile) (values : List AppearanceSlotValue) : Prop :=
  ∀ slot ∈ powerSlots, slotEffect slot values = lastLegacyEffect slot file.state.targets

instance (file : StateFile) : Decidable (HoldsBoth file) :=
  inferInstanceAs (Decidable (∀ slot ∈ powerSlots, _))

instance (file : StateFile) (values : List AppearanceSlotValue) :
    Decidable (KeepsBoth file values) := inferInstanceAs (Decidable (∀ slot ∈ powerSlots, _))

def restoredEntries (file : StateFile) (state : DaemonState) : List TargetStateEntry :=
  restoreOrder state.topology (orderedSinceVersion ≤ file.version)
    (file.state.targets.map migratedEntry)

def restoredAdopted (file : StateFile) (state : DaemonState) : List AppearanceSlotValue :=
  adoptedSlots powerButton (if file.state.adoptedBaseline.isEmpty then state.adoptedBaseline
    else file.state.adoptedBaseline.map migratedFacet)

/-- No entry replaces or clears the slot values while `held` is what the power
button holds. -/
def Undisturbed (platform : Platform) (state : DaemonState)
    (held : Option (List AppearanceSlotValue)) (entries : List TargetStateEntry) : Prop :=
  GuardedRegister.Refuses (slotWrite state.topology powerButton)
    (slotAccepts platform state powerButton) held entries

/-- Both values come from one place other than the two migrated entries, and
nothing restored later disturbs them. -/
inductive Supplied (platform : Platform) (file : StateFile) (state : DaemonState) : Prop where
  /-- What was known or adopted before, every migrated entry being refused. -/
  | standing
      (hrefused : Undisturbed platform state (heldAt powerButton state.targetState)
        (restoredEntries file state))
      (hkeeps : KeepsBoth file
        ((heldAt powerButton state.targetState).getD (restoredAdopted file state)))
  /-- A stored power-button entry that already names both slots. -/
  | stored {earlier later : List TargetStateEntry} {values : List AppearanceSlotValue}
      (hentries : restoredEntries file state =
        earlier ++ ⟨powerButton, .appearanceSlots values⟩ :: later)
      (hvalid : validateTargetState platform state powerButton (.appearanceSlots values) = .ok ())
      (hrefused : Undisturbed platform state (some values) later)
      (hkeeps : KeepsBoth file values)
  /-- The adopted baseline, after a larger target has been cleared. -/
  | cleared {earlier later : List TargetStateEntry} {target : TargetId}
      (hentries : restoredEntries file state = earlier ++ ⟨target, .clear⟩ :: later)
      (hother : target ≠ powerButton)
      (hcovers : targetCovers state.topology target powerButton = true)
      (hvalid : validateTargetState platform state target .clear = .ok ())
      (hrefused : Undisturbed platform state none later)
      (hkeeps : KeepsBoth file (restoredAdopted file state))

section

variable {file : StateFile} {s : DaemonState}

theorem AdvertisesBoth.capable (h : AdvertisesBoth s.topology) :
    (capabilitiesForTarget s.topology powerButton).isSome := by
  obtain ⟨caps, -, hc, -⟩ := h
  exact isSome_of_eq_some hc

theorem restoreTargets_held (hb : AdvertisesBoth s.topology) :
    ∃ after, restoreTargets p ld s = withLog s after ∧
      heldAt powerButton after = GuardedRegister.run (slotWrite s.topology powerButton)
        (slotAccepts p s powerButton) (heldAt powerButton s.targetState)
        (restoreOrder s.topology ld.preserveOrder ld.targets) := by
  rw [restoreTargets]
  split
  · next he =>
    rw [isEmpty_iff.1 he]
    refine ⟨s.targetState, rfl, ?_⟩
    cases ld.preserveOrder <;> rfl
  · exact restored_held rfl hb.capable ld.targets ld.preserveOrder

theorem restoreRegistries_frame : (restoreRegistries snapshot s).topology = s.topology ∧
      (restoreRegistries snapshot s).targetState = s.targetState ∧
      (restoreRegistries snapshot s).adoptedBaseline = s.adoptedBaseline := by
  rw [restoreRegistries]
  split <;> exact ⟨rfl, rfl, rfl⟩

section

variable (hb : AdvertisesBoth s.topology)

include hb

theorem adoptedSlots_restoreBaseline :
    adoptedSlots powerButton (restoreBaseline ld s).adoptedBaseline =
      adoptedSlots powerButton (if ld.adoptedBaseline.isEmpty then s.adoptedBaseline
        else ld.adoptedBaseline) := by
  rw [restoreBaseline]
  split
  · rfl
  · exact adoptedSlots_restored hb.capable ld.adoptedBaseline

theorem known_restored (ha : accept p rejectLegacyOwners file = .ok ld) :
    knownAppearanceSlotValues (restoreLoaded p ld s) powerButton =
      (GuardedRegister.run (slotWrite s.topology powerButton)
        (slotAccepts p s powerButton) (heldAt powerButton s.targetState)
        (restoredEntries file s)).getD (restoredAdopted file s) := by
  obtain ⟨hta, hba, ho⟩ := accept_ok ha
  obtain ⟨after, hr, haf⟩ := restoreTargets_held hb
  rw [hta, ho, ← restoredEntries] at haf
  obtain ⟨ht, hl, had⟩ := restoreRegistries_frame
  have hta : ∀ s, (restoreBaseline ld s).targetState = s.targetState := fun s => by
    rw [restoreBaseline]
    split <;> rfl
  rw [← haf, knownAppearanceSlotValues_eq, restoreLoaded, hr, hta, hl]
  rw [adoptedSlots_restoreBaseline (ht.symm ▸ hb), had, hba, isEmpty_map]
  rfl

theorem namesAllSlots_of_keepsBoth (hbo : HoldsBoth file) (hk : KeepsBoth file values) :
    NamesAllSlots s.topology ⟨powerButton, .appearanceSlots values⟩ := by
  obtain ⟨caps, slots, hc, hs, hp⟩ := hb
  intro given hg fd hf advertised ha desc hd
  cases hg
  cases hc.symm.trans hf
  cases hs.symm.trans ha
  have hsl : desc.id ∈ powerSlots := hp.mem_iff.1 (mem_map_of_mem hd)
  have hso := hbo _ hsl
  rw [← hk _ hsl, slotEffect, isSome_map] at hso
  obtain ⟨v, hv⟩ := isSome_iff_exists.1 hso
  have hn : v.slot = desc.id := by simpa using find?_some hv
  rw [← hn]
  exact mem_map_of_mem (mem_of_find?_eq_some hv)

theorem slotAccepts_stored (hbo : HoldsBoth file) (hk : KeepsBoth file values)
    (held : Option (List AppearanceSlotValue)) :
    slotAccepts p s powerButton held ⟨powerButton, .appearanceSlots values⟩ =
      (validateTargetState p s powerButton (.appearanceSlots values)).isOk := by
  have hn := namesAllSlots_of_keepsBoth hb hbo hk
  exact congrArg Except.isOk (validateTargetState_congr rfl rfl hn)

end

theorem not_keepsBoth_nil (hb : HoldsBoth file) : ¬ KeepsBoth file [] := by
  intro hk
  have hac := hb "ac" mem_cons_self
  rw [← hk "ac" mem_cons_self] at hac
  cases hac

theorem isOk_iff_ok {ε : Type} {x : Except ε Unit} : x.isOk = true ↔ x = .ok () := by
  cases x <;> simp [Except.isOk, Except.toBool]

theorem supplied_of_last (hb : AdvertisesBoth s.topology) (hbo : HoldsBoth file)
    (he : restoredEntries file s = earlier ++ entry :: later) {before}
    (hw : slotWrite s.topology powerButton entry = some held)
    (ha : slotAccepts p s powerButton before entry) (hl : Undisturbed p s held later)
    (hk : KeepsBoth file (held.getD (restoredAdopted file s))) : Supplied p file s := by
  obtain ⟨target, ts⟩ := entry
  rw [slotWrite] at hw
  split at hw
  · next ht =>
    obtain rfl : target = powerButton := ht
    cases ts with
    | effect eff => simp [heldSlots] at hw
    | brightness v => simp [heldSlots] at hw
    | clear =>
      obtain rfl : some [] = held := by simpa [heldSlots] using hw
      exact absurd hk (not_keepsBoth_nil hbo)
    | appearanceSlots values =>
      obtain rfl : some values = held := by simpa [heldSlots] using hw
      rw [getD_some] at hk
      rw [slotAccepts_stored hb hbo hk] at ha
      exact .stored he (isOk_iff_ok.1 ha) hl hk
  · next ho =>
    split at hw
    · next hcl =>
      obtain ⟨rfl, hc⟩ := hcl
      obtain rfl : none = held := Option.some.inj hw
      exact .cleared he ho hc (isOk_iff_ok.1 ha) hl hk
    · cases hw

/-- The migrated entries never keep both power sources by themselves: each holds
one slot, and the second to be accepted replaces the first. Both legacy values
are known after a restart exactly where something else supplies them. -/
theorem migration_keeps_both_iff (platform : Platform) (rejectLegacyOwners : Bool)
    (file : StateFile) (state : DaemonState) (hbutton : AdvertisesBoth state.topology)
    (hboth : HoldsBoth file) : (∃ loaded, accept platform rejectLegacyOwners file = .ok loaded ∧
        KeepsBoth file
          (knownAppearanceSlotValues (restoreLoaded platform loaded state) powerButton)) ↔
      (∃ loaded, accept platform rejectLegacyOwners file = .ok loaded) ∧
        Supplied platform file state := by
  constructor
  · rintro ⟨loaded, ha, hk⟩
    refine ⟨⟨loaded, ha⟩, ?_⟩
    rw [known_restored hbutton ha] at hk
    rcases GuardedRegister.run_cases (heldAt powerButton state.targetState) with ⟨hr, hru⟩ |
        ⟨earlier, entry, later, held, he, hw, hac, hl, hru⟩
    · rw [hru] at hk
      exact .standing hr hk
    · rw [hru] at hk
      exact supplied_of_last hbutton hboth he hw hac hl hk
  · rintro ⟨⟨loaded, ha⟩, hs⟩
    refine ⟨loaded, ha, ?_⟩
    rw [known_restored hbutton ha]
    cases hs with
    | standing hr hk =>
      rw [GuardedRegister.run_of_refuses hr]
      exact hk
    | stored he hv hr hk =>
      have hac := fun held =>
        (slotAccepts_stored hbutton hboth hk held).trans (isOk_iff_ok.2 hv)
      rw [he, GuardedRegister.run_of_last slotWrite_slots (hac _) hr]
      exact hk
    | cleared he ho hc hv hr hk =>
      have hw := slotWrite_clear ho hc
      have hac := isOk_iff_ok.2 hv
      rw [he, GuardedRegister.run_of_last hw hac hr]
      exact hk

theorem mem_of_mem_restoredEntries (h : entry ∈ restoredEntries file s) :
    entry ∈ file.state.targets.map migratedEntry := by
  rw [restoredEntries, restoreOrder] at h
  split at h
  · exact mem_of_mem_filter h
  · exact mem_of_mem_filter ((mem_insertionSort _).1 h)

theorem not_keepsBoth_singleton (hbo : HoldsBoth file) : ¬ KeepsBoth file [v] := by
  intro hk
  have hn : ∀ slot ∈ powerSlots, v.slot = slot := by
    intro slot hs
    have hso := hbo slot hs
    rw [← hk slot hs, slotEffect, isSome_map] at hso
    obtain ⟨fd, hf⟩ := isSome_iff_exists.1 hso
    obtain rfl := mem_singleton.1 (mem_of_find?_eq_some hf)
    simpa using find?_some hf
  have hac := hn "ac" (by decide)
  have hb := hn "battery" (by decide)
  exact absurd (hac.symm.trans hb) (by decide)

/-- A file without entries of the new surface loses one of its two values unless
they were adopted as well. -/
theorem not_supplied_of_legacy (hb : HoldsBoth file)
    (hl : ∀ entry ∈ file.state.targets, entry.target ≠ powerButton)
    (hf : heldAt powerButton s.targetState = none)
    (ha : ¬ KeepsBoth file (restoredAdopted file s)) : ¬ Supplied p file s := by
  rintro (⟨-, hk⟩ | ⟨he, -, -, hk⟩ | ⟨-, -, -, -, -, hk⟩)
  · rw [hf] at hk
    exact ha hk
  · have hme := mem_of_mem_restoredEntries (he ▸ mem_append_cons_self)
    obtain ⟨entry, hen, hm⟩ := mem_map.1 hme
    rw [migratedEntry] at hm
    split at hm
    · cases hm
      exact not_keepsBoth_singleton hb hk
    · exact hl entry hen (congrArg TargetStateEntry.target hm)
  · exact ha hk

end

namespace Sample

def button (updatePolicy : AppearanceSlotUpdatePolicy) : CapabilitySet where
  appearanceSlots := some ⟨[⟨"ac", "AC", { colour := [.rgb8] }, .none⟩,
    ⟨"battery", "Battery", { colour := [.rgb8] }, .none⟩], updatePolicy⟩

def laptop (updatePolicy : AppearanceSlotUpdatePolicy) : Device where
  id := alienwareDevice
  surfaces := [⟨powerButtonSurface, [], button updatePolicy⟩]

def started (updatePolicy : AppearanceSlotUpdatePolicy) : DaemonState :=
  DaemonModel.fromDevices [laptop updatePolicy]

def indigo : Effect := .static (.rgb ⟨1, 2, 3⟩)

def amber : Effect := .static (.rgb ⟨4, 5, 6⟩)

def legacyEntries : List TargetStateEntry :=
  [⟨.surface alienwareDevice legacyPowerButtonAc, .effect indigo⟩,
    ⟨.surface alienwareDevice legacyPowerButtonBattery, .effect amber⟩]

def fileOf (targets : List TargetStateEntry) : StateFile where
  version := 11
  state := { targets, collections := ∅, scenes := ∅, adoptedBaseline := [] }

def knownAfter (updatePolicy : AppearanceSlotUpdatePolicy) (targets : List TargetStateEntry) :
    Option (List AppearanceSlotValue) :=
  (load DesiredState.Sample.platform true (fileOf targets)).toOption.map fun loaded =>
    knownAppearanceSlotValues
      (restoreLoaded DesiredState.Sample.platform loaded (started updatePolicy)) powerButton

theorem started_advertisesBoth : AdvertisesBoth (started updatePolicy).topology := by
  refine ⟨button updatePolicy, _, ?_, rfl, Perm.refl _⟩
  cases updatePolicy <;> decide +kernel

end Sample

namespace Counterexample

open Sample

/-- The policy the plugin advertises refuses both migrated entries; independent
slots would keep the second one only. -/
theorem power_sources_lost :
    AdvertisesBoth (started .partialIfKnown).topology ∧ HoldsBoth (fileOf legacyEntries) ∧
      knownAfter .partialIfKnown legacyEntries = some [] ∧
      knownAfter .independent legacyEntries = some [⟨"battery", amber⟩] ∧
      ¬ ∃ loaded, accept DesiredState.Sample.platform true (fileOf legacyEntries) = .ok loaded ∧
        KeepsBoth (fileOf legacyEntries) (knownAppearanceSlotValues (restoreLoaded
          DesiredState.Sample.platform loaded (started .partialIfKnown)) powerButton) := by
  have hb : HoldsBoth (fileOf legacyEntries) := by decide +kernel
  have hk : knownAfter .partialIfKnown legacyEntries = some [] := by decide +kernel
  refine ⟨started_advertisesBoth, hb, hk, by decide +kernel, ?_⟩
  rintro ⟨loaded, ha, hke⟩
  rw [knownAfter, load, ha] at hk
  have hn : knownAppearanceSlotValues (restoreLoaded DesiredState.Sample.platform loaded
      (started .partialIfKnown)) powerButton = [] := Option.some.inj hk
  rw [hn] at hke
  exact not_keepsBoth_nil hb hke

end Counterexample

open Sample in
/-- A later entry of the new surface that names both slots keeps them known. -/
theorem stored_pair_survives :
    let pair : List AppearanceSlotValue := [⟨"ac", indigo⟩, ⟨"battery", amber⟩]
    let file := fileOf (legacyEntries ++ [⟨powerButton, .appearanceSlots pair⟩])
    ∃ loaded, accept DesiredState.Sample.platform true file = .ok loaded ∧
      KeepsBoth file (knownAppearanceSlotValues (restoreLoaded DesiredState.Sample.platform loaded
        (started .partialIfKnown)) powerButton) := by
  intro pair file
  have he : restoredEntries file (started .partialIfKnown) =
      legacyEntries.map migratedEntry ++ ⟨powerButton, .appearanceSlots pair⟩ :: [] := by
    decide +kernel
  exact (migration_keeps_both_iff DesiredState.Sample.platform true file
    (started .partialIfKnown) started_advertisesBoth (by decide +kernel)).2
    ⟨⟨_, rfl⟩, .stored he rfl (fun _ h => absurd h not_mem_nil) (by decide +kernel)⟩

/-- The entry writes or clears the slots of everything its target covers. -/
def touchesSlots (topology : Topology) (t : TargetId) (entry : TargetStateEntry) : Bool :=
  targetCovers topology entry.target t &&
    match entry.state with
    | .appearanceSlots _ | .clear => true
    | _ => false

section

variable {s : DaemonState} {t u : TargetId} {e : TargetStateEntry}

theorem heldAt_of_untouched (h : touchesSlots s.topology t e = false) :
    heldAt t (insertTargetState s e.target e.state).targetState = heldAt t s.targetState := by
  refine heldAt_of_kept ?_ fun old ho => ?_
  · rw [heldSlots]
    split
    · next ht =>
      rw [touchesSlots, ht, targetCovers_refl] at h
      cases hs : e.state <;> simp_all
    · rfl
  · by_contra hsu
    obtain ⟨hc, hs⟩ := supersedes_held (Bool.eq_true_of_not_eq_false hsu) ho
    rw [touchesSlots, hc, Bool.true_and] at h
    obtain hs | ⟨values, hs⟩ := hs
    · simp [hs] at h
    · simp [hs] at h

theorem heldAt_insertAll (h : ∀ e ∈ later, touchesSlots s.topology t e = false) :
    heldAt t (insertAll s later).targetState = heldAt t s.targetState := by
  induction later generalizing s with
  | nil => rfl
  | cons e later ih =>
    obtain ⟨he, hl⟩ := forall_mem_cons.1 h
    have hn := @ih (insertTargetState s e.target e.state) hl
    rw [insertAll, foldl_cons, ← insertAll, hn, heldAt_of_untouched he]

theorem heldAt_clear (hc : targetCovers s.topology u t = true) :
    heldAt t (insertTargetState s u .clear).targetState = if u = t then some [] else none := by
  split
  · next h =>
    refine (heldAt_insertTargetState ⟨u, .clear⟩).trans ?_
    rw [heldSlots, if_pos h]
    rfl
  · next h => exact @heldAt_of_cleared t s ⟨u, .clear⟩ h rfl hc

/-- Where a clear was the last to touch the slots of `t`, nothing of them is known exactly
where it was a clear of `t` itself or nothing was adopted for `t`. -/
theorem known_after_clear_iff (s : DaemonState) (before later : List TargetStateEntry)
    (t u : TargetId) (hc : targetCovers s.topology u t = true)
    (hl : ∀ e ∈ later, touchesSlots s.topology t e = false) :
    knownAppearanceSlotValues (insertAll s (before ++ ⟨u, .clear⟩ :: later)) t = [] ↔
      u = t ∨ adoptedSlots t s.adoptedBaseline = [] := by
  have ht : (insertAll s before).topology = s.topology := by rw [insertAll_eq]
  have hr : insertAll s (before ++ ⟨u, .clear⟩ :: later) =
      insertAll (insertTargetState (insertAll s before) u .clear) later := by
    rw [insertAll, foldl_append, foldl_cons]
    rfl
  have hb : (insertAll s (before ++ ⟨u, .clear⟩ :: later)).adoptedBaseline =
      s.adoptedBaseline := by rw [insertAll_eq]
  rw [knownAppearanceSlotValues_eq, hb, hr,
    heldAt_insertAll (by rwa [insertTargetState, ht]), heldAt_clear (ht.symm ▸ hc)]
  by_cases h : u = t
  · simp [h]
  · simp [h]

end

open Sample in
/-- Both slots are set, then the power button is cleared. -/
theorem cleared_button_forgets : knownAppearanceSlotValues (insertAll (started .independent)
      ([⟨powerButton, .appearanceSlots [⟨"ac", indigo⟩]⟩] ++ ⟨powerButton, .clear⟩ :: []))
      powerButton = [] :=
  (known_after_clear_iff _ _ [] powerButton powerButton (targetCovers_refl _ _) (by simp)).2
    (.inl rfl)

namespace Counterexample

open Sample

/-- The laptop is cleared as a whole; the adopted colour of its power button is known
again. -/
theorem cleared_laptop_remembers :
    let adopted := { started .independent with adoptedBaseline :=
      [⟨powerButton, .appearanceSlots ⟨[⟨"ac", indigo⟩], false⟩, 0⟩] }
    let history := [⟨powerButton, .clear⟩, ⟨.device alienwareDevice, .clear⟩]
    targetCovers adopted.topology (.device alienwareDevice) powerButton = true ∧
      knownAppearanceSlotValues (insertAll adopted history) powerButton = [⟨"ac", indigo⟩] := by
  decide +kernel

end Counterexample

end PowerButtonMigration
