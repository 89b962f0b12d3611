import Luminate.Adoption

/-! # Mutations of one target and of a collection

The single-target requests of `daemon/dispatch/appearance.rs` with the state
methods they end in, and the collection fan-out with its partial-failure exit. -/
namespace CollectionMutation

open Checks DeviceModel TargetTopology DaemonModel Validation DesiredState Observation
  PersistedSnapshot Adoption List

/-- What a request returns, with the state it leaves. -/
abbrev Outcome := Except DaemonError Unit × DaemonState

/-- `?` in a method that has not changed the state yet. -/
def attempt {α : Type} (state : DaemonState) (check : Except DaemonError α) (next : α → Outcome) :
    Outcome :=
  match check with
  | .ok value => next value
  | .error error => (.error error, state)

section

variable (platform : Platform) (now : ℕ) (state : DaemonState) (target : TargetId)

def insertTargetStateChecked (targetState : TargetState) : Outcome :=
  let inserted := insertTargetState state target targetState
  attempt state (ensurePersistable platform inserted) fun _ => (.ok (), inserted)

/-- The common body of `set_effect`, `set_brightness` and `clear_target`. The
observations stay even when the desired entry is refused. -/
def recordApply (targetState : TargetState) : Outcome :=
  attempt state (ensureTargetExists state target) fun _ =>
    insertTargetStateChecked platform (noteSuccessfulApply now state target targetState) target
      targetState

def setEffect (effect : Effect) : Outcome := recordApply platform now state target (.effect effect)

def setBrightness (value : ℕ) : Outcome := recordApply platform now state target (.brightness value)

def clearTarget : Outcome := recordApply platform now state target .clear

def updateSlotValue (known : List AppearanceSlotValue) (value : AppearanceSlotValue) :
    List AppearanceSlotValue :=
  match known.findIdx? (·.slot == value.slot) with
  | some i => known.set i value
  | none => known ++ [value]

def setAppearanceSlots (values : List AppearanceSlotValue) : Outcome :=
  recordApply platform now state target
    (.appearanceSlots (values.foldl updateSlotValue (knownAppearanceSlotValues state target)))

end

section

variable (platform : Platform) (plugins : PluginManager) (state : DaemonState) (target : TargetId)

def resolveEffect : Effect → Except DaemonError Effect
  | .static colour => do
    let resolved ← resolveColour platform state target colour
    return .static resolved
  | effect => do
    validateEffect platform state target effect
    return effect

def applySingleTarget (now : ℕ) (state : DaemonState) (target : TargetId) : TargetState → Outcome
  | .effect effect =>
    attempt state (resolveEffect platform state target effect) fun applied =>
      attempt state (plugins target (.setEffect applied)) fun _ =>
        setEffect platform now state target effect
  | .brightness value =>
    attempt state (validateBrightness state target value) fun _ =>
      attempt state (plugins target (.setBrightness value)) fun _ =>
        setBrightness platform now state target value
  | .appearanceSlots values =>
    attempt state (validateAppearanceSlotValues platform state target values) fun resolved =>
      attempt state (plugins target (.setAppearanceSlots resolved)) fun _ =>
        setAppearanceSlots platform now state target resolved
  | .clear =>
    attempt state (ensureTargetExists state target) fun _ =>
      attempt state (plugins target .clear) fun _ => clearTarget platform now state target

inductive UnsupportedPolicy where
  | skip | reject
  deriving DecidableEq

def isSupported (targetState : TargetState) (target : TargetId) :
    Bool := (validateTargetState platform state target targetState).isOk

def prepareCollectionMutation (members : List TargetId) (targetState : TargetState)
    (policy : UnsupportedPolicy) : Except DaemonError (List TargetId) :=
  match policy with
  | .reject => do
    checkAll (validateTargetState platform state · targetState) members
    return members
  | .skip =>
    let supported := members.filter (isSupported platform state targetState)
    match supported, targetState, members with
    | [], .effect _, member :: _ => do
      validateTargetState platform state member targetState
      return supported
    | _, _, _ => return supported

def recordCollectionPartialSuccess (members : List TargetId) (targetState : TargetState) :
    Except DaemonError DaemonState := do
  let recorded := insertAll state (members.map (⟨·, targetState⟩))
  ensurePersistable platform recorded
  return recorded

/-- `daemon/executor.rs`. -/
def applyTargetState : TargetState → Except DaemonError Unit
  | .effect (.static colour) => do
    let resolved ← resolveColour platform state target colour
    plugins target (.setEffect (.static resolved))
  | .effect effect => plugins target (.setEffect effect)
  | .brightness value => plugins target (.setBrightness value)
  | .appearanceSlots values => plugins target (.setAppearanceSlots values)
  | .clear => plugins target .clear

def sceneErrorText : SceneValidationError → String
  | .invalidId => "scene identifier must be a UUID"
  | .zeroRevision => "scene revision must be at least one"
  | .noBindings => "scene must contain at least one binding"
  | .emptyTargetState => "scene target state must contain at least one facet"
  | .offAppearance => "Effect::Off cannot be stored as a scene appearance"
  | .emittingWithoutAppearance => "emitting scene state requires an appearance"
  | .emittingAtZeroBrightness => "emitting scene state cannot have zero brightness"
  | .emptyAppearanceSlots => "scene appearance slots must contain at least one value"
  | .duplicateAppearanceSlot slot =>
    "scene appearance slot " ++ slotDebug platform slot ++ " occurs more than once"
  | .duplicateTarget target =>
    "scene contains a duplicate target binding: " ++ targetDebug platform target

/-- `Display` of `DaemonError`. -/
def errorText : DaemonError → String
  | .targetNotFound target => "target not found: " ++ targetDebug platform target
  | .unsupportedCapability target reason =>
    "operation is not supported for target " ++ targetDebug platform target ++ ": " ++ reason
  | .invalidArgument target reason =>
    "invalid operation for target " ++ targetDebug platform target ++ ": " ++ reason
  | .unknownState target =>
    "cannot save current state for " ++ targetDebug platform target ++ ": state is unknown"
  | .conflict target reason =>
    "conflict for target " ++ targetDebug platform target ++ ": " ++ reason
  | .authorizationConflict reason => "authorization conflict: " ++ reason
  | .internal reason => "internal daemon error: " ++ reason
  | .resourceLimit reason => "persistence resource limit exceeded: " ++ reason
  | .partialMutation diagnostic _ => "partial mutation: " ++ diagnostic
  | .collectionNotFound id => "collection not found: " ++ collectionDebug platform id
  | .collectionCycle id =>
    "adding " ++ collectionDebug platform id ++ " would create a collection membership cycle"
  | .invalidScene error => "invalid scene: " ++ sceneErrorText platform error
  | .plugin diagnostic => diagnostic

/-- The member loop of `apply_collection_mutation`; `applied` holds the members
done so far. Only the partial-failure exit records anything. -/
def applyMembers (platform : Platform) (plugins : PluginManager) (state : DaemonState)
    (id : Option CollectionId) (targetState : TargetState) (applied : List TargetId) :
    List TargetId → Outcome
  | [] => (.ok (), state)
  | member :: rest =>
    match applyTargetState platform plugins state member targetState with
    | .ok _ => applyMembers platform plugins state id targetState (applied ++ [member]) rest
    | .error error =>
      if applied.isEmpty then (.error error, state)
      else
        let head := id.getD "resolved target set" ++ " applied to " ++ toString applied.length ++
          " member(s)"
        match recordCollectionPartialSuccess platform state applied targetState with
        | .error persistenceError =>
          (.error (.partialMutation (head ++ ", but their intended state was rejected: " ++
            errorText platform persistenceError) applied), state)
        | .ok recorded =>
          (.error (.partialMutation (head ++ " before " ++ targetDebug platform member ++
            " failed: " ++ errorText platform error) applied), recorded)

def applyCollectionMutation (id : Option CollectionId) (leaves : List TargetId)
    (targetState : TargetState) (policy : UnsupportedPolicy) : Outcome :=
  attempt state (prepareCollectionMutation platform state leaves targetState policy)
    (applyMembers platform plugins state id targetState [])

end

variable {targetState : TargetState} {leaves : List TargetId}

theorem isSupported_iff : isSupported pl state targetState target = true ↔
      validateTargetState pl state target targetState = .ok () := by
  simp only [isSupported]
  cases validateTargetState pl state target targetState with
  | ok _ => exact iff_of_true rfl rfl
  | error _ => simp [Except.isOk, Except.toBool]

theorem resolveEffect_of_valid (h : validateEffect pl state target eff = .ok ()) :
    ∃ applied, resolveEffect pl state target eff = .ok applied := by
  cases eff with
  | static col =>
    obtain ⟨caps, hc, h⟩ := bind_ok_iff.1 h
    obtain ⟨resolved, hr, -⟩ := bind_ok_iff.1 h
    exact ⟨.static resolved, by simp only [resolveEffect, resolveColour, hc, ok_bind, hr]; rfl⟩
  | _ => simp only [resolveEffect, h, ok_bind]; exact ⟨_, rfl⟩

theorem exists_of_capabilities (h : capabilitiesForTargetOrError state target = .ok c) :
    ensureTargetExists state target = .ok () := by
  rw [capabilitiesForTargetOrError] at h
  cases hc : capabilitiesForTarget state.topology target with
  | none => simp [hc] at h
  | some _ => simp [ensureTargetExists, hc]

theorem exists_of_valid (h : validateTargetState pl state target targetState = .ok ()) :
    ensureTargetExists state target = .ok () := by
  cases targetState with
  | effect eff =>
    obtain ⟨c, hc, -⟩ := bind_ok_iff.1 (show validateEffect _ _ _ _ = _ from h)
    exact exists_of_capabilities hc
  | brightness v =>
    obtain ⟨c, hc, -⟩ := bind_ok_iff.1 (show validateBrightness _ _ _ = _ from h)
    exact exists_of_capabilities hc
  | appearanceSlots vs =>
    obtain ⟨_, hv, -⟩ := bind_ok_iff.1 h
    simp only [validateAppearanceSlotValues, then_ok_iff] at hv
    obtain ⟨_, hs, -⟩ := bind_ok_iff.1 hv.2.2
    obtain ⟨c, hc, -⟩ := bind_ok_iff.1 (show (_ >>= _) = _ from hs)
    exact exists_of_capabilities hc
  | clear => exact h

theorem prepareCollectionMutation_ok
    (h : prepareCollectionMutation pl state leaves targetState policy = .ok ms) :
    ms = leaves.filter (isSupported pl state targetState) := by
  cases policy with
  | reject =>
    simp only [prepareCollectionMutation, then_ok_iff, checkAll_ok_iff] at h
    have ha := filter_eq_self.2 fun leaf hl => isSupported_iff.2 (h.1 leaf hl)
    rw [ha]
    exact (Except.ok.inj h.2).symm
  | skip =>
    simp only [prepareCollectionMutation] at h
    split at h
    · rw [then_ok_iff] at h
      exact (Except.ok.inj h.2).symm
    · exact (Except.ok.inj h).symm

section

variable {p : Platform} {ps : PluginManager}
  (hplugins : ∀ target operation, ps target operation = .ok ())
include hplugins

variable {ts : TargetState}

theorem applyTargetState_of_valid (h : validateTargetState p state target ts = .ok ()) :
    applyTargetState p ps state target ts = .ok () := by
  cases ts with
  | effect eff =>
    obtain ⟨applied, ha⟩ := resolveEffect_of_valid h
    cases eff with
    | static col =>
      obtain ⟨resolved, hr, -⟩ := bind_ok_iff.1 (show (_ >>= _) = _ from ha)
      simp only [applyTargetState, hr, ok_bind, hplugins]
    | _ => simp only [applyTargetState, hplugins]
  | _ => simp only [applyTargetState, hplugins]

theorem applyMembers_of_valid {id : Option CollectionId} (applied : List TargetId)
    (h : ∀ mb ∈ ms, validateTargetState p state mb ts = .ok ()) :
    applyMembers p ps state id ts applied ms = (.ok (), state) := by
  induction ms generalizing applied with
  | nil => rfl
  | cons mb rest ih =>
    have hme := applyTargetState_of_valid hplugins (h mb mem_cons_self)
    simp only [applyMembers, hme]
    exact ih _ fun m hm => h m (mem_cons_of_mem _ hm)

theorem applySingleTarget_state (now : ℕ) (hk : ∀ vs, ts ≠ .appearanceSlots vs)
    (h : validateTargetState p state target ts = .ok ()) :
    (applySingleTarget p ps now state target ts).2 =
      (insertTargetStateChecked p (noteSuccessfulApply now state target ts) target ts).2 := by
  have he := exists_of_valid h
  cases ts with
  | effect eff =>
    obtain ⟨applied, ha⟩ := resolveEffect_of_valid h
    simp only [applySingleTarget, ha, attempt, hplugins, setEffect, recordApply, he]
  | brightness v =>
    have hv : validateBrightness state target v = .ok () := h
    simp only [applySingleTarget, hv, attempt, hplugins, setBrightness, recordApply, he]
  | appearanceSlots vs => exact absurd rfl (hk vs)
  | clear => simp only [applySingleTarget, attempt, hplugins, clearTarget, recordApply, he]

end

/-- The entries the persistence limits admit when they are offered in turn. -/
def admittedEntries (platform : Platform) :
    DaemonState → List TargetStateEntry → List TargetStateEntry
  | _, [] => []
  | state, entry :: rest =>
    let inserted := insertTargetState state entry.target entry.state
    match ensurePersistable platform inserted with
    | .ok _ => entry :: admittedEntries platform inserted rest
    | .error _ => admittedEntries platform state rest

section

variable (pl : Platform) (topology : Topology) (platform : Platform) (state : DaemonState)

theorem admittedEntries_observations (obs : Observations) (entries : List TargetStateEntry) :
    admittedEntries pl { state with observations := obs } entries =
      admittedEntries pl state entries := by
  induction entries generalizing state with
  | nil => rfl
  | cons entry rest ih =>
    simp only [admittedEntries]
    have hi : insertTargetState { state with observations := obs } entry.target
        entry.state = { insertTargetState state entry.target entry.state with
          observations := obs } := rfl
    have hp : ensurePersistable pl
        { insertTargetState state entry.target entry.state with observations := obs } =
        ensurePersistable pl (insertTargetState state entry.target entry.state) := rfl
    rw [hi, hp, ih, ih]

/-- One successful single-target request per leaf, whether or not its entry is
admitted. -/
def recordEach (now : ℕ) (targetState : TargetState) (state : DaemonState)
    (leaves : List TargetId) : DaemonState :=
  leaves.foldl (fun s leaf =>
    (insertTargetStateChecked platform (noteSuccessfulApply now s leaf targetState) leaf
      targetState).2) state

theorem recordEach_eq : recordEach pl now targetState state leaves = { state with
        targetState := (insertAll state (admittedEntries pl state
          (leaves.map (⟨·, targetState⟩)))).targetState
        observations := leaves.foldl (fun obs leaf =>
          (notedTargets state.topology leaf).foldl
            (noteSuccessfulApplyAtCanonicalTarget state.topology now targetState) obs)
          state.observations } := by
  induction leaves generalizing state with
  | nil => rfl
  | cons leaf rest ih =>
    have hp : ensurePersistable pl
        (insertTargetState (noteSuccessfulApply now state leaf targetState) leaf targetState) =
        ensurePersistable pl (insertTargetState state leaf targetState) := rfl
    rw [recordEach, foldl_cons, ← recordEach, ih]
    simp only [insertTargetStateChecked, attempt, map_cons, admittedEntries, hp, foldl_cons]
    cases ensurePersistable pl (insertTargetState state leaf targetState) with
    | ok _ =>
      have ha : admittedEntries pl (insertTargetState (noteSuccessfulApply now state leaf
          targetState) leaf targetState) (rest.map (⟨·, targetState⟩)) =
          admittedEntries pl (insertTargetState state leaf targetState)
            (rest.map (⟨·, targetState⟩)) :=
        admittedEntries_observations pl (insertTargetState state leaf targetState) _ _
      simp only [insertAll_eq, foldl_cons, ← insertTargetState_targetState, ha]
      rfl
    | error _ =>
      have ha : admittedEntries pl (noteSuccessfulApply now state leaf targetState)
          (rest.map (⟨·, targetState⟩)) =
          admittedEntries pl state (rest.map (⟨·, targetState⟩)) :=
        admittedEntries_observations pl state _ _
      simp only [insertAll_eq, ha]
      rfl

/-- The single-target path, once for every supported leaf. -/
def singleTargetRun (plugins : PluginManager) (now : ℕ) (state : DaemonState)
    (leaves : List TargetId) (targetState : TargetState) : DaemonState :=
  (leaves.filter (isSupported platform state targetState)).foldl
    (fun s leaf => (applySingleTarget platform plugins now s leaf targetState).2) state

def newestEntry (entries : List TargetStateEntry) (target : TargetId) : Option TargetStateEntry :=
  entries.reverse.find? fun entry => targetCovers topology entry.target target

structure RecordsLikeSingleTarget (platform : Platform) (plugins : PluginManager) (now : ℕ)
    (state : DaemonState) (leaves : List TargetId) (targetState : TargetState)
    (after : DaemonState) : Prop where
  desired : after.targetState =
    (singleTargetRun platform plugins now state leaves targetState).targetState
  observed : after.observations =
    (singleTargetRun platform plugins now state leaves targetState).observations
  newest : ∀ leaf ∈ leaves.filter (isSupported platform state targetState),
    (newestEntry after.topology after.targetState leaf).map (·.state) = some targetState

/-- The desired list already ends with the compacted admitted entries, which
supersede nothing below them. -/
def AlreadyDesired (entries admitted : List TargetStateEntry) : Prop :=
  ∃ base, entries = base ++ OverlayLog.compact (supersedes topology) admitted ∧
    ∀ old ∈ base, ∀ new ∈ admitted, supersedes topology new old = false

/-- The observations of a write to each of `leaves` are stored already. -/
def AlreadyNoted (now : ℕ) (state : DaemonState) (targetState : TargetState)
    (leaves : List TargetId) : Prop :=
  AlreadyObserved state.topology now state.observations targetState
    (leaves.flatMap (notedTargets state.topology))

theorem supersedes_self (entry : TargetStateEntry) : supersedes topology entry entry = true := by
  simp [supersedes, isCoveredBy]

theorem insertTargetStateChecked_frame (target : TargetId) (targetState : TargetState) :
    (insertTargetStateChecked pl state target targetState).2.topology = state.topology ∧
      (insertTargetStateChecked pl state target targetState).2.cctEmulationOverride =
        state.cctEmulationOverride := by
  simp only [insertTargetStateChecked, attempt]
  split <;> exact ⟨rfl, rfl⟩

end

theorem foldl_applySingleTarget (hplugins : ∀ target op, pgs target op = .ok ())
    (hk : ∀ vs, targetState ≠ .appearanceSlots vs)
    (h : ∀ leaf ∈ ms, validateTargetState pl state leaf targetState = .ok ()) :
    ms.foldl (fun s leaf => (applySingleTarget pl pgs now s leaf targetState).2) state =
      recordEach pl now targetState state ms := by
  induction ms generalizing state with
  | nil => rfl
  | cons leaf rest ih =>
    rw [recordEach, foldl_cons, ← recordEach,
      applySingleTarget_state hplugins now hk (h leaf mem_cons_self)]
    refine ih fun m hm => ?_
    -- recording a leaf changes nothing the next validation reads
    rw [← h m (mem_cons_of_mem _ hm)]
    obtain ⟨ht, ho⟩ := insertTargetStateChecked_frame pl
      (noteSuccessfulApply now state leaf targetState) leaf targetState
    exact validateTargetState_congr ht ho fun vs hv => absurd hv (hk vs)

theorem recordEach_targetState_eq_self_iff :
    (recordEach pl now targetState state leaves).targetState = state.targetState ↔
      AlreadyDesired state.topology state.targetState
        (admittedEntries pl state (leaves.map (⟨·, targetState⟩))) := by
  rw [recordEach_eq, insertAll_eq]
  exact OverlayLog.foldl_insert_eq_self_iff fun e _ => supersedes_self state.topology e

theorem recordEach_observations_eq_self_iff :
    (recordEach pl now targetState state leaves).observations = state.observations ↔
      AlreadyNoted now state targetState leaves := by
  rw [recordEach_eq, AlreadyNoted, ← noted_eq_self_iff, foldl_flatMap]

/-- With succeeding plugins the fan-out agrees with the single-target path
exactly when it is refused or its writes were recorded already: a fan-out that
succeeds on every member records nothing. -/
theorem collection_records_iff (platform : Platform) (plugins : PluginManager) (now : ℕ)
    (state : DaemonState) (id : Option CollectionId) (leaves : List TargetId)
    (targetState : TargetState) (policy : UnsupportedPolicy)
    (hplugins : ∀ target operation, plugins target operation = .ok ())
    (hkind : ∀ values, targetState ≠ .appearanceSlots values) :
    let outcome := applyCollectionMutation platform plugins state id leaves targetState policy
    let supported := leaves.filter (isSupported platform state targetState)
    (outcome.1 = .ok () →
        RecordsLikeSingleTarget platform plugins now state leaves targetState outcome.2) ↔
      (∃ error, prepareCollectionMutation platform state leaves targetState policy =
          .error error) ∨
        AlreadyDesired state.topology state.targetState
            (admittedEntries platform state (supported.map (⟨·, targetState⟩))) ∧
          AlreadyNoted now state targetState supported ∧
          ∀ leaf ∈ supported,
            (newestEntry state.topology state.targetState leaf).map (·.state) =
              some targetState := by
  intro outcome supported
  cases hp : prepareCollectionMutation platform state leaves targetState policy with
  | error error =>
    have ho : outcome = (.error error, state) := by
      simp only [outcome, applyCollectionMutation, attempt, hp]
    refine iff_of_true (fun hok => ?_) (.inl ⟨error, rfl⟩)
    rw [ho] at hok
    cases hok
  | ok members =>
    have hm : members = supported := prepareCollectionMutation_ok hp
    have hv : ∀ member ∈ members,
        validateTargetState platform state member targetState = .ok () := fun member hme =>
      isSupported_iff.1 (mem_filter.1 (hm ▸ hme)).2
    have ho : outcome = (.ok (), state) := by
      simp only [outcome, applyCollectionMutation, attempt, hp]
      exact applyMembers_of_valid hplugins [] hv
    have hr : singleTargetRun platform plugins now state leaves targetState = _ :=
      foldl_applySingleTarget hplugins hkind fun _ hl => isSupported_iff.1 (mem_filter.1 hl).2
    rw [ho, ← recordEach_targetState_eq_self_iff,
      ← recordEach_observations_eq_self_iff,
      ← hr]
    simp only [reduceCtorEq, exists_false, false_or, forall_const]
    exact ⟨fun h => ⟨h.desired.symm, h.observed.symm, h.newest⟩,
      fun h => ⟨h.1.symm, h.2.1.symm, h.2.2⟩⟩

section

open Sample

/-- The clear of a cleared key has nothing to record. -/
theorem cleared_key_records_alike :
    let plugins : PluginManager := fun _ _ => .ok ()
    let state : DaemonState := { topology := topology, targetState := [⟨element, .clear⟩] }
    RecordsLikeSingleTarget platform plugins 0 state [element] .clear
      (applyCollectionMutation platform plugins state none [element] .clear .skip).2 :=
  (collection_records_iff platform (fun _ _ => .ok ()) 0 _ none [element] .clear .skip
    (fun _ _ => rfl) (by simp)).2
    (.inr ⟨⟨[], by decide +kernel, by simp⟩, fun _ _ _ _ _ => rfl, by decide +kernel⟩)
    (by decide +kernel)

namespace Counterexample

/-- The fan-out turns the keyboard red and returns `Ok`, yet desires nothing. -/
theorem red_keyboard_not_recorded :
    let plugins : PluginManager := fun _ _ => .ok ()
    let outcome := applyCollectionMutation platform plugins { topology := topology } none [device]
      (.effect red) .reject
    outcome.1 = .ok () ∧ outcome.2.targetState = [] ∧
      (singleTargetRun platform plugins 0 { topology := topology } [device]
        (.effect red)).targetState = [⟨device, .effect red⟩] ∧
      ¬ RecordsLikeSingleTarget platform plugins 0 { topology := topology } [device] (.effect red)
        outcome.2 := by
  refine ⟨by decide +kernel, by decide +kernel, by decide +kernel, fun h => ?_⟩
  exact absurd h.desired (by decide +kernel)

end Counterexample

end

end CollectionMutation
