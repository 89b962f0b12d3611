import Luminate.CollectionGraph
import Luminate.CollectionMutation

/-! # Applying scenes

`validate_scene_bindings` of `state/scene.rs` and `apply_scene` of
`daemon/dispatch/scenes.rs`: bindings are sorted by their rendered target,
expanded in four passes, applied, and committed one operation at a time. -/
namespace SceneApplication

open Checks DeviceModel TargetTopology DaemonModel Validation DesiredState SceneCapture
  PersistedSnapshot CollectionMutation CollectionGraph List

section

variable (platform : Platform) (plugins : PluginManager) (now : ℕ) (state : DaemonState)

def validateDynamicBinding (binding : SceneBinding) (collection : CollectionId) :
    Except DaemonError Unit := do
  let leaves ← resolveCollectionLeaves state collection
  ensure (leaves.contains binding.target) (.invalidArgument binding.target
    ("target is not a current member of dynamic collection " ++ collection))

def validateBoundState (binding : SceneBinding) : Except DaemonError Unit := do
  let target := binding.target
  let bound := binding.state
  ensureTargetExists state target
  checkAll (fun effect => validateTargetState platform state target (.effect effect))
    bound.appearance.toList
  checkAll (fun value => validateTargetState platform state target (.brightness value))
    bound.brightness.toList
  checkAll (fun _ => validateTargetState platform state target (.effect .off)) bound.emission.toList
  checkAll (fun values => validateTargetState platform state target (.appearanceSlots values))
    bound.appearanceSlots.toList
  checkAll (validateDynamicBinding state binding) binding.dynamicCollection.toList

def validateSceneBindings (scene : Scene) : Except DaemonError Unit := do
  (validateScene platform scene).mapError .invalidScene
  checkAll (validateBoundState platform state) scene.bindings

abbrev BoundTarget := TargetId × SceneTargetState

def bindingApplies (binding : SceneBinding) : Bool :=
  match binding.dynamicCollection with
  | none => true
  | some collection =>
    match resolveCollectionLeaves state collection with
    | .ok leaves => leaves.contains binding.target
    | .error _ => false

def sortTargets (targets : List BoundTarget) : List BoundTarget :=
  targets.insertionSort fun a b => targetDebug platform a.1 ≤ targetDebug platform b.1

def bound (binding : SceneBinding) : BoundTarget := (binding.target, binding.state)

def sceneTargets (scene : Scene) : List BoundTarget :=
  sortTargets platform <| (scene.bindings.filter fun binding =>
    bindingApplies state binding &&
      (capabilitiesForTarget state.topology binding.target).isSome).map bound

def slotsOperation (b : BoundTarget) : Option TargetState :=
  b.2.appearanceSlots.map .appearanceSlots

def appearanceOperation (b : BoundTarget) : Option TargetState := b.2.appearance.map .effect

def brightnessOperation (b : BoundTarget) : Option TargetState := b.2.brightness.map .brightness

/-- Turning emission on reapplies the retained appearance. -/
def emissionOperation (b : BoundTarget) : Option TargetState :=
  match b.2.emission with
  | some .dark => some (.effect .off)
  | some .emitting => b.2.appearance.map .effect
  | none => none

def pass (operation : BoundTarget → Option TargetState) (targets : List BoundTarget) :
    List TargetStateEntry := targets.filterMap fun b => (operation b).map fun state => ⟨b.1, state⟩

def buildOperations (targets : List BoundTarget) : List TargetStateEntry :=
  pass slotsOperation targets ++ (pass appearanceOperation targets ++
    (pass brightnessOperation targets ++ pass emissionOperation targets))

/-- Validates an operation; slot values are replaced by the resolved ones. -/
def validateOperation (entry : TargetStateEntry) : Except DaemonError TargetStateEntry :=
  match entry.state with
  | .appearanceSlots values => do
    let resolved ← validateAppearanceSlotValues platform state entry.target values
    return ⟨entry.target, .appearanceSlots resolved⟩
  | _ => do
    validateTargetState platform state entry.target entry.state
    return entry

def resolveOperation (entry : TargetStateEntry) :
    Except DaemonError (TargetId × PluginUpdateOperation) :=
  match entry.state with
  | .effect (.static colour) => do
    let resolved ← resolveColour platform state entry.target colour
    return (entry.target, .setEffect (.static resolved))
  | .effect effect => .ok (entry.target, .setEffect effect)
  | .brightness value => .ok (entry.target, .setBrightness value)
  | .appearanceSlots values => .ok (entry.target, .setAppearanceSlots values)
  | .clear => .ok (entry.target, .clear)

def commitOperation (entry : TargetStateEntry) : Outcome :=
  match entry.state with
  | .effect effect => setEffect platform now state entry.target effect
  | .brightness value => setBrightness platform now state entry.target value
  | .appearanceSlots values => setAppearanceSlots platform now state entry.target values
  | .clear => clearTarget platform now state entry.target

structure Commits where
  appliedTargets : List TargetId := []
  failures : List (TargetId × DaemonError) := []

/-- The loop of `commit_operation_outcomes`; a commit that is refused ends it. -/
def commitLoop (platform : Platform) (now : ℕ) (state : DaemonState) (commits : Commits) :
    List (TargetStateEntry × Except DaemonError Unit) → Except DaemonError Commits × DaemonState
  | [] => (.ok commits, state)
  | (entry, .error error) :: rest =>
    commitLoop platform now state
      { commits with failures := commits.failures ++ [(entry.target, error)] } rest
  | (entry, .ok _) :: rest =>
    match commitOperation platform now state entry with
    | (.error error, refused) => (.error error, refused)
    | (.ok _, committed) =>
      let appliedTargets := if entry.target ∈ commits.appliedTargets then commits.appliedTargets
        else commits.appliedTargets ++ [entry.target]
      commitLoop platform now committed { commits with appliedTargets := appliedTargets } rest

def commitResult (commits : Commits) : Except DaemonError Unit :=
  match commits.failures, commits.appliedTargets with
  | [], _ => .ok ()
  | (_, error) :: _, [] => .error error
  | failures, applied => .error (.partialMutation
      ("scene applied updates to " ++ toString applied.length ++ " target(s), but " ++
        toString failures.length ++ " operation(s) failed: " ++
        String.intercalate "; " (failures.map fun failure =>
          targetDebug platform failure.1 ++ ": " ++ errorText platform failure.2)) applied)

def commitOperationOutcomes (operations : List TargetStateEntry)
    (outcomes : List (Except DaemonError Unit)) : Outcome :=
  let (commits, committed) := commitLoop platform now state {} (operations.zip outcomes)
  (commits >>= commitResult platform, committed)

def applyOperations (operations : List TargetStateEntry) : Outcome :=
  attempt state (operations.mapM (resolveOperation platform state)) fun resolved =>
    commitOperationOutcomes platform now state operations
      (resolved.map fun operation => plugins operation.1 operation.2)

/-- `apply_scene` for a stored scene; `authorized` are the leaves the caller may
write. -/
def applyScene (authorized : TargetId → Bool) (state : DaemonState) (scene : Scene) : Outcome :=
  let targets := (sceneTargets platform state scene).filter fun b => authorized b.1
  attempt state ((buildOperations targets).mapM (validateOperation platform state))
    (applyOperations platform plugins now state)

def committedEntry (entry : TargetStateEntry) : TargetStateEntry :=
  match entry.state with
  | .appearanceSlots values => ⟨entry.target, .appearanceSlots
      (values.foldl updateSlotValue (knownAppearanceSlotValues state entry.target))⟩
  | _ => entry

end

structure Records (state : DaemonState) (entry : TargetStateEntry) (after : DaemonState) :
    Prop where
  topology : after.topology = state.topology
  baseline : after.adoptedBaseline = state.adoptedBaseline
  desired : after.targetState =
    OverlayLog.insert (supersedes state.topology) state.targetState entry

inductive Committed (platform : Platform) (now : ℕ) :
    DaemonState → List TargetStateEntry → DaemonState → Prop where
  | nil (state) : Committed platform now state [] state
  | cons {state next after entry rest} :
      commitOperation platform now state entry = (.ok (), next) →
      Committed platform now next rest after → Committed platform now state (entry :: rest) after

section

variable {now : ℕ} {b : BoundTarget} {targets : List BoundTarget} {sc : Scene}
  {after s : DaemonState} {p : Platform} {t : TargetId} {en : TargetStateEntry}

theorem recordApply_ok (h : recordApply p now s t tst = (.ok (), after)) :
    Records s ⟨t, tst⟩ after := by
  simp only [recordApply, insertTargetStateChecked, attempt] at h
  split at h
  · split at h
    · obtain rfl := (Prod.mk.inj h).2
      exact ⟨rfl, rfl, insertTargetState_targetState _ ⟨t, tst⟩⟩
    · simp at h
  · simp at h

theorem commitOperation_ok (h : commitOperation p now s en = (.ok (), after)) :
    Records s (committedEntry s en) after := by
  obtain ⟨t, tst⟩ := en
  cases tst <;> exact recordApply_ok h

theorem commitLoop_ok (h : commitLoop p now s commits pairs = (.ok result, after))
    (hr : result.failures = []) :
    commits.failures = [] ∧ Committed p now s (pairs.map Prod.fst) after := by
  induction pairs generalizing s commits with
  | nil =>
    obtain ⟨hc, rfl⟩ := Prod.mk.inj h
    exact ⟨Except.ok.inj hc ▸ hr, .nil _⟩
  | cons pair rest ih =>
    obtain ⟨en, outcome⟩ := pair
    cases outcome with
    | error e =>
      have hf := (ih h).1
      simp at hf
    | ok _ =>
      simp only [commitLoop] at h
      split at h
      · simp at h
      · next committed hco =>
        obtain ⟨hf, hre⟩ := ih h
        exact ⟨hf, .cons hco hre⟩

theorem commitResult_ok (h : commitResult p commits = .ok ()) : commits.failures = [] := by
  rw [commitResult] at h
  split at h
  · assumption
  · simp at h
  · simp at h

theorem commitOperationOutcomes_ok (hl : operations.length ≤ outcomes.length)
    (h : commitOperationOutcomes p now s operations outcomes = (.ok (), after)) :
    Committed p now s operations after := by
  obtain ⟨hok, rfl⟩ := Prod.mk.inj h
  obtain ⟨result, hr, hok⟩ := bind_ok_iff.1 hok
  have hc := (commitLoop_ok (Prod.ext hr rfl) (commitResult_ok hok)).2
  rwa [map_fst_zip hl] at hc

theorem targetCovers_surface {a b : TargetId} (ha : isSurface a = true)
    (hb : isSurface b = true) (hne : a ≠ b) : targetCovers topo a b = false := by
  cases a with
  | surface d s =>
    cases b with
    | surface d' s' =>
      refine Bool.eq_false_iff.2 fun hc => hne ?_
      obtain ⟨rfl, hs⟩ := (covers_surface_iff (by simp)).1 hc
      rw [← Option.some.inj hs]
      rfl
    | _ => cases hb
  | _ => cases ha

theorem foldl_at_target {α : Type} (update : α → TargetStateEntry → α) (start : α)
    (entries : List TargetStateEntry) :
    entries.foldl (fun acc en => if en.target = t then update acc en else acc) start =
      (entries.filter fun en => en.target = t).foldl update start := by
  rw [foldl_filter]
  simp

theorem filter_insert_of_ne (hne : en.target ≠ t) (hc : targetCovers topo en.target t = false) :
    (OverlayLog.insert (supersedes topo) entries en).filter
        (fun e => e.target = t) = entries.filter fun e => e.target = t := by
  rw [OverlayLog.insert, filter_append, filter_filter]
  have hn : [en].filter (fun e => e.target = t) = [] := by simp [hne]
  rw [hn, append_nil]
  refine filter_congr fun old _ => ?_
  by_cases ho : old.target = t
  · simp [ho, supersedes, hc]
  · simp [ho]

theorem knownAppearanceSlotValues_records (h : Records s en after) (he : isSurface en.target = true)
    (ht : isSurface t = true) (hne : en.target ≠ t) :
    knownAppearanceSlotValues after t = knownAppearanceSlotValues s t := by
  simp [knownAppearanceSlotValues, foldl_at_target, h.baseline, h.desired,
    filter_insert_of_ne hne (targetCovers_surface he ht hne)]

/-- A slot write comes only after writes to other surfaces. -/
def SlotsFirst (entries : List TargetStateEntry) : Prop :=
  entries.Pairwise fun earlier later => ∀ values, later.state = .appearanceSlots values →
    isSurface earlier.target = true ∧ isSurface later.target = true ∧
      earlier.target ≠ later.target

theorem committedEntry_records (h : Records s (committedEntry s en) after)
    (hl : ∀ vs, later.state = .appearanceSlots vs →
      isSurface en.target = true ∧ isSurface later.target = true ∧ en.target ≠ later.target) :
    committedEntry after later = committedEntry s later := by
  have ht : (committedEntry s en).target = en.target := by
    rw [committedEntry]
    split <;> rfl
  obtain ⟨t, tst⟩ := later
  cases tst with
  | appearanceSlots vs =>
    obtain ⟨he, hs, hne⟩ := hl vs rfl
    simp only [committedEntry]
    rw [knownAppearanceSlotValues_records h (ht ▸ he) hs (ht ▸ hne)]
  | _ => rfl

theorem Committed.records {entries : List TargetStateEntry} (h : Committed p now s entries after)
    (hs : SlotsFirst entries) :
    after.topology = s.topology ∧ after.adoptedBaseline = s.adoptedBaseline ∧
      after.targetState = (entries.map (committedEntry s)).foldl
        (OverlayLog.insert (supersedes s.topology)) s.targetState := by
  induction h with
  | nil => exact ⟨rfl, rfl, rfl⟩
  | @cons s next after en rest hc _ ih =>
    have hr := commitOperation_ok hc
    obtain ⟨hl, hre⟩ := pairwise_cons.1 hs
    obtain ⟨ht, hba, hd⟩ := ih hre
    have hm : rest.map (committedEntry next) = rest.map (committedEntry s) :=
      map_congr_left fun later hme => committedEntry_records hr (hl later hme)
    refine ⟨ht.trans hr.topology, hba.trans hr.baseline, ?_⟩
    rw [hd, hm, hr.topology, hr.desired]
    rfl

/-- What the last binding that covers `target` and speaks about a facet says. -/
def lastCovering {α : Type} (topology : Topology) (target : TargetId)
    (facet : BoundTarget → Option α) (targets : List BoundTarget) : Option α :=
  targets.reverse.findSome? fun b => if targetCovers topology b.1 target then facet b else none

section

variable (platform : Platform) (state : DaemonState) (target : TargetId)

/-- The last covering binding, facet by facet, when bindings say `said`. -/
def lastSaid (topology : Topology) (target : TargetId) (said : BoundTarget → SceneTargetState)
    (targets : List BoundTarget) : SceneTargetState where
  appearance := lastCovering topology target (fun b => (said b).appearance) targets
  brightness := lastCovering topology target (fun b => (said b).brightness) targets
  emission := lastCovering topology target (fun b => (said b).emission) targets
  appearanceSlots := lastCovering topology target (fun b => (said b).appearanceSlots) targets

def resolvedSlots (values : List AppearanceSlotValue) : List AppearanceSlotValue :=
  (validateAppearanceSlotValues platform state target values).toOption.getD values

/-- A binding's slot values, merged into what its target is known to have. -/
def slotsSaid (b : BoundTarget) : SceneTargetState where
  appearanceSlots := b.2.appearanceSlots.map fun values =>
    (resolvedSlots platform state b.1 values).foldl updateSlotValue
      (knownAppearanceSlotValues state b.1)

/-- Writing an appearance lights its target. -/
def appearanceSaid (b : BoundTarget) : SceneTargetState where
  appearance := b.2.appearance
  emission := b.2.appearance.map fun _ => .emitting

/-- Brightness zero darkens its target. -/
def brightnessSaid (b : BoundTarget) : SceneTargetState where
  brightness := b.2.brightness
  emission := if b.2.brightness = some 0 then some .dark else none

/-- Lighting a target writes its appearance again. -/
def emissionSaid (b : BoundTarget) : SceneTargetState where
  appearance := if b.2.emission = some .emitting then b.2.appearance else none
  emission := b.2.emission

def layOver (upper lower : SceneTargetState) : SceneTargetState where
  appearance := upper.appearance.or lower.appearance
  brightness := upper.brightness.or lower.brightness
  emission := upper.emission.or lower.emission
  appearanceSlots := upper.appearanceSlots.or lower.appearanceSlots

/-- The four passes laid over what the target had before, the last on top. -/
def sceneOverlay (targets : List BoundTarget) (target : TargetId) : SceneTargetState :=
  let layer said := lastSaid state.topology target said targets
  layOver (layer emissionSaid) (layOver (layer brightnessSaid) (layOver (layer appearanceSaid)
    (layOver (layer (slotsSaid platform state)) (composedTargetState state target))))

end

def WellFormed (targets : List BoundTarget) : Prop :=
  ∀ b ∈ targets, b.2.appearance ≠ some .off ∧
    (b.2.emission = some .emitting → b.2.appearance.isSome = true)

/-- A facet that says nothing writes nothing. -/
def spoken : (f : CapturedFacet) → f.Value → Option f.Value
  | .appearance, value => Option.map some value
  | .brightness, value => Option.map some value
  | .emission, value => Option.map some value
  | .appearanceSlots, value => Option.map some value

theorem facetOf_layOver :
    facetOf (layOver upper lower) f = (spoken f (facetOf upper f)).getD (facetOf lower f) := by
  obtain ⟨app, br, emission, slots⟩ := upper
  cases f with
  | appearance => cases app <;> rfl
  | brightness => cases br <;> rfl
  | emission => cases emission <;> rfl
  | appearanceSlots => cases slots <;> rfl

section

variable (topo : Topology) (t : TargetId)

theorem lastWrite_facet {α : Type} (f : CapturedFacet) (v : α → f.Value)
    {fc : BoundTarget → Option α}
    (h : ∀ b ∈ ts, ((op b).bind fun s => desiredWrite s f) = (fc b).map v) :
    OverlayLog.lastWrite (entryWrite topo) t f (pass op ts) =
      (lastCovering topo t fc ts).map v := by
  rw [pass, OverlayLog.lastWrite_filterMap, lastCovering, map_findSome?,
    ← head?_filterMap, ← head?_filterMap]
  congr 1
  refine filterMap_congr fun b hb => ?_
  have hb := h b (mem_reverse.1 hb)
  simp only [Option.bind_map, Function.comp_def, entryWrite]
  split
  · exact hb
  · simp

/-- A pass whose operations write what its bindings say leaves, at every target,
what the last covering binding says. -/
theorem lastWrite_pass {said : BoundTarget → SceneTargetState}
    (h : ∀ b ∈ ts, ∀ f, ((op b).bind fun s => desiredWrite s f) =
      spoken f (facetOf (said b) f)) (f : CapturedFacet) :
    OverlayLog.lastWrite (entryWrite topo) t f (pass op ts) =
      spoken f (facetOf (lastSaid topo t said ts) f) := by
  cases f with
  | appearance => exact lastWrite_facet _ _ .appearance some fun b hb => h b hb .appearance
  | brightness => exact lastWrite_facet _ _ .brightness some fun b hb => h b hb .brightness
  | emission => exact lastWrite_facet _ _ .emission some fun b hb => h b hb .emission
  | appearanceSlots =>
    exact lastWrite_facet _ _ .appearanceSlots some fun b hb => h b hb .appearanceSlots

end

section

variable (platform : Platform) (state : DaemonState)

def mergedSlotsOperation (b : BoundTarget) :
    Option TargetState := (slotsSaid platform state b).appearanceSlots.map .appearanceSlots

theorem slots_written (p : Platform) (s : DaemonState) (b : BoundTarget) (f : CapturedFacet) :
    ((mergedSlotsOperation p s b).bind fun s => desiredWrite s f) =
      spoken f (facetOf (slotsSaid p s b) f) := by
  rw [mergedSlotsOperation, slotsSaid]
  cases b.2.appearanceSlots <;> cases f <;> rfl

theorem brightness_written (b : BoundTarget) (f : CapturedFacet) :
    ((brightnessOperation b).bind fun s => desiredWrite s f) =
      spoken f (facetOf (brightnessSaid b) f) := by
  rw [brightnessOperation, brightnessSaid]
  cases b.2.brightness with
  | none => cases f <;> rfl
  | some v => cases v <;> cases f <;> rfl

theorem appearance_written (h : b.2.appearance ≠ some .off) (f : CapturedFacet) :
    ((appearanceOperation b).bind fun s => desiredWrite s f) =
      spoken f (facetOf (appearanceSaid b) f) := by
  rw [appearanceOperation, appearanceSaid]
  cases ha : b.2.appearance with
  | none => cases f <;> rfl
  | some eff =>
    cases eff with
    | off => exact absurd ha h
    | _ => cases f <;> rfl

theorem emission_written (h : b.2.appearance ≠ some .off)
    (hl : b.2.emission = some .emitting → b.2.appearance.isSome = true) (f : CapturedFacet) :
    ((emissionOperation b).bind fun s => desiredWrite s f) =
      spoken f (facetOf (emissionSaid b) f) := by
  rw [emissionOperation, emissionSaid]
  cases he : b.2.emission with
  | none => cases f <;> rfl
  | some emission =>
    cases emission with
    | dark => cases f <;> rfl
    | emitting =>
      obtain ⟨eff, ha⟩ := Option.isSome_iff_exists.1 (hl he)
      rw [ha] at h ⊢
      cases eff with
      | off => exact absurd rfl h
      | _ => cases f <;> rfl

def finalEntries (targets : List BoundTarget) : List TargetStateEntry :=
  pass (mergedSlotsOperation platform state) targets ++ (pass appearanceOperation targets ++
    (pass brightnessOperation targets ++ pass emissionOperation targets))

theorem composed_eq_sceneOverlay (hwf : WellFormed targets) (ht : after.topology = s.topology)
    (hba : after.adoptedBaseline = s.adoptedBaseline)
    (hd : after.targetState = (finalEntries p s targets).foldl
      (OverlayLog.insert (supersedes s.topology)) s.targetState) (t : TargetId) :
    composedTargetState after t = sceneOverlay p s targets t := by
  apply facetOf_injective
  funext f
  have hs := lastWrite_pass s.topology t (fun b (_ : b ∈ targets) => slots_written p s b) f
  have ha := lastWrite_pass s.topology t (fun b hb => appearance_written (hwf b hb).1) f
  have hbr := lastWrite_pass s.topology t (fun b (_ : b ∈ targets) => brightness_written b) f
  have he := lastWrite_pass s.topology t (fun b hb => emission_written (hwf b hb).1 (hwf b hb).2) f
  rw [composedTargetState, facetOf_composeDesired, OverlayLog.replay_eq_lastWrite, ht,
    hba, hd, OverlayLog.lastWrite_foldl_insert (supersedes_sound s.topology),
    finalEntries, OverlayLog.lastWrite_append, OverlayLog.lastWrite_append,
    OverlayLog.lastWrite_append, hs, ha, hbr, he]
  simp only [sceneOverlay, facetOf_layOver, Option.getD_or]
  rw [composedTargetState, facetOf_composeDesired, OverlayLog.replay_eq_lastWrite]

theorem attempt_ok {α : Type} {check : Except DaemonError α}
    {next : α → Outcome} (h : attempt s check next = (.ok (), after)) :
    ∃ v, check = .ok v ∧ next v = (.ok (), after) := by
  cases check with
  | ok v => exact ⟨v, rfl, h⟩
  | error e => simp [attempt] at h

def resolvedEntry (entry : TargetStateEntry) : TargetStateEntry :=
  match entry.state with
  | .appearanceSlots values =>
    ⟨entry.target, .appearanceSlots (resolvedSlots platform state entry.target values)⟩
  | _ => entry

theorem validateOperation_ok (en resolved : TargetStateEntry)
    (h : validateOperation p s en = .ok resolved) : resolved = resolvedEntry p s en := by
  obtain ⟨t, tst⟩ := en
  cases tst with
  | appearanceSlots vs =>
    obtain ⟨slots, hs, h⟩ := bind_ok_iff.1 (show (_ >>= _) = _ from h)
    rw [← Except.ok.inj h]
    simp [resolvedEntry, resolvedSlots, hs, Except.toOption]
  | _ =>
    obtain ⟨-, h⟩ := then_ok_iff.1 (show (_ >>= _) = _ from h)
    exact (Except.ok.inj h).symm

theorem map_pass (h : ∀ b, (op b).map (fun s => g ⟨b.1, s⟩) = (op' b).map fun s => ⟨b.1, s⟩) :
    (pass op targets).map g = pass op' targets := by
  rw [pass, map_filterMap]
  refine filterMap_congr fun b _ => ?_
  rw [Option.map_map]
  exact h b

theorem map_buildOperations :
    ((buildOperations targets).map (resolvedEntry p s)).map (committedEntry s) =
      finalEntries p s targets := by
  have hs : (pass slotsOperation targets).map (committedEntry s ∘ resolvedEntry p s) =
      pass (mergedSlotsOperation p s) targets := by
    refine map_pass fun b => ?_
    rw [slotsOperation, mergedSlotsOperation, slotsSaid]
    cases b.2.appearanceSlots <;> rfl
  have ha : (pass appearanceOperation targets).map
      (committedEntry s ∘ resolvedEntry p s) = pass appearanceOperation targets := by
    refine map_pass fun b => ?_
    rw [appearanceOperation]
    cases b.2.appearance <;> rfl
  have hbr : (pass brightnessOperation targets).map
      (committedEntry s ∘ resolvedEntry p s) = pass brightnessOperation targets := by
    refine map_pass fun b => ?_
    rw [brightnessOperation]
    cases b.2.brightness <;> rfl
  have he : (pass emissionOperation targets).map
      (committedEntry s ∘ resolvedEntry p s) = pass emissionOperation targets := by
    refine map_pass fun b => ?_
    rw [emissionOperation]
    split
    · rfl
    · cases b.2.appearance <;> rfl
    · rfl
  rw [map_map]
  simp [buildOperations, finalEntries, hs, ha, hbr, he]

theorem resolvedEntry_slots (h : (resolvedEntry p s en).state = .appearanceSlots vs) :
    ∃ given, en.state = .appearanceSlots given := by
  rw [resolvedEntry] at h
  split at h
  · next given hg => exact ⟨given, hg⟩
  · exact ⟨vs, h⟩

theorem isSurface_of_validated (h : validateOperation p s ⟨t, .appearanceSlots vs⟩ = .ok resolved) :
    isSurface t = true := by
  obtain ⟨slots, hs, -⟩ := bind_ok_iff.1 (show (_ >>= _) = _ from h)
  rw [validateAppearanceSlotValues, then_ok_iff, ensure_ok_iff] at hs
  exact hs.1

theorem mem_later_passes (h : en ∈ pass appearanceOperation targets ++
      (pass brightnessOperation targets ++ pass emissionOperation targets))
    (vs : List AppearanceSlotValue) : en.state ≠ .appearanceSlots vs := by
  simp only [mem_append, pass, mem_filterMap, Option.map_eq_some_iff] at h
  rcases h with ⟨b, _, s, hb, rfl⟩ | ⟨b, _, s, hb, rfl⟩ | ⟨b, _, s, hb, rfl⟩
  · obtain ⟨_, _, rfl⟩ := Option.map_eq_some_iff.1 hb
    simp
  · obtain ⟨_, _, rfl⟩ := Option.map_eq_some_iff.1 hb
    simp
  · rw [emissionOperation] at hb
    split at hb
    · cases hb
      simp
    · obtain ⟨_, _, rfl⟩ := Option.map_eq_some_iff.1 hb
      simp
    · cases hb

theorem slotsFirst_buildOperations
    (hd : targets.Pairwise fun a b => a.1 ≠ b.1) (hv : ∀ en ∈ buildOperations targets,
      ∃ resolved, validateOperation p s en = .ok resolved) :
    SlotsFirst ((buildOperations targets).map (resolvedEntry p s)) := by
  have hta : ∀ en, (resolvedEntry p s en).target = en.target := by
    intro en
    rw [resolvedEntry]
    split <;> rfl
  simp only [SlotsFirst, pairwise_map, hta]
  have hsu : ∀ en ∈ pass slotsOperation targets, isSurface en.target = true := by
    intro en hen
    obtain ⟨resolved, hr⟩ := hv en (mem_append_left _ hen)
    simp only [pass, slotsOperation, mem_filterMap, Option.map_map, Option.map_eq_some_iff] at hen
    obtain ⟨b, _, vs, _, rfl⟩ := hen
    exact isSurface_of_validated hr
  have hl : ∀ en ∈ pass appearanceOperation targets ++
      (pass brightnessOperation targets ++ pass emissionOperation targets),
      ∀ vs, (resolvedEntry p s en).state ≠ .appearanceSlots vs := by
    intro en hen vs hs
    obtain ⟨given, hg⟩ := resolvedEntry_slots hs
    exact mem_later_passes hen given hg
  have hs : (pass slotsOperation targets).Pairwise fun e f => e.target ≠ f.target := by
    rw [pass, pairwise_filterMap]
    refine hd.imp fun hne e he f hf => ?_
    obtain ⟨_, _, rfl⟩ := Option.map_eq_some_iff.1 he
    obtain ⟨_, _, rfl⟩ := Option.map_eq_some_iff.1 hf
    exact hne
  refine pairwise_append.2 ⟨?_, ?_, ?_⟩
  · exact hs.imp_of_mem fun he hf hne _ _ => ⟨hsu _ he, hsu _ hf, hne⟩
  · exact pairwise_of_forall_mem_list fun _ _ f hf vs h => absurd h (hl f hf vs)
  · exact fun _ _ f hf vs h => absurd h (hl f hf vs)

theorem applyScene_ok {ps : PluginManager}
    (hd : (sceneTargets p s sc).Pairwise fun a b => a.1 ≠ b.1)
    (h : applyScene p ps now (fun _ => true) s sc = (.ok (), after)) :
    after.topology = s.topology ∧ after.adoptedBaseline = s.adoptedBaseline ∧
      after.targetState = (finalEntries p s (sceneTargets p s sc)).foldl
        (OverlayLog.insert (supersedes s.topology)) s.targetState := by
  have ha : (sceneTargets p s sc).filter (fun _ => true) =
      sceneTargets p s sc := filter_eq_self.2 fun _ _ => rfl
  simp only [applyScene, ha] at h
  obtain ⟨operations, hv, h⟩ := attempt_ok h
  have ho := mapM_ok_eq_map validateOperation_ok hv
  obtain ⟨resolved, hr, h⟩ := attempt_ok h
  have hl : operations.length ≤ (resolved.map fun op => ps op.1 op.2).length := by
    rw [length_map, mapM_ok_length hr]
  have hc := commitOperationOutcomes_ok hl h
  have hs : SlotsFirst operations := by
    rw [ho]
    exact slotsFirst_buildOperations hd (mapM_ok_of_mem hv)
  obtain ⟨ht, hba, hde⟩ := hc.records hs
  refine ⟨ht, hba, ?_⟩
  rw [hde, ho, map_buildOperations]

theorem validateBindingTargets_ok (h : validateBindingTargets seen bs = .ok ()) :
    (∀ b ∈ bs, validateSceneTargetState b.state = .ok () ∧ b.target ∉ seen) ∧
      bs.Pairwise fun a b => a.target ≠ b.target := by
  induction bs generalizing seen with
  | nil => exact ⟨by simp, List.Pairwise.nil⟩
  | cons bd rest ih =>
    rw [validateBindingTargets, then_ok_iff, then_ok_iff] at h
    obtain ⟨hs, hf, hr⟩ := h
    obtain ⟨ha, hp⟩ := ih hr
    refine ⟨forall_mem_cons.2 ⟨⟨hs, by simpa using hf⟩, fun b hb => ?_⟩,
      pairwise_cons.2 ⟨fun b hb heq => ?_, hp⟩⟩
    · exact ⟨(ha b hb).1, fun hm => (ha b hb).2 (mem_cons_of_mem _ hm)⟩
    · exact (ha b hb).2 (heq ▸ mem_cons_self)

theorem validateSceneTargetState_ok {s : SceneTargetState}
    (h : validateSceneTargetState s = .ok ()) :
    s.appearance ≠ some .off ∧ (s.emission = some .emitting → s.appearance.isSome = true) := by
  simp only [validateSceneTargetState, then_ok_iff, ensure_ok_iff] at h
  obtain ⟨-, ho, -, -, hl, -⟩ := h
  refine ⟨by simpa using ho, fun he => ?_⟩
  simpa [he] using hl

theorem bindingApplies_of_valid (h : validateBoundState p s bd = .ok ()) :
    bindingApplies s bd = true ∧ (capabilitiesForTarget s.topology bd.target).isSome = true := by
  simp only [validateBoundState, then_ok_iff, ensureTargetExists, ensure_ok_iff,
    checkAll_ok_iff] at h
  obtain ⟨he, -, -, -, -, hd⟩ := h
  refine ⟨?_, he⟩
  rw [bindingApplies]
  split
  · rfl
  · next c hc =>
    obtain ⟨leaves, hl, hm⟩ := bind_ok_iff.1 (show (_ >>= _) = _ from hd c (by simp [hc]))
    rw [hl]
    exact ensure_ok_iff.1 hm

def sortedBindings (scene : Scene) : List BoundTarget :=
  sortTargets platform (scene.bindings.map bound)

theorem mem_sortedBindings : b ∈ sortedBindings p sc ↔ ∃ bd ∈ sc.bindings, bound bd = b := by
  rw [sortedBindings, sortTargets, mem_insertionSort, mem_map]

/-- An accepted scene applies every binding, to distinct targets. -/
structure Accepted (platform : Platform) (state : DaemonState) (scene : Scene) : Prop where
  targets : sceneTargets platform state scene = sortedBindings platform scene
  distinct : (sortedBindings platform scene).Pairwise fun a b => a.1 ≠ b.1
  wellFormed : WellFormed (sortedBindings platform scene)

theorem validateSceneBindings_ok (h : validateSceneBindings p s sc = .ok ()) : Accepted p s sc := by
  rw [validateSceneBindings, then_ok_iff, checkAll_ok_iff] at h
  obtain ⟨hs, hbo⟩ := h
  have hs : validateScene p sc = .ok () := by
    cases hv : validateScene p sc with
    | ok _ => rfl
    | error _ => simp [hv, Except.mapError] at hs
  simp only [validateScene, then_ok_iff] at hs
  obtain ⟨hal, hp⟩ := validateBindingTargets_ok hs.2.2.2
  refine ⟨?_, ?_, ?_⟩
  · rw [sceneTargets, sortedBindings, filter_eq_self.2]
    intro bd hbi
    obtain ⟨ha, he⟩ := bindingApplies_of_valid (hbo bd hbi)
    simp [ha, he]
  · have hm : (sc.bindings.map bound).Pairwise fun a b => a.1 ≠ b.1 := by
      rw [pairwise_map]
      exact hp
    exact (perm_insertionSort _ _).symm.pairwise hm fun hne => hne.symm
  · intro b hb
    obtain ⟨bd, hbi, rfl⟩ := mem_sortedBindings.1 hb
    exact validateSceneTargetState_ok (hal bd hbi).1

/-- Capturing `target` again agrees with what was bound to it. -/
def Establishes (target : TargetId) (bound : SceneTargetState) : Prop :=
  ∃ captured, captureTargetState state target = .ok captured ∧
    (∀ effect ∈ bound.appearance, captured.appearance = some effect) ∧
    (∀ value ∈ bound.brightness, captured.brightness = some value) ∧
    ∀ emission ∈ bound.emission, captured.emission = some emission

end

/-- The last covering bindings say what `target`'s own binding says, and what
they leave on it can be captured. -/
structure Prevails (platform : Platform) (state : DaemonState) (targets : List BoundTarget)
    (target : TargetId) (bound : SceneTargetState) : Prop where
  appearance : ∀ effect ∈ bound.appearance,
    ((lastSaid state.topology target emissionSaid targets).appearance.or
      (lastSaid state.topology target appearanceSaid targets).appearance) = some effect
  brightness : ∀ value ∈ bound.brightness,
    (lastSaid state.topology target brightnessSaid targets).brightness = some value
  emission : ∀ emission ∈ bound.emission,
    (lastSaid state.topology target emissionSaid targets).emission = some emission
  valid : validateSceneTargetState (sceneOverlay platform state targets target) = .ok ()
  complete : slotsComplete (capabilitiesForTarget state.topology target)
    (sceneOverlay platform state targets target) = true

theorem lastCovering_none {α : Type} :
    lastCovering topo t (fun _ => (none : Option α)) targets = none := by
  simp [lastCovering]

theorem lastCovering_isSome {α : Type} {f : BoundTarget → Option α}
    (hb : b ∈ targets) (hf : (f b).isSome = true) :
    (lastCovering topo b.1 f targets).isSome = true := by
  rw [lastCovering, findSome?_isSome_iff]
  exact ⟨b, mem_reverse.2 hb, by simp [hf]⟩

section

variable {p : Platform} {s : DaemonState} {ts : List BoundTarget}
  {t : TargetId} {said : SceneTargetState} (hb : (t, said) ∈ ts)
include hb

theorem overlay_appearance (h : said.appearance.isSome = true) :
    (sceneOverlay p s ts t).appearance = (lastSaid s.topology t emissionSaid ts).appearance.or
        (lastSaid s.topology t appearanceSaid ts).appearance := by
  have hso : (lastSaid s.topology t appearanceSaid ts).appearance.isSome = true :=
    lastCovering_isSome hb h
  have hs : (lastSaid s.topology t brightnessSaid ts).appearance = none := lastCovering_none ..
  simp [sceneOverlay, layOver, hs, Option.or_of_isSome hso]

theorem overlay_brightness (h : said.brightness.isSome = true) :
    (sceneOverlay p s ts t).brightness = (lastSaid s.topology t brightnessSaid ts).brightness := by
  have hso : (lastSaid s.topology t brightnessSaid ts).brightness.isSome = true :=
    lastCovering_isSome hb h
  have hs : (lastSaid s.topology t emissionSaid ts).brightness = none := lastCovering_none ..
  simp [sceneOverlay, layOver, hs, Option.or_of_isSome hso]

theorem overlay_emission (h : said.emission.isSome = true) : (sceneOverlay p s ts t).emission =
      (lastSaid s.topology t emissionSaid ts).emission := by
  have hs : (lastSaid s.topology t emissionSaid ts).emission.isSome = true :=
    lastCovering_isSome hb h
  simp only [sceneOverlay, layOver, Option.or_of_isSome hs]

end

theorem establishes_iff (hb : (t, said) ∈ targets) (ht : after.topology = s.topology)
    (hco : composedTargetState after t = sceneOverlay p s targets t) :
    Establishes after t said ↔ Prevails p s targets t said := by
  constructor
  · rintro ⟨cap, hca, ha, hbr, hem⟩
    obtain ⟨rfl, hva, hc⟩ := captureTargetState_ok_iff.1 hca
    rw [hco] at ha hbr hem hva hc
    refine ⟨fun eff he => ?_, fun v hv => ?_, fun emission he => ?_, hva, ht ▸ hc⟩
    · rw [← overlay_appearance hb (Option.isSome_of_mem he)]
      exact ha eff he
    · rw [← overlay_brightness hb (Option.isSome_of_mem hv)]
      exact hbr v hv
    · rw [← overlay_emission hb (Option.isSome_of_mem he)]
      exact hem emission he
  · intro h
    refine ⟨sceneOverlay p s targets t, captureTargetState_ok_iff.2 ⟨hco, h.valid, ht ▸ h.complete⟩,
      fun eff he => ?_, fun v hv => ?_, fun emission he => ?_⟩
    · rw [overlay_appearance hb (Option.isSome_of_mem he)]
      exact h.appearance eff he
    · rw [overlay_brightness hb (Option.isSome_of_mem hv)]
      exact h.brightness v hv
    · rw [overlay_emission hb (Option.isSome_of_mem he)]
      exact h.emission emission he

end

/-- An applied scene is established exactly when, for every bound target, the
last covering bindings in application order say what its own binding says and
the result can be captured. -/
theorem scene_established_iff (platform : Platform) (plugins : PluginManager) (now : ℕ)
    (state after : DaemonState) (scene : Scene)
    (haccepted : validateSceneBindings platform state scene = .ok ())
    (happlied : applyScene platform plugins now (fun _ => true) state scene = (.ok (), after)) :
    (∀ binding ∈ scene.bindings, Establishes after binding.target binding.state) ↔
      ∀ binding ∈ scene.bindings, Prevails platform state (sortedBindings platform scene)
        binding.target binding.state := by
  have hs := validateSceneBindings_ok haccepted
  have hd := hs.distinct
  rw [← hs.targets] at hd
  obtain ⟨ht, hba, hde⟩ := applyScene_ok hd happlied
  rw [hs.targets] at hde
  have hc := composed_eq_sceneOverlay hs.wellFormed ht hba hde
  refine forall₂_congr fun binding hbi => ?_
  have hm : (binding.target, binding.state) ∈ sortedBindings platform scene :=
    mem_sortedBindings.2 ⟨binding, hbi, rfl⟩
  exact establishes_iff hm ht (hc binding.target)

def litIn (effect : Effect) : SceneTargetState where
  appearance := some effect
  brightness := some 9
  emission := some .emitting

def sceneOf (bindings : List SceneBinding) : Scene where
  id := "evening"
  revision := 1
  name := "evening"
  description := none
  owner := .uid 1000
  bindings := bindings

open Sample in
/-- The key is applied after the keyboard it lies on. -/
theorem keyboard_under_escape_established :
    let scene := sceneOf [.frozen element (litIn blue), .frozen device (litIn red)]
    let result := applyScene platform (fun _ _ => .ok ()) 0 (fun _ => true)
      { topology := topology } scene
    ∀ binding ∈ scene.bindings, Establishes result.2 binding.target binding.state := by
  intro scene result
  -- One evaluation for both facts: the kernel shares what they have in common.
  have hr : validateSceneBindings platform { topology := topology } scene = .ok () ∧
      result.1 = .ok () := by decide +kernel
  apply (scene_established_iff platform (fun _ _ => .ok ()) 0 { topology := topology }
    result.2 scene hr.1 ?_).2
  · have hs : sortedBindings platform scene =
        [(device, litIn red), (element, litIn blue)] := by decide +kernel
    rw [hs]
    intro binding hbi
    simp only [scene, sceneOf, mem_cons, not_mem_nil, or_false] at hbi
    rcases hbi with rfl | rfl <;>
      exact ⟨by decide +kernel, by decide +kernel, by decide +kernel, by decide +kernel,
        by decide +kernel⟩
  · exact Eq.trans (Prod.eta result).symm (congrArg (·, result.2) hr.2)

namespace Counterexample

open Sample

/-- A red key on a blue surface: the surface sorts after its keys, so it is
written last and the key is blue. -/
theorem escape_key_painted_over :
    let scene := sceneOf [.frozen surface (litIn blue), .frozen element (litIn red)]
    let state : DaemonState := { topology := topology }
    let result := applyScene platform (fun _ _ => .ok ()) 0 (fun _ => true) state scene
    validateSceneBindings platform state scene = .ok () ∧ result.1 = .ok () ∧
      captureTargetState result.2 element = .ok (litIn blue) ∧
      ¬ Establishes result.2 element (litIn red) := by
  intro scene state result
  have hr : validateSceneBindings platform state scene = .ok () ∧ result.1 = .ok () ∧
      captureTargetState result.2 element = .ok (litIn blue) := by decide +kernel
  obtain ⟨hac, hap, hc⟩ := hr
  refine ⟨hac, hap, hc, ?_⟩
  rintro ⟨captured, hca, ha, -⟩
  cases hc.symm.trans hca
  exact absurd (ha red rfl) (by decide)

end Counterexample

end SceneApplication
