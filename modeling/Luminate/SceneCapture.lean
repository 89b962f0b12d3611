import Luminate.DesiredState

/-! # Capturing intended state

`capture_target_state` of `state/scene.rs` folds the adopted baseline and the
desired overlays that cover a target. Seen per facet the fold is an overlay-log
replay, so compacting the desired list cannot be observed through it. -/
namespace SceneCapture

open Checks DeviceModel TargetTopology DaemonModel DesiredState List

section

variable (topology : Topology) (state : DaemonState) (target : TargetId)
  (captured : SceneTargetState)

def applyFacet : FacetValue → SceneTargetState
  | .appearance (.static colour) => { captured with appearance := some (.static colour) }
  | .appearance (.effect effect) => { captured with appearance := some effect }
  | .appearance .mixed => captured
  | .physicalPower _ => captured
  | .effectiveAppearance _ => captured
  | .brightness value => { captured with brightness := some value }
  | .emission value => { captured with emission := some value }
  | .appearanceSlots slots => { captured with appearanceSlots := some slots.values }

def applyDesired : TargetState → SceneTargetState
  | .effect .off => { captured with emission := some .dark }
  | .effect effect => { captured with appearance := some effect, emission := some .emitting }
  | .brightness value =>
    { captured with
      brightness := some value
      emission := if value = 0 then some .dark else captured.emission }
  | .appearanceSlots values => { captured with appearanceSlots := some values }
  | .clear => {}

def composeBaseline (baseline : List AdoptedFacet) : SceneTargetState :=
  baseline.foldl (fun captured facet =>
    if targetCovers topology facet.target target then applyFacet captured facet.value
    else captured) captured

def composeDesired (entries : List TargetStateEntry) : SceneTargetState :=
  entries.foldl (fun captured entry =>
    if targetCovers topology entry.target target then applyDesired captured entry.state
    else captured) captured

def composedTargetState : SceneTargetState :=
  composeDesired state.topology target
    (composeBaseline state.topology target {} state.adoptedBaseline) state.targetState

def validateSlots (seen : List AppearanceSlotId) :
    List AppearanceSlotValue → Except SceneValidationError Unit
  | [] => .ok ()
  | value :: rest => do
    ensure (value.slot ∉ seen) (.duplicateAppearanceSlot value.slot)
    validateSlots (value.slot :: seen) rest

def validateSceneTargetState (state : SceneTargetState) : Except SceneValidationError Unit := do
  ensure (state.appearance.isSome || state.brightness.isSome || state.emission.isSome ||
    state.appearanceSlots.isSome) .emptyTargetState
  ensure (state.appearance ≠ some .off) .offAppearance
  ensure (state.appearanceSlots ≠ some []) .emptyAppearanceSlots
  validateSlots [] (state.appearanceSlots.getD [])
  ensure (!(state.emission = some .emitting && state.appearance.isNone))
    .emittingWithoutAppearance
  ensure (!(state.emission = some .emitting && state.brightness = some 0))
    .emittingAtZeroBrightness

/-- A target whose slots must be written together needs all of them captured. -/
def slotsComplete (capabilities : Option CapabilitySet) (captured : SceneTargetState) : Bool :=
  match capabilities.bind (·.appearanceSlots) with
  | some capability =>
    capability.updatePolicy ≠ .completeSet ||
      (captured.appearanceSlots.getD []).length = capability.slots.length
  | none => true

def captureTargetState : Except DaemonError SceneTargetState :=
  let captured := composedTargetState state target
  match validateSceneTargetState captured with
  | .error _ => .error (.unknownState target)
  | .ok _ =>
    if slotsComplete (capabilitiesForTarget state.topology target) captured then .ok captured
    else .error (.unknownState target)

end

theorem captureTargetState_ok_iff : captureTargetState state target = .ok cap ↔
      composedTargetState state target = cap ∧ validateSceneTargetState cap = .ok () ∧
        slotsComplete (capabilitiesForTarget state.topology target) cap = true := by
  simp only [captureTargetState]
  cases hv : validateSceneTargetState (composedTargetState state target) with
  | error _ =>
    apply iff_of_false (by simp)
    rintro ⟨rfl, hok, -⟩
    simp [hv] at hok
  | ok _ =>
    dsimp only
    constructor
    · intro h
      split at h
      · next hc =>
        cases h
        exact ⟨rfl, hv, hc⟩
      · simp at h
    · rintro ⟨rfl, -, hc⟩
      simp [hc]

inductive CapturedFacet where
  | appearance | brightness | emission | appearanceSlots
  deriving DecidableEq

def CapturedFacet.Value : CapturedFacet → Type
  | .appearance => Option Effect
  | .brightness => Option ℕ
  | .emission => Option EmissionState
  | .appearanceSlots => Option (List AppearanceSlotValue)

def facetOf (captured : SceneTargetState) : (f : CapturedFacet) → f.Value
  | .appearance => captured.appearance
  | .brightness => captured.brightness
  | .emission => captured.emission
  | .appearanceSlots => captured.appearanceSlots

theorem facetOf_injective : Function.Injective facetOf := by
  intro a b h
  cases a
  cases b
  have ha := congrFun h .appearance
  have hb := congrFun h .brightness
  have he := congrFun h .emission
  have hs := congrFun h .appearanceSlots
  subst ha hb he hs
  rfl

/-- What a desired operation writes to each facet; `Clear` erases every one. -/
def desiredWrite : TargetState → (f : CapturedFacet) → Option f.Value
  | .effect .off, .emission => some (some EmissionState.dark)
  | .effect .off, _ => none
  | .effect effect, .appearance => some (some effect)
  | .effect _, .emission => some (some EmissionState.emitting)
  | .effect _, _ => none
  | .brightness value, .brightness => some (some value)
  | .brightness value, .emission => if value = 0 then some (some EmissionState.dark) else none
  | .brightness _, _ => none
  | .appearanceSlots values, .appearanceSlots => some (some values)
  | .appearanceSlots _, _ => none
  | .clear, .appearance => some none
  | .clear, .brightness => some none
  | .clear, .emission => some none
  | .clear, .appearanceSlots => some none

section

variable (topology : Topology) (state : TargetState) (caps : Option CapabilitySet)
  (f : CapturedFacet)

def entryWrite (entry : TargetStateEntry) (target : TargetId) (f : CapturedFacet) :
    Option f.Value :=
  if targetCovers topology entry.target target then desiredWrite entry.state f else none

theorem facetOf_applyDesired (state : TargetState) (f : CapturedFacet) :
    facetOf (applyDesired cap state) f = (desiredWrite state f).getD (facetOf cap f) := by
  cases state with
  | effect eff => cases eff <;> cases f <;> rfl
  | brightness v => cases v <;> cases f <;> rfl
  | appearanceSlots vs => cases f <;> rfl
  | clear => cases f <;> rfl

theorem facetOf_composeDesired (target : TargetId) (cap : SceneTargetState)
    (entries : List TargetStateEntry) : facetOf (composeDesired topology target cap entries) =
      OverlayLog.replay (entryWrite topology) target (facetOf cap) entries := by
  induction entries generalizing cap with
  | nil => rfl
  | cons entry rest ih =>
    rw [composeDesired, foldl_cons, ← composeDesired, ih]
    rw [OverlayLog.replay, OverlayLog.replay, foldl_cons]
    congr 1
    funext f
    rw [OverlayLog.overlay, entryWrite]
    split
    · exact facetOf_applyDesired entry.state f
    · rfl

def CapturedFacet.bit : CapturedFacet → TargetStateFacets
  | .appearance => appearanceBit
  | .brightness => brightnessBit
  | .emission => emissionBit
  | .appearanceSlots => appearanceSlotsBit

theorem mask_covered {a b m : UInt8} (h : a &&& ~~~b = 0) (hb : b &&& m = 0) : a &&& m = 0 := by
  have h1 := congrArg UInt8.toBitVec h
  have h2 := congrArg UInt8.toBitVec hb
  apply UInt8.toBitVec_inj.1
  ext i hi
  have e1 := congrArg (·[i]) h1
  have e2 := congrArg (·[i]) h2
  simp only [UInt8.toBitVec_and, UInt8.toBitVec_not, BitVec.getElem_and,
    BitVec.getElem_not] at e1 e2 ⊢
  cases ha : a.toBitVec[i] <;> cases hb : b.toBitVec[i] <;> simp_all

/-- The operations that masks and captured facets distinguish. -/
inductive Shape where
  | off | lit | brightness | zeroBrightness | slots | clear
  deriving DecidableEq

def shape : TargetState → Shape
  | .effect .off => .off
  | .effect _ => .lit
  | .brightness value => if value = 0 then .zeroBrightness else .brightness
  | .appearanceSlots _ => .slots
  | .clear => .clear

def Shape.facets (power : Bool) : Shape → TargetStateFacets
  | .off => emissionBit ||| if power then physicalPowerBit else 0
  | .lit => appearanceBit ||| emissionBit ||| if power then physicalPowerBit else 0
  | .brightness => brightnessBit ||| (if power then physicalPowerBit else 0) ||| 0
  | .zeroBrightness => brightnessBit ||| (if power then physicalPowerBit else 0) ||| emissionBit
  | .slots => appearanceSlotsBit
  | .clear => allFacets

def Shape.writes : Shape → CapturedFacet → Bool
  | .off, f => f = .emission
  | .lit, f => f = .appearance ∨ f = .emission
  | .brightness, f => f = .brightness
  | .zeroBrightness, f => f = .brightness ∨ f = .emission
  | .slots, f => f = .appearanceSlots
  | .clear, _ => true

theorem facets_eq_shape : facets state caps = (shape state).facets (hasPower caps) := by
  cases state with
  | effect eff => cases eff <;> rfl
  | brightness v => cases v <;> rfl
  | appearanceSlots vs => rfl
  | clear => rfl

theorem desiredWrite_isSome_eq_shape : (desiredWrite state f).isSome = (shape state).writes f := by
  cases state with
  | effect eff => cases eff <;> cases f <;> rfl
  | brightness v => cases v <;> cases f <;> rfl
  | appearanceSlots vs => cases f <;> rfl
  | clear => cases f <;> rfl

/-- An operation writes a facet exactly when its mask has the facet's bit,
whatever the power capabilities of the target. -/
theorem desiredWrite_isSome :
    (desiredWrite state f).isSome = (facets state caps &&& f.bit != 0) := by
  rw [facets_eq_shape, desiredWrite_isSome_eq_shape]
  generalize shape state = op
  generalize hasPower caps = power
  cases op <;> cases power <;> cases f <;> decide

theorem all_facets_bit : allFacets &&& f.bit ≠ 0 := by
  cases f <;> decide

/-- A superseding entry writes every facet the old one writes. -/
theorem supersedes_sound : OverlayLog.Sound (supersedes topology) (entryWrite topology) := by
  intro new old h target f ho
  simp only [supersedes, Bool.and_eq_true, Bool.or_eq_true, beq_iff_eq] at h
  obtain ⟨hco, hf⟩ := h
  unfold entryWrite at ho ⊢
  split at ho
  · next ht =>
    rw [if_pos (targetCovers_trans hco ht)]
    rw [desiredWrite_isSome _ (capabilitiesForTarget topology old.target), bne_iff_ne] at ho
    rw [desiredWrite_isSome _ (capabilitiesForTarget topology new.target), bne_iff_ne]
    rcases hf with ha | hc
    · rw [← entryFacets, ha]
      exact all_facets_bit f
    · simp only [isCoveredBy, beq_iff_eq] at hc
      exact fun hn => ho (mask_covered hc hn)
  · simp at ho

end

/-- Composing the compacted desired list gives the facets that the whole
insertion history gives, for every target and above every adopted baseline. -/
theorem composed_compaction_invisible (state : DaemonState) (history : List TargetStateEntry)
    (target : TargetId) :
    composedTargetState (insertAll { state with targetState := [] } history) target =
      composedTargetState { state with targetState := history } target := by
  apply facetOf_injective
  have hl := insertAll_targetState
    (show ({ state with targetState := [] } : DaemonState).targetState = [] from rfl) history
  simp only [composedTargetState, facetOf_composeDesired, hl]
  rw [insertAll_eq]
  exact OverlayLog.replay_compact (supersedes_sound state.topology) target _ history

open Sample in
/-- The key keeps its own colour under a brightness written to its surface. -/
example : composedTargetState (insertAll { topology := topology }
    [⟨element, .brightness 7⟩, ⟨element, .effect red⟩, ⟨surface, .brightness 9⟩]) element =
      { appearance := some red, brightness := some 9, emission := some .emitting } := by
  decide +kernel

end SceneCapture
