import Luminate.SceneCapture
import Mathlib.Data.List.TakeWhile

/-! # Capturing after any control history

`capture_target_state` folds emission and brightness separately and then checks them
against each other. A history is compared with what the target shows after it: the light
is off, or at brightness zero, or on. -/
namespace CaptureHistory

open Checks DeviceModel TargetTopology DaemonModel Validation DesiredState SceneCapture List

def covering (topology : Topology) (target : TargetId) (history : List TargetStateEntry) :
    List TargetState :=
  (history.filter fun entry => targetCovers topology entry.target target).reverse.map (·.state)

def sinceClear (newest : List TargetState) : List TargetState :=
  newest.takeWhile fun operation => operation ≠ .clear

def lastEffect : List TargetState → Option Effect
  | [] => none
  | .effect effect :: _ => some effect
  | _ :: older => lastEffect older

def lastLevel : List TargetState → Option ℕ
  | [] => none
  | .brightness value :: _ => some value
  | _ :: older => lastLevel older

def levelsSinceEffect : List TargetState → List ℕ
  | .brightness value :: older => value :: levelsSinceEffect older
  | _ => []

/-- What the target shows: whether it was turned off, and its brightness. -/
structure Shown where
  off : Bool := false
  brightness : Option ℕ := none

def Shown.apply (shown : Shown) : TargetState → Shown
  | .effect .off => { shown with off := true }
  | .effect _ => { shown with off := false }
  | .brightness value => { shown with brightness := some value }
  | .appearanceSlots _ => shown
  | .clear => {}

def Shown.dark (shown : Shown) : Bool := shown.off || shown.brightness = some 0

def shownAfter (newest : List TargetState) : Shown :=
  newest.foldr (fun operation shown => shown.apply operation) {}

/-- Unless the light was turned off last: a level zero is not followed by another level
with no effect between them, and a lit effect does not come last after a level zero. -/
def Settled (newest : List TargetState) : Prop :=
  lastEffect newest = some .off ∨
    ((0 ∈ levelsSinceEffect newest → lastLevel newest = some 0) ∧
      (levelsSinceEffect newest = [] → lastLevel newest ≠ some 0))

def CapturedAsShown (state : DaemonState) (target : TargetId) (newest : List TargetState) :
    Prop :=
  ∃ captured, captureTargetState state target = .ok captured ∧
    (captured.emission = some .dark ↔ (shownAfter newest).dark = true)

def composed (newest : List TargetState) : SceneTargetState :=
  newest.foldr (fun operation captured => applyDesired captured operation) {}

theorem foldr_sinceClear {α : Type} (f : TargetState → α → α) (initial : α)
    (hc : ∀ a, f .clear a = initial) :
    (sinceClear newest).foldr f initial = newest.foldr f initial := by
  induction newest with
  | nil => rfl
  | cons op older ih =>
    by_cases h : op = .clear
    · subst h
      exact (hc _).symm
    · have hk : sinceClear (op :: older) = op :: sinceClear older := by simp [sinceClear, h]
      rw [hk, foldr_cons, foldr_cons, ih]

theorem composed_sinceClear :
    composed (sinceClear newest) = composed newest := foldr_sinceClear _ _ (fun _ => rfl)

theorem shownAfter_sinceClear :
    shownAfter (sinceClear newest) = shownAfter newest := foldr_sinceClear _ _ (fun _ => rfl)

def Plain (newest : List TargetState) : Prop :=
  ∀ operation ∈ newest, (∃ effect, operation = .effect effect) ∨
    ∃ value, operation = .brightness value

def composedEmission (newest : List TargetState) : Option EmissionState :=
  if 0 ∈ levelsSinceEffect newest then some .dark
  else (lastEffect newest).map fun effect => if effect = .off then .dark else .emitting

structure Facets (newest : List TargetState) (captured : SceneTargetState) : Prop where
  brightness : captured.brightness = lastLevel newest
  emission : captured.emission = composedEmission newest
  slots : captured.appearanceSlots = none
  appearance : captured.appearance ≠ some .off
  lit : ∀ effect, lastEffect newest = some effect → effect ≠ .off →
    captured.appearance = some effect

theorem composed_facets (h : Plain newest) : Facets newest (composed newest) := by
  induction newest with
  | nil => exact ⟨rfl, rfl, rfl, by simp [composed], by simp [lastEffect]⟩
  | cons op older ih =>
    have ho := ih fun other hot => h other (mem_cons_of_mem _ hot)
    rw [composed, foldr_cons, ← composed]
    rcases h op mem_cons_self with ⟨eff, rfl⟩ | ⟨v, rfl⟩
    · by_cases hof : eff = .off
      · subst hof
        exact ⟨ho.brightness, rfl, ho.slots, ho.appearance, by simp [lastEffect]⟩
      · have ha : applyDesired (composed older) (.effect eff) =
            { composed older with appearance := some eff, emission := some .emitting } := by
          cases eff <;> first | rfl | exact absurd rfl hof
        rw [ha]
        refine ⟨ho.brightness, ?_, ho.slots, by simpa using hof, ?_⟩
        · simp [composedEmission, levelsSinceEffect, lastEffect, hof]
        · rintro fd hf -
          exact hf
    · refine ⟨rfl, ?_, ho.slots, ho.appearance, ho.lit⟩
      change (if v = 0 then some EmissionState.dark else (composed older).emission) = _
      rw [ho.emission, composedEmission, composedEmission]
      by_cases hz : v = 0
      · simp [hz, levelsSinceEffect]
      · have hne : ¬ 0 = v := fun hv => hz hv.symm
        simp [hz, hne, levelsSinceEffect, lastEffect]

theorem shownAfter_plain (h : Plain newest) :
    (shownAfter newest).off = decide (lastEffect newest = some .off) ∧
      (shownAfter newest).brightness = lastLevel newest := by
  induction newest with
  | nil => exact ⟨rfl, rfl⟩
  | cons op older ih =>
    have ho := ih fun other hot => h other (mem_cons_of_mem _ hot)
    rw [shownAfter, foldr_cons]
    rcases h op mem_cons_self with ⟨eff, rfl⟩ | ⟨v, rfl⟩
    · cases eff <;> exact ⟨by simp [Shown.apply, lastEffect], ho.2⟩
    · exact ⟨ho.1, rfl⟩

theorem validate_ok_iff (hs : cap.appearanceSlots = none) (ha : cap.appearance ≠ some .off) :
    validateSceneTargetState cap = .ok () ↔
      (cap.appearance.isSome || cap.brightness.isSome || cap.emission.isSome) = true ∧
      (cap.emission = some .emitting → cap.appearance.isSome = true ∧ cap.brightness ≠ some 0) := by
  simp only [validateSceneTargetState, then_ok_iff, ensure_ok_iff, hs, Option.isSome_none,
    Bool.or_false, Option.getD_none, validateSlots]
  simp [ha]
  tauto

theorem composedEmission_emitting_iff : composedEmission newest = some .emitting ↔
      0 ∉ levelsSinceEffect newest ∧ ∃ eff, lastEffect newest = some eff ∧ eff ≠ .off := by
  rw [composedEmission]
  by_cases hz : 0 ∈ levelsSinceEffect newest
  · simp [hz]
  · cases lastEffect newest with
    | none => simp [hz]
    | some eff => by_cases ho : eff = .off <;> simp [hz, ho]

theorem composedEmission_dark_iff : composedEmission newest = some .dark ↔
      0 ∈ levelsSinceEffect newest ∨ lastEffect newest = some .off := by
  rw [composedEmission]
  by_cases hz : 0 ∈ levelsSinceEffect newest
  · simp [hz]
  · cases lastEffect newest with
    | none => simp [hz]
    | some eff => by_cases ho : eff = .off <;> simp [hz, ho]

theorem sets_facet (h : Plain newest) (hne : newest ≠ []) :
    (lastLevel newest).isSome = true ∨ (composedEmission newest).isSome = true := by
  cases newest with
  | nil => exact absurd rfl hne
  | cons op older =>
    rcases h op mem_cons_self with ⟨eff, rfl⟩ | ⟨v, rfl⟩
    · exact .inr (by simp [composedEmission, levelsSinceEffect, lastEffect])
    · exact .inl rfl

/-- Emitting needs an appearance, which the last lit effect gave: only a level of zero is
left for the validator to refuse. -/
theorem validate_composed (h : Plain newest) (hne : newest ≠ []) :
    validateSceneTargetState (composed newest) = .ok () ↔
      (composedEmission newest = some .emitting → lastLevel newest ≠ some 0) := by
  have hf := composed_facets h
  rw [validate_ok_iff hf.slots hf.appearance, hf.brightness, hf.emission]
  have hs : ((composed newest).appearance.isSome || (lastLevel newest).isSome ||
      (composedEmission newest).isSome) = true := by
    rcases sets_facet h hne with hl | hem
    · simp [hl]
    · simp [hem]
  constructor
  · intro hv he
    exact (hv.2 he).2
  · intro hl
    refine ⟨hs, fun he => ⟨?_, hl he⟩⟩
    obtain ⟨-, eff, hef, hli⟩ := composedEmission_emitting_iff.1 he
    rw [hf.lit eff hef hli]
    rfl

theorem lastLevel_of_levels (h : levelsSinceEffect newest = v :: rest) :
    lastLevel newest = some v := by
  cases newest with
  | nil => cases h
  | cons op older =>
    cases op with
    | brightness level =>
      have hh := (List.cons.inj h).1
      rw [lastLevel, hh]
    | effect eff => cases h
    | appearanceSlots vs => cases h
    | clear => cases h

theorem lastEffect_of_no_levels (h : Plain newest) (hne : newest ≠ [])
    (hl : levelsSinceEffect newest = []) : ∃ eff, lastEffect newest = some eff := by
  cases newest with
  | nil => exact absurd rfl hne
  | cons op older =>
    rcases h op mem_cons_self with ⟨eff, rfl⟩ | ⟨v, rfl⟩
    · exact ⟨eff, rfl⟩
    · cases hl

theorem shownAfter_dark_iff (h : Plain newest) : (shownAfter newest).dark = true ↔
      lastEffect newest = some .off ∨ lastLevel newest = some 0 := by
  obtain ⟨ho, hl⟩ := shownAfter_plain h
  simp [Shown.dark, ho, hl]

theorem accepted_as_shown_iff (h : Plain newest) (hne : newest ≠ []) :
    (validateSceneTargetState (composed newest) = .ok () ∧
      ((composed newest).emission = some .dark ↔ (shownAfter newest).dark = true)) ↔
        Settled newest := by
  rw [validate_composed h hne, (composed_facets h).emission, shownAfter_dark_iff h,
    composedEmission_emitting_iff, composedEmission_dark_iff, Settled]
  by_cases ho : lastEffect newest = some .off
  · simp [ho]
  simp only [ho, or_false, false_or]
  cases hl : levelsSinceEffect newest with
  | nil =>
    -- the newest operation is a lit effect, so the target emits
    obtain ⟨eff, he⟩ := lastEffect_of_no_levels h hne hl
    have hli : eff ≠ .off := fun heq => ho (heq ▸ he)
    simp [he, hli]
  | cons v rest =>
    have hla := lastLevel_of_levels hl
    rw [hla]
    by_cases hz : v = 0
    · simp [hz]
    · simp [hz]

theorem slotsComplete_of_no_slots (h : cap.appearanceSlots = none) :
    slotsComplete caps cap = slotsComplete caps {} := by
  simp only [slotsComplete, h]

theorem plain_sinceClear (h : ∀ op ∈ newest, ∀ vs, op ≠ .appearanceSlots vs) :
    Plain (sinceClear newest) := by
  intro op hm
  have hne : op ≠ .clear := by simpa using mem_takeWhile_imp hm
  cases op with
  | effect eff => exact .inl ⟨eff, rfl⟩
  | brightness v => exact .inr ⟨v, rfl⟩
  | appearanceSlots vs => exact absurd rfl (h _ ((takeWhile_sublist _).mem hm) vs)
  | clear => exact absurd rfl hne

/-- After any insertions, with an empty baseline, no slots and some operation that reaches the
target since the last `Clear` did: the capture succeeds and is dark exactly if the target is
dark, exactly if the operations are settled and the target needs no slots captured. -/
theorem captured_as_shown_iff (state : DaemonState) (target : TargetId)
    (history : List TargetStateEntry) (hbaseline : state.adoptedBaseline = [])
    (hslots : ∀ operation ∈ covering state.topology target history,
      ∀ values, operation ≠ .appearanceSlots values)
    (hsince : sinceClear (covering state.topology target history) ≠ []) :
    CapturedAsShown (insertAll { state with targetState := [] } history) target
        (covering state.topology target history) ↔
      Settled (sinceClear (covering state.topology target history)) ∧
        slotsComplete (capabilitiesForTarget state.topology target) {} = true := by
  have hco : composedTargetState (insertAll { state with targetState := [] } history) target =
      composed (sinceClear (covering state.topology target history)) := by
    rw [composed_compaction_invisible, composedTargetState, hbaseline, composed_sinceClear]
    rw [composeDesired, composed, covering, foldr_map, foldr_reverse, foldl_filter]
    rfl
  have ht : (insertAll { state with targetState := [] } history).topology = state.topology := by
    rw [insertAll_eq]
  have hp := plain_sinceClear hslots
  rw [← accepted_as_shown_iff hp hsince, shownAfter_sinceClear,
    ← slotsComplete_of_no_slots (composed_facets hp).slots, CapturedAsShown]
  simp only [captureTargetState_ok_iff, hco, ht]
  constructor
  · rintro ⟨captured, ⟨rfl, hv, hc⟩, hd⟩
    exact ⟨⟨hv, hd⟩, hc⟩
  · rintro ⟨⟨hv, hd⟩, hc⟩
    exact ⟨_, ⟨rfl, hv, hc⟩, hd⟩

namespace Sample

open DesiredState.Sample

def state : DaemonState where
  topology := topology

/-- The keys are dimmed to nothing, one of them is lit, and the keyboard is brightened. -/
def settled : List TargetStateEntry :=
  [⟨surface, .brightness 0⟩, ⟨element, .effect red⟩, ⟨device, .brightness 7⟩]

/-- A level of zero, and a light or another level after it. -/
def litAtZero : List TargetStateEntry := [⟨surface, .brightness 0⟩, ⟨surface, .effect red⟩]

def brightened : List TargetStateEntry :=
  [⟨surface, .effect red⟩, ⟨surface, .brightness 0⟩, ⟨surface, .brightness 50⟩]

end Sample

open Sample DesiredState.Sample in
theorem brightened_key_captured : CapturedAsShown
    (insertAll { Sample.state with targetState := [] } settled) element
    (covering topology element settled) := by
  have hc : covering topology element settled =
      [.brightness 7, .effect red, .brightness 0] := by decide +kernel
  refine (captured_as_shown_iff Sample.state element settled rfl ?_ (by decide +kernel)).2
    ⟨.inr (by decide +kernel), by decide +kernel⟩
  change ∀ operation ∈ covering topology element settled, _
  simp [hc]

namespace Counterexample

open Sample DesiredState.Sample

/-- Every operation is valid. Lighting a surface at level zero makes the capture fail, and a
surface brightened again is still captured dark. -/
theorem capture_not_as_shown : (∀ entry ∈ litAtZero ++ brightened,
      validateTargetState platform Sample.state entry.target entry.state = .ok ()) ∧
    captureTargetState (insertAll Sample.state litAtZero) surface = .error (.unknownState surface) ∧
    captureTargetState (insertAll Sample.state brightened) surface =
      .ok { appearance := some red, brightness := some 50, emission := some .dark } ∧
    (shownAfter (covering topology surface brightened)).dark = false := by
  refine ⟨?_, ?_, ?_, ?_⟩ <;> decide +kernel

end Counterexample

end CaptureHistory
