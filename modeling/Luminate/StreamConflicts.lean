import Luminate.SceneCapture
import Luminate.StreamExclusivity

/-! # Effects that conflict with a frame stream

`begin_frame_stream` refuses a target on which a hardware effect is active. The check
looks for any animated entry of the desired list that covers the target; what is shown
follows from the order of the entries that cover each part of it. -/
namespace StreamConflicts

open DeviceModel TargetTopology DaemonModel DesiredState SceneCapture FrameStreams List
  StreamExclusivity

def animates (effect : Effect) : Bool := runsInHardware (.effect effect)

/-- The appearance that the desired entries covering `part` leave, as
`capture_target_state` composes them. -/
def shown (s : DaemonState) (part : TargetId) : Option Effect :=
  (composeDesired s.topology part {} s.targetState).appearance

def AnimationShown (s : DaemonState) (target : TargetId) : Prop :=
  ∃ part, (part = target ∨ Includes s.topology target part) ∧
    (shown s part).any animates = true

def effectConflict (target : TargetId) : DaemonError :=
  .conflict target "an active hardware effect is not marked concurrent with streaming"

def ConflictReflectsShown (s : DaemonState) (target : TargetId) : Prop :=
  beginFrameStream s target = .error (effectConflict target) ↔ AnimationShown s target

def Initial (s : DaemonState) : Prop := s.targetState = []

def Step (s : DaemonState) (entry : TargetStateEntry) (t : DaemonState) : Prop :=
  t = insertTargetState s entry.target entry.state

/-- The operations that put an unanimated appearance in place of another. -/
def stills : TargetState → Bool
  | .effect (.static _) | .clear => true
  | _ => false

/-- An animated effect for a part of `target` only is inserted while one for the whole
of it is active; and an operation that stills the target supersedes the animated entries
that cover it. -/
def Guard (target : TargetId) (s : DaemonState) (entry : TargetStateEntry) : Prop :=
  (runsInHardware entry.state = true → targetCovers s.topology entry.target target = false →
    (∃ part, Includes s.topology target part ∧
      targetCovers s.topology entry.target part = true) → effectActive s target = true) ∧
  (stills entry.state = true → targetCovers s.topology entry.target target = true →
    ∀ old ∈ s.targetState, targetCovers s.topology old.target target = true →
      runsInHardware old.state = true → supersedes s.topology entry old = true)

theorem appearance_cases (state : TargetState) :
    (∃ eff, state = .effect eff ∧ animates eff = true ∧ runsInHardware state = true ∧
      stills state = false ∧ desiredWrite state .appearance = some (some eff)) ∨
    (runsInHardware state = false ∧ stills state = true ∧
      ∃ v : Option Effect, desiredWrite state .appearance = some v ∧ v.any animates = false) ∨
    (runsInHardware state = false ∧ stills state = false ∧
      desiredWrite state .appearance = none) := by
  cases state with
  | effect eff =>
    cases eff with
    | off => exact .inr (.inr ⟨rfl, rfl, rfl⟩)
    | static col => exact .inr (.inl ⟨rfl, rfl, _, rfl, rfl⟩)
    | _ => exact .inl ⟨_, rfl, rfl, rfl, rfl, rfl⟩
  | brightness | appearanceSlots => exact .inr (.inr ⟨rfl, rfl, rfl⟩)
  | clear => exact .inr (.inl ⟨rfl, rfl, none, rfl, rfl⟩)

variable {s : DaemonState} {entry : TargetStateEntry} {target part : TargetId}

theorem shown_eq : shown s part = (OverlayLog.lastWrite (entryWrite s.topology) part .appearance
      s.targetState).getD none := by
  have h := congrFun (facetOf_composeDesired s.topology part {} s.targetState) .appearance
  rw [OverlayLog.replay_eq_lastWrite] at h
  exact h

theorem shown_insert : shown (insertTargetState s entry.target entry.state) part =
      ((entryWrite s.topology entry part .appearance).getD (shown s part) : Option Effect) := by
  rw [shown_eq, shown_eq, insertTargetState_topology, insertTargetState_targetState,
    OverlayLog.lastWrite_insert (supersedes_sound s.topology)]
  cases entryWrite s.topology entry part .appearance <;> rfl

abbrev inserted (s : DaemonState) (entry : TargetStateEntry) : DaemonState :=
  insertTargetState s entry.target entry.state

theorem shown_of_uncovered (h : targetCovers s.topology entry.target part = false) :
    shown (inserted s entry) part = shown s part := by
  rw [shown_insert, entryWrite, if_neg (by simp [h])]
  rfl

theorem shown_of_kept (h : desiredWrite entry.state .appearance = none) :
    shown (inserted s entry) part = shown s part := by
  rw [shown_insert, entryWrite]
  split
  · rw [h]
    rfl
  · rfl

theorem shown_of_written (hc : targetCovers s.topology entry.target part = true)
    (h : desiredWrite entry.state .appearance = some v) : shown (inserted s entry) part = v := by
  rw [shown_insert, entryWrite, if_pos hc, h]
  rfl

theorem effectActive_iff : effectActive s target = true ↔
    ∃ old ∈ s.targetState, targetCovers s.topology old.target target = true ∧
      runsInHardware old.state = true := by
  simp [effectActive]

theorem active_inserted_iff : effectActive (inserted s entry) target = true ↔
    (targetCovers s.topology entry.target target = true ∧ runsInHardware entry.state = true) ∨
      ∃ old ∈ s.targetState, supersedes s.topology entry old = false ∧
        targetCovers s.topology old.target target = true ∧ runsInHardware old.state = true := by
  rw [effectActive_iff, insertTargetState_targetState]
  simp only [OverlayLog.insert, mem_append, mem_filter, mem_singleton, Bool.not_eq_true']
  constructor
  · rintro ⟨old, ⟨ho, hs⟩ | rfl, hc, ha⟩
    · exact .inr ⟨old, ho, hs, hc, ha⟩
    · exact .inl ⟨hc, ha⟩
  · rintro (⟨hc, ha⟩ | ⟨old, ho, hs, hc, ha⟩)
    · exact ⟨entry, .inr rfl, hc, ha⟩
    · exact ⟨old, .inl ⟨ho, hs⟩, hc, ha⟩

/-- Only an operation that writes the appearance of everything an animated entry covers
supersedes it. -/
theorem writes_of_supersedes (h : supersedes s.topology entry old = true)
    (ho : runsInHardware old.state = true) :
    targetCovers s.topology entry.target old.target = true ∧
      (desiredWrite entry.state .appearance).isSome = true := by
  have hw : (entryWrite s.topology old old.target .appearance).isSome = true := by
    obtain ⟨eff, -, -, -, -, hwr⟩ | ⟨hst, -⟩ | ⟨hk, -⟩ := appearance_cases old.state
    · rw [entryWrite, if_pos (targetCovers_refl _ _), hwr]
      rfl
    · simp [hst] at ho
    · simp [hk] at ho
  have hs := supersedes_sound s.topology entry old h old.target .appearance hw
  rw [entryWrite] at hs
  split at hs
  · next hc => exact ⟨hc, hs⟩
  · simp at hs

theorem active_inserted_of_unaffected (he : runsInHardware entry.state = false ∨
      targetCovers s.topology entry.target target = false)
    (h : targetCovers s.topology entry.target target = false ∨
      desiredWrite entry.state .appearance = none) :
    effectActive (inserted s entry) target = effectActive s target := by
  rw [Bool.eq_iff_iff, active_inserted_iff, effectActive_iff]
  constructor
  · rintro (⟨hc, ha⟩ | ⟨old, ho, -, hc, ha⟩)
    · rcases he with he | he
      · simp [he] at ha
      · simp [he] at hc
    · exact ⟨old, ho, hc, ha⟩
  · rintro ⟨old, ho, hc, ha⟩
    refine .inr ⟨old, ho, ?_, hc, ha⟩
    by_contra hs
    obtain ⟨hb, hw⟩ := writes_of_supersedes (by simpa using hs) ha
    rcases h with hu | hk
    · have := targetCovers_trans hb hc
      simp [hu] at this
    · simp [hk] at hw

/-- The check finds an animated entry exactly if the target itself shows an animated
effect, and no part of it shows one otherwise. -/
structure Invariant (target : TargetId) (s : DaemonState) : Prop where
  whole : effectActive s target = (shown s target).any animates
  parts : ∀ part, Includes s.topology target part → (shown s part).any animates = true →
    effectActive s target = true

theorem initial_invariant (h : Initial s) : Invariant target s := by
  have hs : ∀ part, shown s part = none := by
    intro part
    rw [shown, h]
    rfl
  constructor
  · rw [hs, effectActive, h]
    rfl
  · intro part _ hp
    simp [hs] at hp

theorem Invariant.animationShown_iff (h : Invariant target s) :
    effectActive s target = true ↔ AnimationShown s target := by
  constructor
  · intro ha
    exact ⟨target, .inl rfl, by rw [← h.whole, ha]⟩
  · rintro ⟨part, rfl | hp, hs⟩
    · rw [h.whole, hs]
    · exact h.parts part hp hs

theorem covers_part (hc : targetCovers s.topology entry.target target = true)
    (hp : part = target ∨ Includes s.topology target part) :
    targetCovers s.topology entry.target part = true := by
  rcases hp with rfl | hp
  · exact hc
  · exact targetCovers_trans hc hp.covers

theorem Invariant.insert_covering (h : Invariant target s)
    (hc : targetCovers s.topology entry.target target = true)
    (hg : Guard target s entry) : Invariant target (inserted s entry) := by
  obtain ⟨eff, -, hai, hr, -, hw⟩ | ⟨hr, hsi, v, hw, hst⟩ |
    ⟨hr, -, hw⟩ := appearance_cases entry.state
  · have ha : effectActive (inserted s entry) target = true := active_inserted_iff.2 (.inl ⟨hc, hr⟩)
    refine ⟨?_, fun _ _ _ => ha⟩
    rw [ha, shown_of_written hc hw]
    exact hai.symm
  · have ha : effectActive (inserted s entry) target = false := by
      rw [← Bool.not_eq_true, active_inserted_iff]
      rintro (⟨-, han⟩ | ⟨old, ho, hsu, ho', han⟩)
      · simp [hr] at han
      · simp [hg.2 hsi hc old ho ho' han] at hsu
    refine ⟨?_, fun part hp hs => ?_⟩
    · rw [ha, shown_of_written hc hw, hst]
    · rw [shown_of_written (covers_part hc (.inr hp)) hw, hst] at hs
      cases hs
  · have ha : effectActive (inserted s entry) target = effectActive s target :=
      active_inserted_of_unaffected (.inl hr) (.inr hw)
    refine ⟨?_, fun part hp hs => ?_⟩
    · rw [ha, shown_of_kept hw, h.whole]
    · rw [ha]
      rw [shown_of_kept hw] at hs
      exact h.parts part hp hs

theorem Invariant.insert_elsewhere (h : Invariant target s)
    (hu : targetCovers s.topology entry.target target = false)
    (hg : Guard target s entry) : Invariant target (inserted s entry) := by
  have ha : effectActive (inserted s entry) target = effectActive s target :=
    active_inserted_of_unaffected (.inr hu) (.inl hu)
  refine ⟨by rw [ha, shown_of_uncovered hu, h.whole], fun part hp hs => ?_⟩
  rw [ha]
  cases hc : targetCovers s.topology entry.target part with
  | false =>
    rw [shown_of_uncovered hc] at hs
    exact h.parts part hp hs
  | true =>
    obtain ⟨eff, -, -, hr, -, -⟩ | ⟨-, -, v, hw, hst⟩ | ⟨-, -, hw⟩ := appearance_cases entry.state
    · exact hg.1 hr hu ⟨part, hp, hc⟩
    · rw [shown_of_written hc hw, hst] at hs
      cases hs
    · rw [shown_of_kept hw] at hs
      exact h.parts part hp hs

theorem step_invariant (h : Invariant target s) (hg : Guard target s entry) (hs : Step s entry t) :
    Invariant target t := by
  rw [hs]
  cases hc : targetCovers s.topology entry.target target with
  | true => exact h.insert_covering hc hg
  | false => exact h.insert_elsewhere hc hg

/-- An insertion that breaks the guard is followed at once by a wrong answer. -/
theorem guard_of_agrees
    (h : effectActive (inserted s entry) target = true ↔ AnimationShown (inserted s entry) target) :
    Guard target s entry := by
  obtain ⟨eff, -, han, hr, hst, hw⟩ | ⟨hr, -, v, hw, hs⟩ |
    ⟨hr, hst, -⟩ := appearance_cases entry.state
  · refine ⟨fun _ hu hp => ?_, fun hs => by simp [hst] at hs⟩
    obtain ⟨part, hpa, hc⟩ := hp
    rw [← active_inserted_of_unaffected (.inr hu) (.inl hu), h]
    refine ⟨part, .inr hpa, ?_⟩
    rw [shown_of_written hc hw]
    exact han
  · refine ⟨fun ha => by simp [hr] at ha, ?_⟩
    intro _ hc old hod ho hol
    by_contra hsu
    have hac := active_inserted_iff.2 (.inr ⟨old, hod, by simpa using hsu, ho, hol⟩)
    obtain ⟨part, hpa, hsh⟩ := h.1 hac
    rw [shown_of_written (covers_part hc hpa) hw, hs] at hsh
    cases hsh
  · exact ⟨fun ha => by simp [hr] at ha, fun hs => by simp [hst] at hs⟩

theorem begin_conflicts_iff (hc : capabilitiesForTarget s.topology target = some caps)
    (hu : caps.frameUpload.isSome = true) (hi : s.frameStreams.lookup target = none)
    (hco : effectConcurrent caps = false) :
    beginFrameStream s target = .error (effectConflict target) ↔ effectActive s target = true := by
  have hf : Validation.capabilitiesForTargetOrError s target = .ok caps := by
    simp [Validation.capabilitiesForTargetOrError, hc]
  cases ha : effectActive s target <;>
    simp [beginFrameStream, hf, hu, hi, hco, ha, effectConflict, Checks.ensure, bind, Except.bind]

/-- In every run of insertions that meet the guard, a stream is refused for an effect
exactly if an animated effect is shown on the target or below it; and the next insertion
keeps this exactly if it meets the guard too. -/
theorem conflicts_reflect_shown (target : TargetId) (capabilities : CapabilitySet)
    (s : DaemonState) (hreach : Transition.Reachable Initial Step (Guard target) s)
    (hcapabilities : capabilitiesForTarget s.topology target = some capabilities)
    (hupload : capabilities.frameUpload.isSome = true) (hidle : s.frameStreams.lookup target = none)
    (hconcurrent : effectConcurrent capabilities = false) : ConflictReflectsShown s target ∧
      ∀ entry : TargetStateEntry,
        ConflictReflectsShown (insertTargetState s entry.target entry.state) target ↔
          Guard target s entry := by
  have hi : Invariant target s := hreach.holds (Invariant target)
    (fun _ h => initial_invariant h) fun _ _ _ h hg hs => step_invariant h hg hs
  refine ⟨?_, fun entry => ?_⟩
  · rw [ConflictReflectsShown, begin_conflicts_iff hcapabilities hupload hidle hconcurrent]
    exact hi.animationShown_iff
  · have hb : beginFrameStream (inserted s entry) target = .error (effectConflict target) ↔
        effectActive (inserted s entry) target = true :=
      begin_conflicts_iff hcapabilities hupload hidle hconcurrent
    rw [ConflictReflectsShown, hb]
    exact ⟨guard_of_agrees, fun hg =>
      (step_invariant hi hg rfl).animationShown_iff⟩

namespace Sample

def effects : CapabilitySet where
  colour := [.rgb8]
  hardwareEffects := some ⟨[⟨"breathe", [.colour 1 1]⟩], .surface, false⟩
  frameUpload := some ⟨.surface, .fullFrameOnly, none, true, false⟩

def lamp : Device where
  id := "lamp"
  surfaces := [⟨"ring", [⟨"top", effects⟩], effects⟩]
  capabilities := effects

def wholeLamp : TargetId := .device "lamp"

def ring : TargetId := .surface "lamp" "ring"

def top : TargetId := .element "lamp" "ring" "top"

def breathing : TargetState := .effect (.breathe ⟨255, 0, 0⟩ 1000)

def reddened : TargetState := .effect (.static (.rgb ⟨255, 0, 0⟩))

def dark : DaemonState := { topology := fromDevices [lamp] }

abbrev lampBreathes : DaemonState := insertTargetState dark wholeLamp breathing
abbrev ringBreathes : DaemonState := insertTargetState dark ring breathing
abbrev topBreathes : DaemonState := insertTargetState dark top breathing

/-- The lamp breathes but for its ring. -/
abbrev ringRed : DaemonState := insertTargetState lampBreathes ring reddened

theorem dark_reachable {guard : DaemonState → TargetStateEntry → Prop} :
    Transition.Reachable Initial Step guard dark := .initial rfl

theorem reach {guard : DaemonState → TargetStateEntry → Prop}
    (h : Transition.Reachable Initial Step guard s) (hg : guard s ⟨target, state⟩) :
    Transition.Reachable Initial Step guard (insertTargetState s target state) :=
  h.step hg (show Step s ⟨target, state⟩ _ from rfl)

theorem ringRed_shown (hp : part = ring ∨ Includes ringRed.topology ring part) :
    shown ringRed part = some (.static (.rgb ⟨255, 0, 0⟩)) := by
  have hc : targetCovers lampBreathes.topology ring part = true := by
    rcases hp with rfl | hp
    · rfl
    · exact hp.covers
  have hw : shown (inserted lampBreathes ⟨ring, reddened⟩) part =
      some (.static (.rgb ⟨255, 0, 0⟩)) := shown_of_written hc rfl
  exact hw

end Sample

open Sample in
/-- The ring breathes, then the whole lamp is red: the ring may be streamed to again. -/
theorem superseded_effect_is_no_conflict : ConflictReflectsShown ringBreathes ring ∧
      beginFrameStream ringBreathes ring = .error (effectConflict ring) ∧
      ConflictReflectsShown (insertTargetState ringBreathes wholeLamp reddened) ring := by
  have hb : Transition.Reachable Initial Step (Guard ring) ringBreathes := by
    refine reach dark_reachable ⟨fun _ hu => ?_, fun hs => ?_⟩
    · simp at hu
    · simp [stills, breathing] at hs
  obtain ⟨hr, hn⟩ := conflicts_reflect_shown ring effects ringBreathes hb rfl rfl rfl rfl
  refine ⟨hr, rfl, (hn ⟨wholeLamp, reddened⟩).2 ⟨fun hru => ?_, ?_⟩⟩
  · simp [runsInHardware, reddened] at hru
  · intro _ _ old ho _ _
    obtain rfl : old = ⟨ring, breathing⟩ := mem_singleton.1 ho
    rfl

open Sample in
/-- A red ring on a breathing lamp is refused a stream, and a ring with a breathing
element is not. -/
theorem Counterexample.effects_hidden_and_overlooked :
    (Transition.Reachable Initial Step (fun _ _ => True) ringRed ∧
      beginFrameStream ringRed ring = .error (effectConflict ring) ∧
      ¬ AnimationShown ringRed ring) ∧
    (Transition.Reachable Initial Step (fun _ _ => True) topBreathes ∧
      (∃ begun, beginFrameStream topBreathes ring = .ok begun) ∧
      AnimationShown topBreathes ring) := by
  refine ⟨⟨?_, rfl, ?_⟩, ?_, ⟨_, rfl⟩, ?_⟩
  · exact reach (reach dark_reachable trivial) trivial
  · rintro ⟨part, hp, hs⟩
    rw [ringRed_shown hp] at hs
    cases hs
  · exact reach dark_reachable trivial
  · exact ⟨top, .inr ⟨rfl, rfl, rfl⟩, rfl⟩

end StreamConflicts
