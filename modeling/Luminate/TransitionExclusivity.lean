import Luminate.Transition
import Luminate.TransitionValidity

/-! # Exclusive transitions

`daemon/transition.rs` and the requests that use its registry. A start cancels the
overlapping transitions and waits for them, may apply its source, and registers
itself only then; each of these is a step of its own, between which any other
request may run. The topology does not change. -/
namespace TransitionExclusivity

open DeviceModel TargetTopology DaemonModel Interpolation TransitionPlans List Function

abbrev TransitionId := String

inductive TransitionCancellation where
  | aborted | replaced | conflictingMutation | authorizationExpired
  deriving DecidableEq

inductive TransitionOutcome where
  | completed
  | cancelled (reason : TransitionCancellation)
  | failed (diagnostic : String) (appliedTargets : List TargetId)
  deriving DecidableEq

structure TransitionEntry where
  id : TransitionId
  targets : List TargetId
  cancellation : Option TransitionCancellation := none
  outcome : Option TransitionOutcome := none
  deriving DecidableEq

/-- The first reason stays. -/
def TransitionEntry.requestAbort (reason : TransitionCancellation) (entry : TransitionEntry) :
    TransitionEntry :=
  { entry with cancellation := entry.cancellation.or (some reason) }

def TransitionEntry.isTerminal (entry : TransitionEntry) : Bool := entry.outcome.isSome

def terminalStatusLimit : ℕ := 256

structure TransitionRegistry where
  entries : List TransitionEntry := []
  terminal : List TransitionId := []
  deriving DecidableEq

namespace TransitionRegistry

def insert (registry : TransitionRegistry) (id : TransitionId) (targets : List TargetId) :
    TransitionRegistry :=
  { registry with entries := registry.entries.filter (·.id ≠ id) ++ [⟨id, targets, none, none⟩] }

def active (registry : TransitionRegistry) : List TransitionEntry :=
  registry.entries.filter (!·.isTerminal)

def update (registry : TransitionRegistry) (p : TransitionEntry → Bool)
    (f : TransitionEntry → TransitionEntry) : TransitionRegistry :=
  { registry with entries := registry.entries.map fun entry => if p entry then f entry else entry }

/-- The oldest terminal status is dropped once there are too many. -/
def evict (registry : TransitionRegistry) : TransitionRegistry :=
  match registry.terminal with
  | [] => registry
  | evicted :: rest =>
    if terminalStatusLimit < registry.terminal.length then
      ⟨registry.entries.filter (·.id ≠ evicted), rest⟩
    else registry

def finish (registry : TransitionRegistry) (id : TransitionId) (outcome : TransitionOutcome) :
    TransitionRegistry :=
  let finished := registry.update (·.id == id) fun entry => { entry with outcome := some outcome }
  { finished with terminal := finished.terminal ++ [id] }.evict

end TransitionRegistry

def overlaps (topology : Topology) (left right : List TargetId) : Bool :=
  left.any fun controlled => right.any fun target =>
    targetCovers topology controlled target || targetCovers topology target controlled

/-- The entries that `cancel_transition_targets_with_reason` collects, aborts and
then waits for. -/
def overlapping (topology : Topology) (registry : TransitionRegistry) (targets : List TargetId) :
    List TransitionEntry :=
  registry.active.filter fun entry => overlaps topology entry.targets targets

def cancelTransitionTargets (topology : Topology) (targets : List TargetId)
    (reason : TransitionCancellation) (registry : TransitionRegistry) : TransitionRegistry :=
  registry.update (fun entry => !entry.isTerminal && overlaps topology entry.targets targets)
    (TransitionEntry.requestAbort reason)

inductive Purpose where
  | transition (sourceIsScene : Bool)
  | mutation
  deriving DecidableEq

def Purpose.reason : Purpose → TransitionCancellation
  | .transition _ => .replaced
  | .mutation => .conflictingMutation

inductive Phase where
  | idle
  | accepted (purpose : Purpose) (targets : List TargetId)
  | waiting (purpose : Purpose) (targets : List TargetId) (pending : List TransitionId)
  /-- The source of the transition is on the hardware. -/
  | sourced (targets : List TargetId)
  deriving DecidableEq

/-- The targets of a start that has cancelled and not registered yet. -/
def Phase.registering : Phase → Option (List TargetId)
  | .waiting (.transition _) targets _ | .sourced targets => some targets
  | _ => none

abbrev RequestId := ℕ

structure State where
  registry : TransitionRegistry := {}
  requests : RequestId → Phase := fun _ => .idle

def State.advance (s : State) (r : RequestId) (phase : Phase) : State :=
  { s with requests := update s.requests r phase }

inductive Action where
  | start (r : RequestId) (request : StartTransitionRequest)
  | mutate (r : RequestId) (targets : List TargetId)
  | cancel (r : RequestId)
  | wait (r : RequestId)
  | applySource (r : RequestId) (applied : Bool)
  | insert (r : RequestId) (id : TransitionId)
  | mutated (r : RequestId)
  | abandon (r : RequestId)
  | abort (id : TransitionId)
  | finish (id : TransitionId) (outcome : TransitionOutcome)

section

variable (platform : Platform) (palette : Palette) (topology : Topology)

inductive Step : State → Action → State → Prop where
  /-- Everything but the topology may have changed when a request is planned. -/
  | start {s r request clock daemon plans sourceIsScene} (idle : s.requests r = .idle)
      (unchanged : daemon.topology = topology)
      (planned : preflight platform palette clock daemon request = .ok (plans, sourceIsScene)) :
      Step s (.start r request)
        (s.advance r (.accepted (.transition sourceIsScene) (plans.map (·.start.target))))
  | mutate {s r targets} (idle : s.requests r = .idle) :
      Step s (.mutate r targets) (s.advance r (.accepted .mutation targets))
  | cancel {s r purpose targets} (accepted : s.requests r = .accepted purpose targets) :
      Step s (.cancel r)
        (State.advance
          { s with registry := cancelTransitionTargets topology targets purpose.reason s.registry }
          r (.waiting purpose targets
            ((overlapping topology s.registry targets).map TransitionEntry.id)))
  | wait {s r purpose targets id pending}
      (waiting : s.requests r = .waiting purpose targets (id :: pending))
      (finished : ∀ entry ∈ s.registry.entries, entry.id = id → entry.isTerminal = true) :
      Step s (.wait r) (s.advance r (.waiting purpose targets pending))
  | applySource {s r targets}
      (waited : s.requests r = .waiting (.transition true) targets []) :
      Step s (.applySource r true) (s.advance r (.sourced targets))
  | refuseSource {s r targets}
      (waited : s.requests r = .waiting (.transition true) targets []) :
      Step s (.applySource r false) (s.advance r .idle)
  | insert {s r targets id}
      (ready : s.requests r = .waiting (.transition false) targets [] ∨
        s.requests r = .sourced targets)
      (generated : ∀ entry ∈ s.registry.entries, entry.id ≠ id) :
      Step s (.insert r id) ({ s with registry := s.registry.insert id targets }.advance r .idle)
  | mutated {s r targets} (waited : s.requests r = .waiting .mutation targets []) :
      Step s (.mutated r) (s.advance r .idle)
  /-- The connection of a request may close while it waits. -/
  | abandon {s r} : Step s (.abandon r) (s.advance r .idle)
  | abort {s id} :
      Step s (.abort id)
        { s with
          registry := s.registry.update (·.id == id) (TransitionEntry.requestAbort .aborted) }
  | finish {s id outcome entry} (registered : entry ∈ s.registry.active) (named : entry.id = id)
      (cause : ∀ reason, outcome = .cancelled reason →
        entry.cancellation = some reason ∨ reason = .authorizationExpired) :
      Step s (.finish id outcome) { s with registry := s.registry.finish id outcome }

/-- Unfinished, and not asked to cancel. -/
def TransitionEntry.Live (entry : TransitionEntry) : Prop :=
  entry.outcome = none ∧ entry.cancellation = none

def Exclusive (s : State) : Prop :=
  ∀ entry ∈ s.registry.entries, ∀ other ∈ s.registry.entries, entry.id ≠ other.id →
    entry.Live → other.Live → ∀ a ∈ entry.targets, ∀ b ∈ other.targets,
      targetCovers topology a b = false ∧ targetCovers topology b a = false

/-- No start cancels while another one with overlapping targets has cancelled
and not registered yet. -/
def Uncontended (s : State) : Action → Prop
  | .cancel r => ∀ sourceIsScene targets,
      s.requests r = .accepted (.transition sourceIsScene) targets →
        ∀ other claimed, (s.requests other).registering = some claimed →
          overlaps topology targets claimed = false
  | _ => True

end

theorem overlaps_comm : overlaps topo left right = overlaps topo right left := by
  rw [Bool.eq_iff_iff]
  simp only [overlaps, any_eq_true, Bool.or_eq_true]
  constructor
  · rintro ⟨a, ha, b, hb, h⟩
    exact ⟨b, hb, a, ha, h.symm⟩
  · rintro ⟨a, ha, b, hb, h⟩
    exact ⟨b, hb, a, ha, h.symm⟩

section

variable {reg : TransitionRegistry} {e : TransitionEntry}

theorem not_live_requestAbort : ¬ (e.requestAbort reason).Live := by
  rintro ⟨-, hn⟩
  cases hc : e.cancellation <;>
    simp [TransitionEntry.requestAbort, hc] at hn

theorem mem_of_live_update (hf : ∀ e, ¬ (f e).Live) (hm : e ∈ (reg.update p f).entries)
    (hl : e.Live) : e ∈ reg.entries ∧ p e = false := by
  obtain ⟨original, ho, rfl⟩ := mem_map.1 hm
  by_cases hp : p original = true
  · rw [if_pos hp] at hl
    exact absurd hl (hf original)
  · rw [if_neg hp]
    exact ⟨ho, Bool.not_eq_true _ ▸ hp⟩

theorem mem_of_mem_evict (hm : e ∈ reg.evict.entries) : e ∈ reg.entries := by
  rw [TransitionRegistry.evict] at hm
  split at hm
  · exact hm
  · split at hm
    · exact mem_of_mem_filter hm
    · exact hm

theorem mem_of_live_finish {id : TransitionId} (hm : e ∈ (reg.finish id outcome).entries)
    (hl : e.Live) : e ∈ reg.entries := by
  have hu := mem_of_mem_evict hm
  refine (mem_of_live_update ?_ hu hl).1
  intro other ho
  cases ho.1

theorem mem_insert {id : TransitionId} (hm : e ∈ (reg.insert id targets).entries) :
    e ∈ reg.entries ∨ e = ⟨id, targets, none, none⟩ := by
  rcases mem_append.1 hm with h | h
  · exact .inl (mem_of_mem_filter h)
  · exact .inr (mem_singleton.1 h)

end

structure Invariant (topology : Topology) (s : State) : Prop where
  live : ∀ entry ∈ s.registry.entries, ∀ other ∈ s.registry.entries, entry.id ≠ other.id →
    entry.Live → other.Live → overlaps topology entry.targets other.targets = false
  cleared : ∀ r targets, (s.requests r).registering = some targets →
    ∀ entry ∈ s.registry.entries, entry.Live → overlaps topology entry.targets targets = false
  apart : ∀ r other targets claimed, r ≠ other → (s.requests r).registering = some targets →
    (s.requests other).registering = some claimed → overlaps topology targets claimed = false

section

variable {platform : Platform} {palette : Palette} {topology : Topology} {s t : State}

theorem initial_invariant : Invariant topology {} where
  live := fun _ he => absurd he not_mem_nil
  cleared := fun _ _ h => nomatch h
  apart := fun _ _ _ _ _ h => nomatch h

structure Quieter (s t : State) : Prop where
  entries : ∀ entry ∈ t.registry.entries, entry.Live → entry ∈ s.registry.entries
  requests : ∀ r targets, (t.requests r).registering = some targets →
    (s.requests r).registering = some targets

theorem Invariant.quieter (h : Invariant topology s) (hq : Quieter s t) : Invariant topology t where
  live := by
    intro entry he other ho hne hl hl'
    exact h.live entry (hq.entries entry he hl) other (hq.entries other ho hl') hne hl hl'
  cleared := by
    intro r targets hr entry he hl
    exact h.cleared r targets (hq.requests r targets hr) entry (hq.entries entry he hl) hl
  apart := by
    intro r other targets claimed hne hr ho
    exact h.apart r other targets claimed hne (hq.requests r targets hr)
      (hq.requests other claimed ho)

theorem registering_advance (h : ((s.advance r phase).requests other).registering = some ts) :
    other = r ∧ phase.registering = some ts ∨
      other ≠ r ∧ (s.requests other).registering = some ts := by
  by_cases ho : other = r
  · subst ho
    simp only [State.advance, update_self] at h
    exact .inl ⟨rfl, h⟩
  · simp only [State.advance, update_of_ne ho] at h
    exact .inr ⟨ho, h⟩

theorem quieter_advance (he : ∀ entry ∈ registry.entries, entry.Live → entry ∈ s.registry.entries)
    (hp : ∀ ts, phase.registering = some ts → (s.requests r).registering = some ts) :
    Quieter s (State.advance { s with registry } r phase) where
  entries := he
  requests := by
    intro other ts h
    rcases registering_advance h with ⟨rfl, hn⟩ | ⟨-, ho⟩
    · exact hp ts hn
    · exact ho

theorem mem_of_live_cancel
    (hm : entry ∈ (cancelTransitionTargets topology ts reason registry).entries) (hl : entry.Live) :
    entry ∈ registry.entries ∧ overlaps topology entry.targets ts = false := by
  obtain ⟨he, hs⟩ := mem_of_live_update (fun _ => not_live_requestAbort) hm hl
  refine ⟨he, ?_⟩
  simpa [TransitionEntry.isTerminal, hl.1] using hs

theorem cancel_invariant (h : Invariant topology s) (ha : s.requests r = .accepted purpose ts)
    (hg : Uncontended topology s (.cancel r)) : Invariant topology (State.advance
      { s with registry := cancelTransitionTargets topology ts purpose.reason s.registry } r
      (.waiting purpose ts pending)) := by
  have hen : ∀ entry ∈ (cancelTransitionTargets topology ts purpose.reason s.registry).entries,
      entry.Live → entry ∈ s.registry.entries := fun entry he hl => (mem_of_live_cancel he hl).1
  cases purpose with
  | mutation => exact h.quieter (quieter_advance hen fun _ h => nomatch h)
  | transition sourceIsScene =>
    have hfr := hg sourceIsScene ts ha
    refine ⟨?_, ?_, ?_⟩
    · intro entry he other ho hne hl hl'
      exact h.live entry (hen entry he hl) other (hen other ho hl') hne hl hl'
    · intro other claimed hr entry he hl
      rcases registering_advance hr with ⟨rfl, hc⟩ | ⟨-, hc⟩
      · cases hc
        exact (mem_of_live_cancel he hl).2
      · exact h.cleared other claimed hc entry (hen entry he hl) hl
    · intro first second claimed claimed' hne hf hs
      rcases registering_advance hf with ⟨rfl, hc⟩ | ⟨-, hc⟩
      · cases hc
        rcases registering_advance hs with ⟨rfl, -⟩ | ⟨-, hc'⟩
        · exact absurd rfl hne
        · exact hfr second claimed' hc'
      · rcases registering_advance hs with ⟨rfl, hc'⟩ | ⟨-, hc'⟩
        · cases hc'
          rw [overlaps_comm]
          exact hfr first claimed hc
        · exact h.apart first second claimed claimed' hne hc hc'

theorem insert_invariant {id : TransitionId} (h : Invariant topology s)
    (hr : (s.requests r).registering = some ts) :
    Invariant topology (State.advance { s with registry := s.registry.insert id ts } r .idle) where
  live := by
    intro entry he other ho hne hl hl'
    rcases mem_insert he with hol | rfl
    · rcases mem_insert ho with ho' | rfl
      · exact h.live entry hol other ho' hne hl hl'
      · exact h.cleared r ts hr entry hol hl
    · rcases mem_insert ho with ho' | rfl
      · rw [overlaps_comm]
        exact h.cleared r ts hr other ho' hl'
      · exact absurd rfl hne
  cleared := by
    intro other claimed hre entry he hl
    rcases registering_advance hre with ⟨-, hc⟩ | ⟨hne, hc⟩
    · cases hc
    · rcases mem_insert he with hol | rfl
      · exact h.cleared other claimed hc entry hol hl
      · exact h.apart r other ts claimed (Ne.symm hne) hr hc
  apart := by
    intro first second claimed claimed' hne hf hs
    rcases registering_advance hf with ⟨-, hc⟩ | ⟨-, hc⟩
    · cases hc
    · rcases registering_advance hs with ⟨-, hc'⟩ | ⟨-, hc'⟩
      · cases hc'
      · exact h.apart first second claimed claimed' hne hc hc'

theorem step_invariant (h : Invariant topology s) (hg : Uncontended topology s a)
    (hst : Step platform palette topology s a t) : Invariant topology t := by
  have hs : ∀ entry ∈ s.registry.entries, entry.Live → entry ∈ s.registry.entries :=
    fun _ he _ => he
  cases hst with
  | start idle unchanged planned => exact h.quieter (quieter_advance hs fun _ h => nomatch h)
  | mutate idle => exact h.quieter (quieter_advance hs fun _ h => nomatch h)
  | cancel accepted => exact cancel_invariant h accepted hg
  | @wait _ purpose _ _ _ waiting finished =>
    refine h.quieter (quieter_advance hs fun claimed hc => ?_)
    rw [waiting]
    cases purpose with
    | transition sourceIsScene => exact hc
    | mutation => cases hc
  | applySource waited =>
    refine h.quieter (quieter_advance hs fun claimed hc => ?_)
    rw [waited]
    exact hc
  | refuseSource waited => exact h.quieter (quieter_advance hs fun _ h => nomatch h)
  | insert ready generated =>
    apply insert_invariant h
    rcases ready with ready | ready
    · rw [ready]
      rfl
    · rw [ready]
      rfl
  | mutated waited => exact h.quieter (quieter_advance hs fun _ h => nomatch h)
  | abandon => exact h.quieter (quieter_advance hs fun _ h => nomatch h)
  | abort =>
    refine h.quieter ⟨fun entry he hl => ?_, fun _ _ hr => hr⟩
    exact (mem_of_live_update (fun _ => not_live_requestAbort) he hl).1
  | finish registered named cause =>
    exact h.quieter ⟨fun entry he hl => mem_of_live_finish he hl, fun _ _ hr => hr⟩

/-- Where starts with overlapping targets take turns from their cancellation to
their registration, no two live transitions overlap. -/
theorem uncontended_exclusive
    (h : Transition.Reachable (· = ({} : State)) (Step platform palette topology)
      (Uncontended topology) s) : Exclusive topology s := by
  have hi : Invariant topology s := by
    refine h.holds (Invariant topology) ?_ ?_
    · rintro _ rfl
      exact initial_invariant
    · intro _ _ _ hs hg hst
      exact step_invariant hs hg hst
  intro entry he other ho hne hl hl'
  simpa [overlaps] using hi.live entry he other ho hne hl hl'

end

namespace Rivals

open TransitionValidity

def topology : Topology := (Strip.state 100).topology

abbrev StripStep := Step DesiredState.Sample.platform Strip.palette topology

theorem planned : preflight DesiredState.Sample.platform Strip.palette Strip.clock
    (Strip.state 100) Strip.request = .ok ([Strip.plan], true) := rfl

theorem start {guard : State → Action → Prop}
    (h : Transition.Reachable (· = ({} : State)) StripStep guard s) (hi : s.requests r = .idle)
    (hg : guard s (.start r Strip.request)) :
    Transition.Reachable (· = ({} : State)) StripStep guard
      (s.advance r (.accepted (.transition true) [.device "strip"])) :=
  h.step hg (.start hi rfl planned)

theorem uncontended_alone (h : ∀ other, other ≠ r → s.requests other = .idle)
    (ha : (s.requests r).registering = none) : Uncontended topology s (.cancel r) := by
  intro sourceIsScene targets _ other claimed hc
  by_cases ho : other = r
  · rw [ho, ha] at hc
    cases hc
  · rw [h other ho] at hc
    cases hc

end Rivals

open Rivals in
/-- The second start comes after the first has registered, and replaces it. -/
theorem second_start_replaces_first :
    ∃ s, s.registry.entries.map (fun entry => (entry.id, entry.outcome)) =
        [("first", some (.cancelled .replaced)), ("second", none)] ∧ Exclusive topology s := by
  have h₀ : Transition.Reachable (· = ({} : State)) StripStep (Uncontended topology) {} :=
    .initial rfl
  have h₁ := start (r := 0) h₀ rfl trivial
  have h₂ := h₁.step (l := Action.cancel 0)
    (uncontended_alone (fun other ho => update_of_ne ho _ _) rfl) (.cancel rfl)
  have h₃ := h₂.step (l := Action.applySource 0 true) trivial (.applySource rfl)
  have h₄ := h₃.step (l := Action.insert 0 "first") trivial (.insert (.inr rfl) (by decide))
  have h₅ := start (r := 1) h₄ rfl trivial
  have h₆ := h₅.step (l := Action.cancel 1) (uncontended_alone (by
    intro other ho
    simp [State.advance, ho]) rfl) (.cancel rfl)
  have h₇ := h₆.step (l := Action.finish "first" (.cancelled .replaced)) trivial
    (.finish mem_cons_self rfl (fun reason hr => by cases hr; exact .inl rfl))
  have h₈ := h₇.step (l := Action.wait 1) trivial (.wait rfl (by decide))
  have h₉ := h₈.step (l := Action.applySource 1 true) trivial (.applySource rfl)
  have h₁₀ := h₉.step (l := Action.insert 1 "second") trivial (.insert (.inr rfl) (by decide))
  exact ⟨_, by decide, uncontended_exclusive h₁₀⟩

open Rivals in
/-- Both starts cancel before either registers, so neither sees the other. -/
theorem Counterexample.both_starts_registered :
    ∃ s, Transition.Reachable (· = ({} : State)) StripStep (fun _ _ => True) s ∧
      ¬ Exclusive topology s := by
  have h₀ : Transition.Reachable (· = ({} : State)) StripStep (fun _ _ => True) {} := .initial rfl
  have h₁ := start (r := 0) h₀ rfl trivial
  have h₂ := start (r := 1) h₁ rfl trivial
  have h₃ := h₂.step (l := Action.cancel 0) trivial (.cancel rfl)
  have h₄ := h₃.step (l := Action.cancel 1) trivial (.cancel rfl)
  have h₅ := h₄.step (l := Action.applySource 0 true) trivial (.applySource rfl)
  have h₆ := h₅.step (l := Action.applySource 1 true) trivial (.applySource rfl)
  have h₇ := h₆.step (l := Action.insert 0 "first") trivial (.insert (.inr rfl) (by decide))
  have h₈ := h₇.step (l := Action.insert 1 "second") trivial (.insert (.inr rfl) (by decide))
  refine ⟨_, h₈, fun he => ?_⟩
  have hc := he ⟨"first", [.device "strip"], none, none⟩ (by decide)
    ⟨"second", [.device "strip"], none, none⟩ (by decide) (by decide) ⟨rfl, rfl⟩ ⟨rfl, rfl⟩
    (.device "strip") mem_cons_self (.device "strip") mem_cons_self
  exact absurd hc.1 (by decide)

end TransitionExclusivity
