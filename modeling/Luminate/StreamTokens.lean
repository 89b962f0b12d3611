import Luminate.StreamOwnership
import Mathlib.Data.List.MinMax
import Mathlib.Order.Bounds.Defs

/-! # Stream tokens

A client names its stream by the target and the generation it was given at the
start. The generations of the streams that have ended are recorded beside the
daemon state, so that a later use of one can be recognised. -/
namespace StreamTokens

open Checks DeviceModel TargetTopology DaemonModel FrameStreams List

structure State where
  daemon : DaemonState
  /-- Target and generation of every stream that has ended. -/
  ended : List (TargetId × ℕ) := []

inductive Action where
  | beginFrameStream (target : TargetId)
  | endFrameStream (target : TargetId) (generation : ℕ)
  | endAllFrameStreams (targets : List TargetId)
  | recordFrameUpload (now : ℕ) (target : TargetId) (envelope : FrameEnvelope)
  | frameStreamTopologyGeneration (target : TargetId) (generation : ℕ)
  | replaceDevices (devices : List Device)

section

variable (platform : Platform) (minInterval : ℕ → ℕ)

def call (daemon : DaemonState) : Action → DaemonState
  | .beginFrameStream target =>
    match FrameStreams.beginFrameStream daemon target with
    | .ok (_, begun) => begun
    | .error _ => daemon
  | .endFrameStream target generation => FrameStreams.endFrameStream daemon target generation
  | .endAllFrameStreams targets => FrameStreams.endAllFrameStreams daemon targets
  | .recordFrameUpload now target envelope =>
    (FrameStreams.recordFrameUpload minInterval now daemon target envelope).2
  | .frameStreamTopologyGeneration target generation =>
    (FrameStreams.frameStreamTopologyGeneration daemon target generation).2
  | .replaceDevices devices => FrameStreams.replaceDevices platform devices daemon

def endedBetween (before after : Streams) : List (TargetId × ℕ) :=
  (before.entries.filter fun entry => (after.lookup entry.1).isNone).map fun entry =>
    (entry.1, entry.2.generation)

def next (s : State) (action : Action) : State :=
  let daemon := call platform minInterval s.daemon action
  ⟨daemon, s.ended ++ endedBetween s.daemon.frameStreams daemon.frameStreams⟩

def Step (s : State) (action : Action) (t : State) : Prop := t = next platform minInterval s action

def Initial (s : State) : Prop := s.ended = []

/-- `generation` comes next after the largest generation in use, in `u32`. -/
def FollowsLargest (streams : Streams) (generation : ℕ) : Prop :=
  ∃ largest, IsGreatest (insert 0 {g | ∃ entry ∈ streams.entries, entry.2.generation = g}) largest ∧
    generation = (largest + 1) % 2 ^ 32

/-- A stream is begun on a target only while none that ended there had the generation
that comes next. -/
def Guard (s : State) : Action → Prop
  | .beginFrameStream target =>
    ∀ generation, (target, generation) ∈ s.ended →
      ¬ FollowsLargest s.daemon.frameStreams generation
  | _ => True

/-- No call that names the stream finds it active. An upload looks at the topology
before it looks at the generation, a query the other way round. -/
structure Refused (daemon : DaemonState) (target : TargetId) (generation : ℕ) : Prop where
  upload : ∀ now envelope, envelope.generation = generation →
    (recordFrameUpload minInterval now daemon target envelope).1 ∈
      [.error (noActiveStream target), .error (generationMismatch target), .error streamOutdated]
  query : (frameStreamTopologyGeneration daemon target generation).1 ∈
    [.error (noActiveStream target), .error (generationMismatch target)]
  ending : endFrameStream daemon target generation = daemon

/-- No stream recorded as ended has the name of an active one. -/
def Fresh (streams : Streams) (ended : List (TargetId × ℕ)) : Prop :=
  ∀ target generation, (target, generation) ∈ ended →
    ∀ stream, streams.lookup target = some stream → stream.generation ≠ generation

variable {minInterval}

variable {generation : ℕ}

theorem Fresh.refused (h : Fresh dm.frameStreams ended) (he : (target, generation) ∈ ended) :
    Refused minInterval dm target generation := by
  have ho := h target generation he
  refine ⟨fun now envelope hg => ?_, ?_, ?_⟩
  · unfold recordFrameUpload
    split
    · simp
    · next stream hs =>
      split
      · simp
      · have hm := (ho stream hs).symm
        simp [hg, hm]
  · unfold frameStreamTopologyGeneration
    split
    · simp
    · next stream hs =>
      have hm := ho stream hs
      simp [hm]
  · unfold endFrameStream
    rw [if_neg]
    intro ha
    obtain ⟨stream, hs, hg⟩ := (Option.any_eq_true _ _).1 ha
    exact ho stream hs (beq_iff_eq.1 hg)

theorem lookup_of_mem_endedBetween {pre after : Streams}
    (h : (target, generation) ∈ endedBetween pre after) : after.lookup target = none := by
  obtain ⟨entry, he, heq⟩ := mem_map.1 h
  cases heq
  simpa using (mem_filter.1 he).2

/-- What holds of the earlier endings carries over to those of a step: a stream that
has just ended leaves its target free. -/
theorem fresh_append {pre after : Streams} (h : Fresh after ended) :
    Fresh after (ended ++ endedBetween pre after) := by
  intro target generation hm stream hs
  rcases mem_append.1 hm with ho | hn
  · exact h target generation ho stream hs
  · rw [lookup_of_mem_endedBetween hn] at hs
    cases hs

theorem Fresh.kept {pre after : Streams} (h : Fresh pre ended) (hk : Kept pre after) :
    Fresh after ended := by
  intro target generation he stream hs
  obtain ⟨old, ho, hg⟩ := hk target stream hs
  rw [← hg]
  exact h target generation he old ho

theorem foldr_max_mem (xs : List ℕ) : xs.foldr max 0 ∈ insert 0 {x | x ∈ xs} := by
  induction xs with
  | nil => exact .inl rfl
  | cons head rest ih =>
    rw [foldr_cons]
    rcases max_choice head (rest.foldr max 0) with hh | hr
    · rw [hh]
      exact .inr mem_cons_self
    · rw [hr]
      exact ih.imp id (mem_cons_of_mem head)

theorem nextGeneration_followsLargest : FollowsLargest streams (nextGeneration streams) := by
  refine ⟨_, ⟨?_, ?_⟩, rfl⟩
  · simpa [mem_map] using foldr_max_mem (streams.entries.map (·.2.generation))
  · rintro generation (rfl | ⟨entry, he, rfl⟩)
    · exact Nat.zero_le _
    · exact le_max_of_le' 0 (mem_map_of_mem he) (le_refl _)

theorem beginFrameStream_generation (h : beginFrameStream dm target = .ok (generation, begun)) :
    generation = nextGeneration dm.frameStreams := by
  simp only [beginFrameStream, Checks.bind_ok_iff] at h
  obtain ⟨-, -, -, -, -, -, -, -, h⟩ := h
  exact (ok_pair h).1.symm

theorem Fresh.begun {begun : DaemonState} (h : Fresh dm.frameStreams ended)
    (hb : beginFrameStream dm target = .ok (generation, begun))
    (hg : ∀ g, (target, g) ∈ ended → ¬ FollowsLargest dm.frameStreams g) :
    Fresh begun.frameStreams ended := by
  intro key g he stream hs
  obtain rfl := beginFrameStream_generation hb
  obtain ⟨-, rfl⟩ := beginFrameStream_ok hb
  by_cases hk : key = target
  · subst hk
    rw [AList.lookup_insert] at hs
    cases hs
    rintro rfl
    exact hg _ he nextGeneration_followsLargest
  · rw [AList.lookup_insert_ne hk] at hs
    exact h key g he stream hs

theorem Fresh.call {s : State} (h : Fresh s.daemon.frameStreams s.ended) (hg : Guard s a) :
    Fresh (call platform minInterval s.daemon a).frameStreams s.ended := by
  cases a with
  | beginFrameStream target =>
    cases hb : FrameStreams.beginFrameStream s.daemon target with
    | error => simpa only [StreamTokens.call, hb] using h
    | ok begun => simpa only [StreamTokens.call, hb] using h.begun hb hg
  | endFrameStream target generation =>
    exact h.kept (kept_of_removal fun key => lookup_endFrameStream s.daemon target key generation)
  | endAllFrameStreams ts =>
    exact h.kept (kept_of_removal (lookup_endAllFrameStreams s.daemon ts))
  | recordFrameUpload now target envelope => exact h.kept (recordFrameUpload_feeds ..).kept
  | frameStreamTopologyGeneration target generation =>
    exact h.kept (frameStreamTopologyGeneration_feeds ..).kept
  | replaceDevices devices => exact h

/-- A stream that has ended is never taken for an active one again. -/
theorem ended_streams_are_refused (minInterval : ℕ → ℕ) (s : State)
    (h : Transition.Reachable Initial (Step platform minInterval) Guard s) :
    ∀ target generation, (target, generation) ∈ s.ended →
      Refused minInterval s.daemon target generation := by
  have hf := h.holds (fun s => Fresh s.daemon.frameStreams s.ended)
    (fun s hs => by simp [Fresh, show s.ended = [] from hs])
    (fun s action t hs hg hst => by
      subst hst
      exact fresh_append (hs.call platform hg))
  exact fun target generation he => hf.refused he

end

namespace Sample

open DesiredState.Sample (platform)
open FrameStreams.Sample

abbrev SampleStep := Step platform fun _ => 0

abbrev after (s : State) (action : Action) : State := next platform (fun _ => 0) s action

def matrix : TargetId := .device "matrix"

def devices : List Device := [strip, { strip with id := "matrix" }]

def started : State := { daemon := { topology := fromDevices devices } }

def streaming : State := after started (.beginFrameStream stripTarget)

/-- The matrix has begun its stream before the strip's ends. -/
def overlapping : State :=
  after (after streaming (.beginFrameStream matrix)) (.endFrameStream stripTarget 1)

/-- No other stream is active when the strip's ends. -/
def alone : State := after streaming (.endFrameStream stripTarget 1)

end Sample

open Sample in
/-- While the matrix streams, the strip's next stream gets generation 3. -/
theorem strip_refuses_its_first_stream :
    (stripTarget, 1) ∈ (after overlapping (.beginFrameStream stripTarget)).ended ∧
      Refused (fun _ => 0) (after overlapping (.beginFrameStream stripTarget)).daemon
        stripTarget 1 := by
  have hf : Transition.Reachable Initial SampleStep Guard streaming :=
    .step (s := started) (l := Action.beginFrameStream stripTarget) (.initial rfl)
      (fun _ he => absurd he not_mem_nil) rfl
  have hb := hf.step (l := Action.beginFrameStream matrix) (fun _ he => absurd he not_mem_nil) rfl
  have ho : Transition.Reachable Initial SampleStep Guard overlapping :=
    hb.step (l := Action.endFrameStream stripTarget 1) trivial rfl
  have hgu : Guard overlapping (.beginFrameStream stripTarget) := by
    rintro generation he ⟨largest, hl, hfo⟩
    have he : generation = 1 := by
      simpa [show overlapping.ended = [(stripTarget, 1)] from rfl] using he
    have hm : largest = 0 ∨ largest = 2 := by
      rcases hl.1 with hz | ⟨entry, hen, hg⟩
      · exact .inl hz
      · obtain rfl := mem_singleton.1 hen
        exact .inr hg.symm
    have ha : 2 ≤ largest := hl.2 (.inr ⟨_, mem_singleton_self _, rfl⟩)
    omega
  exact ⟨by decide, ended_streams_are_refused _ _ _ (ho.step hgu rfl) stripTarget 1 (by decide)⟩

namespace Counterexample

open Sample

/-- The strip's only stream ends and another begins: both have generation 1, and a
frame of the first is applied to the second. -/
theorem first_stream_accepted_after_restart :
    Transition.Reachable Initial SampleStep (fun _ _ => True)
        (after alone (.beginFrameStream stripTarget)) ∧
      (stripTarget, 1) ∈ (after alone (.beginFrameStream stripTarget)).ended ∧
      (recordFrameUpload (fun _ => 0) 0 (after alone (.beginFrameStream stripTarget)).daemon
        stripTarget ⟨1, 0, .full [], true⟩).1 = .ok true := by
  refine ⟨?_, by decide, rfl⟩
  exact .step (.step (.step (s := started) (.initial rfl) trivial rfl) trivial rfl) trivial rfl

end Counterexample

end StreamTokens
