import Luminate.StreamTokens

/-! # Exclusive streams

A frame stream takes its target for one publisher, and with the target every surface and
element it covers. Whether two active streams share one depends on the topology and its
groups. -/
namespace StreamExclusivity

open DeviceModel TargetTopology DaemonModel FrameStreams
open StreamTokens (Action call)

inductive Request where
  | call (action : Action)
  /-- Any other request; it leaves the streams and the topology alone. -/
  | other

section

variable (platform : Platform) (minInterval : ℕ → ℕ)

inductive Step : DaemonState → Request → DaemonState → Prop where
  | call {s action} : Step s (.call action) (call platform minInterval s action)
  | other {s next} (streams : next.frameStreams = s.frameStreams)
      (topology : next.topology = s.topology) : Step s .other next

end

def Initial (s : DaemonState) : Prop := s.frameStreams = ∅

/-- `part` is a surface or an element of the topology that `target` covers. -/
structure Includes (topology : Topology) (target part : TargetId) : Prop where
  listed : (capabilitiesForTarget topology part).isSome = true
  kind : part.surfaceOf.isSome = true
  covers : targetCovers topology target part = true

theorem Includes.not_group (h : Includes topology target part) : ∀ id g, part ≠ .group id g := by
  rintro id g rfl
  cases h.kind

def Overlap (topology : Topology) (a b : TargetId) : Prop :=
  ∃ part, Includes topology a part ∧ Includes topology b part

def Active (s : DaemonState) (target : TargetId) : Prop :=
  (s.frameStreams.lookup target).isSome = true

def Exclusive (s : DaemonState) : Prop :=
  ∀ a b, Active s a → Active s b → a ≠ b → ¬ Overlap s.topology a b

/-- A stream is begun only on a target that shares no surface or element with an active
stream, and a new topology gives no active stream a surface or element it did not have. -/
def Guard (s : DaemonState) : Request → Prop
  | .call (.beginFrameStream target) =>
    ∀ other, Active s other → other ≠ target → ¬ Overlap s.topology target other
  | .call (.replaceDevices devices) =>
    ∀ target part, Active s target → Includes (fromDevices devices) target part →
      Includes s.topology target part
  | _ => True

theorem Overlap.symm (h : Overlap topology a b) : Overlap topology b a := by
  obtain ⟨part, ha, hb⟩ := h
  exact ⟨part, hb, ha⟩

variable {s : DaemonState}

theorem Exclusive.shrink (h : Exclusive s) (hac : ∀ target, Active t target → Active s target)
    (hp : ∀ target part, Active t target → Includes t.topology target part →
      Includes s.topology target part) : Exclusive t := by
  rintro a b ha hb hne ⟨part, hpa, hp'⟩
  exact h a b (hac a ha) (hac b hb) hne ⟨part, hp a part ha hpa, hp b part hb hp'⟩

theorem Exclusive.kept (h : Exclusive s) (hk : Kept s.frameStreams t.frameStreams)
    (ht : t.topology = s.topology) : Exclusive t := by
  refine h.shrink (fun target ha => ?_) fun target part _ hp => ht ▸ hp
  obtain ⟨stream, hs⟩ := Option.isSome_iff_exists.1 ha
  obtain ⟨old, ho, -⟩ := hk target stream hs
  exact Option.isSome_iff_exists.2 ⟨old, ho⟩

/-- A stream that has begun leaves the streams exclusive exactly where its target shares
nothing with the others. -/
theorem exclusive_begun {next : DaemonState} (h : Exclusive s)
    (hbe : beginFrameStream s target = .ok (generation, next)) :
    Exclusive next ↔ Guard s (.call (.beginFrameStream target)) := by
  obtain ⟨hf, rfl⟩ := beginFrameStream_ok hbe
  have hac : ∀ other, ((s.frameStreams.insert target
      (startedStream s generation)).lookup other).isSome = true ↔
        other = target ∨ Active s other := by
    intro other
    by_cases hot : other = target
    · subst hot
      simp [Active]
    · simp [Active, AList.lookup_insert_ne hot, hot]
  constructor
  · intro hn other hot hne ho
    exact hn target other ((hac target).2 (.inl rfl)) ((hac other).2 (.inr hot)) hne.symm ho
  · intro hg a b ha hb hne ho
    rcases (hac a).1 ha with rfl | ha'
    · rcases (hac b).1 hb with rfl | hb'
      · exact hne rfl
      · exact hg b hb' hne.symm ho
    · rcases (hac b).1 hb with rfl | hb'
      · exact hg a ha' hne ho.symm
      · exact h a b ha' hb' hne ho

theorem endFrameStream_topology : (endFrameStream s target generation).topology = s.topology := by
  unfold endFrameStream
  split <;> rfl

theorem endAllFrameStreams_topology (s : DaemonState) :
    (endAllFrameStreams s ts).topology = s.topology := by
  induction ts generalizing s with
  | nil => rfl
  | cons target rest ih => exact ih (dropStream s target)

theorem recordFrameUpload_topology (gap : ℕ → ℕ) :
    (recordFrameUpload gap now s target envelope).2.topology = s.topology := by
  unfold recordFrameUpload
  split
  · rfl
  · split
    · rfl
    · split
      · rfl
      · split <;> rfl

theorem frameStreamTopologyGeneration_topology :
    (frameStreamTopologyGeneration s target generation).2.topology = s.topology := by
  unfold frameStreamTopologyGeneration
  split
  · rfl
  · split
    · rfl
    · split <;> rfl

theorem Exclusive.call (h : Exclusive s) (hg : Guard s (.call a)) :
    Exclusive (call platform gap s a) := by
  cases a with
  | beginFrameStream target =>
    rw [StreamTokens.call]
    split
    · next generation begun hb => exact (exclusive_begun h hb).2 hg
    · exact h
  | endFrameStream target generation =>
    have hk := kept_of_removal fun key => lookup_endFrameStream s target key generation
    exact h.kept hk (endFrameStream_topology ..)
  | endAllFrameStreams ts =>
    have hk := kept_of_removal (lookup_endAllFrameStreams s ts)
    exact h.kept hk (endAllFrameStreams_topology ..)
  | recordFrameUpload now target envelope =>
    have hk := (recordFrameUpload_feeds gap now s target envelope).kept
    exact h.kept hk (recordFrameUpload_topology ..)
  | frameStreamTopologyGeneration target generation =>
    have hk := (frameStreamTopologyGeneration_feeds s target generation).kept
    exact h.kept hk (frameStreamTopologyGeneration_topology ..)
  | replaceDevices ds => exact h.shrink (fun target ha => ha) hg

/-- A guarded step keeps the streams apart. -/
theorem step_exclusive (h : Exclusive s) (hg : Guard s req) (hst : Step platform gap s req t) :
    Exclusive t := by
  cases hst with
  | call => exact h.call hg
  | other streams topology =>
    exact h.kept (kept_of_lookup fun key stream hs => streams ▸ hs) topology

/-- In a run whose streams are begun only beside what is streamed already, no surface or
element is ever streamed twice; and there any other begin breaks this. -/
theorem streams_never_overlap (platform : Platform) (minInterval : ℕ → ℕ) (s : DaemonState)
    (h : Transition.Reachable Initial (Step platform minInterval) Guard s) : Exclusive s ∧
      ∀ target generation next, beginFrameStream s target = .ok (generation, next) →
        (Exclusive next ↔ Guard s (.call (.beginFrameStream target))) := by
  have he : Exclusive s := by
    refine h.holds Exclusive (fun s hs a b ha => ?_) fun _ _ _ hs => step_exclusive hs
    rw [Active, show s.frameStreams = ∅ from hs] at ha
    simp at ha
  exact ⟨he, fun target generation next => exclusive_begun he⟩

namespace Sample

open DesiredState.Sample (platform)

def streamed : CapabilitySet := FrameStreams.Sample.strip.capabilities

def keyboard : Device where
  id := "keyboard"
  surfaces := [⟨"keys", [], streamed⟩, ⟨"bar", [], streamed⟩]
  capabilities := streamed

def keys : TargetId := .surface "keyboard" "keys"

def bar : TargetId := .surface "keyboard" "bar"

abbrev SampleStep := Step platform fun _ => 0

abbrev after (s : DaemonState) (target : TargetId) : DaemonState :=
  call platform (fun _ => 0) s (.beginFrameStream target)

def started : DaemonState := { topology := fromDevices [keyboard] }

theorem surface_of_covered (h : Includes topology (.surface device surface) part) :
    part.surfaceOf = some surface := ((covers_surface_iff h.not_group).1 h.covers).2

theorem active_keys (h : Active (after started keys) target) : target = keys := by
  by_contra hne
  have hl : (after started keys).frameStreams.lookup target = none := AList.lookup_insert_ne hne
  rw [Active, hl] at h
  cases h

end Sample

open Sample in
/-- Two surfaces are streamed side by side. -/
theorem surfaces_streamed_apart :
    Active (after (after started keys) bar) keys ∧ Active (after (after started keys) bar) bar ∧
      Exclusive (after (after started keys) bar) := by
  have hk : Transition.Reachable Initial SampleStep Guard (after started keys) := by
    refine .step (s := started) (l := .call (.beginFrameStream keys)) (.initial rfl) ?_ .call
    intro other ho
    cases ho
  have hb : Guard (after started keys) (.call (.beginFrameStream bar)) := by
    intro other ho hne
    obtain rfl := active_keys ho
    rintro ⟨part, hp, hp'⟩
    exact absurd (surface_of_covered hp) (by rw [surface_of_covered hp']; decide)
  exact ⟨rfl, rfl, (streams_never_overlap _ _ _ (hk.step hb .call)).1⟩

open Sample in
/-- A stream to the keyboard is no obstacle to one to its keys. -/
theorem Counterexample.device_and_surface_streamed :
    Transition.Reachable Initial SampleStep (fun _ _ => True)
        (after (after started (.device "keyboard")) keys) ∧
      ¬ Exclusive (after (after started (.device "keyboard")) keys) := by
  constructor
  · exact .step (.step (s := started) (.initial rfl) trivial .call) trivial .call
  · intro h
    exact h (.device "keyboard") keys rfl rfl (by decide) ⟨keys, ⟨rfl, rfl, rfl⟩, ⟨rfl, rfl, rfl⟩⟩

end StreamExclusivity
