import Luminate.Validation

/-! # Frame streams

`state/frame_stream.rs`: a stream is started on a target under a generation, fed
with frames and ended; a stream from before a topology change is dropped when the
next frame for it arrives. -/
namespace FrameStreams

open Checks DeviceModel TargetTopology DaemonModel Validation

abbrev Streams := AList fun _ : TargetId => FrameStream

/-- Effects that run in the hardware and so compete with streamed frames. -/
def runsInHardware : TargetState → Bool
  | .effect .off | .effect (.static _) => false
  | .effect _ => true
  | _ => false

section

variable (platform : Platform) (state : DaemonState) (target key : TargetId)

def effectActive : Bool :=
  state.targetState.any fun entry =>
    targetCovers state.topology entry.target target && runsInHardware entry.state

def effectConcurrent (capabilities : CapabilitySet) : Bool :=
  capabilities.hardwareEffects.any (·.concurrentWithStreaming)

/-- One more than the largest active generation, in `u32`. -/
def nextGeneration (streams : Streams) : ℕ :=
  ((streams.entries.map (·.2.generation)).foldr max 0 + 1) % 2 ^ 32

def startedStream (generation : ℕ) : FrameStream where
  generation := generation
  topologyGeneration := state.topologyGeneration
  nextSequence := 0
  lastForwardedAt := none

def beginFrameStream : Except DaemonError (ℕ × DaemonState) := do
  let capabilities ← capabilitiesForTargetOrError state target
  ensure capabilities.frameUpload.isSome (.unsupportedCapability target
    "target does not advertise frame-upload capability")
  ensure (state.frameStreams.lookup target).isNone (.conflict target
    "a frame stream is already active on this target")
  ensure (!effectActive state target || effectConcurrent capabilities) (.conflict target
    "an active hardware effect is not marked concurrent with streaming")
  let generation := nextGeneration state.frameStreams
  .ok (generation, { state with
    frameStreams := state.frameStreams.insert target (startedStream state generation) })

def dropStream : DaemonState :=
  { state with frameStreams := state.frameStreams.erase target }

def noActiveStream : DaemonError :=
  .conflict target "no active frame stream on this target"

def generationMismatch : DaemonError :=
  .conflict target "frame generation does not match the active stream"

def streamOutdated : DaemonError := .authorizationConflict
  "device topology changed after the frame stream was authorized; begin a new stream"

def maxRateHz (state : DaemonState) (target : TargetId) : Option ℕ :=
  ((capabilitiesForTarget state.topology target).bind (·.frameUpload)).bind (·.maxRateHz)

/-- `minInterval` is the shortest time between two frames at a rate. -/
def shouldForward (minInterval : ℕ → ℕ) (rate : Option ℕ) (last : Option ℕ) (now : ℕ) : Bool :=
  match rate, last with
  | some rate, some last => minInterval (max rate 1) ≤ now - last
  | _, _ => true

def recordFrameUpload (minInterval : ℕ → ℕ) (now : ℕ) (state : DaemonState) (target : TargetId)
    (envelope : FrameEnvelope) : Except DaemonError Bool × DaemonState :=
  match state.frameStreams.lookup target with
  | none => (.error (noActiveStream target), state)
  | some stream =>
    if stream.topologyGeneration ≠ state.topologyGeneration then
      (.error streamOutdated, dropStream state target)
    else if envelope.generation ≠ stream.generation then
      (.error (generationMismatch target), state)
    else if envelope.sequence < stream.nextSequence then
      (.error (.invalidArgument target ("frame sequence " ++ toString envelope.sequence ++
        " is stale; the active stream already accepted sequence " ++
        toString (stream.nextSequence - 1))), state)
    else
      let forward := shouldForward minInterval (maxRateHz state target) stream.lastForwardedAt now
      let fed := { stream with
        nextSequence := min (envelope.sequence + 1) (2 ^ 64 - 1)
        lastForwardedAt := if forward then some now else stream.lastForwardedAt }
      (.ok forward, { state with frameStreams := state.frameStreams.insert target fed })

def frameStreamTopologyGeneration (generation : ℕ) : Except DaemonError ℕ × DaemonState :=
  match state.frameStreams.lookup target with
  | none => (.error (noActiveStream target), state)
  | some stream =>
    if stream.generation ≠ generation then (.error (generationMismatch target), state)
    else if stream.topologyGeneration ≠ state.topologyGeneration then
      (.error streamOutdated, dropStream state target)
    else (.ok stream.topologyGeneration, state)

/-- Ending a stream that is not active, or of another generation, does nothing. -/
def endFrameStream (generation : ℕ) : DaemonState :=
  if (state.frameStreams.lookup target).any (·.generation == generation) then
    dropStream state target
  else state

def endAllFrameStreams (targets : List TargetId) : DaemonState :=
  targets.foldl dropStream state

def streamingTargets : List TargetId :=
  state.frameStreams.keys.insertionSort fun a b =>
    targetDebug platform a ≤ targetDebug platform b

/-- `replace_devices_preserving_withdrawn_state`; streams stay. -/
def replaceDevices (devices : List Device) (state : DaemonState) : DaemonState :=
  let replaced := { state with
    topology := TargetTopology.fromDevices devices
    topologyGeneration := (state.topologyGeneration + 1) % 2 ^ 64 }
  { replaced with targetState := state.targetState.filter fun entry =>
      (findDevice replaced.topology entry.target.deviceId).isNone ||
        (validateTargetState platform replaced entry.target entry.state).isOk }

theorem lookup_dropStream : (dropStream state target).frameStreams.lookup key =
      if key = target then none else state.frameStreams.lookup key := by
  by_cases h : key = target
  · subst h
    simp [dropStream]
  · simp [dropStream, AList.lookup_erase_ne h, h]

theorem lookup_endFrameStream (generation : ℕ) :
    (endFrameStream state target generation).frameStreams.lookup key =
      if key = target ∧ (state.frameStreams.lookup target).any (·.generation == generation) = true
      then none else state.frameStreams.lookup key := by
  unfold endFrameStream
  split
  · next h => simp [lookup_dropStream, h]
  · next h => simp [h]

theorem lookup_endAllFrameStreams (ts : List TargetId) (key : TargetId) :
    (endAllFrameStreams state ts).frameStreams.lookup key =
      if key ∈ ts then none else state.frameStreams.lookup key := by
  unfold endAllFrameStreams
  induction ts generalizing state with
  | nil => simp
  | cons target rest ih =>
    rw [List.foldl_cons, ih, lookup_dropStream]
    by_cases hr : key ∈ rest
    · simp [hr]
    · by_cases hk : key = target <;> simp [hr, hk]

end

variable {s : DaemonState} {t : TargetId}

theorem beginFrameStream_ok {next : DaemonState}
    (h : beginFrameStream s t = .ok (generation, next)) : s.frameStreams.lookup t = none ∧
      next = { s with
        frameStreams := s.frameStreams.insert t (startedStream s generation) } := by
  simp only [beginFrameStream, bind_ok_iff] at h
  obtain ⟨caps, -, -, -, free, hf, -, -, h⟩ := h
  cases h
  exact ⟨Option.isNone_iff_eq_none.1 (ensure_ok_iff.1 hf), rfl⟩

/-- Every stream left was there before, under the same generation. -/
def Kept (before after : Streams) : Prop :=
  ∀ key stream, after.lookup key = some stream →
    ∃ old, before.lookup key = some old ∧ old.generation = stream.generation

theorem kept_of_lookup
    (h : ∀ key stream, after.lookup key = some stream → before.lookup key = some stream) :
    Kept before after := fun key stream hs => ⟨stream, h key stream hs, rfl⟩

section

variable {pre after : Streams} {gone : TargetId → Prop} [DecidablePred gone]

section

variable (h : ∀ key, after.lookup key = if gone key then none else pre.lookup key)

include h

theorem kept_of_removal : Kept pre after := by
  refine kept_of_lookup fun key stream hs => ?_
  rw [h key] at hs
  split at hs
  · simp at hs
  · exact hs

theorem removed_of_removal (hs : pre.lookup key = some stream) (hn : after.lookup key = none) :
    gone key := by
  rw [h key] at hn
  by_contra hk
  simp [hk, hs] at hn

end

end

/-- A step on one target that keeps the other streams, and drops this one only if
the topology changed since it began. -/
structure FeedsOnly (state next : DaemonState) : Prop where
  topology : next.topologyGeneration = state.topologyGeneration
  kept : Kept state.frameStreams next.frameStreams
  dropped : ∀ key stream, state.frameStreams.lookup key = some stream →
    next.frameStreams.lookup key = none → stream.topologyGeneration ≠ state.topologyGeneration

theorem feedsOnly_refl : FeedsOnly s s where
  topology := rfl
  kept := kept_of_lookup fun _ _ h => h
  dropped key stream hs hn := by simp [hs] at hn

theorem feedsOnly_dropStream (hs : s.frameStreams.lookup t = some stream)
    (ho : stream.topologyGeneration ≠ s.topologyGeneration) : FeedsOnly s (dropStream s t) where
  topology := rfl
  kept := kept_of_removal (lookup_dropStream s t)
  dropped key dropped hd hn := by
    obtain rfl := removed_of_removal (lookup_dropStream s t) hd hn
    cases hs.symm.trans hd
    exact ho

theorem frameStreamTopologyGeneration_feeds (s : DaemonState) (t : TargetId) (generation : ℕ) :
    FeedsOnly s (frameStreamTopologyGeneration s t generation).2 := by
  unfold frameStreamTopologyGeneration
  split
  · exact feedsOnly_refl
  · next stream hs =>
    split
    · exact feedsOnly_refl
    · split
      · next ho => exact feedsOnly_dropStream hs ho
      · exact feedsOnly_refl

theorem recordFrameUpload_feeds (gap : ℕ → ℕ) (now : ℕ) (s : DaemonState)
    (t : TargetId) (envelope : FrameEnvelope) :
    FeedsOnly s (recordFrameUpload gap now s t envelope).2 := by
  unfold recordFrameUpload
  split
  · exact feedsOnly_refl
  · next stream hs =>
    split
    · next ho => exact feedsOnly_dropStream hs ho
    · split
      · exact feedsOnly_refl
      · split
        · exact feedsOnly_refl
        · refine ⟨rfl, fun key fed hf => ?_, fun key dropped hd hn => ?_⟩
          · by_cases hk : key = t
            · subst hk
              rw [AList.lookup_insert] at hf
              cases hf
              exact ⟨stream, hs, rfl⟩
            · rw [AList.lookup_insert_ne hk] at hf
              exact ⟨fed, hf, rfl⟩
          · by_cases hk : key = t
            · subst hk
              simp [AList.lookup_insert] at hn
            · simp [AList.lookup_insert_ne hk, hd] at hn

theorem lookup_frameStreamTopologyGeneration_of_ne (h : key ≠ t) :
    (frameStreamTopologyGeneration s t generation).2.frameStreams.lookup key =
      s.frameStreams.lookup key := by
  unfold frameStreamTopologyGeneration
  split
  · rfl
  · split
    · rfl
    · split
      · rw [lookup_dropStream, if_neg h]
      · rfl

theorem lookup_recordFrameUpload_of_ne (gap : ℕ → ℕ) (h : key ≠ t) :
    (recordFrameUpload gap now s t envelope).2.frameStreams.lookup key =
      s.frameStreams.lookup key := by
  unfold recordFrameUpload
  split
  · rfl
  · split
    · rw [lookup_dropStream, if_neg h]
    · split
      · rfl
      · split
        · rfl
        · exact AList.lookup_insert_ne h

namespace Sample

def strip : Device where
  id := "strip"
  surfaces := []
  capabilities := { frameUpload := some ⟨.device, .fullFrameOnly, none, true, false⟩ }

def stripTarget : TargetId := .device "strip"

end Sample

end FrameStreams
