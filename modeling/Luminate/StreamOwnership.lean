import Luminate.DesiredState
import Luminate.FrameStreams
import Luminate.Transition

/-! # Stream ownership

Connections start and end frame streams, drop, and clean up after themselves,
while the topology is replaced and the machine suspends. A step is what happens
under one acquisition of the daemon-state lock, or on a connection's own list of
streams. Who began a stream is recorded beside the state. -/
namespace StreamOwnership

open DeviceModel DaemonModel FrameStreams TargetTopology

abbrev ConnectionId := ℕ

inductive Phase where
  | live
  /-- `BeginShmFrameStream` has started the stream and negotiates its memory. -/
  | negotiating (target : TargetId) (generation : ℕ)
  /-- An end request has been to the daemon state, not yet to the own list. -/
  | ending (target : TargetId)
  /-- The connection is gone; these streams are to be released. -/
  | closing (abandoned : List TargetId)
  | closed
  deriving DecidableEq

structure Connection where
  phase : Phase := .live
  ownedStreams : List TargetId := []
  deriving DecidableEq

structure State where
  daemon : DaemonState
  connections : ConnectionId → Connection := fun _ => {}
  suspending : Option (List TargetId) := none
  owner : TargetId → ConnectionId := fun _ => 0

def Initial (s : State) : Prop :=
  ∃ daemon : DaemonState, daemon.frameStreams = ∅ ∧ s = { daemon := daemon }

def State.update (s : State) (c : ConnectionId) (connection : Connection) : State :=
  { s with connections := Function.update s.connections c connection }

def supportsShm (state : DaemonState) (target : TargetId) : Bool :=
  ((capabilitiesForTarget state.topology target).bind (·.frameUpload)).any (·.shm)

inductive Action where
  | beginFrameStream (c : ConnectionId) (target : TargetId)
  | beginShmFrameStream (c : ConnectionId) (target : TargetId)
  | shmReady (c : ConnectionId)
  | shmUnsupported (c : ConnectionId)
  | endFrameStream (c : ConnectionId) (target : TargetId) (generation : ℕ)
  | forget (c : ConnectionId)
  | disconnect (c : ConnectionId)
  | cleanUp (c : ConnectionId)
  | checkUpload (target : TargetId)
  | recordUpload (target : TargetId)
  | replaceTopology
  | suspend
  | quiesce
  | mutate
  deriving DecidableEq

section

variable (platform : Platform) (minInterval : ℕ → ℕ)

/-- `EndFrameStream` and `EndShmFrameStream` do the same to the daemon state.
`mutate` stands for every request that leaves the streams alone. -/
inductive Step : State → Action → State → Prop where
  | beginFrameStream {s c target generation next}
      (ready : (s.connections c).phase = .live)
      (begun : FrameStreams.beginFrameStream s.daemon target = .ok (generation, next)) :
      Step s (.beginFrameStream c target)
        { s.update c { s.connections c with
            ownedStreams := (s.connections c).ownedStreams ++ [target] } with
          daemon := next, owner := Function.update s.owner target c }
  | beginShmFrameStream {s c target generation next}
      (ready : (s.connections c).phase = .live)
      (capable : supportsShm s.daemon target = true)
      (begun : FrameStreams.beginFrameStream s.daemon target = .ok (generation, next)) :
      Step s (.beginShmFrameStream c target)
        { s.update c { s.connections c with phase := .negotiating target generation } with
          daemon := next, owner := Function.update s.owner target c }
  | shmReady {s c target generation}
      (negotiating : (s.connections c).phase = .negotiating target generation) :
      Step s (.shmReady c) (s.update c
        { phase := .live, ownedStreams := (s.connections c).ownedStreams ++ [target] })
  | shmUnsupported {s c target generation}
      (negotiating : (s.connections c).phase = .negotiating target generation) :
      Step s (.shmUnsupported c)
        { s.update c { s.connections c with phase := .live } with
          daemon := FrameStreams.endFrameStream s.daemon target generation }
  | endFrameStream {s c target generation} (ready : (s.connections c).phase = .live) :
      Step s (.endFrameStream c target generation)
        { s.update c { s.connections c with phase := .ending target } with
          daemon := FrameStreams.endFrameStream s.daemon target generation }
  | forget {s c target} (ending : (s.connections c).phase = .ending target) :
      Step s (.forget c) (s.update c
        { phase := .live, ownedStreams := (s.connections c).ownedStreams.filter (· ≠ target) })
  | disconnect {s c} (ready : (s.connections c).phase = .live) :
      Step s (.disconnect c)
        (s.update c { phase := .closing (s.connections c).ownedStreams, ownedStreams := [] })
  | cleanUp {s c abandoned} (closing : (s.connections c).phase = .closing abandoned) :
      Step s (.cleanUp c)
        { s.update c { s.connections c with phase := .closed } with
          daemon := endAllFrameStreams s.daemon abandoned }
  | checkUpload {s target generation} :
      Step s (.checkUpload target)
        { s with daemon := (frameStreamTopologyGeneration s.daemon target generation).2 }
  | recordUpload {s target envelope now} :
      Step s (.recordUpload target)
        { s with daemon := (recordFrameUpload minInterval now s.daemon target envelope).2 }
  | replaceTopology {s devices} :
      Step s .replaceTopology { s with daemon := replaceDevices platform devices s.daemon }
  | suspend {s} :
      Step s .suspend { s with suspending := some (streamingTargets platform s.daemon) }
  | quiesce {s targets} (suspending : s.suspending = some targets) :
      Step s .quiesce { s with
        daemon := endAllFrameStreams s.daemon targets, suspending := none }
  | mutate {s next} (streams : next.frameStreams = s.daemon.frameStreams)
      (topology : next.topologyGeneration = s.daemon.topologyGeneration) :
      Step s .mutate { s with daemon := next }

end

def State.stream (s : State) (target : TargetId) : Option FrameStream :=
  s.daemon.frameStreams.lookup target

def Quiet (s : State) : Prop :=
  ∀ c, (s.connections c).phase = .live ∨ (s.connections c).phase = .closed

/-- Exactly the connection that began the stream lists it. -/
def ListedByOwner (s : State) (target : TargetId) : Prop :=
  ∀ c, ((s.connections c).phase = .live ∧ target ∈ (s.connections c).ownedStreams) ↔
    c = s.owner target

/-- The steps that may remove `stream` from `target`. A stream whose begin request is
not answered yet may also be taken back by that request. -/
def MayRemove (s : State) (target : TargetId) (stream : FrameStream) : Action → Prop
  | .endFrameStream c _ _ | .cleanUp c => c = s.owner target
  | .shmUnsupported c => c = s.owner target ∧
      (s.connections c).phase = .negotiating target stream.generation
  | .checkUpload _ | .recordUpload _ => stream.topologyGeneration ≠ s.daemon.topologyGeneration
  | .quiesce => True
  | _ => False

/-- The targets a connection will list, or release, once its request is done. -/
def Connection.claims (connection : Connection) : List TargetId :=
  match connection.phase with
  | .live => connection.ownedStreams
  | .negotiating target _ => target :: connection.ownedStreams
  | .ending target => connection.ownedStreams.filter (· ≠ target)
  | .closing abandoned => abandoned
  | .closed => []

/-- A stream is begun only on a target no other connection still claims, and an end
request names the generation of the active stream exactly if that is its own. -/
def Guard (s : State) : Action → Prop
  | .beginFrameStream c target | .beginShmFrameStream c target =>
    ∀ d, d ≠ c → target ∉ (s.connections d).claims
  | .endFrameStream c target generation =>
    ∀ stream, s.stream target = some stream →
      (s.owner target = c ↔ stream.generation = generation)
  | _ => True

structure Invariant (s : State) : Prop where
  owned : ∀ target stream, s.stream target = some stream →
    ∀ c, target ∈ (s.connections c).claims ↔ c = s.owner target
  negotiated : ∀ c target generation, (s.connections c).phase = .negotiating target generation →
    ∀ stream, s.stream target = some stream → stream.generation = generation

variable {s : State} {daemon : DaemonState}

theorem initial_invariant (h : Initial s) : Invariant s := by
  obtain ⟨daemon, he, rfl⟩ := h
  constructor <;> simp [State.stream, he]

theorem lookup_begun {next : DaemonState}
    (h : FrameStreams.beginFrameStream daemon target = .ok (gen, next)) :
    next.frameStreams.lookup key = if key = target then some (startedStream daemon gen)
      else daemon.frameStreams.lookup key := by
  obtain ⟨-, rfl⟩ := beginFrameStream_ok h
  by_cases hk : key = target
  · subst hk
    simp [AList.lookup_insert]
  · simp [AList.lookup_insert_ne hk, hk]

theorem survives_end
    (h : (FrameStreams.endFrameStream daemon target gen).frameStreams.lookup target = some stream) :
    daemon.frameStreams.lookup target = some stream ∧ stream.generation ≠ gen := by
  rw [lookup_endFrameStream] at h
  split at h
  · simp at h
  · next ho =>
    refine ⟨h, fun hs => ho ?_⟩
    simp [h, hs]

theorem kept_refl : Kept daemon.frameStreams daemon.frameStreams :=
  kept_of_lookup fun _ _ h => h

section

variable (h : Invariant s)

include h

theorem Invariant.listedByOwner (hq : Quiet s) (hs : s.stream target = some stream) :
    ListedByOwner s target := by
  intro c
  rw [← h.owned target stream hs c]
  rcases hq c with hp | hp <;> simp [Connection.claims, hp]

theorem Invariant.shrink (ho : t.owner = s.owner)
    (hk : Kept s.daemon.frameStreams t.daemon.frameStreams)
    (hc : ∀ target stream, t.stream target = some stream →
      ∀ c, target ∈ (t.connections c).claims ↔ target ∈ (s.connections c).claims)
    (hn : ∀ c target gen, (t.connections c).phase = .negotiating target gen →
        (s.connections c).phase = .negotiating target gen) : Invariant t where
  owned target stream hs c := by
    obtain ⟨old, hol, -⟩ := hk target stream hs
    rw [hc target stream hs c, ho]
    exact h.owned target old hol c
  negotiated c target gen hp stream hs := by
    obtain ⟨old, hol, hg⟩ := hk target stream hs
    rw [← hg]
    exact h.negotiated c target gen (hn c target gen hp) old hol

theorem Invariant.move (hk : Kept s.daemon.frameStreams daemon.frameStreams)
    (hc : ∀ target stream, daemon.frameStreams.lookup target = some stream →
      (target ∈ connection.claims ↔ target ∈ (s.connections c).claims))
    (hp : ∀ target gen, connection.phase ≠ .negotiating target gen) :
    Invariant { s.update c connection with daemon := daemon } := by
  refine h.shrink rfl hk ?_ ?_
  · intro target stream hs d
    by_cases hd : d = c
    · subst hd
      simpa [State.update] using hc target stream hs
    · simp [State.update, hd]
  · intro d target gen hn
    by_cases hd : d = c
    · subst hd
      simp only [State.update, Function.update_self] at hn
      exact absurd hn (hp target gen)
    · simpa [State.update, hd] using hn

theorem Invariant.feed (hf : FeedsOnly s.daemon daemon) : Invariant { s with daemon := daemon } :=
  h.shrink rfl hf.kept (fun _ _ _ _ => Iff.rfl) (fun _ _ _ hp => hp)

theorem Invariant.begin {next : DaemonState} (hf : ∀ d, d ≠ c → target ∉ (s.connections d).claims)
    (hb : FrameStreams.beginFrameStream s.daemon target = .ok (gen, next))
    (hc : ∀ key, key ∈ connection.claims ↔ key = target ∨ key ∈ (s.connections c).claims)
    (hp : ∀ key g, connection.phase = .negotiating key g → key = target ∧ g = gen) :
    Invariant { s.update c connection with
      daemon := next, owner := Function.update s.owner target c } where
  owned key stream hs d := by
    simp only [State.stream, lookup_begun hb] at hs
    by_cases hk : key = target
    · subst hk
      by_cases hd : d = c
      · subst hd
        simp [State.update, hc]
      · simp [State.update, hd, hf d hd]
    · rw [if_neg hk] at hs
      have ho := h.owned key stream hs d
      by_cases hd : d = c
      · subst hd
        simpa [State.update, hc, hk] using ho
      · simpa [State.update, hd, hk] using ho
  negotiated d key g hn stream hs := by
    simp only [State.stream, lookup_begun hb] at hs
    by_cases hd : d = c
    · subst hd
      simp only [State.update, Function.update_self] at hn
      obtain ⟨rfl, rfl⟩ := hp key g hn
      rw [if_pos rfl] at hs
      rw [← Option.some.inj hs]
      rfl
    · simp only [State.update, Function.update_of_ne hd] at hn
      have hcl : key ∈ (s.connections d).claims := by simp [Connection.claims, hn]
      by_cases hk : key = target
      · exact absurd (hk ▸ hcl) (hf d hd)
      · rw [if_neg hk] at hs
        exact h.negotiated d key g hn stream hs

theorem Invariant.shmUnsupported (hn : (s.connections c).phase = .negotiating tg gen) :
    Invariant { s.update c { s.connections c with phase := .live } with
      daemon := FrameStreams.endFrameStream s.daemon tg gen } := by
  refine h.move (kept_of_removal fun key => lookup_endFrameStream ..) ?_ (by simp)
  intro key stream hs
  have hk : key ≠ tg := by
    -- the stream begun for this negotiation has its generation, so it was removed
    rintro rfl
    obtain ⟨hl, ho⟩ := survives_end hs
    exact ho (h.negotiated c key gen hn stream hl)
  simp [Connection.claims, hn, hk]

theorem Invariant.endFrameStream (hr : (s.connections c).phase = .live)
    (hg : Guard s (.endFrameStream c tg gen)) :
    Invariant { s.update c { s.connections c with phase := .ending tg } with
      daemon := FrameStreams.endFrameStream s.daemon tg gen } := by
  refine h.move (kept_of_removal fun key => lookup_endFrameStream ..) ?_ (by simp)
  intro key stream hs
  by_cases hk : key = tg
  · subst hk
    obtain ⟨hl, ho⟩ := survives_end hs
    have how : c ≠ s.owner key := fun heq => ho ((hg stream hl).1 heq.symm)
    have hu : key ∉ (s.connections c).claims := fun hc =>
      how ((h.owned key stream hl c).1 hc)
    simp only [Connection.claims, hr] at hu
    simp [Connection.claims, hr, hu]
  · simp [Connection.claims, hr, hk]

theorem Invariant.cleanUp (hc : (s.connections c).phase = .closing abandoned) :
    Invariant { s.update c { s.connections c with phase := .closed } with
      daemon := endAllFrameStreams s.daemon abandoned } := by
  refine h.move (kept_of_removal fun key => lookup_endAllFrameStreams ..) ?_ (by simp)
  intro key stream hs
  rw [lookup_endAllFrameStreams] at hs
  split at hs
  · simp at hs
  · next hk => simp [Connection.claims, hc, hk]

theorem step_invariant (hg : Guard s a) (hs : Step p gap s a t) : Invariant t := by
  cases hs with
  | beginFrameStream ready begun =>
    refine h.begin hg begun (fun key => ?_) (by simp [ready])
    simp [Connection.claims, ready, or_comm]
  | beginShmFrameStream ready _ begun =>
    refine h.begin hg begun (fun key => ?_) ?_
    · simp [Connection.claims, ready]
    · rintro key g hph
      obtain ⟨rfl, rfl⟩ := Phase.negotiating.inj hph
      exact ⟨rfl, rfl⟩
  | shmReady negotiating =>
    refine h.move kept_refl (fun key _ _ => ?_) (by simp)
    simp [Connection.claims, negotiating, or_comm]
  | shmUnsupported negotiating => exact h.shmUnsupported negotiating
  | endFrameStream ready => exact h.endFrameStream ready hg
  | forget ending =>
    refine h.move kept_refl (fun key _ _ => ?_) (by simp)
    simp [Connection.claims, ending]
  | disconnect ready =>
    refine h.move kept_refl (fun key _ _ => ?_) (by simp)
    simp [Connection.claims, ready]
  | cleanUp closing => exact h.cleanUp closing
  | checkUpload => exact h.feed (frameStreamTopologyGeneration_feeds ..)
  | recordUpload => exact h.feed (recordFrameUpload_feeds ..)
  | replaceTopology =>
    exact h.shrink rfl kept_refl (fun _ _ _ _ => Iff.rfl) (fun _ _ _ hp => hp)
  | suspend => exact ⟨h.owned, h.negotiated⟩
  | quiesce _ =>
    exact h.shrink rfl (kept_of_removal fun key => lookup_endAllFrameStreams ..)
      (fun _ _ _ _ => Iff.rfl) (fun _ _ _ hp => hp)
  | mutate streams =>
    exact h.shrink rfl (streams ▸ kept_refl) (fun _ _ _ _ => Iff.rfl) (fun _ _ _ hp => hp)

end

theorem not_removed (hs : pre = some stream) (hsa : after = pre) : after ≠ none := by
  simp [hsa, hs]

theorem removed_by_end (hs : dm.frameStreams.lookup key = some stream)
    (hgo : (FrameStreams.endFrameStream dm tg gen).frameStreams.lookup key = none) :
    key = tg ∧ stream.generation = gen := by
  obtain ⟨rfl, hg⟩ := removed_of_removal (fun key => lookup_endFrameStream dm tg key gen) hs hgo
  exact ⟨rfl, by simpa [hs] using hg⟩

theorem kept_by_begin {next : DaemonState}
    (hb : FrameStreams.beginFrameStream dm tg = .ok (gen, next))
    (hs : dm.frameStreams.lookup key = some stream) : next.frameStreams.lookup key ≠ none := by
  rw [lookup_begun hb]
  split <;> simp [hs]

theorem step_removes (h : Invariant s) (hgu : Guard s a) (hst : Step p gap s a t)
    (hs : s.stream key = some stream) (hgo : t.stream key = none) : MayRemove s key stream a := by
  cases hst with
  | beginFrameStream _ begun => exact kept_by_begin begun hs hgo
  | beginShmFrameStream _ _ begun => exact kept_by_begin begun hs hgo
  | shmUnsupported negotiating =>
    obtain ⟨rfl, hg⟩ := removed_by_end hs hgo
    refine ⟨(h.owned _ stream hs _).1 ?_, hg ▸ negotiating⟩
    simp [Connection.claims, negotiating]
  | endFrameStream _ =>
    obtain ⟨rfl, hg⟩ := removed_by_end hs hgo
    exact ((hgu stream hs).2 hg).symm
  | cleanUp closing =>
    have ha := removed_of_removal (lookup_endAllFrameStreams _ _) hs hgo
    apply (h.owned key stream hs _).1
    simpa [Connection.claims, closing] using ha
  | checkUpload => exact (frameStreamTopologyGeneration_feeds ..).dropped key stream hs hgo
  | recordUpload => exact (recordFrameUpload_feeds ..).dropped key stream hs hgo
  | quiesce _ => trivial
  | mutate streams _ => exact not_removed hs (by simp [State.stream, streams]) hgo
  | shmReady _ | forget _ | disconnect _ | replaceTopology | suspend =>
    exact not_removed hs rfl hgo

theorem reachable_invariant (h : Transition.Reachable Initial (Step platform minInterval) Guard s) :
    Invariant s := h.holds Invariant (fun _ => initial_invariant) fun _ _ _ hs => step_invariant hs

/-- Streams are removed only on behalf of the connection that began them, and between
requests that connection alone lists them. -/
theorem streams_stay_with_their_owner (platform : Platform) (minInterval : ℕ → ℕ) (s : State)
    (h : Transition.Reachable Initial (Step platform minInterval) Guard s) :
    (Quiet s → ∀ target stream, s.stream target = some stream → ListedByOwner s target) ∧
      ∀ action t, Guard s action → Step platform minInterval s action t →
        ∀ target stream, s.stream target = some stream → t.stream target = none →
          MayRemove s target stream action := by
  have hi := reachable_invariant h
  refine ⟨fun hq target stream hs => hi.listedByOwner hq hs, ?_⟩
  intro action t hg hst target stream hs hgo
  exact step_removes hi hg hst hs hgo

namespace Sample

open DesiredState.Sample (platform)
open FrameStreams.Sample

abbrev SampleStep := Step platform fun _ => 0

def started : State := { daemon := { topology := fromDevices [strip] } }

def streaming : State :=
  { started.update 0 { ownedStreams := [stripTarget] } with
    daemon := { started.daemon with
      frameStreams := started.daemon.frameStreams.insert stripTarget
        (startedStream started.daemon 1) }
    owner := Function.update started.owner stripTarget 0 }

/-- Connection `c` asks for the end of the strip's first stream. -/
def ended (c : ConnectionId) : State :=
  { streaming.update c { streaming.connections c with phase := .ending stripTarget } with
    daemon := FrameStreams.endFrameStream streaming.daemon stripTarget 1 }

theorem begin_stream : SampleStep started (.beginFrameStream 0 stripTarget) streaming :=
  @Step.beginFrameStream _ _ started 0 stripTarget 1 _ rfl rfl

theorem streaming_reachable {guard : State → Action → Prop}
    (hb : guard started (.beginFrameStream 0 stripTarget)) :
    Transition.Reachable Initial SampleStep guard streaming :=
  .step (.initial ⟨_, rfl, rfl⟩) hb begin_stream

theorem end_stream (hl : (streaming.connections c).phase = .live) :
    SampleStep streaming (.endFrameStream c stripTarget 1) (ended c) := Step.endFrameStream hl

end Sample

open Sample in
theorem strip_stays_with_connection :
    (streaming.stream stripTarget).isSome = true ∧ ListedByOwner streaming stripTarget ∧
      (ended 0).stream stripTarget = none ∧ MayRemove streaming stripTarget
        (startedStream started.daemon 1) (.endFrameStream 0 stripTarget 1) := by
  have hr : Transition.Reachable Initial SampleStep Guard streaming :=
    streaming_reachable fun d _ => List.not_mem_nil
  have hq : Quiet streaming := fun c => by
    cases c <;> exact .inl rfl
  have hg : Guard streaming (.endFrameStream 0 stripTarget 1) := fun stream hs => by
    cases hs
    exact iff_of_true rfl rfl
  obtain ⟨hl, hre⟩ := streams_stay_with_their_owner _ _ streaming hr
  exact ⟨rfl, hl hq stripTarget _ rfl, rfl, hre _ _ hg (end_stream rfl) stripTarget _ rfl rfl⟩

namespace Counterexample

open Sample

/-- `EndFrameStream` asks only for the generation: connection 1 ends the stream of
connection 0. -/
theorem stream_ended_by_another :
    Transition.Reachable Initial SampleStep (fun _ _ => True) streaming ∧
      SampleStep streaming (.endFrameStream 1 stripTarget 1) (ended 1) ∧
      streaming.stream stripTarget = some (startedStream started.daemon 1) ∧
      (ended 1).stream stripTarget = none ∧
      ¬ MayRemove streaming stripTarget (startedStream started.daemon 1)
        (.endFrameStream 1 stripTarget 1) :=
  ⟨streaming_reachable trivial, end_stream rfl, rfl, rfl, by simp [MayRemove, streaming]⟩

def suspended : State := { streaming with
  suspending := some (streamingTargets DesiredState.Sample.platform streaming.daemon) }

def quiesced : State := { suspended with
  daemon := endAllFrameStreams suspended.daemon [stripTarget], suspending := none }

def restarted : State :=
  { quiesced.update 1 { ownedStreams := [stripTarget] } with
    daemon := { quiesced.daemon with
      frameStreams := quiesced.daemon.frameStreams.insert stripTarget
        (startedStream quiesced.daemon 1) }
    owner := Function.update quiesced.owner stripTarget 1 }

/-- Suspending ends the stream of connection 0 but not its entry: the stream that
connection 1 begins next is listed twice. -/
theorem stream_listed_twice_after_suspend :
    Transition.Reachable Initial SampleStep (fun _ _ => True) restarted ∧ Quiet restarted ∧
      restarted.owner stripTarget = 1 ∧ ¬ ListedByOwner restarted stripTarget := by
  refine ⟨?_, fun c => ?_, rfl, fun h => absurd ((h 0).1 ⟨rfl, List.mem_singleton_self _⟩) ?_⟩
  · have hs : Transition.Reachable Initial SampleStep (fun _ _ => True) streaming :=
      streaming_reachable trivial
    have hsu := hs.step trivial Step.suspend
    have hq := hsu.step trivial (@Step.quiesce _ _ suspended [stripTarget] rfl)
    exact hq.step trivial (@Step.beginFrameStream _ _ quiesced 1 stripTarget 1 _ rfl rfl)
  · match c with
    | 0 | 1 | _ + 2 => exact .inl rfl
  · decide

end Counterexample

end StreamOwnership
