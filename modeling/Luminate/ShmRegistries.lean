import Luminate.StreamOwnership
import Luminate.TopologyInterleaving

/-! # Shared-memory streams

A frame stream may have an entry in two further registries: `plugins/shm.rs` for the leg
from the daemon to the plugin host, `plugins/shm_client.rs` for the leg from the client to
the daemon. The daemon state, the plugin manager and each registry have a lock of their
own; a step is what happens under one of them. -/
namespace ShmRegistries

open DeviceModel DaemonModel FrameStreams TargetTopology PluginOwnership PluginTopology List

abbrev ConnectionId := ℕ

/-- The rendering of a target that both registries use as their key. -/
def streamKey : TargetId → String
  | .device device => device
  | .surface device surface => device ++ "/" ++ surface
  | .element device surface element => device ++ "/" ++ surface ++ "/" ++ element
  | .group device group => device ++ "/group:" ++ group

abbrev Registry (Entry : Type) := String → Option Entry

namespace Registry

variable {Entry : Type} (streams : Registry Entry) (target : TargetId)

def insert (entry : Entry) : Registry Entry :=
  Function.update streams (streamKey target) (some entry)

def forceEnd : Registry Entry := Function.update streams (streamKey target) none

def endIf (ends : Entry → Bool) : Registry Entry :=
  if (streams (streamKey target)).any ends then streams.forceEnd target else streams

end Registry

structure ActiveShmStream where
  generation : ℕ
  connectionEpoch : ℕ
  deriving DecidableEq

abbrev ShmPublisherRegistry := Registry ActiveShmStream

/-- The entry of a client's stream is its generation. -/
abbrev ShmClientSubscriberRegistry := Registry ℕ

/-- `end`: a stream of another generation is left alone. -/
def ShmPublisherRegistry.endStream (streams : ShmPublisherRegistry) (target : TargetId)
    (generation : ℕ) : ShmPublisherRegistry := streams.endIf target (·.generation == generation)

/-- What a frame does to the registry: a stream of an earlier run of the plugin host is
discarded. -/
def ShmPublisherRegistry.apply (streams : ShmPublisherRegistry) (target : TargetId)
    (generation connectionEpoch : ℕ) : ShmPublisherRegistry :=
  streams.endIf target fun stream =>
    stream.generation == generation && stream.connectionEpoch != connectionEpoch

def ShmClientSubscriberRegistry.endStream (streams : ShmClientSubscriberRegistry)
    (target : TargetId) (generation : ℕ) : ShmClientSubscriberRegistry :=
  streams.endIf target (· == generation)

def pluginForDevice (manager : TopologyInterleaving.State) (device : DeviceId) :
    Option LoadedPlugin := do
  let owner ← manager.topology.ownerByDevice[device]?
  manager.loaded.find? (·.id == owner)

/-- The targets `unload_plugin` sweeps: the devices the plugin described, and no parts of
them. -/
def unloadedTargets (manager : TopologyInterleaving.State) (removed : LoadedPlugin) :
    List TargetId :=
  ((manager.topology.descriptorsByPlugin.find? (·.1 == removed.id)).elim [] (·.2)).map
    fun descriptor => .device descriptor.id

inductive Cause where
  | disconnect
  | suspend
  | unload
  deriving DecidableEq

inductive Phase where
  | idle
  /-- `BeginShmFrameStream` has begun the stream and sets up the client's leg. -/
  | subscribing (target : TargetId) (generation topology : ℕ)
  | unsupported (target : TargetId) (generation : ℕ)
  /-- The job for the plugin's leg has not checked yet that the topology is the authorized one. -/
  | negotiating (target : TargetId) (generation topology : ℕ)
  | checked (target : TargetId) (generation : ℕ)
  | accepted (target : TargetId) (generation : ℕ) (plugin : LoadedPluginId)
  /-- An end request has been to the daemon state; `client` tells `EndShmFrameStream` from
  `EndFrameStream`. -/
  | ending (client : Bool) (target : TargetId) (generation : ℕ)
  | findingOwner (client : Bool) (target : TargetId) (generation : ℕ)
  | unpublishing (client : Bool) (target : TargetId) (generation : ℕ)
  | unsubscribing (target : TargetId) (generation : ℕ)
  | closing (abandoned : List TargetId)
  | quiescing (targets : List TargetId)
  /-- Both registries are swept, the publishers first; `found` says that the owner of the
  next publisher's device has been looked up. -/
  | sweeping (cause : Cause) (found : Bool) (publishers subscribers : List TargetId)
  | closed
  deriving DecidableEq

/-- Where an end request goes on once the plugin's leg is dealt with. -/
def afterPublisher (client : Bool) (target : TargetId) (generation : ℕ) : Phase :=
  if client then .unsubscribing target generation else .idle

structure Connection where
  phase : Phase := .idle
  ownedStreams : List TargetId := []
  deriving DecidableEq

structure Config where
  preferShm : Bool
  preferClientShm : Bool

structure State where
  daemon : DaemonState
  manager : TopologyInterleaving.State := {}
  /-- `HostedPlugin::connection_epoch` of each plugin. -/
  epochs : LoadedPluginId → ℕ := fun _ => 0
  publishers : ShmPublisherRegistry := fun _ => none
  subscribers : ShmClientSubscriberRegistry := fun _ => none
  connections : ConnectionId → Connection := fun _ => {}
  /-- The plugin that serves the stream of a key: the owner of its device when the last of
  its legs was entered. No step depends on it. -/
  servedBy : String → Option LoadedPluginId := fun _ => none

def State.update (s : State) (c : ConnectionId) (connection : Connection) : State :=
  { s with connections := Function.update s.connections c connection }

abbrev State.phase (s : State) (c : ConnectionId) : Phase := (s.connections c).phase

def State.goTo (s : State) (c : ConnectionId) (phase : Phase) : State :=
  s.update c { s.connections c with phase }

def State.serve (s : State) (target : TargetId) (plugin : Option LoadedPluginId) : State :=
  { s with servedBy := Function.update s.servedBy (streamKey target) plugin }

/-- A reloaded plugin serves under its new identifier what it served before. -/
def State.rename (s : State) (old new : LoadedPluginId) : State :=
  { s with servedBy := fun key =>
      if s.servedBy key = some old then some new else s.servedBy key }

def State.own (s : State) (c : ConnectionId) (target : TargetId) (phase : Phase) : State :=
  s.update c ⟨phase, (s.connections c).ownedStreams ++ [target]⟩

inductive Action where
  | beginFrameStream (c : ConnectionId) (target : TargetId)
  | beginShmFrameStream (c : ConnectionId) (target : TargetId)
  | subscribe (c : ConnectionId)
  | fail (c : ConnectionId)
  | takeBack (c : ConnectionId)
  | check (c : ConnectionId)
  | accept (c : ConnectionId)
  | publish (c : ConnectionId)
  | endStream (c : ConnectionId) (client : Bool) (target : TargetId) (generation : ℕ)
  | forget (c : ConnectionId)
  | findOwner (c : ConnectionId)
  | unpublish (c : ConnectionId)
  | unsubscribe (c : ConnectionId)
  | disconnect (c : ConnectionId)
  | cleanUp (c : ConnectionId)
  | suspend (c : ConnectionId)
  | quiesce (c : ConnectionId)
  | finish (c : ConnectionId)
  | checkUpload (target : TargetId) (generation : ℕ)
  | recordUpload (target : TargetId) (envelope : FrameEnvelope)
  | deliver (target : TargetId) (generation : ℕ)
  | respawn (plugin : LoadedPluginId) (epoch : ℕ)
  | replaceTopology (devices : List Device)
  | mutate
  | manage (action : TopologyInterleaving.Action)
  | commitUnload (c : ConnectionId)

section

variable (config : Config) (platform : Platform) (minInterval : ℕ → ℕ)

/-- Whether a stream that `BeginFrameStream` has begun tries the plugin's leg. -/
def triesShm (state : DaemonState) (target : TargetId) : Bool :=
  config.preferShm && StreamOwnership.supportsShm state target

inductive Step : State → Action → State → Prop where
  | beginFrameStream {s c target generation daemon} (idle : s.phase c = .idle)
      (begun : FrameStreams.beginFrameStream s.daemon target = .ok (generation, daemon)) :
      Step s (.beginFrameStream c target)
        ({ s with daemon }.own c target
          (if triesShm config s.daemon target then
            .negotiating target generation s.daemon.topologyGeneration
          else .idle))
  | beginShmFrameStream {s c target generation daemon} (idle : s.phase c = .idle)
      (preferred : config.preferClientShm = true)
      (capable : StreamOwnership.supportsShm s.daemon target = true)
      (begun : FrameStreams.beginFrameStream s.daemon target = .ok (generation, daemon)) :
      Step s (.beginShmFrameStream c target)
        ({ s with daemon }.goTo c (.subscribing target generation s.daemon.topologyGeneration))
  | subscribe {s c target generation topology}
      (subscribing : s.phase c = .subscribing target generation topology) :
      Step s (.subscribe c)
        (({ s with subscribers := s.subscribers.insert target generation }.serve target
          ((pluginForDevice s.manager target.deviceId).map LoadedPlugin.id)).own c target
          (if config.preferShm then .negotiating target generation topology else .idle))
  | subscribeFails {s c target generation topology}
      (subscribing : s.phase c = .subscribing target generation topology) :
      Step s (.fail c) (s.goTo c (.unsupported target generation))
  | takeBack {s c target generation} (unsupported : s.phase c = .unsupported target generation) :
      Step s (.takeBack c)
        ({ s with daemon := endFrameStream s.daemon target generation }.goTo c .idle)
  | check {s c target generation topology}
      (negotiating : s.phase c = .negotiating target generation topology)
      (unchanged : s.daemon.topologyGeneration = topology) :
      Step s (.check c) (s.goTo c (.checked target generation))
  | checkFails {s c target generation topology}
      (negotiating : s.phase c = .negotiating target generation topology)
      (changed : s.daemon.topologyGeneration ≠ topology) :
      Step s (.check c) (s.goTo c .idle)
  | accept {s c target generation plugin} (checked : s.phase c = .checked target generation)
      (owner : pluginForDevice s.manager target.deviceId = some plugin) :
      Step s (.accept c) (s.goTo c (.accepted target generation plugin.id))
  /-- No owner, or the host declines. -/
  | acceptFails {s c target generation} (checked : s.phase c = .checked target generation) :
      Step s (.fail c) (s.goTo c .idle)
  | publish {s c target generation plugin}
      (accepted : s.phase c = .accepted target generation plugin) :
      Step s (.publish c)
        (({ s with publishers := s.publishers.insert target ⟨generation, s.epochs plugin⟩ }.serve
          target (some plugin)).goTo c .idle)
  | publishFails {s c target generation plugin}
      (accepted : s.phase c = .accepted target generation plugin) :
      Step s (.fail c) (s.goTo c .idle)
  | endStream {s c client target generation} (idle : s.phase c = .idle) :
      Step s (.endStream c client target generation)
        ({ s with daemon := endFrameStream s.daemon target generation }.goTo c
          (.ending client target generation))
  /-- The connection's own list, and `has_active_shm_stream`. -/
  | forget {s c client target generation} (ending : s.phase c = .ending client target generation) :
      Step s (.forget c)
        (s.update c
          ⟨if (s.publishers (streamKey target)).isSome then .findingOwner client target generation
            else afterPublisher client target generation,
          (s.connections c).ownedStreams.filter (· ≠ target)⟩)
  | findOwner {s c client target generation}
      (finding : s.phase c = .findingOwner client target generation) :
      Step s (.findOwner c)
        (s.goTo c (if (pluginForDevice s.manager target.deviceId).isSome then
          .unpublishing client target generation
        else afterPublisher client target generation))
  | unpublish {s c client target generation}
      (unpublishing : s.phase c = .unpublishing client target generation) :
      Step s (.unpublish c)
        ({ s with publishers := s.publishers.endStream target generation }.goTo c
          (afterPublisher client target generation))
  | unsubscribe {s c target generation}
      (unsubscribing : s.phase c = .unsubscribing target generation) :
      Step s (.unsubscribe c)
        ({ s with subscribers := s.subscribers.endStream target generation }.goTo c .idle)
  | disconnect {s c} (idle : s.phase c = .idle) :
      Step s (.disconnect c) (s.update c ⟨.closing (s.connections c).ownedStreams, []⟩)
  | cleanUp {s c abandoned} (closing : s.phase c = .closing abandoned) :
      Step s (.cleanUp c)
        ({ s with daemon := endAllFrameStreams s.daemon abandoned }.goTo c
          (.sweeping .disconnect false abandoned abandoned))
  | suspend {s c} (idle : s.phase c = .idle) :
      Step s (.suspend c) (s.goTo c (.quiescing (streamingTargets platform s.daemon)))
  | quiesce {s c targets} (quiescing : s.phase c = .quiescing targets) :
      Step s (.quiesce c)
        ({ s with daemon := endAllFrameStreams s.daemon targets }.goTo c
          (.sweeping .suspend false targets targets))
  | sweepFindOwner {s c cause target publishers subscribers}
      (sweeping : s.phase c = .sweeping cause false (target :: publishers) subscribers) :
      Step s (.findOwner c)
        (s.goTo c (if (pluginForDevice s.manager target.deviceId).isSome then
          .sweeping cause true (target :: publishers) subscribers
        else .sweeping cause false publishers subscribers))
  | sweepPublisher {s c cause target publishers subscribers}
      (sweeping : s.phase c = .sweeping cause true (target :: publishers) subscribers) :
      Step s (.unpublish c)
        ({ s with publishers := s.publishers.forceEnd target }.goTo c
          (.sweeping cause false publishers subscribers))
  | sweepSubscriber {s c cause target subscribers}
      (sweeping : s.phase c = .sweeping cause false [] (target :: subscribers)) :
      Step s (.unsubscribe c)
        ({ s with subscribers := s.subscribers.forceEnd target }.goTo c
          (.sweeping cause false [] subscribers))
  | finish {s c cause} (sweeping : s.phase c = .sweeping cause false [] []) :
      Step s (.finish c) (s.goTo c (if cause = .disconnect then .closed else .idle))
  | checkUpload {s target generation} :
      Step s (.checkUpload target generation)
        { s with daemon := (frameStreamTopologyGeneration s.daemon target generation).2 }
  | recordUpload {s target envelope now} :
      Step s (.recordUpload target envelope)
        { s with daemon := (recordFrameUpload minInterval now s.daemon target envelope).2 }
  | deliver {s target generation plugin}
      (owner : pluginForDevice s.manager target.deviceId = some plugin) :
      Step s (.deliver target generation)
        { s with publishers := s.publishers.apply target generation (s.epochs plugin.id) }
  | respawn {s plugin epoch} :
      Step s (.respawn plugin epoch) { s with epochs := Function.update s.epochs plugin epoch }
  | replaceTopology {s devices} :
      Step s (.replaceTopology devices)
        { s with daemon := replaceDevices platform devices s.daemon }
  | mutate {s daemon} (streams : daemon.frameStreams = s.daemon.frameStreams)
      (topology : daemon.topologyGeneration = s.daemon.topologyGeneration) :
      Step s .mutate { s with daemon }
  | manage {s action manager} (other : ∀ c, action ≠ .commitUnload c ∧ action ≠ .push c)
      (step : TopologyInterleaving.Step s.manager action manager) :
      Step s (.manage action) { s with manager }
  | push {s c old descriptors manager} (task : s.manager.tasks c = .restarted old descriptors)
      (step : TopologyInterleaving.Step s.manager (.push c) manager) :
      Step s (.manage (.push c)) ({ s with manager }.rename old.id s.manager.nextId)
  /-- The rest of `unload_plugin`, once the topology is committed. -/
  | commitUnload {s c removed remaining manager} (idle : s.phase c = .idle)
      (task : s.manager.tasks c = .unloading removed remaining)
      (step : TopologyInterleaving.Step s.manager (.commitUnload c) manager)
      (committed : manager.tasks c ≠ .idle) :
      Step s (.commitUnload c)
        ({ s with manager }.goTo c (.sweeping .unload false
          (unloadedTargets s.manager removed) (unloadedTargets s.manager removed)))
  | unloadFails {s c manager}
      (step : TopologyInterleaving.Step s.manager (.commitUnload c) manager)
      (failed : manager.tasks c = .idle) :
      Step s (.commitUnload c) { s with manager }

end

structure Initial (s : State) : Prop where
  streams : s.daemon.frameStreams = ∅
  publishers : ∀ key, s.publishers key = none
  subscribers : ∀ key, s.subscribers key = none
  idle : ∀ c, s.connections c = {}

def Active (daemon : DaemonState) (key : String) (generation : ℕ) : Prop :=
  ∃ target stream, streamKey target = key ∧ daemon.frameStreams.lookup target = some stream ∧
    stream.generation = generation

def Quiet (s : State) : Prop := ∀ c, s.phase c = .idle ∨ s.phase c = .closed

def Published (s : State) (key : String) (generation : ℕ) : Prop :=
  ∃ stream, s.publishers key = some stream ∧ stream.generation = generation

def Subscribed (s : State) (key : String) (generation : ℕ) : Prop :=
  s.subscribers key = some generation

inductive Leg where
  | publisher
  | subscriber

def Entered (s : State) : Leg → String → ℕ → Prop
  | .publisher => Published s
  | .subscriber => Subscribed s

def Registered (s : State) (key : String) (generation : ℕ) : Prop :=
  ∃ leg, Entered s leg key generation

def Served (s : State) (key : String) (plugin : LoadedPluginId) : Prop :=
  (∃ generation, Registered s key generation) ∧ s.servedBy key = some plugin

/-- Every entry is a leg of an active stream. While no operation is changing the loaded
plugins, the one that serves the stream is loaded. -/
structure Agrees (s : State) : Prop where
  publishers : ∀ key generation, Published s key generation → Active s.daemon key generation
  subscribers : ∀ key generation, Subscribed s key generation → Active s.daemon key generation
  plugins : TopologyInterleaving.Quiet s.manager →
    ∀ key plugin, Served s key plugin → plugin ∈ s.manager.loadedIds

def Streams (daemon : DaemonState) (target : TargetId) (generation : ℕ) : Prop :=
  ∃ stream, daemon.frameStreams.lookup target = some stream ∧ stream.generation = generation

/-- A frame that finds its stream outdated finds no entry for it. A leg is entered while its
stream is still active, and a stream whose client leg has failed has no entry.
`EndFrameStream` does not name a stream a client publishes. When the owner of a device is
looked up to end a plugin's leg, there is one. A plugin that accepts a leg stays loaded until
the leg is entered. One that is unloaded leaves a valid topology and serves only whole devices
it describes, and one that fails to restart serves nothing. -/
def Guard (s : State) : Action → Prop
  | .checkUpload target _ | .recordUpload target _ =>
      ∀ stream, s.daemon.frameStreams.lookup target = some stream →
        stream.topologyGeneration ≠ s.daemon.topologyGeneration →
        ¬ Registered s (streamKey target) stream.generation
  | .subscribe c => ∀ target generation topology,
      s.phase c = .subscribing target generation topology → Streams s.daemon target generation
  | .publish c => ∀ target generation plugin,
      s.phase c = .accepted target generation plugin →
      Streams s.daemon target generation ∧ plugin ∈ s.manager.loadedIds
  | .takeBack c => ∀ target generation, s.phase c = .unsupported target generation →
      ¬ Registered s (streamKey target) generation
  | .endStream _ client target generation =>
      client = false → ¬ Subscribed s (streamKey target) generation
  | .findOwner c =>
      (∀ client target generation, s.phase c = .findingOwner client target generation →
        (s.publishers (streamKey target)).isSome = true →
        (pluginForDevice s.manager target.deviceId).isSome = true) ∧
      ∀ cause target publishers subscribers,
        s.phase c = .sweeping cause false (target :: publishers) subscribers →
        (s.publishers (streamKey target)).isSome = true →
        (pluginForDevice s.manager target.deviceId).isSome = true
  | .commitUnload c => ∀ removed remaining, s.manager.tasks c = .unloading removed remaining →
      ∀ key, Served s key removed.id →
        (PluginTopology.commitUnload removed.id remaining s.manager.topology).isOk = true ∧
        ∃ target ∈ unloadedTargets s.manager removed, streamKey target = key
  | .manage (.restart c none) => ∀ old, s.manager.tasks c = .reloading old →
      ∀ key, ¬ Served s key old.id
  | _ => True

def Phase.Unpublishes (key : String) (generation : ℕ) : Phase → Prop
  | .ending _ target g | .findingOwner _ target g | .unpublishing _ target g =>
      streamKey target = key ∧ g = generation
  | .sweeping _ _ publishers _ => ∃ target ∈ publishers, streamKey target = key
  | _ => False

def Phase.Unsubscribes (key : String) (generation : ℕ) : Phase → Prop
  | .ending client target g | .findingOwner client target g | .unpublishing client target g =>
      client = true ∧ streamKey target = key ∧ g = generation
  | .unsubscribing target g => streamKey target = key ∧ g = generation
  | .sweeping _ _ _ subscribers => ∃ target ∈ subscribers, streamKey target = key
  | _ => False

def Phase.Removes (phase : Phase) : Leg → String → ℕ → Prop
  | .publisher, key, generation => phase.Unpublishes key generation
  | .subscriber, key, generation => phase.Unsubscribes key generation

/-- The plugin an operation has taken off the loaded list, to sweep its streams to put it
back. -/
def leaving : TopologyInterleaving.Task → Option LoadedPluginId
  | .unloaded removed | .unloading removed _ => some removed.id
  | .restarted old _ => some old.id
  | _ => none

def Present (m : TopologyInterleaving.State) (id : LoadedPluginId) : Prop :=
  id ∈ m.loadedIds ∨ ∃ c, leaving (m.tasks c) = some id

/-- The stream is active, and the plugin that serves it loaded or leaving. -/
def Alive (s : State) (key : String) (generation : ℕ) : Prop :=
  Active s.daemon key generation ∧
    ∀ plugin, s.servedBy key = some plugin → Present s.manager plugin

/-- Every entry is alive, or some request will remove it. -/
def Invariant (s : State) : Prop :=
  ∀ leg key generation, Entered s leg key generation →
    Alive s key generation ∨ ∃ c, (s.phase c).Removes leg key generation

theorem initial_invariant (h : Initial s) : Invariant s := by
  rintro (_ | _) key generation he
  · obtain ⟨stream, hs, -⟩ := he
    rw [h.publishers key] at hs
    cases hs
  · cases (h.subscribers key).symm.trans he

theorem Invariant.agrees (h : Invariant s) (hq : Quiet s) : Agrees s := by
  have ha : ∀ leg key g, Entered s leg key g → Alive s key g := by
    intro leg key g he
    apply (h leg key g he).resolve_right
    rintro ⟨c, hc⟩
    rcases hq c with hp | hp <;> rw [hp] at hc <;> cases leg <;> exact hc
  refine ⟨fun key g he => (ha .publisher key g he).1,
    fun key g he => (ha .subscriber key g he).1, ?_⟩
  rintro hm key plugin ⟨⟨g, leg, he⟩, hb⟩
  apply ((ha leg key g he).2 plugin hb).resolve_right
  rintro ⟨c, hc⟩
  simp [hm c, leaving] at hc

section

variable (h : Active dm key g)

include h

theorem Active.begin {next : DaemonState} (hb : beginFrameStream dm t = .ok (gen, next)) :
    Active next key g := by
  obtain ⟨other, stream, hk, hs, hg⟩ := h
  obtain ⟨hf, rfl⟩ := beginFrameStream_ok hb
  have hne : other ≠ t := by
    rintro rfl
    rw [hf] at hs
    cases hs
  exact ⟨other, stream, hk, by rw [AList.lookup_insert_ne hne, hs], hg⟩

theorem Active.endFrameStream (t : TargetId) (gen : ℕ) :
    Active (endFrameStream dm t gen) key g ∨ streamKey t = key ∧ gen = g := by
  obtain ⟨other, stream, hk, hs, hg⟩ := h
  have hl := lookup_endFrameStream dm t other gen
  split at hl
  · next he =>
    obtain ⟨rfl, hge⟩ := he
    rw [hs, Option.any_some, beq_iff_eq] at hge
    exact .inr ⟨hk, hge.symm.trans hg⟩
  · exact .inl ⟨other, stream, hk, hl.trans hs, hg⟩

theorem Active.endAllFrameStreams (ts : List TargetId) :
    Active (endAllFrameStreams dm ts) key g ∨ ∃ t ∈ ts, streamKey t = key := by
  obtain ⟨other, stream, hk, hs, hg⟩ := h
  have hl := lookup_endAllFrameStreams dm ts other
  split at hl
  · next he => exact .inr ⟨other, he, hk⟩
  · exact .inl ⟨other, stream, hk, hl.trans hs, hg⟩

theorem Active.feed {next : DaemonState} (hf : FeedsOnly dm next) (ho : ∀ other, other ≠ t →
      next.frameStreams.lookup other = dm.frameStreams.lookup other) :
    Active next key g ∨ ∃ stream, dm.frameStreams.lookup t = some stream ∧
      stream.topologyGeneration ≠ dm.topologyGeneration ∧ streamKey t = key ∧
      stream.generation = g := by
  obtain ⟨other, stream, hk, hs, hg⟩ := h
  cases hn : next.frameStreams.lookup other with
  | some fed =>
    obtain ⟨old, hol, hge⟩ := hf.kept other fed hn
    cases hol.symm.trans hs
    exact .inl ⟨other, fed, hk, hn, hge.symm.trans hg⟩
  | none =>
    have ht : other = t := by
      by_contra hne
      rw [ho other hne, hs] at hn
      cases hn
    subst ht
    exact .inr ⟨stream, hs, hf.dropped other stream hs hn, hk, hg⟩

theorem Active.of_streams (heq : streams.frameStreams = dm.frameStreams) :
    Active streams key g := by
  unfold Active
  rwa [heq]

end

theorem Streams.active (h : Streams dm t g) : Active dm (streamKey t) g := by
  obtain ⟨stream, hs, hg⟩ := h
  exact ⟨t, stream, rfl, hs, hg⟩

section

variable {Entry : Type} {streams : Registry Entry} {t : TargetId} {key : String}
  {e : Entry}

theorem Registry.eq_of_insert (h : streams.insert t new key = some e) :
    streams key = some e ∨ streamKey t = key ∧ new = e := by
  by_cases hk : key = streamKey t
  · rw [Registry.insert, hk, Function.update_self] at h
    exact .inr ⟨hk.symm, Option.some.inj h⟩
  · rw [Registry.insert, Function.update_of_ne hk] at h
    exact .inl h

theorem Registry.eq_of_forceEnd (h : streams.forceEnd t key = some e) :
    streams key = some e ∧ streamKey t ≠ key := by
  by_cases hk : key = streamKey t
  · rw [Registry.forceEnd, hk, Function.update_self] at h
    cases h
  · rw [Registry.forceEnd, Function.update_of_ne hk] at h
    exact ⟨h, Ne.symm hk⟩

theorem Registry.eq_of_endIf (h : streams.endIf t ends key = some e) :
    streams key = some e ∧ (streamKey t = key → ends e = false) := by
  unfold Registry.endIf at h
  split at h
  · obtain ⟨hk, hne⟩ := Registry.eq_of_forceEnd h
    exact ⟨hk, fun hke => absurd hke hne⟩
  · next ho =>
    refine ⟨h, ?_⟩
    rintro rfl
    simpa [h] using ho

end

section

variable {s t : State} {c : ConnectionId}

/-- From `s` to `t` at most the request of `c` has gone on. -/
def Moves (s t : State) (c : ConnectionId) : Prop := ∀ d, d ≠ c → t.phase d = s.phase d

theorem moves_update : Moves s (s.update c connection) c := fun d hd => by
  simp only [State.phase, State.update, Function.update_of_ne hd]

theorem phase_update : (s.update c connection).phase c = connection.phase := by
  simp [State.phase, State.update]

theorem Invariant.step (h : Invariant s) (hm : Moves s t c)
    (he : ∀ leg key g, Entered t leg key g → Entered s leg key g ∨ Alive t key g)
    (hr : ∀ leg key g, Entered t leg key g → Alive s key g ∨ (s.phase c).Removes leg key g →
      Alive t key g ∨ (t.phase c).Removes leg key g) : Invariant t := by
  intro leg key g hen
  have how : Alive s key g ∨ (s.phase c).Removes leg key g →
      Alive t key g ∨ ∃ d, (t.phase d).Removes leg key g :=
    fun hor => (hr leg key g hen hor).imp_right fun hrm => ⟨c, hrm⟩
  rcases he leg key g hen with hb | ha
  · rcases h leg key g hb with ha | ⟨d, hd⟩
    · exact how (.inl ha)
    · by_cases hdc : d = c
      · exact how (.inr (hdc ▸ hd))
      · exact .inr ⟨d, by rwa [hm d hdc]⟩
  · exact .inl ha

/-- The request has no entry to remove. -/
def Phase.Light (phase : Phase) : Prop :=
  ∀ key g, ¬ phase.Unpublishes key g ∧ ¬ phase.Unsubscribes key g

theorem Phase.Light.not_removes (h : Phase.Light ph) : ¬ ph.Removes leg key g := by
  cases leg with
  | publisher => exact (h key g).1
  | subscriber => exact (h key g).2

theorem Invariant.light (h : Invariant s) (hm : Moves s t c) (hl : (s.phase c).Light)
    (he : ∀ leg key g, Entered t leg key g → Entered s leg key g ∨ Alive t key g)
    (hr : ∀ leg key g, Entered t leg key g → Alive s key g →
      Alive t key g ∨ (t.phase c).Removes leg key g) : Invariant t :=
  h.step hm he fun leg key g hen hor => hr leg key g hen (hor.resolve_right hl.not_removes)

theorem Invariant.go (h : Invariant s) (hm : Moves s t c) (hl : (s.phase c).Light)
    (he : ∀ leg key g, Entered t leg key g → Entered s leg key g ∨ Alive t key g)
    (ha : ∀ key g, Alive s key g → Alive t key g) : Invariant t :=
  h.light hm hl he fun _ key g _ hs => .inl (ha key g hs)

/-- The streams are left alone; of the entries that the request was to remove, those still
there it is still to remove. -/
theorem Invariant.remove (h : Invariant s) (hm : Moves s t c) (hd : Alive t = Alive s)
    (hr : ∀ leg key g, Entered t leg key g → Entered s leg key g ∧
      ((s.phase c).Removes leg key g → (t.phase c).Removes leg key g)) : Invariant t := by
  refine h.step hm (fun leg key g he => .inl (hr leg key g he).1) fun leg key g he hor => ?_
  rw [hd]
  exact hor.imp_right (hr leg key g he).2

theorem Invariant.keep (h : Invariant s) (hc : t.connections = s.connections)
    (he : ∀ leg key g, Entered t leg key g → Entered s leg key g)
    (ha : ∀ key g, Registered s key g → Alive s key g → Alive t key g) :
    Invariant t := by
  have hph : ∀ d, t.phase d = s.phase d := fun d => by rw [State.phase, hc]
  refine h.step (c := 0) (fun d _ => hph d) (fun leg key g hen => .inl (he leg key g hen))
    fun leg key g hen hor => ?_
  rw [hph]
  exact hor.imp_left (ha key g ⟨leg, he leg key g hen⟩)

theorem light_of_eq (h : s.phase c = phase) (hl : phase.Light) : (s.phase c).Light := h ▸ hl

theorem Published.isSome (h : Published s key g) : (s.publishers key).isSome = true := by
  obtain ⟨stream, hs, -⟩ := h
  rw [hs]
  rfl

variable {gen : ℕ}

theorem unsubscribes_afterPublisher : (afterPublisher client target gen).Unsubscribes key g ↔
      client = true ∧ streamKey target = key ∧ gen = g := by
  cases client <;> simp [afterPublisher, Phase.Unsubscribes]

section

variable (h : Invariant s)

include h

theorem Invariant.endStream (hi : s.phase c = .idle) (hg : Guard s (.endStream c client tg gen)) :
    Invariant ({ s with daemon := FrameStreams.endFrameStream s.daemon tg gen }.goTo c
      (.ending client tg gen)) := by
  refine h.light moves_update (light_of_eq hi fun _ _ => ⟨id, id⟩) (fun _ _ _ => .inl)
    fun leg key g he ha => ?_
  rw [State.goTo, phase_update]
  apply (ha.1.endFrameStream tg gen).imp (⟨·, ha.2⟩)
  rintro ⟨rfl, rfl⟩
  cases leg with
  | publisher => exact ⟨rfl, rfl⟩
  | subscriber =>
    cases client with
    | true => exact ⟨rfl, rfl, rfl⟩
    | false => exact absurd he (hg rfl)

theorem Invariant.takeBack (hu : s.phase c = .unsupported tg gen) (hg : Guard s (.takeBack c)) :
    Invariant ({ s with daemon := FrameStreams.endFrameStream s.daemon tg gen }.goTo c .idle) := by
  refine h.light moves_update (light_of_eq hu fun _ _ => ⟨id, id⟩) (fun _ _ _ => .inl)
    fun leg key g he ha => ?_
  apply (ha.1.endFrameStream tg gen).imp (⟨·, ha.2⟩)
  rintro ⟨rfl, rfl⟩
  exact absurd ⟨leg, he⟩ (hg tg gen hu)

theorem Invariant.forget (hen : s.phase c = .ending client tg gen) (ownedStreams : List TargetId) :
    Invariant (s.update c ⟨if (s.publishers (streamKey tg)).isSome then .findingOwner client tg gen
        else afterPublisher client tg gen, ownedStreams⟩) := by
  refine h.remove moves_update rfl fun leg key g he => ⟨he, ?_⟩
  rcases leg
  · rw [hen, phase_update]
    rintro ⟨rfl, rfl⟩
    rw [if_pos (Published.isSome (s := s) he)]
    exact ⟨rfl, rfl⟩
  · rw [hen, phase_update]
    intro hu
    split
    · exact hu
    · exact unsubscribes_afterPublisher.2 hu

theorem Invariant.findOwner (hf : s.phase c = .findingOwner client tg gen)
    (hg : Guard s (.findOwner c)) :
    Invariant (s.goTo c (if (pluginForDevice s.manager tg.deviceId).isSome then
      .unpublishing client tg gen else afterPublisher client tg gen)) := by
  refine h.remove moves_update rfl fun leg key g he => ⟨he, ?_⟩
  rcases leg
  · rw [hf, State.goTo, phase_update]
    rintro ⟨rfl, rfl⟩
    rw [if_pos (hg.1 _ _ _ hf (Published.isSome (s := s) he))]
    exact ⟨rfl, rfl⟩
  · rw [hf, State.goTo, phase_update]
    intro hu
    split
    · exact hu
    · exact unsubscribes_afterPublisher.2 hu

theorem Invariant.unpublish (hu : s.phase c = .unpublishing client tg gen) :
    Invariant ({ s with publishers := s.publishers.endStream tg gen }.goTo c
      (afterPublisher client tg gen)) := by
  refine h.remove moves_update rfl ?_
  rintro (_ | _) key g he
  · obtain ⟨stream, hs, rfl⟩ := he
    obtain ⟨hb, ho⟩ := Registry.eq_of_endIf hs
    refine ⟨⟨stream, hb, rfl⟩, ?_⟩
    rw [hu]
    rintro ⟨hk, rfl⟩
    simpa using ho hk
  · rw [hu, State.goTo, phase_update]
    exact ⟨he, unsubscribes_afterPublisher.2⟩

theorem Invariant.unsubscribe (hu : s.phase c = .unsubscribing tg gen) :
    Invariant ({ s with subscribers := s.subscribers.endStream tg gen }.goTo c .idle) := by
  refine h.remove moves_update rfl ?_
  rintro (_ | _) key g he
  · rw [hu]
    exact ⟨he, False.elim⟩
  · obtain ⟨hb, ho⟩ := Registry.eq_of_endIf he
    refine ⟨hb, ?_⟩
    rw [hu]
    rintro ⟨hk, rfl⟩
    simpa using ho hk

end

section

variable {cause : Cause} {tg : TargetId} {publishers subscribers : List TargetId}

/-- The streams of `targets` end, and both registries are to be swept for them. -/
theorem Invariant.sweep (h : Invariant s) (hl : (s.phase c).Light) :
    Invariant ({ s with daemon := endAllFrameStreams s.daemon ts }.goTo c
      (.sweeping cause false ts ts)) := by
  refine h.light moves_update hl (fun _ _ _ => .inl) fun leg key g _ ha => ?_
  rw [State.goTo, phase_update]
  apply (ha.1.endAllFrameStreams ts).imp (⟨·, ha.2⟩)
  cases leg <;> exact id

theorem still_swept (hne : streamKey tg ≠ key) (h : ∃ other ∈ tg :: ts, streamKey other = key) :
    ∃ other ∈ ts, streamKey other = key := by
  obtain ⟨other, hm, hk⟩ := h
  rcases mem_cons.1 hm with rfl | hr
  · exact absurd hk hne
  · exact ⟨other, hr, hk⟩

theorem Invariant.sweepFindOwner (h : Invariant s)
    (hs : s.phase c = .sweeping cause false (tg :: publishers) subscribers)
    (hg : Guard s (.findOwner c)) :
    Invariant (s.goTo c (if (pluginForDevice s.manager tg.deviceId).isSome then
      .sweeping cause true (tg :: publishers) subscribers
    else .sweeping cause false publishers subscribers)) := by
  refine h.remove moves_update rfl fun leg key g he => ⟨he, ?_⟩
  rcases leg
  · rw [hs, State.goTo, phase_update]
    intro hu
    split
    · exact hu
    · next hun =>
      -- an entry under the key of the target would have an owner
      refine still_swept (fun hk => hun ?_) hu
      exact hg.2 _ _ _ _ hs (hk ▸ Published.isSome (s := s) he)
  · rw [hs, State.goTo, phase_update]
    intro hu
    split <;> exact hu

theorem Invariant.sweepPublisher (h : Invariant s)
    (hs : s.phase c = .sweeping cause true (tg :: publishers) subscribers) :
    Invariant ({ s with publishers := s.publishers.forceEnd tg }.goTo c
      (.sweeping cause false publishers subscribers)) := by
  refine h.remove moves_update rfl fun leg key g he => ?_
  rw [hs, State.goTo, phase_update]
  rcases leg
  · obtain ⟨stream, hst, rfl⟩ := he
    obtain ⟨hb, hne⟩ := Registry.eq_of_forceEnd hst
    exact ⟨⟨stream, hb, rfl⟩, still_swept hne⟩
  · exact ⟨he, id⟩

theorem Invariant.sweepSubscriber (h : Invariant s)
    (hs : s.phase c = .sweeping cause false [] (tg :: subscribers)) :
    Invariant ({ s with subscribers := s.subscribers.forceEnd tg }.goTo c
      (.sweeping cause false [] subscribers)) := by
  refine h.remove moves_update rfl fun leg key g he => ?_
  rw [hs, State.goTo, phase_update]
  rcases leg
  · exact ⟨he, id⟩
  · obtain ⟨hb, hne⟩ := Registry.eq_of_forceEnd he
    exact ⟨hb, still_swept hne⟩

end

theorem present_of_owner (h : (pluginForDevice m device).map LoadedPlugin.id = some plugin) :
    Present m plugin := by
  obtain ⟨owner, ho, rfl⟩ := Option.map_eq_some_iff.1 h
  obtain ⟨id, -, hf⟩ := Option.bind_eq_some_iff.1 ho
  exact .inl (mem_map_of_mem (mem_of_find?_eq_some hf))

theorem alive_serve (ha : Active s.daemon key g)
    (hp : ∀ plugin, server = some plugin → Present s.manager plugin)
    (ho : key ≠ streamKey target → Alive s key g) : Alive (s.serve target server) key g := by
  refine ⟨ha, fun plugin hs => ?_⟩
  by_cases hk : key = streamKey target
  · exact hp plugin (by simpa [State.serve, hk] using hs)
  · exact (ho hk).2 plugin (by simpa [State.serve, hk] using hs)

theorem Invariant.subscribe (h : Invariant s) (hs : s.phase c = .subscribing target gen topology)
    (hg : Guard s (.subscribe c)) :
    Invariant (({ s with subscribers := s.subscribers.insert target gen }.serve target
      ((pluginForDevice s.manager target.deviceId).map LoadedPlugin.id)).own c target phase) := by
  refine h.go moves_update (light_of_eq hs fun _ _ => ⟨id, id⟩)
    ?_ fun _ _ ha => alive_serve ha.1 (fun _ => present_of_owner) fun _ => ha
  rintro (_ | _) key g he
  · exact .inl he
  apply (Registry.eq_of_insert he).imp_right
  rintro ⟨rfl, rfl⟩
  exact alive_serve (hg _ _ _ hs).active (fun _ => present_of_owner) (absurd rfl)

theorem Invariant.publish (h : Invariant s) (ha : s.phase c = .accepted target gen plugin)
    (hg : Guard s (.publish c)) : Invariant (({ s with
      publishers := s.publishers.insert target ⟨gen, s.epochs plugin⟩ }.serve target
        (some plugin)).goTo c .idle) := by
  obtain ⟨hst, hpl⟩ := hg _ _ _ ha
  have hpr : ∀ p, some plugin = some p → Present s.manager p :=
    fun p hp => .inl (Option.some.inj hp ▸ hpl)
  refine h.go moves_update (light_of_eq ha fun _ _ => ⟨id, id⟩)
    ?_ fun _ _ ha => alive_serve ha.1 hpr fun _ => ha
  rintro (_ | _) key g he
  · obtain ⟨stream, hs, rfl⟩ := he
    rcases Registry.eq_of_insert hs with hb | ⟨rfl, rfl⟩
    · exact .inl ⟨stream, hb, rfl⟩
    · exact .inr (alive_serve hst.active hpr (absurd rfl))
  · exact .inl he

/-- The plugin that an action of the manager may leave neither loaded nor leaving. -/
def Drops (m : TopologyInterleaving.State) (id : LoadedPluginId) :
    TopologyInterleaving.Action → Prop
  | .commitUnload c => ∃ removed remaining, m.tasks c = .unloading removed remaining ∧
      removed.id = id
  | .restart c none => ∃ old, m.tasks c = .reloading old ∧ old.id = id
  | .push c => ∃ old descriptors, m.tasks c = .restarted old descriptors ∧ old.id = id
  | _ => False

section

open TopologyInterleaving (moves_of_update)

variable {m next : TopologyInterleaving.State} {plugin : LoadedPluginId}

theorem Present.move (h : Present m plugin) (hm : TopologyInterleaving.Moves m next c task)
    (ht : leaving (m.tasks c) = some plugin → leaving task = some plugin)
    (hl : plugin ∈ m.loadedIds → plugin ∈ next.loadedIds ∨ leaving task = some plugin) :
    Present next plugin := by
  rcases h with hi | ⟨d, hd⟩
  · exact (hl hi).imp_right fun he => ⟨c, hm.self ▸ he⟩
  · exact .inr ⟨d, hm.keeps leaving hd ht⟩

theorem id_mem_eraseP {ld : List LoadedPlugin} (hf : ld.find? p = some removed)
    (h : plugin ∈ ld.map (·.id)) :
    plugin ∈ (ld.eraseP p).map (·.id) ∨ some removed.id = some plugin := by
  obtain ⟨hp, pre, after, rfl, hn⟩ := find?_eq_some_iff_append.1 hf
  rw [eraseP_append_right _ (by simpa using hn), eraseP_cons_of_pos hp]
  simp only [map_append, map_cons, mem_append, mem_cons] at h ⊢
  rcases h with hb | rfl | ha
  · exact .inl (.inl hb)
  · exact .inr rfl
  · exact .inl (.inr ha)

theorem id_mem_filter {ld : List LoadedPlugin} (h : plugin ∈ ld.map (·.id)) :
    plugin ∈ (ld.filter (·.id != old)).map (·.id) ∨ some old = some plugin := by
  by_cases heq : old = plugin
  · exact .inr (congrArg some heq)
  · obtain ⟨listed, hp, rfl⟩ := mem_map.1 h
    exact .inl (mem_map_of_mem (mem_filter.2 ⟨hp, by simpa using Ne.symm heq⟩))

theorem present_step (hs : TopologyInterleaving.Step m a next) (h : Present m plugin) :
    Present next plugin ∨ Drops m plugin a := by
  refine or_iff_not_imp_right.2 fun hn => ?_
  cases hs with
  | unload idle _ fd =>
    exact h.move (moves_of_update rfl) (by simp [idle, leaving]) (id_mem_eraseP fd)
  | restart task => exact h.move (moves_of_update rfl) (by simp [task, leaving]) id_mem_filter
  | restartFails task =>
    refine h.move (moves_of_update rfl) (by simp [task, leaving]) fun hl => .inl ?_
    exact (id_mem_filter hl).resolve_right fun he => hn ⟨_, task, Option.some.inj he⟩
  | push task =>
    refine h.move (moves_of_update rfl) (fun he => ?_) fun hl => .inl ?_
    · rw [task] at he
      exact absurd ⟨_, _, task, Option.some.inj he⟩ hn
    · exact map_subset _ (subset_append_left _ _) hl
  | commitUnload task | unloadFails task =>
    refine h.move (moves_of_update rfl) (fun he => ?_) .inl
    rw [task] at he
    exact absurd ⟨_, _, task, Option.some.inj he⟩ hn
  | commitActivate task =>
    exact h.move (moves_of_update rfl) (by simp [task, leaving])
      fun hl => .inl (map_subset _ (subset_append_left _ _) hl)
  | readRemaining task | reconcile task | commitReconcile task | reconcileFails task | reload task
  | readReloaded task | commitReload task | reloadFails task | load task | lockLoaded task
  | activateFails task | abandonReconcile task | abandonActivate task | finish task =>
    exact h.move (moves_of_update rfl) (by simp [task, leaving]) .inl

theorem Alive.push (h : Alive s key g) (hta : s.manager.tasks d = .restarted old ds)
    (hst : TopologyInterleaving.Step s.manager (.push d) next) :
    Alive ({ s with manager := next }.rename old.id s.manager.nextId) key g := by
  refine ⟨h.1, fun plugin hp => ?_⟩
  simp only [State.rename] at hp
  split at hp
  · cases hp
    cases hst with
    | push => exact .inl (mem_map.2 ⟨_, mem_append_right _ (mem_singleton_self _), rfl⟩)
  · next hne =>
    apply (present_step hst (h.2 plugin hp)).resolve_right
    rintro ⟨other, _, ht, rfl⟩
    cases hta.symm.trans ht
    exact hne hp

theorem Invariant.manage (h : Invariant s) (hst : TopologyInterleaving.Step s.manager a next)
    (hd : ∀ key plugin, Served s key plugin → ¬ Drops s.manager plugin a) :
    Invariant { s with manager := next } := by
  refine h.keep rfl (fun _ _ _ => id) fun key g he ha => ⟨ha.1, fun plugin hp => ?_⟩
  exact (present_step hst (ha.2 plugin hp)).resolve_right (hd key plugin ⟨⟨g, he⟩, hp⟩)

theorem not_drops {action : TopologyInterleaving.Action}
    (ho : ∀ c, action ≠ .commitUnload c ∧ action ≠ .push c) (hg : Guard s (.manage action))
    (hs : Served s key plugin) : ¬ Drops s.manager plugin action := by
  intro hd
  match action with
  | .commitUnload c => exact (ho c).1 rfl
  | .push c => exact (ho c).2 rfl
  | .restart c none =>
    obtain ⟨old, ht, rfl⟩ := hd
    exact hg old ht key hs

theorem swept_of_drops (hta : s.manager.tasks c = .unloading removed remaining)
    (hg : Guard s (.commitUnload c)) (hs : Served s key plugin)
    (hd : Drops s.manager plugin (.commitUnload c)) :
    (PluginTopology.commitUnload removed.id remaining s.manager.topology).isOk = true ∧
      ∃ target ∈ unloadedTargets s.manager removed, streamKey target = key := by
  obtain ⟨other, _, ht, rfl⟩ := hd
  cases hta.symm.trans ht
  exact hg _ _ hta key hs

theorem not_drops_of_failed (hst : TopologyInterleaving.Step s.manager (.commitUnload c) next)
    (hf : next.tasks c = .idle) (hg : Guard s (.commitUnload c)) (hs : Served s key plugin) :
    ¬ Drops s.manager plugin (.commitUnload c) := by
  intro hd
  cases hst with
  | commitUnload => simp [TopologyInterleaving.State.update] at hf
  | unloadFails task commit =>
    have hok := (swept_of_drops task hg hs hd).1
    rw [commit] at hok
    cases hok

theorem Invariant.commitUnload (h : Invariant s) (hi : s.phase c = .idle)
    (hta : s.manager.tasks c = .unloading removed remaining)
    (hst : TopologyInterleaving.Step s.manager (.commitUnload c) next)
    (hg : Guard s (.commitUnload c)) :
    Invariant ({ s with manager := next }.goTo c (.sweeping .unload false
      (unloadedTargets s.manager removed) (unloadedTargets s.manager removed))) := by
  refine h.light moves_update (light_of_eq hi fun _ _ => ⟨id, id⟩) (fun _ _ _ => .inl)
    fun leg key g he ha => ?_
  rw [State.goTo, phase_update]
  have hsw : Alive { s with manager := next } key g ∨
      ∃ target ∈ unloadedTargets s.manager removed, streamKey target = key := by
    refine or_iff_not_imp_right.2 fun hn => ⟨ha.1, fun plugin hp => ?_⟩
    apply (present_step hst (ha.2 plugin hp)).resolve_right
    exact fun hd => hn (swept_of_drops hta hg ⟨⟨g, leg, he⟩, hp⟩ hd).2
  cases leg <;> exact hsw

end

theorem Invariant.feed (h : Invariant s) (hf : FeedsOnly s.daemon daemon)
    (hot : ∀ other, other ≠ target →
      daemon.frameStreams.lookup other = s.daemon.frameStreams.lookup other)
    (hg : ∀ stream, s.daemon.frameStreams.lookup target = some stream →
      stream.topologyGeneration ≠ s.daemon.topologyGeneration →
      ¬ Registered s (streamKey target) stream.generation) : Invariant { s with daemon } := by
  refine h.keep rfl (fun _ _ _ => id) fun key g he ha => ?_
  rcases ha.1.feed hf hot with hst | ⟨stream, hs, ho, rfl, rfl⟩
  · exact ⟨hst, ha.2⟩
  · exact absurd he (hg stream hs ho)

theorem step_invariant (h : Invariant s) (hgu : Guard s a) (hse : Step cfg p gap s a t) :
    Invariant t := by
  have hm : ∀ {c phase connection}, s.phase c = phase → phase.Light →
      Invariant (s.update c connection) := fun hp hl =>
    h.go moves_update (light_of_eq hp hl) (fun _ _ _ => .inl) fun _ _ => id
  cases hse with
  | beginFrameStream idle begun | beginShmFrameStream idle _ _ begun =>
    exact h.go moves_update (light_of_eq idle fun _ _ => ⟨id, id⟩) (fun _ _ _ => .inl)
      fun _ _ ha => ⟨ha.1.begin begun, ha.2⟩
  | subscribe subscribing => exact h.subscribe subscribing hgu
  | takeBack unsupported => exact h.takeBack unsupported hgu
  | publish accepted => exact h.publish accepted hgu
  | subscribeFails phase | check phase | checkFails phase | accept phase | acceptFails phase
  | publishFails phase | disconnect phase | suspend phase =>
    exact hm phase fun _ _ => ⟨id, id⟩
  | endStream idle => exact h.endStream idle hgu
  | forget ending => exact h.forget ending _
  | findOwner finding => exact h.findOwner finding hgu
  | unpublish unpublishing => exact h.unpublish unpublishing
  | unsubscribe unsubscribing => exact h.unsubscribe unsubscribing
  | cleanUp phase | quiesce phase => exact h.sweep (light_of_eq phase fun _ _ => ⟨id, id⟩)
  | sweepFindOwner sweeping => exact h.sweepFindOwner sweeping hgu
  | sweepPublisher sweeping => exact h.sweepPublisher sweeping
  | sweepSubscriber sweeping => exact h.sweepSubscriber sweeping
  | finish sweeping =>
    exact hm sweeping fun _ _ => by simp [Phase.Unpublishes, Phase.Unsubscribes]
  | checkUpload =>
    exact h.feed (frameStreamTopologyGeneration_feeds _ _ _)
      (fun _ => lookup_frameStreamTopologyGeneration_of_ne) hgu
  | recordUpload =>
    exact h.feed (recordFrameUpload_feeds _ _ _ _ _) (fun _ => lookup_recordFrameUpload_of_ne _) hgu
  | deliver =>
    refine h.keep rfl ?_ fun _ _ _ => id
    rintro (_ | _) key g he
    · obtain ⟨stream, hst, hg⟩ := he
      exact ⟨stream, (Registry.eq_of_endIf hst).1, hg⟩
    · exact he
  | mutate streams =>
    exact h.keep rfl (fun _ _ _ => id) fun _ _ _ hs => ⟨hs.1.of_streams streams, hs.2⟩
  | replaceTopology =>
    exact h.keep rfl (fun _ _ _ => id) fun _ _ _ hs => ⟨hs.1.of_streams rfl, hs.2⟩
  | respawn => exact h.keep rfl (fun _ _ _ => id) fun _ _ _ hs => ⟨hs.1, hs.2⟩
  | manage other step => exact h.manage step fun _ _ => not_drops other hgu
  | push task step =>
    exact h.keep rfl (fun _ _ _ => id) fun _ _ _ hs => hs.push task step
  | unloadFails step failed => exact h.manage step fun _ _ => not_drops_of_failed step failed hgu
  | commitUnload idle task step => exact h.commitUnload idle task step hgu

end

namespace Sample

open DesiredState.Sample (platform)

abbrev SampleStep := Step ⟨true, true⟩ platform fun _ => 0

abbrev Run : State → Prop := Transition.Reachable Initial SampleStep Guard

def capabilities : CapabilitySet :=
  { frameUpload := some ⟨.device, .fullFrameOnly, none, true, true⟩ }

def strip : TargetId := .device "strip"

def stripDescriptor : Normalization.DeviceDescriptor :=
  { id := "strip", name := "Light strip", capabilities }

def demo : LoadedPlugin := ⟨0, "demo", 0⟩

def started : State where
  daemon := { topology := fromDevices [⟨"strip", [], [], capabilities⟩] }
  manager := {
    loaded := [demo]
    topology := ⟨[(0, [stripDescriptor])], ownersOf [(0, [stripDescriptor])] [demo]⟩
    nextId := 1 }

def begun : State :=
  State.goTo { started with
    daemon := { started.daemon with
      frameStreams := started.daemon.frameStreams.insert strip (startedStream started.daemon 1) } }
    0 (.subscribing strip 1 0)

def subscribed : State :=
  ({ begun with subscribers := begun.subscribers.insert strip 1 }.serve strip
    ((pluginForDevice begun.manager "strip").map LoadedPlugin.id)).own 0 strip
    (.negotiating strip 1 0)

def accepted : State := (subscribed.goTo 0 (.checked strip 1)).goTo 0 (.accepted strip 1 0)

def streaming : State :=
  ({ accepted with publishers := accepted.publishers.insert strip ⟨1, 0⟩ }.serve strip
    (some 0)).goTo 0 .idle

theorem strip_streams : Streams begun.daemon strip 1 :=
  ⟨startedStream started.daemon 1, AList.lookup_insert _, rfl⟩

theorem streaming_run : Run streaming := by
  have hst : Run started := .initial ⟨rfl, fun _ => rfl, fun _ => rfl, fun _ => rfl⟩
  have hb : Run begun := hst.step (l := Action.beginShmFrameStream 0 strip) trivial
    (.beginShmFrameStream rfl rfl rfl rfl)
  have hs : Run subscribed := by
    refine hb.step (l := Action.subscribe 0) ?_ (@Step.subscribe _ _ _ begun 0 strip 1 0 rfl)
    rintro target generation topology ⟨⟩
    exact strip_streams
  have hc : Run (subscribed.goTo 0 (.checked strip 1)) :=
    hs.step (l := Action.check 0) trivial (.check rfl rfl)
  have ha : Run accepted := hc.step (l := Action.accept 0) trivial
    (@Step.accept _ _ _ _ 0 strip 1 demo rfl (by decide +kernel))
  refine ha.step (l := Action.publish 0) ?_ (@Step.publish _ _ _ accepted 0 strip 1 0 rfl)
  rintro target generation plugin ⟨⟩
  exact ⟨strip_streams, by decide⟩

end Sample

namespace Counterexample

open Sample

def devices : List Device := [⟨"strip", [], [], capabilities⟩, ⟨"lamp", [], [], {}⟩]

def replaced : State :=
  { streaming with
    daemon := replaceDevices DesiredState.Sample.platform devices streaming.daemon }

/-- The client's next frame ends the outdated stream. -/
def orphaned : State :=
  { replaced with daemon := dropStream replaced.daemon strip }

end Counterexample

end ShmRegistries
