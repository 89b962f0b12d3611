import Luminate.PluginTopology
import Luminate.Transition

/-! # Concurrent changes of the loaded plugins

The loaded list and the topology have a lock each. Every operation takes them one
after the other, so other operations run in between; here each acquisition of a lock
is one step of the operation that makes it. -/
namespace TopologyInterleaving

open DeviceModel Normalization PluginOwnership PluginTopology List

abbrev TaskId := ℕ

/-- How far an operation has come, and what it has read so far. -/
inductive Task where
  | idle
  | reconciling (name : String) (plugin : LoadedPluginId) (loaded : List LoadedPlugin)
  | unloaded (removed : LoadedPlugin)
  | unloading (removed : LoadedPlugin) (remaining : List LoadedPlugin)
  | reloading (old : LoadedPlugin)
  | restarted (old : LoadedPlugin) (descriptors : List DeviceDescriptor)
  | pushed (old new : LoadedPlugin) (descriptors : List DeviceDescriptor)
  | recommitting (old new : LoadedPlugin) (descriptors : List DeviceDescriptor)
      (remaining : List LoadedPlugin)
  | activating (plugin : LoadedPlugin) (descriptors : List DeviceDescriptor)
  | activatingLocked (plugin : LoadedPlugin) (descriptors : List DeviceDescriptor)
  | committed (result : TopologyReconcile)

structure State where
  loaded : List LoadedPlugin := []
  topology : PluginTopologyState := {}
  /-- `LoadedPluginId::new` never repeats an identifier. -/
  nextId : LoadedPluginId := 0
  /-- The activation that keeps the loaded list locked while it waits for the topology. -/
  writer : Option TaskId := none
  tasks : TaskId → Task := fun _ => .idle

def State.update (s : State) (c : TaskId) (task : Task) : State :=
  { s with tasks := Function.update s.tasks c task }

inductive Action where
  | reconcile (c : TaskId) (name : String)
  | commitReconcile (c : TaskId) (descriptors : List DeviceDescriptor)
  | unload (c : TaskId) (name : String)
  | readRemaining (c : TaskId)
  | commitUnload (c : TaskId)
  | reload (c : TaskId) (name : String)
  /-- The outcome of restarting the host: its topology, if it came up with a valid one. -/
  | restart (c : TaskId) (outcome : Option (List DeviceDescriptor))
  | push (c : TaskId)
  | commitReload (c : TaskId)
  | load (c : TaskId) (metadata : LoadedPluginMetadata) (descriptors : List DeviceDescriptor)
  | lockLoaded (c : TaskId)
  | commitActivate (c : TaskId)
  /-- An operation that has changed nothing gives up. -/
  | abandon (c : TaskId)
  | finish (c : TaskId)

inductive Step : State → Action → State → Prop where
  | reconcile {s c name plugin} (idle : s.tasks c = .idle) (free : s.writer = none)
      (unique : s.loaded.filter (·.metadata.name == name) = [plugin]) :
      Step s (.reconcile c name) (s.update c (.reconciling name plugin.id s.loaded))
  | commitReconcile {s c name plugin loaded descriptors result topology}
      (task : s.tasks c = .reconciling name plugin loaded)
      (valid : (normalizeDevices descriptors).isOk = true)
      (commit : PluginTopology.commitReconcile name plugin descriptors loaded s.topology =
        .ok (result, topology)) :
      Step s (.commitReconcile c descriptors) ({ s with topology }.update c (.committed result))
  | reconcileFails {s c name plugin loaded descriptors error}
      (task : s.tasks c = .reconciling name plugin loaded)
      (commit : PluginTopology.commitReconcile name plugin descriptors loaded s.topology =
        .error error) :
      Step s (.commitReconcile c descriptors) (s.update c .idle)
  | unload {s c name removed} (idle : s.tasks c = .idle) (free : s.writer = none)
      (found : s.loaded.find? (·.metadata.name == name) = some removed) :
      Step s (.unload c name)
        ({ s with loaded := s.loaded.eraseP (·.metadata.name == name) }.update c
          (.unloaded removed))
  | readRemaining {s c removed} (task : s.tasks c = .unloaded removed) (free : s.writer = none) :
      Step s (.readRemaining c) (s.update c (.unloading removed s.loaded))
  | commitUnload {s c removed remaining result topology}
      (task : s.tasks c = .unloading removed remaining)
      (commit : PluginTopology.commitUnload removed.id remaining s.topology =
        .ok (result, topology)) :
      Step s (.commitUnload c) ({ s with topology }.update c (.committed result))
  | unloadFails {s c removed remaining error} (task : s.tasks c = .unloading removed remaining)
      (commit : PluginTopology.commitUnload removed.id remaining s.topology = .error error) :
      Step s (.commitUnload c) (s.update c .idle)
  | reload {s c name old} (idle : s.tasks c = .idle) (free : s.writer = none)
      (found : s.loaded.find? (·.metadata.name == name) = some old) :
      Step s (.reload c name) (s.update c (.reloading old))
  | restart {s c old descriptors} (task : s.tasks c = .reloading old) (free : s.writer = none)
      (valid : (normalizeDevices descriptors).isOk = true) :
      Step s (.restart c (some descriptors))
        ({ s with loaded := s.loaded.filter (·.id != old.id) }.update c
          (.restarted old descriptors))
  | restartFails {s c old} (task : s.tasks c = .reloading old) (free : s.writer = none) :
      Step s (.restart c none)
        ({ s with loaded := s.loaded.filter (·.id != old.id) }.update c .idle)
  | push {s c old descriptors} (task : s.tasks c = .restarted old descriptors)
      (free : s.writer = none) :
      Step s (.push c)
        (State.update { s with
          loaded := s.loaded ++ [⟨s.nextId, old.metadata⟩]
          nextId := s.nextId + 1 } c (.pushed old ⟨s.nextId, old.metadata⟩ descriptors))
  | readReloaded {s c old new descriptors} (task : s.tasks c = .pushed old new descriptors)
      (free : s.writer = none) :
      Step s (.readRemaining c) (s.update c (.recommitting old new descriptors s.loaded))
  | commitReload {s c old new descriptors remaining result topology}
      (task : s.tasks c = .recommitting old new descriptors remaining)
      (commit : PluginTopology.commitReload old.id new.id descriptors remaining s.topology =
        .ok (result, topology)) :
      Step s (.commitReload c) ({ s with topology }.update c (.committed result))
  | reloadFails {s c old new descriptors remaining error}
      (task : s.tasks c = .recommitting old new descriptors remaining)
      (commit : PluginTopology.commitReload old.id new.id descriptors remaining s.topology =
        .error error) :
      Step s (.commitReload c) (s.update c .idle)
  | load {s c metadata descriptors} (idle : s.tasks c = .idle)
      (valid : (normalizeDevices descriptors).isOk = true) :
      Step s (.load c metadata descriptors)
        ({ s with nextId := s.nextId + 1 }.update c
          (.activating ⟨s.nextId, metadata⟩ descriptors))
  | lockLoaded {s c plugin descriptors} (task : s.tasks c = .activating plugin descriptors)
      (free : s.writer = none)
      (absent : s.loaded.all (·.metadata.name != plugin.metadata.name) = true) :
      Step s (.lockLoaded c)
        ({ s with writer := some c }.update c (.activatingLocked plugin descriptors))
  | commitActivate {s c plugin descriptors result topology}
      (task : s.tasks c = .activatingLocked plugin descriptors)
      (commit : PluginTopology.commitActivate s.loaded plugin descriptors s.topology =
        .ok (result, topology)) :
      Step s (.commitActivate c)
        ({ s with topology, loaded := s.loaded ++ [plugin], writer := none }.update c
          (.committed result))
  | activateFails {s c plugin descriptors error}
      (task : s.tasks c = .activatingLocked plugin descriptors)
      (commit : PluginTopology.commitActivate s.loaded plugin descriptors s.topology =
        .error error) :
      Step s (.commitActivate c) ({ s with writer := none }.update c .idle)
  | abandonReconcile {s c name plugin loaded}
      (task : s.tasks c = .reconciling name plugin loaded) : Step s (.abandon c) (s.update c .idle)
  | abandonActivate {s c plugin descriptors} (task : s.tasks c = .activating plugin descriptors) :
      Step s (.abandon c) (s.update c .idle)
  | finish {s c result} (task : s.tasks c = .committed result) :
      Step s (.finish c) (s.update c .idle)

/-- The plugin an operation has taken off the loaded list but not yet out of the topology. -/
def Task.removing : Task → Option LoadedPluginId
  | .unloaded removed | .unloading removed _ => some removed.id
  | .restarted old _ | .pushed old _ _ | .recommitting old _ _ _ => some old.id
  | _ => none

/-- The plugin an operation has still to put into the topology. -/
def Task.bringing : Task → Option LoadedPluginId
  | .pushed _ new _ | .recommitting _ new _ _ => some new.id
  | .activating plugin _ | .activatingLocked plugin _ => some plugin.id
  | _ => none

/-- The plugin an activation has still to put on the loaded list. -/
def Task.loading : Task → Option LoadedPluginId
  | .activating plugin _ | .activatingLocked plugin _ => some plugin.id
  | _ => none

/-- The loaded list as the operation read it. -/
def Task.snapshot : Task → Option (List LoadedPlugin)
  | .reconciling _ _ loaded => some loaded
  | .unloading _ remaining | .recommitting _ _ _ remaining => some remaining
  | _ => none

def Task.ids : Task → List LoadedPluginId
  | .unloaded removed | .unloading removed _ => [removed.id]
  | .reloading old | .restarted old _ => [old.id]
  | .pushed old new _ | .recommitting old new _ _ => [old.id, new.id]
  | .activating plugin _ | .activatingLocked plugin _ => [plugin.id]
  | .idle | .reconciling .. | .committed _ => []

def Awaits (s : State) (id : LoadedPluginId) : Prop := ∃ c, (s.tasks c).removing = some id

def Quiet (s : State) : Prop := ∀ c, s.tasks c = .idle

/-- A commit finds every loaded plugin in the list its operation has read. An operation
that has changed the loaded list finds the resulting topology valid, and a restarted
plugin is not unloaded before its topology is committed. -/
def Guard (s : State) : Action → Prop
  | .commitReconcile c _ => ∀ snapshot, (s.tasks c).snapshot = some snapshot → s.loaded ⊆ snapshot
  | .commitUnload c => ∀ removed remaining, s.tasks c = .unloading removed remaining →
      s.loaded ⊆ remaining ∧
      (normalizeDevices (aggregateOf
        (withoutPlugin removed.id s.topology.descriptorsByPlugin) remaining)).isOk = true
  | .restart _ outcome => outcome.isSome = true
  | .commitReload c => ∀ old new descriptors remaining,
      s.tasks c = .recommitting old new descriptors remaining →
      s.loaded ⊆ remaining ∧ (new.id ∈ s.loaded.map (·.id) ∨ Awaits s new.id) ∧
      (normalizeDevices (aggregateOf
        (reloadedDescriptors old.id new.id descriptors s.topology) remaining)).isOk = true
  | _ => True

abbrev State.loadedIds (s : State) : List LoadedPluginId := s.loaded.map (·.id)

abbrev State.describedIds (s : State) : List LoadedPluginId :=
  s.topology.descriptorsByPlugin.map (·.1)

structure TaskInvariant (s : State) (task : Task) : Prop where
  fresh : ∀ id ∈ task.ids, id < s.nextId
  snapshot_nodup : ∀ snapshot, task.snapshot = some snapshot → (snapshot.map (·.id)).Nodup
  removed : ∀ id, task.removing = some id → id ∉ s.loadedIds
  unlisted : ∀ id, task.loading = some id → id ∉ s.loadedIds
  undescribed : ∀ id, task.bringing = some id → id ∉ s.describedIds
  apart : ∀ id, task.removing = some id → task.bringing ≠ some id

structure Invariant (s : State) : Prop where
  loaded_nodup : s.loadedIds.Nodup
  described_nodup : s.describedIds.Nodup
  loaded_fresh : ∀ id ∈ s.loadedIds, id < s.nextId
  described_fresh : ∀ id ∈ s.describedIds, id < s.nextId
  tasks : ∀ c, TaskInvariant s (s.tasks c)
  distinct : ∀ c d id, (s.tasks c).bringing = some id → (s.tasks d).bringing = some id → c = d
  unseen : ∀ c d id, (s.tasks c).loading = some id → id ∈ (s.tasks d).ids → c = d
  described : ∀ id ∈ s.describedIds, id ∈ s.loadedIds ∨ Awaits s id
  registered : ∀ id ∈ s.loadedIds, id ∈ s.describedIds ∨ ∃ c, (s.tasks c).bringing = some id
  valid : (normalizeDevices s.topology.owned).isOk = true
  owners : (∀ c, (s.tasks c).removing = none) →
    s.topology.ownerByDevice = ownersOf s.topology.descriptorsByPlugin s.loaded

/-- The plugin manager as it starts: the plugins loaded so far have been arbitrated. -/
structure Initial (s : State) : Prop where
  quiet : Quiet s
  consistent : Consistent s.loaded s.topology
  nodup : s.loadedIds.Nodup
  fresh : ∀ id ∈ s.loadedIds, id < s.nextId
  valid : (normalizeDevices s.topology.owned).isOk = true

variable {task : Task} {id : LoadedPluginId} {s : State}

theorem Task.removing_mem_ids (h : task.removing = some id) : id ∈ task.ids := by
  cases task <;> simp_all [Task.removing, Task.ids]

theorem Task.bringing_mem_ids (h : task.bringing = some id) : id ∈ task.ids := by
  cases task <;> simp_all [Task.bringing, Task.ids]

theorem Task.loading_mem_ids (h : task.loading = some id) : id ∈ task.ids := by
  cases task <;> simp_all [Task.loading, Task.ids]

theorem taskInvariant_of_ids_nil (hi : task.ids = [])
    (hs : ∀ snapshot, task.snapshot = some snapshot → (snapshot.map (·.id)).Nodup) :
    TaskInvariant s task := by
  have hn : ∀ id, id ∉ task.ids := by simp [hi]
  refine ⟨fun id hid => absurd hid (hn id), hs, fun id hid => ?_, fun id hid => ?_,
    fun id hid => ?_, fun id hid => ?_⟩
  · exact absurd (Task.removing_mem_ids hid) (hn id)
  · exact absurd (Task.loading_mem_ids hid) (hn id)
  · exact absurd (Task.bringing_mem_ids hid) (hn id)
  · exact absurd (Task.removing_mem_ids hid) (hn id)

theorem taskInvariant_of_removed (hi : task.ids = [id]) (hs : task.snapshot = none)
    (hr : task.removing = some id) (hb : task.bringing = none)
    (hl : task.loading = none) (hf : id < s.nextId) (hg : id ∉ s.loadedIds) :
    TaskInvariant s task := by
  refine ⟨?_, by simp [hs], fun other ho hm => ?_, by simp [hl], by simp [hb], by simp [hb]⟩
  · simpa [hi] using hf
  · rw [hr] at ho
    exact hg (Option.some.inj ho ▸ hm)

theorem nodup_append_new (hi : ids.Nodup) (hn : id ∉ ids) : (ids ++ [id]).Nodup := by
  rw [← concat_eq_append]
  exact hi.concat hn

theorem initial_invariant (h : Initial s) : Invariant s where
  loaded_nodup := h.nodup
  described_nodup := h.consistent.ids.nodup_iff.2 h.nodup
  loaded_fresh := h.fresh
  described_fresh id hid := h.fresh id (h.consistent.ids.mem_iff.1 hid)
  tasks c := by
    rw [h.quiet c]
    exact taskInvariant_of_ids_nil rfl (by simp [Task.snapshot])
  distinct c := by simp [h.quiet c, Task.bringing]
  unseen c := by simp [h.quiet c, Task.loading]
  described id hid := .inl (h.consistent.ids.mem_iff.1 hid)
  registered id hid := .inl (h.consistent.ids.mem_iff.2 hid)
  valid := h.valid
  owners _ := h.consistent.owners

theorem Invariant.consistent (h : Invariant s) (hq : Quiet s) : Consistent s.loaded s.topology := by
  have hs : ∀ c, (s.tasks c).removing = none := fun c => by simp [hq c, Task.removing]
  refine consistent_of_mem_iff h.loaded_nodup h.described_nodup
    (fun id => ⟨fun hid => ?_, fun hid => ?_⟩) (h.owners hs)
  · rcases h.described id hid with hl | ⟨c, hc⟩
    · exact hl
    · rw [hs c] at hc
      cases hc
  · rcases h.registered id hid with hd | ⟨c, hc⟩
    · exact hd
    · simp [hq c, Task.bringing] at hc

/-- From `s` to `u` one operation has gone on to the task `t`. -/
structure Moves (s u : State) (c : TaskId) (t : Task) : Prop where
  self : u.tasks c = t
  others : ∀ d, d ≠ c → u.tasks d = s.tasks d

theorem moves_of_update (h : u.tasks = Function.update s.tasks c t) : Moves s u c t where
  self := by rw [h, Function.update_self]
  others d hd := by rw [h, Function.update_of_ne hd]

theorem Moves.tasks (hm : Moves s u c t) {P : Task → Prop} (ht : P t)
    (ho : ∀ d, d ≠ c → P (s.tasks d)) (d : TaskId) : P (u.tasks d) := by
  by_cases hd : d = c
  · rw [hd, hm.self]
    exact ht
  · rw [hm.others d hd]
    exact ho d hd

/-- What an operation has under way is its own, or was under way before. -/
theorem Moves.cases (hm : Moves s u c t) {α : Type} (f : Task → Option α) {a : α}
    (h : f (u.tasks d) = some a) : d = c ∧ f t = some a ∨ d ≠ c ∧ f (s.tasks d) = some a := by
  by_cases hd : d = c
  · exact .inl ⟨hd, by rwa [hd, hm.self] at h⟩
  · exact .inr ⟨hd, by rwa [hm.others d hd] at h⟩

theorem Moves.keeps (hm : Moves s u c t) {α : Type} (f : Task → Option α) {a : α}
    (h : f (s.tasks d) = some a) (ht : f (s.tasks c) = some a → f t = some a) :
    f (u.tasks d) = some a := by
  by_cases hd : d = c
  · subst hd
    rw [hm.self, ht h]
  · rw [hm.others d hd, h]

theorem TaskInvariant.mono (h : TaskInvariant s task)
    (hl : ∀ id ∈ task.ids, id ∈ u.loadedIds → id ∈ s.loadedIds)
    (hd : ∀ id, task.bringing = some id → id ∈ u.describedIds → id ∈ s.describedIds)
    (hn : s.nextId ≤ u.nextId) : TaskInvariant u task where
  fresh id hid := (h.fresh id hid).trans_le hn
  snapshot_nodup := h.snapshot_nodup
  removed id hid hm := h.removed id hid (hl id (Task.removing_mem_ids hid) hm)
  unlisted id hid hm := h.unlisted id hid (hl id (Task.loading_mem_ids hid) hm)
  undescribed id hid hm := h.undescribed id hid (hd id hid hm)
  apart := h.apart

theorem Moves.distinct (hm : Moves s u c t) (h : Invariant s) (hn : ∀ id, t.bringing = some id →
      (s.tasks c).bringing = some id ∨ ∀ d, (s.tasks d).bringing ≠ some id) :
    ∀ d e id, (u.tasks d).bringing = some id → (u.tasks e).bringing = some id → d = e := by
  intro d e id hd he
  rcases hm.cases Task.bringing hd with ⟨rfl, hd⟩ | ⟨hdc, hd⟩
  · rcases hm.cases Task.bringing he with ⟨rfl, -⟩ | ⟨-, he⟩
    · rfl
    · rcases hn id hd with hs | hf
      · exact h.distinct _ _ _ hs he
      · exact absurd he (hf e)
  · rcases hm.cases Task.bringing he with ⟨rfl, he⟩ | ⟨-, he⟩
    · rcases hn id he with hs | hf
      · exact h.distinct _ _ _ hd hs
      · exact absurd hd (hf d)
    · exact h.distinct _ _ _ hd he

theorem Moves.unseen (hm : Moves s u c t) (h : Invariant s) (hl : ∀ id, t.loading = some id →
      (s.tasks c).loading = some id ∨ ∀ d, id ∉ (s.tasks d).ids)
    (hi : ∀ id ∈ t.ids, id ∈ (s.tasks c).ids ∨ ∀ d, (s.tasks d).loading ≠ some id) :
    ∀ d e id, (u.tasks d).loading = some id → id ∈ (u.tasks e).ids → d = e := by
  intro d e id hd he
  rcases hm.cases Task.loading hd with ⟨rfl, hd⟩ | ⟨hdc, hd⟩
  · by_contra hne
    rw [hm.others e (Ne.symm hne)] at he
    rcases hl id hd with hs | hf
    · exact hne (h.unseen _ _ _ hs he)
    · exact hf e he
  · by_cases hec : e = c
    · subst hec
      rw [hm.self] at he
      rcases hi id he with hs | hf
      · exact h.unseen _ _ _ hd hs
      · exact absurd hd (hf d)
    · rw [hm.others e hec] at he
      exact h.unseen _ _ _ hd he

section

variable (h : Invariant s)

include h

theorem Invariant.proceed (hm : Moves s u c t) (hlo : u.loaded = s.loaded)
    (ht : u.topology = s.topology) (hn : s.nextId ≤ u.nextId)
    (hta : TaskInvariant u t) (hr : t.removing = (s.tasks c).removing)
    (hb : ∀ id, t.bringing = some id →
      (s.tasks c).bringing = some id ∨ ∀ d, (s.tasks d).bringing ≠ some id)
    (hdr : ∀ id ∈ s.loadedIds, (s.tasks c).bringing = some id → t.bringing = some id)
    (hla : ∀ id, t.loading = some id → (s.tasks c).loading = some id ∨ ∀ d, id ∉ (s.tasks d).ids)
    (hi : ∀ id ∈ t.ids, id ∈ (s.tasks c).ids ∨ ∀ d, (s.tasks d).loading ≠ some id) :
    Invariant u := by
  have hl : u.loadedIds = s.loadedIds := by rw [State.loadedIds, hlo]
  have hd : u.describedIds = s.describedIds := by rw [State.describedIds, ht]
  have hba : ∀ d, (u.tasks d).removing = (s.tasks d).removing := fun d => by
    by_cases hdc : d = c
    · rw [hdc, hm.self, hr]
    · rw [hm.others d hdc]
  refine ⟨hl ▸ h.loaded_nodup, hd ▸ h.described_nodup, fun id hid => ?_, fun id hid => ?_,
    ?_, hm.distinct h hb, hm.unseen h hla hi, fun id hid => ?_, fun id hid => ?_,
    ht ▸ h.valid, fun hs => ?_⟩
  · exact (h.loaded_fresh id (hl ▸ hid)).trans_le hn
  · exact (h.described_fresh id (hd ▸ hid)).trans_le hn
  · exact hm.tasks hta fun d _ =>
      (h.tasks d).mono (fun id _ hid => hl ▸ hid) (fun id _ hid => hd ▸ hid) hn
  · rw [hl]
    apply (h.described id (hd ▸ hid)).imp_right
    rintro ⟨d, hdi⟩
    exact ⟨d, (hba d).trans hdi⟩
  · rw [hd]
    rw [hl] at hid
    apply (h.registered id hid).imp_right
    rintro ⟨d, hdi⟩
    exact ⟨d, hm.keeps Task.bringing hdi (hdr id hid)⟩
  · rw [ht, hlo]
    exact h.owners fun d => (hba d).symm.trans (hs d)

theorem Invariant.remove (hm : Moves s u c t) (hs : u.loaded.Sublist s.loaded)
    (hk : ∀ other ∈ s.loadedIds, other ≠ id → other ∈ u.loadedIds)
    (ht : u.topology = s.topology) (hn : u.nextId = s.nextId) (hta : TaskInvariant u t)
    (hr : t.removing = some id) (hb : t.bringing = none) (hl : t.loading = none)
    (his : ∀ other ∈ t.ids, other ∈ (s.tasks c).ids ∨ ∀ d, (s.tasks d).loading ≠ some other)
    (hi : (s.tasks c).removing = none) (he : (s.tasks c).bringing = none) : Invariant u := by
  have hsu : ∀ other ∈ u.loadedIds, other ∈ s.loadedIds := (hs.map _).subset
  have hd : u.describedIds = s.describedIds := by rw [State.describedIds, ht]
  refine ⟨h.loaded_nodup.sublist (hs.map _), hd ▸ h.described_nodup,
    fun other ho => ?_, fun other ho => ?_, ?_, hm.distinct h (by simp [hb]),
    hm.unseen h (by simp [hl]) his, fun other ho => ?_, fun other ho => ?_,
    ht ▸ h.valid, fun hse => ?_⟩
  · exact hn ▸ h.loaded_fresh other (hsu other ho)
  · exact hn ▸ h.described_fresh other (hd ▸ ho)
  · exact hm.tasks hta fun d _ =>
      (h.tasks d).mono (fun id _ => hsu id) (fun id _ hid => hd ▸ hid) hn.ge
  · by_cases hsa : other = id
    · exact .inr ⟨c, by rw [hm.self, hr, hsa]⟩
    · rcases h.described other (hd ▸ ho) with hlo | ⟨d, hdi⟩
      · exact .inl (hk other hlo hsa)
      · exact .inr ⟨d, hm.keeps Task.removing hdi (by simp [hi])⟩
  · rw [hd]
    apply (h.registered other (hsu other ho)).imp_right
    rintro ⟨d, hdi⟩
    exact ⟨d, hm.keeps Task.bringing hdi (by simp [he])⟩
  · have hc := hse c
    rw [hm.self, hr] at hc
    cases hc

theorem Invariant.ne_nextId (hid : id ∈ (s.tasks d).ids) : id ≠ s.nextId :=
  ((h.tasks d).fresh id hid).ne

theorem Invariant.push (hta : s.tasks c = .restarted old descs)
    (hm : Moves s u c (.pushed old ⟨s.nextId, old.metadata⟩ descs))
    (hlo : u.loaded = s.loaded ++ [⟨s.nextId, old.metadata⟩])
    (ht : u.topology = s.topology) (hn : u.nextId = s.nextId + 1) : Invariant u := by
  have hl : u.loadedIds = s.loadedIds ++ [s.nextId] := by simp [State.loadedIds, hlo]
  have hd : u.describedIds = s.describedIds := by rw [State.describedIds, ht]
  have hun : s.nextId ∉ s.loadedIds := fun hme => (h.loaded_fresh _ hme).false
  have hu : s.nextId ∉ s.describedIds := fun hme => (h.described_fresh _ hme).false
  have hk : ∀ d, ∀ id ∈ (s.tasks d).ids, id ∈ u.loadedIds → id ∈ s.loadedIds := by
    intro d id hid hme
    rw [hl, mem_append, mem_singleton] at hme
    exact hme.resolve_right (h.ne_nextId hid)
  have ho : old.id ∈ (s.tasks c).ids := by simp [hta, Task.ids]
  have hr : old.id ∉ s.loadedIds := (h.tasks c).removed old.id (by simp [hta, Task.removing])
  refine ⟨?_, hd ▸ h.described_nodup, fun id hid => ?_, fun id hid => ?_, ?_,
    hm.distinct h fun id hid => .inr fun d hdi => ?_,
    hm.unseen h (by simp [Task.loading]) fun id hid => ?_, fun id hid => ?_, fun id hid => ?_,
    ht ▸ h.valid, fun hs => ?_⟩
  · rw [hl]
    exact nodup_append_new h.loaded_nodup hun
  · rw [hl, mem_append, mem_singleton] at hid
    rw [hn]
    rcases hid with hid | rfl
    · exact (h.loaded_fresh id hid).trans (Nat.lt_succ_self _)
    · exact Nat.lt_succ_self _
  · rw [hn]
    exact (h.described_fresh id (hd ▸ hid)).trans (Nat.lt_succ_self _)
  · refine hm.tasks ⟨?_, by simp [Task.snapshot], ?_, by simp [Task.loading], ?_, ?_⟩ fun d _ =>
      (h.tasks d).mono (hk d) (fun id _ hid => hd ▸ hid) (hn ▸ Nat.le_succ _)
    · have hf := (h.tasks c).fresh old.id ho
      simp only [Task.ids, mem_cons, not_mem_nil, or_false, hn]
      rintro id (rfl | rfl)
      · exact hf.trans (Nat.lt_succ_self _)
      · exact Nat.lt_succ_self _
    · intro id hid hme
      cases hid
      exact hr (hk c _ ho hme)
    · intro id hid hme
      cases hid
      exact hu (hd ▸ hme)
    · intro id hid hb
      cases hid
      exact h.ne_nextId ho (Option.some.inj hb).symm
  · cases hid
    exact h.ne_nextId (Task.bringing_mem_ids hdi) rfl
  · simp only [Task.ids, mem_cons, not_mem_nil, or_false] at hid
    rcases hid with rfl | rfl
    · exact .inl ho
    · exact .inr fun d hdi => h.ne_nextId (Task.loading_mem_ids hdi) rfl
  · rw [hl]
    rcases h.described id (hd ▸ hid) with hlo | ⟨d, hdi⟩
    · exact .inl (mem_append_left _ hlo)
    · exact .inr ⟨d, hm.keeps Task.removing hdi (by simp [hta, Task.removing])⟩
  · rw [hl, mem_append, mem_singleton] at hid
    rw [hd]
    rcases hid with hid | rfl
    · apply (h.registered id hid).imp_right
      rintro ⟨d, hdi⟩
      exact ⟨d, hm.keeps Task.bringing hdi (by simp [hta, Task.bringing])⟩
    · exact .inr ⟨c, by rw [hm.self]; rfl⟩
  · have hc := hs c
    rw [hm.self] at hc
    cases hc

/-- An operation commits the topology it has computed from an older loaded list. -/
theorem Invariant.commit (hm : Moves s u c (.committed res))
    (hlo : u.loaded = s.loaded) (hne : u.nextId = s.nextId) {snapshot : List LoadedPlugin}
    (hsn : (s.tasks c).snapshot = some snapshot) (hco : s.loaded ⊆ snapshot)
    (hc : Committed s.topology res u.topology)
    (ho : u.topology.ownerByDevice = ownersOf u.topology.descriptorsByPlugin snapshot)
    (hn : u.describedIds.Nodup)
    (hs : ∀ id ∈ u.describedIds, id ∈ s.describedIds ∨ (s.tasks c).bringing = some id)
    (hde : ∀ id ∈ u.describedIds, id ∈ s.loadedIds ∨ Awaits s id)
    (hg : ∀ id, (s.tasks c).removing = some id → id ∉ u.describedIds)
    (hk : ∀ id ∈ s.loadedIds, id ∈ s.describedIds ∨ (s.tasks c).bringing = some id →
      id ∈ u.describedIds) : Invariant u := by
  have hl : u.loadedIds = s.loadedIds := by rw [State.loadedIds, hlo]
  have ha : ∀ id ∈ u.describedIds, id ∈ s.loadedIds ∨
      ∃ d, d ≠ c ∧ (s.tasks d).removing = some id := by
    intro id hid
    apply (hde id hid).imp_right
    rintro ⟨d, hdi⟩
    refine ⟨d, ?_, hdi⟩
    rintro rfl
    exact hg id hdi hid
  refine ⟨hl ▸ h.loaded_nodup, hn, fun id hid => ?_, fun id hid => ?_, ?_,
    hm.distinct h (by simp [Task.bringing]),
    hm.unseen h (by simp [Task.loading]) (by simp [Task.ids]), fun id hid => ?_, fun id hid => ?_,
    ?_, fun hse => ?_⟩
  · exact hne ▸ h.loaded_fresh id (hl ▸ hid)
  · rw [hne]
    rcases hs id hid with hid | hid
    · exact h.described_fresh id hid
    · exact (h.tasks c).fresh id (Task.bringing_mem_ids hid)
  · refine hm.tasks (taskInvariant_of_ids_nil rfl (by simp [Task.snapshot])) fun d hdc =>
      (h.tasks d).mono (fun id _ hid => hl ▸ hid) (fun id hdi hid => ?_) hne.ge
    rcases hs id hid with hid | hid
    · exact hid
    · exact absurd (h.distinct d c id hdi hid) hdc
  · rw [hl]
    apply (ha id hid).imp_right
    rintro ⟨d, hdc, hdi⟩
    exact ⟨d, by rw [hm.others d hdc, hdi]⟩
  · rw [hl] at hid
    rcases h.registered id hid with hol | ⟨d, hdi⟩
    · exact .inl (hk id hid (.inl hol))
    · by_cases hdc : d = c
      · exact .inl (hk id hid (.inr (hdc ▸ hdi)))
      · exact .inr ⟨d, by rw [hm.others d hdc, hdi]⟩
  · simp [hc.normalized, Except.isOk, Except.toBool]
  · rw [ho, hlo]
    apply ownersOf_congr h.loaded_nodup ((h.tasks c).snapshot_nodup snapshot hsn) hco
    intro id hid
    rcases ha id hid with hid | ⟨d, hdc, hdi⟩
    · exact hid
    · have hd := hse d
      rw [hm.others d hdc, hdi] at hd
      cases hd

theorem Invariant.activate {plugin : LoadedPlugin} (hm : Moves s u c (.committed res))
    (ht : s.tasks c = .activatingLocked plugin descs)
    (hla : u.loaded = s.loaded ++ [plugin]) (hn : u.nextId = s.nextId)
    (hco : commitActivate s.loaded plugin descs s.topology = .ok (res, u.topology)) :
    Invariant u := by
  obtain ⟨hc, hde, ho⟩ := commitActivate_ok hco
  have hl : u.loadedIds = s.loadedIds ++ [plugin.id] := by simp [State.loadedIds, hla]
  have hd : u.describedIds = s.describedIds ++ [plugin.id] := by simp [State.describedIds, hde]
  have hlo : (s.tasks c).loading = some plugin.id := by rw [ht]; rfl
  have hun := (h.tasks c).unlisted plugin.id hlo
  have hb : (s.tasks c).bringing = some plugin.id := by rw [ht]; rfl
  have hu := (h.tasks c).undescribed plugin.id hb
  have hf := (h.tasks c).fresh plugin.id (Task.loading_mem_ids hlo)
  have hme : ∀ ids : List LoadedPluginId, ∀ id, id ∈ ids ++ [plugin.id] →
      id ∈ ids ∨ id = plugin.id := fun ids id hid => by simpa using hid
  refine ⟨hl ▸ nodup_append_new h.loaded_nodup hun,
    hd ▸ nodup_append_new h.described_nodup hu, fun id hid => ?_, fun id hid => ?_, ?_,
    hm.distinct h (by simp [Task.bringing]),
    hm.unseen h (by simp [Task.loading]) (by simp [Task.ids]), fun id hid => ?_, fun id hid => ?_,
    ?_, fun _ => ?_⟩
  · rw [hn]
    rcases hme _ id (hl ▸ hid) with hid | rfl
    · exact h.loaded_fresh id hid
    · exact hf
  · rw [hn]
    rcases hme _ id (hd ▸ hid) with hid | rfl
    · exact h.described_fresh id hid
    · exact hf
  · refine hm.tasks (taskInvariant_of_ids_nil rfl (by simp [Task.snapshot])) fun d hdc =>
      (h.tasks d).mono (fun id hid hne => ?_) (fun id hdi hne => ?_) hn.ge
    · rcases hme _ id (hl ▸ hne) with hol | rfl
      · exact hol
      · exact absurd (h.unseen c d _ hlo hid).symm hdc
    · rcases hme _ id (hd ▸ hne) with hol | rfl
      · exact hol
      · exact absurd (h.distinct d c _ hdi hb) hdc
  · rw [hl]
    rcases hme _ id (hd ▸ hid) with hid | rfl
    · rcases h.described id hid with hol | ⟨d, hdi⟩
      · exact .inl (mem_append_left _ hol)
      · exact .inr ⟨d, hm.keeps Task.removing hdi (by simp [ht, Task.removing])⟩
    · exact .inl (mem_append_right _ (mem_singleton_self _))
  · rw [hd]
    rcases hme _ id (hl ▸ hid) with hid | rfl
    · rcases h.registered id hid with hol | ⟨d, hdi⟩
      · exact .inl (mem_append_left _ hol)
      · refine .inr ⟨d, hm.keeps Task.bringing hdi fun hs => ?_⟩
        rw [hb] at hs
        exact absurd (Option.some.inj hs ▸ hid) hun
    · exact .inl (mem_append_right _ (mem_singleton_self _))
  · simp [hc.normalized, Except.isOk, Except.toBool]
  · rw [ho, hla, hde, ownersOf, arbitrationInputs_append hu hun]

theorem Invariant.keep (hm : Moves s u c t) (hla : u.loaded = s.loaded)
    (ht : u.topology = s.topology) (hn : u.nextId = s.nextId)
    (hs : ∀ snapshot, t.snapshot = some snapshot → (snapshot.map (·.id)).Nodup)
    (hi : t.ids = (s.tasks c).ids) (hr : t.removing = (s.tasks c).removing)
    (hb : t.bringing = (s.tasks c).bringing) (hlo : t.loading = (s.tasks c).loading) :
    Invariant u := by
  have hl : u.loadedIds = s.loadedIds := by rw [State.loadedIds, hla]
  have hd : u.describedIds = s.describedIds := by rw [State.describedIds, ht]
  have ho := h.tasks c
  have hta : TaskInvariant u t := by
    refine ⟨?_, hs, ?_, ?_, ?_, ?_⟩
    · rw [hi, hn]
      exact ho.fresh
    · rw [hr, hl]
      exact ho.removed
    · rw [hlo, hl]
      exact ho.unlisted
    · rw [hb, hd]
      exact ho.undescribed
    · rw [hr, hb]
      exact ho.apart
  exact h.proceed hm hla ht hn.ge hta hr (fun id hid => .inl (hb ▸ hid)) (fun id _ hid => hb ▸ hid)
    (fun id hid => .inl (hlo ▸ hid)) (fun id hid => .inl (hi ▸ hid))

theorem Invariant.rest (hm : Moves s u c t) (hl : u.loaded = s.loaded)
    (hto : u.topology = s.topology) (hne : u.nextId = s.nextId) (hi : t.ids = [])
    (hs : ∀ snapshot, t.snapshot = some snapshot → (snapshot.map (·.id)).Nodup)
    (hr : (s.tasks c).removing = none)
    (hb : (s.tasks c).bringing = (s.tasks c).loading) : Invariant u := by
  have hn : ∀ id, id ∉ t.ids := by simp [hi]
  have ht : t.removing = none :=
    Option.eq_none_iff_forall_ne_some.2 fun id hid => hn id (Task.removing_mem_ids hid)
  refine h.proceed hm hl hto hne.ge (taskInvariant_of_ids_nil hi hs)
    (ht.trans hr.symm) (fun id hid => ?_) (fun id hid ho => ?_) (fun id hid => ?_)
    (fun id hid => absurd hid (hn id))
  · exact absurd (Task.bringing_mem_ids hid) (hn id)
  · exact absurd hid ((h.tasks c).unlisted id (hb ▸ ho))
  · exact absurd (Task.loading_mem_ids hid) (hn id)

theorem Invariant.not_loading (hid : id ∈ s.loadedIds) (d : TaskId) :
    (s.tasks d).loading ≠ some id := fun hl => (h.tasks d).unlisted id hl hid

end

theorem mem_loadedIds_of_find (h : s.loaded.find? p = some plugin) : plugin.id ∈ s.loadedIds :=
  mem_map.2 ⟨plugin, mem_of_find?_eq_some h, rfl⟩

theorem eraseP_ids {ld : List LoadedPlugin} (hn : (ld.map (·.id)).Nodup)
    (hf : ld.find? p = some plugin) (id : LoadedPluginId) :
    id ∈ (ld.eraseP p).map (·.id) ↔ id ∈ ld.map (·.id) ∧ id ≠ plugin.id := by
  induction ld with
  | nil => cases hf
  | cons head rest ih =>
    rw [map_cons, nodup_cons] at hn
    rw [find?_cons] at hf
    split at hf
    · next hp =>
      cases hf
      rw [eraseP_cons_of_pos hp, map_cons, mem_cons]
      constructor
      · rintro hid
        exact ⟨.inr hid, fun heq => hn.1 (heq ▸ hid)⟩
      · rintro ⟨rfl | hid, hne⟩
        · exact absurd rfl hne
        · exact hid
    · next hp =>
      have hr : plugin.id ∈ rest.map (·.id) := mem_map.2 ⟨plugin, mem_of_find?_eq_some hf, rfl⟩
      rw [eraseP_cons_of_neg (by simp [hp]), map_cons, map_cons, mem_cons, mem_cons, ih hn.2 hf]
      constructor
      · rintro (rfl | ⟨hid, hne⟩)
        · exact ⟨.inl rfl, fun heq => hn.1 (heq ▸ hr)⟩
        · exact ⟨.inr hid, hne⟩
      · rintro ⟨rfl | hid, hne⟩
        · exact .inl rfl
        · exact .inr ⟨hid, hne⟩

theorem filter_ids (ld : List LoadedPlugin) (old id : LoadedPluginId) :
    id ∈ (ld.filter (·.id != old)).map (·.id) ↔ id ∈ ld.map (·.id) ∧ id ≠ old := by
  simp only [mem_map, mem_filter, bne_iff_ne]
  constructor
  · rintro ⟨plugin, ⟨hp, hne⟩, rfl⟩
    exact ⟨⟨plugin, hp, rfl⟩, hne⟩
  · rintro ⟨⟨plugin, hp, rfl⟩, hne⟩
    exact ⟨plugin, ⟨hp, hne⟩, rfl⟩

section

variable (h : Invariant s)

include h

theorem Invariant.unload {removed : LoadedPlugin} (hi : s.tasks c = .idle)
    (hf : s.loaded.find? (·.metadata.name == name) = some removed) :
    Invariant ({ s with loaded := s.loaded.eraseP (·.metadata.name == name) }.update c
      (.unloaded removed)) := by
  have hm := mem_loadedIds_of_find hf
  have hid := eraseP_ids h.loaded_nodup hf
  refine h.remove (t := .unloaded removed) (moves_of_update rfl) eraseP_sublist
    (fun other ho hne => (hid other).2 ⟨ho, hne⟩) rfl rfl ?_ rfl rfl rfl ?_ ?_ ?_
  · exact taskInvariant_of_removed rfl rfl rfl rfl rfl (h.loaded_fresh removed.id hm)
      fun hin => ((hid _).1 hin).2 rfl
  · simpa [Task.ids] using .inr (h.not_loading hm)
  · simp [hi, Task.removing]
  · simp [hi, Task.bringing]

theorem Invariant.restart (ht : s.tasks c = .reloading old) :
    Invariant ({ s with loaded := s.loaded.filter (·.id != old.id) }.update c
      (.restarted old descs)) := by
  have hi := filter_ids s.loaded old.id
  have hk : old.id ∈ (s.tasks c).ids := by simp [ht, Task.ids]
  refine h.remove (t := .restarted old descs) (moves_of_update rfl) filter_sublist
    (fun other ho hne => (hi other).2 ⟨ho, hne⟩) rfl rfl ?_ rfl rfl rfl ?_ ?_ ?_
  · exact taskInvariant_of_removed rfl rfl rfl rfl rfl ((h.tasks c).fresh old.id hk)
      fun hin => ((hi _).1 hin).2 rfl
  · simpa [Task.ids] using .inl hk
  · simp [ht, Task.removing]
  · simp [ht, Task.bringing]

theorem Invariant.startReload (hi : s.tasks c = .idle)
    (hf : s.loaded.find? (·.metadata.name == name) = some old) :
    Invariant (s.update c (.reloading old)) := by
  have hm := mem_loadedIds_of_find hf
  refine h.proceed (moves_of_update rfl) rfl rfl le_rfl ?_ ?_ ?_ ?_ ?_ ?_
  · refine ⟨?_, by simp [Task.snapshot], by simp [Task.removing], by simp [Task.loading],
      by simp [Task.bringing], by simp [Task.removing]⟩
    simpa [Task.ids, State.update] using h.loaded_fresh old.id hm
  · simp [hi, Task.removing]
  · simp [Task.bringing]
  · simp [hi, Task.bringing]
  · simp [Task.loading]
  · simpa [Task.ids] using .inr (h.not_loading hm)

theorem Invariant.load (hi : s.tasks c = .idle) :
    Invariant ({ s with nextId := s.nextId + 1 }.update c
      (.activating ⟨s.nextId, metadata⟩ descs)) := by
  have hn : ∀ d, s.nextId ∉ (s.tasks d).ids := fun d hid => h.ne_nextId hid rfl
  refine h.proceed (moves_of_update rfl) rfl rfl (Nat.le_succ _) ?_ ?_ ?_ ?_ ?_ ?_
  · refine ⟨?_, by simp [Task.snapshot], by simp [Task.removing], fun id hid hin => ?_,
      fun id hid hin => ?_, by simp [Task.removing]⟩
    · simp [Task.ids, State.update]
    · cases hid
      exact (h.loaded_fresh _ hin).false
    · cases hid
      exact (h.described_fresh _ hin).false
  · simp [hi, Task.removing]
  · intro id hid
    cases hid
    exact .inr fun d hd => hn d (Task.bringing_mem_ids hd)
  · simp [hi, Task.bringing]
  · intro id hid
    cases hid
    exact .inr hn
  · simp only [Task.ids, mem_singleton, forall_eq]
    exact .inr fun d hd => hn d (Task.loading_mem_ids hd)

theorem Invariant.commitReconcile (ht : s.tasks c = .reconciling name plugin ld)
    (hcv : s.loaded ⊆ ld)
    (hco : commitReconcile name plugin descs ld s.topology = .ok (res, topology)) :
    Invariant ({ s with topology }.update c (.committed res)) := by
  obtain ⟨hc, hs, ho⟩ := rebuild_ok hco
  have hi : ({ s with topology }.update c (.committed res)).describedIds = s.describedIds := by
    split at hs
    · next candidates hre =>
      cases hs
      exact replaceSlot_ids hre
    · cases hs
  have hr : (s.tasks c).removing = none := by rw [ht]; rfl
  refine h.commit (moves_of_update rfl) rfl rfl (by rw [ht]; rfl) hcv hc ho
    (hi ▸ h.described_nodup) (fun id hid => .inl (hi ▸ hid))
    (fun id hid => h.described id (hi ▸ hid)) (by simp [hr]) fun id _ hid => ?_
  rw [ht] at hid
  rcases hid with hid | hid
  · exact hi ▸ hid
  · cases hid

theorem Invariant.commitUnload (ht : s.tasks c = .unloading removed remaining)
    (hcv : s.loaded ⊆ remaining)
    (hco : commitUnload removed.id remaining s.topology = .ok (res, topology)) :
    Invariant ({ s with topology }.update c (.committed res)) := by
  obtain ⟨hc, hs, ho⟩ := rebuild_ok hco
  have hi : ∀ id, id ∈ topology.descriptorsByPlugin.map (·.1) ↔
      id ∈ s.describedIds ∧ id ≠ removed.id := fun id => by
    rw [← Except.ok.inj hs]
    exact mem_ids_withoutPlugin
  have hr : (s.tasks c).removing = some removed.id := by rw [ht]; rfl
  refine h.commit (moves_of_update rfl) rfl rfl (by rw [ht]; rfl) hcv hc ho
    ?_ (fun id hid => .inl ((hi id).1 hid).1) (fun id hid => h.described id ((hi id).1 hid).1)
    (fun id hid hin => ?_) fun id hl hid => ?_
  · show (topology.descriptorsByPlugin.map (·.1)).Nodup
    rw [← Except.ok.inj hs]
    exact h.described_nodup.sublist (filter_sublist.map _)
  · rw [hr] at hid
    exact ((hi id).1 hin).2 (Option.some.inj hid).symm
  · rw [ht] at hid
    rcases hid with hid | hid
    · refine (hi id).2 ⟨hid, ?_⟩
      rintro rfl
      exact (h.tasks c).removed _ hr hl
    · cases hid

theorem Invariant.commitReload (ht : s.tasks c = .recommitting old new descs remaining)
    (hcv : s.loaded ⊆ remaining) (hn : new.id ∈ s.loadedIds ∨ Awaits s new.id)
    (hco : commitReload old.id new.id descs remaining s.topology = .ok (res, topology)) :
    Invariant ({ s with topology }.update c (.committed res)) := by
  obtain ⟨hc, hs, ho⟩ := rebuild_ok hco
  have hd := (Except.ok.inj hs).symm
  have hi : ∀ id, id ∈ topology.descriptorsByPlugin.map (·.1) ↔
      id ∈ s.describedIds ∧ id ≠ old.id ∨ id = new.id := fun id => by
    rw [hd, reloadedDescriptors, map_append, mem_append, mem_ids_withoutPlugin]
    simp
  have hr : (s.tasks c).removing = some old.id := by rw [ht]; rfl
  have hb : (s.tasks c).bringing = some new.id := by rw [ht]; rfl
  have hne : old.id ≠ new.id := fun heq => (h.tasks c).apart _ hr (heq ▸ hb)
  refine h.commit (moves_of_update rfl) rfl rfl (by rw [ht]; rfl) hcv hc ho
    ?_ (fun id hid => ?_) (fun id hid => ?_) (fun id hid hin => ?_) fun id hl hid => ?_
  · show (topology.descriptorsByPlugin.map (·.1)).Nodup
    rw [hd, reloadedDescriptors, map_append]
    refine nodup_append_new (h.described_nodup.sublist (filter_sublist.map _)) fun hid => ?_
    exact (h.tasks c).undescribed _ hb (mem_ids_withoutPlugin.1 hid).1
  · rcases (hi id).1 hid with ⟨hid, -⟩ | rfl
    · exact .inl hid
    · exact .inr hb
  · rcases (hi id).1 hid with ⟨hid, -⟩ | rfl
    · exact h.described id hid
    · exact hn
  · rw [hr] at hid
    cases hid
    rcases (hi _).1 hin with ⟨-, hse⟩ | heq
    · exact hse rfl
    · exact hne heq
  · rcases hid with hid | hid
    · refine (hi id).2 (.inl ⟨hid, ?_⟩)
      rintro rfl
      exact (h.tasks c).removed _ hr hl
    · rw [hb] at hid
      exact (hi id).2 (.inr (Option.some.inj hid).symm)

theorem step_invariant (hg : Guard s a) (hs : Step s a u) : Invariant u := by
  cases hs with
  | reconcile idle =>
    refine h.rest (moves_of_update rfl) rfl rfl rfl rfl ?_ ?_ ?_
    · simpa [Task.snapshot] using h.loaded_nodup
    · simp [idle, Task.removing]
    · simp [idle, Task.bringing, Task.loading]
  | commitReconcile task _ commit =>
    exact h.commitReconcile task (hg _ (by rw [task]; rfl)) commit
  | unload idle _ fd => exact h.unload idle fd
  | readRemaining task =>
    refine h.keep (moves_of_update rfl) rfl rfl rfl ?_ ?_ ?_ ?_ ?_
    · simpa [Task.snapshot] using h.loaded_nodup
    all_goals rw [task]; rfl
  | commitUnload task commit => exact h.commitUnload task (hg _ _ task).1 commit
  | unloadFails task commit =>
    obtain ⟨res, next, hok⟩ := rebuild_isOk h.valid (hg _ _ task).2
    cases hok.symm.trans commit
  | reload idle _ fd => exact h.startReload idle fd
  | restart task => exact h.restart task
  | restartFails => cases hg
  | push task => exact h.push task (moves_of_update rfl) rfl rfl rfl
  | readReloaded task =>
    refine h.keep (moves_of_update rfl) rfl rfl rfl ?_ ?_ ?_ ?_ ?_
    · simpa [Task.snapshot] using h.loaded_nodup
    all_goals rw [task]; rfl
  | commitReload task commit =>
    obtain ⟨hc, hn, -⟩ := hg _ _ _ _ task
    exact h.commitReload task hc hn commit
  | reloadFails task commit =>
    obtain ⟨res, next, hok⟩ := rebuild_isOk h.valid (hg _ _ _ _ task).2.2
    cases hok.symm.trans commit
  | load idle => exact h.load idle
  | lockLoaded task =>
    refine h.keep (moves_of_update rfl) rfl rfl rfl (by simp [Task.snapshot]) ?_ ?_ ?_ ?_
    all_goals rw [task]; rfl
  | commitActivate task commit => exact h.activate (moves_of_update rfl) task rfl rfl commit
  | reconcileFails task | activateFails task | abandonReconcile task | abandonActivate task
  | finish task =>
    refine h.rest (moves_of_update rfl) rfl rfl rfl rfl (by simp [Task.snapshot]) ?_ ?_
    all_goals rw [task]; rfl

end

/-- Between operations the topology describes exactly the loaded plugins, under the
owners that arbitration gives. -/
theorem quiet_topology_is_consistent (s : State)
    (h : Transition.Reachable Initial Step Guard s) (hquiet : Quiet s) :
    Consistent s.loaded s.topology := by
  have hi := h.holds Invariant (fun _ => initial_invariant) fun _ _ _ hs => step_invariant hs
  exact hi.consistent hquiet

namespace Sample

def lamp : DeviceDescriptor := { id := "lamp", name := "Desk lamp" }

def plugin (id : LoadedPluginId) : LoadedPlugin := ⟨id, "demo", 0⟩

def topology (id : LoadedPluginId) : PluginTopologyState where
  descriptorsByPlugin := [(id, [lamp])]
  ownerByDevice := ownersOf [(id, [lamp])] [plugin id]

def started : State := { loaded := [plugin 0], topology := topology 0, nextId := 1 }

def reloading : State := started.update 0 (.reloading (plugin 0))

def restarted : State :=
  State.update { reloading with loaded := [] } 0 (.restarted (plugin 0) [lamp])

def pushed : State :=
  State.update { restarted with loaded := [plugin 1], nextId := 2 } 0
    (.pushed (plugin 0) (plugin 1) [lamp])

def recommitting : State := pushed.update 0 (.recommitting (plugin 0) (plugin 1) [lamp] [plugin 1])

def lampDevice : Device := ⟨"lamp", [], [], {}⟩

def reloaded : State :=
  State.update { recommitting with topology := topology 1 } 0
    (.committed ⟨[lampDevice], changedDeviceIds [lampDevice] [lampDevice]⟩)

theorem owned_normalizes (hid : id < 2) :
    normalizeDevices (topology id).owned = .ok [lampDevice] := by
  have h : ∀ id < 2, normalizeDevices (topology id).owned = .ok [lampDevice] := by decide +kernel
  exact h id hid

theorem started_initial : Initial started where
  quiet _ := rfl
  consistent := consistent_of_mem_iff (by decide) (by decide) (fun _ => Iff.rfl) rfl
  nodup := by decide
  fresh := by decide
  valid := by rw [show started.topology = topology 0 from rfl, owned_normalizes (by decide)]; rfl

end Sample

open Sample in
/-- The plugin is reloaded under identifier 1 and still owns the lamp. -/
theorem reloaded_plugin_owns_lamp : Consistent [plugin 1] (topology 1) := by
  have hr : Transition.Reachable Initial Step Guard reloading :=
    .step (l := Action.reload 0 "demo") (.initial started_initial) trivial
      (@Step.reload started 0 "demo" (plugin 0) rfl rfl rfl)
  have hre : Transition.Reachable Initial Step Guard restarted :=
    .step (l := Action.restart 0 (some [lamp])) hr rfl
      (@Step.restart reloading 0 (plugin 0) [lamp] rfl rfl (by decide))
  have hp : Transition.Reachable Initial Step Guard pushed := .step (l := Action.push 0) hre trivial
      (@Step.push restarted 0 (plugin 0) [lamp] rfl rfl)
  have hra : Transition.Reachable Initial Step Guard recommitting :=
    .step (l := Action.readRemaining 0) hp trivial
      (@Step.readReloaded pushed 0 (plugin 0) (plugin 1) [lamp] rfl rfl)
  have hg : Guard recommitting (.commitReload 0) := by
    intro old new descriptors remaining ht
    obtain ⟨rfl, rfl, rfl, rfl⟩ := Task.recommitting.inj ht
    refine ⟨Subset.refl _, .inl mem_cons_self, ?_⟩
    exact congrArg Except.isOk (owned_normalizes (by decide))
  have hc : Transition.Reachable Initial Step Guard reloaded :=
    .step (l := Action.commitReload 0) hra hg
      (@Step.commitReload recommitting 0 (plugin 0) (plugin 1) [lamp] [plugin 1] _ _ rfl
        (rebuild_eq (owned_normalizes (by decide)) (owned_normalizes (by decide))))
  have hf : Transition.Reachable Initial Step Guard (reloaded.update 0 .idle) :=
    .step (l := Action.finish 0) hc trivial (@Step.finish reloaded 0 _ rfl)
  exact quiet_topology_is_consistent _ hf (fun c => by cases c <;> rfl)

namespace Counterexample

open Sample

/-- The host does not come up again: the plugin is no longer loaded but keeps its
entry in the topology and the lamp. -/
theorem failed_reload_keeps_owner : Transition.Reachable Initial Step (fun _ _ => True)
        (State.update { reloading with loaded := [] } 0 .idle) ∧
      Quiet (State.update { reloading with loaded := [] } 0 .idle) ∧
      ¬ Consistent [] (topology 0) := by
  refine ⟨?_, fun c => by cases c <;> rfl, fun h => absurd h.ids.length_eq (by decide)⟩
  have hr : Transition.Reachable Initial Step (fun _ _ => True) reloading :=
    .step (.initial started_initial) trivial (@Step.reload started 0 "demo" (plugin 0) rfl rfl rfl)
  exact hr.step trivial (@Step.restartFails reloading 0 (plugin 0) rfl rfl)

end Counterexample

end TopologyInterleaving
