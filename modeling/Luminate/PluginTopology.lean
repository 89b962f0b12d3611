import Luminate.PluginOwnership

/-! # Commits of the plugin topology

`plugins/topology.rs` and `activate_plugin`: what each operation does while it holds
the topology lock. Ownership is always rebuilt from all descriptors, and nothing is
written when a normalization fails. -/
namespace PluginTopology

open Checks DeviceModel Normalization PluginOwnership List

structure LoadedPlugin where
  id : LoadedPluginId
  metadata : LoadedPluginMetadata
  deriving DecidableEq

abbrev PluginDescriptors := List (LoadedPluginId × List DeviceDescriptor)

structure PluginTopologyState where
  descriptorsByPlugin : PluginDescriptors := []
  ownerByDevice : OwnerMap LoadedPluginId := ∅

def PluginTopologyState.owned (topology : PluginTopologyState) : List DeviceDescriptor :=
  ownedDescriptors topology.ownerByDevice topology.descriptorsByPlugin

structure TopologyReconcile where
  devices : List Device
  changedDevices : List DeviceId
  deriving DecidableEq

/-- Descriptors of plugins that are not loaded take no part in the arbitration. -/
def arbitrationInputs (candidates : PluginDescriptors) (loaded : List LoadedPlugin) :
    List Contender :=
  candidates.filterMap fun (id, descriptors) =>
    (loaded.find? (·.id == id)).map fun plugin => ⟨id, plugin.metadata, descriptors⟩

def ownersOf (candidates : PluginDescriptors) (loaded : List LoadedPlugin) :
    OwnerMap LoadedPluginId := arbitrateOwnershipById (arbitrationInputs candidates loaded)

def aggregateOf (candidates : PluginDescriptors) (loaded : List LoadedPlugin) :
    List DeviceDescriptor := ownedDescriptors (ownersOf candidates loaded) candidates

/-- The sequence shared by a re-pull, an unload and a reload. The operations differ in
the candidate descriptors and in the words put before an error. -/
def rebuild (previousInvalid aggregateInvalid : String) (topology : PluginTopologyState)
    (candidates : Except String PluginDescriptors) (loaded : List LoadedPlugin) :
    Except String (TopologyReconcile × PluginTopologyState) := do
  let previous ← (normalizeDevices topology.owned).mapError (previousInvalid ++ ·)
  let candidates ← candidates
  let devices ← (normalizeDevices (aggregateOf candidates loaded)).mapError (aggregateInvalid ++ ·)
  .ok (⟨devices, changedDeviceIds previous devices⟩, ⟨candidates, ownersOf candidates loaded⟩)

def replaceSlot (id : LoadedPluginId) (descriptors : List DeviceDescriptor) :
    PluginDescriptors → Option PluginDescriptors
  | [] => none
  | (other, old) :: rest =>
    if other = id then some ((other, descriptors) :: rest)
    else (replaceSlot id descriptors rest).map ((other, old) :: ·)

def commitReconcile (name : String) (id : LoadedPluginId) (descriptors : List DeviceDescriptor)
    (loaded : List LoadedPlugin) (topology : PluginTopologyState) :
    Except String (TopologyReconcile × PluginTopologyState) :=
  rebuild "" "" topology
    (match replaceSlot id descriptors topology.descriptorsByPlugin with
      | some candidates => .ok candidates
      | none => .error ("plugin topology entry missing for " ++ name))
    loaded

def withoutPlugin (id : LoadedPluginId) (descriptors : PluginDescriptors) : PluginDescriptors :=
  descriptors.filter (·.1 != id)

def commitUnload (removed : LoadedPluginId) (remaining : List LoadedPlugin)
    (topology : PluginTopologyState) : Except String (TopologyReconcile × PluginTopologyState) :=
  rebuild "previous topology became invalid: " "post-unload aggregate topology is invalid: "
    topology (.ok (withoutPlugin removed topology.descriptorsByPlugin)) remaining

def reloadedDescriptors (old new : LoadedPluginId) (descriptors : List DeviceDescriptor)
    (topology : PluginTopologyState) : PluginDescriptors :=
  withoutPlugin old topology.descriptorsByPlugin ++ [(new, descriptors)]

def commitReload (old new : LoadedPluginId) (descriptors : List DeviceDescriptor)
    (remaining : List LoadedPlugin) (topology : PluginTopologyState) :
    Except String (TopologyReconcile × PluginTopologyState) :=
  rebuild "previous topology became invalid: " "post-reload aggregate topology is invalid: "
    topology (.ok (reloadedDescriptors old new descriptors topology)) remaining

def validateStartupCandidate (existing : List Contender) (candidate : Contender) :
    Except String (OwnerMap LoadedPluginId) := do
  let plugins := existing ++ [candidate]
  let owners := arbitrateOwnershipById plugins
  let _ ← (normalizeDevices (ownedDescriptors owners
    (plugins.map fun plugin => (plugin.id, plugin.descriptors)))).mapError
    ("plugin " ++ candidate.metadata.name ++ " conflicts with the accepted startup topology: " ++ ·)
  .ok owners

def commitActivate (loaded : List LoadedPlugin) (plugin : LoadedPlugin)
    (descriptors : List DeviceDescriptor) (topology : PluginTopologyState) :
    Except String (TopologyReconcile × PluginTopologyState) := do
  let previous ← (normalizeDevices topology.owned).mapError
    ("previous topology became invalid: " ++ ·)
  let owners ← validateStartupCandidate
    (arbitrationInputs topology.descriptorsByPlugin loaded)
    ⟨plugin.id, plugin.metadata, descriptors⟩
  let candidates := topology.descriptorsByPlugin ++ [(plugin.id, descriptors)]
  let devices ← (normalizeDevices (ownedDescriptors owners candidates)).mapError
    ("activated topology is invalid: " ++ ·)
  .ok (⟨devices, changedDeviceIds previous devices⟩, ⟨candidates, owners⟩)

structure Committed (topology : PluginTopologyState) (result : TopologyReconcile)
    (next : PluginTopologyState) : Prop where
  normalized : normalizeDevices next.owned = .ok result.devices
  changed : ∃ previous, normalizeDevices topology.owned = .ok previous ∧
    result.changedDevices = changedDeviceIds previous result.devices

section

variable {previousInvalid aggregateInvalid : String} {topo next : PluginTopologyState}
  {candidates : PluginDescriptors} {ld : List LoadedPlugin} {res : TopologyReconcile}

theorem rebuild_ok (h : rebuild previousInvalid aggregateInvalid topo src ld = .ok (res, next)) :
    Committed topo res next ∧ src = .ok next.descriptorsByPlugin ∧
      next.ownerByDevice = ownersOf next.descriptorsByPlugin ld := by
  simp only [rebuild, bind_ok_iff, mapError_ok_iff] at h
  obtain ⟨prev, hp, candidates, hc, ds, hd, h⟩ := h
  cases h
  exact ⟨⟨hd, prev, hp, rfl⟩, hc, rfl⟩

theorem rebuild_eq {prev : List Device} (hp : normalizeDevices topo.owned = .ok prev)
    (ha : normalizeDevices (aggregateOf candidates ld) = .ok ds) :
    rebuild previousInvalid aggregateInvalid topo (.ok candidates) ld =
      .ok (⟨ds, changedDeviceIds prev ds⟩, ⟨candidates, ownersOf candidates ld⟩) := by
  simp [rebuild, hp, ha, Except.mapError]

theorem rebuild_isOk (hpr : (normalizeDevices topo.owned).isOk = true)
    (hag : (normalizeDevices (aggregateOf candidates ld)).isOk = true) :
    ∃ res next, rebuild previousInvalid aggregateInvalid topo (.ok candidates) ld =
      .ok (res, next) := by
  cases hp : normalizeDevices topo.owned with
  | error => simp [hp, Except.isOk, Except.toBool] at hpr
  | ok prev =>
    cases ha : normalizeDevices (aggregateOf candidates ld) with
    | error => simp [ha, Except.isOk, Except.toBool] at hag
    | ok ds => exact ⟨_, _, rebuild_eq hp ha⟩

end

variable {ld : List LoadedPlugin} {plugin : LoadedPlugin} {id : LoadedPluginId}

theorem commitActivate_ok {next : PluginTopologyState}
    (h : commitActivate ld plugin descs topology = .ok (result, next)) :
    Committed topology result next ∧
      next.descriptorsByPlugin = topology.descriptorsByPlugin ++ [(plugin.id, descs)] ∧
      next.ownerByDevice = arbitrateOwnershipById
        (arbitrationInputs topology.descriptorsByPlugin ld ++
          [⟨plugin.id, plugin.metadata, descs⟩]) := by
  simp only [commitActivate, validateStartupCandidate, bind_ok_iff, mapError_ok_iff] at h
  obtain ⟨prev, hp, owners, ⟨-, -, ho⟩, ds, hd, h⟩ := h
  cases h
  cases ho
  exact ⟨⟨hd, prev, hp, rfl⟩, rfl, rfl⟩

theorem replaceSlot_ids {pre after : PluginDescriptors}
    (h : replaceSlot id descs pre = some after) : after.map (·.1) = pre.map (·.1) := by
  induction pre generalizing after with
  | nil => cases h
  | cons slot rest ih =>
    unfold replaceSlot at h
    split at h
    · cases h
      rfl
    · obtain ⟨tail, ht, rfl⟩ := Option.map_eq_some_iff.1 h
      rw [map_cons, map_cons, ih ht]

theorem mem_ids_withoutPlugin {descs : PluginDescriptors} :
    other ∈ (withoutPlugin id descs).map (·.1) ↔ other ∈ descs.map (·.1) ∧ other ≠ id := by
  simp only [withoutPlugin, mem_map, mem_filter, bne_iff_ne]
  constructor
  · rintro ⟨slot, ⟨hs, hne⟩, rfl⟩
    exact ⟨⟨slot, hs, rfl⟩, hne⟩
  · rintro ⟨⟨slot, hs, rfl⟩, hne⟩
    exact ⟨slot, ⟨hs, hne⟩, rfl⟩

/-- The topology describes exactly the loaded plugins, and ownership is what
arbitration over them gives. -/
structure Consistent (loaded : List LoadedPlugin) (topology : PluginTopologyState) : Prop where
  ids : (topology.descriptorsByPlugin.map (·.1)).Perm (loaded.map (·.id))
  owners : topology.ownerByDevice = ownersOf topology.descriptorsByPlugin loaded
  owners_loaded : ∀ (device : String) (id : LoadedPluginId),
    topology.ownerByDevice[device]? = some id → ∃ plugin ∈ loaded, plugin.id = id

theorem mem_arbitrationInputs {candidates : PluginDescriptors}
    (h : cont ∈ arbitrationInputs candidates ld) : ∃ plugin ∈ ld, plugin.id = cont.id := by
  obtain ⟨⟨id, descs⟩, -, h⟩ := mem_filterMap.1 h
  obtain ⟨plugin, hp, rfl⟩ := Option.map_eq_some_iff.1 h
  exact ⟨plugin, mem_of_find?_eq_some hp, by simpa using find?_some hp⟩

theorem find_of_mem (hn : (ld.map (·.id)).Nodup) (h : plugin ∈ ld) :
    ld.find? (·.id == plugin.id) = some plugin := by
  obtain ⟨fd, hf⟩ : ∃ fd, ld.find? (·.id == plugin.id) = some fd := by
    apply Option.isSome_iff_exists.1
    exact find?_isSome.2 ⟨plugin, h, beq_self_eq_true _⟩
  have hs : fd.id = plugin.id := by simpa using find?_some hf
  have heq : fd = plugin := inj_on_of_nodup_map hn (mem_of_find?_eq_some hf) h hs
  rw [hf, heq]

theorem ownersOf_congr {candidates : PluginDescriptors} (hl : (ld.map (·.id)).Nodup)
    (hs : (snapshot.map (·.id)).Nodup) (hco : ld ⊆ snapshot)
    (hc : ∀ id ∈ candidates.map (·.1), id ∈ ld.map (·.id)) :
    ownersOf candidates snapshot = ownersOf candidates ld := by
  have hi : arbitrationInputs candidates snapshot = arbitrationInputs candidates ld := by
    refine filterMap_congr fun ⟨id, descs⟩ hsl => ?_
    obtain ⟨plugin, hp, rfl⟩ := mem_map.1 (hc id (mem_map_of_mem (f := (·.1)) hsl))
    simp only [find_of_mem hs (hco hp), find_of_mem hl hp]
  rw [ownersOf, ownersOf, hi]

theorem arbitrationInputs_append {candidates : PluginDescriptors}
    (hc : plugin.id ∉ candidates.map (·.1)) (hl : plugin.id ∉ ld.map (·.id)) :
    arbitrationInputs (candidates ++ [(plugin.id, descs)]) (ld ++ [plugin]) =
      arbitrationInputs candidates ld ++ [⟨plugin.id, plugin.metadata, descs⟩] := by
  have hn : ld.find? (·.id == plugin.id) = none := by
    refine find?_eq_none.2 fun other ho hid => hl ?_
    exact mem_map.2 ⟨other, ho, by simpa using hid⟩
  have hol : arbitrationInputs candidates (ld ++ [plugin]) = arbitrationInputs candidates ld := by
    refine filterMap_congr fun ⟨id, old⟩ hs => ?_
    have hne : plugin.id ≠ id := by
      rintro rfl
      exact hc (mem_map.2 ⟨_, hs, rfl⟩)
    simp [find?_append, hne]
  rw [arbitrationInputs, filterMap_append]
  exact congrArg₂ (· ++ ·) hol (by simp [find?_append, hn])

theorem consistent_of_mem_iff (hl : (ld.map (·.id)).Nodup)
    (hd : (topology.descriptorsByPlugin.map (·.1)).Nodup)
    (hi : ∀ id, id ∈ topology.descriptorsByPlugin.map (·.1) ↔ id ∈ ld.map (·.id))
    (ho : topology.ownerByDevice = ownersOf topology.descriptorsByPlugin ld) :
    Consistent ld topology where
  ids := (perm_ext_iff_of_nodup hd hl).2 hi
  owners := ho
  owners_loaded _ _ h := by
    obtain ⟨cont, hc, rfl⟩ := owner_mem (ho ▸ h)
    exact mem_arbitrationInputs hc

end PluginTopology
