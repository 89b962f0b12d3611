import Luminate.Normalization
import Luminate.TargetTopology
import Mathlib.Data.List.Dedup
import Mathlib.Data.List.Sort

/-! # Device ownership

`plugins/ownership.rs`: several plugins may report the same device, or claim the
same hardware. Whole devices are given to plugins in order of priority. -/
namespace PluginOwnership

open DeviceModel Normalization Std

structure LoadedPluginMetadata where
  name : String
  priority : ℤ
  deriving DecidableEq

abbrev LoadedPluginId := ℕ

abbrev OwnerMap (Key : Type) := ExtTreeMap String Key compare

structure Candidate where
  pluginIndex : ℕ
  descriptorIndex : ℕ
  descriptor : DeviceDescriptor
  deriving DecidableEq

def candidates (descriptorsByPlugin : List (List DeviceDescriptor)) : List Candidate :=
  descriptorsByPlugin.zipIdx.flatMap fun (descriptors, pluginIndex) =>
    descriptors.zipIdx.map fun (descriptor, descriptorIndex) =>
      ⟨pluginIndex, descriptorIndex, descriptor⟩

/-- The priority of a plugin without metadata is the least `i32`. -/
def priorityOf (metadata : List LoadedPluginMetadata) (index : ℕ) : ℤ :=
  (metadata[index]?.map (·.priority)).getD (-2147483648)

/-- The sort key `(Reverse(priority), plugin_index, descriptor_index)`. -/
def precedes (metadata : List LoadedPluginMetadata) (a b : Candidate) : Prop :=
  priorityOf metadata b.pluginIndex < priorityOf metadata a.pluginIndex ∨
    priorityOf metadata a.pluginIndex = priorityOf metadata b.pluginIndex ∧
      (a.pluginIndex < b.pluginIndex ∨
        a.pluginIndex = b.pluginIndex ∧ a.descriptorIndex ≤ b.descriptorIndex)

instance (metadata : List LoadedPluginMetadata) : DecidableRel (precedes metadata) :=
  fun _ _ => inferInstanceAs (Decidable (_ ∨ _))

def sameResource (a b : HardwareClaim) : Bool :=
  a.bus == b.bus && a.physicalIdentity == b.physicalIdentity && a.controlDomain == b.controlDomain

/-- A claim loses to the accepted claims on its resource unless all are shared. -/
def loses (accepted : List HardwareClaim) (claim : HardwareClaim) : Bool :=
  (accepted.filter (sameResource claim)).any fun existing =>
    claim.exclusivity == .exclusive || existing.exclusivity == .exclusive

structure Awarded where
  owners : OwnerMap ℕ := ∅
  claims : List HardwareClaim := []

def award (awarded : Awarded) (candidate : Candidate) : Awarded :=
  if awarded.owners.contains candidate.descriptor.id then awarded
  else if candidate.descriptor.claims.any (loses awarded.claims) then awarded
  else
    { owners := awarded.owners.insert candidate.descriptor.id candidate.pluginIndex
      claims := awarded.claims ++ candidate.descriptor.claims }

def arbitrateOwnership (metadata : List LoadedPluginMetadata)
    (descriptorsByPlugin : List (List DeviceDescriptor)) : OwnerMap ℕ :=
  (((candidates descriptorsByPlugin).insertionSort (precedes metadata)).foldl award {}).owners

structure Contender where
  id : LoadedPluginId
  metadata : LoadedPluginMetadata
  descriptors : List DeviceDescriptor
  deriving DecidableEq

def arbitrateOwnershipById (plugins : List Contender) : OwnerMap LoadedPluginId :=
  (arbitrateOwnership (plugins.map (·.metadata)) (plugins.map (·.descriptors))).filterMap
    fun _ index => plugins[index]?.map (·.id)

def ownedDescriptors (ownerByDevice : OwnerMap LoadedPluginId)
    (descriptorsByPlugin : List (LoadedPluginId × List DeviceDescriptor)) :
    List DeviceDescriptor :=
  descriptorsByPlugin.flatMap fun (id, descriptors) =>
    descriptors.filter fun descriptor => ownerByDevice[descriptor.id]? == some id

def changedDeviceIds (previous current : List Device) : List DeviceId :=
  let previous := (TargetTopology.fromDevices previous).devices
  let current := (TargetTopology.fromDevices current).devices
  ((previous.keys ++ current.keys).dedup.filter fun id =>
    previous[id]? != current[id]?).insertionSort (· ≤ ·)

theorem owner_mem {d : String} {id : LoadedPluginId}
    (h : (arbitrateOwnershipById ps)[d]? = some id) : ∃ plugin ∈ ps, plugin.id = id := by
  rw [arbitrateOwnershipById, ExtTreeMap.getElem?_filterMap'] at h
  obtain ⟨i, -, h⟩ := Option.bind_eq_some_iff.1 h
  obtain ⟨plugin, hp, rfl⟩ := Option.map_eq_some_iff.1 h
  exact ⟨plugin, List.mem_of_getElem? hp, rfl⟩

theorem devices_eq_of_unchanged {prev : List Device} (h : changedDeviceIds prev current = []) :
    (TargetTopology.fromDevices prev).devices = (TargetTopology.fromDevices current).devices := by
  ext1 id
  by_contra hne
  have hk : id ∈ (TargetTopology.fromDevices prev).devices ∨
      id ∈ (TargetTopology.fromDevices current).devices := by
    by_contra hn
    obtain ⟨hp, hc⟩ := not_or.1 hn
    exact hne ((ExtTreeMap.getElem?_eq_none hp).trans (ExtTreeMap.getElem?_eq_none hc).symm)
  have hm : id ∈ changedDeviceIds prev current := by simpa [changedDeviceIds, hne] using hk
  rw [h] at hm
  cases hm

theorem unchanged_of_same_devices {prev : List Device} (hp : (prev.map (·.id)).Nodup)
    (hc : (current.map (·.id)).Nodup) (h : ∀ d, d ∈ prev ↔ d ∈ current) :
    changedDeviceIds prev current = [] := by
  have hs : ∀ id : DeviceId, (TargetTopology.fromDevices prev).devices[id]? =
      (TargetTopology.fromDevices current).devices[id]? := by
    intro id
    ext d
    rw [TargetTopology.fromDevices_getElem? hp, TargetTopology.fromDevices_getElem? hc, h]
  simp [changedDeviceIds, hs]

end PluginOwnership
