import Luminate.Checks
import Luminate.DeviceModel
import Mathlib.Data.List.Perm.Subperm

/-! # Descriptors and their normalization

What a plugin reports about its hardware, and `normalize.rs`, which checks it and
turns it into the canonical devices. Identifiers, names and hints are checked here;
the canonical types keep the identifiers only. -/
namespace Normalization

open Checks DeviceModel List

inductive HardwareBus where
  | usb | hid | i2c | platform | network
  deriving DecidableEq, Repr

inductive ClaimExclusivity where
  | exclusive | shared
  deriving DecidableEq, Repr

structure HardwareClaim where
  bus : HardwareBus
  physicalIdentity : String
  controlDomain : String
  exclusivity : ClaimExclusivity
  deriving DecidableEq, Repr

structure ElementDescriptor where
  id : String
  name : Option String := none
  physicalTags : List String := []
  capabilities : CapabilitySet := {}
  deriving DecidableEq, Repr

structure SurfaceDescriptor where
  id : String
  name : String
  physicalTags : List String := []
  elements : List ElementDescriptor := []
  capabilities : CapabilitySet := {}
  deriving DecidableEq, Repr

inductive GroupMemberDescriptor where
  | surface (surface : String)
  | element (surface element : String)
  | group (group : String)
  deriving DecidableEq, Repr

structure GroupDescriptor where
  id : String
  name : String
  members : List GroupMemberDescriptor := []
  capabilities : CapabilitySet := {}
  deriving DecidableEq, Repr

structure DeviceDescriptor where
  id : String
  name : String
  surfaces : List SurfaceDescriptor := []
  groups : List GroupDescriptor := []
  capabilities : CapabilitySet := {}
  claims : List HardwareClaim := []
  physicalTags : List String := []
  deriving DecidableEq, Repr

/-- `text.trim() == text`. -/
def isTrimmed (text : String) : Bool :=
  !text.toList.head?.any isWhiteSpace && !text.toList.getLast?.any isWhiteSpace

def validatePhysicalTags (location : String) : List String → List String → Except String Unit
  | [], _ => .ok ()
  | tag :: rest, seen => do
    ensure (tag != "" && isTrimmed tag) (location ++
      " physical tags must not be empty or have leading or trailing whitespace")
    ensure (tag ∉ seen) (location ++ " has duplicate physical tag: " ++ tag)
    validatePhysicalTags location rest (tag :: seen)

def rejectAppearanceSlots (capabilities : CapabilitySet) (targetKind : String) :
    Except String Unit :=
  ensure capabilities.appearanceSlots.isNone
    ("appearance slots are only valid on surfaces, not on a " ++ targetKind)

def validateSlots (surface : String) :
    List AppearanceSlotDescriptor → List String → List String → Except String Unit
  | [], _, _ => .ok ()
  | slot :: rest, ids, names => do
    ensure (slot.id != "") ("surface " ++ surface ++ " has an appearance slot with an empty id")
    ensure (slot.id ∉ ids) ("surface " ++ surface ++ " advertises duplicate appearance slot id " ++
      slot.id)
    ensure (slot.name != "") ("surface " ++ surface ++ " appearance slot " ++ slot.id ++
      " has an empty name")
    ensure (slot.name ∉ names) ("surface " ++ surface ++
      " advertises duplicate appearance slot name " ++ slot.name)
    validateSlots surface rest (slot.id :: ids) (slot.name :: names)

def validateAppearanceSlots (surface : SurfaceDescriptor) : Except String Unit :=
  match surface.capabilities.appearanceSlots with
  | none => .ok ()
  | some appearanceSlots => do
    ensure (!appearanceSlots.slots.isEmpty) ("surface " ++ surface.id ++
      " advertises appearance slots with no slots")
    validateSlots surface.id appearanceSlots.slots [] []

def addElementName (surface : String) (names : List String) :
    Option String → Except String (List String)
  | none => .ok names
  | some name => do
    ensure (name ∉ names) ("duplicate element name on surface " ++ surface ++ ": " ++ name)
    .ok (name :: names)

def normalizeElements (surface : String) :
    List ElementDescriptor → List String → List String → Except String (List Element)
  | [], _, _ => .ok []
  | element :: rest, ids, names => do
    ensure (element.id != "") "element id must not be empty"
    rejectAppearanceSlots element.capabilities "element"
    validatePhysicalTags ("element " ++ element.id) element.physicalTags []
    ensure (element.id ∉ ids) ("duplicate element id on surface " ++ surface ++ ": " ++ element.id)
    let names ← addElementName surface names element.name
    let elements ← normalizeElements surface rest (element.id :: ids) names
    .ok (⟨element.id, element.capabilities⟩ :: elements)

def normalizeSurfaces (device : String) :
    List SurfaceDescriptor → List String → List String → Except String (List Surface)
  | [], _, _ => .ok []
  | surface :: rest, ids, names => do
    ensure (surface.id != "") "surface id must not be empty"
    ensure (surface.name != "") "surface name must not be empty"
    validateAppearanceSlots surface
    validatePhysicalTags ("surface " ++ surface.id) surface.physicalTags []
    ensure (surface.id ∉ ids) ("duplicate surface id on device " ++ device ++ ": " ++ surface.id)
    ensure (surface.name ∉ names) ("duplicate surface name on device " ++ device ++ ": " ++
      surface.name)
    let elements ← normalizeElements surface.id surface.elements [] []
    let surfaces ← normalizeSurfaces device rest (surface.id :: ids) (surface.name :: names)
    .ok (⟨surface.id, elements, surface.capabilities⟩ :: surfaces)

def checkGroups (device : String) :
    List GroupDescriptor → List String → List String → Except String Unit
  | [], _, _ => .ok ()
  | group :: rest, ids, names => do
    ensure (group.id != "") "group id must not be empty"
    ensure (group.name != "") "group name must not be empty"
    rejectAppearanceSlots group.capabilities "group"
    ensure (group.id ∉ ids) ("duplicate group id on device " ++ device ++ ": " ++ group.id)
    ensure (group.name ∉ names) ("duplicate group name on device " ++ device ++ ": " ++ group.name)
    checkGroups device rest (group.id :: ids) (group.name :: names)

/-- The surfaces have passed their checks, so an identifier finds one surface. -/
def normalizeGroupMember (device : DeviceDescriptor) (currentGroup : String) :
    GroupMemberDescriptor → Except String GroupMember
  | .surface surface => do
    ensure (device.surfaces.any (·.id == surface))
      ("group references unknown surface: " ++ surface)
    .ok (.surface surface)
  | .element surface element =>
    match device.surfaces.find? (·.id == surface) with
    | none => .error ("group references unknown surface for element member: " ++ surface)
    | some owner => do
      ensure (owner.elements.any (·.id == element))
        ("group references unknown element " ++ element ++ " on surface " ++ surface)
      .ok (.element surface element)
  | .group group => do
    ensure (group != currentGroup) ("group references itself: " ++ currentGroup)
    ensure (device.groups.any (·.id == group)) ("group references unknown group: " ++ group)
    .ok (.group group)

def groupReferences (group : GroupDescriptor) : List String :=
  group.members.filterMap fun
    | .group nested => some nested
    | .surface _ | .element .. => none

/-- The groups being expanded and those already found free of cycles. -/
structure CycleSearch where
  visiting : List String := []
  visited : List String := []
  deriving DecidableEq, Repr

def referencesOf (groups : List GroupDescriptor) (group : String) : List String :=
  ((groups.find? (·.id == group)).map groupReferences).getD []

/-- Depth first from one group; calls nested deeper than `fuel` do not end. -/
def rejectGroupCyclesFrom (groups : List GroupDescriptor) :
    ℕ → String → CycleSearch → ExceptT String Option CycleSearch
  | 0, _, _ => ExceptT.mk none
  | fuel + 1, group, search =>
    if group ∈ search.visited then pure search
    else if group ∈ search.visiting then throw ("group reference cycle includes: " ++ group)
    else do
      let search ← (referencesOf groups group).foldlM
        (fun search member => rejectGroupCyclesFrom groups fuel member search)
        { search with visiting := group :: search.visiting }
      pure ⟨search.visiting.erase group, group :: search.visited⟩

/-- The search from every key of the graph, in the order in which the map lists them. -/
def rejectGroupCyclesIn (groups : List GroupDescriptor) (fuel : ℕ) (order : List String) :
    Option (Except String CycleSearch) :=
  (order.foldlM (fun search group => rejectGroupCyclesFrom groups fuel group search) {}).run

/-- The search ends, and unless it fails the groups being expanded are these. -/
def Ends (visiting : List String) (run : ExceptT String Option CycleSearch) : Prop :=
  ∃ outcome, run = ExceptT.mk (some outcome) ∧
    ∀ search, outcome = .ok search → search.visiting = visiting

theorem ends_pure : Ends search.visiting (pure search) :=
  ⟨.ok search, rfl, fun _ h => by cases h; rfl⟩

theorem Ends.bind (h : Ends vis run)
    (hn : ∀ search, search.visiting = vis → Ends left (more search)) :
    Ends left (run >>= more) := by
  obtain ⟨outcome, rfl, hv⟩ := h
  cases outcome with
  | error e => exact ⟨.error e, rfl, nofun⟩
  | ok search => exact hn search (hv search rfl)

theorem ends_foldlM
    (hex : ∀ search name, search.visiting = vis → Ends vis (explore search name))
    (hv : search.visiting = vis) : Ends vis (foldlM explore search ms) := by
  induction ms generalizing search with
  | nil => exact hv ▸ ends_pure
  | cons name rest ih =>
    rw [foldlM_cons]
    exact (hex search name hv).bind fun _ hb => ih hb

/-- Nested calls enter distinct groups, so one level for each group and one more is
enough. -/
theorem rejectGroupCyclesFrom_ends (hd : search.visiting.Nodup)
    (hs : search.visiting ⊆ groups.map (·.id))
    (hf : groups.length < search.visiting.length + fuel) :
    Ends search.visiting (rejectGroupCyclesFrom groups fuel name search) := by
  induction fuel generalizing name search with
  | zero =>
    have hle := (subperm_of_subset hd hs).length_le
    rw [length_map] at hle
    omega
  | succ fuel ih =>
    rw [rejectGroupCyclesFrom]
    split
    · exact ends_pure
    split
    · exact ⟨.error _, rfl, nofun⟩
    · next hv =>
      refine Ends.bind (?_ : Ends (name :: search.visiting) _) fun after ha => ?_
      · cases hfi : groups.find? (·.id == name) with
        | none =>
          rw [referencesOf, hfi]
          exact ends_pure
        | some group =>
          have hk : name ∈ groups.map (·.id) :=
            mem_map.2 ⟨group, mem_of_find?_eq_some hfi, by simpa using find?_some hfi⟩
          refine ends_foldlM (fun between member hb => ?_) rfl
          rw [← hb]
          refine ih (hb ▸ nodup_cons.2 ⟨hv, hd⟩) (hb ▸ cons_subset.2 ⟨hk, hs⟩) ?_
          rw [hb, length_cons]
          omega
      · have he : after.visiting.erase name = search.visiting := by
          rw [ha, erase_cons_head]
        exact he ▸ ends_pure

theorem rejectGroupCyclesIn_ends (hf : groups.length < fuel) :
    ∃ outcome, rejectGroupCyclesIn groups fuel order = some outcome := by
  obtain ⟨outcome, hr, -⟩ : Ends [] (order.foldlM (fun search group =>
      rejectGroupCyclesFrom groups fuel group search) {}) := by
    refine ends_foldlM (fun search name hv => hv ▸ ?_) rfl
    refine rejectGroupCyclesFrom_ends (hv ▸ nodup_nil) (hv ▸ nil_subset _) ?_
    omega
  exact ⟨outcome, hr⟩

def rejectGroupCycles (groups : List GroupDescriptor) : Except String CycleSearch :=
  (rejectGroupCyclesIn groups (groups.length + 1) (groups.map (·.id))).get
    (Option.isSome_iff_exists.2 (rejectGroupCyclesIn_ends (Nat.lt_succ_self _)))

def normalizeGroups (device : DeviceDescriptor) : Except String (List Group) := do
  checkGroups device.id device.groups [] []
  let groups ← device.groups.mapM fun group => do
    let members ← group.members.mapM (normalizeGroupMember device group.id)
    Except.ok (⟨group.id, members, group.capabilities⟩ : Group)
  let _ ← rejectGroupCycles device.groups
  .ok groups

def normalizeDevice (descriptor : DeviceDescriptor) : Except String Device := do
  ensure (descriptor.id != "") "device id must not be empty"
  ensure (descriptor.name != "") "device name must not be empty"
  rejectAppearanceSlots descriptor.capabilities "device"
  validatePhysicalTags "device" descriptor.physicalTags []
  let surfaces ← normalizeSurfaces descriptor.id descriptor.surfaces [] []
  let groups ← normalizeGroups descriptor
  .ok ⟨descriptor.id, surfaces, groups, descriptor.capabilities⟩

def normalizeFrom : List DeviceDescriptor → List String → List String → Except String (List Device)
  | [], _, _ => .ok []
  | descriptor :: rest, ids, names => do
    ensure (descriptor.id ∉ ids) ("duplicate device id: " ++ descriptor.id)
    ensure (descriptor.name ∉ names) ("duplicate device name: " ++ descriptor.name)
    let device ← normalizeDevice descriptor
    let devices ← normalizeFrom rest (descriptor.id :: ids) (descriptor.name :: names)
    .ok (device :: devices)

def normalizeDevices (descriptors : List DeviceDescriptor) : Except String (List Device) :=
  normalizeFrom descriptors [] []

theorem normalizeDevice_id (h : normalizeDevice desc = .ok d) : d.id = desc.id := by
  simp only [normalizeDevice, bind_ok_iff] at h
  obtain ⟨-, -, -, -, -, -, -, -, surfaces, -, groups, -, h⟩ := h
  cases h
  rfl

theorem normalizeFrom_ok (h : normalizeFrom descs ids names = .ok ds) :
    (descs.map (·.id)).Nodup ∧ (∀ desc ∈ descs, desc.id ∉ ids) ∧
      ds.map (·.id) = descs.map (·.id) ∧ ∀ d, d ∈ ds ↔
          ∃ desc ∈ descs, normalizeDevice desc = .ok d := by
  induction descs generalizing ids names ds with
  | nil =>
    cases h
    simp
  | cons desc rest ih =>
    simp only [normalizeFrom, bind_ok_iff] at h
    obtain ⟨⟨⟩, hid, -, -, d, hd, others, hot, h⟩ := h
    cases h
    obtain ⟨hn, hf, hi, hm⟩ := ih hot
    have hne : desc.id ∉ ids := by simpa using ensure_ok_iff.1 hid
    refine ⟨?_, ?_, ?_, ?_⟩
    · rw [map_cons, nodup_cons]
      refine ⟨fun hl => ?_, hn⟩
      obtain ⟨other, ho, hs⟩ := mem_map.1 hl
      exact hf other ho (hs ▸ mem_cons_self)
    · exact forall_mem_cons.2 ⟨hne, fun other ho hk =>
        hf other ho (mem_cons_of_mem _ hk)⟩
    · rw [map_cons, map_cons, normalizeDevice_id hd, hi]
    · intro other
      rw [mem_cons, hm, exists_mem_cons_iff, hd]
      exact or_congr_left ⟨fun h => h ▸ rfl, fun h => (Except.ok.inj h).symm⟩

end Normalization
