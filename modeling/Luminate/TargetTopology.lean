import Luminate.DepthFirst
import Luminate.DeviceModel

/-! # Active topology and target coverage

The device map of `DaemonState` and the target algebra of `state/mod.rs`:
capability lookup, group expansion and which targets cover which. -/
namespace TargetTopology

open DepthFirst DeviceModel List Std

/-- The active devices. Every device is stored under its own identifier. -/
structure Topology where
  devices : ExtTreeMap DeviceId Device compare
  keyed : ∀ (id : DeviceId) (device : Device), devices[id]? = some device → device.id = id

/-- A later device replaces an earlier one with the same identifier. -/
def fromDevices (devices : List Device) : Topology where
  devices := devices.foldl (fun map device => map.insert device.id device) ∅
  keyed := by
    suffices h : ∀ (l : List Device) (m : ExtTreeMap DeviceId Device compare),
        (∀ (id : DeviceId) (device : Device), m[id]? = some device → device.id = id) →
        ∀ (id : DeviceId) (device : Device),
          (l.foldl (fun map device => map.insert device.id device) m)[id]? = some device →
            device.id = id from h devices ∅ (by simp)
    intro l
    induction l with
    | nil => exact fun m hm => hm
    | cons d rest ih =>
      refine fun m hm => ih _ fun id device h => ?_
      rw [ExtTreeMap.getElem?_insert] at h
      split at h
      · next he =>
        cases h
        exact LawfulEqCmp.eq_of_compare he
      · exact hm id device h

variable {device : Device} {topo : Topology}
  {expand : Group → List GroupId → List TargetAtom × List GroupId} {group : Group}

theorem fromDevices_getElem? (hn : (ds.map (·.id)).Nodup) {id : DeviceId} :
    (fromDevices ds).devices[id]? = some device ↔ device ∈ ds ∧ device.id = id := by
  suffices h : ∀ map : ExtTreeMap DeviceId Device compare,
      (ds.foldl (fun map device => map.insert device.id device) map)[id]? = some device ↔
        (device ∈ ds ∧ device.id = id) ∨ id ∉ ds.map (·.id) ∧ map[id]? = some device by
    rw [fromDevices, h]
    simp
  induction ds with
  | nil => simp
  | cons first rest ih =>
    intro map
    obtain ⟨hf, hr⟩ := nodup_cons.1 (map_cons ▸ hn)
    rw [foldl_cons, ih hr, ExtTreeMap.getElem?_insert]
    by_cases hid : first.id = id
    · subst hid
      simp only [ReflCmp.compare_self, if_true, hf, not_false_eq_true, true_and,
        Option.some.injEq, mem_cons, map_cons, not_true, false_and, or_false]
      constructor
      · rintro (⟨h, hs⟩ | rfl)
        · exact ⟨.inr h, hs⟩
        · exact ⟨.inl rfl, rfl⟩
      · rintro ⟨rfl | h, hs⟩
        · exact .inr rfl
        · exact .inl ⟨h, hs⟩
    · rw [if_neg (fun hc => hid (LawfulEqCmp.eq_of_compare hc))]
      have hne : ¬ id = first.id := fun h => hid h.symm
      simp only [mem_cons, map_cons, hne, false_or]
      refine or_congr_left (and_congr_left ?_)
      rintro rfl
      exact (or_iff_right fun h : device = first => hid (congrArg Device.id h.symm)).symm

section

variable (topology : Topology) (device : Device) (id : DeviceId)

def findDevice : Option Device := topology.devices[id]?

def containsDevice : Bool := topology.devices.contains id

theorem device_id {id : DeviceId} (h : findDevice topo id = some d) : d.id = id := topo.keyed id d h

def findSurface (id : SurfaceId) : Option Surface :=
  device.surfaces.find? (·.id == id)

def findElement (surface : Surface) (id : ElementId) : Option Element :=
  surface.elements.find? (·.id == id)

def findGroup (id : GroupId) : Option Group := device.groups.find? (·.id == id)

def capabilitiesForTarget : TargetId → Option CapabilitySet
  | .device d => (findDevice topology d).map (·.capabilities)
  | .surface d s => ((findDevice topology d).bind (findSurface · s)).map (·.capabilities)
  | .element d s e =>
    (((findDevice topology d).bind (findSurface · s)).bind (findElement · e)).map (·.capabilities)
  | .group d g => ((findDevice topology d).bind (findGroup · g)).map (·.capabilities)

inductive TargetAtom where
  | surface (surface : SurfaceId)
  | element (surface : SurfaceId) (element : ElementId)
  deriving DecidableEq

/-- One member of a group under expansion; `expand` expands a nested group. -/
def memberAtoms (expand : Group → List GroupId → List TargetAtom × List GroupId)
    (acc : List TargetAtom × List GroupId) : GroupMember → List TargetAtom × List GroupId
  | .surface s => (acc.1 ++ [.surface s], acc.2)
  | .element s e => (acc.1 ++ [.element s e], acc.2)
  | .group g =>
    match findGroup device g with
    | some nested => (acc.1 ++ (expand nested acc.2).1, (expand nested acc.2).2)
    | none => acc

/-- Expands a group depth first. `visited` is shared by the whole expansion, so
a group contributes its members only where it is met first. -/
def groupAtoms (device : Device) :
    ℕ → Group → List GroupId → List TargetAtom × List GroupId
  | 0, _, visited => ([], visited)
  | fuel + 1, group, visited =>
    if group.id ∈ visited then ([], visited)
    else group.members.foldl (memberAtoms device (groupAtoms device fuel)) ([], group.id :: visited)

/-- Nested expansions visit distinct groups, so one level per group is enough. -/
def targetAtoms : TargetId → Option (List TargetAtom)
  | .device _ => none
  | .surface _ s => some [.surface s]
  | .element _ s e => some [.element s e]
  | .group d g => do
    let device ← findDevice topology d
    let group ← findGroup device g
    return (groupAtoms device (device.groups.length + 1) group []).1

def targetAtomCovers : TargetAtom → TargetAtom → Bool
  | .surface covering, .surface covered => covering == covered
  | .surface covering, .element covered _ => covering == covered
  | .element s e, .element s' e' => s == s' && e == e'
  | .element .., .surface _ => false

def isDevice : TargetId → Bool
  | .device _ => true
  | _ => false

def atomsCover (covering covered : List TargetAtom) : Bool :=
  covered.all fun inner => covering.any fun outer => targetAtomCovers outer inner

def targetCovers (covering covered : TargetId) : Bool :=
  if covering = covered then true
  else if covering.deviceId ≠ covered.deviceId then false
  else if isDevice covering then true
  else if isDevice covered then false
  else
    match targetAtoms topology covering, targetAtoms topology covered with
    | some coveringAtoms, some coveredAtoms => atomsCover coveringAtoms coveredAtoms
    | _, _ => false

end

theorem targetAtomCovers_trans (hab : targetAtomCovers a b = true)
    (hbc : targetAtomCovers b c = true) : targetAtomCovers a c = true := by
  cases a <;> cases b <;> cases c <;> simp_all [targetAtomCovers]

theorem atomsCover_trans (hab : atomsCover a b = true) (hbc : atomsCover b c = true) :
    atomsCover a c = true := by
  simp only [atomsCover, all_eq_true, any_eq_true] at *
  intro inner hi
  obtain ⟨middle, hm, hc⟩ := hbc inner hi
  obtain ⟨outer, ho, hc'⟩ := hab middle hm
  exact ⟨outer, ho, targetAtomCovers_trans hc' hc⟩

@[simp] theorem targetCovers_refl (topo : Topology) (target : TargetId) :
    targetCovers topo target target = true := by simp [targetCovers]

/-- Coverage between different targets: a device covers everything of its own,
and other targets cover one another by their atoms. -/
theorem targetCovers_iff_of_ne (h : a ≠ b) :
    targetCovers topo a b = true ↔ a.deviceId = b.deviceId ∧
      (isDevice a = true ∨ isDevice b = false ∧ ∃ outer inner, targetAtoms topo a = some outer ∧
        targetAtoms topo b = some inner ∧ atomsCover outer inner = true) := by
  unfold targetCovers
  rw [if_neg h]
  by_cases hd : a.deviceId = b.deviceId
  · cases ha : isDevice a <;> cases hb : isDevice b <;> simp [hd]
    cases targetAtoms topo a <;> cases targetAtoms topo b <;> simp
  · simp [hd]

theorem targetCovers_trans (hab : targetCovers topo a b = true)
    (hbc : targetCovers topo b c = true) : targetCovers topo a c = true := by
  by_cases h1 : a = b
  · rwa [h1]
  by_cases h2 : b = c
  · rwa [← h2]
  by_cases h3 : a = c
  · simp [h3]
  obtain ⟨hd, hab⟩ := (targetCovers_iff_of_ne h1).1 hab
  obtain ⟨hd', hbc⟩ := (targetCovers_iff_of_ne h2).1 hbc
  refine (targetCovers_iff_of_ne h3).2 ⟨hd.trans hd', ?_⟩
  rcases hab with ha | ⟨hb, outer, middle, ho, hm, hco⟩
  · exact .inl ha
  rcases hbc with hb' | ⟨hc, middle', inner, hm', hi, hc'⟩
  · simp [hb] at hb'
  obtain rfl : middle = middle' := Option.some.inj (hm ▸ hm')
  exact .inr ⟨hc, outer, inner, ho, hi, atomsCover_trans hco hc'⟩

theorem covers_device_iff {id : DeviceId} :
    targetCovers topo (.device id) b = true ↔ b.deviceId = id := by
  cases b with
  | device | surface | element | group =>
    simp [targetCovers, TargetId.deviceId, isDevice]
    grind

section

variable {id : DeviceId} {s : SurfaceId} {e : ElementId} {b : TargetId}
  (hb : ∀ id g, b ≠ .group id g)

include hb

theorem covers_surface_iff : targetCovers topo (.surface id s) b = true ↔
    b.deviceId = id ∧ b.surfaceOf = some s := by
  cases b with
  | group id g => exact absurd rfl (hb id g)
  | device => simp [targetCovers, TargetId.surfaceOf, isDevice]
  | surface | element =>
    simp [targetCovers, TargetId.deviceId, TargetId.surfaceOf, isDevice, targetAtoms, atomsCover,
      targetAtomCovers]
    grind

theorem covers_element_iff : targetCovers topo (.element id s e) b = true ↔
    b = .element id s e := by
  cases b with
  | group id g => exact absurd rfl (hb id g)
  | device => simp [targetCovers, isDevice]
  | surface =>
    simp [targetCovers, isDevice, targetAtoms, atomsCover, targetAtomCovers]
  | element =>
    simp [targetCovers, TargetId.deviceId, isDevice, targetAtoms, atomsCover, targetAtomCovers]
    grind

end

theorem memberAtoms_visited (h : ∀ group vis, vis ⊆ (expand group vis).2) :
    acc.2 ⊆ (memberAtoms device expand acc m).2 := by
  cases m with
  | surface | element => exact Subset.refl _
  | group g =>
    simp only [memberAtoms]
    split
    · exact h _ _
    · exact Subset.refl _

theorem foldl_memberAtoms_visited (h : ∀ group vis, vis ⊆ (expand group vis).2)
    (ms : List GroupMember) (acc : List TargetAtom × List GroupId) :
    acc.2 ⊆ (ms.foldl (memberAtoms device expand) acc).2 := by
  induction ms generalizing acc with
  | nil => exact Subset.refl _
  | cons m rest ih => exact Subset.trans (memberAtoms_visited h) (ih _)

theorem groupAtoms_visited (group : Group) (vis : List GroupId) :
    vis ⊆ (groupAtoms device fuel group vis).2 := by
  induction fuel generalizing group vis with
  | zero => exact Subset.refl _
  | succ fuel ih =>
    unfold groupAtoms
    split
    · exact Subset.refl _
    · intro id hid
      exact foldl_memberAtoms_visited ih group.members ([], group.id :: vis) (mem_cons_of_mem _ hid)

theorem foldl_memberAtoms_congr (hv : ∀ group vis, vis ⊆ (expand group vis).2)
    (h : ∀ group ∈ device.groups, ∀ vis, base ⊆ vis →
      expand group vis = expand' group vis) (ms : List GroupMember)
    (acc : List TargetAtom × List GroupId) (hb : base ⊆ acc.2) :
    ms.foldl (memberAtoms device expand) acc = ms.foldl (memberAtoms device expand') acc := by
  induction ms generalizing acc with
  | nil => rfl
  | cons m rest ih =>
    have hs : memberAtoms device expand acc m = memberAtoms device expand' acc m := by
      cases m with
      | surface | element => rfl
      | group g =>
        simp only [memberAtoms]
        split
        · next n hn => rw [h n (mem_of_find?_eq_some hn) acc.2 hb]
        · rfl
    rw [foldl_cons, foldl_cons, ← hs]
    exact ih _ (Subset.trans hb (memberAtoms_visited hv))

theorem groupAtoms_succ (hm : group ∈ device.groups)
    (hf : unvisited Group.id device.groups vis ≤ fuel) :
    groupAtoms device (fuel + 1) group vis = groupAtoms device (fuel + 2) group vis := by
  induction fuel generalizing group vis with
  | zero =>
    have hv : group.id ∈ vis := by
      by_contra h
      have := unvisited_lt hm h
      omega
    simp [groupAtoms, hv]
  | succ fuel ih =>
    rw [groupAtoms, groupAtoms]
    split
    · rfl
    · next h =>
      refine foldl_memberAtoms_congr groupAtoms_visited ?_ _ _ (Subset.refl _)
      intro n hn later hl
      have hlt := unvisited_lt hm h
      have hle := unvisited_anti Group.id device.groups (group.id :: vis) hl
      exact ih hn (by omega)

theorem groupAtoms_enough_fuel (hm : group ∈ device.groups) (extra : ℕ) :
    groupAtoms device (device.groups.length + 1 + extra) group [] =
      groupAtoms device (device.groups.length + 1) group [] :=
  enough_fuel (fun fuel => groupAtoms device fuel group [])
    (fun _ hf => groupAtoms_succ hm hf)

end TargetTopology
