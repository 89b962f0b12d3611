import Luminate.NormalizedDevices
import Luminate.PowerObservation
import Luminate.Reconciliation
import Luminate.StreamExclusivity

/-! # Turning everything off

`all_off.rs` of libluminate: the targets of a device that are turned off together. -/
namespace AllOff

open DeviceModel TargetTopology NormalizedDevices PowerObservation Reconciliation
  StreamExclusivity Validation DaemonModel Checks List

structure AllOffPlan where
  targets : List TargetId := []
  skippedPersistent : List TargetId := []
  deriving DecidableEq

def capabilitiesCanTurnOff (capabilities : CapabilitySet) : Bool :=
  !capabilities.colour.isEmpty ||
    capabilities.hardwareEffects.any fun effects => effects.effects.any (·.id == "off")

def capabilitiesAreWearLimited (capabilities : CapabilitySet) : Bool :=
  !capabilities.offIsWearSafe &&
    persistenceRequirement capabilities.persistence == some .required

def AllOffPlan.add (plan : AllOffPlan) (target : TargetId) (capabilities : CapabilitySet) :
    AllOffPlan :=
  if capabilitiesAreWearLimited capabilities then
    { plan with skippedPersistent := plan.skippedPersistent ++ [target] }
  else { plan with targets := plan.targets ++ [target] }

def allOffPlan (device : Device) : AllOffPlan :=
  if capabilitiesCanTurnOff device.capabilities then
    AllOffPlan.add {} (.device device.id) device.capabilities
  else
    device.surfaces.foldl
      (fun plan surface =>
        if capabilitiesCanTurnOff surface.capabilities then
          plan.add (.surface device.id surface.id) surface.capabilities
        else
          surface.elements.foldl
            (fun plan element =>
              if capabilitiesCanTurnOff element.capabilities then
                plan.add (.element device.id surface.id element.id) element.capabilities
              else plan)
            plan)
      {}

/-- A device, a surface or an element that has the part, or is it, can be turned off. -/
def CanTurnOff (topology : Topology) (part : TargetId) : Prop :=
  ∃ enclosing capabilities, (∀ d g, enclosing ≠ .group d g) ∧
    targetCovers topology enclosing part = true ∧
    capabilitiesForTarget topology enclosing = some capabilities ∧
    capabilitiesCanTurnOff capabilities = true

def offParts (device : Device) (surface : Surface) : List (TargetId × CapabilitySet) :=
  if capabilitiesCanTurnOff surface.capabilities then
    [(.surface device.id surface.id, surface.capabilities)]
  else (surface.elements.filter (capabilitiesCanTurnOff ·.capabilities)).map fun element =>
    (.element device.id surface.id element.id, element.capabilities)

/-- What the plan is made of. -/
def offTargets (device : Device) : List (TargetId × CapabilitySet) :=
  if capabilitiesCanTurnOff device.capabilities then [(.device device.id, device.capabilities)]
  else device.surfaces.flatMap (offParts device)

variable {part : TargetId}

theorem canTurnOff_eq : capabilitiesCanTurnOff caps =
    (!caps.colour.isEmpty || (findEffect caps.toAppearanceCapability "off").isSome) := by
  unfold capabilitiesCanTurnOff findEffect
  cases caps.hardwareEffects with
  | none => rfl
  | some effects => rw [Option.bind_some, isSome_find?, Option.any_some]

theorem allOffPlan_eq :
    allOffPlan d = (offTargets d).foldl (fun plan x => plan.add x.1 x.2) {} := by
  unfold allOffPlan offTargets
  split
  · rfl
  · rw [foldl_flatMap]
    congr with plan sf : 2
    unfold offParts
    split
    · rfl
    · rw [foldl_map, foldl_filter]

theorem foldl_add (xs : List (TargetId × CapabilitySet)) (plan : AllOffPlan) :
    xs.foldl (fun plan x => plan.add x.1 x.2) plan =
      ⟨plan.targets ++ (xs.filter (!capabilitiesAreWearLimited ·.2)).map Prod.fst,
        plan.skippedPersistent ++ (xs.filter (capabilitiesAreWearLimited ·.2)).map Prod.fst⟩ := by
  induction xs generalizing plan with
  | nil => simp
  | cons x xs ih =>
    rw [foldl_cons, ih, AllOffPlan.add]
    split
    · next hw => simp [hw]
    · next hw => simp [hw]

theorem allOffPlan_perm (d : Device) :
    ((allOffPlan d).targets ++ (allOffPlan d).skippedPersistent).Perm
      ((offTargets d).map Prod.fst) := by
  rw [allOffPlan_eq, foldl_add, nil_append, nil_append, ← map_append]
  refine Perm.map _ (perm_append_comm.trans ?_)
  exact filter_append_perm _ _

theorem capabilities_of_mem (hn : Normalized d) (hd : findDevice topo d.id = some d)
    (hx : x ∈ offTargets d) :
    capabilitiesForTarget topo x.1 = some x.2 ∧ capabilitiesCanTurnOff x.2 = true := by
  unfold offTargets at hx
  split at hx
  · next hc =>
    obtain rfl := mem_singleton.1 hx
    exact ⟨by simp [capabilitiesForTarget, hd], hc⟩
  · obtain ⟨sf, hs, hx⟩ := mem_flatMap.1 hx
    have hf : findSurface d sf.id = some sf := find_id hn.surfaces.nodup hs
    unfold offParts at hx
    split at hx
    · next hc =>
      obtain rfl := mem_singleton.1 hx
      exact ⟨by simp [capabilitiesForTarget, hd, hf], hc⟩
    · obtain ⟨e, he, rfl⟩ := mem_map.1 hx
      obtain ⟨he, hc⟩ := mem_filter.1 he
      have hfe : findElement sf e.id = some e := find_id (hn.elements sf hs).nodup he
      exact ⟨by simp [capabilitiesForTarget, hd, hf, hfe], hc⟩

theorem surfaceOf_of_offParts (hx : x ∈ offParts d sf) (h : Includes topo x.1 part) :
    part.surfaceOf = some sf.id := by
  unfold offParts at hx
  split at hx
  · obtain rfl := mem_singleton.1 hx
    exact ((covers_surface_iff h.not_group).1 h.covers).2
  · obtain ⟨e, -, rfl⟩ := mem_map.1 hx
    rw [(covers_element_iff h.not_group).1 h.covers]
    rfl

theorem offParts_apart (hs : (sf.elements.map (·.id)).Nodup) :
    (offParts d sf).Pairwise fun x y => ¬ Overlap topo x.1 y.1 := by
  unfold offParts
  split
  · exact pairwise_singleton _ _
  · refine pairwise_map.2 (((pairwise_map.1 hs).filter _).imp ?_)
    rintro e f hne ⟨part, hp, hq⟩
    rw [(covers_element_iff hp.not_group).1 hp.covers] at hq
    have he := (covers_element_iff hq.not_group).1 hq.covers
    exact hne (TargetId.element.inj he).2.2

theorem offTargets_apart (hn : Normalized d) :
    (offTargets d).Pairwise fun x y => ¬ Overlap topo x.1 y.1 := by
  unfold offTargets
  split
  · exact pairwise_singleton _ _
  · refine pairwise_flatMap.2 ⟨fun sf hs => offParts_apart (hn.elements sf hs).nodup, ?_⟩
    refine (pairwise_map.1 hn.surfaces.nodup).imp fun hne x hx y hy => ?_
    rintro ⟨part, hp, hq⟩
    have hs := (surfaceOf_of_offParts hx hp).symm.trans (surfaceOf_of_offParts hy hq)
    exact hne (Option.some.inj hs)

theorem exists_covering (hd : findDevice topo d.id = some d) (hp : ∀ id g, part ≠ .group id g)
    (hi : part.deviceId = d.id) (h : CanTurnOff topo part) :
    ∃ x ∈ offTargets d, targetCovers topo x.1 part = true := by
  obtain ⟨enclosing, caps, hg, hc, hca, hoff⟩ := h
  unfold offTargets
  split
  · exact ⟨_, mem_singleton_self _, covers_device_iff.2 hi⟩
  · next hno =>
    cases enclosing with
    | group e g => exact absurd rfl (hg e g)
    | device e =>
      have he : e = d.id := (covers_device_iff.1 hc).symm.trans hi
      simp only [capabilitiesForTarget, he, hd, Option.map_some, Option.some.injEq] at hca
      exact absurd (hca ▸ hoff) hno
    | surface e s =>
      obtain ⟨rfl, hs⟩ := (covers_surface_iff hp).1 hc
      simp only [capabilitiesForTarget, hi, hd, Option.bind_some, Option.map_eq_some_iff] at hca
      obtain ⟨sf, hf, rfl⟩ := hca
      obtain ⟨hm, rfl⟩ := findSurface_some hf
      refine ⟨(.surface d.id sf.id, sf.capabilities), mem_flatMap.2 ⟨sf, hm, ?_⟩, hi ▸ hc⟩
      rw [offParts, if_pos hoff]
      exact mem_singleton_self _
    | element e s l =>
      obtain rfl := (covers_element_iff hp).1 hc
      obtain rfl : e = d.id := hi
      simp only [capabilitiesForTarget, hd, Option.bind_some, Option.map_eq_some_iff,
        Option.bind_eq_some_iff] at hca
      obtain ⟨el, ⟨sf, hf, hfe⟩, rfl⟩ := hca
      obtain ⟨hm, rfl⟩ := findSurface_some hf
      by_cases hs : capabilitiesCanTurnOff sf.capabilities = true
      · refine ⟨(.surface d.id sf.id, sf.capabilities), mem_flatMap.2 ⟨sf, hm, ?_⟩, ?_⟩
        · rw [offParts, if_pos hs]
          exact mem_singleton_self _
        · exact (covers_surface_iff hp).2 ⟨rfl, rfl⟩
      · obtain ⟨hme, rfl⟩ := findElement_some hfe
        refine ⟨(.element d.id sf.id el.id, el.capabilities), mem_flatMap.2 ⟨sf, hm, ?_⟩, hc⟩
        rw [offParts, if_neg hs]
        exact mem_map.2 ⟨el, mem_filter.2 ⟨hme, hoff⟩, rfl⟩

/-- Groups are left out of the plan, and do not count as what encloses a part. -/
theorem all_off_covers_once (platform : Platform) (state : DaemonState) {device : Device}
    (hnormalized : Normalized device)
    (hactive : findDevice state.topology device.id = some device) :
    ((allOffPlan device).targets ++ (allOffPlan device).skippedPersistent).Pairwise
      (fun a b => ¬ Overlap state.topology a b) ∧
    (∀ part, part.deviceId = device.id → part.surfaceOf.isSome = true →
      (capabilitiesForTarget state.topology part).isSome = true → CanTurnOff state.topology part →
      ∃! target, target ∈ (allOffPlan device).targets ++ (allOffPlan device).skippedPersistent ∧
        targetCovers state.topology target part = true) ∧
    ∀ target ∈ (allOffPlan device).targets, validateEffect platform state target .off = .ok () := by
  have hperm := allOffPlan_perm device
  have hap : ((offTargets device).map Prod.fst).Pairwise fun a b => ¬ Overlap state.topology a b :=
    pairwise_map.2 (offTargets_apart hnormalized)
  have hsym : Std.Symm fun a b => ¬ Overlap state.topology a b := ⟨fun a b h ho => h ho.symm⟩
  refine ⟨(hperm.pairwise_iff fun h ho => h ho.symm).2 hap, fun part hi hp hl h => ?_,
    fun target ht => ?_⟩
  · obtain ⟨x, hx, hc⟩ := exists_covering hactive (by rintro id g rfl; cases hp) hi h
    refine ⟨x.1, ⟨hperm.mem_iff.2 (mem_map_of_mem hx), hc⟩, fun other ⟨ho, hoc⟩ => ?_⟩
    by_contra hne
    exact hap.forall (hperm.mem_iff.1 ho) (mem_map_of_mem hx) hne ⟨part, ⟨hl, hp, hoc⟩, hl, hp, hc⟩
  · obtain ⟨x, hx, rfl⟩ := mem_map.1 (hperm.mem_iff.1 (mem_append_left _ ht))
    obtain ⟨hc, ho⟩ := capabilities_of_mem hnormalized hactive hx
    rw [validateEffect, capabilitiesForTargetOrError, hc]
    exact ensure_ok_iff.2 (canTurnOff_eq ▸ ho)

namespace Sample

def lit : CapabilitySet := { colour := [.rgb8] }

def worn : CapabilitySet := { lit with persistence := .currentState .required false true }

/-- The bar can be turned off as a whole; of the keys only the elements can, and to write
the frame wears it. -/
def desk : Device where
  id := "desk"
  surfaces := [⟨"bar", [⟨"left", lit⟩], lit⟩,
    ⟨"keys", [⟨"logo", lit⟩, ⟨"frame", worn⟩], {}⟩]

def plan : AllOffPlan where
  targets := [.surface "desk" "bar", .element "desk" "keys" "logo"]
  skippedPersistent := [.element "desk" "keys" "frame"]

end Sample

open Sample in
/-- The element of the bar is reached through the bar alone. -/
theorem desk_turned_off : allOffPlan desk = plan ∧
    (∃! target, target ∈ plan.targets ++ plan.skippedPersistent ∧
      targetCovers (TargetTopology.fromDevices [desk]) target (.element "desk" "bar" "left")) ∧
    ∀ target ∈ plan.targets,
      validateEffect DesiredState.Sample.platform (fromDevices [desk]) target .off = .ok () := by
  have hn : Normalized desk :=
    ⟨by decide, ⟨by decide, by decide⟩, forall_mem_cons.2 ⟨⟨by decide, by decide⟩,
      forall_mem_singleton.2 ⟨by decide, by decide⟩⟩, ⟨by decide, by decide⟩,
      fun _ => 0, forall_mem_nil _, forall_mem_nil _⟩
  obtain ⟨-, hc, hv⟩ := all_off_covers_once DesiredState.Sample.platform (fromDevices [desk]) hn
    (by decide)
  have hp : allOffPlan desk = plan := by decide
  rw [hp] at hc hv
  exact ⟨hp, hc (.element "desk" "bar" "left") rfl rfl (by decide)
    ⟨.surface "desk" "bar", lit, nofun, by decide, by decide, by decide⟩, hv⟩

end AllOff
