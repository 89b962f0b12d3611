import Luminate.Membership
import Luminate.Observation

/-! # Power after turning a target off

`note_successful_apply` visits the canonical targets below a write one after another. Each
visit may also store a derived power observation for the domain of the visited target. -/
namespace PowerObservation

open DeviceModel TargetTopology DaemonModel DesiredState Observation List

variable {topology : Topology} {d : TargetId}

def isCanonical : TargetId → Bool
  | .group .. => false
  | _ => true

@[simp] theorem mem_deduplicate : d ∈ deduplicate ts ↔ d ∈ ts := by
  have hm : d ∈ deduplicate ts ↔ d ∈ [] ∨ d ∈ ts := Membership.mem_addAll
  simpa using hm

theorem deduplicate_cons : ∃ rest, deduplicate (first :: ts) = first :: rest ∧ first ∉ rest := by
  obtain ⟨rest, hr⟩ : ∃ rest, Membership.addAll [first] ts = [first] ++ rest :=
    Membership.exists_addAll
  have hn : (Membership.addAll [first] ts).Nodup := Membership.nodup_addAll (nodup_singleton first)
  rw [hr] at hn
  exact ⟨rest, hr, (nodup_cons.1 hn).1⟩

variable {t : TargetId} {now : ℕ} {order : List TargetId}

theorem mem_surfaceTargets : d ∈ surfaceTargets dev surf ↔ d = .surface dev.id surf.id ∨
      ∃ el ∈ surf.elements, d = .element dev.id surf.id el.id := by
  simp [surfaceTargets, eq_comm]

theorem findSurface_some (h : findSurface dev s = some surf) : surf ∈ dev.surfaces ∧ surf.id = s :=
  ⟨mem_of_find?_eq_some h, by simpa using find?_some h⟩

theorem findElement_some (h : findElement surf e = some el) : el ∈ surf.elements ∧ el.id = e :=
  ⟨mem_of_find?_eq_some h, by simpa using find?_some h⟩

theorem findDevice_of_known (h : (capabilitiesForTarget topology d).isSome = true) :
    ∃ dev, findDevice topology d.deviceId = some dev ∧ dev.id = d.deviceId := by
  suffices hd : ∃ dev, findDevice topology d.deviceId = some dev by
    obtain ⟨dev, hd⟩ := hd
    exact ⟨dev, hd, device_id hd⟩
  apply Option.isSome_iff_exists.1
  cases d <;> simp only [capabilitiesForTarget, Option.isSome_map] at h
  · exact h
  all_goals
    by_contra hn
    simp only [TargetId.deviceId, Bool.not_eq_true, Option.isSome_eq_false_iff,
      Option.isNone_iff_eq_none] at hn
    simp [hn] at h

theorem known_cases (hde : findDevice topology d.deviceId = some dev)
    (hd : (capabilitiesForTarget topology d).isSome = true) (hc : isCanonical d = true) :
    d = .device dev.id ∨ (∃ surf, findSurface dev surf.id = some surf ∧
      d ∈ surfaceTargets dev surf) := by
  have hid := device_id hde
  cases d with
  | device id => exact .inl (by rw [hid]; rfl)
  | group id g => cases hc
  | surface id s =>
    simp only [TargetId.deviceId] at hde hid
    simp only [capabilitiesForTarget, hde, Option.bind_some, Option.isSome_map] at hd
    obtain ⟨surf, hs⟩ := Option.isSome_iff_exists.1 hd
    obtain ⟨-, rfl⟩ := findSurface_some hs
    exact .inr ⟨surf, hs, mem_surfaceTargets.2 (.inl (by rw [hid]))⟩
  | element id s e =>
    simp only [TargetId.deviceId] at hde hid
    simp only [capabilitiesForTarget, hde, Option.bind_some, Option.isSome_map] at hd
    cases hs : findSurface dev s with
    | none => simp [hs] at hd
    | some surf =>
      rw [hs] at hd
      obtain ⟨el, he⟩ := Option.isSome_iff_exists.1 hd
      obtain ⟨hm, rfl⟩ := findElement_some he
      obtain ⟨-, rfl⟩ := findSurface_some hs
      exact .inr ⟨surf, hs, mem_surfaceTargets.2 (.inr ⟨el, hm, by rw [hid]⟩)⟩

theorem deviceId_of_covers (h : targetCovers topology tg d = true) : tg.deviceId = d.deviceId := by
  by_cases heq : tg = d
  · rw [heq]
  · exact ((targetCovers_iff_of_ne heq).1 h).1

theorem surfaceOf_of_mem (h : d ∈ surfaceTargets dev surf) : d.surfaceOf = some surf.id := by
  rcases mem_surfaceTargets.1 h with rfl | ⟨el, -, rfl⟩ <;> rfl

theorem mem_notedTargets (ht : (capabilitiesForTarget topology tg).isSome = true)
    (hd : (capabilitiesForTarget topology d).isSome = true) (hca : isCanonical d = true)
    (hc : targetCovers topology tg d = true) : d ∈ notedTargets topology tg := by
  obtain ⟨dev, hde, hid⟩ := findDevice_of_known ht
  have hsa := deviceId_of_covers hc
  have hcs := known_cases (hsa ▸ hde) hd hca
  have hg : ∀ id g, d ≠ .group id g := by
    rintro id g rfl
    cases hca
  cases tg with
  | device id =>
    simp only [notedTargets, observationTargetsAfterWrite, hde, mem_deduplicate]
    rcases hcs with rfl | ⟨surf, hs, hme⟩
    · simp [show dev.id = id from hid]
    · exact mem_cons_of_mem _ (mem_flatMap.2 ⟨surf, (findSurface_some hs).1, hme⟩)
  | surface id s =>
    simp only [notedTargets, observationTargetsAfterWrite, hde, mem_deduplicate]
    obtain ⟨-, hsu⟩ := (covers_surface_iff hg).1 hc
    rcases hcs with rfl | ⟨surf, hs, hme⟩
    · cases hsu
    · cases (surfaceOf_of_mem hme).symm.trans hsu
      rw [hs]
      exact hme
  | element id s e =>
    rw [notedTargets, (covers_element_iff hg).1 hc]
    exact mem_singleton_self _
  | group id g =>
    simp only [notedTargets, observationTargetsAfterWrite, hde, mem_deduplicate, mem_flatMap]
    obtain ⟨-, hn | ⟨hno, outer, inner, ho, hi, hco⟩⟩ :=
      (targetCovers_iff_of_ne (hg id g).symm).1 hc
    · cases hn
    simp only [atomsCover, all_eq_true, any_eq_true] at hco
    rw [ho]
    rcases hcs with rfl | ⟨surf, hs, hme⟩
    · cases hno
    rcases mem_surfaceTargets.1 hme with rfl | ⟨el, -, rfl⟩
    · -- only the surface's own atom covers it
      cases hi
      obtain ⟨atom, ha, hm⟩ := hco _ mem_cons_self
      cases atom with
      | element s e => cases hm
      | surface s =>
        obtain rfl : s = surf.id := by simpa [targetAtomCovers] using hm
        exact ⟨_, ha, by simpa [atomTargets, hs] using hme⟩
    · cases hi
      obtain ⟨atom, ha, hm⟩ := hco _ mem_cons_self
      cases atom with
      | element s e =>
        obtain ⟨rfl, rfl⟩ : s = surf.id ∧ e = el.id := by simpa [targetAtomCovers] using hm
        exact ⟨_, ha, by simp [atomTargets]⟩
      | surface s =>
        obtain rfl : s = surf.id := by simpa [targetAtomCovers] using hm
        exact ⟨_, ha, by simpa [atomTargets, hs] using hme⟩

/-- A canonical target is visited first, before the canonical targets it covers. -/
theorem notedTargets_eq_cons (ht : (capabilitiesForTarget topology tg).isSome = true)
    (hc : isCanonical tg = true) : ∃ rest, notedTargets topology tg = tg :: rest ∧ tg ∉ rest := by
  obtain ⟨dev, hd, hid⟩ := findDevice_of_known ht
  cases tg with
  | group id g => cases hc
  | element id s e => exact ⟨[], rfl, not_mem_nil⟩
  | device id =>
    simp only [notedTargets, observationTargetsAfterWrite, hd]
    exact deduplicate_cons
  | surface id s =>
    simp only [notedTargets, observationTargetsAfterWrite, hd]
    rcases known_cases hd ht rfl with h | ⟨surf, hs, hm⟩
    · cases h
    cases surfaceOf_of_mem hm
    simp only [hs, surfaceTargets, show dev.id = id from hid]
    exact deduplicate_cons

theorem canonical_of_surfaceTargets (h : d ∈ surfaceTargets dev surf) : isCanonical d = true := by
  rcases mem_surfaceTargets.1 h with rfl | ⟨el, -, rfl⟩ <;> rfl

theorem canonical_of_mem_group {id : DeviceId} (hd : d ∈ notedTargets topology (.group id g)) :
    isCanonical d = true := by
  simp only [notedTargets, observationTargetsAfterWrite] at hd
  split at hd
  · cases hd
  · obtain ⟨atom, -, hm⟩ := mem_flatMap.1 (mem_deduplicate.1 hd)
    cases atom with
    | element s e =>
      obtain rfl := mem_singleton.1 hm
      rfl
    | surface s =>
      simp only [atomTargets] at hm
      split at hm
      · exact canonical_of_surfaceTargets hm
      · cases hm

theorem lastStored_of_agree (ho : o ∈ writes) (ht : o.target = t) (hv : o.value = v)
    (ha : ∀ o ∈ writes, o.target = t → o.value.kind = v.kind → o.value = v) :
    ∃ last, lastStored writes t v.kind = some last ∧ last.value = v := by
  cases hl : lastStored writes t v.kind with
  | none =>
    have hn := find?_eq_none.1 hl o (mem_reverse.2 ho)
    simp [ht, hv] at hn
  | some last =>
    have hf := find?_some hl
    simp only [decide_eq_true_eq] at hf
    have hm := mem_reverse.1 (mem_of_find?_eq_some hl)
    exact ⟨last, rfl, ha last hm hf.1 hf.2⟩

/-- The power domain of `d` resolves to `target`. -/
def PoweredBy (topology : Topology) (d target : TargetId) : Prop :=
  ((capabilitiesForTarget topology d).bind (·.powerDomain)).map (powerDomainTarget d) = some target

instance (topology : Topology) (d target : TargetId) : Decidable (PoweredBy topology d target) :=
  inferInstanceAs (Decidable (_ = _))

def OwnsPower (topology : Topology) (target : TargetId) : Prop :=
  ((capabilitiesForTarget topology target).bind (·.physicalPower)).isSome = true

instance (topology : Topology) (target : TargetId) : Decidable (OwnsPower topology target) :=
  inferInstanceAs (Decidable (_ = _))

def assumed (source : ObservationSource) (now : ℕ) (target : TargetId) (value : FacetValue) :
    FacetObservation :=
  { target := target, value := value, confidence := .assumed, source := source,
    observedAtMs := now, stale := false }

theorem mem_appliedObservations_off : o ∈ appliedObservations topology now d (.effect .off) ↔
      o = assumed .successfulApply now d (.emission .dark) ∨
      (OwnsPower topology d ∧ o = assumed .successfulApply now d (.physicalPower .off)) ∨
      ∃ t, t ≠ d ∧ PoweredBy topology d t ∧ o = assumed .derived now t (.physicalPower .on) := by
  simp only [appliedObservations, projectedObservations, mem_append, map_cons, mem_cons, or_assoc]
  refine or_congr Iff.rfl (or_congr ?_ ?_)
  · by_cases ho : OwnsPower topology d
    · have hif : ((capabilitiesForTarget topology d).bind (·.physicalPower)).isSome = true := ho
      simp [hif, ho, markComplete, assumed]
    · have hif : ¬ ((capabilitiesForTarget topology d).bind (·.physicalPower)).isSome = true := ho
      simp [hif, ho]
  · unfold PoweredBy
    cases (capabilitiesForTarget topology d).bind (·.powerDomain) with
    | none => simp
    | some domain =>
      by_cases hs : powerDomainTarget d domain = d
      · simp [hs, eq_comm]
      · simp [hs, assumed]

def offWrites (topology : Topology) (now : ℕ) (order : List TargetId) : List FacetObservation :=
  order.flatMap (appliedObservations topology now · (.effect .off))

def noteOff (now : ℕ) (state : DaemonState) (order : List TargetId) : Observations :=
  order.foldl (noteSuccessfulApplyAtCanonicalTarget state.topology now (.effect .off))
    state.observations

theorem noteOff_eq : noteOff now state order t kind =
      (lastStored (offWrites state.topology now order) t kind).or (state.observations t kind) := by
  rw [← foldl_storeObservation, offWrites, foldl_flatMap]
  rfl

def observed (observations : Observations) (t : TargetId) (value : FacetValue) : Prop :=
  (observations t value.kind).map (·.value) = some value

/-- The target's power is observed off, and everything canonical below it dark. -/
def RecordedOff (topology : Topology) (target : TargetId) (observations : Observations) : Prop :=
  observed observations target (.physicalPower .off) ∧
    ∀ d, isCanonical d = true → (capabilitiesForTarget topology d).isSome = true →
      targetCovers topology target d = true → observed observations d (.emission .dark)

/-- Of the visited targets, none but a canonical target itself is powered by it. A group is
never visited, so its power has to be observed off already. -/
def PowerUndisturbed (state : DaemonState) (target : TargetId) : Prop :=
  if isCanonical target = true then
    ∀ d ∈ notedTargets state.topology target, d ≠ target → ¬ PoweredBy state.topology d target
  else observed state.observations target (.physicalPower .off)

theorem observed_of_agree (ho : o ∈ offWrites state.topology now order) (ht : o.target = t)
    (hv : o.value = v) (ha : ∀ o ∈ offWrites state.topology now order, o.target = t →
      o.value.kind = v.kind → o.value = v) : observed (noteOff now state order) t v := by
  obtain ⟨last, hla, hl⟩ := lastStored_of_agree ho ht hv ha
  rw [observed, noteOff_eq, hla, Option.some_or, Option.map_some, hl]

/-- Emission is only ever written dark, and by the visit of the target itself. -/
theorem dark_observed (hd : d ∈ order) :
    observed (noteOff now state order) d (.emission .dark) := by
  refine observed_of_agree (o := assumed .successfulApply now d (.emission .dark))
    (mem_flatMap.2 ⟨d, hd, mem_appliedObservations_off.2 (.inl rfl)⟩) rfl rfl ?_
  intro o ho _ hk
  obtain ⟨vis, -, ho⟩ := mem_flatMap.1 ho
  rcases mem_appliedObservations_off.1 ho with rfl | ⟨-, rfl⟩ | ⟨t, -, -, rfl⟩
  · rfl
  · cases hk
  · cases hk

theorem capabilities_of_owns (h : OwnsPower topology tg) :
    (capabilitiesForTarget topology tg).isSome = true := by
  cases hc : capabilitiesForTarget topology tg with
  | none => simp [OwnsPower, hc] at h
  | some _ => rfl

theorem canonical_of_powered (h : PoweredBy topology d tg) : isCanonical tg = true := by
  obtain ⟨domain, -, rfl⟩ := Option.map_eq_some_iff.1 h
  cases domain <;> rfl

theorem power_off_observed (how : OwnsPower state.topology tg) (hc : isCanonical tg = true)
    (hor : order.Perm (notedTargets state.topology tg)) (hu : PowerUndisturbed state tg) :
    observed (noteOff now state order) tg (.physicalPower .off) := by
  rw [PowerUndisturbed, if_pos hc] at hu
  obtain ⟨rest, hn, -⟩ := notedTargets_eq_cons (capabilities_of_owns how) hc
  have hm : tg ∈ order := hor.mem_iff.2 (hn ▸ mem_cons_self)
  refine observed_of_agree (o := assumed .successfulApply now tg (.physicalPower .off))
    (mem_flatMap.2 ⟨tg, hm, mem_appliedObservations_off.2 (.inr (.inl ⟨how, rfl⟩))⟩)
    rfl rfl ?_
  intro o ho ht hk
  obtain ⟨vis, hv, ho⟩ := mem_flatMap.1 ho
  rcases mem_appliedObservations_off.1 ho with rfl | ⟨-, rfl⟩ | ⟨t, hne, hp, rfl⟩
  · cases hk
  · rfl
  · -- only the visit of another target stores this one on
    obtain rfl : t = tg := ht
    exact absurd hp (hu vis (hor.mem_iff.1 hv) hne.symm)

theorem group_power_unchanged (hg : isCanonical tg = false)
    (hor : order ⊆ notedTargets state.topology tg) :
    noteOff now state order tg .physicalPower = state.observations tg .physicalPower := by
  have hn : lastStored (offWrites state.topology now order) tg .physicalPower = none := by
    refine find?_eq_none.2 fun o ho => ?_
    obtain ⟨vis, hv, ho⟩ := mem_flatMap.1 (mem_reverse.1 ho)
    simp only [decide_eq_true_eq, not_and]
    intro ht hk
    rcases mem_appliedObservations_off.1 ho with rfl | ⟨-, rfl⟩ | ⟨t, -, hp, rfl⟩
    · cases hk
    · obtain rfl : vis = tg := ht
      cases vis with
      | group id g => cases canonical_of_mem_group (hor hv)
      | _ => cases hg
    · obtain rfl : t = tg := ht
      simp [canonical_of_powered hp] at hg
  rw [noteOff_eq, hn, Option.none_or]

/-- A visited target powered by the first comes later, and records that one on again. -/
theorem power_on_observed (how : OwnsPower state.topology tg) (hc : isCanonical tg = true)
    (hd : d ∈ notedTargets state.topology tg) (hne : d ≠ tg) (hp : PoweredBy state.topology d tg) :
    observed (noteOff now state (notedTargets state.topology tg)) tg (.physicalPower .on) := by
  obtain ⟨rest, hn, hno⟩ := notedTargets_eq_cons (capabilities_of_owns how) hc
  rw [hn] at hd ⊢
  have hr : d ∈ rest := (mem_cons.1 hd).resolve_left hne
  have hw : assumed .derived now tg (.physicalPower .on) ∈ offWrites state.topology now rest :=
    mem_flatMap.2 ⟨d, hr, mem_appliedObservations_off.2 (.inr (.inr ⟨tg, hne.symm, hp, rfl⟩))⟩
  have ha : ∀ o ∈ offWrites state.topology now rest, o.target = tg →
      o.value.kind = .physicalPower → o.value = .physicalPower .on := by
    intro o ho ht hk
    obtain ⟨vis, hv, ho⟩ := mem_flatMap.1 ho
    rcases mem_appliedObservations_off.1 ho with rfl | ⟨-, rfl⟩ | ⟨t, -, -, rfl⟩
    · cases hk
    · obtain rfl : vis = tg := ht
      exact absurd hv hno
    · rfl
  obtain ⟨last, hl, hva⟩ : ∃ last, lastStored (offWrites state.topology now rest) tg
      (FacetValue.physicalPower .on).kind = some last ∧ last.value = .physicalPower .on :=
    lastStored_of_agree hw rfl rfl ha
  rw [observed, noteOff_eq, offWrites, flatMap_cons, lastStored,
    reverse_append, find?_append, ← offWrites, ← lastStored, hl, Option.some_or,
    Option.some_or, Option.map_some, hva]

theorem not_observed_off_of_on (h : observed obs t (.physicalPower .on)) :
    ¬ observed obs t (.physicalPower .off) := by
  intro ho
  have hs := h.symm.trans ho
  simp at hs

/-- Noting `Off` at a target that owns a power domain records it powered off and everything
canonical below it dark, exactly if no visit below disturbs its power; and then in whatever
order the targets are visited. -/
theorem recorded_off_iff (now : ℕ) (state : DaemonState) (target : TargetId)
    (howns : OwnsPower state.topology target) : (RecordedOff state.topology target
        (noteSuccessfulApply now state target (.effect .off)).observations ↔
      PowerUndisturbed state target) ∧
    (PowerUndisturbed state target → ∀ order : List TargetId,
      order.Perm (notedTargets state.topology target) →
        RecordedOff state.topology target (noteOff now state order)) := by
  have hk := capabilities_of_owns howns
  have ha : PowerUndisturbed state target → ∀ order : List TargetId,
      order.Perm (notedTargets state.topology target) →
        RecordedOff state.topology target (noteOff now state order) := by
    intro hu order ho
    refine ⟨?_, fun d hd hca hco => dark_observed (ho.mem_iff.2 (mem_notedTargets hk hca hd hco))⟩
    cases hc : isCanonical target with
    | true => exact power_off_observed howns hc ho hu
    | false =>
      have hs : noteOff now state order target .physicalPower = _ :=
        group_power_unchanged hc ho.subset
      rw [PowerUndisturbed, hc, if_neg (by simp)] at hu
      rw [observed, FacetValue.kind, hs]
      exact hu
  refine ⟨⟨fun hr => ?_, fun h => ha h _ (Perm.refl _)⟩, ha⟩
  cases hc : isCanonical target with
  | true =>
    rw [PowerUndisturbed, if_pos hc]
    intro d hd hne hp
    exact not_observed_off_of_on (power_on_observed howns hc hd hne hp) hr.1
  | false =>
    rw [PowerUndisturbed, hc, if_neg (by simp), observed, FacetValue.kind,
      ← group_power_unchanged hc (Subset.refl _)]
    exact hr.1

namespace Sample

def bulb (zone : CapabilitySet) : Device where
  id := "bulb"
  surfaces := [⟨"strip", [⟨"zone", zone⟩], { emission := true }⟩]
  capabilities := { emission := true, physicalPower := some .device }

def state (zone : CapabilitySet) : DaemonState where
  topology := fromDevices [bulb zone]

end Sample

theorem bulb_recorded_off : RecordedOff (Sample.state { emission := true }).topology
    (.device "bulb") (noteSuccessfulApply 7 (Sample.state { emission := true }) (.device "bulb")
      (.effect .off)).observations := by
  have hc : isCanonical (.device "bulb") = true := rfl
  apply (recorded_off_iff 7 _ _ (by decide +kernel)).1.2
  rw [PowerUndisturbed, if_pos hc]
  decide +kernel

namespace Counterexample

/-- The zone names the bulb as its power domain, so turning the bulb off records it on. -/
theorem bulb_off_recorded_on :
    let zone : CapabilitySet := { emission := true, powerDomain := some .device }
    OwnsPower (Sample.state zone).topology (.device "bulb") ∧
      ((noteSuccessfulApply 7 (Sample.state zone) (.device "bulb")
        (.effect .off)).observations (.device "bulb") .physicalPower).map (·.value) =
          some (.physicalPower .on) := by
  decide +kernel

end Counterexample

end PowerObservation
