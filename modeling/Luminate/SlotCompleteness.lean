import Luminate.FrameStreams
import Luminate.Membership
import Luminate.SnapshotAcceptance
import Luminate.Transition

/-! # Complete slot values

Slot values are stored with a flag that says whether they are all of the advertised ones.
The flag is decided by counting, against the topology of the moment; runs mix readback,
noted writes, adoption and replacements of the topology. -/
namespace SlotCompleteness

open Checks DeviceModel TargetTopology DaemonModel Validation Observation Adoption
  SnapshotAcceptance List Option

def slotIds (topology : Topology) (target : TargetId) : List AppearanceSlotId :=
  (((capabilitiesForTarget topology target).bind (·.appearanceSlots)).map
    (·.slots.map (·.id))).getD []

def namedSlots (values : List AppearanceSlotValue) : List AppearanceSlotId := values.map (·.slot)

/-- One value for each advertised slot, and none for another. -/
def Honest (topology : Topology) (target : TargetId) (slots : AppearanceSlotsState) : Prop :=
  slots.complete = true → (namedSlots slots.values).Nodup ∧
    ∀ id, id ∈ namedSlots slots.values ↔ id ∈ slotIds topology target

def Tidy (advertised : List AppearanceSlotId) (values : List AppearanceSlotValue) : Prop :=
  (namedSlots values).Nodup ∧ namedSlots values ⊆ advertised

instance (advertised : List AppearanceSlotId) (values : List AppearanceSlotValue) :
    Decidable (Tidy advertised values) :=
  inferInstanceAs (Decidable (_ ∧ _))

/-- The daemon, and the facets that accepted snapshots have returned for adoption. -/
structure State where
  daemon : DaemonState
  returned : List AdoptedFacet := []

inductive Action where
  | acceptSnapshot (now : ℕ) (device : DeviceId) (expectedGeneration : ℕ)
      (snapshot : PluginStateSnapshot) (adopt : Bool)
  | noteSlots (now : ℕ) (target : TargetId) (values : List AppearanceSlotValue)
  | stageAdoption (delta : List AdoptedFacet)
  | commitAdoptedBaseline (delta : List AdoptedFacet)
  | finishPendingAdoption (persisted : Bool)
  | replaceDevices (devices : List Device)

/-- Only facets returned by a snapshot are adopted. -/
def Enabled (s : State) : Action → Prop
  | .stageAdoption delta => ∀ facet ∈ delta, facet ∈ s.returned
  | .commitAdoptedBaseline delta => ∀ facet ∈ delta, facet ∈ s.returned
  | _ => True

def next (platform : Platform) (s : State) : Action → State
  | .acceptSnapshot now device expectedGeneration snapshot adopt =>
    match acceptSnapshot platform now s.daemon device expectedGeneration snapshot adopt with
    | .ok (daemon, adopted) => ⟨daemon, s.returned ++ adopted⟩
    | .error _ => s
  | .noteSlots now target values =>
    { s with daemon := noteSuccessfulApply now s.daemon target (.appearanceSlots values) }
  | .stageAdoption delta =>
    match stageAdoption platform s.daemon delta with
    | .ok daemon => { s with daemon := daemon }
    | .error _ => s
  | .commitAdoptedBaseline delta => { s with daemon := commitAdoptedBaseline s.daemon delta }
  | .finishPendingAdoption persisted =>
    { s with daemon := finishPendingAdoption s.daemon persisted }
  | .replaceDevices devices =>
    { s with daemon := FrameStreams.replaceDevices platform devices s.daemon }

def Step (platform : Platform) (s : State) (action : Action) (t : State) : Prop :=
  Enabled s action ∧ t = next platform s action

def Initial (s : State) : Prop :=
  (∀ target kind, s.daemon.observations target kind = none) ∧ s.daemon.adoptedBaseline = [] ∧
    s.daemon.pendingAdoption = [] ∧ s.returned = []

def State.facets (s : State) : List AdoptedFacet :=
  s.daemon.adoptedBaseline ++ s.daemon.pendingAdoption ++ s.returned

inductive Stored (s : State) (target : TargetId) (slots : AppearanceSlotsState) : Prop where
  | observation {kind : StateFacetKind} {o : FacetObservation} :
      s.daemon.observations target kind = some o → o.value = .appearanceSlots slots →
        Stored s target slots
  | facet {facet : AdoptedFacet} : facet ∈ s.facets → facet.target = target →
      facet.value = .appearanceSlots slots → Stored s target slots

/-- A noted write names distinct slots of each visited target that advertises slots. A new
topology still advertises the slots named by stored values, and where those are complete it
advertises no others. -/
def Guarded (s : State) : Action → Prop
  | .noteSlots _ target values => values ≠ [] ∧ ∀ d ∈ notedTargets s.daemon.topology target,
      slotIds s.daemon.topology d ≠ [] → Tidy (slotIds s.daemon.topology d) values
  | .replaceDevices devices => ∀ target slots, Stored s target slots →
      (slotIds (fromDevices devices) target ≠ [] →
        Tidy (slotIds (fromDevices devices) target) slots.values) ∧
      (slots.complete = true → ∀ id,
        id ∈ slotIds (fromDevices devices) target ↔ id ∈ slotIds s.daemon.topology target)
  | _ => True

variable {slots : AppearanceSlotsState} {s : State}

theorem namedSlots_merge : namedSlots (mergeSlotValues vs current) =
      Membership.addAll (namedSlots vs) (namedSlots current) := by
  induction current generalizing vs with
  | nil => rfl
  | cons v rest ih =>
    have han : vs.any (·.slot == v.slot) = true ↔ v.slot ∈ namedSlots vs := by simp [namedSlots]
    have ha : namedSlots (if vs.any (·.slot == v.slot) then vs
        else vs ++ [v]) = if v.slot ∈ namedSlots vs then namedSlots vs
          else namedSlots vs ++ [v.slot] := by
      simp only [han]
      split <;> simp [namedSlots]
    rw [mergeSlotValues, foldl_cons, ← mergeSlotValues, ih, ha]
    rfl

theorem mem_namedSlots_merge {id : AppearanceSlotId} :
    id ∈ namedSlots (mergeSlotValues vs current) ↔
      id ∈ namedSlots vs ∨ id ∈ namedSlots current := by
  rw [namedSlots_merge, Membership.mem_addAll]

theorem mergeSlotValues_ne_nil (h : vs ≠ []) : mergeSlotValues vs current ≠ [] := by
  intro hn
  obtain ⟨v, hv⟩ := exists_mem_of_ne_nil _ h
  have hm : v.slot ∈ namedSlots (mergeSlotValues vs current) :=
    mem_namedSlots_merge.2 (.inl (mem_map_of_mem hv))
  rw [hn] at hm
  cases hm

theorem Tidy.merge {advertised : List AppearanceSlotId} {current : List AppearanceSlotValue}
    (hv : Tidy advertised vs) (hc : namedSlots current ⊆ advertised) :
    Tidy advertised (mergeSlotValues vs current) := by
  refine ⟨namedSlots_merge ▸ Membership.nodup_addAll hv.1, fun id hid => ?_⟩
  rcases mem_namedSlots_merge.1 hid with h | h
  · exact hv.2 h
  · exact hc h

theorem Tidy.all {advertised : List AppearanceSlotId} (h : Tidy advertised vs)
    (hl : vs.length = advertised.length) : advertised ⊆ namedSlots vs := by
  have hp : (namedSlots vs).Perm advertised :=
    (subperm_of_subset h.1 h.2).perm_of_length_le (by simp [namedSlots, hl])
  exact hp.symm.subset

/-- Stored values of a target that advertises slots are tidy. Complete ones are all, and the
target advertises some. -/
structure Fits (topology : Topology) (target : TargetId) (slots : AppearanceSlotsState) :
    Prop where
  tidy : slotIds topology target ≠ [] → Tidy (slotIds topology target) slots.values
  complete : slots.complete = true →
    slotIds topology target ≠ [] ∧ slotIds topology target ⊆ namedSlots slots.values

variable {target : TargetId} {topology : Topology}

theorem Fits.honest (h : Fits topology target slots) : Honest topology target slots := by
  intro hc
  obtain ⟨ha, hal⟩ := h.complete hc
  obtain ⟨hn, hs⟩ := h.tidy ha
  exact ⟨hn, fun id => ⟨fun hid => hs hid, fun hid => hal hid⟩⟩

def FacetsFit (topology : Topology) (facets : List AdoptedFacet) : Prop :=
  ∀ facet ∈ facets, ∀ slots, facet.value = .appearanceSlots slots →
    Fits topology facet.target slots

structure Fitting (s : State) : Prop where
  observed : ∀ target kind o slots, s.daemon.observations target kind = some o →
    o.value = .appearanceSlots slots → Fits s.daemon.topology target slots
  baseline : FacetsFit s.daemon.topology s.daemon.adoptedBaseline
  pending : FacetsFit s.daemon.topology s.daemon.pendingAdoption
  returned : FacetsFit s.daemon.topology s.returned

theorem Fitting.stored (h : Fitting s) (hs : Stored s target slots) :
    Fits s.daemon.topology target slots := by
  cases hs with
  | observation ho hv => exact h.observed target _ _ slots ho hv
  | facet hf ht hv =>
    subst ht
    rcases mem_append.1 hf with hf | hr
    · rcases mem_append.1 hf with hb | hp
      · exact h.baseline _ hb slots hv
      · exact h.pending _ hp slots hv
    · exact h.returned _ hr slots hv

theorem fits_of_count (hne : vs ≠ [])
    (ht : slotIds topology target ≠ [] → Tidy (slotIds topology target) vs) :
    Fits topology target ⟨vs, ((capabilitiesForTarget topology target).bind fun caps =>
      caps.appearanceSlots.map (·.slots.length)) = some vs.length⟩ := by
  have hl : ((capabilitiesForTarget topology target).bind fun caps =>
      caps.appearanceSlots.map (·.slots.length)) = some vs.length →
        vs.length = (slotIds topology target).length := by
    intro hco
    rw [slotIds]
    cases hc : capabilitiesForTarget topology target with
    | none => simp [hc] at hco
    | some caps =>
      cases hs : caps.appearanceSlots with
      | none => simp [hc, hs] at hco
      | some slots =>
        simp only [hc, hs, bind_some, map_some, Option.some.injEq] at *
        simp [← hco]
  have ha : vs.length = (slotIds topology target).length → slotIds topology target ≠ [] := by
    intro h hn
    rw [hn, length_nil, length_eq_zero_iff] at h
    exact hne h
  refine ⟨ht, fun hcm => ?_⟩
  have h := hl (of_decide_eq_true hcm)
  exact ⟨ha h, (ht (ha h)).all h⟩

theorem checkObservedSlots_ok {slots : List AppearanceSlotDescriptor}
    (h : checkObservedSlots p target slots emulation seen vs = .ok ()) :
    Tidy (slots.map (·.id)) vs ∧ ∀ id ∈ namedSlots vs, id ∉ seen := by
  induction vs generalizing seen with
  | nil => exact ⟨⟨nodup_nil, nil_subset _⟩, fun _ h => absurd h not_mem_nil⟩
  | cons v rest ih =>
    rw [checkObservedSlots, then_ok_iff, ensureSlotFresh] at h
    obtain ⟨hfr, h⟩ := h
    obtain ⟨desc, hd, h⟩ := bind_ok_iff.1 h
    obtain ⟨⟨hn, hs⟩, hu⟩ := ih (then_ok_iff.1 h).2
    have hf : v.slot ∈ slots.map (·.id) := by
      rw [findSlot] at hd
      split at hd
      · next fd hfi =>
        have hid : fd.id = v.slot := by simpa using find?_some hfi
        exact mem_map.2 ⟨fd, mem_of_find?_eq_some hfi, hid⟩
      · cases hd
    refine ⟨⟨nodup_cons.2 ⟨fun hm => hu _ hm mem_cons_self, hn⟩,
      cons_subset.2 ⟨hf, hs⟩⟩, forall_mem_cons.2 ⟨?_, ?_⟩⟩
    · simpa using hfr
    · exact fun id hid hse => hu id hid (mem_cons_of_mem _ hse)

theorem validateObservedValue_slots
    (h : validateObservedValue p st target caps (.appearanceSlots slots) = .ok ()) :
    slots.values ≠ [] ∧ Tidy (slotIds st.topology target) slots.values := by
  obtain ⟨complete, hv, -⟩ := bind_ok_iff.1 h
  rw [validateObservedAppearanceSlotValues, then_ok_iff] at hv
  obtain ⟨hne, hv⟩ := hv
  obtain ⟨cap, hca, hv⟩ := bind_ok_iff.1 hv
  have hi : slotIds st.topology target = cap.slots.map (·.id) := by
    obtain ⟨fd, hf, hs⟩ := bind_ok_iff.1 hca
    rw [capabilitiesForTargetOrError] at hf
    split at hf
    · next caps hc =>
      cases hf
      split at hs
      · next advertised ha =>
        cases hs
        simp [slotIds, hc, ha]
      · cases hs
    · cases hf
  rw [hi]
  exact ⟨by simpa using hne, (checkObservedSlots_ok (then_ok_iff.1 hv).1).1⟩

theorem validated_slots (h : validateObservations p st d seen obs = .ok is) :
    ∀ it ∈ is, ∀ slots, it.2.1 = .appearanceSlots slots →
      slots.values ≠ [] ∧ Tidy (slotIds st.topology it.1) slots.values := by
  induction obs generalizing seen is with
  | nil =>
    cases h
    exact fun _ h => absurd h not_mem_nil
  | cons ob rest ih =>
    simp only [validateObservations, bind_ok_iff] at h
    obtain ⟨target, -, ⟨⟩, -, caps, -, ⟨⟩, -, h⟩ := h
    split at h
    · cases h
    · simp only [bind_ok_iff] at h
      obtain ⟨⟨⟩, hva, validated, hv, h⟩ := h
      cases h
      refine forall_mem_cons.2 ⟨fun slots hs => ?_, ih hv⟩
      rw [show ob.value = _ from hs] at hva
      exact validateObservedValue_slots hva

theorem fits_mergeObservedSlots (hf : Fitting s)
    {reported : AppearanceSlotsState} (hne : reported.values ≠ [])
    (ht : Tidy (slotIds s.daemon.topology target) reported.values)
    (hs : mergeObservedSlots s.daemon target (.appearanceSlots reported) =
      .appearanceSlots slots) : Fits s.daemon.topology target slots := by
  have ha : slotIds s.daemon.topology target ≠ [] := by
    intro hn
    rw [hn] at ht
    exact hne (map_eq_nil_iff.1 (subset_nil.1 ht.2))
  obtain rfl := FacetValue.appearanceSlots.inj hs
  refine fits_of_count (mergeSlotValues_ne_nil hne) fun _ => ht.merge ?_
  split
  · next prev hp =>
    exact ((hf.observed target _ _ _ hp rfl).tidy ha).2
  · exact nil_subset _

theorem settled_value
    (h : (settleReconciliation now d snapshot st).observations target kind = some o) :
    ∃ published, st.observations target kind = some published ∧ o.value = published.value := by
  rw [settleReconciliation_observations] at h
  split at h
  · obtain ⟨published, hp, rfl⟩ := map_eq_some_iff.1 h
    refine ⟨published, hp, ?_⟩
    split <;> rfl
  · exact ⟨o, h, rfl⟩

theorem fitting_acceptSnapshot (hf : Fitting s) {after : DaemonState} {adopted : List AdoptedFacet}
    (h : acceptSnapshot p now s.daemon d gen snapshot adopt =
      .ok (after, adopted)) : Fitting ⟨after, s.returned ++ adopted⟩ := by
  have hob := acceptSnapshot_observes h
  rw [acceptSnapshot, then_ok_iff] at h
  obtain ⟨is, hva, h⟩ := bind_ok_iff.1 h.2
  cases h
  rw [validatePluginSnapshot, then_ok_iff] at hva
  have hp := published_all now d adopt s.daemon (validateObservations_ok hva.2).2.1
  have hm : ∀ it ∈ is, ∀ slots, mergeObservedSlots s.daemon it.1 it.2.1 = .appearanceSlots slots →
        Fits s.daemon.topology it.1 slots := by
    intro it hit slots hs
    obtain ⟨target, v, fidelity⟩ := it
    cases v with
    | appearanceSlots reported =>
      obtain ⟨hne, ht⟩ := validated_slots hva.2 _ hit reported rfl
      exact fits_mergeObservedSlots hf hne ht hs
    | _ => cases hs
  refine ⟨?_, ?_, ?_, ?_⟩ <;> rw [hob.topology]
  · intro target kind o slots ho hv
    obtain ⟨published, hfo, hsa⟩ := settled_value ho
    rw [hsa] at hv
    by_cases hk : (target, kind) ∈ is.map Item.key
    · obtain ⟨it, hit, hi⟩ := mem_map.1 hk
      cases hi
      rw [hp.reported it hit] at hfo
      cases hfo
      exact hm it hit slots hv
    · rw [hp.others target kind hk] at hfo
      exact hf.observed target kind published slots hfo hv
  · exact hob.adoptedBaseline ▸ hf.baseline
  · exact hob.pendingAdoption ▸ hf.pending
  · refine forall_mem_append.2 ⟨hf.returned, ?_⟩
    rw [hp.adopted]
    split
    · intro f hfa slots hv
      obtain ⟨it, hit, rfl⟩ := mem_map.1 hfa
      exact hm it (mem_filter.1 hit).1 slots hv
    · exact fun _ h => absurd h not_mem_nil

theorem noted_slots
    (h : (noteSuccessfulApply now st target (.appearanceSlots vs)).observations t kind =
      some o) (hv : o.value = .appearanceSlots slots) :
    st.observations t kind = some o ∨ t ∈ notedTargets st.topology target ∧
      slots = ⟨vs, ((capabilitiesForTarget st.topology t).bind fun caps =>
        caps.appearanceSlots.map (·.slots.length)) = some vs.length⟩ := by
  have hw : (noteSuccessfulApply now st target (.appearanceSlots vs)).observations =
      ((notedTargets st.topology target).flatMap
        (appliedObservations st.topology now · (.appearanceSlots vs))).foldl
          storeObservation st.observations := by
    rw [foldl_flatMap]
    rfl
  rw [hw, foldl_storeObservation] at h
  cases hl : lastStored ((notedTargets st.topology target).flatMap
      (appliedObservations st.topology now · (.appearanceSlots vs))) t kind with
  | none =>
    rw [hl] at h
    exact .inl h
  | some last =>
    rw [hl, some_or] at h
    obtain rfl := Option.some.inj h
    have ht : last.target = t := by
      have hf := find?_some hl
      simp only [decide_eq_true_eq] at hf
      exact hf.1
    obtain ⟨d, hd, hm⟩ := mem_flatMap.1 (mem_reverse.1 (mem_of_find?_eq_some hl))
    rcases mem_append.1 hm with ha | hp
    · obtain rfl := mem_singleton.1 ha
      obtain rfl : d = t := ht
      refine .inr ⟨hd, (FacetValue.appearanceSlots.inj hv).symm.trans ?_⟩
      simp only [map_bind]
      rfl
    · -- the power domain's observation carries no slots
      obtain ⟨domain, -, hp⟩ := mem_flatMap.1 hp
      dsimp only at hp
      split at hp
      · cases hp
      · obtain rfl := mem_singleton.1 hp
        cases hv

theorem fitting_noteSlots (hf : Fitting s) (hg : Guarded s (.noteSlots now target vs)) :
    Fitting { s with daemon := noteSuccessfulApply now s.daemon target (.appearanceSlots vs) } := by
  obtain ⟨hne, ht⟩ := hg
  refine ⟨fun t kind o slots ho hv => ?_, hf.baseline, hf.pending, hf.returned⟩
  rcases noted_slots ho hv with hb | ⟨hvi, rfl⟩
  · exact hf.observed t kind o slots hb hv
  · exact fits_of_count hne (ht t hvi)

theorem Fits.inherit (hs : Fits topology target slots) (hc : Fits topology target current) :
    Fits topology target
      ⟨mergeSlotValues slots.values current.values, slots.complete || current.complete⟩ := by
  refine ⟨fun h => (hs.tidy h).merge (hc.tidy h).2, fun hco => ?_⟩
  rcases Bool.or_eq_true_iff.1 hco with h | h
  · obtain ⟨ha, hal⟩ := hs.complete h
    exact ⟨ha, fun id hid => mem_namedSlots_merge.2 (.inl (hal hid))⟩
  · obtain ⟨ha, hal⟩ := hc.complete h
    exact ⟨ha, fun id hid => mem_namedSlots_merge.2 (.inr (hal hid))⟩

variable {topology : Topology}

theorem fits_inheritSlots (hfa : FacetsFit topology facets) (hr : FacetsFit topology [repl]) :
    FacetsFit topology [inheritSlots facets repl] := by
  unfold inheritSlots
  split
  · next slots target current confirmed hv hf =>
    have hsa : target = repl.target := by
      have hp := find?_some hf
      simp only [decide_eq_true_eq] at hp
      exact hp.1
    subst hsa
    have hc := hfa _ (mem_of_find?_eq_some hf) current rfl
    have hs := hr repl mem_cons_self slots hv
    intro f hfc merged hm
    obtain rfl := mem_singleton.1 hfc
    obtain rfl := FacetValue.appearanceSlots.inj hm
    exact hs.inherit hc
  · exact hr

theorem fits_replaceAdoptedFacet (hf : FacetsFit topology facets) (hd : FacetsFit topology delta) :
    FacetsFit topology (delta.foldl replaceAdoptedFacet facets) := by
  induction delta generalizing facets with
  | nil => exact hf
  | cons repl rest ih =>
    obtain ⟨hr, hre⟩ := forall_mem_cons.1 hd
    refine ih (forall_mem_append.2 ⟨?_, ?_⟩) hre
    · exact fun f hfa => hf f (mem_filter.1 hfa).1
    · exact fits_inheritSlots hf (forall_mem_singleton.2 hr)

theorem foldl_noteAdoption (st : DaemonState) (delta : List AdoptedFacet) : ∃ status,
    delta.foldl (noteAdoption adoption) st = { st with deviceStatus := status } := by
  induction delta generalizing st with
  | nil => exact ⟨_, rfl⟩
  | cons f rest ih => exact ih _

theorem fitting_commit (hf : Fitting s) (hd : FacetsFit s.daemon.topology delta) :
    Fitting { s with daemon := commitAdoptedBaseline s.daemon delta } := by
  obtain ⟨status, hs⟩ := foldl_noteAdoption
    { s.daemon with adoptedBaseline := mergedAdoptedBaseline s.daemon delta } delta
  rw [commitAdoptedBaseline, hs]
  exact ⟨hf.observed, fits_replaceAdoptedFacet hf.baseline hd, hf.pending, hf.returned⟩

theorem fitting_finish (hf : Fitting s) :
    Fitting { s with daemon := finishPendingAdoption s.daemon persisted } := by
  have hn : FacetsFit s.daemon.topology [] := fun _ h => absurd h not_mem_nil
  have ht : Fitting { s with daemon := { s.daemon with pendingAdoption := [] } } :=
    ⟨hf.observed, hf.baseline, hn, hf.returned⟩
  cases persisted with
  | true => exact fitting_commit ht hf.pending
  | false =>
    obtain ⟨status, hs⟩ := foldl_noteAdoption
      { s.daemon with pendingAdoption := [] } s.daemon.pendingAdoption
    rw [finishPendingAdoption, hs]
    exact ⟨ht.observed, ht.baseline, ht.pending, ht.returned⟩

theorem fitting_stage (hf : Fitting s)
    (hd : FacetsFit s.daemon.topology delta) {after : DaemonState}
    (h : stageAdoption p s.daemon delta = .ok after) : Fitting { s with daemon := after } := by
  rw [stageAdoption, then_ok_iff] at h
  obtain rfl := Except.ok.inj h.2
  exact ⟨hf.observed, hf.baseline, fits_replaceAdoptedFacet hf.pending hd, hf.returned⟩

theorem Fits.replace {pre after : Topology} (h : Fits pre target slots)
    (ht : slotIds after target ≠ [] → Tidy (slotIds after target) slots.values)
    (hs : slots.complete = true → ∀ id, id ∈ slotIds after target ↔ id ∈ slotIds pre target) :
    Fits after target slots := by
  refine ⟨ht, fun hc => ?_⟩
  obtain ⟨ha, hal⟩ := h.complete hc
  refine ⟨fun hn => ?_, fun id hid => hal ((hs hc id).1 hid)⟩
  obtain ⟨id, hid⟩ := exists_mem_of_ne_nil _ ha
  have haf := (hs hc id).2 hid
  rw [hn] at haf
  cases haf

theorem fitting_replaceDevices (hfi : Fitting s) (hg : Guarded s (.replaceDevices ds)) :
    Fitting (next p s (.replaceDevices ds)) := by
  have hft : ∀ target slots, Stored s target slots → Fits (fromDevices ds) target slots := by
    intro target slots hs
    obtain ⟨ht, hsa⟩ := hg target slots hs
    exact (hfi.stored hs).replace ht hsa
  have hfa : ∀ facets, (∀ f ∈ facets, f ∈ s.facets) →
      FacetsFit (fromDevices ds) facets := fun facets hsu f hf slots hv =>
    hft f.target slots (.facet (hsu f hf) rfl hv)
  refine ⟨fun target kind o slots ho hv => hft target slots (.observation ho hv),
    hfa _ fun f hf => ?_, hfa _ fun f hf => ?_, hfa _ fun f hf => ?_⟩
  · exact mem_append_left _ (mem_append_left _ hf)
  · exact mem_append_left _ (mem_append_right _ hf)
  · exact mem_append_right _ hf

theorem step_fitting (hf : Fitting s) (hg : Guarded s a) (hs : Step p s a t) : Fitting t := by
  obtain ⟨he, rfl⟩ := hs
  cases a with
  | acceptSnapshot now d gen snapshot adopt =>
    rw [next]
    split
    · next h => exact fitting_acceptSnapshot hf h
    · exact hf
  | noteSlots now target vs => exact fitting_noteSlots hf hg
  | stageAdoption delta =>
    rw [next]
    split
    · next h =>
      exact fitting_stage hf (fun f hfa => hf.returned f (he f hfa)) h
    · exact hf
  | commitAdoptedBaseline delta =>
    exact fitting_commit hf fun f hfa =>
      hf.returned f (he f hfa)
  | finishPendingAdoption persisted => exact fitting_finish hf
  | replaceDevices ds => exact fitting_replaceDevices hf hg

theorem initial_fitting (h : Initial s) : Fitting s := by
  obtain ⟨hob, hb, hp, hr⟩ := h
  have hn : FacetsFit s.daemon.topology [] := fun _ h => absurd h not_mem_nil
  refine ⟨fun target kind o slots ho _ => ?_, hb ▸ hn, hp ▸ hn, hr ▸ hn⟩
  rw [hob] at ho
  cases ho

/-- In every guarded run, stored slot values that are marked complete have one value for each
advertised slot and none for another. -/
theorem complete_slots_honest (platform : Platform) {s : State}
    (hreachable : Transition.Reachable Initial (Step platform) Guarded s) :
    ∀ target slots, Stored s target slots → Honest s.daemon.topology target slots := by
  have hf := hreachable.holds Fitting (fun _ => initial_fitting)
    fun _ _ _ h hg hs => step_fitting h hg hs
  exact fun target slots h => (hf.stored h).honest

namespace Sample

def slot (id : AppearanceSlotId) : AppearanceSlotDescriptor where
  id := id
  name := id
  appearance := { colour := [.rgb8] }
  persistence := .none

def laptop (sources : List AppearanceSlotId) : Device where
  id := "laptop"
  surfaces := [⟨"button", [], {
    appearanceSlots := some ⟨sources.map slot, .independent⟩
    stateReadback := .readable [⟨.appearanceSlots, .exact⟩] false false }⟩]

def button : TargetId := .surface "laptop" "button"

def lit (id : AppearanceSlotId) : AppearanceSlotValue := ⟨id, .static (.rgb ⟨255, 0, 0⟩)⟩

def read (sources all : List AppearanceSlotId) : Action :=
  .acceptSnapshot 5 "laptop" 0 { observations := [⟨.surface "laptop" "button",
    .appearanceSlots ⟨sources.map lit, sources.length = all.length⟩⟩] } true

def started : State where
  daemon := { topology := fromDevices [laptop ["ac", "battery"]] }

def after (s : State) (action : Action) : State := next DesiredState.Sample.platform s action

theorem started_initial : Initial started := ⟨fun _ _ => rfl, rfl, rfl, rfl⟩

def stored (s : State) : Option FacetValue :=
  (s.daemon.observations button .appearanceSlots).map (·.value)

theorem stored_of_eq (h : stored s = some (.appearanceSlots slots)) : Stored s button slots := by
  obtain ⟨o, ho, hv⟩ := map_eq_some_iff.1 h
  exact .observation ho hv

end Sample

open Sample in
/-- Reading one slot after the other completes the values. -/
theorem both_slots_read_honest : Honest (fromDevices [laptop ["ac", "battery"]]) button
      ⟨[lit "battery", lit "ac"], true⟩ := by
  have hf : Transition.Reachable Initial (Step DesiredState.Sample.platform) Guarded
      (after started (read ["ac"] ["ac", "battery"])) :=
    (Transition.Reachable.initial started_initial).step (l := read ["ac"] ["ac", "battery"])
      trivial ⟨trivial, rfl⟩
  have hs := hf.step (l := read ["battery"] ["ac", "battery"]) trivial ⟨trivial, rfl⟩
  exact complete_slots_honest _ hs button _ (stored_of_eq (by decide +kernel))

namespace Counterexample

open Sample

/-- All slots are read, and then the button gets another one. -/
def extended : State :=
  after (after started (read ["ac", "battery"] ["ac", "battery"]))
    (.replaceDevices [laptop ["ac", "battery", "dock"]])

/-- The values stay complete without the new slot. -/
theorem complete_flag_outlives_slots :
    Transition.Reachable Initial (Step DesiredState.Sample.platform) (fun _ _ => True) extended ∧
    stored extended = some (.appearanceSlots ⟨[lit "ac", lit "battery"], true⟩) ∧
    slotIds extended.daemon.topology button = ["ac", "battery", "dock"] := by
  have hs : Transition.Reachable Initial (Step DesiredState.Sample.platform)
      (fun _ _ => True) started := .initial started_initial
  have hr := hs.step (l := read ["ac", "battery"] ["ac", "battery"]) trivial ⟨trivial, rfl⟩
  refine ⟨?_, by decide +kernel, by decide +kernel⟩
  exact hr.step (l := Action.replaceDevices [laptop ["ac", "battery", "dock"]]) trivial
    ⟨trivial, rfl⟩

end Counterexample

end SlotCompleteness
