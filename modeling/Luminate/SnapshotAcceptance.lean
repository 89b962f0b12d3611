import Luminate.Adoption

/-! # Accepting a snapshot

`accept_snapshot` as the sequence of its reads, checks and writes on the daemon state,
and what a rejected and an accepted snapshot leave behind. -/
namespace SnapshotAcceptance

open Checks DeviceModel TargetTopology DaemonModel Validation Adoption List

/-- A method on `&mut self` that may fail; what was written before an error stays. -/
abbrev Method := ExceptT DaemonError (StateM DaemonState)

/-- The `?` operator on a result that was computed without writing. -/
def attempt {α : Type} (result : Except DaemonError α) : Method α :=
  match result with
  | .ok value => pure value
  | .error error => throw error

def publishFacet (now : ℕ) (device : DeviceId) (adopt : Bool) (adopted : List AdoptedFacet)
    (item : TargetId × FacetValue × ReadbackFidelity) : Method (List AdoptedFacet) := do
  let (target, reported, fidelity) := item
  let confidence := readbackConfidence fidelity
  let value := mergeObservedSlots (← get) target reported
  modify fun state =>
    { state with
      observations := Observation.storeObservation state.observations
        { target, value, confidence, source := .readback, observedAtMs := now, stale := false } }
  if adopt && confidence = .confirmed then
    modify fun state => updateStatus state device fun status =>
      setAdoptionStatus status target value.kind .pending
    return adopted ++ [⟨target, value, now⟩]
  else if adopt then
    modify fun state => updateStatus state device fun status =>
      setAdoptionStatus status target value.kind .ineligibleFidelity
    return adopted
  else return adopted

def acceptSnapshotMethod (platform : Platform) (now : ℕ) (device : DeviceId)
    (expectedGeneration : ℕ) (snapshot : PluginStateSnapshot) (adopt : Bool) :
    Method (List AdoptedFacet) := do
  if generation (← get) device ≠ expectedGeneration then
    throw (.internal "discarded stale state snapshot after a newer mutation")
  let validated ← attempt (validatePluginSnapshot platform (← get) device snapshot)
  let adopted ← validated.foldlM (publishFacet now device adopt) []
  modify (settleReconciliation now device snapshot)
  return adopted

def call {α : Type} (method : Method α) (state : DaemonState) :
    Except DaemonError α × DaemonState := method.run.run state

theorem call_bind {α β : Type} (method : Method α) (rest : α → Method β) :
    call (method >>= rest) state = match call method state with
      | (.ok v, after) => call (rest v) after
      | (.error e, after) => (.error e, after) := by
  simp only [call, ExceptT.run_bind, StateT.run_bind]
  generalize StateT.run (ExceptT.run method) state = outcome
  obtain ⟨result, after⟩ := outcome
  cases result <;> rfl

@[simp] theorem call_pure {α : Type} (v : α) (state : DaemonState) :
    call (pure v) state = (.ok v, state) := rfl

@[simp] theorem call_throw {α : Type} (e : DaemonError) (state : DaemonState) :
    call (throw e : Method α) state = (.error e, state) := rfl

@[simp] theorem call_get (state : DaemonState) : call get state = (.ok state, state) := rfl

@[simp] theorem call_modify (update : DaemonState → DaemonState) (state : DaemonState) :
    call (modify update) state = (.ok ⟨⟩, update state) := rfl

@[simp] theorem call_attempt_ok {α : Type} (v : α) (state : DaemonState) :
    call (attempt (.ok v)) state = (.ok v, state) := rfl

@[simp] theorem call_attempt_error {α : Type} (e : DaemonError) (state : DaemonState) :
    call (attempt (.error e) : Method α) state = (.error e, state) := rfl

theorem call_publishFacet : call (publishFacet now dev adopt adopted itm) state =
      (.ok (acceptFacet now dev adopt (state, adopted) itm).2,
        (acceptFacet now dev adopt (state, adopted) itm).1) := by
  obtain ⟨target, reported, fidelity⟩ := itm
  cases adopt <;> cases fidelity <;> rfl

theorem call_foldlM (its : List (TargetId × FacetValue × ReadbackFidelity))
    (adopted : List AdoptedFacet) (state : DaemonState) :
    call (its.foldlM (publishFacet now dev adopt) adopted) state =
      (.ok (its.foldl (acceptFacet now dev adopt) (state, adopted)).2,
        (its.foldl (acceptFacet now dev adopt) (state, adopted)).1) := by
  induction its generalizing adopted state with
  | nil => rfl
  | cons itm rest ih =>
    rw [foldlM_cons, call_bind, call_publishFacet]
    exact ih _ _

theorem call_acceptSnapshot : call (acceptSnapshotMethod p now dev gen snapshot adopt) state =
      match acceptSnapshot p now state dev gen snapshot adopt with
      | .ok (after, adopted) => (.ok adopted, after)
      | .error e => (.error e, state) := by
  unfold acceptSnapshotMethod acceptSnapshot
  by_cases hg : generation state dev = gen
  · cases hv : validatePluginSnapshot p state dev snapshot with
    | error e => simp [call_bind, hg, hv, ensure]
    | ok validated =>
      simp only [call_bind, call_get, hg, ne_eq, not_true_eq_false, if_false, hv,
        call_attempt_ok, call_foldlM, call_modify, call_pure, ensure, decide_true, if_true]
      rfl
  · simp [call_bind, hg, ensure]

def advertised (state : DaemonState) (target : TargetId) (facet : StateFacetKind) :
    Option ReadbackFidelity :=
  (capabilitiesForTarget state.topology target).bind (readableFidelity · facet)

abbrev Item := TargetId × FacetValue × ReadbackFidelity

def Item.key (item : Item) : TargetId × StateFacetKind := (item.1, item.2.1.kind)

/-- A validated item is a reported facet of a target of the device. -/
def Stems (state : DaemonState) (device : DeviceId) (observation : PluginFacetObservation)
    (item : Item) : Prop :=
  canonicalTargetFromPlugin observation.target = .ok item.1 ∧ item.1.deviceId = device ∧
    observation.value = item.2.1 ∧ advertised state item.1 item.2.1.kind = some item.2.2

variable {is : List Item}

theorem validateObservations_ok (h : validateObservations p state dev seen obs = .ok is) :
    Forall₂ (Stems state dev) obs is ∧ (is.map Item.key).Nodup ∧ ∀ itm ∈ is, itm.key ∉ seen := by
  induction obs generalizing seen is with
  | nil =>
    cases h
    exact ⟨.nil, nodup_nil, fun _ h => absurd h not_mem_nil⟩
  | cons ob rest ih =>
    simp only [validateObservations, bind_ok_iff] at h
    obtain ⟨target, ht, ⟨⟩, hd, caps, hc, ⟨⟩, hu, h⟩ := h
    split at h
    · cases h
    · next fidelity hf =>
      simp only [bind_ok_iff] at h
      obtain ⟨⟨⟩, -, validated, hv, h⟩ := h
      cases h
      obtain ⟨hs, hn, hfr⟩ := ih hv
      have ha : advertised state target ob.value.kind = some fidelity := by
        unfold capabilitiesForTargetOrError at hc
        split at hc
        · next fd hfo =>
          cases hc
          rw [advertised, hfo, Option.bind_some, hf]
        · cases hc
      refine ⟨.cons ⟨ht, ?_, rfl, ha⟩ hs, ?_, ?_⟩
      · simpa using ensure_ok_iff.1 hd
      · rw [map_cons, nodup_cons]
        refine ⟨fun hl => ?_, hn⟩
        obtain ⟨itm, hi, hk⟩ := mem_map.1 hl
        exact hfr itm hi (hk ▸ mem_cons_self)
      · refine forall_mem_cons.2 ⟨?_, fun itm hi hse => ?_⟩
        · simpa [Item.key] using ensure_ok_iff.1 hu
        · exact hfr itm hi (mem_cons_of_mem _ hse)

theorem mergeObservedSlots_kind : (mergeObservedSlots state target v).kind = v.kind := by
  cases v <;> rfl

/-- The observation that stands for an item in the end. -/
def observationOf (now : ℕ) (state : DaemonState) (item : Item) : FacetObservation where
  target := item.1
  value := mergeObservedSlots state item.1 item.2.1
  confidence := readbackConfidence item.2.2
  source := .readback
  observedAtMs := now
  stale := false

def adoptedOf (now : ℕ) (state : DaemonState) (item : Item) : AdoptedFacet :=
  ⟨item.1, mergeObservedSlots state item.1 item.2.1, now⟩

theorem mergeObservedSlots_congr {state after : DaemonState} (ht : after.topology = state.topology)
    (h : after.observations target v.kind = state.observations target v.kind) :
    mergeObservedSlots after target v = mergeObservedSlots state target v := by
  cases v with
  | appearanceSlots slots =>
    simp only [FacetValue.kind] at h
    simp only [mergeObservedSlots, h, ht]
  | _ => rfl

structure Published (now : ℕ) (device : DeviceId) (adopt : Bool) (state : DaemonState)
    (items : List Item) (acc : DaemonState × List AdoptedFacet) : Prop where
  observes : Observes state acc.1
  reported : ∀ item ∈ items, acc.1.observations item.1 item.2.1.kind =
    some (observationOf now state item)
  others : ∀ target facet, (target, facet) ∉ items.map Item.key →
    acc.1.observations target facet = state.observations target facet
  status : ∀ other, other ≠ device → acc.1.deviceStatus other = state.deviceStatus other
  adopted : acc.2 = if adopt then
    (items.filter (·.2.2 = .exact)).map (adoptedOf now state) else []

section

variable (now : ℕ) (d : DeviceId) (adopt : Bool) (acc : DaemonState × List AdoptedFacet)
  (it : Item)

theorem acceptFacet_observations : (acceptFacet now d adopt acc it).1.observations =
    acc.1.observations.insert it.1 it.2.1.kind (observationOf now acc.1 it) := by
  have hs : (acceptFacet now d adopt acc it).1.observations =
      Observation.storeObservation acc.1.observations (observationOf now acc.1 it) := by
    obtain ⟨target, v, fidelity⟩ := it
    cases adopt <;> cases fidelity <;> rfl
  rw [hs, Observation.storeObservation, observationOf, mergeObservedSlots_kind]

theorem acceptFacet_status (ho : other ≠ d) :
    (acceptFacet now d adopt acc it).1.deviceStatus other = acc.1.deviceStatus other := by
  obtain ⟨target, v, fidelity⟩ := it
  cases adopt <;> cases fidelity <;> simp [acceptFacet, updateStatus, ho]

theorem acceptFacet_adopted : (acceptFacet now d adopt acc it).2 =
    acc.2 ++ if adopt then ([it].filter (·.2.2 = .exact)).map (adoptedOf now acc.1) else [] := by
  obtain ⟨target, v, fidelity⟩ := it
  cases adopt <;> cases fidelity <;> simp [acceptFacet, adoptedOf]

end

theorem published_all (now : ℕ) (dev : DeviceId) (adopt : Bool) (state : DaemonState)
    (hn : (is.map Item.key).Nodup) :
    Published now dev adopt state is (is.foldl (acceptFacet now dev adopt) (state, [])) := by
  induction is using reverseRecOn with
  | nil => exact ⟨rfl, by simp, fun _ _ _ => rfl, fun _ _ => rfl, by simp⟩
  | append_singleton is itm ih =>
    rw [map_append, nodup_append] at hn
    obtain ⟨hn, -, hd⟩ := hn
    have hp := ih hn
    have hf : itm.key ∉ is.map Item.key := fun h =>
      hd _ h _ (mem_singleton_self _) rfl
    rw [foldl_append, foldl_cons, foldl_nil]
    generalize is.foldl (acceptFacet now dev adopt) (state, []) = acc at hp ⊢
    -- Nothing has been published for this facet yet, so its slots merge as at the start.
    have ht : acc.1.topology = state.topology := hp.observes.topology
    have hm : mergeObservedSlots acc.1 itm.1 itm.2.1 = mergeObservedSlots state itm.1 itm.2.1 :=
      mergeObservedSlots_congr ht (hp.others itm.1 itm.2.1.kind hf)
    have hob : observationOf now acc.1 itm = observationOf now state itm := by
      rw [observationOf, hm, observationOf]
    have ha : adoptedOf now acc.1 itm = adoptedOf now state itm := by rw [adoptedOf, hm, adoptedOf]
    refine ⟨hp.observes.trans (acceptFacet_observes ..), ?_, ?_, ?_, ?_⟩
    · intro other ho
      rw [acceptFacet_observations, hob, Observations.insert]
      rcases mem_append.1 ho with ho | ho
      · have hne : ¬ (other.1 = itm.1 ∧ other.2.1.kind = itm.2.1.kind) := by
          rintro ⟨hta, hk⟩
          exact hf (mem_map.2 ⟨other, ho, Prod.ext hta hk⟩)
        rw [if_neg hne]
        exact hp.reported other ho
      · rw [mem_singleton.1 ho, if_pos ⟨rfl, rfl⟩]
    · intro target f hke
      rw [map_append, mem_append, not_or, map_singleton, mem_singleton] at hke
      have hne : ¬ (target = itm.1 ∧ f = itm.2.1.kind) := by
        rintro ⟨rfl, rfl⟩
        exact hke.2 rfl
      rw [acceptFacet_observations, Observations.insert, if_neg hne]
      exact hp.others target f hke.1
    · intro other ho
      rw [acceptFacet_status _ _ _ _ _ ho]
      exact hp.status other ho
    · rw [acceptFacet_adopted, hp.adopted]
      cases adopt with
      | false => rfl
      | true =>
        simp only [if_true, filter_append, map_append]
        refine congrArg _ (map_congr_left fun other ho => ?_)
        rw [mem_singleton.1 (mem_filter.1 ho).1]
        exact ha

def Unread (snapshot : PluginStateSnapshot) : Prop :=
  snapshot.observations = [] ∧ snapshot.errors ≠ []

instance (snapshot : PluginStateSnapshot) : Decidable (Unread snapshot) :=
  inferInstanceAs (Decidable (_ ∧ _))

section

variable (now : ℕ) (d : DeviceId) (snap : PluginStateSnapshot) (s : DaemonState)

theorem settleReconciliation_observations : (settleReconciliation now d snap s).observations =
      if Unread snap then markStale d s.observations else s.observations := by
  obtain ⟨obs, errors⟩ := snap
  unfold settleReconciliation Unread
  cases errors with
  | nil => simp [completeReconciliation, updateStatus]
  | cons e rest =>
    cases obs <;>
      simp [failReconciliation, partialReconciliationFailure, updateStatus]

theorem settleReconciliation_status (ho : other ≠ d) :
    (settleReconciliation now d snap s).deviceStatus other = s.deviceStatus other := by
  obtain ⟨obs, errors⟩ := snap
  unfold settleReconciliation
  cases errors with
  | nil => simp [completeReconciliation, updateStatus, ho]
  | cons e rest =>
    cases obs <;>
      simp [failReconciliation, partialReconciliationFailure, updateStatus, ho]

end

def Reports (snapshot : PluginStateSnapshot) (target : TargetId) (facet : StateFacetKind) : Prop :=
  ∃ observation ∈ snapshot.observations,
    canonicalTargetFromPlugin observation.target = .ok target ∧ observation.value.kind = facet

/-- The facet to adopt if it is advertised as exactly readable. -/
def exactFacet (now : ℕ) (state : DaemonState) (observation : PluginFacetObservation) :
    Option AdoptedFacet :=
  match canonicalTargetFromPlugin observation.target with
  | .error _ => none
  | .ok target =>
    if advertised state target observation.value.kind = some .exact then
      some ⟨target, mergeObservedSlots state target observation.value, now⟩
    else none

theorem reports_iff (h : Forall₂ (Stems state dev) snapshot.observations is) :
    Reports snapshot target f ↔ (target, f) ∈ is.map Item.key := by
  unfold Reports
  generalize snapshot.observations = observations at h
  induction h with
  | nil => simp
  | cons hs _ ih =>
    obtain ⟨ht, -, hv, -⟩ := hs
    rw [exists_mem_cons_iff, ih, map_cons, mem_cons, ht, hv, Except.ok.injEq, Prod.mk.injEq]
    exact or_congr_left (and_congr eq_comm eq_comm)

theorem adopted_eq (h : Forall₂ (Stems state dev) obs is) :
    (is.filter (·.2.2 = .exact)).map (adoptedOf now state) =
      obs.filterMap (exactFacet now state) := by
  induction h with
  | nil => rfl
  | @cons ob itm rest is hs _ ih =>
    obtain ⟨ht, -, hv, ha⟩ := hs
    have he : exactFacet now state ob =
        if itm.2.2 = .exact then some (adoptedOf now state itm) else none := by
      simp [exactFacet, ht, hv, ha, adoptedOf]
    by_cases hf : itm.2.2 = .exact
    · rw [filter_cons_of_pos (by simpa using hf), map_cons, ih,
        filterMap_cons_some (he.trans (if_pos hf))]
    · rw [filter_cons_of_neg (by simpa using hf), ih, filterMap_cons_none (he.trans (if_neg hf))]

structure Accepted (now : ℕ) (device : DeviceId) (snapshot : PluginStateSnapshot) (adopt : Bool)
    (state after : DaemonState) (adopted : List AdoptedFacet) : Prop where
  rest : after =
    { state with observations := after.observations, deviceStatus := after.deviceStatus }
  otherStatus : ∀ other, other ≠ device → after.deviceStatus other = state.deviceStatus other
  ownTargets : ∀ target facet, Reports snapshot target facet → target.deviceId = device
  reported : ∀ observation ∈ snapshot.observations, ∀ target,
    canonicalTargetFromPlugin observation.target = .ok target →
      ∃ fidelity, advertised state target observation.value.kind = some fidelity ∧
        after.observations target observation.value.kind =
          some (observationOf now state (target, observation.value, fidelity))
  unreported : ∀ target facet, ¬ Reports snapshot target facet →
    after.observations target facet =
      if Unread snapshot then markStale device state.observations target facet
      else state.observations target facet
  adopted : adopted = if adopt then snapshot.observations.filterMap (exactFacet now state) else []

theorem acceptSnapshot_accepted {state after : DaemonState} {snapshot : PluginStateSnapshot}
    {adopt : Bool} {adopted : List AdoptedFacet}
    (h : acceptSnapshot p now state dev gen snapshot adopt =
      .ok (after, adopted)) : Accepted now dev snapshot adopt state after adopted := by
  have hob := acceptSnapshot_observes h
  rw [acceptSnapshot, then_ok_iff] at h
  obtain ⟨is, hv, h⟩ := bind_ok_iff.1 h.2
  cases h
  rw [validatePluginSnapshot, then_ok_iff] at hv
  obtain ⟨hs, hn, -⟩ := validateObservations_ok hv.2
  have hp := published_all now dev adopt state hn
  refine ⟨hob, ?_, ?_, ?_, ?_, ?_⟩
  · intro other hot
    rw [settleReconciliation_status _ _ _ _ hot]
    exact hp.status other hot
  · intro target f hr
    obtain ⟨ob, ho, ht, -⟩ := hr
    obtain ⟨itm, -, hi, hd, -⟩ := exists_of_forall₂ hs ho
    rwa [Except.ok.inj (ht.symm.trans hi)]
  · intro ob ho target ht
    obtain ⟨⟨_, _, fidelity⟩, hm, hi, -, rfl, ha⟩ := exists_of_forall₂ hs ho
    cases ht.symm.trans hi
    have hre : ¬ Unread snapshot := fun hu => ne_nil_of_mem ho hu.1
    refine ⟨fidelity, ha, ?_⟩
    rw [settleReconciliation_observations, if_neg hre]
    exact hp.reported _ hm
  · intro target f hr
    rw [settleReconciliation_observations]
    have hsa := hp.others target f fun hk => hr ((reports_iff hs).2 hk)
    split
    · rw [markStale, hsa, markStale]
    · exact hsa
  · rw [hp.adopted, adopted_eq hs]

/-- A rejected snapshot changes nothing. An accepted one changes the observations it
reports and its device's status; only where the plugin could read nothing does it also
mark the device's other observations as stale. -/
theorem snapshot_is_atomic_and_framed (platform : Platform) (now : ℕ) (state : DaemonState)
    (device : DeviceId) (expectedGeneration : ℕ) (snapshot : PluginStateSnapshot) (adopt : Bool) :
    match
      call (acceptSnapshotMethod platform now device expectedGeneration snapshot adopt) state with
    | (.error _, after) => after = state
    | (.ok adopted, after) => Accepted now device snapshot adopt state after adopted := by
  rw [call_acceptSnapshot]
  cases h : acceptSnapshot platform now state device expectedGeneration snapshot adopt with
  | error error => rfl
  | ok accepted => exact acceptSnapshot_accepted h

namespace Sample

def lamp : Device where
  id := "lamp"
  capabilities := { stateReadback := .readable [⟨.brightness, .exact⟩] false false }

def state : DaemonState where
  topology := fromDevices [lamp]
  observations := Observations.insert (fun _ _ => none) (.device "lamp") .brightness
    ⟨.device "lamp", .brightness 7, .confirmed, .readback, 1, false⟩

def unread : PluginStateSnapshot where
  observations := []
  errors := [⟨.device "lamp", "timeout"⟩]

end Sample

open Sample in
open DesiredState.Sample (platform) in
/-- The brightness is not reported, yet its observation becomes stale. -/
theorem Counterexample.unreported_observation_changes :
    (call (acceptSnapshotMethod platform 2 "lamp" 0 unread true) state).1 = .ok [] ∧
      ¬ Reports unread (.device "lamp") .brightness ∧
      (call (acceptSnapshotMethod platform 2 "lamp" 0 unread true) state).2.observations
          (.device "lamp") .brightness ≠ state.observations (.device "lamp") .brightness := by
  refine ⟨by decide +kernel, ?_, by decide +kernel⟩
  rintro ⟨observation, ho, -⟩
  cases ho

end SnapshotAcceptance
