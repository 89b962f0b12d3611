import Luminate.SnapshotGenerations

/-! # Purging withdrawn devices

Six tables keep records of a device that is gone; only the three that are persisted decide
whether it is listed as withdrawn and whether a purge succeeds. -/
namespace WithdrawnDevices

open DeviceModel TargetTopology DaemonModel SnapshotGenerations Function List

def persistedDeviceIds (s : DaemonState) : List DeviceId :=
  s.targetState.map (·.target.deviceId) ++ s.adoptedBaseline.map (·.target.deviceId) ++
    s.pendingAdoption.map (·.target.deviceId)

def withdrawnDeviceIds (s : DaemonState) : List DeviceId :=
  ((persistedDeviceIds s).filter (!containsDevice s.topology ·)).dedup.mergeSort (· ≤ ·)

structure Forgotten (s : DaemonState) (d : DeviceId) : Prop where
  persisted : d ∉ persistedDeviceIds s
  observations : ∀ target kind, target.deviceId = d → s.observations target kind = none
  deviceStatus : s.deviceStatus d = none
  generations : s.generations d = none

structure SameElsewhere (s t : DaemonState) (d : DeviceId) : Prop where
  targetState : t.targetState.filter (·.target.deviceId != d) =
    s.targetState.filter (·.target.deviceId != d)
  adoptedBaseline : t.adoptedBaseline.filter (·.target.deviceId != d) =
    s.adoptedBaseline.filter (·.target.deviceId != d)
  pendingAdoption : t.pendingAdoption.filter (·.target.deviceId != d) =
    s.pendingAdoption.filter (·.target.deviceId != d)
  observations : ∀ target kind, target.deviceId ≠ d →
    t.observations target kind = s.observations target kind
  deviceStatus : ∀ other, other ≠ d → t.deviceStatus other = s.deviceStatus other
  generations : ∀ other, other ≠ d → t.generations other = s.generations other
  rest : { s with
    targetState := t.targetState, adoptedBaseline := t.adoptedBaseline
    pendingAdoption := t.pendingAdoption, observations := t.observations
    deviceStatus := t.deviceStatus, generations := t.generations } = t

/-- A purge succeeds for the listed devices, removes what is kept of them and nothing
else, and changes nothing where it fails. -/
def PurgesListed (s : DaemonState) (d : DeviceId) : Prop :=
  ((∃ n, (purgeWithdrawnDevice s d).1 = .ok n) ↔ d ∈ withdrawnDeviceIds s) ∧
  (∀ n, (purgeWithdrawnDevice s d).1 = .ok n → Forgotten (purgeWithdrawnDevice s d).2 d ∧
    SameElsewhere s (purgeWithdrawnDevice s d).2 d) ∧
  ∀ e, (purgeWithdrawnDevice s d).1 = .error e → (purgeWithdrawnDevice s d).2 = s

variable {s : DaemonState} {d : DeviceId}

theorem mem_withdrawnDeviceIds : d ∈ withdrawnDeviceIds s ↔
    d ∈ persistedDeviceIds s ∧ containsDevice s.topology d = false := by
  simp [withdrawnDeviceIds]

theorem forgotten_dropDevice : Forgotten (dropDevice s d) d where
  persisted := by simp [persistedDeviceIds, dropDevice]
  observations target kind h := if_pos h
  deviceStatus := update_self ..
  generations := update_self ..

theorem sameElsewhere_dropDevice : SameElsewhere s (dropDevice s d) d where
  targetState := filter_filter.trans (by simp)
  adoptedBaseline := filter_filter.trans (by simp)
  pendingAdoption := filter_filter.trans (by simp)
  observations target kind h := if_neg h
  deviceStatus other h := update_of_ne h ..
  generations other h := update_of_ne h ..
  rest := rfl

theorem forall_ne_iff {α : Type} {f : α → DeviceId} {l : List α} :
    (∀ a ∈ l, (f a != d) = true) ↔ d ∉ l.map f := by
  simp

theorem dropDevice_eq_self_iff : dropDevice s d = s ↔ Forgotten s d := by
  constructor
  · exact fun h => h ▸ forgotten_dropDevice
  · rintro ⟨hp, ho, hs, hg⟩
    simp only [persistedDeviceIds, mem_append, not_or, ← forall_ne_iff, ← filter_eq_self] at hp
    have hob : (fun target kind => if target.deviceId = d then none
        else s.observations target kind) = s.observations := by
      funext target kind
      split
      · next ht => exact (ho target kind ht).symm
      · rfl
    rw [dropDevice, hob, hp.1.1, hp.1.2, hp.2, ← hs, ← hg, update_eq_self, update_eq_self]

theorem purge_of_absent (h : containsDevice s.topology d = false) :
    (purgeWithdrawnDevice s d).2 = dropDevice s d ∧
      ((∃ n, (purgeWithdrawnDevice s d).1 = .ok n) ↔ d ∈ persistedDeviceIds s) := by
  rw [purgeWithdrawnDevice, if_neg (by simp [h])]
  refine ⟨rfl, ?_⟩
  have hle : ∀ {α : Type} (f : α → Bool) (l : List α), (l.filter f).length ≤ l.length :=
    fun f l => length_filter_le f l
  have hn : d ∉ persistedDeviceIds s ↔
      (s.targetState.length - (dropDevice s d).targetState.length) +
        (s.adoptedBaseline.length - (dropDevice s d).adoptedBaseline.length) +
        (s.pendingAdoption.length - (dropDevice s d).pendingAdoption.length) = 0 := by
    simp only [persistedDeviceIds, mem_append, not_or, ← forall_ne_iff,
      ← length_filter_eq_length_iff, dropDevice]
    have ht := hle (·.target.deviceId != d) s.targetState
    have ha := hle (·.target.deviceId != d) s.adoptedBaseline
    have hp := hle (·.target.deviceId != d) s.pendingAdoption
    omega
  dsimp only
  split
  · next hz =>
    have hno := hn.2 hz
    simp [hno]
  · next hs =>
    have hm := not_not.1 fun hno => hs (hn.1 hno)
    simp [hm]

/-- A purge does what the list of withdrawn devices says, unless an absent device is kept
only in the tables that are not persisted. -/
theorem purgesListed_iff (s : DaemonState) (d : DeviceId) : PurgesListed s d ↔
    containsDevice s.topology d = true ∨ d ∈ withdrawnDeviceIds s ∨ Forgotten s d := by
  by_cases hin : containsDevice s.topology d = true
  · simp [PurgesListed, purgeWithdrawnDevice, mem_withdrawnDeviceIds, hin]
  rw [Bool.not_eq_true] at hin
  obtain ⟨hd, hok⟩ := purge_of_absent hin
  simp only [PurgesListed, mem_withdrawnDeviceIds, hin, hok, hd, and_true, Bool.false_eq_true,
    false_or, true_and]
  constructor
  · rintro ⟨_, her⟩
    by_cases hp : d ∈ persistedDeviceIds s
    · exact .inl hp
    · cases hr : (purgeWithdrawnDevice s d).1 with
      | ok n => exact .inl (hok.1 ⟨n, hr⟩)
      | error e => exact .inr (dropDevice_eq_self_iff.1 (her e hr))
  · intro h
    refine ⟨fun _ _ => ⟨forgotten_dropDevice, sameElsewhere_dropDevice⟩, fun e he => ?_⟩
    obtain hp | hf := h
    · obtain ⟨n, hn⟩ := hok.2 hp
      rw [hn] at he
      cases he
    · exact dropDevice_eq_self_iff.2 hf

/-- The lamp is gone and nothing of it is persisted; the purge is refused and has still
removed its generation. -/
theorem refused_purge_forgets :
    let s : DaemonState :=
      { topology := fromDevices [], generations := Function.update (fun _ => none) "lamp" (some 1) }
    (purgeWithdrawnDevice s "lamp").1 = .error (.targetNotFound (.device "lamp")) ∧
      "lamp" ∉ withdrawnDeviceIds s ∧ (purgeWithdrawnDevice s "lamp").2.generations "lamp" = none ∧
      s.generations "lamp" = some 1 :=
  ⟨rfl, by simp [mem_withdrawnDeviceIds, persistedDeviceIds], rfl, rfl⟩

end WithdrawnDevices
