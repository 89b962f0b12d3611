import Luminate.FrameStreams
import Luminate.Reconciliation

/-! # Snapshot generations

A read of a device captures the device's generation, and its snapshot is accepted only
while the device still has that generation. Every mutation reserves the next one. -/
namespace SnapshotGenerations

open DeviceModel TargetTopology DaemonModel Adoption Function

def reserveGeneration (state : DaemonState) (device : DeviceId) : DaemonState :=
  { state with
    generations := update state.generations device
      (some ((generation state device + 1) % 2 ^ 64)) }

/-- Everything retained for the device goes, its generation included. -/
def dropDevice (state : DaemonState) (device : DeviceId) : DaemonState :=
  { state with
    targetState := state.targetState.filter (·.target.deviceId != device)
    adoptedBaseline := state.adoptedBaseline.filter (·.target.deviceId != device)
    pendingAdoption := state.pendingAdoption.filter (·.target.deviceId != device)
    observations := fun target kind =>
      if target.deviceId = device then none else state.observations target kind
    deviceStatus := update state.deviceStatus device none
    generations := update state.generations device none }

/-- Where nothing was persisted the device is reported as unknown; the records that
are not persisted are gone even then. -/
def purgeWithdrawnDevice (state : DaemonState) (device : DeviceId) :
    Except DaemonError ℕ × DaemonState :=
  if containsDevice state.topology device then
    (.error (.invalidArgument (.device device)
      "device is present; only withdrawn-device state can be purged"), state)
  else
    let kept := dropDevice state device
    let removed := (state.targetState.length - kept.targetState.length) +
      (state.adoptedBaseline.length - kept.adoptedBaseline.length) +
      (state.pendingAdoption.length - kept.pendingAdoption.length)
    (if removed = 0 then .error (.targetNotFound (.device device)) else .ok removed, kept)

abbrev ReadId := ℕ

/-- A read under way. `superseded`: the device's generation was reserved since. -/
structure Read where
  device : DeviceId
  generation : ℕ
  superseded : Bool
  deriving DecidableEq

structure State where
  daemon : DaemonState
  reads : ReadId → Option Read := fun _ => none

def State.begin (s : State) (read : ReadId) (captured : Read) : State :=
  { s with reads := update s.reads read (some captured) }

def State.drop (s : State) (read : ReadId) : State :=
  { s with reads := update s.reads read none }

@[simp] theorem State.begin_self (s : State) (read : ReadId) (cap : Read) :
    (s.begin read cap).reads read = some cap := update_self ..

@[simp] theorem State.drop_self (s : State) (read : ReadId) : (s.drop read).reads read = none :=
  update_self ..

inductive Action where
  | capture (read : ReadId) (device : DeviceId)
  | reserveGeneration (device : DeviceId)
  | purgeWithdrawnDevice (device : DeviceId)
  | replaceDevices (devices : List Device)
  | acceptSnapshot (read : ReadId) (now : ℕ) (snapshot : PluginStateSnapshot) (adopt : Bool)
  /-- The hardware could not be read. -/
  | abandon (read : ReadId)

def supersede (device : DeviceId) (read : Read) : Read :=
  if read.device = device then { read with superseded := true } else read

section

variable (platform : Platform)

def answer (s : State) (read : Read) (now : ℕ) (snapshot : PluginStateSnapshot) (adopt : Bool) :
    Except DaemonError (DaemonState × List AdoptedFacet) :=
  acceptSnapshot platform now s.daemon read.device read.generation snapshot adopt

def next (s : State) : Action → State
  | .capture read device => s.begin read ⟨device, generation s.daemon device, false⟩
  | .reserveGeneration device =>
    { daemon := SnapshotGenerations.reserveGeneration s.daemon device
      reads := fun read => (s.reads read).map (supersede device) }
  | .purgeWithdrawnDevice device =>
    { s with daemon := (SnapshotGenerations.purgeWithdrawnDevice s.daemon device).2 }
  | .replaceDevices devices =>
    { s with daemon := FrameStreams.replaceDevices platform devices s.daemon }
  | .acceptSnapshot read now snapshot adopt =>
    match s.reads read with
    | none => s
    | some captured =>
      match answer platform s captured now snapshot adopt with
      | .ok (daemon, _) => { s with daemon }.drop read
      | .error _ => s.drop read
  | .abandon read => s.drop read

def Step (s : State) (action : Action) (t : State) : Prop := next platform s action = t

def Initial (s : State) : Prop := ∀ read, s.reads read = none

/-- A reservation gives the device no generation that a read under way has captured, and
a purge does not put it back to the one of a superseded read. -/
def Guard (s : State) : Action → Prop
  | .reserveGeneration device => ∀ read captured, s.reads read = some captured →
      captured.device = device → captured.generation ≠ (generation s.daemon device + 1) % 2 ^ 64
  | .purgeWithdrawnDevice device => ∀ read captured, s.reads read = some captured →
      captured.device = device → captured.superseded = true → captured.generation ≠ 0
  | _ => True

/-- The snapshot of a superseded read carries another generation than the device has. -/
def Outdated (s : State) : Prop :=
  ∀ read captured, s.reads read = some captured → captured.superseded = true →
    generation s.daemon captured.device ≠ captured.generation

end

theorem generation_reserve : generation (reserveGeneration state d) other =
      if other = d then (generation state d + 1) % 2 ^ 64
      else generation state other := by
  by_cases h : other = d
  · subst h
    simp [generation, reserveGeneration]
  · simp [generation, reserveGeneration, h]

theorem generation_purge :
    generation (purgeWithdrawnDevice state d).2 other = generation state other ∨
      other = d ∧ generation (purgeWithdrawnDevice state d).2 other = 0 := by
  unfold purgeWithdrawnDevice
  split
  · exact .inl rfl
  · by_cases h : other = d
    · exact .inr ⟨h, by simp [generation, dropDevice, h]⟩
    · exact .inl (by simp [generation, dropDevice, h])

section

variable (h : Outdated s)

include h

theorem Outdated.keep (hr : ∀ read cap, t.reads read = some cap → s.reads read = some cap)
    (hg : ∀ d, generation t.daemon d = generation s.daemon d) : Outdated t := by
  intro read cap hre hs
  rw [hg]
  exact h read cap (hr read cap hre) hs

theorem Outdated.drop (read : ReadId) : Outdated (s.drop read) := by
  refine h.keep (fun other cap ho => ?_) fun _ => rfl
  by_cases hr : other = read
  · rw [hr, State.drop_self] at ho
    cases ho
  · exact (update_of_ne hr ..).symm.trans ho

theorem outdated_capture (read : ReadId) :
    Outdated (s.begin read ⟨d, generation s.daemon d, false⟩) := by
  intro other cap ho hs
  by_cases hr : other = read
  · rw [hr, State.begin_self] at ho
    cases ho
    cases hs
  · exact h other cap ((update_of_ne hr ..).symm.trans ho) hs

theorem outdated_reserve (hgu : Guard s (.reserveGeneration d)) :
    Outdated { daemon := reserveGeneration s.daemon d
               reads := fun read => (s.reads read).map (supersede d) } := by
  intro read cap hr hs
  obtain ⟨pre, hb, rfl⟩ := Option.map_eq_some_iff.1 hr
  rw [generation_reserve]
  by_cases hd : pre.device = d
  · have hsa : (supersede d pre).device = d := by simp [supersede, hd]
    have hg : (supersede d pre).generation = pre.generation := by simp [supersede, hd]
    rw [if_pos hsa, hg]
    exact (hgu read pre hb hd).symm
  · have ho : supersede d pre = pre := by simp [supersede, hd]
    rw [ho] at hs ⊢
    rw [if_neg hd]
    exact h read pre hb hs

theorem outdated_purge (hg : Guard s (.purgeWithdrawnDevice d)) :
    Outdated { s with daemon := (purgeWithdrawnDevice s.daemon d).2 } := by
  intro read cap hr hs
  rcases generation_purge with hk | ⟨hd, hz⟩
  · rw [hk]
    exact h read cap hr hs
  · rw [hz]
    exact (hg read cap hr hd hs).symm

theorem outdated_next (hg : Guard s a) : Outdated (next platform s a) := by
  cases a with
  | capture read d => exact outdated_capture h read
  | reserveGeneration d => exact outdated_reserve h hg
  | purgeWithdrawnDevice d => exact outdated_purge h hg
  | replaceDevices ds => exact h.keep (fun _ _ hr => hr) fun _ => rfl
  | acceptSnapshot read now snapshot adopt =>
    unfold next
    dsimp only
    split
    · exact h
    · split
      next after _ hok =>
        have hk : Outdated { s with daemon := after } := h.keep (fun _ _ hr => hr) fun other => by
            rw [acceptSnapshot_observes hok]
            rfl
        exact hk.drop read
      next => exact h.drop read
  | abandon read => exact h.drop read

end

/-- The snapshot of a read is refused once the generation of its device was reserved. -/
theorem superseded_reads_are_refused (platform : Platform) (s : State)
    (h : Transition.Reachable Initial (Step platform) Guard s) (read : ReadId) (captured : Read)
    (hread : s.reads read = some captured) (hsuperseded : captured.superseded = true) (now : ℕ)
    (snapshot : PluginStateSnapshot) (adopt : Bool) :
    answer platform s captured now snapshot adopt =
      .error (.internal "discarded stale state snapshot after a newer mutation") := by
  have ho : Outdated s := by
    refine h.holds Outdated (fun u hu read captured hread => ?_) fun u action t hu hgu hs => ?_
    · rw [hu read] at hread
      cases hread
    · cases hs
      exact outdated_next hu hgu
  have hg := ho read captured hread hsuperseded
  simp [answer, acceptSnapshot, Checks.ensure, hg]

namespace Sample

open DesiredState.Sample (platform)
open Reconciliation (lamp)

abbrev after (s : State) (action : Action) : State := next platform s action

def started : State where
  daemon := {
    topology := fromDevices [lamp]
    targetState := [⟨.device "lamp", .effect (.static (.rgb ⟨0, 0, 255⟩))⟩] }

def reading : State := after started (.capture 0 "lamp")

def overtaken : State := after reading (.reserveGeneration "lamp")

def first : Read := ⟨"lamp", 0, true⟩

end Sample

open Sample Reconciliation in
/-- A mutation of the lamp begins while it is read. -/
theorem overtaken_read_is_refused :
    answer DesiredState.Sample.platform overtaken first 0 (snapshot [lampRed]) true =
      .error (.internal "discarded stale state snapshot after a newer mutation") := by
  have hr : Transition.Reachable Initial (Step DesiredState.Sample.platform) Guard reading :=
    .step (l := Action.capture 0 "lamp") (.initial (s := started) fun _ => rfl) trivial rfl
  have hg : Guard reading (.reserveGeneration "lamp") := by
    intro read captured hre _
    cases read with
    | zero =>
      cases hre
      decide
    | succ read => cases hre
  exact superseded_reads_are_refused _ overtaken (hr.step hg rfl) 0 first rfl rfl 0
    (snapshot [lampRed]) true

namespace Counterexample

open Sample Reconciliation

/-- The lamp is withdrawn, its state is purged, and it returns. -/
def returned : State :=
  after (after (after (after reading (.replaceDevices [])) (.reserveGeneration "lamp"))
    (.purgeWithdrawnDevice "lamp")) (.replaceDevices [lamp])

/-- The purge puts the lamp's generation back to what a read from before has captured;
its snapshot is accepted. -/
theorem read_from_before_purge_is_accepted :
    Transition.Reachable Initial (Step DesiredState.Sample.platform) (fun _ _ => True) returned ∧
      returned.reads 0 = some first ∧
      (answer DesiredState.Sample.platform returned first 0 (snapshot [lampRed]) true).isOk =
        true := by
  refine ⟨?_, rfl, by decide +kernel⟩
  have hre : Transition.Reachable Initial (Step DesiredState.Sample.platform)
      (fun _ _ => True) reading :=
    .step (l := Action.capture 0 "lamp") (.initial (s := started) fun _ => rfl) trivial rfl
  have hw := hre.step (l := Action.replaceDevices []) trivial rfl
  have hr := hw.step (l := Action.reserveGeneration "lamp") trivial rfl
  have hp := hr.step (l := Action.purgeWithdrawnDevice "lamp") trivial rfl
  exact hp.step (l := Action.replaceDevices [lamp]) trivial rfl

end Counterexample

end SnapshotGenerations
