import Luminate.DesiredState
import Luminate.FrameStreams
import Luminate.TopologyInterleaving

/-! # The daemon's copy of the topology

The plugin manager commits a topology and reports it to the request that asked for it.
The request later writes the reported devices to the daemon, under another lock. -/
namespace TopologyAgreement

open DeviceModel DaemonModel Normalization PluginOwnership PluginTopology
open TopologyInterleaving (TaskId Task moves_of_update)

abbrev Manager := TopologyInterleaving.State

inductive RescanReason where
  | resume
  | deviceChange
  | operator
  deriving DecidableEq

/-- A rescan also reconciles the devices that stayed as they were: their state may be lost. -/
def devicesToReconcile (changed owned : List DeviceId) (reason : Option RescanReason) :
    List DeviceId :=
  if reason = some .resume ∨ reason = some .operator then
    (owned ++ changed).eraseDups.insertionSort (· ≤ ·)
  else changed

def ownerName (manager : Manager) (device : DeviceId) : Option String :=
  manager.topology.ownerByDevice[device]?.bind fun owner =>
    (manager.loaded.find? (·.id == owner)).map (·.metadata.name)

inductive Kind where
  | coordinator (plugin : String) (reason : Option RescanReason)
  | unloadPlugin (name : String)
  | reloadPlugin (name : String)
  | patchManagement
  deriving DecidableEq

inductive Request where
  | idle
  | running (kind : Kind) (topology : Option TopologyReconcile)
  | writing (kind : Kind) (topology : TopologyReconcile)
  deriving DecidableEq

def Request.kind : Request → Option Kind
  | .idle => none
  | .running kind _ | .writing kind _ => some kind

/-- There is one coordinator, and a patch holds the management lock. -/
def Kind.excludes : Kind → Kind → Bool
  | .coordinator .., .coordinator .. | .patchManagement, .patchManagement => true
  | _, _ => false

/-- The operations of the plugin manager that a request makes: one, except for a patch. -/
def Request.runs : Request → TopologyInterleaving.Action → Bool
  | .running (.coordinator plugin _) none, .reconcile _ name => name == plugin
  | .running (.coordinator ..) none, .commitReconcile .. => true
  | .running (.coordinator ..) none, .abandon _ => true
  | .running (.unloadPlugin name) none, .unload _ unloaded => unloaded == name
  | .running (.unloadPlugin _) none, .readRemaining _ => true
  | .running (.unloadPlugin _) none, .commitUnload _ => true
  | .running (.reloadPlugin name) none, .reload _ reloaded => reloaded == name
  | .running (.reloadPlugin _) none, .restart .. => true
  | .running (.reloadPlugin _) none, .push _ => true
  | .running (.reloadPlugin _) none, .readRemaining _ => true
  | .running (.reloadPlugin _) none, .commitReload _ => true
  | .running .patchManagement _, .unload .. => true
  | .running .patchManagement _, .readRemaining _ => true
  | .running .patchManagement _, .commitUnload _ => true
  | .running .patchManagement _, .load .. => true
  | .running .patchManagement _, .lockLoaded _ => true
  | .running .patchManagement _, .commitActivate _ => true
  | .running .patchManagement _, .abandon _ => true
  | _, _ => false

/-- A patch keeps the latest devices and everything that has changed on the way. -/
def collected (topology : Option TopologyReconcile) (result : TopologyReconcile) :
    TopologyReconcile :=
  match topology with
  | none => result
  | some earlier => ⟨result.devices, earlier.changedDevices ∪ result.changedDevices⟩

/-- The coordinator stops where there is nothing to reconcile. -/
def Kind.proceeds (manager : Manager) (topology : TopologyReconcile) : Kind → Bool
  | .coordinator plugin reason =>
    let owned := (topology.devices.map (·.id)).filter fun id =>
      ownerName manager id == some plugin
    !(devicesToReconcile topology.changedDevices owned reason).isEmpty
  | _ => true

def writeTopology (platform : Platform) (topology : TopologyReconcile) (daemon : DaemonState) :
    DaemonState :=
  if topology.changedDevices.isEmpty then daemon
  else FrameStreams.replaceDevices platform topology.devices daemon

structure State where
  manager : Manager
  daemon : DaemonState
  requests : TaskId → Request := fun _ => .idle

def State.update (s : State) (c : TaskId) (request : Request) : State :=
  { s with requests := Function.update s.requests c request }

inductive Action where
  | begin (c : TaskId) (kind : Kind)
  | operate (c : TaskId) (action : TopologyInterleaving.Action)
  /-- The manager's operation returns its result. -/
  | collect (c : TaskId)
  /-- The request has made all its operations. -/
  | prepare (c : TaskId)
  | write (c : TaskId)

def operator : TopologyInterleaving.Action → TaskId
  | .reconcile c _ | .commitReconcile c _ | .unload c _ | .readRemaining c | .commitUnload c
  | .reload c _ | .restart c _ | .push c | .commitReload c | .load c .. | .lockLoaded c
  | .commitActivate c | .abandon c | .finish c => c

inductive Step (platform : Platform) : State → Action → State → Prop where
  | begin {s c kind} (idle : s.requests c = .idle)
      (free : ∀ d other, (s.requests d).kind = some other → kind.excludes other = false) :
      Step platform s (.begin c kind) (s.update c (.running kind none))
  | operate {s c action manager} (own : operator action = c)
      (runs : (s.requests c).runs action = true)
      (step : TopologyInterleaving.Step s.manager action manager) :
      Step platform s (.operate c action) { s with manager }
  | collect {s c kind topology result} (running : s.requests c = .running kind topology)
      (task : s.manager.tasks c = .committed result) :
      Step platform s (.collect c)
        (State.update { s with manager := s.manager.update c .idle } c
          (.running kind (some (collected topology result))))
  | prepare {s c kind topology} (running : s.requests c = .running kind (some topology))
      (task : s.manager.tasks c = .idle) (proceeds : kind.proceeds s.manager topology = true) :
      Step platform s (.prepare c) (s.update c (.writing kind topology))
  | stop {s c kind topology} (running : s.requests c = .running kind (some topology))
      (task : s.manager.tasks c = .idle) (stops : kind.proceeds s.manager topology = false) :
      Step platform s (.prepare c) (s.update c .idle)
  /-- No operation has succeeded. -/
  | fail {s c kind} (running : s.requests c = .running kind none)
      (task : s.manager.tasks c = .idle) :
      Step platform s (.prepare c) (s.update c .idle)
  | write {s c kind topology} (writing : s.requests c = .writing kind topology) :
      Step platform s (.write c)
        (State.update { s with daemon := writeTopology platform topology s.daemon } c .idle)

def result : Task → Option TopologyReconcile
  | .committed result => some result
  | _ => none

/-- The topology a request is about to write, as far as it is known. -/
def pending (s : State) (c : TaskId) : Option TopologyReconcile :=
  match s.requests c with
  | .idle => none
  | .running _ topology =>
    match result (s.manager.tasks c) with
    | none => topology
    | some result => some (collected topology result)
  | .writing _ topology => some topology

/-- The daemon has the devices that the manager's descriptors normalize to. -/
def Agrees (topology : PluginTopologyState) (daemon : DaemonState) : Prop :=
  ∃ devices, normalizeDevices topology.owned = .ok devices ∧
    daemon.topology.devices = (TargetTopology.fromDevices devices).devices

def Quiet (s : State) : Prop := ∀ c, s.requests c = .idle

def commits : TopologyInterleaving.Action → Bool
  | .commitReconcile .. | .commitUnload _ | .commitReload _ | .commitActivate _ => true
  | _ => false

/-- The manager commits a topology for one request while no other has one to write. -/
def Guard (s : State) : Action → Prop
  | .operate c action => commits action = true → ∀ d, d ≠ c → pending s d = none
  | _ => True

structure Initial (s : State) : Prop where
  quiet : Quiet s
  resting : ∀ c, s.manager.tasks c = .idle
  agrees : Agrees s.manager.topology s.daemon

/-- What a request is about to write is what the manager has; where it reports no change
the daemon has it too. -/
structure Current (s : State) (topology : TopologyReconcile) : Prop where
  normalized : normalizeDevices s.manager.topology.owned = .ok topology.devices
  unchanged : topology.changedDevices = [] → Agrees s.manager.topology s.daemon

structure Invariant (s : State) : Prop where
  resting : ∀ c, (∀ kind topology, s.requests c ≠ .running kind topology) →
    s.manager.tasks c = .idle
  current : ∀ c topology, pending s c = some topology → Current s topology
  alone : ∀ c d, (pending s c).isSome = true → (pending s d).isSome = true → c = d
  settled : (∀ c, pending s c = none) → Agrees s.manager.topology s.daemon

theorem devicesToReconcile_eq_nil (h : devicesToReconcile ch owned reason = []) : ch = [] := by
  unfold devicesToReconcile at h
  split at h
  · have hn : (owned ++ ch).eraseDups = [] :=
      List.Perm.nil_eq (h ▸ List.perm_insertionSort _ _) |>.symm
    rw [List.eq_nil_iff_forall_not_mem]
    intro id hid
    have hm : id ∈ (owned ++ ch).eraseDups := List.mem_eraseDups.2 (List.mem_append_right _ hid)
    rw [hn] at hm
    cases hm
  · exact h

theorem Kind.unchanged_of_stops {kind : Kind} (h : kind.proceeds mgr topology = false) :
    topology.changedDevices = [] := by
  cases kind with
  | coordinator plugin reason =>
    simp only [Kind.proceeds, Bool.not_eq_false', List.isEmpty_iff] at h
    exact devicesToReconcile_eq_nil h
  | unloadPlugin | reloadPlugin | patchManagement => cases h

theorem collected_devices (result : TopologyReconcile) :
    (collected topology result).devices = result.devices := by
  cases topology <;> rfl

theorem collected_unchanged {result : TopologyReconcile}
    (h : (collected topology result).changedDevices = []) :
    result.changedDevices = [] ∧ ∀ old, topology = some old → old.changedDevices = [] := by
  cases topology with
  | none =>
    refine ⟨h, fun old hn => ?_⟩
    cases hn
  | some old =>
    have hn : ∀ id, id ∉ old.changedDevices ∪ result.changedDevices :=
      List.eq_nil_iff_forall_not_mem.1 h
    simp only [List.mem_union_iff, not_or] at hn
    refine ⟨List.eq_nil_iff_forall_not_mem.2 fun id => (hn id).2, ?_⟩
    rintro _ ⟨⟩
    exact List.eq_nil_iff_forall_not_mem.2 fun id => (hn id).1

theorem runs_not_finish {req : Request} (h : req.runs a = true) : ∀ c, a ≠ .finish c := by
  rintro c rfl
  cases req with
  | idle | writing => cases h
  | running kind topology => cases kind <;> cases topology <;> cases h

theorem running_of_runs {req : Request} (h : req.runs a = true) :
    ∃ kind topology, req = .running kind topology := by
  cases req with
  | idle | writing => cases h
  | running kind topology => exact ⟨kind, topology, rfl⟩

/-- What an operation of the manager does: its own task goes on, and the topology
changes only where it commits. -/
structure Advances (m n : Manager) (c : TaskId) (commits : Bool) : Prop where
  others : ∀ d, d ≠ c → n.tasks d = m.tasks d
  unreported : result (m.tasks c) = none
  outcome : result (n.tasks c) = none ∧ n.topology = m.topology ∨
    commits = true ∧ ∃ r, result (n.tasks c) = some r ∧ Committed m.topology r n.topology

theorem advances_to (hb : m.tasks c = pre)
    (ht : n.tasks = Function.update m.tasks c after) (hto : n.topology = m.topology)
    (hu : result pre = none) (ha : result after = none) (commits : Bool) :
    Advances m n c commits where
  others := (moves_of_update ht).others
  unreported := by rw [hb, hu]
  outcome := .inl ⟨by rw [(moves_of_update ht).self, ha], hto⟩

theorem advances_commit (hb : m.tasks c = pre)
    (ht : n.tasks = Function.update m.tasks c (.committed r))
    (hc : Committed m.topology r n.topology) (hu : result pre = none) : Advances m n c true where
  others := (moves_of_update ht).others
  unreported := by rw [hb, hu]
  outcome := .inr ⟨rfl, r, by rw [(moves_of_update ht).self]; rfl, hc⟩

/-- Seen from the daemon, a step of the manager advances one task and may commit. -/
theorem manager_step (h : TopologyInterleaving.Step m a n) (hf : ∀ c, a ≠ .finish c) :
    Advances m n (operator a) (commits a) := by
  cases h with
  | reconcile task | unload task | reload task | load task | reconcileFails task
  | readRemaining task | unloadFails task | restart task | restartFails task | push task
  | readReloaded task | reloadFails task | lockLoaded task | activateFails task
  | abandonReconcile task | abandonActivate task =>
    exact advances_to task (by rfl) (by rfl) (by rfl) (by rfl) _
  | commitReconcile task _ commit => exact advances_commit task rfl (rebuild_ok commit).1 rfl
  | commitUnload task commit => exact advances_commit task rfl (rebuild_ok commit).1 rfl
  | commitReload task commit => exact advances_commit task rfl (rebuild_ok commit).1 rfl
  | commitActivate task commit => exact advances_commit task rfl (commitActivate_ok commit).1 rfl
  | finish => exact absurd rfl (hf _)

structure Touches (s t : State) (c : TaskId) : Prop where
  requests : ∀ d, d ≠ c → t.requests d = s.requests d
  tasks : ∀ d, d ≠ c → t.manager.tasks d = s.manager.tasks d
  resting : (∀ kind topology, t.requests c ≠ .running kind topology) → t.manager.tasks c = .idle

theorem touches_update (hr : t.requests = Function.update s.requests c req)
    (ht : ∀ d, d ≠ c → t.manager.tasks d = s.manager.tasks d)
    (hre : (∀ kind topology, req ≠ .running kind topology) →
      t.manager.tasks c = .idle) : Touches s t c where
  requests d hd := by rw [hr, Function.update_of_ne hd]
  tasks := ht
  resting hru := hre (by simpa [hr] using hru)

theorem Touches.pending (ht : Touches s t c) (hd : d ≠ c) : pending t d = pending s d := by
  simp only [TopologyAgreement.pending, ht.requests d hd, ht.tasks d hd]

theorem Touches.rest (ht : Touches s t c) (h : Invariant s) (d : TaskId)
    (hd : ∀ kind topology, t.requests d ≠ .running kind topology) : t.manager.tasks d = .idle := by
  by_cases hdc : d = c
  · subst hdc
    exact ht.resting hd
  · rw [ht.tasks d hdc]
    exact h.resting d fun kind topology => ht.requests d hdc ▸ hd kind topology

theorem pending_running (hr : s.requests c = .running kind topology)
    (ht : result (s.manager.tasks c) = none) : pending s c = topology := by
  simp only [pending, hr, ht]

theorem pending_writing (hr : s.requests c = .writing kind topology) :
    pending s c = some topology := by
  simp only [pending, hr]

theorem Current.keep (h : Current s topology) (ht : t.manager.topology = s.manager.topology)
    (hd : t.daemon = s.daemon) : Current t topology := by
  refine ⟨?_, fun hu => ?_⟩
  · rw [ht]
    exact h.normalized
  · rw [ht, hd]
    exact h.unchanged hu

theorem Invariant.keep (h : Invariant s) (ht : Touches s t c) (hs : pending t c = pending s c)
    (hto : t.manager.topology = s.manager.topology) (hda : t.daemon = s.daemon) : Invariant t := by
  have hp : ∀ d, pending t d = pending s d := by
    intro d
    by_cases hd : d = c
    · rw [hd, hs]
    · exact ht.pending hd
  refine ⟨ht.rest h, fun d topology hd => ?_, fun d e hd he => ?_, fun hn => ?_⟩
  · exact (h.current d topology (hp d ▸ hd)).keep hto hda
  · exact h.alone d e (hp d ▸ hd) (hp e ▸ he)
  · rw [hto, hda]
    exact h.settled fun d => (hp d).symm.trans (hn d)

theorem Invariant.release (h : Invariant s) (ht : Touches s t c) (hc : pending s c = some topology)
    (hr : pending t c = none) (ha : Agrees t.manager.topology t.daemon) : Invariant t := by
  have hn : ∀ d, pending t d = none := by
    intro d
    by_cases hd : d = c
    · rw [hd, hr]
    · rw [ht.pending hd]
      by_contra hs
      exact hd (h.alone d c (Option.isSome_iff_ne_none.2 hs) (by rw [hc]; rfl))
  refine ⟨ht.rest h, fun d topology hd => ?_, fun d e hd => ?_, fun _ => ha⟩
  all_goals
    rw [hn d] at hd
    cases hd

theorem Agrees.commit {next : PluginTopologyState} (h : Agrees topology dm)
    (hc : Committed topology r next) (hu : r.changedDevices = []) : Agrees next dm := by
  obtain ⟨ds, hd, hda⟩ := h
  obtain ⟨prev, hp, hch⟩ := hc.changed
  obtain rfl : ds = prev := Except.ok.inj (hd.symm.trans hp)
  refine ⟨r.devices, hc.normalized, hda.trans ?_⟩
  exact devices_eq_of_unchanged (hch.symm.trans hu)

theorem agrees_write (h : Invariant s) (hc : pending s c = some topology) :
    Agrees s.manager.topology (writeTopology p topology s.daemon) := by
  have hcu := h.current c topology hc
  unfold writeTopology
  split
  · next he => exact hcu.unchanged (List.isEmpty_iff.1 he)
  · exact ⟨topology.devices, hcu.normalized, rfl⟩

theorem Invariant.commit (h : Invariant s) (ht : Touches s t c) {r : TopologyReconcile}
    (hco : Committed s.manager.topology r t.manager.topology)
    (hc : pending t c = some (collected (pending s c) r))
    (hn : ∀ d, d ≠ c → pending s d = none) (hda : t.daemon = s.daemon) : Invariant t := by
  have hse : ∀ d topology, pending t d = some topology →
      d = c ∧ topology = collected (pending s c) r := by
    intro d topology hd
    by_cases hdc : d = c
    · subst hdc
      exact ⟨rfl, Option.some.inj (hd.symm.trans hc)⟩
    · rw [ht.pending hdc, hn d hdc] at hd
      cases hd
  refine ⟨ht.rest h, ?_, ?_, ?_⟩
  · intro d topology hd
    obtain ⟨rfl, rfl⟩ := hse d topology hd
    refine ⟨by rw [collected_devices, hco.normalized], fun hu => ?_⟩
    obtain ⟨hr, hea⟩ := collected_unchanged hu
    have hb : Agrees s.manager.topology s.daemon := by
      cases hp : pending s d with
      | none =>
        refine h.settled fun e => ?_
        by_cases he : e = d
        · rw [he, hp]
        · exact hn e he
      | some old => exact (h.current d old hp).unchanged (hea old hp)
    rw [hda]
    exact hb.commit hco hr
  · intro d e hd he
    obtain ⟨topology, hd⟩ := Option.isSome_iff_exists.1 hd
    obtain ⟨other, he⟩ := Option.isSome_iff_exists.1 he
    rw [(hse d topology hd).1, (hse e other he).1]
  · intro hs
    rw [hs c] at hc
    cases hc

theorem Invariant.operate (h : Invariant s) {a : TopologyInterleaving.Action}
    (hg : commits a = true → ∀ d, d ≠ c → pending s d = none) (hru : (s.requests c).runs a = true)
    (hm : Advances s.manager manager c (commits a)) : Invariant { s with manager } := by
  obtain ⟨kind, topology, hr⟩ := running_of_runs hru
  have ht : Touches s { s with manager } c :=
    ⟨fun _ _ => rfl, hm.others, fun hn => absurd hr (hn kind topology)⟩
  have hb : pending s c = topology := pending_running hr hm.unreported
  rcases hm.outcome with ⟨hu, hto⟩ | ⟨hco, r, hre, hc⟩
  · refine h.keep ht ?_ hto rfl
    rw [hb]
    exact pending_running hr hu
  · refine h.commit ht hc ?_ (hg hco) rfl
    rw [hb]
    simp only [pending, hr, hre]

theorem step_invariant (p : Platform) {a : Action} (h : Invariant s)
    (hg : Guard s a) (hs : Step p s a t) : Invariant t := by
  cases hs with
  | begin idle =>
    have hre := h.resting _ fun _ _ hr => by
      rw [idle] at hr
      cases hr
    refine h.keep (touches_update rfl (fun _ _ => rfl) fun _ => hre) ?_ rfl rfl
    rw [pending_running (Function.update_self ..) (by rw [State.update, hre]; rfl)]
    simp only [pending, idle]
  | operate own runs step =>
    subst own
    exact h.operate hg runs (manager_step step (runs_not_finish runs))
  | collect running task =>
    refine h.keep (touches_update rfl (moves_of_update rfl).others fun hn =>
      absurd rfl (hn _ _)) ?_ rfl rfl
    rw [pending_running (Function.update_self ..) (by
      simp [State.update, TopologyInterleaving.State.update, result])]
    simp only [pending, running, task, result]
  | prepare running task =>
    refine h.keep (touches_update rfl (fun _ _ => rfl) fun _ => task) ?_ rfl rfl
    rw [pending_running running (by rw [task]; rfl)]
    simp [pending, State.update]
  | stop running task stops =>
    have hp := pending_running running (by rw [task]; rfl)
    refine h.release (touches_update rfl (fun _ _ => rfl) fun _ => task) hp ?_ ?_
    · simp [pending, State.update]
    · exact (h.current _ _ hp).unchanged (Kind.unchanged_of_stops stops)
  | fail running task =>
    refine h.keep (touches_update rfl (fun _ _ => rfl) fun _ => task) ?_ rfl rfl
    rw [pending_running running (by rw [task]; rfl)]
    simp [pending, State.update]
  | write writing =>
    have hre := h.resting _ fun _ _ hr => by
      rw [writing] at hr
      cases hr
    refine h.release (touches_update rfl (fun _ _ => rfl) fun _ => hre)
      (pending_writing writing) ?_ ?_
    · simp [pending, State.update]
    · exact agrees_write h (pending_writing writing)

theorem initial_invariant (h : Initial s) : Invariant s := by
  have hn : ∀ c, pending s c = none := fun c => by simp only [pending, h.quiet c]
  refine ⟨fun c _ => h.resting c, fun c topology hc => ?_, fun c d hc => ?_, fun _ => h.agrees⟩
  all_goals
    rw [hn c] at hc
    cases hc

/-- Between requests the daemon has the devices of the plugin manager. -/
theorem quiet_daemon_agrees (platform : Platform) (s : State)
    (h : Transition.Reachable Initial (Step platform) Guard s) (hquiet : Quiet s) :
    Agrees s.manager.topology s.daemon := by
  have hi := h.holds Invariant (fun _ => initial_invariant)
    fun _ _ _ hs hg => step_invariant platform hs hg
  exact hi.settled fun c => by simp only [pending, hquiet c]

namespace Sample

open DesiredState.Sample (platform)
open TopologyInterleaving.Sample (lamp lampDevice)

abbrev Run (guard : State → Action → Prop) : State → Prop :=
  Transition.Reachable Initial (Step platform) guard

def unloaded (s : State) (c : TaskId) (name : String) (removed : LoadedPlugin)
    (r : TopologyReconcile) (topology : PluginTopologyState) : State :=
  let loaded := s.manager.loaded.eraseP (·.metadata.name == name)
  let manager := { s.manager with loaded }.update c (.unloaded removed)
  let manager := manager.update c (.unloading removed loaded)
  { s with
    manager := { manager with topology }.update c (.committed r)
    requests := Function.update s.requests c (.running (.unloadPlugin name) none) }

def written (s : State) (c : TaskId) (name : String) (r : TopologyReconcile) : State :=
  let told := State.update { s with manager := s.manager.update c .idle } c
    (.running (.unloadPlugin name) (some r))
  let ready := told.update c (.writing (.unloadPlugin name) r)
  State.update { ready with daemon := writeTopology platform r ready.daemon } c .idle

section

variable {guard : State → Action → Prop} {s : State} {c : TaskId} {name : String}
  {removed : LoadedPlugin} {r : TopologyReconcile} {topo : PluginTopologyState}

theorem unload_run (h : Run guard s) (hb : guard s (.begin c (.unloadPlugin name)))
    (hg : ∀ mgr a, (∀ d, d ≠ c → mgr.tasks d = s.manager.tasks d) →
      guard ⟨mgr, s.daemon, Function.update s.requests c (.running (.unloadPlugin name) none)⟩
        (.operate c a))
    (hr : s.requests c = .idle) (hta : s.manager.tasks c = .idle) (hfr : s.manager.writer = none)
    (hf : s.manager.loaded.find? (·.metadata.name == name) = some removed)
    (hc : commitUnload removed.id (s.manager.loaded.eraseP (·.metadata.name == name))
      s.manager.topology = .ok (r, topo)) :
    Run guard (unloaded s c name removed r topo) := by
  have hbe : Run guard _ := h.step hb (.begin hr fun _ _ _ => rfl)
  have hru : ∀ a, (Request.running (.unloadPlugin name) none).runs a = true →
      (Function.update s.requests c (.running (.unloadPlugin name) none) c).runs a = true := by
    intro a ha
    rwa [Function.update_self]
  have hu : Run guard _ := hbe.step (l := Action.operate c (.unload c name)) (hg _ _ fun _ _ => rfl)
    (.operate rfl (hru _ (beq_self_eq_true name)) (.unload hta hfr hf))
  have ho : ∀ (tasks : TaskId → Task) t, (∀ d, d ≠ c → tasks d = s.manager.tasks d) →
      ∀ d, d ≠ c → Function.update tasks c t d = s.manager.tasks d := by
    intro tasks t ht d hd
    rw [Function.update_of_ne hd, ht d hd]
  have hre : Run guard _ := hu.step (l := Action.operate c (.readRemaining c))
    (hg _ _ (ho _ _ fun _ _ => rfl))
    (.operate rfl (hru _ rfl) (.readRemaining (Function.update_self ..) hfr))
  exact hre.step (l := Action.operate c (.commitUnload c)) (hg _ _ (ho _ _ (ho _ _ fun _ _ => rfl)))
    (.operate rfl (hru _ rfl) (.commitUnload (Function.update_self ..) hc))

theorem write_run (h : Run guard s) (hg : ∀ u, guard u (.collect c) ∧ guard u (.prepare c) ∧
      guard u (.write c))
    (hr : s.requests c = .running (.unloadPlugin name) none)
    (ht : s.manager.tasks c = .committed r) : Run guard (written s c name r) := by
  have hc : Run guard _ := h.step (hg _).1 (.collect hr ht)
  have hp : Run guard _ := hc.step (hg _).2.1
    (.prepare (Function.update_self ..) (Function.update_self ..) rfl)
  exact hp.step (hg _).2.2 (.write (Function.update_self ..))

end

def strip : DeviceDescriptor := { id := "strip", name := "Light strip" }

def stripDevice : Device := ⟨"strip", [], [], {}⟩

def alpha : LoadedPlugin := ⟨0, "alpha", 0⟩

def beta : LoadedPlugin := ⟨1, "beta", 0⟩

def started : State where
  manager := {
    loaded := [alpha, beta]
    topology := ⟨[(0, [lamp]), (1, [strip])], ownersOf [(0, [lamp]), (1, [strip])] [alpha, beta]⟩
    nextId := 2 }
  daemon := fromDevices [lampDevice, stripDevice]

theorem started_normalizes :
    normalizeDevices started.manager.topology.owned = .ok [lampDevice, stripDevice] := by
  decide +kernel

theorem started_initial : Initial started where
  quiet _ := rfl
  resting _ := rfl
  agrees := ⟨_, started_normalizes, rfl⟩

def withoutLamp : TopologyReconcile :=
  ⟨[stripDevice], changedDeviceIds [lampDevice, stripDevice] [stripDevice]⟩

def stripOnly : PluginTopologyState := ⟨[(1, [strip])], ownersOf [(1, [strip])] [beta]⟩

theorem strip_normalizes : normalizeDevices stripOnly.owned = .ok [stripDevice] := by
  decide +kernel

theorem commit_withoutLamp :
    commitUnload 0 [beta] started.manager.topology = .ok (withoutLamp, stripOnly) :=
  rebuild_eq started_normalizes strip_normalizes

def lampUnloaded : State := unloaded started 0 "alpha" alpha withoutLamp stripOnly

end Sample

open Sample in
/-- The lamp's plugin is unloaded and the daemon lists the strip alone. -/
theorem daemon_agrees_after_unload :
    Agrees stripOnly (written lampUnloaded 0 "alpha" withoutLamp).daemon := by
  have hu : Run Guard lampUnloaded := by
    refine unload_run (.initial started_initial) trivial (fun manager action _ _ d hd => ?_)
      rfl rfl rfl rfl commit_withoutLamp
    simp only [pending, Function.update_of_ne hd]
    rfl
  have hw : Run Guard (written lampUnloaded 0 "alpha" withoutLamp) :=
    write_run hu (fun _ => ⟨trivial, trivial, trivial⟩) rfl rfl
  exact quiet_daemon_agrees _ _ hw fun c => by cases c <;> rfl

namespace Counterexample

open Sample

def withoutStrip : TopologyReconcile := ⟨[], changedDeviceIds [stripDevice] []⟩

def bothUnloaded : State := unloaded lampUnloaded 1 "beta" beta withoutStrip ⟨[], ownersOf [] []⟩

def overtaken : State := written (written bothUnloaded 1 "beta" withoutStrip) 0 "alpha" withoutLamp

theorem overtaken_reachable : Run (fun _ _ => True) overtaken := by
  have hl : Run (fun _ _ => True) lampUnloaded :=
    unload_run (.initial started_initial) trivial (fun _ _ _ => trivial) rfl rfl rfl rfl
      commit_withoutLamp
  have hb : Run (fun _ _ => True) bothUnloaded :=
    unload_run hl trivial (fun _ _ _ => trivial) rfl rfl rfl rfl
      (rebuild_eq strip_normalizes (by decide +kernel))
  have hw : Run (fun _ _ => True) (written bothUnloaded 1 "beta" withoutStrip) :=
    write_run hb (fun _ => ⟨trivial, trivial, trivial⟩) rfl rfl
  exact write_run hw (fun _ => ⟨trivial, trivial, trivial⟩) rfl rfl

theorem lamp_changed : withoutLamp.changedDevices.isEmpty = false := by
  refine List.isEmpty_eq_false_iff.2 fun hu => ?_
  have hl := congrArg (·["lamp"]?.isSome) (devices_eq_of_unchanged hu)
  exact absurd hl (by decide)

/-- Two clients unload a plugin each. The list that the first was told still has the
strip; it is written last, and the daemon keeps a device no plugin has. -/
theorem unloaded_device_stays : Run (fun _ _ => True) overtaken ∧ Quiet overtaken ∧
      ¬ Agrees overtaken.manager.topology overtaken.daemon := by
  refine ⟨overtaken_reachable, fun c => ?_, ?_⟩
  · rcases c with _ | _ | c <;> rfl
  · rintro ⟨devices, hde, hd⟩
    obtain rfl : [] = devices := Except.ok.inj hde
    have hw : overtaken.daemon.topology = TargetTopology.fromDevices [stripDevice] := by
      show (writeTopology _ withoutLamp _).topology = _
      rw [writeTopology, lamp_changed]
      rfl
    rw [hw] at hd
    exact absurd (congrArg (·["strip"]?.isSome) hd) (by decide)

end Counterexample

end TopologyAgreement
