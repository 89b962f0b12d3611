import Luminate.DeviceModel
import Luminate.Transition
import Luminate.WaitFor
import Mathlib.Data.List.Dedup
import Mathlib.Data.List.Sort
import Mathlib.Data.String.Basic

/-! # Device sequencers

`daemon/executor.rs`: a job takes a mutex for each device it names, in the order of the
device identifiers, and keeps them while its body runs. The mutexes are in a map; a job
holds references to its own, and entries nobody refers to are pruned. -/
namespace DeviceSequencers

open DeviceModel List Function

abbrev JobId := ℕ

/-- A mutex: the device it was made for, and the number it was made under. -/
abbrev Sequencer := DeviceId × ℕ

abbrev names (sequencers : List Sequencer) : List DeviceId := sequencers.map (·.1)

structure Registry where
  sequencers : DeviceId → Option ℕ := fun _ => none
  made : ℕ := 0

def Registry.entry (registry : Registry) (device : DeviceId) : Sequencer × Registry :=
  match registry.sequencers device with
  | some number => ((device, number), registry)
  | none =>
    ((device, registry.made),
      { sequencers := update registry.sequencers device (some registry.made)
        made := registry.made + 1 })

/-- References to the sequencers of a list of devices, taken under the lock of the map. -/
def Registry.clone : List DeviceId → Registry → List Sequencer × Registry
  | [], registry => ([], registry)
  | device :: devices, registry =>
    let (sequencer, registry) := registry.entry device
    let (sequencers, registry) := registry.clone devices
    (sequencer :: sequencers, registry)

def Registry.pruneDeviceSequencers (active : List DeviceId) (inUse : Sequencer → Bool)
    (registry : Registry) : Registry :=
  { registry with
    sequencers := fun device => (registry.sequencers device).filter fun number =>
      active.contains device || inUse (device, number) }

def normalizeDevices (devices : List DeviceId) : List DeviceId :=
  (devices.insertionSort (· ≤ ·)).dedup

/-- How far a job has come, with the sequencers it has locked, those it has still to lock
in this order, and those it refers to. -/
inductive Phase where
  | idle
  | submitted
  | locking (held waiting : List Sequencer)
  | running (held : List Sequencer)
  /-- The topology coordinator asks for the sequencers of devices that have appeared. -/
  | extending (held new waiting : List Sequencer)
  | extended (held new references : List Sequencer)
  | releasing (held references : List Sequencer)

structure Job where
  coordinator : Bool := false
  devices : List DeviceId := []
  phase : Phase := .idle

def Phase.held : Phase → List Sequencer
  | .idle | .submitted => []
  | .locking held _ | .running held | .releasing held _ => held
  | .extending held new _ | .extended held new _ => held ++ new

def Phase.waiting : Phase → List Sequencer
  | .locking _ waiting | .extending _ _ waiting => waiting
  | _ => []

def Phase.references : Phase → List Sequencer
  | .idle | .submitted => []
  | .locking held waiting => held ++ waiting
  | .running held => held
  | .extending held new waiting => held ++ (new ++ waiting)
  | .extended held _ references => held ++ references
  | .releasing _ references => references

def Phase.executing : Phase → Bool
  | .running _ | .extending .. | .extended .. => true
  | _ => false

structure State where
  registry : Registry := {}
  jobs : JobId → Job := fun _ => {}

def State.put (s : State) (j : JobId) (job : Job) : State :=
  { s with jobs := update s.jobs j job }

def State.advance (s : State) (j : JobId) (phase : Phase) : State := s.put j { s.jobs j with phase }

def Free (s : State) (sequencer : Sequencer) : Prop := ∀ j, sequencer ∉ (s.jobs j).phase.held

inductive Action where
  | submit (j : JobId) (coordinator : Bool) (devices : List DeviceId)
  | clone (j : JobId)
  | lock (j : JobId)
  | start (j : JobId)
  | extend (j : JobId) (changed : List DeviceId)
  | release (j : JobId)
  | finish (j : JobId)
  | prune (active : List DeviceId)

inductive Step : State → Action → State → Prop where
  /-- There is one coordinator, and it makes one pass at a time. -/
  | submit {s j coordinator devices} (idle : (s.jobs j).phase = .idle)
      (single : coordinator = true →
        ∀ k, (s.jobs k).coordinator = true → (s.jobs k).phase = .idle) :
      Step s (.submit j coordinator devices)
        (s.put j ⟨coordinator, normalizeDevices devices, .submitted⟩)
  | clone {s j} (submitted : (s.jobs j).phase = .submitted) :
      Step s (.clone j)
        ({ s with registry := (s.registry.clone (s.jobs j).devices).2 }.advance j
          (.locking [] (s.registry.clone (s.jobs j).devices).1))
  | lock {s j held sequencer waiting}
      (locking : (s.jobs j).phase = .locking held (sequencer :: waiting))
      (free : Free s sequencer) :
      Step s (.lock j) (s.advance j (.locking (held ++ [sequencer]) waiting))
  | start {s j held} (locking : (s.jobs j).phase = .locking held []) :
      Step s (.start j) (s.advance j (.running held))
  | extend {s j held changed added} (running : (s.jobs j).phase = .running held)
      (coordinator : (s.jobs j).coordinator = true)
      (new : added = normalizeDevices (changed.filter (· ∉ (s.jobs j).devices))) :
      Step s (.extend j changed)
        ({ s with registry := (s.registry.clone added).2 }.advance j
          (.extending held [] (s.registry.clone added).1))
  | lockNew {s j held new sequencer waiting}
      (extending : (s.jobs j).phase = .extending held new (sequencer :: waiting))
      (free : Free s sequencer) :
      Step s (.lock j) (s.advance j (.extending held (new ++ [sequencer]) waiting))
  | startNew {s j held new} (extending : (s.jobs j).phase = .extending held new []) :
      Step s (.start j) (s.advance j (.extended held new new))
  /-- The guards of the new devices end before the job does. -/
  | unlockNew {s j held new references sequencer}
      (extended : (s.jobs j).phase = .extended held new references) (locked : sequencer ∈ new) :
      Step s (.release j) (s.advance j (.extended held (new.erase sequencer) references))
  | dropNew {s j held references sequencer}
      (extended : (s.jobs j).phase = .extended held [] references)
      (referred : sequencer ∈ references) :
      Step s (.release j) (s.advance j (.extended held [] (references.erase sequencer)))
  | finish {s j held} (running : (s.jobs j).phase = .running held) :
      Step s (.finish j) (s.advance j (.releasing held held))
  | finishNew {s j held} (extended : (s.jobs j).phase = .extended held [] []) :
      Step s (.finish j) (s.advance j (.releasing held held))
  | unlock {s j held references sequencer}
      (releasing : (s.jobs j).phase = .releasing held references) (locked : sequencer ∈ held) :
      Step s (.release j) (s.advance j (.releasing (held.erase sequencer) references))
  | drop {s j references sequencer} (releasing : (s.jobs j).phase = .releasing [] references)
      (referred : sequencer ∈ references) :
      Step s (.release j) (s.advance j (.releasing [] (references.erase sequencer)))
  | done {s j} (releasing : (s.jobs j).phase = .releasing [] []) :
      Step s (.finish j) (s.put j {})
  | prune {s active inUse}
      (counted : ∀ sequencer, inUse sequencer = true ↔
        ∃ j, sequencer ∈ (s.jobs j).phase.references) :
      Step s (.prune active)
        { s with registry := s.registry.pruneDeviceSequencers active inUse }

def Initial (s : State) : Prop := ∀ j, s.jobs j = {}

/-- The job has still to take sequencers of the devices it was given. -/
def Phase.acquiring : Phase → Bool
  | .submitted | .locking .. => true
  | _ => false

/-- A device that appears and that another job names while it acquires its sequencers comes
after every device the coordinator holds. -/
def Guard (s : State) : Action → Prop
  | .extend j changed => ∀ device ∈ changed, device ∉ (s.jobs j).devices →
      ∀ k, (s.jobs k).phase.acquiring = true → device ∈ (s.jobs k).devices →
        ∀ known ∈ (s.jobs j).devices, known < device
  | .submit _ _ devices => ∀ j held new waiting, (s.jobs j).phase = .extending held new waiting →
      ∀ device ∈ names waiting, device ∈ devices → ∀ known ∈ (s.jobs j).devices, known < device
  | _ => True

def Phase.Covers (devices : List DeviceId) : Phase → Prop
  | .locking held waiting => names (held ++ waiting) = devices
  | .running held | .extending held _ _ | .extended held _ _ => names held = devices
  | _ => True

structure JobInvariant (registry : Registry) (job : Job) : Prop where
  sorted : job.devices.Pairwise (· < ·)
  covers : job.phase.Covers job.devices
  current : ∀ sequencer ∈ job.phase.references,
    registry.sequencers sequencer.1 = some sequencer.2
  referred : job.phase.held ⊆ job.phase.references
  extending : ∀ held new waiting, job.phase = .extending held new waiting →
    job.coordinator = true ∧ (names (new ++ waiting)).Pairwise (· < ·) ∧
      ∀ sequencer ∈ waiting, sequencer.1 ∉ job.devices

structure Invariant (s : State) : Prop where
  jobs : ∀ j, JobInvariant s.registry (s.jobs j)
  exclusive : ∀ j k sequencer, sequencer ∈ (s.jobs j).phase.held →
    sequencer ∈ (s.jobs k).phase.held → j = k
  single : ∀ j k, (s.jobs j).coordinator = true → (s.jobs k).coordinator = true →
    (s.jobs j).phase ≠ .idle → (s.jobs k).phase ≠ .idle → j = k

def Registry.Extends (before after : Registry) : Prop :=
  ∀ device number, before.sequencers device = some number → after.sequencers device = some number

section

variable (registry : Registry)

include registry

theorem Registry.Extends.refl : registry.Extends registry := fun _ _ h => h

theorem Registry.entry_extends (d : DeviceId) : registry.Extends (registry.entry d).2 := by
  intro other number h
  unfold Registry.entry
  split
  · exact h
  next hv =>
    have ho : other ≠ d := by
      rintro rfl
      rw [hv] at h
      cases h
    simpa [update_of_ne ho] using h

theorem Registry.entry_current (d : DeviceId) : (registry.entry d).1.1 = d ∧
      (registry.entry d).2.sequencers d = some (registry.entry d).1.2 := by
  unfold Registry.entry
  split
  next hn => exact ⟨rfl, hn⟩
  next => exact ⟨rfl, by simp⟩

theorem Registry.clone_cons :
    registry.clone (d :: ds) = ((registry.entry d).1 :: ((registry.entry d).2.clone ds).1,
        ((registry.entry d).2.clone ds).2) := rfl

theorem Registry.clone_extends (ds : List DeviceId) : registry.Extends (registry.clone ds).2 := by
  induction ds generalizing registry with
  | nil => exact Registry.Extends.refl registry
  | cons d ds ih =>
    intro other number h
    exact ih _ other number (registry.entry_extends d other number h)

theorem Registry.names_clone (ds : List DeviceId) : names (registry.clone ds).1 = ds := by
  induction ds generalizing registry with
  | nil => rfl
  | cons d ds ih =>
    rw [Registry.clone_cons, names, map_cons, (registry.entry_current d).1]
    exact congrArg (d :: ·) (ih _)

theorem Registry.clone_current (ds : List DeviceId) :
    ∀ seq ∈ (registry.clone ds).1, (registry.clone ds).2.sequencers seq.1 = some seq.2 := by
  induction ds generalizing registry with
  | nil => exact fun _ h => absurd h not_mem_nil
  | cons d ds ih =>
    intro seq h
    rw [Registry.clone_cons] at h ⊢
    rcases mem_cons.1 h with rfl | h
    · obtain ⟨hn, hc⟩ := registry.entry_current d
      rw [hn]
      exact (registry.entry d).2.clone_extends ds d _ hc
    · exact ih _ seq h

end

theorem normalizeDevices_sorted : (normalizeDevices ds).Pairwise (· < ·) := by
  have hs : (normalizeDevices ds).Pairwise (· ≤ ·) :=
    (pairwise_insertionSort (· ≤ ·) ds).sublist (dedup_sublist _)
  have hn : (normalizeDevices ds).Nodup := nodup_dedup _
  exact hs.imp₂ (fun _ _ => lt_of_le_of_ne) hn

theorem mem_normalizeDevices : d ∈ normalizeDevices ds ↔ d ∈ ds := by
  simp [normalizeDevices]

variable {job : Job} {s : State}

theorem JobInvariant.extends {pre after : Registry} (h : JobInvariant pre job)
    (he : pre.Extends after) : JobInvariant after job where
  sorted := h.sorted
  covers := h.covers
  current sequencer hs := he _ _ (h.current sequencer hs)
  referred := h.referred
  extending := h.extending

theorem jobInvariant_idle : JobInvariant registry {} where
  sorted := Pairwise.nil
  covers := trivial
  current _ h := absurd h not_mem_nil
  referred := nil_subset _
  extending _ _ _ h := by cases h

theorem JobInvariant.advance (h : JobInvariant registry job) (hc : phase.Covers job.devices)
    (hr : phase.references ⊆ job.phase.references) (hh : phase.held ⊆ phase.references)
    (he : ∀ held new waiting, phase = .extending held new waiting →
      job.coordinator = true ∧ (names (new ++ waiting)).Pairwise (· < ·) ∧
        ∀ seq ∈ waiting, seq.1 ∉ job.devices) : JobInvariant registry { job with phase } where
  sorted := h.sorted
  covers := hc
  current seq hs := h.current seq (hr hs)
  referred := hh
  extending := he

theorem State.put_self (s : State) (j : JobId) (job : Job) : (s.put j job).jobs j = job :=
  update_self ..

theorem State.put_of_ne (h : k ≠ j) : (s.put j job).jobs k = s.jobs k := update_of_ne h ..

section

variable (h : Invariant s)

include h

theorem Invariant.put (he : s.registry.Extends registry) (hj : JobInvariant registry job)
    (hh : ∀ seq ∈ job.phase.held, seq ∈ (s.jobs j).phase.held ∨ Free s seq)
    (hs : job.coordinator = true → job.phase ≠ .idle →
      ∀ k, k ≠ j → (s.jobs k).coordinator = true → (s.jobs k).phase = .idle) :
    Invariant ({ s with registry }.put j job) := by
  have hke : ∀ k, k ≠ j → ({ s with registry }.put j job).jobs k = s.jobs k :=
    fun k hk => State.put_of_ne hk
  have hse := State.put_self { s with registry } j job
  refine ⟨fun k => ?_, fun k l seq hk hl => ?_, fun k l hk hl hk' hl' => ?_⟩
  · by_cases hkj : k = j
    · rw [hkj, hse]
      exact hj
    · rw [hke k hkj]
      exact (h.jobs k).extends he
  · have ho : ∀ m, m ≠ j → seq ∈ (s.jobs m).phase.held → seq ∉ job.phase.held := by
      intro m hm hme hn
      rcases hh seq hn with hol | hf
      · exact hm (h.exclusive m j seq hme hol)
      · exact hf m hme
    by_cases hkj : k = j <;> by_cases hlj : l = j
    · rw [hkj, hlj]
    · rw [hkj, hse] at hk
      rw [hke l hlj] at hl
      exact absurd hk (ho l hlj hl)
    · rw [hlj, hse] at hl
      rw [hke k hkj] at hk
      exact absurd hl (ho k hkj hk)
    · rw [hke k hkj] at hk
      rw [hke l hlj] at hl
      exact h.exclusive k l seq hk hl
  · by_cases hkj : k = j <;> by_cases hlj : l = j
    · rw [hkj, hlj]
    · rw [hkj, hse] at hk hk'
      rw [hke l hlj] at hl hl'
      exact absurd (hs hk hk' l hlj hl) hl'
    · rw [hlj, hse] at hl hl'
      rw [hke k hkj] at hk hk'
      exact absurd (hs hl hl' k hkj hk) hk'
    · rw [hke k hkj] at hk hk'
      rw [hke l hlj] at hl hl'
      exact h.single k l hk hl hk' hl'

theorem Invariant.advance (he : s.registry.Extends registry)
    (hj : JobInvariant registry { s.jobs j with phase })
    (hh : ∀ seq ∈ phase.held, seq ∈ (s.jobs j).phase.held ∨ Free s seq)
    (hi : (s.jobs j).phase ≠ .idle) : Invariant ({ s with registry }.advance j phase) := by
  refine h.put he hj hh fun hc _ k hk ho => ?_
  by_contra hb
  exact hk (h.single k j ho hc hb hi)

theorem Invariant.submit (ds : List DeviceId)
    (hs : coordinator = true → ∀ k, (s.jobs k).coordinator = true → (s.jobs k).phase = .idle) :
    Invariant (s.put j ⟨coordinator, normalizeDevices ds, .submitted⟩) := by
  refine h.put (Registry.Extends.refl _) ?_ (fun _ hh => absurd hh not_mem_nil)
    fun hc _ k _ => hs hc k
  exact ⟨normalizeDevices_sorted, trivial, fun _ hm => absurd hm not_mem_nil,
    nil_subset _, fun _ _ _ heq => by cases heq⟩

theorem Invariant.clone (hs : (s.jobs j).phase = .submitted) :
    Invariant ({ s with registry := (s.registry.clone (s.jobs j).devices).2 }.advance j
      (.locking [] (s.registry.clone (s.jobs j).devices).1)) := by
  refine h.advance (s.registry.clone_extends _) ?_ (fun _ hh => absurd hh not_mem_nil)
    (by simp [hs])
  exact ⟨(h.jobs j).sorted, s.registry.names_clone _, s.registry.clone_current _,
    nil_subset _, fun _ _ _ heq => by cases heq⟩

theorem Invariant.lock (hl : (s.jobs j).phase = .locking held (seq :: waiting)) (hf : Free s seq) :
    Invariant (s.advance j (.locking (held ++ [seq]) waiting)) := by
  have hs : (held ++ [seq]) ++ waiting = held ++ seq :: waiting := by simp
  have hc := (h.jobs j).covers
  rw [hl] at hc
  refine h.advance (Registry.Extends.refl _) ?_ (fun other ho => ?_) (by simp [hl])
  · refine (h.jobs j).advance ?_ ?_ (subset_append_left _ _) fun _ _ _ heq => by cases heq
    · show names (_ ++ _) = _
      rw [hs]
      exact hc
    · rw [hl]
      show (held ++ [seq]) ++ waiting ⊆ _
      rw [hs]
      exact Subset.refl _
  · rw [hl]
    rcases mem_append.1 ho with hol | hn
    · exact .inl hol
    · obtain rfl := mem_singleton.1 hn
      exact .inr hf

theorem Invariant.extend (hr : (s.jobs j).phase = .running held)
    (hc : (s.jobs j).coordinator = true) (hso : added.Pairwise (· < ·))
    (hn : ∀ d ∈ added, d ∉ (s.jobs j).devices) :
    Invariant ({ s with registry := (s.registry.clone added).2 }.advance j
      (.extending held [] (s.registry.clone added).1)) := by
  have hj := (h.jobs j).extends (s.registry.clone_extends added)
  have hco := hj.covers
  have hcu := hj.current
  rw [hr] at hco hcu
  refine h.advance (s.registry.clone_extends added) ?_ (fun other ho => ?_) (by simp [hr])
  · refine ⟨hj.sorted, hco, fun seq hs => ?_, ?_, ?_⟩
    · rcases mem_append.1 hs with hol | hcl
      · exact hcu seq hol
      · exact s.registry.clone_current added seq hcl
    · show held ++ [] ⊆ _
      rw [append_nil]
      exact subset_append_left _ _
    · rintro _ _ _ ⟨⟩
      refine ⟨hc, ?_, fun seq hs => ?_⟩
      · rw [nil_append, s.registry.names_clone]
        exact hso
      · apply hn _
        rw [← s.registry.names_clone added]
        exact mem_map_of_mem hs
  · rw [hr]
    exact .inl (by simpa [Phase.held] using ho)

theorem Invariant.lockNew (he : (s.jobs j).phase = .extending held new (seq :: waiting))
    (hf : Free s seq) : Invariant (s.advance j (.extending held (new ++ [seq]) waiting)) := by
  have hs : (new ++ [seq]) ++ waiting = new ++ seq :: waiting := by simp
  have hco := (h.jobs j).covers
  rw [he] at hco
  obtain ⟨hc, hso, hn⟩ := (h.jobs j).extending _ _ _ he
  refine h.advance (Registry.Extends.refl _) ?_ (fun other ho => ?_) (by simp [he])
  · refine (h.jobs j).advance hco ?_ ?_ ?_
    · rw [he]
      show held ++ ((new ++ [seq]) ++ waiting) ⊆ _
      rw [hs]
      exact Subset.refl _
    · exact append_subset.2 ⟨subset_append_left _ _, fun _ hme =>
        mem_append_right _ (mem_append_left _ hme)⟩
    · rintro _ _ _ ⟨⟩
      refine ⟨hc, ?_, fun other ho => hn other (mem_cons_of_mem _ ho)⟩
      rw [hs]
      exact hso
  · rw [he]
    rcases mem_append.1 ho with hol | hm
    · exact .inl (mem_append_left _ hol)
    · rcases mem_append.1 hm with hol | hl
      · exact .inl (mem_append_right _ hol)
      · obtain rfl := mem_singleton.1 hl
        exact .inr hf

theorem Invariant.relax (hb : (s.jobs j).phase = pre) (hi : pre ≠ .idle)
    (hc : pre.Covers (s.jobs j).devices → phase.Covers (s.jobs j).devices)
    (hr : phase.references ⊆ pre.references) (hh : phase.held ⊆ pre.held)
    (hre : pre.held ⊆ pre.references → phase.held ⊆ phase.references)
    (he : ∀ held new waiting, phase ≠ .extending held new waiting) :
    Invariant (s.advance j phase) := by
  subst hb
  refine h.advance (Registry.Extends.refl _) ?_ (fun _ hm => .inl (hh hm)) hi
  exact (h.jobs j).advance (hc (h.jobs j).covers) hr (hre (h.jobs j).referred)
    fun held new waiting heq => absurd heq (he held new waiting)

theorem Invariant.prune (hc : ∀ seq, inUse seq = true ↔ ∃ j, seq ∈ (s.jobs j).phase.references) :
    Invariant { s with registry := s.registry.pruneDeviceSequencers active inUse } := by
  refine ⟨fun k => ?_, h.exclusive, h.single⟩
  refine ⟨(h.jobs k).sorted, (h.jobs k).covers, fun seq hs => ?_,
    (h.jobs k).referred, (h.jobs k).extending⟩
  have hu : inUse seq = true := (hc seq).2 ⟨k, hs⟩
  show ((s.registry.sequencers seq.1).filter _) = some seq.2
  rw [(h.jobs k).current seq hs, Option.filter_some_pos]
  rw [hu, Bool.or_true]

end

theorem append_erase_subset (held : List Sequencer) : held ++ new.erase seq ⊆ held ++ new :=
  append_subset.2 ⟨subset_append_left _ _, Subset.trans erase_subset (subset_append_right _ _)⟩

theorem step_invariant (h : Invariant s) (hs : Step s a t) : Invariant t := by
  cases hs with
  | submit _ single => exact h.submit _ single
  | clone submitted => exact h.clone submitted
  | lock locking free => exact h.lock locking free
  | start locking =>
    refine h.relax locking (by simp) (fun hco => ?_) ?_ (Subset.refl _)
      (fun _ => Subset.refl _) (by simp)
    · simpa [Phase.Covers] using hco
    · simp [Phase.references]
  | extend running coordinator new =>
    subst new
    refine h.extend running coordinator normalizeDevices_sorted fun d hd => ?_
    simpa using (mem_filter.1 (mem_normalizeDevices.1 hd)).2
  | lockNew extending free => exact h.lockNew extending free
  | startNew extending =>
    refine h.relax extending (by simp) id ?_ (Subset.refl _) (fun _ => Subset.refl _) (by simp)
    simp [Phase.references]
  | unlockNew extended =>
    exact h.relax extended (by simp) id (Subset.refl _) (append_erase_subset _)
      (fun hr => Subset.trans (append_erase_subset _) hr) (by simp)
  | dropNew extended =>
    refine h.relax extended (by simp) id (append_erase_subset _) (Subset.refl _)
      (fun _ => ?_) (by simp)
    simp [Phase.held, Phase.references]
  | finish running =>
    exact h.relax running (by simp) (fun _ => trivial) (Subset.refl _) (Subset.refl _)
      (fun _ => Subset.refl _) (by simp)
  | finishNew extended =>
    exact h.relax extended (by simp) (fun _ => trivial) (subset_append_left _ _)
      (subset_append_left _ _) (fun _ => Subset.refl _) (by simp)
  | unlock releasing =>
    exact h.relax releasing (by simp) (fun _ => trivial) (Subset.refl _) erase_subset
      (fun hr => Subset.trans erase_subset hr) (by simp)
  | drop releasing =>
    exact h.relax releasing (by simp) (fun _ => trivial) erase_subset (Subset.refl _)
      (fun _ => nil_subset _) (by simp)
  | done =>
    exact h.put (Registry.Extends.refl _) jobInvariant_idle
      (fun _ hh => absurd hh not_mem_nil) fun hc => by cases hc
  | prune counted => exact h.prune counted

theorem initial_invariant (h : Initial s) : Invariant s where
  jobs j := by
    rw [h j]
    exact jobInvariant_idle
  exclusive j k sequencer hj := by
    rw [h j] at hj
    cases hj
  single j k hj := by
    rw [h j] at hj
    cases hj

namespace Sample

abbrev Run : State → Prop := Transition.Reachable Initial Step Guard

def requested (s : State) (j : JobId) (coordinator : Bool) (devices : List DeviceId) : State :=
  let submitted := s.put j ⟨coordinator, normalizeDevices devices, .submitted⟩
  State.advance { submitted with
    registry := (submitted.registry.clone (submitted.jobs j).devices).2 } j
      (.locking [] (submitted.registry.clone (submitted.jobs j).devices).1)

def taken (s : State) (j : JobId) (coordinator : Bool) (sequencer : Sequencer) : State :=
  ((requested s j coordinator [sequencer.1]).advance j (.locking [sequencer] [])).advance j
    (.running [sequencer])

theorem requested_run (h : Run s) (hi : (s.jobs j).phase = .idle)
    (hsi : coordinator = true → ∀ k, (s.jobs k).coordinator = true → (s.jobs k).phase = .idle)
    (hg : Guard s (.submit j coordinator ds)) : Run (requested s j coordinator ds) := by
  have hs : Run (s.put j ⟨coordinator, normalizeDevices ds, .submitted⟩) :=
    h.step hg (.submit hi hsi)
  refine hs.step (l := Action.clone j) trivial (.clone ?_)
  rw [State.put_self]

theorem taken_run (h : Run s) (hi : (s.jobs j).phase = .idle)
    (hs : coordinator = true → ∀ k, (s.jobs k).coordinator = true → (s.jobs k).phase = .idle)
    (hg : Guard s (.submit j coordinator [seq.1]))
    (hp : ((requested s j coordinator [seq.1]).jobs j).phase = .locking [] [seq])
    (hf : Free (requested s j coordinator [seq.1]) seq) : Run (taken s j coordinator seq) := by
  have hl := (requested_run h hi hs hg).step (l := Action.lock j) trivial (.lock hp hf)
  refine hl.step (l := Action.start j) trivial (.start ?_)
  rw [State.advance, State.put_self]
  rfl

def pass (known : DeviceId) : State := taken {} 0 true (known, 0)

/-- Another job has locked the first of its two devices. -/
def contended (known : DeviceId) (first second : Sequencer) : State :=
  (requested (pass known) 1 false [first.1, second.1]).advance 1 (.locking [first] [second])

def appearing (s : State) (known device : DeviceId) : State :=
  State.advance { s with registry := (s.registry.clone [device]).2 } 0
    (.extending [(known, 0)] [] (s.registry.clone [device]).1)

theorem pass_run (known : DeviceId) : Run (pass known) := by
  refine taken_run (.initial fun _ => rfl) rfl (fun _ _ _ => rfl) ?_ ?_ ?_
  · rintro k held new waiting ⟨⟩
  · rfl
  · rintro (_ | k) ⟨⟩

theorem contended_run (hp : ((requested (pass known) 1 false [first.1, second.1]).jobs 1).phase =
      .locking [] [first, second]) (hf : first ≠ (known, 0)) :
    Run (contended known first second) := by
  have hr : Run (requested (pass known) 1 false [first.1, second.1]) := by
    apply requested_run (pass_run known) rfl (fun h => by cases h)
    rintro (_ | k) held new waiting ⟨⟩
  refine hr.step (l := Action.lock 1) trivial (.lock hp ?_)
  rintro (_ | _ | k) hh
  · exact hf (mem_singleton.1 hh)
  · cases hh
  · cases hh

end Sample

/-- The devices a job with its body under way is alone with. -/
def Job.covered (job : Job) : List DeviceId :=
  match job.phase with
  | .extended _ new _ => job.devices ++ names new
  | _ => job.devices

theorem mem_names : d ∈ names sequencers ↔ ∃ number, (d, number) ∈ sequencers := by
  simp [names]

theorem JobInvariant.covered_held (h : JobInvariant registry job) (he : job.phase.executing = true)
    (hd : d ∈ job.covered) : ∃ number, (d, number) ∈ job.phase.held := by
  obtain ⟨coordinator, ds, phase⟩ := job
  have hc := h.covers
  cases phase with
  | idle | submitted | locking | releasing => cases he
  | running held =>
    obtain rfl : names held = ds := hc
    exact mem_names.1 hd
  | extending held new waiting =>
    obtain rfl : names held = ds := hc
    obtain ⟨number, hn⟩ := mem_names.1 hd
    exact ⟨number, mem_append_left _ hn⟩
  | extended held new references =>
    obtain rfl : names held = ds := hc
    rcases mem_append.1 hd with hf | hne
    · obtain ⟨number, hn⟩ := mem_names.1 hf
      exact ⟨number, mem_append_left _ hn⟩
    · obtain ⟨number, hn⟩ := mem_names.1 hne
      exact ⟨number, mem_append_right _ hn⟩

/-- Jobs that name the same device run one after the other, and references to the
sequencer of a device are to one mutex. -/
theorem jobs_are_exclusive (s : State) (h : Transition.Reachable Initial Step (fun _ _ => True) s) :
    (∀ i j, i ≠ j → (s.jobs i).phase.executing = true → (s.jobs j).phase.executing = true →
      ∀ device ∈ (s.jobs i).covered, device ∉ (s.jobs j).covered) ∧
    ∀ i j device number other, (device, number) ∈ (s.jobs i).phase.references →
      (device, other) ∈ (s.jobs j).phase.references → number = other := by
  have hin : Invariant s := h.holds Invariant (fun _ => initial_invariant)
    fun _ _ _ hs _ => step_invariant hs
  have hm : ∀ i j device number other, (device, number) ∈ (s.jobs i).phase.references →
      (device, other) ∈ (s.jobs j).phase.references → number = other := by
    intro i j device number other hi hj
    have hc := (hin.jobs i).current _ hi
    rw [(hin.jobs j).current _ hj] at hc
    exact (Option.some.inj hc).symm
  refine ⟨fun i j hij hi hj device hd ho => ?_, hm⟩
  obtain ⟨number, hn⟩ := (hin.jobs i).covered_held hi hd
  obtain ⟨other, ho⟩ := (hin.jobs j).covered_held hj ho
  obtain rfl := hm i j device number other ((hin.jobs i).referred hn) ((hin.jobs j).referred ho)
  exact hij (hin.exclusive i j (device, number) hn ho)

open Sample in
/-- While the coordinator's body runs on one device, another job's runs on another. -/
theorem jobs_on_different_devices_run :
    "a" ∉ ((taken (pass "b") 1 false ("a", 1)).jobs 0).covered := by
  have hr : Run (taken (pass "b") 1 false ("a", 1)) := by
    refine taken_run (pass_run "b") rfl (fun h => by cases h) ?_ rfl ?_
    · rintro (_ | k) held new waiting ⟨⟩
    · rintro (_ | _ | k) hh
      · revert hh
        decide +kernel
      · cases hh
      · cases hh
  exact (jobs_are_exclusive _ (hr.mono fun _ _ _ => trivial)).1 1 0 (by decide) rfl rfl "a"
    (by decide +kernel)

/-- The job `i` waits for the sequencer it locks next, which `j` has. -/
def Waits (s : State) (i j : JobId) : Prop :=
  ∃ sequencer rest, (s.jobs i).phase.waiting = sequencer :: rest ∧
    sequencer ∈ (s.jobs j).phase.held

structure Orderly (s : State) : Prop extends Invariant s where
  appearing : ∀ j held new waiting, (s.jobs j).phase = .extending held new waiting →
    ∀ device ∈ names waiting, ∀ k, (s.jobs k).phase.acquiring = true →
      device ∈ (s.jobs k).devices → ∀ known ∈ (s.jobs j).devices, known < device

section

variable (h : Orderly s)

include h

theorem Orderly.put (hin : Invariant ({ s with registry }.put j job))
    (he : ∀ held new waiting, job.phase = .extending held new waiting →
      ∀ d ∈ names waiting, ∀ k, (s.jobs k).phase.acquiring = true →
        d ∈ (s.jobs k).devices → ∀ known ∈ job.devices, known < d)
    (ha : job.phase.acquiring = true →
      ∀ i held new waiting, (s.jobs i).phase = .extending held new waiting →
        ∀ d ∈ names waiting, d ∈ job.devices → ∀ known ∈ (s.jobs i).devices, known < d) :
    Orderly ({ s with registry }.put j job) := by
  have hke : ∀ k, k ≠ j → ({ s with registry }.put j job).jobs k = s.jobs k :=
    fun k hk => State.put_of_ne hk
  have hs := State.put_self { s with registry } j job
  refine ⟨hin, fun i held new waiting hi d hd k hk hn => ?_⟩
  by_cases hij : i = j <;> by_cases hkj : k = j
  · rw [hij] at hi
    rw [hkj, hi] at hk
    cases hk
  · rw [hij, hs] at hi ⊢
    rw [hke k hkj] at hk hn
    exact he held new waiting hi d hd k hk hn
  · rw [hkj, hs] at hk hn
    rw [hke i hij] at hi ⊢
    exact ha hk i held new waiting hi d hd hn
  · rw [hke k hkj] at hk hn
    rw [hke i hij] at hi ⊢
    exact h.appearing i held new waiting hi d hd k hk hn

theorem Orderly.put_calm (hi : Invariant (s.put j job)) (hw : job.phase.waiting = [])
    (hac : job.phase.acquiring = false) : Orderly (s.put j job) := by
  refine h.put hi (fun held new waiting hp d hd => ?_) fun ha => ?_
  · rw [hp] at hw
    obtain rfl : waiting = [] := hw
    cases hd
  · rw [hac] at ha
    cases ha

theorem Orderly.advance_acquiring (hin : Invariant ({ s with registry }.advance j phase))
    (hb : (s.jobs j).phase.acquiring = true) (hp : phase.acquiring = true) :
    Orderly ({ s with registry }.advance j phase) := by
  refine h.put hin (fun held new waiting he => ?_) fun _ i held new waiting hi d hd hn =>
      h.appearing i held new waiting hi d hd j hb hn
  rw [show phase = _ from he] at hp
  cases hp

theorem Orderly.extend (hg : Guard s (.extend j ch))
    (had : added = normalizeDevices (ch.filter (· ∉ (s.jobs j).devices)))
    (hi : Invariant ({ s with registry := (s.registry.clone added).2 }.advance j
      (.extending held [] (s.registry.clone added).1))) :
    Orderly ({ s with registry := (s.registry.clone added).2 }.advance j
      (.extending held [] (s.registry.clone added).1)) := by
  refine h.put hi ?_ fun ha => by cases ha
  rintro _ _ _ ⟨⟩ d hd k hk hn
  rw [s.registry.names_clone, had, mem_normalizeDevices, mem_filter] at hd
  exact hg d hd.1 (by simpa using hd.2) k hk hn

theorem Orderly.lockNew (he : (s.jobs j).phase = .extending held new (seq :: waiting))
    (hi : Invariant (s.advance j (.extending held (new ++ [seq]) waiting))) :
    Orderly (s.advance j (.extending held (new ++ [seq]) waiting)) := by
  refine h.put hi ?_ fun ha => by cases ha
  rintro _ _ _ ⟨⟩ d hd
  exact h.appearing j _ _ _ he d (mem_cons_of_mem _ hd)

theorem step_orderly (hg : Guard s a) (hs : Step s a t) : Orderly t := by
  have hin := step_invariant h.toInvariant hs
  cases hs with
  | submit =>
    apply h.put hin (fun _ _ _ heq => by cases heq)
    intro _ i held new waiting hi d hd hn
    exact hg i held new waiting hi d hd (mem_normalizeDevices.1 hn)
  | clone submitted => exact h.advance_acquiring hin (by rw [submitted]; rfl) rfl
  | lock locking => exact h.advance_acquiring hin (by rw [locking]; rfl) rfl
  | extend _ _ new => exact h.extend hg new hin
  | lockNew extending => exact h.lockNew extending hin
  | start | startNew | unlockNew | dropNew | finish | finishNew | unlock | drop | done =>
    exact h.put_calm hin rfl rfl
  | prune => exact ⟨hin, h.appearing⟩

end

theorem initial_orderly (h : Initial s) : Orderly s where
  toInvariant := initial_invariant h
  appearing j held new waiting hj := by
    rw [h j] at hj
    cases hj

theorem Phase.eq_of_waiting {phase : Phase} (h : phase.waiting = seq :: rest) :
    (∃ held, phase = .locking held (seq :: rest)) ∨
      ∃ held new, phase = .extending held new (seq :: rest) := by
  cases phase with
  | locking held waiting => exact .inl ⟨held, congrArg _ h⟩
  | extending held new waiting => exact .inr ⟨held, new, congrArg _ h⟩
  | idle | submitted | running | extended | releasing => cases h

theorem lt_of_sorted (h : (names (first ++ seq :: rest)).Pairwise (· < ·)) (hd : d ∈ names first) :
    d < seq.1 := by
  rw [names, map_append] at h
  exact (pairwise_append.1 h).2.2 d hd seq.1 mem_cons_self

theorem JobInvariant.held_lt_waiting (h : JobInvariant reg job)
    (hl : job.phase = .locking held (seq :: waiting)) (hd : d ∈ names held) : d < seq.1 := by
  have hc := h.covers
  have hs := h.sorted
  rw [hl] at hc
  rw [← show names (held ++ seq :: waiting) = job.devices from hc] at hs
  exact lt_of_sorted hs hd

theorem JobInvariant.locking_devices (h : JobInvariant reg job)
    (hl : job.phase = .locking held waiting) (hd : d ∈ names held) : d ∈ job.devices := by
  have hc := h.covers
  rw [hl] at hc
  rw [← show names (held ++ waiting) = job.devices from hc, names, map_append]
  exact mem_append_left _ hd

theorem JobInvariant.extending_devices (h : JobInvariant reg job)
    (he : job.phase = .extending held new waiting) (hd : d ∈ names job.phase.held) :
    d ∈ job.devices ∨ d ∈ names new := by
  have hc := h.covers
  rw [he] at hc hd
  rw [show names (Phase.extending held new waiting).held = names held ++ names new from
    map_append] at hd
  rw [← show names held = job.devices from hc]
  exact mem_append.1 hd

/-- The devices a waiting job holds come before the one it waits for. This needs the latter
to be held by a job that waits in turn: the coordinator may hold devices after a new one. -/
theorem Orderly.ordered (h : Orderly s) :
    WaitFor.Ordered (fun j d => d ∈ names (s.jobs j).phase.held)
      (fun j d => ∃ number rest, (s.jobs j).phase.waiting = (d, number) :: rest) := by
  rintro a b known d _ hk ⟨number, rest, hw⟩ hh ⟨_, _, hw'⟩
  rcases Phase.eq_of_waiting hw with ⟨held, hl⟩ | ⟨held, new, he⟩
  · rw [hl] at hk
    exact (h.jobs a).held_lt_waiting hl hk
  obtain ⟨hc, hs, hn⟩ := (h.jobs a).extending _ _ _ he
  rcases (h.jobs a).extending_devices he hk with ho | hla
  · rcases Phase.eq_of_waiting hw' with ⟨hel', hl⟩ | ⟨hel', new', he'⟩
    · rw [hl] at hh
      exact h.appearing a _ _ _ he d (by simp) b (by rw [hl]; rfl)
        ((h.jobs b).locking_devices hl hh) known ho
    · -- there is one coordinator, and it does not wait for itself
      obtain ⟨hc', -, -⟩ := (h.jobs b).extending _ _ _ he'
      obtain rfl := h.single a b hc hc' (by simp [he]) (by simp [he'])
      rcases (h.jobs a).extending_devices he hh with hm | hm
      · exact absurd hm (hn _ mem_cons_self)
      · exact absurd (lt_of_sorted hs hm) (lt_irrefl _)
  · exact lt_of_sorted hs hla

/-- Jobs do not wait for each other in a cycle. -/
theorem waiting_is_acyclic (s : State) (h : Transition.Reachable Initial Step Guard s) :
    WaitFor.Acyclic (Waits s) := by
  have ho : Orderly s := h.holds Orderly (fun _ => initial_orderly)
    fun _ _ _ hs hg => step_orderly hs hg
  apply ho.ordered.acyclic.mono
  rintro i j ⟨⟨device, number⟩, rest, hw, hh⟩
  exact ⟨device, ⟨number, rest, hw⟩, mem_names.2 ⟨number, hh⟩⟩

open Sample in
/-- The coordinator waits for a new device that comes after the one it holds. -/
theorem later_device_is_waited_for :
    Waits (appearing (contended "a" ("b", 1) ("c", 2)) "a" "b") 0 1 ∧
      ¬ Waits (appearing (contended "a" ("b", 1) ("c", 2)) "a" "b") 1 0 := by
  have hf : Waits (appearing (contended "a" ("b", 1) ("c", 2)) "a" "b") 0 1 :=
    ⟨("b", 1), [], rfl, mem_singleton_self _⟩
  refine ⟨hf, fun hb => ?_⟩
  have hc : Run (contended "a" ("b", 1) ("c", 2)) := contended_run rfl (by decide)
  have hr : Run (appearing (contended "a" ("b", 1) ("c", 2)) "a" "b") := by
    refine hc.step (l := Action.extend 0 ["b"]) ?_ (.extend rfl rfl rfl)
    intro device hd _ k _ _ known hk
    obtain rfl := mem_singleton.1 hd
    obtain rfl : known = "a" := mem_singleton.1 hk
    decide +kernel
  exact waiting_is_acyclic _ hr 0 (Relation.TransGen.tail (.single hf) hb)

namespace Counterexample

open Sample

/-- A connection that closes has streams on a withdrawn device and on a known one after it.
Its cleanup job has locked the first when the coordinator finds that device again. -/
theorem coordinator_and_cleanup_wait_for_each_other :
    Transition.Reachable Initial Step (fun _ _ => True)
      (appearing (contended "b" ("a", 1) ("b", 0)) "b" "a") ∧
    ¬ WaitFor.Acyclic (Waits (appearing (contended "b" ("a", 1) ("b", 0)) "b" "a")) := by
  have hc : Run (contended "b" ("a", 1) ("b", 0)) := contended_run rfl (by decide)
  refine ⟨(hc.mono fun _ _ _ => trivial).step (l := Action.extend 0 ["a"]) trivial
    (.extend rfl rfl rfl), fun ha => ?_⟩
  have hf : Waits (appearing (contended "b" ("a", 1) ("b", 0)) "b" "a") 0 1 :=
    ⟨("a", 1), [], rfl, mem_singleton_self _⟩
  have hb : Waits (appearing (contended "b" ("a", 1) ("b", 0)) "b" "a") 1 0 :=
    ⟨("b", 0), [], rfl, mem_singleton_self _⟩
  exact ha 0 (Relation.TransGen.tail (.single hf) hb)

end Counterexample

end DeviceSequencers
