import Luminate.PluginSetup

/-! # Commits of setup sessions

However the requests interleave, a session commits against its baseline. The invariant is
kept by each thing a request can do: being answered, showing a session, changing a record,
moving on, and changing the configuration. -/
namespace SetupCommits

open Checks PluginSettings ManagedConfiguration PluginCatalogue ManagementTransactions List
  Std.ExtTreeMap
open PluginSetup Transition

variable {F : Type}

/-- The session whose step the request has in flight. -/
def held : Phase F → Option String
  | .starting .. | .fetching _ => none
  | .executing prepared => some prepared.session
  | .checking snapshot .. | .patching snapshot .. => some snapshot.id
  | .finishing session _ => some session

/-- The session whose settings the request is about to commit. -/
def committing : Phase F → Option String
  | .checking snapshot .. | .patching snapshot .. => some snapshot.id
  | .starting .. | .executing _ | .finishing .. | .fetching _ => none

def Holds (s : State F) (i : ℕ) (session : String) : Prop :=
  ∃ request, s.requests i = some request ∧ held request.phase = some session

def Committing (s : State F) (session : String) : Prop :=
  (∃ i request, s.requests i = some request ∧ committing request.phase = some session) ∨
    ∃ commit ∈ s.commits, commit.session = session

def Known (started : List (Started F)) (session : String) : Prop :=
  ∃ start ∈ started, start.session = session

/-- The record of a session is that of a start, with its baseline. -/
def RecordLinked (started : List (Started F)) (id : String) (record : SetupSessionRecord F) :
    Prop :=
  record.snapshot.id = id ∧ ∃ start ∈ started, start.session = id ∧
    start.plugin = record.snapshot.plugin ∧ start.baseline = record.baselineSettings

/-- Cancelling comes too late for the session. -/
structure Sealed (s : State F) (session : String) : Prop where
  unreported : (session, .cancelled) ∉ s.reported
  record : ∀ record, s.sessions[session]? = some record →
    isSealed record.snapshot.state = true
  idle : ∀ i principal prepared, s.requests i = some ⟨principal, .executing prepared⟩ →
    prepared.session ≠ session

structure OnlySettings (plugin : String) (before after : ManagedConfig F) : Prop where
  daemon : after.daemon = before.daemon
  others : ∀ name, name ≠ plugin → managedPlugin after name = managedPlugin before name
  enabled : (entryOf after plugin).enabled = (entryOf before plugin).enabled
  reconciliation : (entryOf after plugin).reconciliation = (entryOf before plugin).reconciliation

theorem expire_subset {id : String} (h : (expire now sessions)[id]? = some record) :
    sessions[id]? = some record := by
  unfold expire at h
  rw [getElem?_filter'] at h
  exact Option.eq_some_of_filter_eq_some h

theorem of_insert {sessions : SetupSessions F} {id : String}
    (h : (sessions.insert session record)[id]? = some fd) :
    (id = session ∧ fd = record) ∨ sessions[id]? = some fd := by
  rw [Std.ExtTreeMap.getElem?_insert] at h
  split at h
  · next heq => exact .inl ⟨(compare_eq_iff_eq.1 heq).symm, (Option.some.inj h).symm⟩
  · exact .inr h

structure SameSession (record next : SetupSessionRecord F) : Prop where
  id : next.snapshot.id = record.snapshot.id
  plugin : next.snapshot.plugin = record.snapshot.plugin
  baseline : next.baselineSettings = record.baselineSettings

theorem prepareSetupStart_cases (workflows : String → Option (List String)) (now : ℕ)
    (drawn : Except String String) (plugin workflow : String) (owner : Owner)
    (baseline : Table F) (pre : SetupSessions F) :
    (∃ e, prepareSetupStart workflows now drawn plugin workflow owner baseline pre =
        (.error e, pre) ∨
      prepareSetupStart workflows now drawn plugin workflow owner baseline pre =
        (.error e, expire now pre)) ∨
    ∃ session req record, drawn = .ok session ∧
      prepareSetupStart workflows now drawn plugin workflow owner baseline pre =
        (.ok ⟨session, req⟩, (expire now pre).insert session record) ∧
      record.snapshot.id = session ∧ record.snapshot.plugin = plugin ∧
      record.baselineSettings = baseline ∧ record.inFlight = true := by
  unfold prepareSetupStart
  split
  · exact .inl ⟨_, .inl rfl⟩
  · split
    · exact .inl ⟨_, .inl rfl⟩
    · dsimp only
      split
      · exact .inl ⟨_, .inr rfl⟩
      · split
        · exact .inl ⟨_, .inr rfl⟩
        · split
          · exact .inl ⟨_, .inr rfl⟩
          · exact .inr ⟨_, _, _, rfl, rfl, rfl, rfl, rfl, rfl⟩

theorem prepareSetupResponse_cases (now : ℕ) (i : String) (generation : ℕ)
    (response : PluginSetupResponse) (owner : Owner) (pre : SetupSessions F) :
    (∃ e, prepareSetupResponse now i generation response owner pre = (.error e, expire now pre)) ∨
    ∃ record req, (expire now pre)[i]? = some record ∧ record.inFlight = false ∧
      awaitsResponse record.snapshot.state = true ∧
      prepareSetupResponse now i generation response owner pre = (.ok ⟨i, req⟩,
        (expire now pre).insert i { record with inFlight := true }) := by
  unfold prepareSetupResponse
  dsimp only
  split
  · exact .inl ⟨_, rfl⟩
  · next record hr =>
    split
    · exact .inl ⟨_, rfl⟩
    · split
      · exact .inl ⟨_, rfl⟩
      · next hi =>
        split
        · exact .inl ⟨_, rfl⟩
        · split
          · exact .inl ⟨_, rfl⟩
          · split
            · exact .inl ⟨_, rfl⟩
            · next ha =>
              exact .inr ⟨record, _, hr, by simpa using hi, by simpa using ha, rfl⟩

theorem ownedRecord_ok (h : ownedRecord i owner pre = .ok record) : pre[i]? = some record := by
  unfold ownedRecord at h
  split at h
  · cases h
  · next fd hf =>
    split at h
    · cases h
    · cases h
      exact hf

theorem finishSetupInteraction_cases :
    (∃ e, finishSetupInteraction now i continuation interaction pre = (.error e, pre)) ∨
    ∃ record, pre[i]? = some record ∧ (finishSetupInteraction now i continuation interaction pre =
        (.ok record.snapshot, pre) ∨
      ∃ next, record.snapshot.state ≠ .cancelled ∧ SameSession record next ∧
        finishSetupInteraction now i continuation interaction pre =
          (.ok next.snapshot, pre.insert i next)) := by
  unfold finishSetupInteraction
  split
  · exact .inl ⟨_, rfl⟩
  · next record hr =>
    split
    · exact .inr ⟨record, hr, .inl rfl⟩
    · next hc =>
      split
      · exact .inl ⟨_, rfl⟩
      · refine .inr ⟨record, hr, .inr ⟨_, hc, ?_, rfl⟩⟩
        exact ⟨rfl, rfl, rfl⟩

theorem cancelSetup_cases (now : ℕ) (i : String) (owner : Owner) (pre : SetupSessions F) :
    (∃ e, cancelSetup now i owner pre = (.error e, expire now pre)) ∨
    ∃ record, (expire now pre)[i]? = some record ∧
      (cancelSetup now i owner pre = (.ok record.snapshot, expire now pre) ∨
      ∃ next, isSealed record.snapshot.state = false ∧ next.snapshot.state = .cancelled ∧
        next.inFlight = record.inFlight ∧ SameSession record next ∧
        cancelSetup now i owner pre = (.ok next.snapshot, (expire now pre).insert i next)) := by
  unfold cancelSetup
  dsimp only
  split
  · exact .inl ⟨_, rfl⟩
  · next record hr =>
    refine .inr ⟨record, ownedRecord_ok hr, ?_⟩
    split
    · exact .inl rfl
    · next ho =>
      exact .inr ⟨{ record.advance .cancelled with continuation := [] }, by simpa using ho, rfl,
        rfl, ⟨rfl, rfl, rfl⟩, rfl⟩

theorem beginSetupCommit_cases : (∃ e, beginSetupCommit i pre = (.error e, pre) ∧
      ∀ record, pre[i]? = some record → record.inFlight = false) ∨
    ∃ record, pre[i]? = some record ∧
      ((record.snapshot.state = .cancelled ∧ beginSetupCommit i pre =
        (.ok none, pre.insert i { record with inFlight := false })) ∨
      (record.snapshot.state ≠ .cancelled ∧ beginSetupCommit i pre =
        (.ok (some ((record.advance .applying).snapshot, record.baselineSettings)),
          pre.insert i (record.advance .applying)))) := by
  unfold beginSetupCommit
  split
  · next hn => exact .inl ⟨_, rfl, by simp [hn]⟩
  · next record hr =>
    split
    · next hc => exact .inr ⟨record, hr, .inl ⟨hc, rfl⟩⟩
    · next hc =>
      split
      · next hf => exact .inl ⟨_, rfl, by simpa [hr] using hf⟩
      · exact .inr ⟨record, hr, .inr ⟨hc, rfl⟩⟩

theorem finishSetupTerminal_cases : (∃ e, finishSetupTerminal i state pre = (.error e, pre)) ∨
    ∃ record next, pre[i]? = some record ∧ SameSession record next ∧
      (record.snapshot.state = .cancelled → next.snapshot.state = .cancelled) ∧
      (record.snapshot.state ≠ .cancelled → next.snapshot.state = state) ∧
      finishSetupTerminal i state pre = (.ok next.snapshot, pre.insert i next) := by
  unfold finishSetupTerminal
  split
  · exact .inl ⟨_, rfl⟩
  · next record hr =>
    refine .inr ⟨record, _, hr, ?_, ?_, ?_, rfl⟩
    · constructor <;> split <;> rfl
    · intro hc
      rw [if_pos hc]
      exact hc
    · intro hc
      rw [if_neg hc]
      rfl

section

variable {s : State F}

theorem requests_of_done (h : (s.done i).requests j = some req) :
    j ≠ i ∧ s.requests j = some req := by
  by_cases hj : j = i
  · subst hj
    simp [State.done] at h
  · exact ⟨hj, by simpa [State.done, hj] using h⟩

theorem Holds.of_done (h : Holds (s.done i) j ss) : j ≠ i ∧ Holds s j ss := by
  obtain ⟨req, hr, hh⟩ := h
  obtain ⟨hj, hr⟩ := requests_of_done hr
  exact ⟨hj, req, hr, hh⟩

theorem Committing.of_done (h : Committing (s.done i) ss) : Committing s ss := by
  rcases h with ⟨j, req, hr, hc⟩ | hco
  · exact .inl ⟨j, req, (requests_of_done hr).2, hc⟩
  · exact .inr hco

theorem sealed_ne_cancelled (h : isSealed state = true) : state ≠ .cancelled := by
  rintro rfl
  cases h

theorem held_of_committing (h : committing ph = some ss) : held ph = some ss := by
  cases ph with
  | checking | patching => exact h
  | starting | executing | finishing | fetching => cases h

theorem requests_of_proceed (h : (s.proceed i who ph).requests j = some req) :
    (j = i ∧ req = ⟨who, ph⟩) ∨ (j ≠ i ∧ s.requests j = some req) := by
  by_cases hj : j = i
  · subst hj
    exact .inl ⟨rfl, by simpa [State.proceed] using h.symm⟩
  · exact .inr ⟨hj, by simpa [State.proceed, hj] using h⟩

theorem Holds.of_proceed (h : Holds (s.proceed i who ph) j ss) :
    (j = i ∧ held ph = some ss) ∨ (j ≠ i ∧ Holds s j ss) := by
  obtain ⟨req, hr, hh⟩ := h
  rcases requests_of_proceed hr with ⟨hj, rfl⟩ | ⟨hj, hr⟩
  · exact .inl ⟨hj, hh⟩
  · exact .inr ⟨hj, req, hr, hh⟩

theorem Committing.of_proceed (h : Committing (s.proceed i who ph) ss) :
    committing ph = some ss ∨ Committing s ss := by
  rcases h with ⟨j, req, hr, hc⟩ | hco
  · rcases requests_of_proceed hr with ⟨-, rfl⟩ | ⟨-, hr⟩
    · exact .inl hc
    · exact .inr (.inl ⟨j, req, hr, hc⟩)
  · exact .inr (.inr hco)

theorem OnlySettings.refl (p : String) (cfg : ManagedConfig F) : OnlySettings p cfg cfg :=
  ⟨rfl, fun _ _ => rfl, rfl, rfl⟩

theorem OnlySettings.trans {cfg between next : ManagedConfig F} (h : OnlySettings p cfg between)
    (h' : OnlySettings p between next) : OnlySettings p cfg next where
  daemon := h'.daemon.trans h.daemon
  others := fun name hn => (h'.others name hn).trans (h.others name hn)
  enabled := h'.enabled.trans h.enabled
  reconciliation := h'.reconciliation.trans h.reconciliation

end

variable [FloatFormat F]

/-- Each setting the patch writes has the value it had in the baseline. -/
def Unchanged (start : Started F) (patch : ManagementPatch F) (managed : ManagedConfig F) : Prop :=
  ∀ plugin key value, .setPluginSetting plugin key value ∈ patch.mutations →
    (dottedValue (managedSettings managed plugin) key == dottedValue start.baseline key) = true

/-- The patch of a checked session: as long as the configuration has the revision of the check,
it has the settings of the check. -/
structure Checked (managed : ManagedConfig F) (start : Started F) (patch : ManagementPatch F) :
    Prop where
  writes : ∀ mutation ∈ patch.mutations, ∃ key value,
    mutation = .setPluginSetting start.plugin key value
  revision : patch.expectedRevision ≤ managed.revision
  unchanged : patch.expectedRevision = managed.revision → Unchanged start patch managed

def PhaseLinked (managed : ManagedConfig F) (started : List (Started F)) : Phase F → Prop
  | .starting .. | .executing _ | .fetching _ => True
  | .checking snapshot baseline .. => ∃ start ∈ started, start.session = snapshot.id ∧
      start.plugin = snapshot.plugin ∧ start.baseline = baseline
  | .patching snapshot _ patch => ∃ start ∈ started, start.session = snapshot.id ∧
      start.plugin = snapshot.plugin ∧ Checked managed start patch
  | .finishing _ state => isSealed state = true

def CommitLinked (started : List (Started F)) (commit : SetupCommit F) : Prop :=
  ∃ start ∈ started, start.session = commit.session ∧ start.plugin = commit.plugin ∧
    commit.after.revision = commit.before.revision + 1 ∧
    Unchanged start commit.patch commit.before ∧
    OnlySettings commit.plugin commit.before commit.after

structure Invariant (s : State F) : Prop where
  distinct : (s.started.map (·.session)).Nodup
  records : ∀ id record, s.sessions[id]? = some record → RecordLinked s.started id record
  phases : ∀ i request, s.requests i = some request →
    PhaseLinked s.managed s.started request.phase
  commits : ∀ commit ∈ s.commits, CommitLinked s.started commit
  known : ∀ i session, Holds s i session → Known s.started session
  unique : ∀ i j session, Holds s i session → Holds s j session → i = j
  inFlight : ∀ i session record, Holds s i session → s.sessions[session]? = some record →
    record.inFlight = true
  reported : ∀ report ∈ s.reported, Known s.started report.1
  sticky : ∀ session record, (session, .cancelled) ∈ s.reported →
    s.sessions[session]? = some record → record.snapshot.state = .cancelled
  tooLate : ∀ session, Committing s session → Sealed s session

section

variable {s : State F} {i j : ℕ} {session : String} {record : SetupSessionRecord F}

section

variable (h : Invariant s)

include h

theorem Invariant.done (i : ℕ) : Invariant (s.done i) where
  distinct := h.distinct
  records := h.records
  phases := fun j req hr => h.phases j req (requests_of_done hr).2
  commits := h.commits
  known := fun j session hh => h.known j session hh.of_done.2
  unique := fun j k session hj hk => h.unique j k session hj.of_done.2 hk.of_done.2
  inFlight := fun j session record hh => h.inFlight j session record hh.of_done.2
  reported := h.reported
  sticky := h.sticky
  tooLate := fun session hc =>
    have hs := h.tooLate session hc.of_done
    ⟨hs.unreported, hs.record, fun j pr prepared hr =>
      hs.idle j pr prepared (requests_of_done hr).2⟩

theorem Invariant.free (hh : Holds s i session) : ∀ j, ¬ Holds (s.done i) j session := by
  intro j hj
  exact hj.of_done.1 (h.unique j i session hj.of_done.2 hh)

theorem Invariant.report (hrc : s.sessions[session]? = some record) :
    Invariant (s.report (.ok record.snapshot)) := by
  obtain ⟨hid, start, hsa, hse, -⟩ := h.records session record hrc
  have hre : ∀ report ∈ (s.report (.ok record.snapshot)).reported,
      report ∈ s.reported ∨ report = (session, record.snapshot.state) := by
    intro report hr
    simpa [State.report, hid] using hr
  refine ⟨h.distinct, h.records, h.phases, h.commits, h.known, h.unique, h.inFlight, ?_, ?_, ?_⟩
  · intro report hr
    rcases hre report hr with ho | rfl
    · exact h.reported report ho
    · exact ⟨start, hsa, hse⟩
  · intro other r' hr hr'
    rcases hre _ hr with ho | hn
    · exact h.sticky other r' ho hr'
    · obtain ⟨rfl, hst⟩ := Prod.mk.inj hn
      cases hrc.symm.trans hr'
      exact hst.symm
  · intro other hc
    have hs := h.tooLate other hc
    refine ⟨fun hr => ?_, hs.record, hs.idle⟩
    rcases hre _ hr with ho | hn
    · exact hs.unreported ho
    · obtain ⟨rfl, hst⟩ := Prod.mk.inj hn
      exact sealed_ne_cancelled (hs.record record hrc) hst.symm

theorem Invariant.forget
    (hsu : ∀ (id : String) record, sessions[id]? = some record → s.sessions[id]? = some record) :
    Invariant { s with sessions } where
  distinct := h.distinct
  records := fun id record hr => h.records id record (hsu id record hr)
  phases := h.phases
  commits := h.commits
  known := h.known
  unique := h.unique
  inFlight := fun i session record hh hr =>
    h.inFlight i session record hh (hsu session record hr)
  reported := h.reported
  sticky := fun session record hre hr =>
    h.sticky session record hre (hsu session record hr)
  tooLate := fun session hc =>
    have hs := h.tooLate session hc
    ⟨hs.unreported, fun record hr => hs.record record (hsu session record hr), hs.idle⟩

/-- A change of a record: a step that is in flight stays so for the request that holds it, a
cancelled session stays cancelled, and one that is being committed is not reopened. -/
theorem Invariant.change {next : SetupSessionRecord F} (hr : s.sessions[session]? = some record)
    (hsm : SameSession record next) (hf : ∀ i, Holds s i session → next.inFlight = true)
    (hca : record.snapshot.state = .cancelled → next.snapshot.state = .cancelled)
    (hsa : Committing s session → isSealed next.snapshot.state = true) :
    Invariant { s with sessions := s.sessions.insert session next } := by
  refine ⟨h.distinct, ?_, h.phases, h.commits, h.known, h.unique, ?_, h.reported, ?_, ?_⟩
  · intro id fd hid
    rcases of_insert hid with ⟨rfl, rfl⟩ | ho
    · obtain ⟨hs, start, hst, hse, hp, hba⟩ := h.records _ record hr
      exact ⟨hsm.id.trans hs, start, hst, hse, hp.trans hsm.plugin.symm,
        hba.trans hsm.baseline.symm⟩
    · exact h.records id fd ho
  · intro i id fd hh hid
    rcases of_insert hid with ⟨rfl, rfl⟩ | ho
    · exact hf i hh
    · exact h.inFlight i id fd hh ho
  · intro id fd hre hid
    rcases of_insert hid with ⟨rfl, rfl⟩ | ho
    · exact hca (h.sticky _ record hre hr)
    · exact h.sticky id fd hre ho
  · intro id hc
    have hb := h.tooLate id hc
    refine ⟨hb.unreported, fun fd hid => ?_, hb.idle⟩
    rcases of_insert hid with ⟨rfl, rfl⟩ | ho
    · exact hsa hc
    · exact hb.record fd ho

end

/-- What a request needs to go on holding a session. -/
structure Holdable (s : State F) (i : ℕ) (session : String) : Prop where
  alone : ∀ j, j ≠ i → ¬ Holds s j session
  known : Known s.started session
  inFlight : ∀ record, s.sessions[session]? = some record → record.inFlight = true

theorem Invariant.holdable (h : Invariant s) (hh : Holds s i session) : Holdable s i session where
  alone := fun j hj ho => hj (h.unique j i session ho hh)
  known := h.known i session hh
  inFlight := fun record => h.inFlight i session record hh

theorem Invariant.proceed (h : Invariant s) (hl : PhaseLinked s.managed s.started phase)
    (hhe : ∀ session, held phase = some session → Holdable s i session)
    (hc : ∀ session, committing phase = some session → (session, .cancelled) ∉ s.reported ∧
        ∀ record, s.sessions[session]? = some record → isSealed record.snapshot.state = true)
    (he : ∀ prepared, phase = .executing prepared → ¬ Committing s prepared.session) :
    Invariant (s.proceed i who phase) := by
  refine ⟨h.distinct, h.records, ?_, h.commits, ?_, ?_, ?_, h.reported, h.sticky, ?_⟩
  · intro j req hr
    rcases requests_of_proceed hr with ⟨-, rfl⟩ | ⟨-, hr⟩
    · exact hl
    · exact h.phases j req hr
  · intro j session hh
    rcases hh.of_proceed with ⟨-, hs⟩ | ⟨-, hh⟩
    · exact (hhe session hs).known
    · exact h.known j session hh
  · intro j k session hj hk
    rcases hj.of_proceed with ⟨rfl, hs⟩ | ⟨hjn, hj'⟩
    · rcases hk.of_proceed with ⟨rfl, -⟩ | ⟨hkn, hk'⟩
      · rfl
      · exact absurd hk' ((hhe session hs).alone k hkn)
    · rcases hk.of_proceed with ⟨rfl, hs⟩ | ⟨-, hk'⟩
      · exact absurd hj' ((hhe session hs).alone j hjn)
      · exact h.unique j k session hj' hk'
  · intro j session record hh hre
    rcases hh.of_proceed with ⟨-, hs⟩ | ⟨-, hh⟩
    · exact (hhe session hs).inFlight record hre
    · exact h.inFlight j session record hh hre
  · intro session hs
    rcases hs.of_proceed with hn | ho
    · obtain ⟨hu, hse⟩ := hc session hn
      refine ⟨hu, hse, fun j other prepared hr => ?_⟩
      rintro rfl
      rcases requests_of_proceed hr with ⟨-, hsa⟩ | ⟨hj, hr⟩
      · obtain ⟨-, rfl⟩ := Request.mk.inj hsa
        cases hn
      · exact (hhe _ (held_of_committing hn)).alone j hj ⟨_, hr, rfl⟩
    · have hb := h.tooLate session ho
      refine ⟨hb.unreported, hb.record, fun j other prepared hr => ?_⟩
      rcases requests_of_proceed hr with ⟨-, hsa⟩ | ⟨-, hr⟩
      · rintro rfl
        exact he prepared (Request.mk.inj hsa).2.symm ho
      · exact hb.idle j other prepared hr

theorem Invariant.finishing (h : Invariant s) (hh : Holds s i session)
    (hs : isSealed state = true) : Invariant (s.proceed i who (.finishing session state)) := by
  have hl : PhaseLinked s.managed s.started (.finishing session state) := hs
  apply h.proceed hl
  · intro other ho
    cases ho
    exact h.holdable hh
  · intro other ho
    cases ho
  · intro prepared hp
    cases hp

theorem Invariant.known_of_committing (h : Invariant s) (hc : Committing s session) :
    Known s.started session := by
  rcases hc with ⟨i, req, hr, hp⟩ | ⟨commit, hco, rfl⟩
  · exact h.known i session ⟨req, hr, held_of_committing hp⟩
  · obtain ⟨start, hst, hs, -⟩ := h.commits commit hco
    exact ⟨start, hst, hs⟩

theorem PhaseLinked.mono {phase : Phase F} (h : PhaseLinked mg started phase)
    (hsu : started ⊆ more) : PhaseLinked mg more phase := by
  cases phase with
  | starting | executing | fetching => trivial
  | checking snapshot baseline =>
    obtain ⟨start, hs, hl⟩ := h
    exact ⟨start, hsu hs, hl⟩
  | patching snapshot sum patch =>
    obtain ⟨start, hs, hl⟩ := h
    exact ⟨start, hsu hs, hl⟩
  | finishing session state => exact h

theorem Invariant.start (h : Invariant s) {start : Started F} (hn : ¬ Known s.started start.session)
    (hrc : RecordLinked (s.started ++ [start]) start.session record) : Invariant { s with
      sessions := s.sessions.insert start.session record, started := s.started ++ [start] } := by
  have hsu : s.started ⊆ s.started ++ [start] := subset_append_left _ _
  have hk : ∀ {session}, Known s.started session → Known (s.started ++ [start]) session :=
    fun ⟨old, he, hs⟩ => ⟨old, hsu he, hs⟩
  refine ⟨?_, ?_, ?_, ?_, ?_, h.unique, ?_, ?_, ?_, ?_⟩
  · rw [map_append, nodup_append]
    refine ⟨h.distinct, nodup_singleton _, fun id hid other ho => ?_⟩
    rintro rfl
    obtain ⟨old, he, hs⟩ := mem_map.1 hid
    exact hn ⟨old, he, hs.trans (mem_singleton.1 ho)⟩
  · intro id fd hid
    rcases of_insert hid with ⟨rfl, rfl⟩ | hol
    · exact hrc
    · obtain ⟨hsn, old, he, hl⟩ := h.records id fd hol
      exact ⟨hsn, old, hsu he, hl⟩
  · exact fun i req hre => (h.phases i req hre).mono hsu
  · intro commit hco
    obtain ⟨old, he, hl⟩ := h.commits commit hco
    exact ⟨old, hsu he, hl⟩
  · exact fun i session hh => hk (h.known i session hh)
  · intro i id fd hh hid
    rcases of_insert hid with ⟨rfl, rfl⟩ | hol
    · exact absurd (h.known i _ hh) hn
    · exact h.inFlight i id fd hh hol
  · exact fun report hr => hk (h.reported report hr)
  · intro id fd hr hid
    rcases of_insert hid with ⟨rfl, rfl⟩ | hol
    · exact absurd (h.reported _ hr) hn
    · exact h.sticky id fd hr hol
  · intro id hc
    have hb := h.tooLate id hc
    refine ⟨hb.unreported, fun fd hid => ?_, hb.idle⟩
    rcases of_insert hid with ⟨rfl, rfl⟩ | hol
    · exact absurd (h.known_of_committing hc) hn
    · exact hb.record fd hol

theorem Checked.configure {mg next : ManagedConfig F} (h : Checked mg start patch)
    (hn : next = mg ∨ mg.revision < next.revision) : Checked next start patch := by
  rcases hn with rfl | hl
  · exact h
  · refine ⟨h.writes, h.revision.trans hl.le, fun hs => ?_⟩
    -- The revision of the check has passed.
    have hr := h.revision
    omega

theorem Invariant.configure (h : Invariant s) {next : ManagedConfig F}
    (hn : next = s.managed ∨ s.managed.revision < next.revision) :
    Invariant { s with managed := next } := by
  refine ⟨h.distinct, h.records, ?_, h.commits, h.known, h.unique, h.inFlight, h.reported,
    h.sticky, fun session hc => ?_⟩
  · intro i req hr
    have hl := h.phases i req hr
    cases hp : req.phase with
    | patching snapshot sum patch =>
      rw [hp] at hl
      obtain ⟨start, hst, hse, hpl, hch⟩ := hl
      exact ⟨start, hst, hse, hpl, hch.configure hn⟩
    | starting | executing | checking | finishing | fetching =>
      rw [hp] at hl
      exact hl
  · have hs := h.tooLate session hc
    exact ⟨hs.unreported, hs.record, hs.idle⟩

theorem patchManaged_revision (pgs : List (ManageablePlugin F)) (req : PatchRequest F)
    (current : ManagedConfig F) : (patchManaged pgs req current).2 = current ∨
      current.revision < (patchManaged pgs req current).2.revision := by
  rcases patchManaged_cases pgs req current with ⟨e, hr⟩ | ⟨cand, changes, hp, hpa⟩
  · rw [hr]
    exact .inl rfl
  · obtain ⟨-, ⟨mutated, -, rfl⟩, -⟩ := preparePatch_ok hp
    rw [hpa]
    exact .inr (Nat.lt_succ_self _)

theorem Invariant.log (h : Invariant s) {commit : SetupCommit F}
    (hl : CommitLinked s.started commit) (hc : Committing s commit.session) :
    Invariant { s with commits := s.commits ++ [commit] } := by
  refine ⟨h.distinct, h.records, h.phases, ?_, h.known, h.unique, h.inFlight, h.reported,
    h.sticky, fun session hse => ?_⟩
  · intro other ho
    rcases mem_append.1 ho with hol | hn
    · exact h.commits other hol
    · rw [mem_singleton.1 hn]
      exact hl
  · have hb : Committing s session := by
      rcases hse with hr | ⟨other, ho, rfl⟩
      · exact .inl hr
      · rcases mem_append.1 ho with hol | hn
        · exact .inr ⟨other, hol, rfl⟩
        · rw [mem_singleton.1 hn]
          exact hc
    have hs := h.tooLate session hb
    exact ⟨hs.unreported, hs.record, hs.idle⟩

end

section

variable {p : String} {ps : List (ManageablePlugin F)} {cfg next : ManagedConfig F}

theorem applyMutations_onlySettings (hw : ∀ m ∈ mutations, ∃ key v, m = .setPluginSetting p key v)
    (h : applyMutations ps mutations cfg = .ok (next, changes)) : OnlySettings p cfg next := by
  induction mutations generalizing cfg changes with
  | nil =>
    cases h
    exact OnlySettings.refl p _
  | cons m rest ih =>
    obtain ⟨⟨key, v, rfl⟩, hr⟩ := forall_mem_cons.1 hw
    obtain ⟨⟨between, change⟩, hc, h⟩ := bind_ok_iff.1 h
    obtain ⟨⟨last, others⟩, ho, h⟩ := bind_ok_iff.1 h
    cases h
    obtain ⟨⟨toml, settings, -, -, -, -, he⟩, hk, hd⟩ := applyMutation_edited hc rfl
    have hs : OnlySettings p cfg between := ⟨hd, hk, by rw [he], by rw [he]⟩
    exact hs.trans (ih hr ho)

theorem setupMutations_writes {mutations : List (ManagementMutation F)}
    (h : setupMutations p settings = .ok mutations) :
    ∀ m ∈ mutations, ∃ key v, m = .setPluginSetting p key v ∧ key ∈ settings.keys := by
  obtain ⟨collected, hc, h⟩ := bind_ok_iff.1 h
  obtain ⟨-, h⟩ := then_ok_iff.1 h
  cases h
  intro m hm
  obtain ⟨⟨key, v⟩, he, hs⟩ := mapM_ok_source hc m hm
  obtain ⟨converted, -, hs⟩ := bind_ok_iff.1 hs
  refine ⟨key, converted, (Except.ok.inj hs).symm, ?_⟩
  rw [← map_fst_toList_eq_keys]
  exact mem_map_of_mem he

theorem checked_of_conflicts {start : Started F}
    (hc : conflicts (managedSettings mg start.plugin) start.baseline settings = false)
    (h : setupMutations start.plugin settings = .ok mutations) :
    Checked mg start { expectedRevision := mg.revision, mutations } := by
  have hw := setupMutations_writes h
  refine ⟨fun m hm => ?_, Nat.le_refl _, fun _ written key v hm => ?_⟩
  · obtain ⟨key, v, rfl, -⟩ := hw m hm
    exact ⟨key, v, rfl⟩
  · obtain ⟨_, _, hs, hke⟩ := hw _ hm
    obtain ⟨rfl, rfl, rfl⟩ := ManagementMutation.setPluginSetting.inj hs
    have hk := any_eq_false.1 hc key hke
    simpa [bne] using hk

theorem commitLinked_of_checked {s : State F} {snapshot : PluginSetupSession}
    {changes : List ManagementChange} (hst : start ∈ s.started) (hs : start.session = snapshot.id)
    (hp : start.plugin = snapshot.plugin) (hc : Checked s.managed start patch)
    (h : preparePatch s.managed patch ps = .ok (cand, changes)) :
    CommitLinked s.started ⟨snapshot.id, snapshot.plugin, patch, s.managed, cand⟩ := by
  obtain ⟨hr, ⟨mutated, hm, rfl⟩, -⟩ := preparePatch_ok h
  have ho := applyMutations_onlySettings hc.writes hm
  refine ⟨start, hst, hs, hp, rfl, hc.unchanged hr, ?_⟩
  rw [← hp]
  exact ⟨ho.daemon, ho.others, ho.enabled, ho.reconciliation⟩

end

section

variable {s : State F}

section

variable (h : Invariant s)

include h

theorem Invariant.expired (now : ℕ) : Invariant { s with sessions := expire now s.sessions } :=
  h.forget fun _ _ hr => expire_subset hr

theorem start_invariant (workflows : String → Option (List String))
    (pr : Owner) (plugin workflow : String) :
    Invariant (s.start workflows i pr plugin workflow) := by
  unfold State.start
  split
  · split
    · have hl : PhaseLinked s.managed s.started (.starting plugin workflow s.managed) := trivial
      apply h.proceed hl
      · intro session hs
        cases hs
      · intro session hs
        cases hs
      · intro prepared hp
        cases hp
    · exact h
  · exact h

theorem prepare_invariant (workflows : String → Option (List String))
    {drawn : Except String String} (hfr : Fresh s (.prepare i drawn)) :
    Invariant (s.prepare workflows i drawn) := by
  unfold State.prepare
  split
  · next principal plugin workflow captured hrq =>
    rcases prepareSetupStart_cases workflows s.now drawn plugin workflow principal
        (managedSettings captured plugin) s.sessions with
      ⟨e, hr | hr⟩ | ⟨session, req, record, rfl, hr, hid, hp, hb, hf⟩
    · rw [hr]
      exact h.done i
    · rw [hr]
      exact (h.expired s.now).done i
    · rw [hr]
      have hn : ¬ Known s.started session := fun ⟨earlier, he, hs⟩ =>
        hfr (mem_map.2 ⟨earlier, he, hs⟩)
      let start : Started F := { session, plugin, captured }
      have hm : start ∈ s.started ++ [start] := mem_append_right _ mem_cons_self
      have hre : RecordLinked (s.started ++ [start]) start.session record :=
        ⟨hid, start, hm, rfl, hp.symm, hb.symm⟩
      have hst := (h.expired s.now).start hn hre
      have hl : PhaseLinked s.managed (s.started ++ [start]) (.executing ⟨session, req⟩) := trivial
      apply hst.proceed hl
      · intro session hs
        cases hs
        refine ⟨fun j _ hh => hn (h.known j _ hh), ⟨start, hm, rfl⟩, ?_⟩
        intro found hfo
        cases Std.ExtTreeMap.getElem?_insert_self.symm.trans hfo
        exact hf
      · intro session hs
        cases hs
      · intro executed hph
        obtain rfl := Phase.executing.inj hph
        exact fun hc => hn (h.known_of_committing hc)
  · exact h

theorem respond_invariant (pr : Owner) (session : String)
    (generation : ℕ) (response : PluginSetupResponse) :
    Invariant (s.respond i pr session generation response) := by
  unfold State.respond
  split
  · exact h
  · have he := h.expired s.now
    rcases prepareSetupResponse_cases s.now session generation response pr s.sessions with
      ⟨e, hre⟩ | ⟨record, req, hr, hi, ha, hre⟩
    · rw [hre]
      exact he
    · rw [hre]
      have hfr : ∀ j, ¬ Holds s j session := by
        intro j hh
        have hf := he.inFlight j session record hh hr
        rw [hi] at hf
        cases hf
      have hop : ¬ Committing s session := by
        intro hc
        have hse := (he.tooLate session hc).record record hr
        revert hse ha
        cases record.snapshot.state <;> simp [isSealed, awaitsResponse]
      have hch : Invariant { s with
          sessions := (expire s.now s.sessions).insert session { record with inFlight := true } } :=
        he.change hr ⟨rfl, rfl, rfl⟩ (fun _ _ => rfl) id fun hc => absurd hc hop
      have hl : PhaseLinked s.managed s.started (.executing ⟨session, req⟩) := trivial
      apply hch.proceed hl
      · intro other ho
        cases ho
        obtain ⟨-, start, hst, hs, -⟩ := he.records session record hr
        refine ⟨fun j _ => hfr j, ⟨start, hst, hs⟩, fun fd hfo => ?_⟩
        cases Std.ExtTreeMap.getElem?_insert_self.symm.trans hfo
        rfl
      · intro other ho
        cases ho
      · intro prepared hp
        obtain rfl := Phase.executing.inj hp
        exact hop

theorem get_invariant (now : ℕ) (session : String) (owner : Owner) :
    Invariant ({ s with sessions := expire now s.sessions }.report
      (setupSession now session owner s.sessions).1) := by
  have he := h.expired now
  unfold setupSession
  dsimp only
  cases hr : ownedRecord session owner (expire now s.sessions) with
  | error e => exact he
  | ok record => exact he.report (ownedRecord_ok hr)

theorem cancel_invariant (session : String) (owner : Owner) :
    Invariant ({ s with sessions := (cancelSetup s.now session owner s.sessions).2 }.report
      (cancelSetup s.now session owner s.sessions).1) := by
  have he := h.expired s.now
  rcases cancelSetup_cases s.now session owner s.sessions with ⟨e, hr⟩ |
    ⟨record, hre, hr | ⟨next, ho, hst, hf, hsa, hr⟩⟩
  · rw [hr]
    exact he
  · rw [hr]
    exact he.report hre
  · rw [hr]
    have hch := he.change hre hsa (fun j hh => hf.trans (he.inFlight j session record hh hre))
      (fun _ => hst) (fun hc => by
        have hs := (he.tooLate session hc).record record hre
        rw [ho] at hs
        cases hs)
    exact hch.report getElem?_insert_self

theorem check_invariant : Invariant (s.check i) := by
  unfold State.check
  split
  · next pr snapshot baseline settings sum hr =>
    have hh : Holds s i snapshot.id := ⟨_, hr, rfl⟩
    have hco : Committing s snapshot.id := .inl ⟨i, _, hr, rfl⟩
    split
    · exact h.finishing hh rfl
    · next hc =>
      split
      · exact h.finishing hh rfl
      · next mutations hm =>
        have hse := h.tooLate snapshot.id hco
        obtain ⟨start, hst, hs, hp, rfl⟩ := h.phases i _ hr
        rw [← hp] at hc hm
        apply h.proceed
        · exact ⟨start, hst, hs, hp, checked_of_conflicts (Bool.not_eq_true _ ▸ hc) hm⟩
        · intro session hs
          cases hs
          exact h.holdable hh
        · intro session hs
          cases hs
          exact ⟨hse.unreported, hse.record⟩
        · intro prepared hph
          cases hph
  · exact h

theorem commit_invariant (pgs : List (ManageablePlugin F))
    (authorized saved applied : Except String Unit) :
    Invariant (s.commit pgs i authorized saved applied) := by
  unfold State.commit
  split
  · next pr snapshot sum patch hr =>
    have hh : Holds s i snapshot.id := ⟨_, hr, rfl⟩
    have hco : Committing s snapshot.id := .inl ⟨i, _, hr, rfl⟩
    split
    · exact h.finishing hh rfl
    · rcases patchManaged_cases pgs ⟨patch, saved⟩ s.managed with ⟨e, hrj⟩ |
        ⟨cand, changes, hpr, hp⟩
      · rw [hrj]
        exact h.finishing hh rfl
      · rw [hp]
        obtain ⟨start, hst, hs, hpl, hch⟩ := h.phases i _ hr
        have hl := commitLinked_of_checked hst hs hpl hch hpr
        have hre := patchManaged_revision pgs ⟨patch, saved⟩ s.managed
        rw [hp] at hre
        have hc := (h.log hl hco).configure hre
        cases applied with
        | error message =>
          apply hc.finishing hh
          rfl
        | ok updated =>
          apply hc.finishing hh
          rfl
  · exact h

theorem finish_invariant : Invariant (s.finish i) := by
  unfold State.finish
  split
  · next pr session state hre =>
    have hh : Holds s i session := ⟨_, hre, rfl⟩
    have hst : isSealed state = true := h.phases i _ hre
    have hd := h.done i
    rcases finishSetupTerminal_cases with ⟨e, hr⟩ | ⟨record, next, hrc, hsa, hca, he, hr⟩
    · rw [hr]
      exact hd
    · rw [hr]
      have hch := hd.change hrc hsa (fun j hj => absurd hj (h.free hh j)) hca (fun hc => by
          have hs := (hd.tooLate session hc).record record hrc
          rw [he (sealed_ne_cancelled hs)]
          exact hst)
      exact hch.report getElem?_insert_self
  · exact h

theorem fetch_invariant : Invariant (s.fetch i) := by
  unfold State.fetch
  split
  · next pr session hr => exact get_invariant (h.done i) s.now session pr
  · exact h

end

theorem Invariant.open (h : Invariant s) (hr : s.requests i = some ⟨who, .executing prepared⟩) :
    ¬ Committing s prepared.session := fun hc =>
  (h.tooLate prepared.session hc).idle i who prepared hr rfl

theorem Invariant.fetching (h : Invariant (s.done i)) :
    Invariant (s.proceed i who (.fetching session)) := by
  have hl : PhaseLinked s.managed s.started (.fetching session) := trivial
  have hp : Invariant ((s.done i).proceed i who (.fetching session)) := by
    apply h.proceed hl
    · intro other ho
      cases ho
    · intro other ho
      cases ho
    · intro prepared hph
      cases hph
  have hs : (s.done i).proceed i who (.fetching session) = s.proceed i who (.fetching session) := by
    simp [State.done, State.proceed]
  rwa [hs] at hp

/-- The commit begins: the session is applying from here on, and was not shown as cancelled. -/
theorem Invariant.begin (h : Invariant s) {sum : String}
    (hre : s.requests i = some ⟨who, .executing prepared⟩)
    (hr : s.sessions[prepared.session]? = some record) (hc : record.snapshot.state ≠ .cancelled) :
    Invariant ({ s with
      sessions := s.sessions.insert prepared.session (record.advance .applying) }.proceed i
        who (.checking (record.advance .applying).snapshot record.baselineSettings settings
          sum)) := by
  have hh : Holds s i prepared.session := ⟨_, hre, rfl⟩
  obtain ⟨hid, start, hst, hs, hp, hb⟩ := h.records _ record hr
  have hch : Invariant { s with
      sessions := s.sessions.insert prepared.session (record.advance .applying) } :=
    h.change hr ⟨rfl, rfl, rfl⟩ (fun j hj => h.inFlight j _ record hj hr)
      (fun hsa => absurd hsa hc) fun _ => rfl
  apply hch.proceed
  · exact ⟨start, hst, hs.trans hid.symm, hp, hb⟩
  · intro session hhe
    cases hhe
    exact hid.symm ▸ hch.holdable hh
  · intro session hhe
    obtain rfl : record.snapshot.id = session := Option.some.inj hhe
    rw [hid]
    refine ⟨fun hrp => hc (h.sticky _ record hrp hr), fun fd hf => ?_⟩
    cases Std.ExtTreeMap.getElem?_insert_self.symm.trans hf
    rfl
  · intro other hph
    cases hph

theorem execute_invariant (h : Invariant s) : Invariant (s.execute i outcome) := by
  unfold State.execute
  split
  · next who session req hrq =>
    have hh : Holds s i session := ⟨_, hrq, rfl⟩
    have ho : ¬ Committing s session := h.open hrq
    have hd := h.done i
    cases outcome with
    | failed e => exact h.finishing hh rfl
    | panicked e => exact h.finishing hh rfl
    | interaction continuation interaction =>
      dsimp only
      rcases finishSetupInteraction_cases with
        ⟨e, hr⟩ | ⟨record, hre, hr | ⟨next, hc, hsa, hr⟩⟩
      · rw [hr]
        exact h.finishing hh rfl
      · rw [hr]
        exact hd.report hre
      · rw [hr]
        have hch := hd.change hre hsa (fun j hj => absurd hj (h.free hh j)) (fun hs => absurd hs hc)
          (fun hco => absurd hco.of_done ho)
        exact hch.report getElem?_insert_self
    | complete settings sum =>
      dsimp only
      split
      · exact h.finishing hh rfl
      · rcases beginSetupCommit_cases with ⟨e, hr, -⟩ | ⟨record, hre, ⟨hc, hr⟩ | ⟨hc, hr⟩⟩
        · rw [hr]
          exact hd
        · rw [hr]
          have hch : Invariant ({ s with
              sessions := s.sessions.insert session { record with inFlight := false } }.done i) :=
            hd.change hre ⟨rfl, rfl, rfl⟩ (fun j hj => absurd hj (h.free hh j)) id
              fun hco => absurd hco.of_done ho
          exact hch.fetching
        · rw [hr]
          exact h.begin hrq hre hc
  · exact h

end

theorem initial_invariant {s : State F} (h : PluginSetup.Initial s) : Invariant s := by
  obtain ⟨mg, now, rfl⟩ := h
  have hn : ∀ (id : String) (record : SetupSessionRecord F),
      (∅ : SetupSessions F)[id]? ≠ some record := by
    intro id record hre
    simp at hre
  refine ⟨nodup_nil, fun id record hre => absurd hre (hn id record), ?_, ?_, ?_, ?_, ?_, ?_, ?_, ?_⟩
  · intro i req hr
    cases hr
  · intro commit hc
    cases hc
  · rintro i session ⟨req, hr, -⟩
    cases hr
  · rintro i j session ⟨req, hr, -⟩ -
    cases hr
  · rintro i session record ⟨req, hr, -⟩
    cases hr
  · intro report hrp
    cases hrp
  · intro session record hrp
    cases hrp
  · rintro session (⟨i, req, hr, -⟩ | ⟨commit, hc, -⟩)
    · cases hr
    · cases hc

theorem next_invariant (h : Invariant s) (pgs : List (ManageablePlugin F))
    (workflows : String → Option (List String)) (hf : Fresh s a) :
    Invariant (next pgs workflows s a) := by
  cases a with
  | wait elapsed =>
    exact ⟨h.distinct, h.records, h.phases, h.commits, h.known, h.unique, h.inFlight, h.reported,
      h.sticky, fun session hc =>
        have hs := h.tooLate session hc
        ⟨hs.unreported, hs.record, hs.idle⟩⟩
  | patchManagement req => exact h.configure (patchManaged_revision pgs req s.managed)
  | start i pr plugin workflow => exact start_invariant h workflows pr plugin workflow
  | prepare i drawn => exact prepare_invariant h workflows hf
  | respond i pr session generation response =>
    exact respond_invariant h pr session generation response
  | get pr session => exact get_invariant h s.now session pr
  | cancel pr session => exact cancel_invariant h session pr
  | execute i outcome => exact execute_invariant h
  | check i => exact check_invariant h
  | commit i authorized saved applied => exact commit_invariant h pgs authorized saved applied
  | finish i => exact finish_invariant h
  | fetch i => exact fetch_invariant h
  | abandon i => exact h.done i

/-- In every interleaving, a commit of a session is the next revision of the configuration. It
finds every setting it writes at the value the session's baseline has, changes only settings of
the session's plugin, and its session is never reported as cancelled. -/
theorem setup_commits_conflict_free {plugins : List (ManageablePlugin F)}
    {workflows : String → Option (List String)} {s : State F}
    (h : Reachable PluginSetup.Initial (PluginSetup.Step plugins workflows) (fun _ _ => True) s) :
    (s.started.map (·.session)).Nodup ∧ ∀ commit ∈ s.commits,
      ∃ start ∈ s.started, start.session = commit.session ∧ start.plugin = commit.plugin ∧
        commit.after.revision = commit.before.revision + 1 ∧
        Unchanged start commit.patch commit.before ∧
        OnlySettings commit.plugin commit.before commit.after ∧
        (commit.session, .cancelled) ∉ s.reported := by
  have hi : Invariant s := by
    apply h.holds Invariant
    · exact fun s hs => initial_invariant hs
    · rintro s action t hs - ⟨hf, rfl⟩
      exact next_invariant hs plugins workflows hf
  refine ⟨hi.distinct, fun commit hc => ?_⟩
  obtain ⟨start, hst, hse, hp, hr, hu, ho⟩ := hi.commits commit hc
  have hsa := hi.tooLate commit.session (.inr ⟨commit, hc, rfl⟩)
  exact ⟨start, hst, hse, hp, hr, hu, ho, hsa.unreported⟩

/-- No two requests drive one session, and a reported cancellation is final. -/
theorem sessions_driven_alone (h : Reachable PluginSetup.Initial
      (PluginSetup.Step (F := F) plugins workflows) (fun _ _ => True) s) :
    (∀ i j session, Holds s i session → Holds s j session → i = j) ∧
      ∀ session record, (session, .cancelled) ∈ s.reported →
        s.sessions[session]? = some record → record.snapshot.state = .cancelled := by
  have hi : Invariant s := by
    apply h.holds Invariant
    · exact fun s hs => initial_invariant hs
    · rintro s action t hs - ⟨hf, rfl⟩
      exact next_invariant hs plugins workflows hf
  exact ⟨hi.unique, hi.sticky⟩

namespace Sample

open SettingsResolution.Sample ManagementTransactions.Sample

def workflows : String → Option (List String)
  | "lamp" => some ["pair"]
  | _ => none

def started : State Unit :=
  next [lampPlugin] workflows
    (next [lampPlugin] workflows {} (.start 0 "admin" "lamp" "pair")) (.prepare 0 (.ok "a1"))

/-- Another administrator sets the speed while the lamp is being named. -/
def actions : List (Action Unit) :=
  [.execute 0 (.interaction [1] (.physicalAction "Press the button.")),
    .respond 0 "admin" "a1" 1 .confirmed,
    .patchManagement (request 0 [.setPluginSetting "lamp" "lamp.speed" (.integer 2)]),
    .execute 0 (.complete ((∅ : SetupSettings Unit).insert "lamp.name" (.string "desk")) "Named."),
    .check 0,
    .commit 0 (.ok ()) (.ok ()) (.ok ()),
    .cancel "admin" "a1",
    .finish 0]

/-- While the response runs its step, a second request responds and the session is
cancelled. -/
def contested : State Unit :=
  (actions.take 2 ++ [Action.respond 1 "admin" "a1" 1 .confirmed, .cancel "admin" "a1"]).foldl
    (next [lampPlugin] workflows) started

/-- The running step completes after all. -/
def settled : State Unit :=
  next [lampPlugin] workflows contested
    (.execute 0 (.interaction [1] (.physicalAction "Press the button.")))

def named : State Unit := actions.foldl (next [lampPlugin] workflows) started

abbrev Reached : State Unit → Prop :=
  Reachable PluginSetup.Initial (PluginSetup.Step [lampPlugin] workflows) fun _ _ => True

theorem Reached.act (h : Reached s) (a : Action Unit) (hf : Fresh s a) :
    Reached (next [lampPlugin] workflows s a) := h.step trivial ⟨hf, rfl⟩

theorem reached_started : Reached started := by
  have hi : Reached {} := .initial ⟨{}, 0, rfl⟩
  exact (hi.act (.start 0 "admin" "lamp" "pair") trivial).act (.prepare 0 (.ok "a1")) not_mem_nil

theorem Reached.foldl {actions : List (Action Unit)} (h : Reached s)
    (hfr : ∀ a ∈ actions, ∀ s, Fresh s a) :
    Reached (actions.foldl (next [lampPlugin] workflows) s) := by
  induction actions generalizing s with
  | nil => exact h
  | cons a rest ih =>
    obtain ⟨hf, hr⟩ := forall_mem_cons.1 hfr
    exact ih (Reached.act h a (hf s)) hr

theorem reached_contested : Reached contested := by
  apply Reached.foldl reached_started
  simp [actions, Fresh]

theorem reached_named : Reached named := by
  apply Reached.foldl reached_started
  simp [actions, Fresh]

end Sample

open Sample in
theorem lamp_session_driven_alone :
    (Holds contested 0 "a1" ∧ ∀ j, Holds contested j "a1" → 0 = j) ∧
    ("a1", .cancelled) ∈ settled.reported ∧
      ∃ record, settled.sessions["a1"]? = some record ∧ record.snapshot.state = .cancelled := by
  have hh : Holds contested 0 "a1" := by
    have hb : (contested.requests 0).bind (held ·.phase) = some "a1" := by decide +kernel
    exact Option.bind_eq_some_iff.1 hb
  have hr : ("a1", .cancelled) ∈ settled.reported := by decide +kernel
  have hs : settled.sessions["a1"]?.isSome = true := by decide +kernel
  obtain ⟨record, hre⟩ := Option.isSome_iff_exists.1 hs
  have hst : Reached settled := reached_contested.act _ trivial
  exact ⟨⟨hh, fun j => (sessions_driven_alone reached_contested).1 0 j "a1" hh⟩, hr, record, hre,
    (sessions_driven_alone hst).2 "a1" record hr hre⟩

open Sample in
/-- The lamp is named at the second revision, and cancelling comes too late. -/
theorem lamp_named : ∃ commit ∈ named.commits, commit.session = "a1" ∧
    commit.after.revision = commit.before.revision + 1 ∧ ("a1", .cancelled) ∉ named.reported := by
  have hse : named.commits.map (·.session) = ["a1"] := by decide +kernel
  have hm : "a1" ∈ named.commits.map (·.session) := hse ▸ mem_cons_self
  obtain ⟨commit, hc, hs⟩ := mem_map.1 hm
  obtain ⟨-, hco⟩ := setup_commits_conflict_free reached_named
  obtain ⟨start, -, -, -, hr, -, -, hu⟩ := hco commit hc
  exact ⟨commit, hc, hs, hr, hs ▸ hu⟩

end SetupCommits
