import Luminate.SetupCommits

/-! # Sessions at rest

A session is active while it waits for an answer, applies settings or has a step in flight.
The flag of the step is set and cleared by different requests. -/
namespace SetupActivity

open PluginSettings ManagedConfiguration PluginSetup SetupCommits Transition Function

variable {F : Type}

/-- The session whose step the request `i` has in hand. -/
def heldBy (s : State F) (i : ℕ) : Option String := (s.requests i).bind (held ·.phase)

def Busy (sessions : SetupSessions F) (id : String) : Prop :=
  ∃ r, sessions[id]? = some r ∧ r.inFlight = true

/-- A step in flight is in the hand of a request. -/
def Covered (s : State F) : Prop := ∀ id, Busy s.sessions id → ∃ i, heldBy s i = some id

def isTerminal : PluginSetupSessionState → Bool
  | .completed .. | .failed _ | .cancelled => true
  | .choice .. | .physicalAction _ | .applying => false

/-- No interaction is returned to a cancelled session, and no request with a step in hand
is dropped. -/
def Guard (s : State F) : Action F → Prop
  | .execute i (.interaction ..) => ∀ id ∈ heldBy s i, ∀ r, s.sessions[id]? = some r →
      r.snapshot.state ≠ .cancelled
  | .abandon i => heldBy s i = none
  | _ => True

section

variable {s t : State F} {ss : SetupSessions F} {i : ℕ} {id x : String} {now : ℕ}
  {r : SetupSessionRecord F}

theorem busy_expire (h : Busy (expire now ss) id) : Busy ss id := by
  obtain ⟨r, hr, hf⟩ := h
  exact ⟨r, expire_subset hr, hf⟩

theorem busy_insert (h : Busy (ss.insert x r) id) :
    id = x ∧ r.inFlight = true ∨ id ≠ x ∧ Busy ss id := by
  obtain ⟨fd, hf, hb⟩ := h
  rw [Std.ExtTreeMap.getElem?_insert] at hf
  split at hf
  · next heq => exact .inl ⟨(compare_eq_iff_eq.1 heq).symm, Option.some.inj hf ▸ hb⟩
  · next hne =>
    refine .inr ⟨?_, fd, hf, hb⟩
    rintro rfl
    exact hne Std.ReflCmp.compare_self

theorem ne_of_busy (h : Busy ss id) (hx : ∀ r, ss[x]? = some r → r.inFlight = false) : id ≠ x := by
  rintro rfl
  obtain ⟨r, hr, hf⟩ := h
  rw [hx r hr] at hf
  cases hf

/-- A request goes on, or is answered: what is busy afterwards is in its hand, or was busy
before and in the hand of another. -/
theorem Covered.request (h : Covered s) (ht : t.requests = update s.requests i req)
    (hb : ∀ id, Busy t.sessions id → req.bind (held ·.phase) = some id ∨
      Busy s.sessions id ∧ heldBy s i ≠ some id) : Covered t := by
  intro id hid
  obtain hi | ⟨hs, hne⟩ := hb id hid
  · refine ⟨i, ?_⟩
    rwa [heldBy, ht, update_self]
  · obtain ⟨j, hj⟩ := h id hs
    by_cases hji : j = i
    · exact absurd (hji ▸ hj) hne
    · refine ⟨j, ?_⟩
      rwa [heldBy, ht, update_of_ne hji]

theorem Covered.proceed (h : Covered s) (ht : t.requests = update s.requests i (some req))
    (hs : held req.phase = heldBy s i) (hb : ∀ id, Busy t.sessions id → Busy s.sessions id) :
    Covered t := by
  refine h.request ht fun id hid => ?_
  by_cases hi : heldBy s i = some id
  · exact .inl (hs.trans hi)
  · exact .inr ⟨hb id hid, hi⟩

theorem Covered.frame (h : Covered s) (ht : t.requests = s.requests)
    (hb : ∀ id, Busy t.sessions id → Busy s.sessions id) : Covered t := by
  intro id hid
  obtain ⟨i, hi⟩ := h id (hb id hid)
  exact ⟨i, by rwa [heldBy, ht]⟩

theorem report_frame :
    (s.report outcome).sessions = s.sessions ∧ (s.report outcome).requests = s.requests := by
  cases outcome with
  | ok snapshot => exact ⟨rfl, rfl⟩
  | error e => exact ⟨rfl, rfl⟩

theorem Covered.report (h : Covered s) (outcome : Except String PluginSetupSession) :
    Covered (s.report outcome) := by
  obtain ⟨hs, hr⟩ := report_frame
  exact h.frame hr fun id hid => hs ▸ hid

end

section

variable {s : State F} {i : ℕ} {who : Owner}

theorem heldBy_of (h : s.requests i = some ⟨who, phase⟩) : heldBy s i = held phase := by
  rw [heldBy, h]
  rfl

section

variable (h : Covered s)

include h

theorem Covered.release (hx : heldBy s i = some x) (ht : t.requests = update s.requests i req)
    (hb : ∀ id, Busy t.sessions id → id ≠ x ∧ Busy s.sessions id) : Covered t := by
  refine h.request ht fun id hid => ?_
  obtain ⟨hne, hs⟩ := hb id hid
  refine .inr ⟨hs, fun hi => hne ?_⟩
  exact Option.some.inj (hi.symm.trans hx)

theorem Covered.take (hi : heldBy s i = none)
    (ht : t.requests = update s.requests i (some req)) (hx : held req.phase = some x)
    (hs : t.sessions = (expire now s.sessions).insert x r) : Covered t := by
  refine h.request ht fun id hid => ?_
  rw [hs] at hid
  obtain ⟨rfl, _⟩ | ⟨_, hb⟩ := busy_insert hid
  · exact .inl hx
  · exact .inr ⟨busy_expire hb, by simp [hi]⟩

theorem prepare_covered (workflows : String → Option (List String))
    (drawn : Except String String) : Covered (s.prepare workflows i drawn) := by
  unfold State.prepare
  split
  · next plugin workflow cap hrq =>
    have hi := heldBy_of hrq
    rcases prepareSetupStart_cases workflows s.now drawn plugin workflow _ _ s.sessions with
      ⟨e, hr | hr⟩ | ⟨session, req, r, rfl, hr, _⟩
    · rw [hr]
      exact h.request rfl fun id hb => .inr ⟨hb, by simp [hi, held]⟩
    · rw [hr]
      exact h.request rfl fun id hb => .inr ⟨busy_expire hb, by simp [hi, held]⟩
    · rw [hr]
      exact h.take hi rfl rfl rfl
  · exact h

theorem respond_covered (session : String) (generation : ℕ) (response : PluginSetupResponse) :
    Covered (s.respond i who session generation response) := by
  unfold State.respond
  split
  · exact h
  · next hrq =>
    rcases prepareSetupResponse_cases s.now session generation response who s.sessions with
      ⟨e, hr⟩ | ⟨r, req, _, _, _, hr⟩
    · rw [hr]
      exact h.frame rfl fun id hid => busy_expire hid
    · rw [hr]
      exact h.take (by rw [heldBy, hrq]; rfl) rfl rfl rfl

theorem cancel_covered (session : String) (owner : Owner) :
    Covered ({ s with sessions := (cancelSetup s.now session owner s.sessions).2 }.report
      (cancelSetup s.now session owner s.sessions).1) := by
  apply Covered.report
  refine h.frame rfl fun id hid => ?_
  rcases cancelSetup_cases s.now session owner s.sessions with ⟨e, hr⟩ |
    ⟨r, hre, hr | ⟨next, _, _, hf, _, hr⟩⟩
  · exact busy_expire (hr ▸ hid)
  · exact busy_expire (hr ▸ hid)
  · rw [hr] at hid
    obtain ⟨rfl, hn⟩ | ⟨_, hb⟩ := busy_insert hid
    · exact ⟨r, expire_subset hre, hf ▸ hn⟩
    · exact busy_expire hb

theorem finish_covered : Covered (s.finish i) := by
  unfold State.finish
  split
  · next session state hrq =>
    apply Covered.report
    refine h.release (heldBy_of hrq) rfl fun id hid => ?_
    change Busy (finishSetupTerminal session state s.sessions).2 id at hid
    unfold finishSetupTerminal at hid
    split at hid
    · next hn => exact ⟨ne_of_busy hid (by simp [hn]), hid⟩
    · obtain ⟨_, hf⟩ | hb := busy_insert hid
      · cases hf
      · exact hb
  · exact h

theorem interaction_covered (hrq : s.requests i = some ⟨who, .executing ⟨session, step⟩⟩)
    (continuation : List UInt8) (interaction : PluginSetupInteraction)
    (hg : Guard s (.execute i (.interaction continuation interaction))) :
    Covered (s.execute i (.interaction continuation interaction)) := by
  have hi := heldBy_of hrq
  unfold State.execute finishSetupInteraction
  rw [hrq]
  dsimp only
  cases hr : s.sessions[session]? with
  | none => exact h.proceed rfl hi.symm fun _ => id
  | some r =>
    dsimp only
    rw [if_neg (hg session hi r hr)]
    cases publicInteraction interaction with
    | error e => exact h.proceed rfl hi.symm fun _ => id
    | ok shown =>
      apply Covered.report
      refine h.release hi rfl fun id hid => ?_
      obtain ⟨_, hf⟩ | hb := busy_insert hid
      · cases hf
      · exact hb

end

theorem complete_covered (hid : ∀ (id : String) (r : SetupSessionRecord F),
      s.sessions[id]? = some r → r.snapshot.id = id) (h : Covered s)
    (hrq : s.requests i = some ⟨who, .executing ⟨session, step⟩⟩) (settings : SetupSettings F)
    (sum : String) : Covered (s.execute i (.complete settings sum)) := by
  have hi := heldBy_of hrq
  unfold State.execute
  rw [hrq]
  dsimp only
  split
  · exact h.proceed rfl hi.symm fun _ => id
  rcases beginSetupCommit_cases with ⟨e, hr, hil⟩ | ⟨r, hre, ⟨_, hr⟩ | ⟨_, hr⟩⟩
  · rw [hr]
    exact h.release hi rfl fun id hb => ⟨ne_of_busy hb hil, hb⟩
  · rw [hr]
    refine h.release hi rfl fun id hb => ?_
    obtain ⟨_, hf⟩ | hb := busy_insert hb
    · cases hf
    · exact hb
  · rw [hr]
    refine h.proceed rfl ?_ fun id hb => ?_
    · exact (congrArg some (hid session r hre)).trans hi.symm
    · obtain ⟨rfl, hf⟩ | ⟨_, hb⟩ := busy_insert hb
      · exact ⟨r, hre, hf⟩
      · exact hb

end

section

variable [FloatFormat F] {s : State F}

theorem check_covered (h : Covered s) : Covered (s.check i) := by
  unfold State.check
  split
  · next hrq =>
    have hi := heldBy_of hrq
    split
    · exact h.proceed rfl hi.symm fun _ => id
    · split
      · exact h.proceed rfl hi.symm fun _ => id
      · exact h.proceed rfl hi.symm fun _ => id
  · exact h

theorem commit_covered (h : Covered s) : Covered (s.commit ps i authorized saved applied) := by
  unfold State.commit
  split
  · next hrq =>
    have hi := heldBy_of hrq
    split
    · exact h.proceed rfl hi.symm fun _ => id
    · split
      · exact h.proceed rfl hi.symm fun _ => id
      · split
        · exact h.proceed rfl hi.symm fun _ => id
        · exact h.proceed rfl hi.symm fun _ => id
  · exact h

theorem execute_covered (hi : SetupCommits.Invariant s) (h : Covered s)
    (hg : Guard s (.execute i outcome)) : Covered (s.execute i outcome) := by
  by_cases hx : ∃ who session step, s.requests i = some ⟨who, .executing ⟨session, step⟩⟩
  · obtain ⟨who, session, step, hrq⟩ := hx
    cases outcome with
    | interaction continuation interaction =>
      exact interaction_covered h hrq continuation interaction hg
    | complete settings sum =>
      exact complete_covered (fun id r hr => (hi.records id r hr).1) h hrq settings sum
    | failed e =>
      unfold State.execute
      rw [hrq]
      exact h.proceed rfl (heldBy_of hrq).symm fun _ => id
    | panicked e =>
      unfold State.execute
      rw [hrq]
      exact h.proceed rfl (heldBy_of hrq).symm fun _ => id
  · unfold State.execute
    split
    · next who session step hrq => exact absurd ⟨who, session, step, hrq⟩ hx
    · exact h

theorem next_covered (hin : SetupCommits.Invariant s) (h : Covered s)
    (workflows : String → Option (List String)) (hg : Guard s a) :
    Covered (next ps workflows s a) := by
  cases a with
  | wait elapsed => exact h
  | patchManagement req => exact h
  | start i who plugin workflow =>
    change Covered (s.start workflows i who plugin workflow)
    unfold State.start
    split
    · next hrq _ =>
      split
      · exact h.proceed rfl (by rw [heldBy, hrq]; rfl) fun _ => id
      · exact h
    · exact h
  | prepare i drawn => exact prepare_covered h workflows drawn
  | respond i who session generation response => exact respond_covered h session generation response
  | get who session =>
    apply Covered.report
    exact h.frame rfl fun id hid => busy_expire hid
  | cancel who session => exact cancel_covered h session who
  | execute i outcome => exact execute_covered hin h hg
  | check i => exact check_covered h
  | commit i authorized saved applied => exact commit_covered h
  | finish i => exact finish_covered h
  | fetch i =>
    change Covered (s.fetch i)
    unfold State.fetch
    split
    · next hrq =>
      apply Covered.report
      exact h.request rfl fun id hid => .inr ⟨busy_expire hid, by simp [heldBy_of hrq, held]⟩
    · exact h
  | abandon i =>
    have hi : heldBy s i = none := hg
    exact h.request rfl fun id hid => .inr ⟨hid, by simp [hi]⟩

/-- In every run in which no interaction is returned to a cancelled session and no request
with a step in hand is dropped, a session that has ended and of which no step is in hand is
not active. -/
theorem ended_sessions_are_inactive (plugins : List (ManageablePlugin F))
    (workflows : String → Option (List String)) (s : State F)
    (h : Reachable PluginSetup.Initial (PluginSetup.Step plugins workflows) Guard s) (id : String)
    (r : SetupSessionRecord F) (hr : s.sessions[id]? = some r)
    (he : isTerminal r.snapshot.state = true) (hid : ∀ i, heldBy s i ≠ some id) :
    r.isActive = false := by
  have hbo : SetupCommits.Invariant s ∧ Covered s := by
    apply h.holds (fun s => SetupCommits.Invariant s ∧ Covered s)
    · intro s hs
      refine ⟨initial_invariant hs, ?_⟩
      obtain ⟨managed, now, rfl⟩ := hs
      rintro id ⟨r, hr, _⟩
      simp at hr
    · rintro s a t ⟨hin, hc⟩ hg ⟨hf, rfl⟩
      exact ⟨next_invariant hin plugins workflows hf, next_covered hin hc workflows hg⟩
  have hfl : r.inFlight = false := by
    by_contra hb
    obtain ⟨i, hi⟩ := hbo.2 id ⟨r, hr, Bool.eq_true_of_not_eq_false hb⟩
    exact hid i hi
  unfold SetupSessionRecord.isActive
  cases hs : r.snapshot.state <;> simp_all [isTerminal]

end

namespace Sample

open SetupCommits.Sample ManagementTransactions.Sample

abbrev run (s : State Unit) (actions : List (Action Unit)) : State Unit :=
  actions.foldl (next [lampPlugin] workflows) s

def failed : State Unit := run started [.execute 0 (.failed "timeout"), .finish 0]

/-- A session is cancelled while the plugin works on an answer, and the plugin returns
another interaction. -/
def overtaken : State Unit := run started
  [.execute 0 (.interaction [1] (.physicalAction "Press the button.")),
    .respond 0 "admin" "a1" 1 .confirmed, .cancel "admin" "a1",
    .execute 0 (.interaction [2] (.physicalAction "Press it again."))]

def stateOf (s : State Unit) : Option (PluginSetupSessionState × Bool) :=
  s.sessions["a1"]?.map fun r => (r.snapshot.state, r.isActive)

end Sample

open Sample SetupCommits.Sample in
theorem failed_session_is_inactive :
    ∃ r, failed.sessions["a1"]? = some r ∧ isTerminal r.snapshot.state = true ∧
      r.isActive = false := by
  have ha : ∀ s a, Reachable PluginSetup.Initial (PluginSetup.Step
      [ManagementTransactions.Sample.lampPlugin] workflows) Guard s → Guard s a → Fresh s a →
      Reachable PluginSetup.Initial (PluginSetup.Step
        [ManagementTransactions.Sample.lampPlugin] workflows) Guard (run s [a]) :=
    fun s a h hg hf => h.step hg ⟨hf, rfl⟩
  have hfi := ha _ (.prepare 0 (.ok "a1")) (ha _ (.start 0 "admin" "lamp" "pair")
    (.initial ⟨{}, 0, rfl⟩) trivial trivial) trivial List.not_mem_nil
  have hl := ha _ (.finish 0) (ha _ (.execute 0 (.failed "timeout")) hfi trivial trivial)
    trivial trivial
  have he : failed.sessions["a1"]?.map (isTerminal ·.snapshot.state) = some true := by
    decide +kernel
  obtain ⟨r, hr, ht⟩ := Option.map_eq_some_iff.1 he
  refine ⟨r, hr, ht, ended_sessions_are_inactive _ _ failed hl "a1" r hr ht ?_⟩
  intro i
  cases i with
  | zero => decide +kernel
  | succ i => exact fun h => nomatch h

namespace Counterexample

open Sample SetupCommits.Sample

/-- The interaction leaves the step of the cancelled session in flight for good. -/
theorem cancelled_session_stays_active :
    Reached overtaken ∧ stateOf overtaken = some (.cancelled, true) ∧
      ∀ i, heldBy overtaken i ≠ some "a1" := by
  refine ⟨Reached.foldl reached_started (by simp [Fresh]), by decide +kernel, fun i => ?_⟩
  cases i with
  | zero => decide +kernel
  | succ i =>
    have hn : heldBy overtaken (i + 1) = none := by with_unfolding_all rfl
    simp [hn]

end Counterexample

end SetupActivity
