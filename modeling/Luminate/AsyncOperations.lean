import Luminate.Transition
import Mathlib.Logic.Function.Basic

/-! # Asynchronous operations

`finish`, `cancel` and `set_abort_handle` of `LuminateAsyncOperation`, in any interleaving.
Each compare-exchange, once-cell set and lock section is one step. -/
namespace AsyncOperations

open Function Transition

inductive LuminateStatus where
  | ok | nullPointer | invalidUtf8 | daemonUnavailable | incompatibleDaemon | permissionDenied
  | notFound | unsupported | invalidArgument | internal | io | protocol | connectionPoisoned
  | unknownState | timeout | incompatibleEventSocket | unavailable | rateLimited
  | partialMutation | conflict | transitionImpossible | authenticationFailed | cancelled
  deriving DecidableEq

inductive LuminateAsyncCancelResult where
  | accepted | alreadyCancelled | alreadyCompleted
  deriving DecidableEq

structure AsyncTerminal (Diagnostic : Type) where
  status : LuminateStatus
  diagnostic : Option Diagnostic

inductive Call (Diagnostic : Type) where
  | finish (status : LuminateStatus) (diagnostic : Option Diagnostic)
  | cancel

inductive Result where
  | finish (won : Bool)
  | cancel (result : LuminateAsyncCancelResult)
  deriving DecidableEq

def Result.won : Result → Bool
  | .finish won => won
  | .cancel result => result = .accepted

/-- Where a call stands. -/
inductive Phase where
  | called
  | won
  | recorded
  | unlocked
  | taken (delivery : Bool)
  | returned (result : Result)
  deriving DecidableEq

/-- The operation and its calls. No status is the word `PENDING`; `delivered` holds what the
once-cell held at each run of the callback. -/
structure State (ι Diagnostic : Type) where
  terminalStatus : Option LuminateStatus := none
  terminal : Option (AsyncTerminal Diagnostic) := none
  abortHandle : Bool := false
  delivery : Bool := true
  attached : Bool := false
  aborted : Bool := false
  delivered : List (Option (AsyncTerminal Diagnostic)) := []
  phase : ι → Phase := fun _ => .called

variable {ι Diagnostic : Type} [DecidableEq ι]

def Call.terminal : Call Diagnostic → AsyncTerminal Diagnostic
  | .finish status diagnostic => ⟨status, diagnostic⟩
  | .cancel => ⟨.cancelled, none⟩

def Call.accepted : Call Diagnostic → Result
  | .finish _ _ => .finish true
  | .cancel => .cancel .accepted

def Call.refused (status : LuminateStatus) : Call Diagnostic → Result
  | .finish _ _ => .finish false
  | .cancel => .cancel (if status = .cancelled then .alreadyCancelled else .alreadyCompleted)

def State.goTo (s : State ι Diagnostic) (i : ι) (phase : Phase) : State ι Diagnostic :=
  { s with phase := update s.phase i phase }

/-- The next step of one `finish` or `cancel`. -/
def advance (call : ι → Call Diagnostic) (s : State ι Diagnostic) (i : ι) : State ι Diagnostic :=
  match s.phase i with
  | .called => match s.terminalStatus with
    | none => { s with terminalStatus := some (call i).terminal.status }.goTo i .won
    | some status => s.goTo i (.returned ((call i).refused status))
  | .won =>
    let set := { s with terminal := s.terminal.or (some (call i).terminal) }
    match call i with
    | .finish _ _ => set.goTo i .unlocked
    | .cancel => set.goTo i .recorded
  | .recorded =>
    { s with abortHandle := false, aborted := s.aborted || s.abortHandle }.goTo i .unlocked
  | .unlocked => { s with delivery := false }.goTo i (.taken s.delivery)
  | .taken delivery =>
    { s with delivered := if delivery then s.delivered ++ [s.terminal] else s.delivered }.goTo i
      (.returned (call i).accepted)
  | .returned _ => s

def setAbortHandle (s : State ι Diagnostic) : State ι Diagnostic :=
  match s.terminalStatus with
  | none => { s with abortHandle := true, attached := true }
  | some _ => { s with aborted := true, attached := true }

inductive Label (ι : Type) where
  | call (i : ι)
  | setAbortHandle

def next (call : ι → Call Diagnostic) (s : State ι Diagnostic) :
    Label ι → State ι Diagnostic
  | .call i => advance call s i
  | .setAbortHandle => setAbortHandle s

/-- The states of any interleaving of the calls with one `set_abort_handle`. -/
def Reached (call : ι → Call Diagnostic) : State ι Diagnostic → Prop :=
  Reachable (· = {}) (fun s label after => after = next call s label)
    fun s label => label = .setAbortHandle → s.attached = false

structure Pending (s : State ι Diagnostic) : Prop where
  status : s.terminalStatus = none
  terminal : s.terminal = none
  abortHandle : s.abortHandle = s.attached
  delivery : s.delivery = true
  delivered : s.delivered = []
  called : ∀ i, s.phase i = .called

/-- What the winner has done so far. -/
def Progress (s : State ι Diagnostic) (winner : Call Diagnostic) : Phase → Prop
  | .called => False
  | .won => s.terminal = none ∧ s.delivery = true ∧ s.delivered = []
  | .recorded => winner = .cancel ∧ s.terminal = some winner.terminal ∧ s.delivery = true ∧
      s.delivered = []
  | .unlocked => s.terminal = some winner.terminal ∧ s.delivery = true ∧ s.delivered = []
  | .taken delivery => delivery = true ∧ s.terminal = some winner.terminal ∧ s.delivered = []
  | .returned result => result = winner.accepted ∧ s.terminal = some winner.terminal ∧
      s.delivered = [some winner.terminal]

structure Settled (call : ι → Call Diagnostic) (w : ι) (s : State ι Diagnostic) : Prop where
  status : s.terminalStatus = some (call w).terminal.status
  progress : Progress s (call w) (s.phase w)
  /-- A handle stored before the status word changed is still to be taken. -/
  aborts : call w = .cancel → s.attached = true → s.aborted = true ∨
    s.abortHandle = true ∧ (s.phase w = .won ∨ s.phase w = .recorded)
  others : ∀ i, i ≠ w → s.phase i = .called ∨
    s.phase i = .returned ((call i).refused (call w).terminal.status)

variable {call : ι → Call Diagnostic} {w i : ι} {s : State ι Diagnostic}

theorem goTo_self : (s.goTo i phase).phase i = phase := update_self ..

theorem goTo_other (h : j ≠ i) : (s.goTo i phase).phase j = s.phase j := update_of_ne h ..

theorem Pending.advance (h : Pending s) (i : ι) : Settled call i (advance call s i) := by
  rw [AsyncOperations.advance, h.called i, h.status]
  refine ⟨rfl, ?_, fun _ ha => .inr ⟨h.abortHandle.trans ha, .inl goTo_self⟩, fun j hj => ?_⟩
  · simp only [goTo_self]
    exact ⟨h.terminal, h.delivery, h.delivered⟩
  · exact .inl ((goTo_other hj).trans (h.called j))

theorem Settled.other (h : Settled call w s) (hi : i ≠ w) : Settled call w (advance call s i) := by
  rw [advance]
  rcases h.others i hi with hp | hp
  · simp only [hp, h.status]
    refine ⟨h.status, ?_, ?_, fun j hj => ?_⟩
    · rw [goTo_other hi.symm]
      exact h.progress
    · rw [goTo_other hi.symm]
      exact h.aborts
    · by_cases hji : j = i
      · subst hji
        exact .inr goTo_self
      · rw [goTo_other hji]
        exact h.others j hj
  · rw [hp]
    exact h

theorem Settled.goTo {after : State ι Diagnostic} (h : Settled call w s)
    (hs : after.terminalStatus = s.terminalStatus) (hp : after.phase = s.phase)
    (hw : Progress after (call w) phase)
    (ha : call w = .cancel → after.attached = true → after.aborted = true ∨
      after.abortHandle = true ∧ (phase = .won ∨ phase = .recorded)) :
    Settled call w (after.goTo w phase) := by
  refine ⟨hs.trans h.status, ?_, ?_, fun i hi => ?_⟩
  · rw [goTo_self]
    exact hw
  · rw [goTo_self]
    exact ha
  · rw [goTo_other hi, hp]
    exact h.others i hi

theorem Settled.self (h : Settled call w s) : Settled call w (advance call s w) := by
  have hp := h.progress
  have ha := h.aborts
  rw [advance]
  cases hw : s.phase w with
  | called =>
    rw [hw] at hp
    exact hp.elim
  | won =>
    rw [hw] at hp ha
    obtain ⟨ht, hd⟩ := hp
    have hs : s.terminal.or (some (call w).terminal) = some (call w).terminal := by
      rw [ht, Option.none_or]
    cases hc : call w with
    | finish status diagnostic => exact h.goTo rfl rfl ⟨hc ▸ hs, hd⟩ fun hn => by simp [hc] at hn
    | cancel =>
      refine h.goTo rfl rfl ⟨hc, hc ▸ hs, hd⟩ fun hn hat => ?_
      exact (ha hn hat).imp_right fun hb => ⟨hb.1, .inr rfl⟩
  | recorded =>
    rw [hw] at hp ha
    refine h.goTo rfl rfl hp.2 fun hn hat => .inl ?_
    simpa using (ha hn hat).imp_right And.left
  | unlocked =>
    rw [hw] at hp ha
    refine h.goTo rfl rfl ⟨hp.2.1, hp.1, hp.2.2⟩ fun hn hat => ?_
    simpa using ha hn hat
  | taken delivery =>
    rw [hw] at hp ha
    obtain ⟨rfl, ht, hd⟩ := hp
    refine h.goTo rfl rfl ⟨rfl, ht, ?_⟩ fun hn hat => ?_
    · simp [hd, ht]
    · simpa using ha hn hat
  | returned result => exact h

theorem reached_invariant (h : Reached call s) : Pending s ∨ ∃ w, Settled call w s := by
  refine Reachable.holds h (fun s => Pending s ∨ ∃ w, Settled call w s) ?_ ?_
  · rintro _ rfl
    exact .inl ⟨rfl, rfl, rfl, rfl, rfl, fun _ => rfl⟩
  · rintro s label _ hi - rfl
    cases label with
    | call i =>
      rcases hi with hi | ⟨w, hi⟩
      · exact .inr ⟨i, hi.advance i⟩
      · by_cases hw : i = w
        · subst hw
          exact .inr ⟨i, hi.self⟩
        · exact .inr ⟨w, hi.other hw⟩
    | setAbortHandle =>
      rcases hi with hi | ⟨w, hi⟩
      · simp only [next, setAbortHandle, hi.status]
        exact .inl ⟨rfl, hi.terminal, rfl, hi.delivery, hi.delivered, hi.called⟩
      · simp only [next, setAbortHandle, hi.status]
        exact .inr ⟨w, rfl, hi.progress, fun _ _ => .inl rfl, hi.others⟩

theorem won_refused (call : Call Diagnostic) : (call.refused status).won = false := by
  cases call with
  | finish => rfl
  | cancel =>
    rw [Call.refused]
    split <;> rfl

/-- Once every call has returned, one of them has won: the record, the one delivery and what
the others report are those of the winner, and a winning `cancel` has aborted the task. -/
theorem operation_finishes_once [Nonempty ι] (h : Reached call s) (hattached : s.attached = true)
    (hreturned : ∀ i, ∃ result, s.phase i = .returned result) :
    ∃ w, (∀ i, (∃ result, s.phase i = .returned result ∧ result.won = true) ↔ i = w) ∧
      s.terminalStatus = some (call w).terminal.status ∧ s.terminal = some (call w).terminal ∧
      s.delivered = [some (call w).terminal] ∧
      (∀ i ≠ w, s.phase i = .returned ((call i).refused (call w).terminal.status)) ∧
      (call w = .cancel → s.aborted = true) := by
  rcases reached_invariant h with hp | ⟨w, hs⟩
  · obtain ⟨i⟩ := ‹Nonempty ι›
    obtain ⟨result, hr⟩ := hreturned i
    cases hr.symm.trans (hp.called i)
  · have ho : ∀ i ≠ w, s.phase i = .returned ((call i).refused (call w).terminal.status) := by
      intro i hi
      refine (hs.others i hi).resolve_left fun hc => ?_
      obtain ⟨result, hr⟩ := hreturned i
      cases hr.symm.trans hc
    obtain ⟨result, hr⟩ := hreturned w
    have hp := hs.progress
    have ha := hs.aborts
    rw [hr] at hp ha
    obtain ⟨rfl, ht, hd⟩ := hp
    refine ⟨w, fun i => ⟨fun ⟨result, hi, hw⟩ => ?_, ?_⟩, hs.status, ht, hd, ho, ?_⟩
    · by_contra hne
      cases hi.symm.trans (ho i hne)
      rw [won_refused] at hw
      cases hw
    · rintro rfl
      refine ⟨_, hr, ?_⟩
      cases call i <;> rfl
    · intro hc
      simpa using ha hc hattached

theorem Reached.advance (h : Reached call s) (i : ι) : Reached call (advance call s i) :=
  h.step (l := .call i) nofun rfl

def race : Fin 3 → Call Unit
  | 0 => .cancel
  | 1 => .finish .ok none
  | 2 => .cancel

/-- The first `cancel` wins against a `finish` and another `cancel`; the handle is attached
after it has set the status word, before it takes the handle. -/
theorem cancel_aborts_once : ∃ s, Reached race s ∧ s.delivered = [some ⟨.cancelled, none⟩] ∧
    s.aborted = true ∧ s.phase 1 = .returned (.finish false) ∧
    s.phase 2 = .returned (.cancel .alreadyCancelled) := by
  have hc : Reached race {} := .initial rfl
  have ha : Reached race (setAbortHandle (advance race (advance race {} 0) 1)) :=
    ((hc.advance 0).advance 1).step (l := .setAbortHandle) (fun _ => rfl) rfl
  have hr := ((((ha.advance 0).advance 2).advance 0).advance 0).advance 0
  obtain ⟨w, hw, -, -, hd, ho, ha⟩ := operation_finishes_once hr rfl fun
    | 0 | 1 | 2 => ⟨_, rfl⟩
  obtain rfl := (hw 0).1 ⟨_, rfl, rfl⟩
  exact ⟨_, hr, hd, ha rfl, ho 1 (by decide), ho 2 (by decide)⟩

end AsyncOperations
