import Luminate.TransitionExclusivity

/-! # Waiting for a transition to end

`TransitionEntry::finish` and `wait_finished` of `daemon/transition.rs`. The lock of
the status is held for the check, or for setting the outcome, but not on to the
notifier: `notify_waiters` wakes those registered before it and stores no permit. -/
namespace TransitionWaiters

open TransitionExclusivity Transition

/-- Where a call of `wait_finished` is in its loop. -/
inductive Waiting where
  | checking
  /-- The check found no outcome. -/
  | unregistered
  | registered
  | returned
  deriving DecidableEq

inductive Finishing where
  | running
  | outcomeSet
  | returned
  deriving DecidableEq

abbrev WaiterId := ℕ

structure State where
  entry : TransitionEntry
  finishing : Finishing := .running
  waiters : WaiterId → Waiting := fun _ => .checking

def State.move (s : State) (w : WaiterId) (phase : Waiting) : State :=
  { s with waiters := Function.update s.waiters w phase }

def Waiting.notified : Waiting → Waiting
  | .registered => .checking
  | phase => phase

def State.notifyWaiters (s : State) : State :=
  { s with finishing := .returned, waiters := fun w => (s.waiters w).notified }

inductive Action where
  | check (w : WaiterId)
  | register (w : WaiterId)
  | setOutcome (outcome : TransitionOutcome)
  | notify

inductive Step : State → Action → State → Prop where
  | check {s w} (checking : s.waiters w = .checking) :
      Step s (.check w)
        (s.move w (if s.entry.isTerminal then .returned else .unregistered))
  | register {s w} (unregistered : s.waiters w = .unregistered) :
      Step s (.register w) (s.move w .registered)
  | setOutcome {s outcome} (running : s.finishing = .running) :
      Step s (.setOutcome outcome)
        { s with entry := { s.entry with outcome := some outcome }, finishing := .outcomeSet }
  | notify {s} (outcomeSet : s.finishing = .outcomeSet) : Step s .notify s.notifyWaiters

/-- Any number of calls may begin while the transition runs. -/
def Initial (s : State) : Prop := ∃ entry, entry.outcome = none ∧ s = { entry }

def Unrestricted (_ : State) (_ : Action) : Prop := True

/-- `notify_waiters` runs while no call is between its check and its registration. -/
def NotifiesAll (s : State) : Action → Prop
  | .notify => ∀ w, s.waiters w ≠ .unregistered
  | _ => True

/-- The calls that are left find the outcome at their next check. -/
structure Awake (s : State) : Prop where
  finished : s.finishing = .returned
  terminal : s.entry.isTerminal = true
  checking : ∀ w, s.waiters w = .checking ∨ s.waiters w = .returned

variable {s t : State} {w : WaiterId}

theorem Awake.move (h : Awake s) (hp : phase = .checking ∨ phase = .returned) :
    Awake (s.move w phase) := by
  refine ⟨h.finished, h.terminal, fun v => ?_⟩
  by_cases hv : v = w
  · subst hv
    simpa [State.move] using hp
  · simpa [State.move, hv] using h.checking v

theorem Awake.step (h : Awake s) (hs : Step s a t) : Awake t := by
  cases hs with
  | check _ =>
    rw [h.terminal]
    exact h.move (.inr rfl)
  | @register w hu =>
    have hw := h.checking w
    simp [hu] at hw
  | setOutcome hr => simp [h.finished] at hr
  | notify hr => simp [h.finished] at hr

theorem Awake.not_registered (h : Awake s) : s.waiters w ≠ .registered := by
  rcases h.checking w with hw | hw <;> simp [hw]

theorem awake_notifyWaiters (ht : s.entry.isTerminal = true)
    (hn : ∀ w, s.waiters w ≠ .unregistered) : Awake s.notifyWaiters := by
  refine ⟨rfl, ht, fun w => ?_⟩
  simp only [State.notifyWaiters]
  cases h : s.waiters w <;> simp_all [Waiting.notified]

/-- The outcome is set before `finish` goes on to the notifier. -/
theorem terminal_step (h : s.finishing ≠ .running → s.entry.isTerminal = true)
    (hs : Step s a t) : t.finishing ≠ .running → t.entry.isTerminal = true := by
  cases hs with
  | check _ | register _ => exact h
  | setOutcome _ => exact fun _ => rfl
  | notify hr => exact fun _ => h (by simp [hr])

theorem terminal_of_reachable {guard : State → Action → Prop}
    (h : Reachable Initial Step guard s) : s.finishing ≠ .running → s.entry.isTerminal = true := by
  refine h.holds _ ?_ fun _ _ _ hi _ hs => terminal_step hi hs
  rintro _ ⟨_, -, rfl⟩ hr
  exact absurd rfl hr

theorem awake_of_reachable (h : Reachable Initial Step NotifiesAll s) :
    s.finishing = .returned → Awake s := by
  induction h with
  | initial hi =>
    obtain ⟨_, -, rfl⟩ := hi
    simp
  | @step s a t hr hg hs ih =>
    intro hf
    cases hs with
    | check hw => exact (ih hf).step (.check hw)
    | register hw => exact (ih hf).step (.register hw)
    | setOutcome _ => simp at hf
    | notify ho => exact awake_notifyWaiters (terminal_of_reachable hr (by simp [ho])) hg

/-- A call that has checked before the outcome was set registers after the only
notification, and waits for ever. -/
theorem finish_wakes_all_iff (s : State) :
    (Reachable Initial Step NotifiesAll s → s.finishing = .returned →
      ∀ w, s.waiters w ≠ .registered) ∧
    (Reachable Initial Step Unrestricted s → s.finishing = .outcomeSet →
      ((∀ t, Reachable (· = s.notifyWaiters) Step Unrestricted t →
          ∀ w, t.waiters w ≠ .registered) ↔ NotifiesAll s .notify)) := by
  refine ⟨fun h hf w => (awake_of_reachable h hf).not_registered, fun h ho => ?_⟩
  constructor
  · intro hall w hw
    have hu : s.notifyWaiters.waiters w = .unregistered := by
      simp [State.notifyWaiters, hw, Waiting.notified]
    exact hall _ (.step (.initial rfl) trivial (.register hu)) w (by simp [State.move])
  · intro hn t ht w
    have haw := awake_notifyWaiters (terminal_of_reachable h (by simp [ho])) hn
    have hat : Awake t := ht.holds Awake (fun _ h => h ▸ haw) fun _ _ _ hi _ hs => hi.step hs
    exact hat.not_registered

namespace Counterexample

def entry : TransitionEntry := { id := "fade", targets := [] }

def checked : State := State.move { entry } 0 .unregistered

end Counterexample

open Counterexample in
theorem registered_waiter_woken :
    ∃ before after, Reachable Initial Step NotifiesAll before ∧ before.waiters 0 = .registered ∧
      Step before .notify after ∧ ∀ w, after.waiters w ≠ .registered := by
  have hc : Reachable Initial Step NotifiesAll checked :=
    .step (l := Action.check 0) (.initial ⟨entry, rfl, rfl⟩) trivial (.check rfl)
  have hr := hc.step (l := Action.register 0) trivial (.register rfl)
  have ho := hr.step (l := Action.setOutcome .completed) trivial (.setOutcome rfl)
  have hg : ∀ w, (checked.move 0 .registered).waiters w ≠ .unregistered
    | 0 | _ + 1 => nofun
  exact ⟨_, _, ho, rfl, .notify rfl,
    (finish_wakes_all_iff _).1 (ho.step (l := Action.notify) hg (.notify rfl)) rfl⟩

open Counterexample in
/-- A waiter checks before the outcome is set and registers after the notification: it is never
woken. -/
theorem finish_misses_waiter :
    ∃ s, Reachable Initial Step Unrestricted s ∧ s.finishing = .returned ∧
      s.waiters 0 = .registered := by
  have hc : Reachable Initial Step Unrestricted checked :=
    .step (.initial ⟨entry, rfl, rfl⟩) trivial (.check rfl)
  have ho := hc.step (l := Action.setOutcome .completed) trivial (.setOutcome rfl)
  have hn := ho.step (l := Action.notify) trivial (.notify rfl)
  exact ⟨_, hn.step (l := Action.register 0) trivial (.register rfl), rfl, rfl⟩

end TransitionWaiters
