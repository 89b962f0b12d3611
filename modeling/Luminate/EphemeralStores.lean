import Luminate.EventTickets
import Luminate.OneUse
import Luminate.Transition

/-! # Tickets and attestations over a run

Calls of the authentication service in any order. What was issued and accepted is
recorded beside the service. A call that fails has at most pruned, which is a step of its
own. The clocks of the calls are arbitrary. -/
namespace EphemeralStores

open Authentication OneUse Transition

structure State where
  service : AuthenticationService := {}
  tickets : List (Event TicketValue PendingTicket (Actor × Instant)) := []
  attestations : List (Event String AttestationRecord (Actor × SystemTime)) := []

inductive Action where
  | mint (actor : Actor) (context : EventTicketContext) (revocation : Option Revocation)
      (now : Instant) (draws : List (Except AuthenticationError TicketValue))
  | consume (value : TicketValue) (actor : Actor) (now : Instant) (clock : SystemTime)
  | createAttestation (request : AttestationRequest) (now : SystemTime)
      (secret : Except AuthenticationError Credential)
  | authenticate (providers : String → Option AuthenticationProvider) (now : SystemTime)
      (actor : Actor) (method : AuthenticationMethod)
  | revokeAttestation (name : String) (actor : Actor)
  | pruneTickets (now : Instant)
  | pruneAttestations (now : SystemTime)
  /-- What the other calls do to the tokens and their sessions. -/
  | tokens (tokens : TokenStore) (sessions : TokenSessions)

section

variable (sha256 : Bytes → Bytes)

def next (s : State) : Action → State
  | .mint actor context revocation now draws =>
    match mintWithFrontend actor context revocation now draws s.service.tickets with
    | .error _ => s
    | .ok (value, minted) => { s with
        service := { s.service with tickets := minted }
        tickets := .issued value ⟨context, actor, now + eventTicketLifetime, revocation⟩ ::
          s.tickets }
  | .consume value actor now clock =>
    let (consumed, service) := Authentication.consume value actor now clock s.service
    { s with service := service
             tickets := if consumed.isSome then .accepted value (actor, now) :: s.tickets
               else s.tickets }
  | .createAttestation request now secret =>
    match createAttestationWithFrontend sha256 request now secret s.service.attestations with
    | .error _ => s
    | .ok (metadata, secret, created) => { s with
        service := { s.service with attestations := created }
        attestations := .issued request.name
          (request.record sha256 metadata.verifiedGroups secret) :: s.attestations }
  | .authenticate providers now actor method =>
    match authenticateWithFrontend sha256 providers now actor method s.service with
    | .error _ => s
    | .ok (outcome, service) => { s with
        service := service
        attestations := match method, outcome.response with
          | .attestation name _, .authenticated _ =>
            .accepted name (actor, now) :: s.attestations
          | _, _ => s.attestations }
  | .revokeAttestation name actor =>
    match Authentication.revokeAttestation name actor s.service.attestations with
    | none => s
    | some rest => { s with service := { s.service with attestations := rest } }
  | .pruneTickets now =>
    { s with service := { s.service with tickets := retainPending now s.service.tickets } }
  | .pruneAttestations now => { s with service :=
      { s.service with attestations := retainUnexpired now s.service.attestations } }
  | .tokens tokens sessions => { s with service :=
      { s.service with tokens := tokens, tokenSessions := sessions } }

end

/-- The ticket was minted for the actor and has not expired. -/
def TicketAdmits (pending : PendingTicket) (presented : Actor × Instant) : Prop :=
  pending.actor = presented.1 ∧ presented.2 < pending.expiresAt

def AttestationAdmits (record : AttestationRecord) (presented : Actor × SystemTime) : Prop :=
  record.actor = presented.1 ∧ unexpired record.expiresAt presented.2

structure Invariant (s : State) : Prop where
  tickets : Kept maxEventTickets maxEventTicketsPerActor (·.actor.rateLimitKey) TicketAdmits
    s.service.tickets s.tickets
  attestations : Kept maxAttestations maxAttestationsPerActor (·.actor.rateLimitKey)
    AttestationAdmits s.service.attestations s.attestations

theorem Invariant.consume (h : Invariant s) (v : TicketValue) (actor : Actor) (now : Instant)
    (clock : SystemTime) : Invariant (next sha256 s (.consume v actor now clock)) := by
  have hr := h.tickets.retain fun _ p => now < p.expiresAt
  simp only [next, Authentication.consume, takeTicket]
  refine ⟨?_, h.attestations⟩
  split
  · split
    · next p hp =>
      split
      · next ha =>
        have hn : now < p.expiresAt := by
          rw [retainPending, Std.ExtTreeMap.getElem?_filter'] at hp
          simpa using (Option.filter_eq_some_iff.1 hp).2
        split
        · exact hr.accept hp ⟨ha, hn⟩
        · exact hr.erase v
      · exact hr
    · exact hr
  · exact h.tickets

theorem Invariant.authenticate (h : Invariant s)
    (providers : String → Option AuthenticationProvider) (now : SystemTime) (actor : Actor)
    (method : AuthenticationMethod) :
    Invariant (next sha256 s (.authenticate providers now actor method)) := by
  simp only [next]
  split
  · exact h
  · next outcome service ho =>
    cases method with
    | peer =>
      obtain rfl := (of_map_service ho).2
      exact h
    | bearer cred =>
      simp only [authenticateWithFrontend] at ho
      split at ho
      · cases ho
        exact h
      · cases ho
        exact ⟨h.tickets, h.attestations⟩
    | attestation name cred =>
      simp only [authenticateWithFrontend] at ho
      split at ho
      · cases ho
        exact h
      · next record hr =>
        split at ho
        · next hv =>
          cases ho
          simp only [Bool.and_eq_true, AttestationRecord.admits, beq_iff_eq] at hv
          exact ⟨h.tickets, h.attestations.accept hr hv.1.1⟩
        · cases ho
          exact h
    | external provider cred =>
      obtain rfl := (of_map_service ho).2
      exact h

theorem next_invariant (h : Invariant s) (a : Action) : Invariant (next sha256 s a) := by
  cases a with
  | mint actor ctx revocation now draws =>
    simp only [next]
    split
    · exact h
    · next v minted hm =>
      obtain ⟨hs, ho, rfl⟩ := mint_ok hm
      exact ⟨(h.tickets.retain _).issue hs ho, h.attestations⟩
  | consume v actor now clock => exact h.consume v actor now clock
  | createAttestation request now secret =>
    simp only [next]
    split
    · exact h
    · next metadata issued created hc =>
      obtain ⟨hs, ho, rfl⟩ := createAttestation_ok hc
      exact ⟨h.tickets, (h.attestations.retain _).issue hs ho⟩
  | authenticate providers now actor method => exact h.authenticate providers now actor method
  | revokeAttestation name actor =>
    simp only [next, Authentication.revokeAttestation]
    split
    · exact h
    · next rest hr =>
      split at hr
      · split at hr
        · cases hr
          exact ⟨h.tickets, h.attestations.erase name⟩
        · cases hr
      · cases hr
  | pruneTickets now => exact ⟨h.tickets.retain _, h.attestations⟩
  | pruneAttestations now => exact ⟨h.tickets, h.attestations.retain _⟩
  | tokens tokens ss => exact ⟨h.tickets, h.attestations⟩

def Initial (s : State) : Prop :=
  ∃ tokens sessions, s = { service := { tokens := tokens, tokenSessions := sessions } }

theorem initial_invariant (h : Initial s) : Invariant s := by
  obtain ⟨tokens, ss, rfl⟩ := h
  exact ⟨.empty, .empty⟩

/-- In every run the stores stay bounded, and every ticket and attestation is accepted at
most once, for its actor and before it expires. -/
theorem stores_bounded_and_one_use (sha256 : Bytes → Bytes) (s : State)
    (h : Reachable Initial (fun s a t => t = next sha256 s a) (fun _ _ => True) s) :
    s.service.tickets.size ≤ maxEventTickets ∧
      (∀ key, s.service.tickets.values.countP (·.actor.rateLimitKey == key) ≤
        maxEventTicketsPerActor) ∧
      s.service.attestations.size ≤ maxAttestations ∧
      (∀ key, s.service.attestations.values.countP (·.actor.rateLimitKey == key) ≤
        maxAttestationsPerActor) ∧
      UsedOnce TicketAdmits s.tickets ∧ UsedOnce AttestationAdmits s.attestations := by
  have hi : Invariant s := h.holds Invariant (fun _ => initial_invariant)
    (by rintro s a _ hs - rfl; exact next_invariant hs a)
  exact ⟨hi.tickets.size, hi.tickets.shares, hi.attestations.size, hi.attestations.shares,
    hi.tickets.sound.usedOnce, hi.attestations.sound.usedOnce⟩

open Authentication.Sample EventTickets.Sample in
theorem redeemed_ticket_is_used :
    let minted := next digest {} (.mint actor (context none) (some (.lease "login")) 0 [.ok ticket])
    let redeemed := next digest minted (.consume ticket actor 1 1)
    redeemed.tickets.length = 2 ∧ UsedOnce TicketAdmits redeemed.tickets := by
  intro minted redeemed
  have hm : Reachable Initial (fun s a t => t = next digest s a) (fun _ _ => True) minted :=
    .step (l := Action.mint actor (context none) (some (.lease "login")) 0 [.ok ticket])
      (.initial ⟨∅, ∅, rfl⟩) trivial rfl
  have hr : Reachable Initial (fun s a t => t = next digest s a) (fun _ _ => True) redeemed :=
    .step (l := Action.consume ticket actor 1 1) hm trivial rfl
  exact ⟨by decide +kernel, (stores_bounded_and_one_use digest redeemed hr).2.2.2.2.1⟩

end EphemeralStores
