import Luminate.Authentication

/-! # Redeeming event tickets

A session mints tickets that open its event stream on another connection. A ticket carries
the session's revocation receiver; one without a receiver is redeemed against a token named
like the session's credential. -/
namespace EventTickets

open Checks AccessPolicy Authentication

variable {sha256 : Bytes → Bytes} {providers : String → Option AuthenticationProvider}

/-- The attestation session has a receiver from its front end's token, or a token named like
its credential is active at redemption. -/
def Receives (record : AttestationRecord) (service later : AuthenticationService)
    (clock : SystemTime) : Prop :=
  (record.subscribe service.tokenSessions).isSome ∨
    isActive record.credentialId later.tokens clock ∧
      (later.tokenSessions[record.credentialId]?).isSome

/-- Only sessions of attestations can mint tickets that are not redeemable. -/
def Redeemable (method : AuthenticationMethod) (service later : AuthenticationService)
    (clock : SystemTime) : Prop :=
  ∀ name credential, method = .attestation name credential →
    ∀ record, service.attestations[name]? = some record → Receives record service later clock

theorem redeem_isSome_iff {p : PendingTicket} :
    (p.redeem now tokens ss).isSome ↔ p.revocation.isSome ∨
      ∀ id ∈ p.credentialId, isActive id tokens now ∧ (ss[id]?).isSome := by
  unfold PendingTicket.redeem
  split
  · next h => simp [h]
  · next id hr hc =>
    split
    · next ha => simp [hr, hc, ha, subscribe]
    · next ha => simp [hr, hc, ha]
  · next hr hc => simp [hr, hc]

theorem external_receiver (h : authenticateExternal providers provider cred = .ok outcome)
    (hs : outcome.response = .authenticated session) : outcome.revocation.isSome := by
  unfold authenticateExternal at h
  split at h
  · cases h
    cases hs
  · split at h
    · obtain ⟨answer, -, h⟩ := bind_ok_iff.1 h
      split at h
      · cases h
        cases hs
      · obtain ⟨subject, -, h⟩ := bind_ok_iff.1 h
        cases h
        rfl
    · cases h
      cases hs

theorem session_receiver {next : AuthenticationService}
    (h : authenticateWithFrontend sha256 providers now actor method service = .ok (outcome, next))
    (hs : outcome.response = .authenticated session)
    (hc : eventTicketContext scope outcome session = .ok context) :
    ((outcome.revocation.isSome ∨ context.credentialId = none) ∧
      ∀ name cred, method ≠ .attestation name cred) ∨
    ∃ name cred record, method = .attestation name cred ∧
      service.attestations[name]? = some record ∧
      outcome.revocation = record.subscribe service.tokenSessions ∧
      context.credentialId = some record.credentialId := by
  simp only [eventTicketContext, bind_ok_iff] at hc
  obtain ⟨subject, hsu, hc⟩ := hc
  cases hc
  cases method with
  | peer =>
    obtain ⟨id, -, h⟩ := bind_ok_iff.1 (of_map_service h).1
    cases h
    obtain rfl := AuthenticationResponse.authenticated.inj hs
    cases hsu
    exact .inl ⟨.inr rfl, by simp⟩
  | bearer cred =>
    simp only [authenticateWithFrontend] at h
    split at h
    · cases h
      cases hs
    · cases h
      exact .inl ⟨.inl rfl, by simp⟩
  | attestation name cred =>
    simp only [authenticateWithFrontend] at h
    split at h
    · cases h
      cases hs
    · next record hr =>
      split at h
      · cases h
        obtain rfl := AuthenticationResponse.authenticated.inj hs
        refine .inr ⟨name, cred, record, rfl, hr, rfl, ?_⟩
        cases hp : Principal.new record.subject.authority record.subject.subject
            record.verifiedGroups with
        | error e => simp [ticketSubject, hp, identified, Except.map] at hsu
        | ok who =>
          simp only [ticketSubject, reduceCtorEq, if_false, hp, identified, Except.map] at hsu
          cases hsu
          rfl
      · cases h
        cases hs
  | external provider cred => exact .inl ⟨.inl (external_receiver (of_map_service h).1 hs), by simp⟩

theorem take_of_live (hl : v.length = eventTicketBytes) (hp : tickets[v]? = some p)
    (hn : now < p.expiresAt) : (takeTicket v p.actor now tickets).1 = some p := by
  have hf : (retainPending now tickets)[v]? = some p := by
    rw [retainPending, Std.ExtTreeMap.getElem?_filter', hp]
    simp [hn]
  rw [takeTicket, if_pos hl]
  dsimp only
  rw [hf]
  dsimp only
  rw [if_pos rfl]

/-- A ticket that is presented in time, for the first time and by the actor it was minted
for is redeemed exactly where its session has a receiver or needs none. -/
theorem consume_issued_iff (sha256 : Bytes → Bytes)
    (providers : String → Option AuthenticationProvider) (now : SystemTime) (actor : Actor)
    (method : AuthenticationMethod) (service next : AuthenticationService)
    (outcome : AuthenticationOutcome) (session : SessionMetadata)
    (hauthenticated : authenticateWithFrontend sha256 providers now actor method service =
      .ok (outcome, next))
    (hsession : outcome.response = .authenticated session) (scope : Option SessionScope)
    (context : EventTicketContext)
    (hcontext : eventTicketContext scope outcome session = .ok context) (sessions : TokenSessions)
    (issuedAt : Instant) (draws : List (Except AuthenticationError TicketValue))
    (tickets minted : Tickets) (value : TicketValue) (hlength : value.length = eventTicketBytes)
    (hminted : mintWithFrontend actor context (outcome.revocation.map (resubscribe sessions))
      issuedAt draws tickets = .ok (value, minted)) (later : AuthenticationService)
    (hunused : later.tickets[value]? = minted[value]?) (presentedAt : Instant)
    (hlive : presentedAt < issuedAt + eventTicketLifetime) (clock : SystemTime) :
    (consume value actor presentedAt clock later).1.isSome ↔
      Redeemable method service later clock := by
  rw [(mint_ok hminted).2.2, Std.ExtTreeMap.getElem?_insert_self] at hunused
  have hco : (consume value actor presentedAt clock later).1.isSome ↔
      outcome.revocation.isSome ∨ ∀ id ∈ context.credentialId,
        isActive id later.tokens clock ∧ (later.tokenSessions[id]?).isSome := by
    change ((takeTicket value actor presentedAt later.tickets).1.bind _).isSome ↔ _
    rw [take_of_live hlength hunused hlive, Option.bind_some, redeem_isSome_iff, Option.isSome_map]
  rw [hco]
  obtain ⟨hf, ho⟩ | ⟨name, credential, record, rfl, hre, hr, hc⟩ :=
    session_receiver hauthenticated hsession hcontext
  · refine iff_of_true (hf.imp_right fun hn => ?_) ?_
    · simp [hn]
    · exact fun name credential hm => absurd hm (ho name credential)
  · rw [hr, hc]
    constructor
    · intro h name' credential' heq record' hr'
      obtain ⟨rfl, rfl⟩ := AuthenticationMethod.attestation.inj heq
      cases hre.symm.trans hr'
      exact h.imp_right fun h => h _ rfl
    · intro h
      refine (h name credential rfl record hre).imp_right fun h id hid => ?_
      exact Option.some.inj hid ▸ h

namespace Sample

open Authentication.Sample

def ticket : TicketValue := List.replicate 32 7

def attested (token : Option TokenId) : AttestationRecord :=
  { delegation none with frontendCredentialId := token }

def service (token : Option TokenId) : AuthenticationService :=
  { issued none with attestations := (∅ : Attestations).insert "delegation" (attested token) }

def outcome (token : Option TokenId) : AuthenticationOutcome :=
  attestationOutcome "delegation" (attested token) (token.map fun id => .token id ⟨0⟩)

def context (token : Option TokenId) : EventTicketContext where
  authenticationExpiry := none
  sessionScope := none
  subject := (Principal.new subject.authority subject.subject []).toOption
  frontendActor := none
  credentialId := some "attestation:delegation"
  frontendCredentialId := token

def minted (token : Option TokenId) : Tickets :=
  (∅ : Tickets).insert ticket
    ⟨context token, actor, eventTicketLifetime, (outcome token).revocation⟩

end Sample

open Sample Authentication.Sample in
theorem delegated_ticket_is_redeemed : (consume ticket actor 1 1 { service (some "frontend") with
      tickets := minted (some "frontend") }).1.isSome := by
  refine (consume_issued_iff digest (fun _ => none) 10 actor (.attestation "delegation" [1])
    (service (some "frontend")) _ (outcome (some "frontend")) (delegatedSession none) rfl rfl none
    (context (some "frontend")) rfl (service (some "frontend")).tokenSessions 0 [.ok ticket] ∅ _
    ticket rfl rfl _ rfl 1 (by decide) 1).2 ?_
  intro name credential hm record hr
  obtain ⟨rfl, rfl⟩ := AuthenticationMethod.attestation.inj hm
  cases hr
  exact .inl rfl

namespace Counterexample

open Sample Authentication.Sample

/-- A front end without a token issues an attestation; the tickets of the attested session
are never redeemed. -/
theorem attested_ticket_is_refused :
    authenticateWithFrontend digest (fun _ => none) 10 actor (.attestation "delegation" [1])
        (service none) = .ok (outcome none,
          { service none with attestations := (service none).attestations.erase "delegation" }) ∧
      eventTicketContext none (outcome none) (delegatedSession none) = .ok (context none) ∧
      mintWithFrontend actor (context none) (outcome none).revocation 0 [.ok ticket] ∅ =
        .ok (ticket, minted none) ∧
      (consume ticket actor 1 1 { service none with tickets := minted none }).1.isSome = false :=
  ⟨rfl, rfl, rfl, by decide +kernel⟩

end Counterexample

end EventTickets
