import Luminate.Authentication
import Luminate.Transition

/-! # Revocation reaches sessions

Connections authenticate, mint and redeem tickets while tokens are revoked and
rotated. Every acquisition of a lock of `AuthenticationService` is one step; the
token lock and the attestation lock can be held from one step to the next.
Secrets of a token are numbered: which secret an authority stems from, and which
calls have returned, is recorded beside the state and never read by the code. -/
namespace SessionRevocation

open Checks Authentication Broadcast AccessPolicy List Std.ExtTreeMap Function Std

abbrev ConnectionId := ℕ
abbrev CallId := ℕ

/-- The `secret`-th secret of a token. -/
structure Authority where
  token : TokenId
  secret : ℕ
  deriving DecidableEq

structure Session where
  context : EventTicketContext
  revocation : Option Revocation
  authority : Option Authority

/-- Where a connection stands between two lock acquisitions. -/
inductive Phase where
  | idle
  /-- Token found, token lock held. -/
  | bearer (token : TokenRecord) (secret : ℕ)
  /-- Attestation found, attestation lock held. -/
  | attesting (name : String) (credential : Credential)
  /-- Attestation removed, attestation lock held. -/
  | attested (name : String) (record : AttestationRecord) (secret : ℕ)
  | primary (session : Session)
  /-- Serving `IssueEventTicket`, with the receiver of the ticket in hand. -/
  | minting (session : Session) (revocation : Option Revocation)
  /-- Ticket removed; its credential is not yet checked. -/
  | redeeming (pending : PendingTicket) (authority : Option Authority)
  /-- Credential active, token lock held. -/
  | redeemed (pending : PendingTicket) (authority : Option Authority)
  | event (session : Session)
  | closed

structure State where
  service : AuthenticationService
  tokensLock : Option ConnectionId := none
  attestationsLock : Option ConnectionId := none
  connections : ConnectionId → Phase := fun _ => .idle
  /-- Calls that replaced a secret and have not sent yet, with the number of the
  secret that follows. -/
  calls : CallId → Option Authority := fun _ => none
  secret : TokenId → ℕ := fun _ => 0
  returned : List Authority := []
  issuedUnder : String → ℕ := fun _ => 0
  mintedBy : TicketValue → Option Authority := fun _ => none

def Initial (s : State) : Prop := ∃ tokens, s = { service := { tokens := tokens } }

def State.move (s : State) (c : ConnectionId) (phase : Phase) : State :=
  { s with connections := update s.connections c phase }

def State.setTokens (s : State) (tokens : TokenStore) : State :=
  { s with service := { s.service with tokens := tokens } }

def State.setAttestations (s : State) (attestations : Attestations) : State :=
  { s with service := { s.service with attestations := attestations } }

def State.setTickets (s : State) (tickets : Tickets) : State :=
  { s with service := { s.service with tickets := tickets } }

def State.setSessions (s : State) (sessions : TokenSessions) : State :=
  { s with service := { s.service with tokenSessions := sessions } }

/-- A call under the token lock has ended the present secret of `id`. -/
def State.endSecret (s : State) (call : CallId) (id : TokenId) : State :=
  { s with secret := update s.secret id (s.secret id + 1)
           calls := update s.calls call (some ⟨id, s.secret id + 1⟩) }

def State.notify (s : State) (call : CallId) (ended : Authority) : State :=
  { s.setSessions (notifySessions ended.token s.service.tokenSessions) with
    calls := update s.calls call none
    returned := ended :: s.returned }

/-- The request loop starts unless the handshake fails. -/
def enter (scope : Option SessionScope) (outcome : AuthenticationOutcome)
    (authority : Option Authority) : Phase :=
  match outcome.response with
  | .rejected _ => .closed
  | .authenticated session =>
    match eventTicketContext scope outcome session with
    | .error _ => .closed
    | .ok context => .primary ⟨context, outcome.revocation, authority⟩

def ticketSession (pending : PendingTicket) (revocation : Option Revocation)
    (authority : Option Authority) : Session :=
  ⟨pending.toEventTicketContext, revocation, authority⟩

def afterTake (pending : PendingTicket) (authority : Option Authority) : Phase :=
  match pending.revocation, pending.credentialId with
  | none, some _ => .redeeming pending authority
  | revocation, _ => .event (ticketSession pending revocation authority)

def attestationAuthority (record : AttestationRecord) (secret : ℕ) : Option Authority :=
  record.frontendCredentialId.map (⟨·, secret⟩)

/-- Phases a connection may end in at any time: none of them holds a lock. -/
def Phase.mayClose : Phase → Bool
  | .idle | .primary _ | .redeeming _ _ | .event _ => true
  | _ => false

inductive Action where
  | createToken (id : TokenId)
  | revokeToken (call : CallId) (id : TokenId)
  | revokeAgain (id : TokenId)
  | rotateToken (call : CallId) (id : TokenId)
  | notify (call : CallId)
  | createAttestation (name : String)
  | revokeAttestation (name : String)
  | pruneTickets
  | pruneAttestations
  | authenticatePeer (c : ConnectionId)
  | authenticateExternal (c : ConnectionId)
  | bearerCheck (c : ConnectionId)
  | bearerSubscribe (c : ConnectionId)
  | attestationLookup (c : ConnectionId)
  | attestationCheck (c : ConnectionId)
  | attestationSubscribe (c : ConnectionId)
  | resubscribe (c : ConnectionId)
  | mint (c : ConnectionId)
  | takeTicket (c : ConnectionId)
  | redeemCheck (c : ConnectionId)
  | redeemSubscribe (c : ConnectionId)
  | close (c : ConnectionId)

section

variable (sha256 : Bytes → Bytes) (providers : String → Option AuthenticationProvider)
  (actor : ConnectionId → Actor)

/-- `secret` in `createAttestation` is the secret the front end authenticated with:
the present one, or an earlier one if its session has outlived that. -/
inductive Step : State → Action → State → Prop where
  | createToken {s id subject expiresAt secret persist metadata issued tokens}
      (free : s.tokensLock = none)
      (created : Authentication.createToken sha256 id subject expiresAt secret persist
        s.service.tokens = .ok (metadata, issued, tokens)) :
      Step s (.createToken id) (s.setTokens tokens)
  | revokeToken {s call id persist tokens} (free : s.tokensLock = none)
      (unused : s.calls call = none)
      (revoked : Authentication.revokeToken id persist s.service.tokens = .ok (some tokens)) :
      Step s (.revokeToken call id) ((s.setTokens tokens).endSecret call id)
  | revokeAgain {s id persist} (free : s.tokensLock = none)
      (unchanged : Authentication.revokeToken id persist s.service.tokens = .ok none) :
      Step s (.revokeAgain id) { s with returned := ⟨id, s.secret id⟩ :: s.returned }
  | rotateToken {s call id expiresAt secret persist metadata issued tokens}
      (free : s.tokensLock = none) (unused : s.calls call = none)
      (rotated : Authentication.rotateToken sha256 id expiresAt secret persist
        s.service.tokens = .ok (metadata, issued, tokens)) :
      Step s (.rotateToken call id) ((s.setTokens tokens).endSecret call id)
  | notify {s call ended} (running : s.calls call = some ended) :
      Step s (.notify call) (s.notify call ended)
  | createAttestation {s request now drawn metadata issued attestations secret}
      (free : s.attestationsLock = none)
      (created : createAttestationWithFrontend sha256 request now drawn s.service.attestations =
        .ok (metadata, issued, attestations))
      (known : ∀ id ∈ request.frontendCredentialId, secret ≤ s.secret id) :
      Step s (.createAttestation request.name)
        { s.setAttestations attestations with
          issuedUnder := update s.issuedUnder request.name secret }
  | revokeAttestation {s name revoker attestations} (free : s.attestationsLock = none)
      (revoked : Authentication.revokeAttestation name revoker s.service.attestations =
        some attestations) :
      Step s (.revokeAttestation name) (s.setAttestations attestations)
  | pruneTickets {s now} :
      Step s .pruneTickets (s.setTickets (retainPending now s.service.tickets))
  | pruneAttestations {s now} (free : s.attestationsLock = none) :
      Step s .pruneAttestations
        (s.setAttestations (retainUnexpired now s.service.attestations))
  | authenticatePeer {s c outcome scope} (waiting : s.connections c = .idle)
      (authenticated : Authentication.authenticatePeer (actor c) = .ok outcome) :
      Step s (.authenticatePeer c) (s.move c (enter scope outcome none))
  | authenticateExternal {s c provider credential outcome scope}
      (waiting : s.connections c = .idle)
      (authenticated : Authentication.authenticateExternal providers provider credential =
        .ok outcome) :
      Step s (.authenticateExternal c) (s.move c (enter scope outcome none))
  | bearerCheck {s c credential now token} (waiting : s.connections c = .idle)
      (free : s.tokensLock = none)
      (found : authenticate sha256 s.service.tokens credential now = some token) :
      Step s (.bearerCheck c)
        { s.move c (.bearer token (s.secret token.id)) with tokensLock := some c }
  | bearerSubscribe {s c token secret scope} (checked : s.connections c = .bearer token secret) :
      Step s (.bearerSubscribe c)
        (let (revocation, sessions) := subscribeOrInsert token.id s.service.tokenSessions
         { (s.setSessions sessions).move c
            (enter scope (bearerOutcome token revocation) (some ⟨token.id, secret⟩)) with
            tokensLock := none })
  | attestationLookup {s c name credential record now} (waiting : s.connections c = .idle)
      (free : s.attestationsLock = none)
      (found : s.service.attestations[name]? = some record)
      (admitted : record.admits (actor c) now = true) :
      Step s (.attestationLookup c)
        { s.move c (.attesting name credential) with attestationsLock := some c }
  | attestationCheck {s c name credential record now}
      (found : s.connections c = .attesting name credential)
      (stands : s.service.attestations[name]? = some record)
      (free : record.frontendCredentialId.isSome → s.tokensLock = none)
      (active : record.frontendActive s.service.tokens now = true)
      (presented : record.presents sha256 credential = true) :
      Step s (.attestationCheck c)
        ((s.setAttestations (s.service.attestations.erase name)).move c
          (.attested name record (s.issuedUnder name)))
  | attestationReject {s c name credential} (found : s.connections c = .attesting name credential)
      (refused : ∃ now, ∀ record, s.service.attestations[name]? = some record →
        record.frontendActive s.service.tokens now = false ∨
          record.presents sha256 credential = false) :
      Step s (.attestationCheck c) { s.move c .closed with attestationsLock := none }
  | attestationSubscribe {s c name record secret scope}
      (removed : s.connections c = .attested name record secret) :
      Step s (.attestationSubscribe c)
        { s.move c (enter scope
            (attestationOutcome name record (record.subscribe s.service.tokenSessions))
            (attestationAuthority record secret)) with attestationsLock := none }
  | resubscribe {s c session} (serving : s.connections c = .primary session) :
      Step s (.resubscribe c) (s.move c (.minting session
        (session.revocation.map (Authentication.resubscribe s.service.tokenSessions))))
  | mint {s c session revocation now draws value tickets}
      (serving : s.connections c = .minting session revocation)
      (minted : mintWithFrontend (actor c) session.context revocation now draws
        s.service.tickets = .ok (value, tickets)) :
      Step s (.mint c)
        { (s.setTickets tickets).move c (.primary session) with
          mintedBy := update s.mintedBy value session.authority }
  | mintFails {s c session revocation now draws error}
      (serving : s.connections c = .minting session revocation)
      (failed : mintWithFrontend (actor c) session.context revocation now draws
        s.service.tickets = .error error) :
      Step s (.mint c) (s.move c (.primary session))
  | takeTicket {s c value now pending tickets} (waiting : s.connections c = .idle)
      (taken : Authentication.takeTicket value (actor c) now s.service.tickets =
        (some pending, tickets)) :
      Step s (.takeTicket c)
        ((s.setTickets tickets).move c (afterTake pending (s.mintedBy value)))
  | redeemCheck {s c pending authority id now}
      (taken : s.connections c = .redeeming pending authority)
      (credential : pending.credentialId = some id) (free : s.tokensLock = none)
      (active : isActive id s.service.tokens now = true) :
      Step s (.redeemCheck c)
        { s.move c (.redeemed pending authority) with tokensLock := some c }
  | redeemSubscribe {s c pending authority id}
      (checked : s.connections c = .redeemed pending authority)
      (credential : pending.credentialId = some id) :
      Step s (.redeemSubscribe c)
        { s.move c (match subscribe id s.service.tokenSessions with
            | some revocation => .event (ticketSession pending (some revocation) authority)
            | none => .closed) with tokensLock := none }
  | close {s c} (ends : (s.connections c).mayClose = true) :
      Step s (.close c) (s.move c .closed)

end

/-- A message that ends `revocation`'s session is waiting for it. -/
def MessagePending (sessions : TokenSessions) (id : TokenId) (revocation : Option Revocation) :
    Prop :=
  ∃ receiver, revocation = some (.token id receiver) ∧
    ∃ channel, sessions[id]? = some channel ∧ channel.Pending receiver

/-- Whether `wait_for_revocation` resolves; a lagging receiver resolves as well. -/
def wakes (sessions : TokenSessions) : Option Revocation → Bool
  | some (.token id receiver) =>
    (sessions[id]?).any fun channel => (channel.recv receiver).1 ≠ .empty
  | _ => false

variable {sessions : TokenSessions} {revocation : Option Revocation} {s : State}
  {returned : List Authority} {grant : Grant} {secret : TokenId → ℕ} {authority : Option Authority}
  {pending : PendingTicket} {calls : CallId → Option Authority} {call : CallId} {c : ConnectionId}
  {ph : Phase} {tickets : Tickets} {value : TicketValue}

theorem wakes_of_messagePending {id : TokenId} (h : MessagePending sessions id revocation) :
    wakes sessions revocation = true := by
  obtain ⟨receiver, rfl, ch, hc, hp⟩ := h
  have hr : (ch.recv receiver).1 ≠ .empty := fun he => recv_waits_iff.1 he hp
  simp [wakes, hc, hr]

def Ended (returned : List Authority) (authority : Authority) : Prop :=
  ∃ n, ⟨authority.token, n⟩ ∈ returned ∧ authority.secret < n

def Phase.session : Phase → Option Session
  | .primary session | .minting session _ | .event session => some session
  | _ => none

def RevocationReaches (s : State) : Prop :=
  ∀ c, ∀ session ∈ (s.connections c).session, ∀ authority ∈ session.authority,
    Ended s.returned authority →
      MessagePending s.service.tokenSessions authority.token session.revocation ∧
        wakes s.service.tokenSessions session.revocation = true

/-- The steps that keep to the order of check, subscription and send:
* a call that finds its token revoked returns only after the call that revoked it;
* a delegated session subscribes while the channel of its token exists and no call
  that ended its front end's secret has returned;
* a ticket's receiver is made while no message waits for the session. -/
def Guard (s : State) : Action → Prop
  | .revokeAgain id => ∀ call n, s.calls call ≠ some ⟨id, n⟩
  | .attestationSubscribe c => ∀ name record secret,
      s.connections c = .attested name record secret →
      ∀ authority ∈ attestationAuthority record secret,
        s.service.tokenSessions.contains authority.token = true ∧ ¬ Ended s.returned authority
  | .resubscribe c => ∀ session, s.connections c = .primary session →
      ∀ id, ¬ MessagePending s.service.tokenSessions id session.revocation
  | _ => True

/-- A receiver together with the authority it answers for. -/
structure Grant where
  revocation : Option Revocation
  authority : Option Authority

/-- The receiver is subscribed to the channel of its authority, and has a message
pending once the authority has ended. -/
def Covered (sessions : TokenSessions) (returned : List Authority) (grant : Grant) : Prop :=
  ∀ authority ∈ grant.authority, ∃ receiver,
    grant.revocation = some (.token authority.token receiver) ∧
    ∃ channel, sessions[authority.token]? = some channel ∧ channel.Subscribed receiver ∧
      (Ended returned authority → channel.Pending receiver)

def Phase.grants : Phase → List Grant
  | .primary session | .event session => [⟨session.revocation, session.authority⟩]
  | .minting session revocation =>
    [⟨session.revocation, session.authority⟩, ⟨revocation, session.authority⟩]
  | .redeeming _ authority | .redeemed _ authority => [⟨none, authority⟩]
  | _ => []

/-- Every secret that was replaced was replaced by a call that has returned or is
still running. -/
structure CallsAccounted (returned : List Authority) (calls : CallId → Option Authority)
    (secret : TokenId → ℕ) : Prop where
  returned_le : ∀ ended ∈ returned, ended.secret ≤ secret ended.token
  running_le : ∀ call, ∀ ended ∈ calls call, ended.secret ≤ secret ended.token
  accounted : ∀ id n, 0 < n → n ≤ secret id →
    ⟨id, n⟩ ∈ returned ∨ ∃ call, calls call = some ⟨id, n⟩

def Phase.holdsTokens : Phase → Bool
  | .bearer _ _ | .redeemed _ _ => true
  | _ => false

structure Invariant (s : State) : Prop where
  calls : CallsAccounted s.returned s.calls s.secret
  locked : ∀ c, (s.connections c).holdsTokens = true → s.tokensLock = some c
  bearer : ∀ c token secret, s.connections c = .bearer token secret → secret = s.secret token.id
  grants : ∀ c, ∀ grant ∈ (s.connections c).grants,
    Covered s.service.tokenSessions s.returned grant
  tickets : ∀ value pending, s.service.tickets[value]? = some pending →
    Covered s.service.tokenSessions s.returned ⟨pending.revocation, s.mintedBy value⟩

theorem Invariant.revocationReaches (h : Invariant s) : RevocationReaches s := by
  intro c session hs authority ha he
  have hg : (⟨session.revocation, session.authority⟩ : Grant) ∈ (s.connections c).grants := by
    cases hph : s.connections c <;> simp_all [Phase.session, Phase.grants]
  obtain ⟨receiver, hr, ch, hc, -, hp⟩ := h.grants c _ hg authority ha
  have hm : MessagePending s.service.tokenSessions authority.token session.revocation :=
    ⟨receiver, hr, ch, hc, hp he⟩
  exact ⟨hm, wakes_of_messagePending hm⟩

theorem initial_invariant (h : Initial s) : Invariant s := by
  obtain ⟨tokens, rfl⟩ := h
  refine ⟨⟨?_, ?_, ?_⟩, ?_, ?_, ?_, ?_⟩
  · simp
  · simp
  · intro id n hp hle
    exact absurd hle (Nat.not_le_of_lt hp)
  · simp [Phase.holdsTokens]
  · simp
  · simp [Phase.grants]
  · simp

theorem covered_none : Covered sessions returned ⟨revocation, none⟩ := by
  simp [Covered]

theorem covered_subscribe (authority : Authority) (hc : sessions[authority.token]? = some ch)
    (hv : ¬ Ended returned authority) :
    Covered sessions returned ⟨some (.token authority.token ch.subscribe), some authority⟩ := by
  intro a ha
  cases ha
  exact ⟨_, rfl, ch, hc, subscribed_subscribe, fun h => absurd h hv⟩

theorem Covered.mono (h : Covered sessions returned grant) (hse : ∀ (id : TokenId) (ch : Channel),
      sessions[id]? = some ch → later[id]? = some ch)
    (hre : ∀ authority, Ended since authority → Ended returned authority) :
    Covered later since grant := by
  intro authority ha
  obtain ⟨receiver, hr, ch, hc, hs, hp⟩ := h authority ha
  exact ⟨receiver, hr, ch, hse _ _ hc, hs, fun he => hp (hre _ he)⟩

theorem getElem?_subscribeOrInsert (id : TokenId) {key : TokenId} (h : sessions[key]? = some ch) :
    (subscribeOrInsert id sessions).2[key]? = some ch := by
  by_cases hk : id = key
  · subst hk
    simp [subscribeOrInsert, tokenChannel, h]
  · simp [subscribeOrInsert, ExtTreeMap.getElem?_insert, hk, h]

/-- A send reaches every receiver subscribed to the channel, so it makes up for the
call that returns with it. -/
theorem Covered.notify (ended : Authority) (h : Covered sessions returned grant) :
    Covered (notifySessions ended.token sessions) (ended :: returned) grant := by
  intro authority ha
  obtain ⟨receiver, hr, ch, hc, hs, hp⟩ := h authority ha
  by_cases ht : ended.token = authority.token
  · refine ⟨receiver, hr, ch.send, ?_, subscribed_send hs, fun _ => pending_send hs⟩
    rw [ht, notifySessions, hc]
    exact getElem?_insert_self
  · refine ⟨receiver, hr, ch, ?_, hs, ?_⟩
    · unfold notifySessions
      split
      · simp [ExtTreeMap.getElem?_insert, ht, hc]
      · exact hc
    · rintro ⟨n, hn, hlt⟩
      refine hp ⟨n, ?_, hlt⟩
      rcases mem_cons.1 hn with rfl | hn
      · exact absurd rfl ht
      · exact hn

theorem covered_attestation {secret : ℕ} (h : ∀ authority ∈ attestationAuthority record secret,
      sessions.contains authority.token = true ∧ ¬ Ended returned authority) :
    Covered sessions returned ⟨record.subscribe sessions, attestationAuthority record secret⟩ := by
  intro authority ha
  obtain ⟨hc, hv⟩ := h authority ha
  rw [contains_eq_isSome_getElem?] at hc
  obtain ⟨ch, hch⟩ := Option.isSome_iff_exists.1 hc
  have hs : record.subscribe sessions = some (.token authority.token ch.subscribe) := by
    obtain ⟨id, hid, rfl⟩ := Option.map_eq_some_iff.1 ha
    simp [AttestationRecord.subscribe, hid, subscribe, hch]
  rw [hs]
  exact covered_subscribe authority hch hv authority rfl

theorem covered_resubscribe (h : Covered sessions returned ⟨revocation, authority⟩)
    (hq : ∀ id, ¬ MessagePending sessions id revocation) :
    Covered sessions returned ⟨revocation.map (resubscribe sessions), authority⟩ := by
  intro a ha
  obtain ⟨receiver, hr, ch, hc, -, hp⟩ := h a ha
  have hv : ¬ Ended returned a := fun he =>
    hq a.token ⟨receiver, hr, ch, hc, hp he⟩
  have hf : revocation.map (resubscribe sessions) = some (.token a.token ch.subscribe) := by
    simp only at hr
    simp [hr, resubscribe, tokenChannel, hc]
  rw [hf]
  exact covered_subscribe a hc hv a rfl

theorem grants_enter (h : grant ∈ (enter scope outcome authority).grants) :
    grant = ⟨outcome.revocation, authority⟩ := by
  unfold enter at h
  split at h
  · simp [Phase.grants] at h
  · split at h
    · simp [Phase.grants] at h
    · simpa [Phase.grants] using h

theorem grants_afterTake (h : grant ∈ (afterTake pending authority).grants) :
    grant = ⟨pending.revocation, authority⟩ := by
  unfold afterTake at h
  split at h
  · next hr _ => simpa [Phase.grants, hr] using h
  · simpa [Phase.grants, ticketSession] using h

section

variable (h : CallsAccounted returned calls secret)

include h

theorem CallsAccounted.endSecret (hu : calls call = none) (id : TokenId) :
    CallsAccounted returned (update calls call (some ⟨id, secret id + 1⟩))
      (update secret id (secret id + 1)) := by
  have hg : ∀ key, secret key ≤ update secret id (secret id + 1) key := by
    intro key
    by_cases hk : key = id
    · subst hk
      simp
    · simp [hk]
  refine ⟨fun ended he => (h.returned_le ended he).trans (hg _), ?_, ?_⟩
  · intro other ended he
    by_cases ho : other = call
    · subst ho
      obtain rfl : _ = ended := by simpa using he
      simp
    · rw [update_of_ne ho] at he
      exact (h.running_le other ended he).trans (hg _)
  · intro key n hp hle
    by_cases hn : key = id ∧ n = secret id + 1
    · obtain ⟨rfl, rfl⟩ := hn
      exact .inr ⟨call, update_self ..⟩
    · have hol : n ≤ secret key := by
        by_cases hk : key = id
        · subst hk
          simp only [update_self, true_and] at hle hn
          omega
        · simpa [hk] using hle
      refine (h.accounted key n hp hol).imp_right fun ⟨other, ho⟩ => ⟨other, ?_⟩
      have hne : other ≠ call := by
        rintro rfl
        simp [hu] at ho
      rw [update_of_ne hne, ho]

theorem CallsAccounted.notify (hr : calls call = some ended) :
    CallsAccounted (ended :: returned) (update calls call none) secret := by
  refine ⟨?_, ?_, ?_⟩
  · intro other ho
    rcases mem_cons.1 ho with rfl | ho
    · exact h.running_le call other hr
    · exact h.returned_le other ho
  · intro other known hk
    by_cases ho : other = call
    · subst ho
      simp at hk
    · rw [update_of_ne ho] at hk
      exact h.running_le other known hk
  · intro id n hp hle
    rcases h.accounted id n hp hle with hre | ⟨other, ho⟩
    · exact .inl (mem_cons_of_mem _ hre)
    · by_cases hc : other = call
      · subst hc
        cases hr.symm.trans ho
        exact .inl mem_cons_self
      · exact .inr ⟨other, by rw [update_of_ne hc, ho]⟩

theorem CallsAccounted.ended_again {id : TokenId}
    (hq : ∀ call n, calls call ≠ some ⟨id, n⟩) {authority : Authority}
    (he : Ended (⟨id, secret id⟩ :: returned) authority) : Ended returned authority := by
  obtain ⟨n, hn, hlt⟩ := he
  refine ⟨n, ?_, hlt⟩
  rcases mem_cons.1 hn with heq | hn
  · obtain ⟨rfl, rfl⟩ := Authority.mk.inj heq
    rcases h.accounted authority.token _ (Nat.zero_lt_of_lt hlt) le_rfl with hr | ⟨call, hc⟩
    · exact hr
    · exact absurd hc (hq call _)
  · exact hn

end

/-- How a step of connection `c` may change the token lock. -/
inductive LockChange (s : State) (c : ConnectionId) (phase : Phase) : Option ConnectionId → Prop
  | acquire : s.tokensLock = none → LockChange s c phase (some c)
  | release : (s.connections c).holdsTokens = true → phase.holdsTokens = false →
      LockChange s c phase none
  | keep : phase.holdsTokens = false → LockChange s c phase s.tokensLock

section

variable (h : Invariant s)

include h

theorem Invariant.move (hl : LockChange s c ph tokensLock)
    (hb : ∀ token secret, ph = .bearer token secret → secret = s.secret token.id)
    (hgr : ∀ grant ∈ ph.grants, Covered s.service.tokenSessions s.returned grant) :
    Invariant { s.move c ph with
      tokensLock := tokensLock, attestationsLock := attestationsLock } where
  calls := h.calls
  locked other hh := by
    by_cases ho : other = c
    · subst ho
      simp only [State.move, update_self] at hh
      cases hl with
      | acquire _ => rfl
      | release _ hp => simp [hp] at hh
      | keep hp => simp [hp] at hh
    · simp only [State.move, update_of_ne ho] at hh
      have hhe := h.locked other hh
      cases hl with
      | acquire hf => simp [hf] at hhe
      | release hho _ => exact absurd (Option.some.inj (hhe.symm.trans (h.locked c hho))) ho
      | keep _ => exact hhe
  bearer other token secret hp := by
    by_cases ho : other = c
    · subst ho
      exact hb token secret (by simpa [State.move] using hp)
    · exact h.bearer other token secret (by simpa [State.move, ho] using hp)
  grants other grant hg := by
    by_cases ho : other = c
    · subst ho
      exact hgr grant (by simpa [State.move] using hg)
    · exact h.grants other grant (by simpa [State.move, ho] using hg)
  tickets := h.tickets

theorem Invariant.setTokens (tokens : TokenStore) : Invariant (s.setTokens tokens) :=
  ⟨h.calls, h.locked, h.bearer, h.grants, h.tickets⟩

theorem Invariant.setAttestations (atts : Attestations) : Invariant (s.setAttestations atts) :=
  ⟨h.calls, h.locked, h.bearer, h.grants, h.tickets⟩

theorem Invariant.setTickets (hk : ∀ (value : TicketValue) (pending : PendingTicket),
      tickets[value]? = some pending → s.service.tickets[value]? = some pending) :
    Invariant (s.setTickets tickets) :=
  ⟨h.calls, h.locked, h.bearer, h.grants, fun value pending hp =>
    h.tickets value pending (hk value pending hp)⟩

/-- While the token lock is free no connection relies on the present secrets. -/
theorem Invariant.endSecret (hf : s.tokensLock = none) (hu : s.calls call = none) (id : TokenId) :
    Invariant (s.endSecret call id) where
  calls := h.calls.endSecret hu id
  locked := h.locked
  bearer c token secret hp := by
    have hh := h.locked c (by rw [show s.connections c = _ from hp]; rfl)
    simp [hf] at hh
  grants := h.grants
  tickets := h.tickets

theorem Invariant.notify (hr : s.calls call = some ended) : Invariant (s.notify call ended) where
  calls := h.calls.notify hr
  locked := h.locked
  bearer := h.bearer
  grants c grant hg := (h.grants c grant hg).notify ended
  tickets value pending hp := (h.tickets value pending hp).notify ended

theorem Invariant.setSessions (hk : ∀ (id : TokenId) (ch : Channel),
      s.service.tokenSessions[id]? = some ch → sessions[id]? = some ch) :
    Invariant (s.setSessions sessions) where
  calls := h.calls
  locked := h.locked
  bearer := h.bearer
  grants c grant hg := (h.grants c grant hg).mono hk fun _ => id
  tickets value pending hp := (h.tickets value pending hp).mono hk fun _ => id

end

theorem getElem?_retainPending (h : (retainPending now tickets)[value]? = some pending) :
    tickets[value]? = some pending := by
  rw [retainPending, ExtTreeMap.getElem?_filter] at h
  exact (Option.pfilter_eq_some_iff.1 h).1

theorem takeTicket_found (h : takeTicket value actor now tickets = (some pending, left)) :
    tickets[value]? = some pending ∧ ∀ (other : TicketValue) (stays : PendingTicket),
      left[other]? = some stays → tickets[other]? = some stays := by
  simp only [takeTicket] at h
  split at h
  · split at h
    · next fd hf =>
      split at h
      · obtain ⟨hsa, rfl⟩ := Prod.mk.inj h
        cases hsa
        refine ⟨getElem?_retainPending hf, fun other stays hs => ?_⟩
        rw [getElem?_erase] at hs
        split at hs
        · simp at hs
        · exact getElem?_retainPending hs
      · simp at h
    · simp at h
  · simp at h

theorem mint_tickets
    (h : mintWithFrontend actor ctx revocation now draws tickets = .ok (value, minted))
    (hp : minted[other]? = some pending) : (other = value ∧ pending.revocation = revocation) ∨
      (other ≠ value ∧ tickets[other]? = some pending) := by
  simp only [mintWithFrontend, Checks.bind_ok_iff] at h
  obtain ⟨-, -, -, -, drawn, -, h⟩ := h
  obtain ⟨rfl, rfl⟩ := ok_pair h
  by_cases ho : other = drawn
  · subst ho
    rw [getElem?_insert_self] at hp
    exact .inl ⟨rfl, by rw [← Option.some.inj hp]⟩
  · rw [ExtTreeMap.getElem?_insert] at hp
    split at hp
    · next heq => exact absurd (LawfulEqCmp.eq_of_compare heq).symm ho
    · exact .inr ⟨ho, getElem?_retainPending hp⟩

theorem Invariant.mint (h : Invariant s) (hs : s.connections c = .minting session revocation)
    (hm : mintWithFrontend actor session.context revocation now draws s.service.tickets =
      .ok (value, tickets)) : Invariant { s.setTickets tickets with
      mintedBy := update s.mintedBy value session.authority } where
  calls := h.calls
  locked := h.locked
  bearer := h.bearer
  grants := h.grants
  tickets other pending hp := by
    show Covered s.service.tokenSessions s.returned
      ⟨pending.revocation, update s.mintedBy value session.authority other⟩
    rcases mint_tickets hm hp with ⟨rfl, hr⟩ | ⟨ho, hol⟩
    · rw [hr, update_self]
      exact h.grants c ⟨revocation, session.authority⟩ (by simp [hs, Phase.grants])
    · rw [update_of_ne ho]
      exact h.tickets other pending hol

@[simp] theorem enter_holdsTokens (scope : Option SessionScope) (outcome : AuthenticationOutcome)
    (authority : Option Authority) : (enter scope outcome authority).holdsTokens = false := by
  unfold enter
  split
  · rfl
  · split <;> rfl

@[simp] theorem afterTake_holdsTokens (pending : PendingTicket) (authority : Option Authority) :
    (afterTake pending authority).holdsTokens = false := by
  unfold afterTake
  split <;> rfl

theorem not_bearer (h : ph.holdsTokens = false) {P : TokenRecord → ℕ → Prop} :
    ∀ token secret, ph = .bearer token secret → P token secret := by
  rintro token secret rfl
  simp [Phase.holdsTokens] at h

theorem Invariant.proceed (h : Invariant s) (hp : ph.holdsTokens = false)
    (hg : ∀ grant ∈ ph.grants, Covered s.service.tokenSessions s.returned grant) :
    Invariant { s.move c ph with attestationsLock := attestationsLock } :=
  h.move (.keep hp) (not_bearer hp) hg

section

variable {sha256 : Bytes → Bytes} {providers : String → Option AuthenticationProvider}
  {actor : ConnectionId → Actor} {s : State}

section

variable (h : Invariant s)

include h

theorem Invariant.enter_none : Invariant (s.move c (enter scope outcome none)) := by
  apply h.proceed (enter_holdsTokens ..)
  intro grant hg
  rw [grants_enter hg]
  exact covered_none

/-- The token lock was held since the secret was checked, so no returned call has
ended it when the receiver is made. -/
theorem Invariant.bearerSubscribe {token : TokenRecord} {secret : ℕ}
    (hc : s.connections c = .bearer token secret) (scope : Option SessionScope) :
    Invariant (let (revocation, sessions) := subscribeOrInsert token.id s.service.tokenSessions
       { (s.setSessions sessions).move c
          (enter scope (bearerOutcome token revocation) (some ⟨token.id, secret⟩)) with
          tokensLock := none }) := by
  have hs := h.setSessions fun _ _ => getElem?_subscribeOrInsert token.id
  refine hs.move (.release ?_ (enter_holdsTokens ..)) (not_bearer (enter_holdsTokens ..)) ?_
  · show (s.connections c).holdsTokens = true
    rw [hc]
    rfl
  · intro grant hg
    rw [grants_enter hg]
    apply covered_subscribe ⟨token.id, secret⟩
    · exact getElem?_insert_self
    · rintro ⟨n, hn, hlt⟩
      have hle := h.calls.returned_le _ hn
      have hcu := h.bearer c token secret hc
      simp only at hle hlt
      omega

theorem Invariant.redeemSubscribe (hc : s.connections c = .redeemed pending authority)
    (subscribed : Option Revocation) : Invariant { s.move c (match subscribed with
      | some revocation => .event (ticketSession pending (some revocation) authority)
      | none => .closed) with tokensLock := none } := by
  have hh : (s.connections c).holdsTokens = true := by rw [hc]; rfl
  have hn : authority = none := by
    -- without a receiver an authority is not covered, so the ticket carries none
    have hco := h.grants c ⟨none, authority⟩ (by simp [hc, Phase.grants])
    cases authority with
    | none => rfl
    | some a =>
      obtain ⟨receiver, hr, -⟩ := hco a rfl
      simp at hr
  subst hn
  cases subscribed with
  | none => exact h.move (.release hh rfl) (not_bearer rfl) (by simp [Phase.grants])
  | some revocation =>
    apply h.move (.release hh rfl) (not_bearer rfl)
    intro grant hg
    obtain rfl : grant = ⟨some revocation, none⟩ := by simpa [Phase.grants, ticketSession] using hg
    exact covered_none

theorem Invariant.revokeAgain {id : TokenId} (hgu : ∀ call n, s.calls call ≠ some ⟨id, n⟩) :
    Invariant { s with returned := ⟨id, s.secret id⟩ :: s.returned } := by
  have he : ∀ authority, Ended (⟨id, s.secret id⟩ :: s.returned) authority →
      Ended s.returned authority := fun _ => h.calls.ended_again hgu
  refine ⟨⟨?_, h.calls.running_le, ?_⟩, h.locked, h.bearer,
    fun c grant hg => (h.grants c grant hg).mono (fun _ _ hc => hc) he,
    fun value pending hp => (h.tickets value pending hp).mono (fun _ _ hc => hc) he⟩
  · intro ended hm
    rcases mem_cons.1 hm with rfl | hm
    · exact le_rfl
    · exact h.calls.returned_le ended hm
  · intro id n hpo hle
    exact (h.calls.accounted id n hpo hle).imp_left (mem_cons_of_mem _)

theorem step_invariant (hgu : Guard s a) (hst : Step sha256 providers actor s a t) :
    Invariant t := by
  cases hst with
  | createToken _ _ => exact h.setTokens _
  | revokeToken free unused _ =>
    apply (h.setTokens _).endSecret
    · exact free
    · exact unused
  | revokeAgain _ _ => exact h.revokeAgain hgu
  | rotateToken free unused _ =>
    apply (h.setTokens _).endSecret
    · exact free
    · exact unused
  | notify running => exact h.notify running
  | createAttestation _ _ _ => exact ⟨h.calls, h.locked, h.bearer, h.grants, h.tickets⟩
  | revokeAttestation _ _ => exact h.setAttestations _
  | pruneTickets => exact h.setTickets fun _ _ => getElem?_retainPending
  | pruneAttestations _ => exact h.setAttestations _
  | authenticatePeer _ _ => exact h.enter_none
  | authenticateExternal _ _ => exact h.enter_none
  | bearerCheck _ free _ =>
    refine h.move (.acquire free) ?_ (by simp [Phase.grants])
    rintro token secret heq
    obtain ⟨rfl, rfl⟩ := Phase.bearer.inj heq
    rfl
  | bearerSubscribe checked => exact h.bearerSubscribe checked _
  | attestationLookup _ _ _ _ => exact h.proceed rfl (by simp [Phase.grants])
  | attestationCheck _ _ _ _ _ =>
    exact (h.setAttestations _).proceed rfl (by simp [Phase.grants])
  | attestationReject _ _ =>
    exact h.proceed rfl (by simp [Phase.grants])
  | attestationSubscribe removed =>
    apply h.proceed (enter_holdsTokens ..)
    intro grant hg
    rw [grants_enter hg]
    exact covered_attestation (hgu _ _ _ removed)
  | resubscribe serving =>
    apply h.proceed rfl
    have hse := h.grants _ _ (by rw [serving]; exact mem_singleton_self _)
    intro grant hg
    rcases mem_pair.1 hg with rfl | rfl
    · exact hse
    · exact covered_resubscribe hse (hgu _ serving)
  | mint serving minted =>
    have hs := h.grants _ ⟨_, _⟩ (by rw [serving]; exact mem_cons_self)
    apply (h.mint serving minted).proceed rfl
    intro grant hg
    obtain rfl := mem_singleton.1 hg
    exact hs
  | mintFails serving _ =>
    have hs := h.grants _ ⟨_, _⟩ (by rw [serving]; exact mem_cons_self)
    apply h.proceed rfl
    simpa [Phase.grants] using hs
  | takeTicket _ taken =>
    obtain ⟨hf, hk⟩ := takeTicket_found taken
    apply (h.setTickets hk).proceed (afterTake_holdsTokens ..)
    intro grant hg
    rw [grants_afterTake hg]
    exact h.tickets _ _ hf
  | redeemCheck taken _ free _ =>
    apply h.move (.acquire free) (by simp)
    have ht := h.grants _ ⟨_, _⟩ (by rw [taken]; exact mem_singleton_self _)
    simpa [Phase.grants] using ht
  | redeemSubscribe checked _ => exact h.redeemSubscribe checked _
  | close ends => exact h.proceed rfl (by simp [Phase.grants])

end

/-- Whatever the interleaving, once a call that ended a secret has returned, every
session whose authority stems from that secret is closed, or has a message pending and
wakes for it. -/
theorem revocation_reaches_sessions (sha256 : Bytes → Bytes)
    (providers : String → Option AuthenticationProvider) (actor : ConnectionId → Actor)
    (s : State) (h : Transition.Reachable Initial (Step sha256 providers actor) Guard s) :
    RevocationReaches s :=
  (h.holds Invariant (fun _ => initial_invariant)
    (fun _ _ _ hs hg hst => step_invariant hs hg hst)).revocationReaches

end

namespace Sample

open Authentication.Sample

abbrev SampleStep := Step digest (fun _ => none) (fun _ => actor)

def token : TokenRecord := ⟨"frontend", subject, [], some 100, false⟩

def started : State := { service := { tokens := tokens } }

def checked : State := { started.move 0 (.bearer token 0) with tokensLock := some 0 }

def connected : State :=
  let (revocation, sessions) := subscribeOrInsert token.id checked.service.tokenSessions
  { (checked.setSessions sessions).move 0
      (enter none (bearerOutcome token revocation) (some ⟨token.id, 0⟩)) with
    tokensLock := none }

def revoked : State :=
  (connected.setTokens (tokens.insert token.id { token with revoked := true })).endSecret 0 token.id

def told : State := revoked.notify 0 ⟨token.id, 1⟩

theorem check_token : SampleStep started (.bearerCheck 0) checked :=
  @Step.bearerCheck _ _ _ started 0 [] 0 token rfl rfl rfl

theorem subscribe_session : SampleStep checked (.bearerSubscribe 0) connected :=
  @Step.bearerSubscribe _ _ _ checked 0 token 0 none rfl

theorem revoke_token : SampleStep connected (.revokeToken 0 token.id) revoked :=
  @Step.revokeToken _ _ _ connected 0 token.id (fun _ => .ok ()) _ rfl rfl rfl

theorem tell_sessions : SampleStep revoked (.notify 0) told := @Step.notify _ _ _ revoked 0 _ rfl

theorem connected_reachable {guard : State → Action → Prop}
    (hc : guard started (.bearerCheck 0)) (hs : guard checked (.bearerSubscribe 0)) :
    Transition.Reachable Initial SampleStep guard connected :=
  .step (.step (.initial ⟨tokens, rfl⟩) hc check_token) hs subscribe_session

end Sample

open Sample in
theorem revoked_frontend_is_told :
    (∃ session ∈ (told.connections 0).session, ∃ authority ∈ session.authority,
      Ended told.returned authority) ∧ RevocationReaches told := by
  refine ⟨⟨_, rfl, _, rfl, 1, mem_singleton_self _, Nat.one_pos⟩, ?_⟩
  have hc : Transition.Reachable Initial SampleStep Guard connected :=
    connected_reachable trivial trivial
  have hr := hc.step (by trivial) revoke_token
  exact revocation_reaches_sessions Authentication.Sample.digest (fun _ => none)
    (fun _ => Authentication.Sample.actor) told (hr.step (by trivial) tell_sessions)

namespace Counterexample

open Sample Authentication.Sample

abbrev SampleReachable := Transition.Reachable Initial SampleStep fun _ _ => True

def issued : State :=
  { connected.setAttestations ((∅ : Attestations).insert "delegation" (delegation none)) with
    issuedUnder := update connected.issuedUnder "delegation" 0 }

def rotated : State :=
  (issued.setTokens (tokens.insert token.id { token with expiresAt := none })).endSecret 0 token.id

def renewed : State := rotated.notify 0 ⟨token.id, 1⟩

def presented : State :=
  { renewed.move 1 (.attesting "delegation" [1]) with attestationsLock := some 1 }

def accepted : State :=
  (presented.setAttestations (presented.service.attestations.erase "delegation")).move 1
    (.attested "delegation" (delegation none) 0)

def delegated : State :=
  { accepted.move 1 (enter none (attestationOutcome "delegation" (delegation none)
      ((delegation none).subscribe accepted.service.tokenSessions))
      (attestationAuthority (delegation none) 0)) with attestationsLock := none }

theorem delegated_reachable : SampleReachable delegated := by
  have hc : SampleReachable connected := connected_reachable trivial trivial
  have hi : SampleReachable issued := hc.step trivial
    (@Step.createAttestation _ _ _ connected (attestationUntil none) 0 (.ok [1]) _ _ _ 0 rfl rfl
      (fun _ _ => Nat.zero_le _))
  have hro : SampleReachable rotated := hi.step trivial
    (@Step.rotateToken _ _ _ issued 0 token.id none (.ok [2]) (fun _ => .ok ()) _ _ _ rfl rfl rfl)
  have hr : SampleReachable renewed := hro.step trivial (@Step.notify _ _ _ rotated 0 _ rfl)
  have hp : SampleReachable presented := hr.step trivial
    (@Step.attestationLookup _ _ _ renewed 1 "delegation" [1] (delegation none) 0 rfl rfl rfl rfl)
  have ha : SampleReachable accepted := hp.step trivial
    (@Step.attestationCheck _ _ _ presented 1 "delegation" [1] (delegation none) 0 rfl rfl
      (fun _ => rfl) rfl rfl)
  exact ha.step trivial (@Step.attestationSubscribe _ _ _ accepted 1 "delegation" _ 0 none rfl)

/-- An attestation issued before `rotate_token` opens a session after it: its receiver
starts behind the message. -/
theorem attestation_survives_rotation :
    SampleReachable delegated ∧ (⟨token.id, 1⟩ : Authority) ∈ delegated.returned ∧
      ¬ RevocationReaches delegated := by
  refine ⟨delegated_reachable, mem_singleton_self _, fun h => ?_⟩
  obtain ⟨⟨receiver, hr, channel, hc, hp⟩, -⟩ :=
    h 1 _ rfl _ rfl ⟨1, mem_singleton_self _, Nat.one_pos⟩
  have hl : receiver = ⟨1⟩ := (Revocation.token.inj (Option.some.inj hr)).2.symm
  have hs : channel = ⟨1, 1⟩ := (Option.some.inj hc).symm
  subst hl hs
  exact absurd hp (by decide)

end Counterexample

end SessionRevocation
