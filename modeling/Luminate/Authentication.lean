import Luminate.AccessPolicy
import Luminate.Broadcast

/-! # Authentication

Tokens, attestations and event tickets of `authentication.rs`. The functions on a
single map are the critical sections of the source, one clock reading each;
`authenticateWithFrontend` runs the sections of one authentication in a row. -/
namespace Authentication

open Checks AccessPolicy Broadcast

abbrev SystemTime := ℕ
abbrev Instant := ℕ
abbrev Bytes := List UInt8
abbrev Credential := Bytes
abbrev TicketValue := Bytes
abbrev TokenId := String

def eventTicketBytes : ℕ := 32

def eventTicketLifetime : Duration := 30 * 1000000000

def maxEventTickets : ℕ := 1024

def maxEventTicketsPerActor : ℕ := 32

def maxTicketGenerationAttempts : ℕ := 8

def maxAttestations : ℕ := 1024

def maxAttestationsPerActor : ℕ := 64

def tokenHashDomain : Bytes := "luminate daemon token v1\x00".toUTF8.toList

inductive EphemeralCapacityError where
  | globalEventTickets | actorEventTickets | globalAttestations | actorAttestations
  deriving DecidableEq

def EphemeralCapacityError.message : EphemeralCapacityError → String
  | .globalEventTickets => "global event-ticket capacity reached"
  | .actorEventTickets => "event-ticket capacity reached for this actor"
  | .globalAttestations => "global attestation capacity reached"
  | .actorAttestations => "attestation capacity reached for this actor"

inductive AuthenticationError where
  | message (text : String)
  | capacity (error : EphemeralCapacityError)
  | identity (error : ValidationError)
  deriving DecidableEq

def identified {α : Type} : Except ValidationError α → Except AuthenticationError α
  | .error error => .error (.identity error)
  | .ok a => .ok a

/-- The kernel-supplied identity of a connected process. -/
inductive Actor where
  | unix (uid gid : ℕ) (pid : Option ℕ)
  | windows (sid : String) (pid : Option ℕ)
  deriving DecidableEq

inductive RateLimitKey where
  | uid (uid : ℕ)
  | sid (sid : String)
  deriving DecidableEq

def Actor.rateLimitKey : Actor → RateLimitKey
  | .unix uid _ _ => .uid uid
  | .windows sid _ => .sid sid

def Actor.principalId : Actor → Except ValidationError PrincipalId
  | .unix uid _ _ => PrincipalId.new "unix" (toString uid)
  | .windows sid _ => PrincipalId.new "windows" sid

def unexpired (expiresAt : Option SystemTime) (now : SystemTime) : Bool := expiresAt.all (now < ·)

section

variable (sha256 : Bytes → Bytes)

def tokenHash (secret : Credential) : Bytes := sha256 (tokenHashDomain ++ secret)

structure TokenRecord where
  id : TokenId
  subject : PrincipalId
  hash : Bytes
  expiresAt : Option SystemTime
  revoked : Bool

structure TokenMetadata where
  id : TokenId
  subject : PrincipalId
  expiresAt : Option SystemTime
  revoked : Bool

abbrev TokenStore := TextMap TokenRecord

def TokenRecord.metadata (record : TokenRecord) : TokenMetadata :=
  ⟨record.id, record.subject, record.expiresAt, record.revoked⟩

def TokenRecord.active (record : TokenRecord) (now : SystemTime) : Bool :=
  !record.revoked && unexpired record.expiresAt now

def isActive (id : TokenId) (tokens : TokenStore) (now : SystemTime) : Bool :=
  (tokens[id]?).any (·.active now)

/-- Persisting the replacement store may fail; then the old one stays. -/
def createToken (id : TokenId) (subject : PrincipalId) (expiresAt : Option SystemTime)
    (secret : Except AuthenticationError Credential)
    (persist : TokenStore → Except AuthenticationError Unit) (tokens : TokenStore) :
    Except AuthenticationError (TokenMetadata × Credential × TokenStore) := do
  ensure (!isBlank id) (.message "token ID must not be empty")
  ensure (!tokens.contains id) (.message "token ID already exists")
  let secret ← secret
  let record : TokenRecord := ⟨id, subject, tokenHash sha256 secret, expiresAt, false⟩
  persist (tokens.insert id record)
  .ok (record.metadata, secret, tokens.insert id record)

/-- `none` when the token does not exist or was revoked before. -/
def revoke (id : TokenId) (tokens : TokenStore) : Option TokenStore :=
  match tokens[id]? with
  | some record => if record.revoked then none
    else some (tokens.insert id { record with revoked := true })
  | none => none

/-- The part of `revoke_token` under the token lock. -/
def revokeToken (id : TokenId) (persist : TokenStore → Except AuthenticationError Unit)
    (tokens : TokenStore) : Except AuthenticationError (Option TokenStore) :=
  match revoke id tokens with
  | none => .ok none
  | some replacement => do
    persist replacement
    .ok (some replacement)

/-- The part of `rotate_token` under the token lock. -/
def rotateToken (id : TokenId) (expiresAt : Option SystemTime)
    (secret : Except AuthenticationError Credential)
    (persist : TokenStore → Except AuthenticationError Unit) (tokens : TokenStore) :
    Except AuthenticationError (TokenMetadata × Credential × TokenStore) :=
  match tokens[id]? with
  | none => .error (.message "token ID does not exist")
  | some record => do
    let secret ← secret
    let rotated : TokenRecord :=
      { record with hash := tokenHash sha256 secret, expiresAt := expiresAt, revoked := false }
    persist (tokens.insert id rotated)
    .ok (rotated.metadata, secret, tokens.insert id rotated)

def authenticate (tokens : TokenStore) (presented : Credential) (now : SystemTime) :
    Option TokenRecord :=
  tokens.values.find? fun record =>
    record.active now && record.hash == tokenHash sha256 presented

structure AttestationRecord where
  actor : Actor
  frontendActor : Option Principal
  frontendCredentialId : Option TokenId
  subject : PrincipalId
  verifiedGroups : List String
  credentialId : String
  hash : Bytes
  expiresAt : Option SystemTime

structure AttestationMetadata where
  name : String
  subject : PrincipalId
  verifiedGroups : List String
  credentialId : String
  expiresAt : Option SystemTime

abbrev Attestations := TextMap AttestationRecord

def retainUnexpired (now : SystemTime) (attestations : Attestations) : Attestations :=
  attestations.filter fun _ record => unexpired record.expiresAt now

structure AttestationRequest where
  name : String
  actor : Actor
  frontendActor : Option Principal
  frontendCredentialId : Option TokenId
  subject : PrincipalId
  verifiedGroups : List String
  expiresAt : Option SystemTime

def AttestationRequest.record (request : AttestationRequest) (groups : List String)
    (secret : Credential) : AttestationRecord where
  actor := request.actor
  frontendActor := request.frontendActor
  frontendCredentialId := request.frontendCredentialId
  subject := request.subject
  verifiedGroups := groups
  credentialId := "attestation:" ++ request.name
  hash := tokenHash sha256 secret
  expiresAt := request.expiresAt

def AttestationRecord.metadata (record : AttestationRecord) (name : String) :
    AttestationMetadata :=
  ⟨name, record.subject, record.verifiedGroups, record.credentialId, record.expiresAt⟩

def createAttestationWithFrontend (request : AttestationRequest) (now : SystemTime)
    (secret : Except AuthenticationError Credential) (attestations : Attestations) :
    Except AuthenticationError (AttestationMetadata × Credential × Attestations) := do
  ensure (!isBlank request.name) (.message "attestation name must not be empty")
  ensure (unexpired request.expiresAt now) (.message "attestation expiry must be in the future")
  let verified ← identified
    (Principal.new request.subject.authority request.subject.subject request.verifiedGroups)
  let live := retainUnexpired now attestations
  ensure (!live.contains request.name) (.message "attestation name already exists")
  ensure (live.size < maxAttestations) (.capacity .globalAttestations)
  let ofActor := live.values.countP (·.actor.rateLimitKey == request.actor.rateLimitKey)
  ensure (ofActor < maxAttestationsPerActor) (.capacity .actorAttestations)
  let secret ← secret
  let record := request.record sha256 verified.groups.toList secret
  .ok (record.metadata request.name, secret, live.insert request.name record)

def revokeAttestation (name : String) (actor : Actor) (attestations : Attestations) :
    Option Attestations :=
  match attestations[name]? with
  | some record => if record.actor = actor then some (attestations.erase name) else none
  | none => none

/-- The attestation admits the connecting process; the token and the secret are
checked after the token lock was taken. -/
def AttestationRecord.admits (record : AttestationRecord) (actor : Actor) (now : SystemTime) :
    Bool := record.actor == actor && unexpired record.expiresAt now

def AttestationRecord.frontendActive (record : AttestationRecord) (tokens : TokenStore)
    (now : SystemTime) : Bool := record.frontendCredentialId.all fun id => isActive id tokens now

def AttestationRecord.presents (record : AttestationRecord) (credential : Credential) : Bool :=
  record.hash == tokenHash sha256 credential

/-- What a session waits on: the channel shared by the sessions of a token, or the
private channel of a provider lease. -/
inductive Revocation where
  | token (id : TokenId) (receiver : Receiver)
  | lease (provider : String)
  deriving DecidableEq

abbrev TokenSessions := TextMap Channel

def subscribe (id : TokenId) (sessions : TokenSessions) : Option Revocation :=
  (sessions[id]?).map fun channel => .token id channel.subscribe

/-- `entry(id).or_insert_with(|| broadcast::channel(1).0)`. -/
def tokenChannel (id : TokenId) (sessions : TokenSessions) : Channel :=
  (sessions[id]?).getD { capacity := 1 }

def subscribeOrInsert (id : TokenId) (sessions : TokenSessions) : Revocation × TokenSessions :=
  let channel := tokenChannel id sessions
  (.token id channel.subscribe, sessions.insert id channel)

/-- What `revoke_token` and `rotate_token` do under the session lock. -/
def notifySessions (id : TokenId) (sessions : TokenSessions) : TokenSessions :=
  match sessions[id]? with
  | some channel => sessions.insert id channel.send
  | none => sessions

/-- `Receiver::resubscribe`: only later messages reach the new receiver. -/
def resubscribe (sessions : TokenSessions) : Revocation → Revocation
  | .token id _ => .token id (tokenChannel id sessions).subscribe
  | .lease provider => .lease provider

structure EventTicketContext where
  authenticationExpiry : Option SystemTime
  sessionScope : Option SessionScope
  subject : Option Principal
  frontendActor : Option Principal
  credentialId : Option String
  frontendCredentialId : Option TokenId

structure PendingTicket extends EventTicketContext where
  actor : Actor
  expiresAt : Instant
  revocation : Option Revocation

abbrev Tickets := Std.ExtTreeMap TicketValue PendingTicket compare

def retainPending (now : Instant) (tickets : Tickets) : Tickets :=
  tickets.filter fun _ pending => now < pending.expiresAt

/-- The first drawn value that is no ticket yet. -/
def drawUnique (tickets : Tickets) :
    List (Except AuthenticationError TicketValue) → Except AuthenticationError TicketValue
  | [] => .error (.message "could not generate a unique event ticket")
  | draw :: rest => do
    let value ← draw
    if tickets.contains value then drawUnique tickets rest else .ok value

def mintWithFrontend (actor : Actor) (context : EventTicketContext)
    (revocation : Option Revocation) (now : Instant)
    (draws : List (Except AuthenticationError TicketValue)) (tickets : Tickets) :
    Except AuthenticationError (TicketValue × Tickets) := do
  let live := retainPending now tickets
  ensure (live.size < maxEventTickets) (.capacity .globalEventTickets)
  let ofActor := live.values.countP (·.actor.rateLimitKey == actor.rateLimitKey)
  ensure (ofActor < maxEventTicketsPerActor) (.capacity .actorEventTickets)
  let value ← drawUnique live (draws.take maxTicketGenerationAttempts)
  let pending : PendingTicket := { context with
    actor := actor
    expiresAt := now + eventTicketLifetime
    revocation := revocation }
  .ok (value, live.insert value pending)

/-- The part of `consume` under the ticket lock. -/
def takeTicket (value : TicketValue) (actor : Actor) (now : Instant) (tickets : Tickets) :
    Option PendingTicket × Tickets :=
  if value.length = eventTicketBytes then
    let live := retainPending now tickets
    match live[value]? with
    | some pending => if pending.actor = actor then (some pending, live.erase value)
      else (none, live)
    | none => (none, live)
  else (none, tickets)

structure ConsumedTicket extends EventTicketContext where
  revocation : Option Revocation

def PendingTicket.consumed (pending : PendingTicket) (revocation : Option Revocation) :
    ConsumedTicket :=
  { pending.toEventTicketContext with revocation := revocation }

/-- A ticket without a receiver of its own subscribes to its credential's channel. -/
def PendingTicket.redeem (pending : PendingTicket) (now : SystemTime) (tokens : TokenStore)
    (sessions : TokenSessions) : Option ConsumedTicket :=
  match pending.revocation, pending.credentialId with
  | some revocation, _ => some (pending.consumed (some revocation))
  | none, some id =>
    if isActive id tokens now then (subscribe id sessions).map (pending.consumed ∘ some)
    else none
  | none, none => some (pending.consumed none)

inductive AuthenticationSource where
  | peer
  | bearer
  | attestation (name : String)
  | external (provider : String)
  deriving DecidableEq

structure SessionMetadata where
  subject : PrincipalId
  verifiedGroups : List String
  source : AuthenticationSource
  credentialId : Option String
  expiresAt : Option SystemTime

inductive AuthenticationResponse where
  | authenticated (session : SessionMetadata)
  | rejected (reason : String)

structure AuthenticationOutcome where
  response : AuthenticationResponse
  revocation : Option Revocation := none
  frontendActor : Option Principal := none
  frontendCredentialId : Option TokenId := none

def rejected (reason : String) : AuthenticationOutcome := { response := .rejected reason }

def authenticationRejected : AuthenticationOutcome := rejected "authentication rejected"

structure ProviderIdentity where
  subject : String
  verifiedGroups : List String
  credentialId : String

structure AuthenticationProvider where
  authority : String
  sessionAvailable : Bool
  authenticate : Credential → Except AuthenticationError (Option ProviderIdentity)

inductive AuthenticationMethod where
  | peer
  | bearer (credential : Credential)
  | attestation (name : String) (credential : Credential)
  | external (provider : String) (credential : Credential)

structure AuthenticationService where
  tickets : Tickets := ∅
  tokens : TokenStore := ∅
  attestations : Attestations := ∅
  tokenSessions : TokenSessions := ∅

def authenticatePeer (actor : Actor) : Except AuthenticationError AuthenticationOutcome := do
  let subject ← identified actor.principalId
  .ok { response := .authenticated ⟨subject, [], .peer, none, none⟩ }

def bearerOutcome (token : TokenRecord) (revocation : Revocation) : AuthenticationOutcome where
  response := .authenticated ⟨token.subject, [], .bearer, some token.id, token.expiresAt⟩
  revocation := some revocation

def attestationOutcome (name : String) (record : AttestationRecord)
    (revocation : Option Revocation) : AuthenticationOutcome where
  response := .authenticated ⟨record.subject, record.verifiedGroups, .attestation name,
    some record.credentialId, record.expiresAt⟩
  revocation := revocation
  frontendActor := record.frontendActor
  frontendCredentialId := record.frontendCredentialId

/-- The receiver of a delegated session; no channel is created for it. -/
def AttestationRecord.subscribe (record : AttestationRecord) (sessions : TokenSessions) :
    Option Revocation :=
  record.frontendCredentialId.bind fun id => Authentication.subscribe id sessions

def authenticateExternal (providers : String → Option AuthenticationProvider)
    (provider : String) (credential : Credential) :
    Except AuthenticationError AuthenticationOutcome :=
  match providers provider with
  | none => .ok (rejected "authentication method is not configured")
  | some configured =>
    if configured.sessionAvailable then do
      match ← configured.authenticate credential with
      | none => .ok authenticationRejected
      | some identity =>
        let subject ← identified (PrincipalId.new configured.authority identity.subject)
        .ok { response := .authenticated ⟨subject, identity.verifiedGroups, .external provider,
                some identity.credentialId, none⟩
              revocation := some (.lease provider) }
    else .ok (rejected "authentication provider session capacity reached")

def authenticateWithFrontend (providers : String → Option AuthenticationProvider)
    (now : SystemTime) (actor : Actor) (method : AuthenticationMethod)
    (service : AuthenticationService) :
    Except AuthenticationError (AuthenticationOutcome × AuthenticationService) :=
  match method with
  | .peer => (authenticatePeer actor).map (·, service)
  | .bearer credential =>
    match authenticate sha256 service.tokens credential now with
    | none => .ok (authenticationRejected, service)
    | some token =>
      let (revocation, sessions) := subscribeOrInsert token.id service.tokenSessions
      .ok (bearerOutcome token revocation, { service with tokenSessions := sessions })
  | .attestation name credential =>
    match service.attestations[name]? with
    | none => .ok (authenticationRejected, service)
    | some record =>
      if record.admits actor now && record.frontendActive service.tokens now &&
          record.presents sha256 credential then
        .ok (attestationOutcome name record (record.subscribe service.tokenSessions),
          { service with attestations := service.attestations.erase name })
      else .ok (authenticationRejected, service)
  | .external provider credential =>
    (authenticateExternal providers provider credential).map (·, service)

end

def consume (value : TicketValue) (actor : Actor) (now : Instant) (clock : SystemTime)
    (service : AuthenticationService) : Option ConsumedTicket × AuthenticationService :=
  let (taken, tickets) := takeTicket value actor now service.tickets
  (taken.bind (·.redeem clock service.tokens service.tokenSessions),
    { service with tickets := tickets })

def ticketSubject (session : SessionMetadata) : Except AuthenticationError (Option Principal) :=
  if session.source = .peer then .ok none
  else (identified (Principal.new session.subject.authority session.subject.subject
    session.verifiedGroups)).map some

/-- What `handle_connection` keeps of an authenticated session for its tickets. -/
def eventTicketContext (scope : Option SessionScope) (outcome : AuthenticationOutcome)
    (session : SessionMetadata) : Except AuthenticationError EventTicketContext := do
  let subject ← ticketSubject session
  .ok { authenticationExpiry := session.expiresAt
        sessionScope := scope
        subject := subject
        frontendActor := outcome.frontendActor
        credentialId := subject.bind fun _ => session.credentialId
        frontendCredentialId := outcome.frontendCredentialId }

theorem eventTicketContext_expiry (h : eventTicketContext scope outcome session = .ok ctx) :
    ctx.authenticationExpiry = session.expiresAt := by
  simp only [eventTicketContext, bind_ok_iff] at h
  obtain ⟨subject, -, h⟩ := h
  rw [← Except.ok.inj h]

theorem mint_ok (h : mintWithFrontend actor ctx revocation now draws tickets = .ok (v, minted)) :
    (retainPending now tickets).size < maxEventTickets ∧
      (retainPending now tickets).values.countP (·.actor.rateLimitKey == actor.rateLimitKey) <
        maxEventTicketsPerActor ∧
      minted = (retainPending now tickets).insert v
        ⟨ctx, actor, now + eventTicketLifetime, revocation⟩ := by
  simp only [mintWithFrontend, bind_ok_iff] at h
  obtain ⟨_, hs, _, ha, drawn, -, h⟩ := h
  cases h
  exact ⟨of_decide_eq_true (ensure_ok_iff.1 hs), of_decide_eq_true (ensure_ok_iff.1 ha), rfl⟩

/-- The authentication ends, and no later than `limit`. -/
def ExpiresBy (expiry : Option SystemTime) (limit : SystemTime) : Prop :=
  ∃ e, expiry = some e ∧ e ≤ limit

instance (expiry : Option SystemTime) (limit : SystemTime) : Decidable (ExpiresBy expiry limit) :=
  decidable_of_iff (expiry.any (· ≤ limit) = true) (by cases expiry <;> simp [ExpiresBy])

theorem createAttestation_ok (h : createAttestationWithFrontend sha256 req now secret atts =
      .ok (metadata, issued, created)) : (retainUnexpired now atts).size < maxAttestations ∧
      (retainUnexpired now atts).values.countP (·.actor.rateLimitKey == req.actor.rateLimitKey) <
        maxAttestationsPerActor ∧
      created = (retainUnexpired now atts).insert req.name
        (req.record sha256 metadata.verifiedGroups issued) := by
  simp only [createAttestationWithFrontend, bind_ok_iff] at h
  obtain ⟨-, -, -, -, verified, -, -, -, _, hs, _, ha, drawn, -, h⟩ := h
  obtain ⟨rfl, rfl, rfl⟩ := Except.ok.inj h |> Prod.mk.inj |>.imp_right Prod.mk.inj
  exact ⟨of_decide_eq_true (ensure_ok_iff.1 hs), of_decide_eq_true (ensure_ok_iff.1 ha), rfl⟩

theorem of_map_service {x : Except AuthenticationError AuthenticationOutcome}
    {service next : AuthenticationService} (h : x.map (·, service) = .ok (outcome, next)) :
    x = .ok outcome ∧ next = service := by
  cases x with
  | error e => cases h
  | ok granted =>
    cases h
    exact ⟨rfl, rfl⟩

section

variable {now : SystemTime} {actor : Actor}

theorem attestation_session {next : AuthenticationService}
    (h : authenticateWithFrontend sha256 providers now actor (.attestation name cred)
      service = .ok (out, next)) (hs : out.response = .authenticated i) :
    ∃ record, service.attestations[name]? = some record ∧ i.expiresAt = record.expiresAt := by
  simp only [authenticateWithFrontend] at h
  split at h
  · cases h
    simp [authenticationRejected, rejected] at hs
  · next record hr =>
    split at h
    · cases h
      simp only [attestationOutcome, AuthenticationResponse.authenticated.injEq] at hs
      exact ⟨record, hr, hs ▸ rfl⟩
    · cases h
      simp [authenticationRejected, rejected] at hs

/-- The expiry of every ticket the session mints is bounded by `limit`. -/
def TicketsExpireBy (outcome : AuthenticationOutcome) (session : SessionMetadata)
    (limit : SystemTime) : Prop :=
  ∀ scope context, eventTicketContext scope outcome session = .ok context →
    ∀ actor revocation now draws tickets value minted,
      mintWithFrontend actor context revocation now draws tickets = .ok (value, minted) →
      ∀ pending, minted[value]? = some pending → ExpiresBy pending.authenticationExpiry limit

theorem tickets_expire_with_session (h : ExpiresBy i.expiresAt limit) :
    TicketsExpireBy out i limit := by
  intro scope ctx hc actor revocation now draws tickets v minted hm pending hp
  rw [(mint_ok hm).2.2, Std.ExtTreeMap.getElem?_insert_self] at hp
  cases hp
  rw [eventTicketContext_expiry hc]
  exact h

end

/-- The front end's token exists and expires at `limit`. -/
def TokenLimit (frontendCredentialId : Option TokenId) (tokens : TokenStore)
    (limit : SystemTime) : Prop :=
  ∃ id ∈ frontendCredentialId, ∃ token, tokens[id]? = some token ∧ token.expiresAt = some limit

/-- A delegated session and its tickets end with the front end's token exactly when
the attestation was asked to expire no later than the token. -/
theorem delegated_session_expires_iff (sha256 : Bytes → Bytes)
    (providers : String → Option AuthenticationProvider) (request : AttestationRequest)
    (issuedAt : SystemTime) (secret : Except AuthenticationError Credential)
    (attestations created : Attestations) (metadata : AttestationMetadata) (issued : Credential)
    (hcreated : createAttestationWithFrontend sha256 request issuedAt secret attestations =
      .ok (metadata, issued, created))
    (service next : AuthenticationService)
    (hstands : service.attestations[request.name]? = created[request.name]?)
    (now : SystemTime) (actor : Actor) (credential : Credential)
    (outcome : AuthenticationOutcome) (session : SessionMetadata)
    (hauthenticated : authenticateWithFrontend sha256 providers now actor
      (.attestation request.name credential) service = .ok (outcome, next))
    (hsession : outcome.response = .authenticated session) :
    (∀ limit, TokenLimit request.frontendCredentialId service.tokens limit →
        ExpiresBy session.expiresAt limit ∧ TicketsExpireBy outcome session limit) ↔
      ∀ limit, TokenLimit request.frontendCredentialId service.tokens limit →
        ExpiresBy request.expiresAt limit := by
  obtain ⟨record, hf, he⟩ := attestation_session hauthenticated hsession
  rw [hstands, (createAttestation_ok hcreated).2.2, Std.ExtTreeMap.getElem?_insert_self] at hf
  have hr : session.expiresAt = request.expiresAt := by
    rw [he, ← Option.some.inj hf]
    rfl
  rw [← hr]
  exact forall₂_congr fun limit _ => ⟨And.left, fun h => ⟨h, tickets_expire_with_session h⟩⟩

namespace Sample

def subject : PrincipalId where
  authority := "http"
  subject := "carol"
  authority_valid := by decide
  subject_valid := by decide

def actor : Actor := .unix 1000 1000 (some 42)

def tokens : TokenStore :=
  (∅ : TokenStore).insert "frontend" ⟨"frontend", subject, [], some 100, false⟩

def attestationUntil (expiresAt : Option SystemTime) : AttestationRequest where
  name := "delegation"
  actor := actor
  frontendActor := none
  frontendCredentialId := some "frontend"
  subject := subject
  verifiedGroups := []
  expiresAt := expiresAt

def digest (_ : Bytes) : Bytes := []

def delegation (expiresAt : Option SystemTime) : AttestationRecord :=
  (attestationUntil expiresAt).record digest [] [1]

/-- The front end is connected and has just issued the attestation. -/
def issued (expiresAt : Option SystemTime) : AuthenticationService where
  tokens := tokens
  attestations := (∅ : Attestations).insert "delegation" (delegation expiresAt)
  tokenSessions := (∅ : TokenSessions).insert "frontend" { capacity := 1 }

def delegated (expiresAt : Option SystemTime) : AuthenticationOutcome :=
  attestationOutcome "delegation" (delegation expiresAt) (some (.token "frontend" ⟨0⟩))

def delegatedSession (expiresAt : Option SystemTime) : SessionMetadata :=
  ⟨subject, [], .attestation "delegation", some "attestation:delegation", expiresAt⟩

end Sample

open Sample in
/-- The attestation expires half-way through the life of the token. -/
theorem half_way_delegation_expires : TokenLimit (some "frontend") tokens 100 ∧
      ExpiresBy (delegatedSession (some 50)).expiresAt 100 ∧
      TicketsExpireBy (delegated (some 50)) (delegatedSession (some 50)) 100 := by
  have hl : TokenLimit (some "frontend") tokens 100 := ⟨"frontend", rfl, _, rfl, rfl⟩
  refine ⟨hl, (delegated_session_expires_iff digest (fun _ => none)
    (attestationUntil (some 50)) 0 (.ok [1]) ∅ _ _ _ rfl (issued (some 50)) _ rfl 10 actor [1]
    _ _ rfl rfl).2 ?_ 100 hl⟩
  rintro limit ⟨id, hid, token, ht, hli⟩
  cases hid
  obtain rfl : _ = token := Option.some.inj ht
  cases hli
  exact ⟨50, rfl, by decide⟩

namespace Counterexample

open Sample

/-- A front end whose token ends at 100 issues an attestation without an expiry: the
delegated session never ends. -/
theorem delegation_outlives_token :
    createAttestationWithFrontend digest (attestationUntil none) 0 (.ok [1]) ∅ =
      .ok ((delegation none).metadata "delegation", [1], (issued none).attestations) ∧
    TokenLimit (attestationUntil none).frontendCredentialId (issued none).tokens 100 ∧
    authenticateWithFrontend digest (fun _ => none) 10 actor (.attestation "delegation" [1])
        (issued none) =
      .ok (delegated none,
        { issued none with attestations := (issued none).attestations.erase "delegation" }) ∧
    (delegated none).response = .authenticated (delegatedSession none) ∧
    ¬ ExpiresBy (delegatedSession none).expiresAt 100 :=
  ⟨rfl, ⟨"frontend", rfl, _, rfl, rfl⟩, rfl, rfl, by decide⟩

end Counterexample

end Authentication
