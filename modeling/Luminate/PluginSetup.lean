import Luminate.ManagementTransactions

/-! # Plugin setup sessions

`plugins/setup.rs` and `daemon/dispatch/setup.rs`: the daemon runs each step of a workflow in
a process of its own and commits the settings of a completed one as a management patch.
Requests take the session lock and the management lock one after the other, so other
requests come in between. -/
namespace PluginSetup

open Checks PluginSettings ManagedConfiguration PluginCatalogue ManagementTransactions

structure PluginSetupChoice where
  id : String
  label : String
  description : Option String := none
  deriving DecidableEq

inductive PluginSetupSessionState where
  | choice (prompt : String) (choices : List PluginSetupChoice)
  | physicalAction (instruction : String)
  | applying
  | completed (summary : String) (revision : ℕ)
  | failed (diagnostic : String)
  | cancelled
  deriving DecidableEq

structure PluginSetupSession where
  id : String
  plugin : String
  workflow : String
  generation : ℕ
  state : PluginSetupSessionState
  deriving DecidableEq

inductive ExpectedResponse where
  | choice | confirmation
  deriving DecidableEq

inductive PluginSetupResponse where
  | choice (choice : String)
  | confirmed
  deriving DecidableEq

inductive PluginSetupInteraction where
  | choice (prompt : String) (choices : List PluginSetupChoice)
  | physicalAction (instruction : String)
  deriving DecidableEq

structure PluginSetupRequest where
  workflow : String
  continuation : List UInt8
  response : Option PluginSetupResponse
  deriving DecidableEq

structure PreparedSetupStep where
  session : String
  request : PluginSetupRequest
  deriving DecidableEq

/-- The actor a rate limit is kept for; sessions belong to one. -/
abbrev Owner := String

structure SetupSessionRecord (F : Type) where
  snapshot : PluginSetupSession
  owner : Owner
  continuation : List UInt8
  expected : ExpectedResponse
  expiresAt : ℕ
  inFlight : Bool
  baselineSettings : Table F

abbrev SetupSessions (F : Type) := Std.ExtTreeMap String (SetupSessionRecord F) compare

/-- In seconds. -/
def sessionLifetime : ℕ := 10 * 60

def maxActiveSessions : ℕ := 64

def nextGeneration (generation : ℕ) : ℕ := min (generation + 1) (2 ^ 64 - 1)

/-- `char::is_control`: the general category Cc. -/
def isControl (c : Char) : Bool := c.toNat < 0x20 || (0x7F ≤ c.toNat && c.toNat < 0xA0)

def validPublicText (value : String) (maximum : ℕ) : Bool :=
  !isBlank value && value.utf8ByteSize ≤ maximum && !value.toList.any isControl

def validChoiceId (id : String) : Bool :=
  id != "" && id.utf8ByteSize ≤ 128 &&
    id.toList.all fun c => c.isAlphanum || c == '-' || c == '_' || c == '.'

def publicChoices : List String → List PluginSetupChoice → Except String (List PluginSetupChoice)
  | _, [] => .ok []
  | ids, choice :: rest => do
    ensure (validChoiceId choice.id) "invalid setup choice ID"
    ensure (!ids.contains choice.id) "duplicate setup choice ID"
    ensure (validPublicText choice.label 256) "setup choice label is invalid"
    ensure (choice.description.all (validPublicText · 2048)) "setup choice description is invalid"
    let rest ← publicChoices (choice.id :: ids) rest
    .ok (choice :: rest)

def publicInteraction :
    PluginSetupInteraction → Except String (PluginSetupSessionState × ExpectedResponse)
  | .choice prompt choices => do
    ensure (validPublicText prompt 2048) "setup choice prompt is invalid"
    ensure (!choices.isEmpty && choices.length ≤ 64) "invalid setup choices"
    let choices ← publicChoices [] choices
    .ok (.choice prompt choices, .choice)
  | .physicalAction instruction => do
    ensure (validPublicText instruction 2048) "setup instruction is invalid"
    .ok (.physicalAction instruction, .confirmation)

section

variable {F : Type}

def SetupSessionRecord.isActive (record : SetupSessionRecord F) : Bool :=
  record.inFlight ||
    match record.snapshot.state with
    | .choice .. | .physicalAction _ | .applying => true
    | .completed .. | .failed _ | .cancelled => false

def SetupSessionRecord.advance (record : SetupSessionRecord F) (state : PluginSetupSessionState) :
    SetupSessionRecord F :=
  { record with
    snapshot :=
      { record.snapshot with generation := nextGeneration record.snapshot.generation, state } }

section

variable (now : ℕ) (session : String) (owner : Owner) (sessions : SetupSessions F)

def expire : SetupSessions F :=
  sessions.filter fun _ record => decide (now < record.expiresAt)

/-- `drawn` is what drawing an identifier until it is unused came to. -/
def prepareSetupStart (workflows : String → Option (List String)) (now : ℕ)
    (drawn : Except String String) (plugin workflow : String) (owner : Owner)
    (baselineSettings : Table F) (sessions : SetupSessions F) :
    Except String PreparedSetupStep × SetupSessions F :=
  match workflows plugin with
  | none => (.error ("installed plugin not found: " ++ plugin), sessions)
  | some advertised =>
    if !advertised.contains workflow then
      (.error ("plugin " ++ plugin ++ " does not advertise setup workflow " ++ workflow), sessions)
    else
      let sessions := expire now sessions
      if maxActiveSessions ≤ (sessions.values.filter (·.isActive)).length then
        (.error "too many active plugin setup sessions", sessions)
      else if sessions.values.any fun record =>
          record.snapshot.plugin == plugin && record.isActive then
        (.error ("plugin " ++ plugin ++ " already has an active setup session"), sessions)
      else match drawn with
        | .error error => (.error error, sessions)
        | .ok session =>
          let record : SetupSessionRecord F :=
            { snapshot :=
                { id := session, plugin, workflow, generation := 0
                  state := .failed "setup has not produced its initial interaction" }
              owner, continuation := [], expected := .confirmation
              expiresAt := now + sessionLifetime, inFlight := true, baselineSettings }
          (.ok ⟨session, { workflow, continuation := [], response := none }⟩,
            sessions.insert session record)

def finishSetupInteraction (continuation : List UInt8) (interaction : PluginSetupInteraction)
    (sessions : SetupSessions F) : Except String PluginSetupSession × SetupSessions F :=
  match sessions[session]? with
  | none => (.error "setup session expired", sessions)
  | some record =>
    if record.snapshot.state = .cancelled then (.ok record.snapshot, sessions)
    else match publicInteraction interaction with
      | .error error => (.error error, sessions)
      | .ok (state, expected) =>
        let record :=
          { record.advance state with
            continuation, expected, expiresAt := now + sessionLifetime, inFlight := false }
        (.ok record.snapshot, sessions.insert session record)

/-- The answer as the plugin gets it, if the interaction asked for it. -/
def matchResponse : ExpectedResponse → PluginSetupResponse → Option PluginSetupResponse
  | .choice, .choice choice => some (.choice choice)
  | .confirmation, .confirmed => some .confirmed
  | _, _ => none

def awaitsResponse : PluginSetupSessionState → Bool
  | .choice .. | .physicalAction _ => true
  | .applying | .completed .. | .failed _ | .cancelled => false

def prepareSetupResponse (generation : ℕ) (response : PluginSetupResponse) (owner : Owner)
    (sessions : SetupSessions F) : Except String PreparedSetupStep × SetupSessions F :=
  let sessions := expire now sessions
  match sessions[session]? with
  | none => (.error "setup session not found", sessions)
  | some record =>
    if record.owner ≠ owner then (.error "setup session belongs to another actor", sessions)
    else if record.inFlight then (.error "setup session already has a step in progress", sessions)
    else if record.snapshot.generation ≠ generation then (.error "stale setup generation", sessions)
    else match matchResponse record.expected response with
      | none => (.error "response does not match the current setup interaction", sessions)
      | some response =>
        if !awaitsResponse record.snapshot.state then
          (.error "setup session is already terminal", sessions)
        else
          (.ok ⟨session,
              { workflow := record.snapshot.workflow, continuation := record.continuation
                response := some response }⟩,
            sessions.insert session { record with inFlight := true })

def ownedRecord : Except String (SetupSessionRecord F) :=
  match sessions[session]? with
  | none => .error "setup session not found"
  | some record =>
    if record.owner ≠ owner then .error "setup session belongs to another actor" else .ok record

def setupSession : Except String PluginSetupSession × SetupSessions F :=
  let sessions := expire now sessions
  ((ownedRecord session owner sessions).map (·.snapshot), sessions)

/-- The states in which cancelling comes too late. -/
def isSealed : PluginSetupSessionState → Bool
  | .applying | .completed .. | .failed _ => true
  | .choice .. | .physicalAction _ | .cancelled => false

def cancelSetup : Except String PluginSetupSession × SetupSessions F :=
  let sessions := expire now sessions
  match ownedRecord session owner sessions with
  | .error error => (.error error, sessions)
  | .ok record =>
    if isSealed record.snapshot.state then (.ok record.snapshot, sessions)
    else
      let record := { record.advance .cancelled with continuation := [] }
      (.ok record.snapshot, sessions.insert session record)

/-- The session and its baseline, or nothing if it was cancelled. -/
def beginSetupCommit : Except String (Option (PluginSetupSession × Table F)) × SetupSessions F :=
  match sessions[session]? with
  | none => (.error "setup session not found", sessions)
  | some record =>
    if record.snapshot.state = .cancelled then
      (.ok none, sessions.insert session { record with inFlight := false })
    else if !record.inFlight then (.error "setup session has no completed step", sessions)
    else
      let record := record.advance .applying
      (.ok (some (record.snapshot, record.baselineSettings)), sessions.insert session record)

def finishSetupTerminal (state : PluginSetupSessionState) (sessions : SetupSessions F) :
    Except String PluginSetupSession × SetupSessions F :=
  match sessions[session]? with
  | none => (.error "setup session not found", sessions)
  | some record =>
    let record := if record.snapshot.state = .cancelled then record else record.advance state
    let record := { record with continuation := [], inFlight := false }
    (.ok record.snapshot, sessions.insert session record)

end

end

section

variable {F : Type}

/-- The settings a workflow has produced, by their keys. `PluginSetupSettingValue` has the
constructors of `SettingValue`. -/
abbrev SetupSettings (F : Type) := Std.ExtTreeMap String (SettingValue F) compare

def valueAt : List String → Table F → Option (Value F)
  | [], _ => none
  | [part], table => table.get part
  | part :: parts, table =>
    match table.get part with
    | some (.table nested) => valueAt parts nested
    | _ => none

def dottedValue (table : Table F) (key : String) : Option (Value F) := valueAt (keyParts key) table

variable [FloatFormat F]

mutual

def setupSettingValue : SettingValue F → Except String (SettingValue F)
  | .boolean value => .ok (.boolean value)
  | .integer value => .ok (.integer value)
  | .number value => do
    ensure (FloatFormat.isFinite value) "setup returned a non-finite number"
    .ok (.number value)
  | .string value => .ok (.string value)
  | .array values => do
    let values ← setupSettingValues values
    .ok (.array values)
  | .table entries => do
    let entries ← setupSettingTable entries
    .ok (.table entries)

def setupSettingValues : SettingValues F → Except String (SettingValues F)
  | .nil => .ok .nil
  | .cons value rest => do
    let value ← setupSettingValue value
    let rest ← setupSettingValues rest
    .ok (.cons value rest)

def setupSettingTable : SettingTable F → Except String (SettingTable F)
  | .nil => .ok .nil
  | .cons key value rest => do
    let value ← setupSettingValue value
    let rest ← setupSettingTable rest
    .ok (.cons key value rest)

end

/-- A setting to be written is not what it was at the start of the session. -/
def conflicts (current baseline : Table F) (settings : SetupSettings F) : Bool :=
  settings.keys.any fun key => dottedValue current key != dottedValue baseline key

def setupMutations (plugin : String) (settings : SetupSettings F) :
    Except String (List (ManagementMutation F)) := do
  let mutations ← settings.toList.mapM fun (key, value) => do
    let value ← setupSettingValue value
    .ok (.setPluginSetting plugin key value)
  ensure (!mutations.isEmpty) "setup returned no settings"
  .ok mutations

end

inductive HostOutcome (F : Type) where
  | interaction (continuation : List UInt8) (interaction : PluginSetupInteraction)
  | complete (settings : SetupSettings F) (summary : String)
  | failed (error : String)
  | panicked (error : String)

inductive Phase (F : Type) where
  /-- The baseline has been read: the plugin's settings in the configuration as it was. -/
  | starting (plugin workflow : String) (captured : ManagedConfig F)
  | executing (prepared : PreparedSetupStep)
  | checking (snapshot : PluginSetupSession) (baseline : Table F) (settings : SetupSettings F)
    (summary : String)
  | patching (snapshot : PluginSetupSession) (summary : String) (patch : ManagementPatch F)
  | finishing (session : String) (state : PluginSetupSessionState)
  /-- The session was cancelled before its commit. -/
  | fetching (session : String)

structure Request (F : Type) where
  principal : Owner
  phase : Phase F

/-- History: a session was started, with the configuration its baseline was read from. -/
structure Started (F : Type) where
  session : String
  plugin : String
  captured : ManagedConfig F

def Started.baseline {F : Type} (started : Started F) : Table F :=
  managedSettings started.captured started.plugin

/-- History: the settings of a session were committed. -/
structure SetupCommit (F : Type) where
  session : String
  plugin : String
  patch : ManagementPatch F
  before : ManagedConfig F
  after : ManagedConfig F

structure State (F : Type) where
  now : ℕ := 0
  managed : ManagedConfig F := {}
  sessions : SetupSessions F := ∅
  requests : ℕ → Option (Request F) := fun _ => none
  started : List (Started F) := []
  reported : List (String × PluginSetupSessionState) := []
  commits : List (SetupCommit F) := []

inductive Action (F : Type) where
  | wait (elapsed : ℕ)
  | patchManagement (request : PatchRequest F)
  | start (request : ℕ) (principal : Owner) (plugin workflow : String)
  | prepare (request : ℕ) (drawn : Except String String)
  | respond (request : ℕ) (principal : Owner) (session : String) (generation : ℕ)
    (response : PluginSetupResponse)
  | get (principal : Owner) (session : String)
  | cancel (principal : Owner) (session : String)
  | execute (request : ℕ) (outcome : HostOutcome F)
  | check (request : ℕ)
  /-- With the outcomes of authorizing the patch, of saving the file and of updating the
  running plugins. -/
  | commit (request : ℕ) (authorized saved applied : Except String Unit)
  | finish (request : ℕ)
  | fetch (request : ℕ)
  /-- The connection is closed and the request dropped. -/
  | abandon (request : ℕ)

section

variable {F : Type}

section

variable (workflows : String → Option (List String)) (s : State F) (i : ℕ) (principal : Owner)

def State.proceed (phase : Phase F) : State F :=
  { s with requests := Function.update s.requests i (some ⟨principal, phase⟩) }

def State.done : State F :=
  { s with requests := Function.update s.requests i none }

def State.report : Except String PluginSetupSession → State F
  | .error _ => s
  | .ok snapshot => { s with reported := s.reported ++ [(snapshot.id, snapshot.state)] }

def State.start (plugin workflow : String) : State F :=
  match s.requests i, workflows plugin with
  | none, some advertised =>
    if advertised.contains workflow then
      s.proceed i principal (.starting plugin workflow s.managed)
    else s
  | _, _ => s

def State.prepare (drawn : Except String String) : State F :=
  match s.requests i with
  | some ⟨principal, .starting plugin workflow captured⟩ =>
    match prepareSetupStart workflows s.now drawn plugin workflow principal
        (managedSettings captured plugin) s.sessions with
    | (.error _, sessions) => { s with sessions }.done i
    | (.ok prepared, sessions) =>
      let started : Started F := { session := prepared.session, plugin, captured }
      { s with sessions, started := s.started ++ [started] }.proceed i principal
        (.executing prepared)
  | _ => s

def State.respond (session : String) (generation : ℕ) (response : PluginSetupResponse) : State F :=
  match s.requests i with
  | some _ => s
  | none =>
    match prepareSetupResponse s.now session generation response principal s.sessions with
    | (.error _, sessions) => { s with sessions }
    | (.ok prepared, sessions) => { s with sessions }.proceed i principal (.executing prepared)

/-- `execute_step` from the end of the host process on, up to the first lock it waits for. -/
def State.execute (outcome : HostOutcome F) : State F :=
  match s.requests i with
  | some ⟨principal, .executing ⟨session, _⟩⟩ =>
    let fail := fun (s : State F) (diagnostic : String) =>
      s.proceed i principal (.finishing session (.failed diagnostic))
    match outcome with
    | .failed _ => fail s "plugin setup failed"
    | .panicked error => fail s ("plugin setup host panicked: " ++ error)
    | .interaction continuation interaction =>
      match finishSetupInteraction s.now session continuation interaction s.sessions with
      | (.error error, sessions) => fail { s with sessions } error
      | (.ok snapshot, sessions) => ({ s with sessions }.done i).report (.ok snapshot)
    | .complete settings summary =>
      if !validPublicText summary 2048 then fail s "plugin setup returned an invalid summary"
      else match beginSetupCommit session s.sessions with
        | (.error _, sessions) => { s with sessions }.done i
        | (.ok none, sessions) => { s with sessions }.proceed i principal (.fetching session)
        | (.ok (some (snapshot, baseline)), sessions) =>
          { s with sessions }.proceed i principal (.checking snapshot baseline settings summary)
  | _ => s

/-- What `patch_management` answers to a patch that is not committed. -/
def PatchError.message : PatchError → String
  | .prepare (.conflict expectedRevision currentRevision) =>
    "expected revision " ++ toString expectedRevision ++ ", current revision is " ++
      toString currentRevision
  | .prepare (.invalid error) => error
  | .persist error => "failed to persist managed configuration: " ++ error

def State.finish : State F :=
  match s.requests i with
  | some ⟨_, .finishing session state⟩ =>
    let (outcome, sessions) := finishSetupTerminal session state s.sessions
    ({ s with sessions }.done i).report outcome
  | _ => s

def State.fetch : State F :=
  match s.requests i with
  | some ⟨principal, .fetching session⟩ =>
    let (outcome, sessions) := setupSession s.now session principal s.sessions
    ({ s with sessions }.done i).report outcome
  | _ => s

end

variable [FloatFormat F]

section

variable (plugins : List (ManageablePlugin F)) (workflows : String → Option (List String))
  (s : State F) (i : ℕ)

/-- The conflict check and the revision it was made at, under the management lock. -/
def State.check : State F :=
  match s.requests i with
  | some ⟨principal, .checking snapshot baseline settings summary⟩ =>
    let fail := fun (diagnostic : String) =>
      s.proceed i principal (.finishing snapshot.id (.failed diagnostic))
    if conflicts (managedSettings s.managed snapshot.plugin) baseline settings then
      fail "plugin settings changed while setup was in progress; start setup again"
    else match setupMutations snapshot.plugin settings with
      | .error error => fail error
      | .ok mutations =>
        s.proceed i principal (.patching snapshot summary
          { expectedRevision := s.managed.revision, mutations })
  | _ => s

def State.commit (authorized saved applied : Except String Unit) : State F :=
  match s.requests i with
  | some ⟨principal, .patching snapshot summary patch⟩ =>
    let finish := fun (s : State F) (state : PluginSetupSessionState) =>
      s.proceed i principal (.finishing snapshot.id state)
    match authorized with
    | .error message => finish s (.failed message)
    | .ok () =>
      match patchManaged plugins ⟨patch, saved⟩ s.managed with
      | (.error error, _) => finish s (.failed (PatchError.message error))
      | (.ok _, candidate) =>
        let committed :=
          { s with
            managed := candidate
            commits := s.commits ++ [⟨snapshot.id, snapshot.plugin, patch, s.managed, candidate⟩] }
        match applied with
        | .error message => finish committed (.failed message)
        | .ok () => finish committed (.completed summary candidate.revision)
  | _ => s

def next : Action F → State F
  | .wait elapsed => { s with now := s.now + elapsed }
  | .patchManagement request => { s with managed := (patchManaged plugins request s.managed).2 }
  | .start i principal plugin workflow => s.start workflows i principal plugin workflow
  | .prepare i drawn => s.prepare workflows i drawn
  | .respond i principal session generation response =>
    s.respond i principal session generation response
  | .get principal session =>
    let (outcome, sessions) := setupSession s.now session principal s.sessions
    { s with sessions }.report outcome
  | .cancel principal session =>
    let (outcome, sessions) := cancelSetup s.now session principal s.sessions
    { s with sessions }.report outcome
  | .execute i outcome => s.execute i outcome
  | .check i => s.check i
  | .commit i authorized saved applied => s.commit plugins i authorized saved applied
  | .finish i => s.finish i
  | .fetch i => s.fetch i
  | .abandon i => s.done i

/-- An identifier is 128 random bits: none is drawn twice. -/
def Fresh : Action F → Prop
  | .prepare _ (.ok session) => session ∉ s.started.map (·.session)
  | _ => True

def Step (action : Action F) (t : State F) : Prop :=
  Fresh s action ∧ t = next plugins workflows s action

def Initial : Prop := ∃ managed now, s = { managed, now }

end

end

end PluginSetup
