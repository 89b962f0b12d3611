import Luminate.Adoption
import Luminate.Batching
import Luminate.PluginTopology
import Luminate.Transition

/-! # Batches of plugin updates

`PluginManager::apply_batch` and `apply_batch_parallel` of `plugins/apply.rs`: updates
are grouped by the plugin that owns their device, each plugin gets its own in calls of
bounded size, and the outcomes are stored in the order of the updates. -/
namespace BatchApply

open DeviceModel DaemonModel Adoption PluginOwnership PluginTopology Batching Transition List Std

def maxPluginBatchUpdates : ℕ := 64

inductive ApplyOutcome where
  | applied
  | unsupported (diagnostic : String)
  | invalidArgument (diagnostic : String)
  | io (diagnostic : String)
  | unavailable (diagnostic : String)
  | rateLimited (diagnostic : String) (retryAfterMs : Option ℕ)
  | internal (diagnostic : String)
  deriving DecidableEq

inductive ApplyError where
  | deviceUnowned (device : String)
  | pluginUnsupportedUpdate (plugin device diagnostic : String)
  | pluginInvalidUpdate (plugin device diagnostic : String)
  | pluginIo (plugin device diagnostic : String)
  | pluginUnavailable (plugin device diagnostic : String)
  | pluginRateLimited (plugin device diagnostic : String) (retryAfterMs : Option ℕ)
  | pluginInternal (plugin device diagnostic : String)
  | internal (reason : String)
  deriving DecidableEq

abbrev ApplyResult := Except ApplyError Unit

abbrev Update := TargetId × PluginUpdateOperation

structure PluginUpdate where
  target : PluginTarget
  operation : PluginUpdateOperation
  deriving DecidableEq

def pluginTargetFromTargetId : TargetId → PluginTarget
  | .device d => .device d
  | .surface d s => .surface d s
  | .element d s e => .element d s e
  | .group d g => .group d g

def deviceIdOf : PluginTarget → String
  | .device d => d
  | .surface d _ => d
  | .element d _ _ => d
  | .group d _ => d

def pluginUpdate (update : Update) : PluginUpdate := ⟨pluginTargetFromTargetId update.1, update.2⟩

def applyOutcomeError (plugin device : String) : ApplyOutcome → ApplyResult
  | .applied => .ok ()
  | .unsupported diagnostic => .error (.pluginUnsupportedUpdate plugin device diagnostic)
  | .invalidArgument diagnostic => .error (.pluginInvalidUpdate plugin device diagnostic)
  | .io diagnostic => .error (.pluginIo plugin device diagnostic)
  | .unavailable diagnostic => .error (.pluginUnavailable plugin device diagnostic)
  | .rateLimited diagnostic retryAfterMs =>
    .error (.pluginRateLimited plugin device diagnostic retryAfterMs)
  | .internal diagnostic => .error (.pluginInternal plugin device diagnostic)

def applyOutcomeToResult (plugin : String) (update : PluginUpdate) : ApplyOutcome → ApplyResult
  | .applied => .ok ()
  | outcome => applyOutcomeError plugin (deviceIdOf update.target) outcome

abbrev Slots := List (Option ApplyResult)

/-- The groups are kept in the order of the plugin ids, in which they are sent. -/
structure BatchGrouping where
  byPlugin : ExtTreeMap LoadedPluginId (List ℕ) compare := ∅
  results : Slots

section

variable (runtime : Runtime) (ownerByDevice : OwnerMap LoadedPluginId) (loaded : List LoadedPlugin)

def groupUpdate (grouping : BatchGrouping) (entry : Update × ℕ) : BatchGrouping :=
  let device := deviceIdOf (pluginTargetFromTargetId entry.1.1)
  match ownerByDevice[device]? with
  | some id =>
    { grouping with
      byPlugin := grouping.byPlugin.insert id (grouping.byPlugin.getD id [] ++ [entry.2]) }
  | none =>
    { grouping with
      results := grouping.results.set entry.2 (some (.error (.deviceUnowned device))) }

def groupUpdatesByOwner (updates : List Update) : BatchGrouping :=
  updates.zipIdx.foldl (groupUpdate ownerByDevice) { results := updates.map fun _ => none }

def storeBatchOutcomes (results : Slots) (indices : List ℕ) (outcomes : List ApplyResult) : Slots :=
  scatter results (indices.zip outcomes)

def fillResults (results : Slots) (indices : List ℕ) (error : ApplyError) : Slots :=
  scatter results (indices.map fun index => (index, .error error))

/-- What a plugin host answers to one call: the outcomes, however many, or a failure. -/
abbrev Reply := Except String (List ApplyOutcome)

def chunkOutcomes (plugin : String) (chunk : List PluginUpdate) : Reply → List ApplyResult
  | .ok outcomes =>
    if outcomes.length = chunk.length then
      zipWith (applyOutcomeToResult plugin) chunk outcomes
    else chunk.map fun _ =>
      .error (.internal ("plugin host returned an invalid batch response for " ++ plugin))
  | .error error => chunk.map fun _ =>
      .error (.internal ("plugin host batch call failed for " ++ plugin ++ ": " ++ error))

/-- What a plugin received. A worker that panics during the call has no reply. -/
structure Call where
  plugin : LoadedPluginId
  updates : List PluginUpdate
  reply : Option Reply

/-- `apply_plugin_batch` of one plugin, between two of its calls. -/
structure Worker where
  plugin : LoadedPlugin
  indices : List ℕ
  pending : List (List PluginUpdate)
  outcomes : List ApplyResult := []
  panicked : Bool := false
  deriving DecidableEq

def pluginUpdates (updates : List Update) (indices : List ℕ) : List PluginUpdate :=
  indices.filterMap fun index => updates[index]?.map pluginUpdate

def pluginChunks (updates : List Update) (indices : List ℕ) : List (List PluginUpdate) :=
  chunks maxPluginBatchUpdates (pluginUpdates updates indices)

def Worker.start (updates : List Update) (batch : LoadedPlugin × List ℕ) : Worker :=
  { plugin := batch.1, indices := batch.2, pending := pluginChunks updates batch.2 }

def Worker.receive (worker : Worker) (chunk : List PluginUpdate)
    (rest : List (List PluginUpdate)) (reply : Reply) : Worker :=
  { worker with
    pending := rest
    outcomes := worker.outcomes ++ chunkOutcomes worker.plugin.metadata.name chunk reply }

structure Pool where
  workers : List Worker
  log : List Call := []

inductive Action where
  | call (reply : Reply)
  /-- `sent` tells whether the plugin had received the chunk. -/
  | panic (sent : Bool)

/-- The workers take turns in any order when each has its own thread, and finish one
after the other otherwise. A panic ends a thread; without threads it would end the
call as a whole. -/
inductive Step (threaded : Bool) : Pool → Action → Pool → Prop
  | call {before after : List Worker} {worker : Worker} {log : List Call}
      {chunk : List PluginUpdate} {rest : List (List PluginUpdate)} (reply : Reply)
      (hturn : threaded = false → ∀ earlier ∈ before, earlier.pending = [])
      (hpending : worker.pending = chunk :: rest) :
      Step threaded ⟨before ++ worker :: after, log⟩ (.call reply)
        ⟨before ++ worker.receive chunk rest reply :: after,
          log ++ [⟨worker.plugin.id, chunk, some reply⟩]⟩
  | panic {before after : List Worker} {worker : Worker} {log : List Call}
      {chunk : List PluginUpdate} {rest : List (List PluginUpdate)} (sent : Bool)
      (hthreaded : threaded = true) (hpending : worker.pending = chunk :: rest) :
      Step threaded ⟨before ++ worker :: after, log⟩ (.panic sent)
        ⟨before ++ { worker with pending := [], panicked := true } :: after,
          if sent then log ++ [⟨worker.plugin.id, chunk, none⟩] else log⟩

/-- What the daemon does not decide. -/
structure Runtime where
  idDebug : LoadedPluginId → String
  spawn : LoadedPluginId → Except String Unit

/-- Items that fail the check have their results filled; the others are kept. -/
def keepChecked {ι β : Type} (check : ι → Except ApplyError β) (indices : ι → List ℕ)
    (progress : Slots × List β) (item : ι) : Slots × List β :=
  match check item with
  | .ok kept => (progress.1, progress.2 ++ [kept])
  | .error error => (fillResults progress.1 (indices item) error, progress.2)

def findPlugin (group : LoadedPluginId × List ℕ) : Except ApplyError (LoadedPlugin × List ℕ) :=
  match loaded.find? (·.id == group.1) with
  | some plugin => .ok (plugin, group.2)
  | none => .error (.internal
      ("plugin owner " ++ runtime.idDebug group.1 ++ " is no longer loaded"))

def spawnWorker (updates : List Update) (batch : LoadedPlugin × List ℕ) :
    Except ApplyError Worker :=
  match runtime.spawn batch.1.id with
  | .ok () => .ok (.start updates batch)
  | .error error => .error (.internal
      ("failed to start scene worker for " ++ batch.1.metadata.name ++ ": " ++ error))

structure Prepared where
  results : Slots
  workers : List Worker
  threaded : Bool

/-- `apply_batch_inner` until the first plugin is called. -/
def prepare (parallel : Bool) (updates : List Update) : Prepared :=
  let grouping := groupUpdatesByOwner ownerByDevice updates
  let (results, batches) := grouping.byPlugin.toList.foldl
    (keepChecked (findPlugin runtime loaded) Prod.snd) (grouping.results, [])
  if parallel && 1 < batches.length then
    let (results, workers) := batches.foldl
      (keepChecked (spawnWorker runtime updates) Prod.snd) (results, [])
    ⟨results, workers, true⟩
  else ⟨results, batches.map (.start updates), false⟩

def joinWorker (results : Slots) (worker : Worker) : Slots :=
  if worker.panicked then
    fillResults results worker.indices (.internal "scene plugin worker panicked")
  else storeBatchOutcomes results worker.indices worker.outcomes

def collectResults (results : Slots) : List ApplyResult :=
  results.map (·.getD (.error (.internal "batch result missing for an index")))

/-- The plugins have been called, from none to all of the prepared calls. -/
def Ran (parallel : Bool) (updates : List Update) : Pool → Prop :=
  Reachable (· = ⟨(prepare runtime ownerByDevice loaded parallel updates).workers, []⟩)
    (Step (prepare runtime ownerByDevice loaded parallel updates).threaded) fun _ _ => True

/-- A batch that has been applied, with the workers at their end and what the plugins
received. -/
structure Applied (runtime : Runtime) (ownerByDevice : OwnerMap LoadedPluginId)
    (loaded : List LoadedPlugin) (parallel : Bool) (updates : List Update)
    (workers : List Worker) (log : List Call) (results : List ApplyResult) : Prop where
  run : Ran runtime ownerByDevice loaded parallel updates ⟨workers, log⟩
  finished : ∀ worker ∈ workers, worker.pending = []
  returned : results = collectResults
    (workers.foldl joinWorker (prepare runtime ownerByDevice loaded parallel updates).results)

def ownerOf (update : Update) : Option LoadedPluginId :=
  ownerByDevice[update.1.deviceId]?

def owns (id : LoadedPluginId) (update : Update) : Bool :=
  ownerOf ownerByDevice update = some id

end

@[simp] theorem deviceIdOf_pluginTarget (target : TargetId) :
    deviceIdOf (pluginTargetFromTargetId target) = target.deviceId := by
  cases target <;> rfl

section

variable (ownerByDevice : OwnerMap LoadedPluginId) (updates : List Update)

def entries (id : LoadedPluginId) : List (Update × ℕ) :=
  updates.zipIdx.filter (owns ownerByDevice id ·.1)

def position (id : LoadedPluginId) (index : ℕ) : ℕ :=
  ((updates.take index).filter (owns ownerByDevice id)).length

def ownUpdates (id : LoadedPluginId) : List PluginUpdate :=
  (updates.filter (owns ownerByDevice id)).map pluginUpdate

end

variable {own : OwnerMap LoadedPluginId} {id : LoadedPluginId} {indices : List ℕ}

theorem getD_groupUpdates (entries : List (Update × ℕ)) :
    (entries.foldl (groupUpdate own) grouping).byPlugin.getD id [] = grouping.byPlugin.getD id [] ++
        (entries.filter (owns own id ·.1)).map Prod.snd := by
  induction entries generalizing grouping with
  | nil => rw [foldl_nil, filter_nil, map_nil, append_nil]
  | cons entry rest ih =>
    rw [foldl_cons, ih, groupUpdate, deviceIdOf_pluginTarget]
    have ho : own[entry.1.1.deviceId]? = ownerOf own entry.1 := rfl
    have hsk (hn : ¬ owns own id entry.1 = true) : (entry :: rest).filter (owns own id ·.1) =
          rest.filter (owns own id ·.1) := filter_cons_of_neg hn
    cases hf : ownerOf own entry.1 with
    | none =>
      have hn : ¬ owns own id entry.1 = true := by simp [owns, hf]
      rw [hsk hn]
      simp only [ho, hf]
    | some owner =>
      by_cases hs : owner = id
      · subst hs
        have ht : (entry :: rest).filter (owns own owner ·.1) =
            entry :: rest.filter (owns own owner ·.1) := filter_cons_of_pos (by simp [owns, hf])
        simp [ho, hf, ht]
      · have hn : ¬ owns own id entry.1 = true := by simp [owns, hf, hs]
        have hot : ¬ compare owner id = .eq := by simpa using hs
        rw [hsk hn]
        simp only [ho, hf, ExtTreeMap.getD_insert, if_neg hot]

theorem getD_byPlugin : (groupUpdatesByOwner own us).byPlugin.getD id [] =
      (entries own us id).map Prod.snd := by
  rw [groupUpdatesByOwner, getD_groupUpdates, ExtTreeMap.getD_empty]
  rfl

theorem indices_of_group (h : (id, indices) ∈ (groupUpdatesByOwner own us).byPlugin.toList) :
    indices = (entries own us id).map Prod.snd := by
  rw [ExtTreeMap.mem_toList_iff_getElem?_eq_some] at h
  rw [← getD_byPlugin, ExtTreeMap.getD_eq_getD_getElem?, h, Option.getD_some]

variable {index : ℕ} {update : Update} {worker : Worker} {threaded : Bool} {pool : Pool}
  {allowed : ℕ → ApplyResult → Prop} {workers : List Worker}

theorem exists_group (hu : us[index]? = some update) (ho : ownerOf own update = some id) :
    (id, (entries own us id).map Prod.snd) ∈ (groupUpdatesByOwner own us).byPlugin.toList ∧
      index ∈ (entries own us id).map Prod.snd := by
  have hm : index ∈ (entries own us id).map Prod.snd := by
    refine mem_map.2 ⟨(update, index), mem_filter.2 ⟨?_, ?_⟩, rfl⟩
    · exact mem_zipIdx_iff_getElem?.2 hu
    · simp [owns, ho]
  refine ⟨?_, hm⟩
  rw [ExtTreeMap.mem_toList_iff_getElem?_eq_some]
  have hg : (groupUpdatesByOwner own us).byPlugin.getD id [] =
    (entries own us id).map Prod.snd := getD_byPlugin
  rw [ExtTreeMap.getD_eq_getD_getElem?] at hg
  cases hf : (groupUpdatesByOwner own us).byPlugin[id]? with
  | none =>
    rw [hf] at hg
    rw [← hg] at hm
    exact absurd hm not_mem_nil
  | some fd =>
    rw [hf, Option.getD_some] at hg
    rw [hg]

def callsTo (log : List Call) (id : LoadedPluginId) : List Call := log.filter (·.plugin = id)

theorem callsTo_append : callsTo (log ++ [call]) id =
      if call.plugin = id then callsTo log id ++ [call] else callsTo log id := by
  by_cases hs : call.plugin = id
  · simp [hs, callsTo]
  · simp [hs, callsTo]

def callOutcomes (plugin : String) (call : Call) : List ApplyResult :=
  (call.reply.map (chunkOutcomes plugin call.updates)).getD []

/-- Where a worker stands, by the calls of its plugin so far. -/
structure Worker.Sound (updates : List Update) (log : List Call) (worker : Worker) : Prop where
  sent : worker.panicked = false → (callsTo log worker.plugin.id).map (·.updates) ++
    worker.pending = pluginChunks updates worker.indices
  replied : worker.panicked = false →
    ∀ call ∈ callsTo log worker.plugin.id, ∃ reply, call.reply = some reply
  outcomes : worker.panicked = false → worker.outcomes =
    (callsTo log worker.plugin.id).flatMap (callOutcomes worker.plugin.metadata.name)
  stopped : worker.panicked = true → worker.pending = []
  broken : worker.panicked = true → (callsTo log worker.plugin.id).map (·.updates) <+:
    pluginChunks updates worker.indices

def Worker.batch (worker : Worker) : LoadedPlugin × List ℕ := (worker.plugin, worker.indices)

structure Pool.Sound (updates : List Update) (batches : List (LoadedPlugin × List ℕ))
    (pool : Pool) : Prop where
  frame : pool.workers.map Worker.batch = batches
  workers : ∀ worker ∈ pool.workers, worker.Sound updates pool.log
  origin : ∀ call ∈ pool.log, ∃ batch ∈ batches, batch.1.id = call.plugin

def Distinct (batches : List (LoadedPlugin × List ℕ)) : Prop :=
  batches.Pairwise fun a b => a.1.id ≠ b.1.id

theorem Distinct.others {pre after : List Worker}
    (h : Distinct ((pre ++ worker :: after).map Worker.batch)) :
    ∀ other, other ∈ pre ∨ other ∈ after → other.plugin.id ≠ worker.plugin.id := by
  rw [Distinct, pairwise_map, pairwise_append, pairwise_cons] at h
  obtain ⟨-, ⟨ha, -⟩, hb⟩ := h
  rintro other (ho | ho)
  · exact hb other ho worker mem_cons_self
  · exact (ha other ho).symm

section

variable (h : worker.Sound us log)

include h

theorem Worker.Sound.other (ho : worker.plugin.id ≠ call.plugin) :
    worker.Sound us (log ++ [call]) := by
  have hsa : callsTo (log ++ [call]) worker.plugin.id = callsTo log worker.plugin.id := by
    rw [callsTo_append, if_neg ho.symm]
  obtain ⟨hse, hr, hou, hs, hb⟩ := h
  constructor
  · rwa [hsa]
  · rwa [hsa]
  · rwa [hsa]
  · exact hs
  · rwa [hsa]

theorem Worker.Sound.running (hp : worker.pending = chunk :: rest) : worker.panicked = false := by
  cases hpa : worker.panicked with
  | false => rfl
  | true =>
    rw [h.stopped hpa] at hp
    cases hp

theorem Worker.Sound.receive (hpe : worker.pending = chunk :: rest) (reply : Reply) :
    (worker.receive chunk rest reply).Sound us
      (log ++ [⟨worker.plugin.id, chunk, some reply⟩]) := by
  have hc : callsTo (log ++ [⟨worker.plugin.id, chunk, some reply⟩]) worker.plugin.id =
      callsTo log worker.plugin.id ++ [⟨worker.plugin.id, chunk, some reply⟩] := by
    rw [callsTo_append, if_pos rfl]
  have hr := h.running hpe
  constructor
  · intro _
    have hs := h.sent hr
    rw [hpe] at hs
    simp [Worker.receive, hc, hs]
  · intro _ call hca
    simp only [Worker.receive, hc, mem_append, mem_singleton] at hca
    rcases hca with hca | rfl
    · exact h.replied hr call hca
    · exact ⟨reply, rfl⟩
  · intro _
    simp only [Worker.receive, hc, flatMap_append, flatMap_singleton, h.outcomes hr]
    rfl
  · intro hp
    exact absurd (hr.symm.trans hp) Bool.false_ne_true
  · intro hp
    exact absurd (hr.symm.trans hp) Bool.false_ne_true

theorem Worker.Sound.panic (hp : worker.pending = chunk :: rest) (sent : Bool) :
    { worker with pending := [], panicked := true : Worker }.Sound us
      (if sent then log ++ [⟨worker.plugin.id, chunk, none⟩] else log) := by
  have hs := h.sent (h.running hp)
  rw [hp] at hs
  constructor
  · exact fun hr => absurd hr.symm Bool.false_ne_true
  · exact fun hr => absurd hr.symm Bool.false_ne_true
  · exact fun hr => absurd hr.symm Bool.false_ne_true
  · exact fun _ => rfl
  · intro _
    rw [← hs]
    cases sent with
    | false => exact prefix_append _ _
    | true =>
      refine ⟨rest, ?_⟩
      simp [callsTo_append]

end

theorem step_sound {next : Pool} (hd : Distinct batches) (h : pool.Sound us batches)
    (hst : Step threaded pool a next) : next.Sound us batches := by
  -- Only the worker that moves and the calls of its plugin are touched.
  have hmo : ∀ (pre after : List Worker) (worker moved : Worker) (log log' : List Call),
      pool = ⟨pre ++ worker :: after, log⟩ → moved.batch = worker.batch → moved.Sound us log' →
      (log' = log ∨ ∃ call, log' = log ++ [call] ∧ call.plugin = worker.plugin.id) →
      Pool.Sound us batches ⟨pre ++ moved :: after, log'⟩ := by
    rintro pre after worker moved log log' rfl hb hm hl
    have hf : (pre ++ moved :: after).map Worker.batch = batches := by
      rw [← h.frame, map_append, map_append, map_cons, map_cons, hb]
    have hot : ∀ other, other ∈ pre ∨ other ∈ after → other.plugin.id ≠ worker.plugin.id := by
      apply Distinct.others
      rw [h.frame]
      exact hd
    refine ⟨hf, fun other ho => ?_, fun call hc => ?_⟩
    · rw [mem_append, mem_cons, or_left_comm] at ho
      rcases ho with rfl | ho
      · exact hm
      · have hs := h.workers other (by
          rw [mem_append, mem_cons]
          exact ho.elim .inl fun h => .inr (.inr h))
        rcases hl with rfl | ⟨call, rfl, hpl⟩
        · exact hs
        · exact hs.other (by rw [hpl]; exact hot other ho)
    · rcases hl with rfl | ⟨added, rfl, hpl⟩
      · exact h.origin call hc
      · rcases mem_append.1 hc with hc | hc
        · exact h.origin call hc
        · obtain rfl := mem_singleton.1 hc
          refine ⟨worker.batch, ?_, hpl.symm⟩
          rw [← h.frame]
          exact mem_map_of_mem (mem_append_right _ mem_cons_self)
  cases hst with
  | @call pre after worker log chunk rest reply htu hp =>
    have hw := h.workers worker (mem_append_right _ mem_cons_self)
    exact hmo pre after worker _ log _ rfl rfl (hw.receive hp reply) (.inr ⟨_, rfl, rfl⟩)
  | @panic pre after worker log chunk rest sent ht hp =>
    have hw := h.workers worker (mem_append_right _ mem_cons_self)
    refine hmo pre after worker _ log _ rfl rfl (hw.panic hp sent) ?_
    cases sent with
    | false => exact .inl rfl
    | true => exact .inr ⟨_, rfl, rfl⟩

section

variable {count : ℕ} {allowed : ℕ → ApplyResult → Prop} {covered : ℕ → Prop} {results : Slots}

theorem fillResults_written (h : Written count allowed covered results)
    (ha : ∀ index ∈ indices, allowed index (.error e)) :
    Written count allowed (fun index => covered index ∨ index ∈ indices)
      (fillResults results indices e) := by
  refine (h.scatter fun index v hm => ?_).mono fun index hi => ?_
  · obtain ⟨filled, hf, heq⟩ := mem_map.1 hm
    obtain ⟨rfl, rfl⟩ := Prod.mk.inj heq
    exact ha filled hf
  · rw [map_map]
    exact hi.imp_right fun hm => mem_map.2 ⟨index, hm, rfl⟩

end

section

variable {ι β : Type}

theorem foldl_admit_kept (is : List ι) (results : Slots) (kept : List β) :
    (is.foldl (keepChecked check indicesOf) (results, kept)).2 =
      kept ++ is.filterMap fun it => (check it).toOption := by
  induction is generalizing results kept with
  | nil => rw [foldl_nil, filterMap_nil, append_nil]
  | cons it rest ih =>
    rw [foldl_cons, keepChecked]
    cases hc : check it with
    | ok v =>
      simp only [filterMap_cons, hc, Except.toOption]
      rw [ih, append_assoc]
      rfl
    | error e =>
      simp only [filterMap_cons, hc, Except.toOption]
      exact ih _ _

theorem foldl_admit_written {count : ℕ} (is : List ι) (h : Written count allowed covered results)
    (kept : List β)
    (ha : ∀ it ∈ is, ∀ e, check it = .error e → ∀ index ∈ indicesOf it, allowed index (.error e)) :
    Written count allowed (fun index => covered index ∨ ∃ it ∈ is, ∃ e,
      check it = .error e ∧ index ∈ indicesOf it)
      (is.foldl (keepChecked check indicesOf) (results, kept)).1 := by
  refine h.foldl (p := Prod.fst) is fun it hit covered s hs => ?_
  rw [keepChecked]
  cases hc : check it with
  | ok v => exact hs.mono fun index hi => hi.resolve_right (by simp)
  | error e =>
    refine (fillResults_written hs (ha it hit e hc)).mono fun index hi => ?_
    exact hi.imp_right fun ⟨_, _, hi⟩ => hi

end

theorem groupUpdates_written (ha : ∀ index update, us[index]? = some update →
      ownerOf own update = none → allowed index (.error (.deviceUnowned update.1.deviceId))) :
    Written us.length allowed
      (fun index => ∃ update, us[index]? = some update ∧ ownerOf own update = none)
      (groupUpdatesByOwner own us).results := by
  have hs : Written us.length allowed (fun _ => False) (us.map fun _ => none) := by
    rw [map_const']
    exact .empty
  have hf := hs.foldl (f := groupUpdate own) (p := (·.results)) (s := { results := _ }) us.zipIdx
    (q := fun entry index => index = entry.2 ∧ ownerOf own entry.1 = none) ?_
  · refine hf.mono fun index ⟨update, hu, ho⟩ => ?_
    exact .inr ⟨(update, index), mem_zipIdx_iff_getElem?.2 hu, rfl, ho⟩
  · intro entry hen covered grouping hg
    rw [groupUpdate, deviceIdOf_pluginTarget]
    cases ho : own[entry.1.1.deviceId]? with
    | some id =>
      refine hg.mono fun index hi => hi.resolve_right fun ⟨_, hn⟩ => ?_
      exact absurd (ho.symm.trans hn) (Option.some_ne_none id)
    | none =>
      refine (hg.set (ha entry.2 entry.1 (mem_zipIdx_iff_getElem?.1 hen) ho)).mono ?_
      exact fun index hi => hi.imp_right And.left

section

variable (runtime : Runtime) (ownerByDevice : OwnerMap LoadedPluginId)
  (loaded : List LoadedPlugin) (parallel : Bool) (updates : List Update)

def batchesOf : List (LoadedPlugin × List ℕ) :=
  (groupUpdatesByOwner ownerByDevice updates).byPlugin.toList.filterMap fun group =>
    (findPlugin runtime loaded group).toOption

def threadedOf : Bool := parallel && 1 < (batchesOf runtime ownerByDevice loaded updates).length

end

section

variable (runtime : Runtime) (ownerByDevice : OwnerMap LoadedPluginId) (loaded : List LoadedPlugin)

/-- The slots once the groups without a loaded plugin have been filled. -/
def foundResults (updates : List Update) : Slots :=
  ((groupUpdatesByOwner ownerByDevice updates).byPlugin.toList.foldl
    (keepChecked (findPlugin runtime loaded) Prod.snd)
      ((groupUpdatesByOwner ownerByDevice updates).results, [])).1

theorem prepare_eq : prepare rt own ld par us = if threadedOf rt own ld par us then
      ⟨((batchesOf rt own ld us).foldl (keepChecked (spawnWorker rt us) Prod.snd)
          (foundResults rt own ld us, [])).1,
        (batchesOf rt own ld us).filterMap fun batch =>
          (spawnWorker rt us batch).toOption, true⟩
    else
      ⟨foundResults rt own ld us, (batchesOf rt own ld us).map (.start us), false⟩ := by
  have hf : (groupUpdatesByOwner own us).byPlugin.toList.foldl
      (keepChecked (findPlugin rt ld) Prod.snd) ((groupUpdatesByOwner own us).results, []) =
      (foundResults rt own ld us, batchesOf rt own ld us) := Prod.ext rfl (foldl_admit_kept _ _ _)
  have hs : (batchesOf rt own ld us).foldl (keepChecked (spawnWorker rt us) Prod.snd)
        (foundResults rt own ld us, []) =
      (((batchesOf rt own ld us).foldl (keepChecked (spawnWorker rt us) Prod.snd)
          (foundResults rt own ld us, [])).1,
        (batchesOf rt own ld us).filterMap fun batch =>
          (spawnWorker rt us batch).toOption) := Prod.ext rfl (foldl_admit_kept _ _ _)
  rw [prepare, hf]
  refine if_congr Iff.rfl ?_ rfl
  rw [hs]

theorem prepare_threaded : (prepare rt own ld par us).threaded = threadedOf rt own ld par us := by
  rw [prepare_eq]
  split
  · next ht => exact ht.symm
  · next hs => exact (Bool.eq_false_of_not_eq_true hs).symm

theorem findPlugin_ok (h : findPlugin rt ld g = .ok batch) :
    ld.find? (·.id == g.1) = some batch.1 ∧ batch.2 = g.2 ∧ batch.1.id = g.1 := by
  rw [findPlugin] at h
  split at h
  · next plugin hf =>
    cases h
    exact ⟨hf, rfl, by simpa using find?_some hf⟩
  · cases h

theorem toOption_eq_some {ε β : Type} {result : Except ε β} {v : β} :
    result.toOption = some v ↔ result = .ok v := by
  cases result <;> simp [Except.toOption]

theorem mem_batchesOf (h : batch ∈ batchesOf rt own ld us) :
    ld.find? (·.id == batch.1.id) = some batch.1 ∧
      batch.2 = (entries own us batch.1.id).map Prod.snd := by
  obtain ⟨⟨id, indices⟩, hg, hf⟩ := mem_filterMap.1 h
  obtain ⟨hl, hi, hid⟩ := findPlugin_ok (toOption_eq_some.1 hf)
  rw [hid]
  exact ⟨hl, hi.trans (indices_of_group hg)⟩

theorem distinct_batchesOf : Distinct (batchesOf rt own ld us) := by
  have hk := (groupUpdatesByOwner own us).byPlugin.distinct_keys_toList
  refine Pairwise.filterMap _ (fun a b hne batch hb other ho hs => ?_) hk
  obtain ⟨-, -, hid⟩ := findPlugin_ok (toOption_eq_some.1 hb)
  obtain ⟨-, -, hid'⟩ := findPlugin_ok (toOption_eq_some.1 ho)
  exact hne (LawfulEqCmp.compare_eq_iff_eq.2 (hid.symm.trans (hs.trans hid')))

def Refused (threaded : Bool) (id : LoadedPluginId) : Prop :=
  threaded = true ∧ ∃ error, runtime.spawn id = .error error

theorem mem_prepare_workers : worker ∈ (prepare rt own ld par us).workers ↔
      ∃ batch ∈ batchesOf rt own ld us, worker = .start us batch ∧
        ¬ Refused rt (threadedOf rt own ld par us) batch.1.id := by
  rw [prepare_eq]
  split
  · next ht =>
    rw [mem_filterMap]
    refine exists_congr fun batch => and_congr_right fun _ => ?_
    rw [toOption_eq_some, spawnWorker, Refused, ht]
    cases rt.spawn batch.1.id <;> simp [eq_comm]
  · next hs =>
    rw [mem_map]
    refine exists_congr fun batch => and_congr_right fun _ => ?_
    simp [Refused, hs, eq_comm]

theorem distinct_workers : Distinct ((prepare rt own ld par us).workers.map Worker.batch) := by
  have hb : Distinct (batchesOf rt own ld us) := distinct_batchesOf
  rw [Distinct, pairwise_map, prepare_eq]
  split
  · refine Pairwise.filterMap _ (fun a b hne worker hw other ho => ?_) hb
    rw [spawnWorker] at hw ho
    split at hw
    · split at ho
      · cases hw
        cases ho
        exact hne
      · cases ho
    · cases hw
  · exact pairwise_map.2 hb

theorem start_sound : Pool.Sound us ((prepare rt own ld par us).workers.map Worker.batch)
    ⟨(prepare rt own ld par us).workers, []⟩ := by
  refine ⟨rfl, fun worker hw => ?_, fun call hc => absurd hc not_mem_nil⟩
  obtain ⟨batch, -, rfl, -⟩ := mem_prepare_workers.1 hw
  exact ⟨fun _ => rfl, fun _ call hc => absurd hc not_mem_nil, fun _ => rfl,
    fun hp => absurd hp Bool.false_ne_true, fun hp => absurd hp Bool.false_ne_true⟩

theorem run_sound (h : Ran rt own ld par us pool) : pool.Sound us
      ((prepare rt own ld par us).workers.map Worker.batch) := by
  refine h.holds (Pool.Sound us _) (fun start hs => ?_) fun before action after hb _
    hst => step_sound distinct_workers hb hst
  subst hs
  exact start_sound

theorem entries_fst : (entries own us id).map Prod.fst = us.filter (owns own id) := by
  conv_rhs => rw [← zipIdx_map_fst 0 us, filter_map]
  rfl

theorem pluginUpdates_entries :
    pluginUpdates us ((entries own us id).map Prod.snd) = ownUpdates own us id := by
  have he : ∀ entry ∈ entries own us id,
      us[entry.2]?.map pluginUpdate = some (pluginUpdate entry.1) := by
    intro entry hen
    rw [mem_zipIdx_iff_getElem?.1 (mem_filter.1 hen).1, Option.map_some]
  rw [pluginUpdates, filterMap_map, ownUpdates, ← entries_fst, map_map]
  exact (filterMap_congr he).trans (congrFun filterMap_eq_map' _)

/-- What a plugin's reply to one call says about the update at an offset in it. -/
inductive Answer (plugin : String) (update : PluginUpdate) (call : Call) (offset : ℕ) :
    ApplyResult → Prop
  | outcome {outcomes : List ApplyOutcome} {outcome : ApplyOutcome}
      (hreply : call.reply = some (.ok outcomes))
      (hcount : outcomes.length = call.updates.length)
      (houtcome : outcomes[offset]? = some outcome) :
      Answer plugin update call offset (applyOutcomeToResult plugin update outcome)
  | malformed {outcomes : List ApplyOutcome} (hreply : call.reply = some (.ok outcomes))
      (hcount : outcomes.length ≠ call.updates.length) :
      Answer plugin update call offset
        (.error (.internal ("plugin host returned an invalid batch response for " ++ plugin)))
  | failed {error : String} (hreply : call.reply = some (.error error)) :
      Answer plugin update call offset
        (.error (.internal ("plugin host batch call failed for " ++ plugin ++ ": " ++ error)))

theorem Answer.getElem? {update : PluginUpdate} (hu : call.updates[offset]? = some update)
    (h : Answer plugin update call offset result) : ∃ reply, call.reply = some reply ∧
      (chunkOutcomes plugin call.updates reply)[offset]? = some result := by
  cases h with
  | outcome hr hc ho =>
    refine ⟨_, hr, ?_⟩
    rw [chunkOutcomes, if_pos hc, getElem?_zipWith, hu, ho]
  | malformed hr hc =>
    refine ⟨_, hr, ?_⟩
    rw [chunkOutcomes, if_neg hc, getElem?_map, hu, Option.map_some]
  | failed hr =>
    refine ⟨_, hr, ?_⟩
    rw [chunkOutcomes, getElem?_map, hu, Option.map_some]

theorem length_chunkOutcomes : (chunkOutcomes plugin chunk reply).length = chunk.length := by
  cases reply with
  | ok outcomes =>
    rw [chunkOutcomes]
    split
    · next hl => rw [length_zipWith, hl, Nat.min_self]
    · rw [length_map]
  | error e => rw [chunkOutcomes, length_map]

theorem getElem?_chunkOutcomes (hr : call.reply = some reply) {update : PluginUpdate}
    (hu : call.updates[offset]? = some update) :
    ∃ result, (chunkOutcomes plugin call.updates reply)[offset]? = some result ∧
      Answer plugin update call offset result := by
  have hof := (List.getElem?_eq_some_iff.1 hu).1
  cases reply with
  | ok outcomes =>
    rw [chunkOutcomes]
    split
    · next hc =>
      have ho : outcomes[offset]? = some outcomes[offset] := getElem?_eq_getElem (hc ▸ hof)
      refine ⟨_, ?_, .outcome hr hc ho⟩
      rw [getElem?_zipWith, hu, ho]
    · next hc =>
      refine ⟨_, ?_, .malformed hr hc⟩
      rw [getElem?_map, hu, Option.map_some]
  | error e =>
    refine ⟨_, ?_, .failed hr⟩
    rw [chunkOutcomes, getElem?_map, hu, Option.map_some]

theorem worker_answers {log : List Call} (h : worker.Sound us log)
    (hf : worker.pending = []) (hr : worker.panicked = false)
    (hi : worker.indices = (entries own us worker.plugin.id).map Prod.snd) :
    (callsTo log worker.plugin.id).map (·.updates) =
        chunks maxPluginBatchUpdates (ownUpdates own us worker.plugin.id) ∧
    ∀ position update, (ownUpdates own us worker.plugin.id)[position]? = some update → ∃ call,
      (callsTo log worker.plugin.id)[position / maxPluginBatchUpdates]? = some call ∧
      call.updates[position % maxPluginBatchUpdates]? = some update ∧
      ∃ result, worker.outcomes[position]? = some result ∧
        Answer worker.plugin.metadata.name update call (position % maxPluginBatchUpdates)
          result := by
  have hsi : 0 < maxPluginBatchUpdates := by decide
  have hs := h.sent hr
  rw [hf, append_nil, hi, pluginChunks, pluginUpdates_entries] at hs
  refine ⟨hs, fun position update hu => ?_⟩
  have hp := (List.getElem?_eq_some_iff.1 hu).1
  -- The outcomes are as many as the updates, chunk by chunk.
  have hl : ((callsTo log worker.plugin.id).map
      (callOutcomes worker.plugin.metadata.name)).map length =
      (chunks maxPluginBatchUpdates (ownUpdates own us worker.plugin.id)).map length := by
    rw [← hs, map_map, map_map]
    refine map_congr_left fun call hc => ?_
    obtain ⟨reply, hre⟩ := h.replied hr call hc
    simp [callOutcomes, hre, length_chunkOutcomes]
  rw [getElem?_chunks hsi hp, ← hs, getElem?_map] at hu
  cases hc : (callsTo log worker.plugin.id)[position / maxPluginBatchUpdates]? with
  | none =>
    rw [hc] at hu
    cases hu
  | some call =>
    rw [hc] at hu
    obtain ⟨reply, hre⟩ := h.replied hr call (mem_of_getElem? hc)
    refine ⟨call, rfl, hu, ?_⟩
    rw [h.outcomes hr, flatMap_def, getElem?_flatten hsi hl hp, getElem?_map, hc]
    simp only [Option.map_some, Option.bind_some, callOutcomes, hre, Option.getD_some]
    exact getElem?_chunkOutcomes hre hu

/-- The thread of the plugin did not start, or did not come to its end. -/
def ThreadFailed (threaded : Bool) (workers : List Worker) (id : LoadedPluginId) : Prop :=
  Refused runtime threaded id ∨ ∃ worker ∈ workers, worker.plugin.id = id ∧ worker.panicked = true

/-- The result an update may have, by its owner and the call that carried it. -/
inductive Reported (runtime : Runtime) (ownerByDevice : OwnerMap LoadedPluginId)
    (loaded : List LoadedPlugin) (threaded : Bool) (updates : List Update)
    (workers : List Worker) (log : List Call) (index : ℕ) (update : Update) : ApplyResult → Prop
  | unowned (howner : ownerOf ownerByDevice update = none) :
      Reported runtime ownerByDevice loaded threaded updates workers log index update
        (.error (.deviceUnowned update.1.deviceId))
  | unloaded {id : LoadedPluginId} (howner : ownerOf ownerByDevice update = some id)
      (hloaded : loaded.find? (·.id == id) = none) :
      Reported runtime ownerByDevice loaded threaded updates workers log index update
        (.error (.internal ("plugin owner " ++ runtime.idDebug id ++ " is no longer loaded")))
  | failed {plugin : LoadedPlugin} {reason : String}
      (howner : ownerOf ownerByDevice update = some plugin.id)
      (hloaded : loaded.find? (·.id == plugin.id) = some plugin)
      (hfailed : ThreadFailed runtime threaded workers plugin.id) :
      Reported runtime ownerByDevice loaded threaded updates workers log index update
        (.error (.internal reason))
  | answered {plugin : LoadedPlugin} {call : Call}
      (howner : ownerOf ownerByDevice update = some plugin.id)
      (hloaded : loaded.find? (·.id == plugin.id) = some plugin)
      (hfinished : ¬ ThreadFailed runtime threaded workers plugin.id)
      (hcall : (callsTo log plugin.id)[position ownerByDevice updates plugin.id index /
        maxPluginBatchUpdates]? = some call)
      (hcarried : call.updates[position ownerByDevice updates plugin.id index %
        maxPluginBatchUpdates]? = some (pluginUpdate update))
      {result : ApplyResult} (hanswer : Answer plugin.metadata.name (pluginUpdate update) call
        (position ownerByDevice updates plugin.id index % maxPluginBatchUpdates) result) :
      Reported runtime ownerByDevice loaded threaded updates workers log index update result

def Allowed (threaded : Bool) (updates : List Update) (workers : List Worker) (log : List Call)
    (index : ℕ) (result : ApplyResult) : Prop :=
  ∀ update, updates[index]? = some update →
    Reported runtime ownerByDevice loaded threaded updates workers log index update result

end

theorem owner_of_entry (hi : index ∈ (entries own us id).map Prod.snd)
    (hu : us[index]? = some update) : ownerOf own update = some id := by
  obtain ⟨⟨other, _⟩, he, rfl⟩ := mem_map.1 hi
  obtain ⟨hm, how⟩ := mem_filter.1 he
  have ho := mem_zipIdx_iff_getElem?.1 hm
  cases ho.symm.trans hu
  exact of_decide_eq_true how

theorem foundResults_written : Written us.length (Allowed rt own ld threaded us workers log)
      (fun index => ∃ update, us[index]? = some update ∧
        (ownerOf own update = none ∨ ∃ id, ownerOf own update = some id ∧
          ld.find? (·.id == id) = none))
      (foundResults rt own ld us) := by
  have hgr : Written us.length (Allowed rt own ld threaded us workers log) _
      (groupUpdatesByOwner own us).results :=
    groupUpdates_written fun index update hu ho other hot => by
      cases hu.symm.trans hot
      exact .unowned ho
  have hm : ∀ g e, findPlugin rt ld g = .error e → ld.find? (·.id == g.1) = none ∧ e = .internal
        ("plugin owner " ++ rt.idDebug g.1 ++ " is no longer loaded") := by
    intro g e he
    rw [findPlugin] at he
    split at he
    · cases he
    · next hn => exact ⟨hn, (Except.error.inj he).symm⟩
  refine (foldl_admit_written _ hgr [] ?_).mono ?_
  · rintro ⟨id, indices⟩ hg e he index hi update hu
    obtain ⟨hn, rfl⟩ := hm _ _ he
    rw [indices_of_group hg] at hi
    exact .unloaded (owner_of_entry hi hu) hn
  · rintro index ⟨update, hu, hun | ⟨id, ho, hn⟩⟩
    · exact .inl ⟨update, hu, hun⟩
    · obtain ⟨hg, hi⟩ := exists_group hu ho
      refine .inr ⟨_, hg, .internal
        ("plugin owner " ++ rt.idDebug id ++ " is no longer loaded"), ?_, hi⟩
      rw [findPlugin, hn]

theorem exists_batch (hu : us[index]? = some update) (ho : ownerOf own update = some plugin.id)
    (hl : ld.find? (·.id == plugin.id) = some plugin) :
    (plugin, (entries own us plugin.id).map Prod.snd) ∈ batchesOf rt own ld us ∧
      index ∈ (entries own us plugin.id).map Prod.snd := by
  obtain ⟨hg, hi⟩ := exists_group hu ho
  refine ⟨mem_filterMap.2 ⟨_, hg, ?_⟩, hi⟩
  rw [findPlugin, hl]
  rfl

theorem prepared_written : Written us.length (Allowed rt own ld
        (threadedOf rt own ld par us) us workers log)
      (fun index => ∃ update, us[index]? = some update ∧
        (ownerOf own update = none ∨ ∃ id, ownerOf own update = some id ∧
          (ld.find? (·.id == id) = none ∨ Refused rt (threadedOf rt own ld par us) id)))
      (prepare rt own ld par us).results := by
  have hf : Written us.length (Allowed rt own ld (threadedOf rt own ld par us) us workers log) _
      (foundResults rt own ld us) := foundResults_written
  rw [prepare_eq]
  split
  · next ht =>
    refine (foldl_admit_written _ hf [] ?_).mono ?_
    · rintro batch hb e he index hi update hu
      obtain ⟨hl, hin⟩ := mem_batchesOf hb
      rw [hin] at hi
      rw [spawnWorker] at he
      split at he
      · cases he
      · next failure hs =>
        cases he
        exact .failed (owner_of_entry hi hu) hl (.inl ⟨ht, failure, hs⟩)
    · rintro index ⟨update, hu, hun | ⟨id, ho, hn | ⟨-, failure, hs⟩⟩⟩
      · exact .inl ⟨update, hu, .inl hun⟩
      · exact .inl ⟨update, hu, .inr ⟨id, ho, hn⟩⟩
      · cases hl : ld.find? (·.id == id) with
        | none => exact .inl ⟨update, hu, .inr ⟨id, ho, hl⟩⟩
        | some plugin =>
          obtain rfl : plugin.id = id := by simpa using find?_some hl
          obtain ⟨hb, hi⟩ := exists_batch hu ho hl
          refine .inr ⟨_, hb, .internal ("failed to start scene worker for " ++
            plugin.metadata.name ++ ": " ++ failure), ?_, hi⟩
          rw [spawnWorker, hs]
  · next hse =>
    apply hf.mono
    rintro index ⟨update, hu, hun | ⟨id, ho, hn | hr⟩⟩
    · exact ⟨update, hu, .inl hun⟩
    · exact ⟨update, hu, .inr ⟨id, ho, hn⟩⟩
    · exact absurd hr.1 hse

theorem joinWorkers_written {count : ℕ} (workers : List Worker)
    (h : Written count allowed covered results)
    (hp : ∀ worker ∈ workers, worker.panicked = true → ∀ index ∈ worker.indices,
      allowed index (.error (.internal "scene plugin worker panicked")))
    (hou : ∀ worker ∈ workers, worker.panicked = false → ∀ index outcome,
      (index, outcome) ∈ worker.indices.zip worker.outcomes → allowed index outcome)
    (hc : ∀ worker ∈ workers, worker.panicked = false →
      worker.indices.length ≤ worker.outcomes.length) :
    Written count allowed (fun index => covered index ∨ ∃ worker ∈ workers, index ∈ worker.indices)
      (workers.foldl joinWorker results) := by
  refine h.foldl (p := id) workers fun worker hw covered s hs => ?_
  rw [joinWorker]
  cases hpa : worker.panicked with
  | true => exact fillResults_written hs (hp worker hw hpa)
  | false =>
    refine (hs.scatter (hou worker hw hpa)).mono fun index hi => ?_
    rw [map_fst_zip (hc worker hw hpa)]
    exact hi

theorem worker_origin (hr : Ran rt own ld par us ⟨workers, log⟩) (hw : w ∈ workers) :
    ld.find? (·.id == w.plugin.id) = some w.plugin ∧
      w.indices = (entries own us w.plugin.id).map Prod.snd ∧
      ¬ Refused rt (threadedOf rt own ld par us) w.plugin.id := by
  have hm : w.batch ∈ workers.map Worker.batch := mem_map_of_mem hw
  rw [(run_sound hr).frame] at hm
  obtain ⟨started, hst, hba⟩ := mem_map.1 hm
  obtain ⟨batch, hb, rfl, hs⟩ := mem_prepare_workers.1 hst
  obtain ⟨hp, hi⟩ := Prod.mk.inj hba
  obtain ⟨hl, he⟩ := mem_batchesOf hb
  rw [← hp, ← hi]
  exact ⟨hl, he, hs⟩

theorem exists_worker (hr : Ran rt own ld par us ⟨workers, log⟩) (hu : us[index]? = some update)
    (ho : ownerOf own update = some plugin.id) (hl : ld.find? (·.id == plugin.id) = some plugin)
    (hs : ¬ Refused rt (threadedOf rt own ld par us) plugin.id) :
    ∃ w ∈ workers, w.plugin = plugin ∧ index ∈ w.indices := by
  obtain ⟨hb, hin⟩ := exists_batch hu ho hl
  have hst := mem_prepare_workers.2 ⟨_, hb, rfl, hs⟩
  have hm := mem_map_of_mem (f := Worker.batch) hst
  rw [← (run_sound hr).frame] at hm
  obtain ⟨w, hw, heq⟩ := mem_map.1 hm
  obtain ⟨hp, hi⟩ := Prod.mk.inj heq
  exact ⟨w, hw, hp, by rw [hi]; exact hin⟩

/-- The worker of a plugin is the only one, so its own end decides about its thread. -/
theorem not_threadFailed (hrn : Ran rt own ld par us ⟨workers, log⟩)
    (hw : w ∈ workers) (hru : w.panicked = false) :
    ¬ ThreadFailed rt (threadedOf rt own ld par us) workers w.plugin.id := by
  rintro (hr | ⟨other, ho, hs, hp⟩)
  · exact (worker_origin hrn hw).2.2 hr
  · have hd : Distinct (workers.map Worker.batch) := by
      rw [(run_sound hrn).frame]
      exact distinct_workers
    rw [Distinct, pairwise_map] at hd
    have hi : (workers.map (·.plugin.id)).Nodup := pairwise_map.2 hd
    rw [inj_on_of_nodup_map hi ho hw hs, hru] at hp
    exact Bool.false_ne_true hp

section

variable (ha : Applied rt own ld par us workers log results)

include ha

theorem worker_outcome (hw : w ∈ workers) (hr : w.panicked = false) {j index : ℕ}
    (hin : w.indices[j]? = some index) :
    ∃ outcome, w.outcomes[j]? = some outcome ∧ Allowed rt own ld
        (threadedOf rt own ld par us) us workers log index
        outcome := by
  obtain ⟨hl, hi, -⟩ := worker_origin ha.run hw
  have hs := (run_sound ha.run).workers w hw
  obtain ⟨-, has⟩ := worker_answers hs (ha.finished w hw) hr hi
  rw [hi, getElem?_map, Option.map_eq_some_iff] at hin
  obtain ⟨⟨update, _⟩, he, rfl⟩ := hin
  obtain ⟨hu, how, hp⟩ := position_of_filter_zipIdx he
  have hon : (ownUpdates own us w.plugin.id)[j]? = some (pluginUpdate update) := by
    rw [ownUpdates, ← entries_fst, getElem?_map, getElem?_map, he]
    rfl
  obtain ⟨call, hca, hc, outcome, ho, han⟩ := has j _ hon
  refine ⟨outcome, ho, fun other hot => ?_⟩
  cases hu.symm.trans hot
  rw [hp] at hca hc han
  exact .answered (of_decide_eq_true how) hl (not_threadFailed ha.run hw hr) hca hc han

theorem results_written :
    Written us.length (Allowed rt own ld (threadedOf rt own ld par us) us workers log)
      (· < us.length) (workers.foldl joinWorker (prepare rt own ld par us).results) := by
  refine (joinWorkers_written workers prepared_written ?_ ?_ ?_).mono ?_
  · intro w hw hp index hi update hu
    obtain ⟨hl, hin, -⟩ := worker_origin ha.run hw
    rw [hin] at hi
    exact .failed (owner_of_entry hi hu) hl (.inr ⟨w, hw, rfl, hp⟩)
  · intro w hw hr index outcome hm
    obtain ⟨j, hj⟩ := mem_iff_getElem?.1 hm
    obtain ⟨hi, ho⟩ := getElem?_zip_eq_some.1 hj
    obtain ⟨fd, hf, hal⟩ := worker_outcome ha hw hr hi
    cases ho.symm.trans hf
    exact hal
  · intro w hw hr
    by_contra hs
    obtain ⟨index, hi⟩ : ∃ index, w.indices[w.outcomes.length]? = some index :=
      ⟨_, getElem?_eq_getElem (Nat.lt_of_not_le hs)⟩
    obtain ⟨outcome, ho, -⟩ := worker_outcome ha hw hr hi
    exact absurd (List.getElem?_eq_some_iff.1 ho).1 (Nat.lt_irrefl _)
  · intro index hi
    have hu : us[index]? = some us[index] := getElem?_eq_getElem hi
    cases how : ownerOf own us[index] with
    | none => exact .inl ⟨_, hu, .inl how⟩
    | some id =>
      cases hl : ld.find? (·.id == id) with
      | none => exact .inl ⟨_, hu, .inr ⟨id, how, .inl hl⟩⟩
      | some plugin =>
        obtain rfl : plugin.id = id := by simpa using find?_some hl
        by_cases hre : Refused rt (threadedOf rt own ld par us) plugin.id
        · exact .inl ⟨_, hu, .inr ⟨plugin.id, how, .inr hre⟩⟩
        · obtain ⟨w, hw, -, hli⟩ := exists_worker ha.run hu how hl hre
          exact .inr ⟨w, hw, hli⟩

theorem results_reported : results.length = us.length ∧ ∀ index update, us[index]? = some update →
      ∃ result, results[index]? = some result ∧ Reported rt own ld
          (threadedOf rt own ld par us) us workers log index
          update result := by
  have hw := results_written ha
  rw [ha.returned, collectResults]
  refine ⟨by rw [length_map, hw.length], fun index update hu => ?_⟩
  have hi := (List.getElem?_eq_some_iff.1 hu).1
  obtain ⟨result, hr⟩ := hw.covers index hi hi
  refine ⟨result, ?_, hw.value index result hr update hu⟩
  rw [getElem?_map, hr]
  rfl

theorem calls_delivered (id : LoadedPluginId) :
    ((callsTo log id).map (·.updates) <+: chunks maxPluginBatchUpdates (ownUpdates own us id)) ∧
    ∀ plugin, ld.find? (·.id == id) = some plugin →
      ¬ ThreadFailed rt (threadedOf rt own ld par us) workers id →
      (callsTo log id).map (·.updates) = chunks maxPluginBatchUpdates (ownUpdates own us id) := by
  have hs := run_sound ha.run
  by_cases hw : ∃ w ∈ workers, w.plugin.id = id
  · obtain ⟨w, hw, rfl⟩ := hw
    obtain ⟨-, hi, -⟩ := worker_origin ha.run hw
    cases hp : w.panicked with
    | false =>
      obtain ⟨hc, -⟩ := worker_answers (hs.workers w hw) (ha.finished w hw) hp hi
      exact ⟨hc ▸ prefix_rfl, fun _ _ _ => hc⟩
    | true =>
      refine ⟨?_, fun plugin _ hf => ?_⟩
      · have hbr := (hs.workers w hw).broken hp
        rwa [hi, pluginChunks, pluginUpdates_entries] at hbr
      · exact absurd (.inr ⟨w, hw, rfl, hp⟩) hf
  · have hn : callsTo log id = [] := by
      refine filter_eq_nil_iff.2 fun call hca hid => hw ?_
      obtain ⟨batch, hb, hpl⟩ := hs.origin call hca
      rw [← hs.frame] at hb
      obtain ⟨w, hm, rfl⟩ := mem_map.1 hb
      exact ⟨w, hm, hpl.trans (of_decide_eq_true hid)⟩
    rw [hn, map_nil]
    refine ⟨List.nil_prefix, fun plugin hl hf => ?_⟩
    obtain rfl : plugin.id = id := by simpa using find?_some hl
    -- An update of the plugin would have brought a worker along.
    have he : ownUpdates own us plugin.id = [] := by
      rw [ownUpdates, map_eq_nil_iff, filter_eq_nil_iff]
      intro update hm ho
      obtain ⟨index, hu⟩ := mem_iff_getElem?.1 hm
      obtain ⟨w, hm, hpl, -⟩ := exists_worker ha.run hu
        (of_decide_eq_true ho) hl fun hr => hf (.inl hr)
      exact hw ⟨w, hm, by rw [hpl]⟩
    rw [he, chunks_nil (by decide)]

end

theorem running_receive {pre after : List Worker}
    (h : ∀ other ∈ pre ++ w :: after, other.panicked = false) :
    ∀ other ∈ pre ++ w.receive chunk rest reply :: after, other.panicked = false := by
  rw [forall_mem_append, forall_mem_cons] at h ⊢
  exact h

theorem serial_running (hr : Ran rt own ld par us ⟨workers, log⟩)
    (hs : threadedOf rt own ld par us = false) : ∀ w ∈ workers, w.panicked = false := by
  rw [← prepare_threaded] at hs
  refine hr.holds (fun pool => ∀ w ∈ pool.workers, w.panicked = false) ?_ ?_
  · rintro pool rfl w hw
    obtain ⟨batch, -, rfl, -⟩ := mem_prepare_workers.1 hw
    rfl
  · intro pool a next hpo _ hst
    cases hst with
    | call reply htu hp => exact running_receive hpo
    | panic sent ht hp => exact absurd (hs.symm.trans ht) Bool.false_ne_true

def remaining (pool : Pool) : ℕ := (pool.workers.flatMap (·.pending)).length

/-- Every step leaves less to do, so the call ends. -/
theorem remaining_step {next : Pool} (h : Step threaded pool a next) :
    remaining next < remaining pool := by
  cases h with
  | @call pre after worker log chunk rest reply htu hp =>
    simp only [remaining, flatMap_append, flatMap_cons, length_append, hp,
      Worker.receive, length_cons]
    omega
  | @panic pre after worker log chunk rest sent ht hp =>
    simp only [remaining, flatMap_append, flatMap_cons, length_append, hp, length_cons, length_nil]
    omega

theorem exists_turn (workers : List Worker) :
    (∀ worker ∈ workers, worker.pending = []) ∨ ∃ pre worker after chunk rest,
      workers = pre ++ worker :: after ∧ (∀ old ∈ pre, old.pending = []) ∧
      worker.pending = chunk :: rest := by
  induction workers with
  | nil => exact .inl fun worker hw => absurd hw not_mem_nil
  | cons first rest ih =>
    cases hp : first.pending with
    | cons chunk chunks =>
      exact .inr ⟨[], first, rest, chunk, chunks, rfl, fun old h => absurd h not_mem_nil, hp⟩
    | nil =>
      rcases ih with ha | ⟨pre, worker, after, chunk, chunks, rfl, hb, hw⟩
      · exact .inl (forall_mem_cons.2 ⟨hp, ha⟩)
      · exact .inr ⟨first :: pre, worker, after, chunk, chunks, rfl, forall_mem_cons.2 ⟨hp, hb⟩, hw⟩

/-- Each call was answered as the plugin is known to answer. -/
def Follows (respond : LoadedPluginId → ℕ → Reply) (log : List Call) : Prop :=
  ∀ id k call, (callsTo log id)[k]? = some call → call.reply = some (respond id k)

theorem Follows.call (h : Follows respond log) (plugin : LoadedPluginId)
    (chunk : List PluginUpdate) : Follows respond
      (log ++ [⟨plugin, chunk, some (respond plugin (callsTo log plugin).length)⟩]) := by
  intro id k call hc
  rw [callsTo_append] at hc
  split at hc
  · next hs =>
    obtain rfl : plugin = id := hs
    rw [getElem?_append] at hc
    split at hc
    · exact h plugin k call hc
    · next hl =>
      obtain ⟨hk, hc⟩ := List.getElem?_eq_some_iff.1 hc
      rw [length_singleton] at hk
      obtain rfl : k = (callsTo log plugin).length := by omega
      rw [← hc]
      simp
  · exact h id k call hc

theorem exists_finished (respond : LoadedPluginId → ℕ → Reply) (hra : Ran rt own ld par us pool)
    (hf : Follows respond pool.log) (hr : ∀ worker ∈ pool.workers, worker.panicked = false) :
    ∃ after, Ran rt own ld par us after ∧ Follows respond after.log ∧
      ∀ worker ∈ after.workers, worker.pending = [] ∧ worker.panicked = false := by
  induction hre : remaining pool using Nat.strong_induction_on generalizing pool with
  | _ n ih =>
    subst hre
    obtain ⟨workers, log⟩ := pool
    rcases exists_turn workers with
      ha | ⟨before, worker, after, chunk, rest, rfl, hb, hp⟩
    · exact ⟨_, hra, hf, fun worker hw => ⟨ha worker hw, hr worker hw⟩⟩
    · have hs : Step (prepare rt own ld par us).threaded ⟨before ++ worker :: after, log⟩ (.call _)
          ⟨before ++ worker.receive chunk rest _ :: after, log ++ [⟨_, chunk, some _⟩]⟩ :=
        .call (respond worker.plugin.id (callsTo log worker.plugin.id).length) (fun _ => hb) hp
      exact ih _ (remaining_step hs) (hra.step trivial hs) (hf.call _ _) (running_receive hr) rfl

section

variable (runtime : Runtime) (ownerByDevice : OwnerMap LoadedPluginId)
  (loaded : List LoadedPlugin) (parallel : Bool) (updates : List Update)

structure BatchSound (workers : List Worker) (log : List Call) (results : List ApplyResult) :
    Prop where
  length : results.length = updates.length
  reported : ∀ index update, updates[index]? = some update →
    ∃ result, results[index]? = some result ∧ Reported runtime ownerByDevice loaded
      (threadedOf runtime ownerByDevice loaded parallel updates) updates workers log index update
      result
  bounded : ∀ call ∈ log, call.updates.length ≤ maxPluginBatchUpdates
  own : ∀ id, (callsTo log id).flatMap (·.updates) <+: ownUpdates ownerByDevice updates id
  all : ∀ plugin, loaded.find? (·.id == plugin.id) = some plugin →
    ¬ ThreadFailed runtime (threadedOf runtime ownerByDevice loaded parallel updates) workers
      plugin.id →
    (callsTo log plugin.id).flatMap (·.updates) = ownUpdates ownerByDevice updates plugin.id
  serial : parallel = false → ∀ id,
    ¬ ThreadFailed runtime (threadedOf runtime ownerByDevice loaded parallel updates) workers id

/-- The update is carried by the same call in two runs, with the same reply. -/
def SameCall (workers others : List Worker) (log log' : List Call) (index : ℕ) (update : Update) :
    Prop :=
  ∀ plugin, ownerOf ownerByDevice update = some plugin.id →
    loaded.find? (·.id == plugin.id) = some plugin →
    (∀ failing ∈ [workers, others], ¬ ThreadFailed runtime
      (threadedOf runtime ownerByDevice loaded parallel updates) failing plugin.id) ∧
    (callsTo log plugin.id)[position ownerByDevice updates plugin.id index /
        maxPluginBatchUpdates]? =
      (callsTo log' plugin.id)[position ownerByDevice updates plugin.id index /
        maxPluginBatchUpdates]?

end

theorem applied_sound (ha : Applied rt own ld par us workers log results) :
    BatchSound rt own ld par us workers log results := by
  have hsi : 0 < maxPluginBatchUpdates := by decide
  obtain ⟨hl, hr⟩ := results_reported ha
  refine ⟨hl, hr, fun call hc => ?_, fun id => ?_, fun plugin hlo hf => ?_, fun hs id => ?_⟩
  · have hse : call.updates ∈ (callsTo log call.plugin).map (·.updates) :=
      mem_map_of_mem (mem_filter.2 ⟨hc, decide_eq_true rfl⟩)
    exact length_le_of_mem_chunks ((calls_delivered ha call.plugin).1.subset hse)
  · obtain ⟨rest, hre⟩ := (calls_delivered ha id).1
    refine ⟨rest.flatten, ?_⟩
    rw [flatMap_def, ← flatten_append, hre, flatten_chunks hsi]
  · rw [flatMap_def, (calls_delivered ha plugin.id).2 plugin hlo hf, flatten_chunks hsi]
  · have ht : threadedOf rt own ld par us = false := by rw [threadedOf, hs, Bool.false_and]
    rintro (⟨htr, -⟩ | ⟨worker, hw, -, hp⟩)
    · exact Bool.false_ne_true (ht.symm.trans htr)
    · have hru := serial_running ha.run ht worker hw
      exact Bool.false_ne_true (hru.symm.trans hp)

theorem reported_unique
    (h : Reported rt own ld (threadedOf rt own ld par us) us workers log index update
      first) (h' : Reported rt own ld (threadedOf rt own ld par us) us others log' index update
      second) (hs : SameCall rt own ld par us workers others log log' index update) :
    first = second := by
  cases h with
  | unowned ho =>
    cases h' with
    | unowned _ => rfl
    | unloaded ho' _ => cases ho.symm.trans ho'
    | failed ho' _ _ => cases ho.symm.trans ho'
    | answered ho' _ _ _ _ _ => cases ho.symm.trans ho'
  | unloaded ho hn =>
    cases h' with
    | unowned ho' => cases ho.symm.trans ho'
    | unloaded ho' _ =>
      cases ho.symm.trans ho'
      rfl
    | failed ho' hl _ =>
      cases ho.symm.trans ho'
      cases hn.symm.trans hl
    | answered ho' hl _ _ _ _ =>
      cases ho.symm.trans ho'
      cases hn.symm.trans hl
  | failed ho hl hf => exact absurd hf ((hs _ ho hl).1 _ mem_cons_self)
  | @answered plugin call ho hl hfi hcl hca result ha =>
    obtain ⟨hf', hc⟩ := hs _ ho hl
    cases h' with
    | unowned ho' => cases ho.symm.trans ho'
    | unloaded ho' hn =>
      cases ho.symm.trans ho'
      cases hn.symm.trans hl
    | @failed p' _ ho' hl' hf =>
      apply absurd hf
      rw [← Option.some.inj (ho.symm.trans ho')]
      exact hf' _ (mem_cons_of_mem _ mem_cons_self)
    | @answered p' call' ho' hl' _ hc' _ _ ha' =>
      have hid := Option.some.inj (ho.symm.trans ho')
      rw [← hid] at hl' hc' ha'
      cases hl.symm.trans hl'
      rw [← hc] at hc'
      cases hcl.symm.trans hc'
      obtain ⟨reply, hr, hre⟩ := ha.getElem? hca
      obtain ⟨_, hr', hre'⟩ := ha'.getElem? hca
      cases hr.symm.trans hr'
      exact Option.some.inj (hre.symm.trans hre')

/-- Whatever the plugins reply, the call ends and its results are sound; and the result of an
update depends on the one call that carries it, not on the order of the workers. -/
theorem batch_apply_sound : (∀ respond : LoadedPluginId → ℕ → Reply, ∃ workers log results,
      Applied runtime ownerByDevice loaded parallel updates workers log results ∧
        Follows respond log ∧ ∀ worker ∈ workers, worker.panicked = false) ∧
    (∀ threaded pool action next, Step threaded pool action next →
      remaining next < remaining pool) ∧
    ∀ workers log results,
      Applied runtime ownerByDevice loaded parallel updates workers log results →
      BatchSound runtime ownerByDevice loaded parallel updates workers log results ∧
      ∀ others log' results',
        Applied runtime ownerByDevice loaded parallel updates others log' results' →
        ∀ index update, updates[index]? = some update →
          SameCall runtime ownerByDevice loaded parallel updates workers others log log' index
            update →
          results[index]? = results'[index]? := by
  refine ⟨fun respond => ?_, fun threaded pool action next => remaining_step, ?_⟩
  · have hs : Ran runtime ownerByDevice loaded parallel updates
        ⟨(prepare runtime ownerByDevice loaded parallel updates).workers, []⟩ := .initial rfl
    have hru : ∀ worker ∈ (prepare runtime ownerByDevice loaded parallel updates).workers,
        worker.panicked = false := by
      intro worker hw
      obtain ⟨batch, -, rfl, -⟩ := mem_prepare_workers.1 hw
      rfl
    obtain ⟨⟨workers, log⟩, hra, hfo, hf⟩ :=
      exists_finished respond hs (fun id k call hc => by simp [callsTo] at hc) hru
    exact ⟨workers, log, _, ⟨hra, fun worker hw => (hf worker hw).1, rfl⟩,
      hfo, fun worker hw => (hf worker hw).2⟩
  · intro workers log results ha
    refine ⟨applied_sound ha, ?_⟩
    intro others log' results' ha' index update hu hsa
    obtain ⟨result, hre, hr⟩ := (applied_sound ha).reported index update hu
    obtain ⟨result', hre', hr'⟩ := (applied_sound ha').reported index update hu
    rw [hre, hre', reported_unique hr hr' hsa]

namespace Sample

def host : Runtime := ⟨fun _ => "LoadedPluginId", fun _ => .ok ()⟩

def hue : LoadedPlugin := ⟨1, ⟨"hue", 0⟩⟩

def wled : LoadedPlugin := ⟨2, ⟨"wled", 0⟩⟩

def owners : OwnerMap LoadedPluginId := (∅ : OwnerMap LoadedPluginId).insertMany
  [("lamp", 1), ("strip", 2)]

def batch : List Update :=
  [(.device "lamp", .clear), (.device "strip", .clear), (.device "ghost", .clear),
    (.device "lamp", .saveCurrent)]

def hueUpdates : List PluginUpdate := [⟨.device "lamp", .clear⟩, ⟨.device "lamp", .saveCurrent⟩]

def wledUpdates : List PluginUpdate := [⟨.device "strip", .clear⟩]

/-- The second plugin is called first, and answers with no outcome. -/
def log : List Call :=
  [⟨2, wledUpdates, some (.ok [])⟩, ⟨1, hueUpdates, some (.ok [.applied, .io "busy"])⟩]

def hueWorker : Worker := ⟨hue, [0, 3], [hueUpdates], [], false⟩

def wledWorker : Worker := ⟨wled, [1], [wledUpdates], [], false⟩

def finished : List Worker :=
  [hueWorker.receive hueUpdates [] (.ok [.applied, .io "busy"]),
    wledWorker.receive wledUpdates [] (.ok [])]

def results : List ApplyResult :=
  [.ok (), .error (.internal "plugin host returned an invalid batch response for wled"),
    .error (.deviceUnowned "ghost"), .error (.pluginIo "hue" "lamp" "busy")]

theorem applied : Applied host owners [hue, wled] true batch finished log results where
  run := by
    have ht : (prepare host owners [hue, wled] true batch).threaded = true := by decide +kernel
    rw [Ran, ht]
    have hf : Step true ⟨[hueWorker] ++ wledWorker :: [], []⟩ (.call (.ok []))
        ⟨[hueWorker] ++ wledWorker.receive wledUpdates [] (.ok []) :: [],
          [] ++ [⟨2, wledUpdates, some (.ok [])⟩]⟩ := .call _ (fun h => by cases h) rfl
    have hs : Step true ⟨[] ++ hueWorker :: [wledWorker.receive wledUpdates [] (.ok [])],
        [⟨2, wledUpdates, some (.ok [])⟩]⟩ (.call (.ok [.applied, .io "busy"]))
        ⟨finished, log⟩ := .call _ (fun h => by cases h) rfl
    exact .step (.step (.initial rfl) trivial hf) trivial hs
  finished := by decide
  returned := by decide +kernel

end Sample

open Sample in
/-- The plugin of the strip gives no outcome; the lamp's updates are unaffected. -/
theorem malformed_reply_is_contained :
    Applied host owners [hue, wled] true batch finished log results ∧
      BatchSound host owners [hue, wled] true batch finished log results :=
  ⟨applied, (batch_apply_sound.2.2 _ _ _ applied).1⟩

end BatchApply
