import Luminate.ManagedConfiguration

/-! # The plugin catalogue

`plugins/catalogue.rs` and the startup loop of `plugins/loading.rs`: every installed plugin
has an entry with its effective settings, also one whose settings do not resolve, and the
hosts of the enabled ones are started with them. -/
namespace PluginCatalogue

open Checks PluginSettings ManagedConfiguration List Function

inductive PluginActivationMode where
  | explicit | hostAttached | all
  deriving DecidableEq

inductive ManagedPluginActivation where
  | managed | enabled | disabled
  deriving DecidableEq

inductive PluginBus where
  | unknown | usb | hid | i2c | platform | network
  deriving DecidableEq

structure PluginActivationInputs where
  explicit : Bool
  required : Bool
  automaticallySelected : Bool
  deriving DecidableEq

def automaticallySelected (buses : List PluginBus) : PluginActivationMode → Bool
  | .explicit => false
  | .hostAttached => !buses.isEmpty && buses.all fun bus => bus != .unknown && bus != .network
  | .all => true

def pluginIsEnabled {F : Type} (mode : PluginActivationMode)
    (globalActivation : ManagedPluginActivation) (managed : Option (ManagedPluginConfig F))
    (inputs : PluginActivationInputs) : Bool :=
  if inputs.required then true
  else match globalActivation with
    | .enabled => true
    | .disabled => false
    | .managed =>
      match managed.bind (·.enabled) with
      | some enabled => enabled
      | none => inputs.explicit || (mode != .explicit && inputs.automaticallySelected)

inductive PluginRuntimeState where
  | inactive
  | loading
  | loaded
  | failed (diagnostic : String)
  deriving DecidableEq

/-- The settings of one plugin as CBOR, which its host is started with. -/
abbrev Configuration := List UInt8

structure ReportedSettingSchema (F : Type) where
  key : String
  kind : PluginSettingKind
  default : ReportedSettingValue F
  required : Bool
  sensitive : Bool
  minimum : Option F
  maximum : Option F
  constraints : ReportedSettingValue F

structure ManagedPlugin (F : Type) where
  name : String
  required : Bool
  desiredEnabled : Option Bool
  desiredReconciliation : Option ReconciliationPolicy
  effectiveReconciliation : Option ReconciliationPolicy
  effectiveEnabled : Bool
  runtime : PluginRuntimeState
  activationLocked : Bool
  schema : List (ReportedSettingSchema F)
  desiredSettings : List (String × ReportedSettingValue F)
  effectiveSettings : List (String × ReportedSettingValue F)
  lockedSettings : List String

structure PluginCatalogueEntry (F : Type) where
  name : String
  path : String
  required : Bool
  activationInputs : PluginActivationInputs
  globalActivation : ManagedPluginActivation
  globalReconciliation : Option ReconciliationPolicy
  desiredEnabled : Option Bool
  effectiveEnabled : Bool
  effectiveReconciliation : Option ReconciliationPolicy
  configurationCbor : Configuration
  globalSettings : Table F
  lockedSettings : List String
  validationSchema : List (PluginSettingSchema F)
  runtime : PluginRuntimeState
  management : ManagedPlugin F

structure PluginCandidate (F : Type) where
  path : String
  explicit : Bool
  required : Bool
  activation : ManagedPluginActivation := .managed
  reconciliation : Option ReconciliationPolicy := none
  lockedSettings : List String := []
  configuration : Table F := .nil

structure InspectedPlugin (F : Type) where
  name : String
  buses : List PluginBus := []
  settings : List (PluginSettingSchema F)

section

variable {F : Type}

def PluginCatalogueEntry.setRuntime (entry : PluginCatalogueEntry F)
    (runtime : PluginRuntimeState) : PluginCatalogueEntry F :=
  { entry with runtime, management := { entry.management with runtime } }

def managedPlugin (managed : ManagedConfig F) (name : String) : Option (ManagedPluginConfig F) :=
  managed.plugins.find? (·.name == name)

def managedSettings (managed : ManagedConfig F) (name : String) : Table F :=
  (managedPlugin managed name).elim .nil (·.settings)

def reportedSettingSchema (setting : PluginSettingSchema F) :
    Except String (ReportedSettingSchema F) := do
  let default ← reportedValue setting.default setting.sensitive
  let constraints ← reportedValue setting.constraints setting.sensitive
  .ok { key := setting.key, kind := setting.kind, default, required := setting.required,
        sensitive := setting.sensitive, minimum := setting.minimum, maximum := setting.maximum,
        constraints }

variable [FloatFormat F]

def effectiveSettings (managed : ManagedConfig F) (entry : PluginCatalogueEntry F) :
    Except String (Table F) :=
  mergePluginSettings entry.globalSettings (managedSettings managed entry.name)
    entry.lockedSettings entry.validationSchema

variable (encodeConfiguration : Table F → Configuration) (mode : PluginActivationMode)

/-- The entry is written field by field, so a failure leaves what was written before it. -/
def PluginCatalogueEntry.applyManaged (managed : ManagedConfig F)
    (entry : PluginCatalogueEntry F) : Except String Unit × PluginCatalogueEntry F :=
  let plugin := managedPlugin managed entry.name
  match effectiveSettings managed entry with
  | .error error =>
    (.error ("resolving settings for plugin " ++ entry.name ++ ": " ++ error), entry)
  | .ok settings =>
    let desiredEnabled := plugin.bind (·.enabled)
    let effectiveEnabled :=
      pluginIsEnabled mode entry.globalActivation plugin entry.activationInputs
    let desiredReconciliation := plugin.bind (·.reconciliation)
    let effectiveReconciliation := desiredReconciliation.or entry.globalReconciliation
    let configurationCbor := encodeConfiguration settings
    let management :=
      { entry.management with
        desiredEnabled, effectiveReconciliation, desiredReconciliation, effectiveEnabled }
    let entry :=
      { entry with
        desiredEnabled, effectiveEnabled, configurationCbor, effectiveReconciliation, management }
    match reportedSettings (managedSettings managed entry.name) entry.validationSchema with
    | .error error => (.error error, entry)
    | .ok desiredSettings =>
      let management := { management with desiredSettings }
      match reportedSettings settings entry.validationSchema with
      | .error error => (.error error, { entry with management })
      | .ok effectiveSettings =>
        (.ok (), { entry with management := { management with effectiveSettings } })

def resolveCandidate (managed : ManagedConfig F) (candidate : PluginCandidate F)
    (inspected : InspectedPlugin F) : Except String (PluginCatalogueEntry F) := do
  let plugin := managedPlugin managed inspected.name
  let activationInputs : PluginActivationInputs :=
    { explicit := candidate.explicit, required := candidate.required,
      automaticallySelected := automaticallySelected inspected.buses mode }
  let effectiveEnabled := pluginIsEnabled mode candidate.activation plugin activationInputs
  let desired := managedSettings managed inspected.name
  let settings ← (mergePluginSettings candidate.configuration desired candidate.lockedSettings
    inspected.settings).mapError ("resolving settings for plugin " ++ inspected.name ++ ": " ++ ·)
  let desiredSettings ← reportedSettings desired inspected.settings
  let effectiveSettings ← reportedSettings settings inspected.settings
  let schema ← inspected.settings.mapM reportedSettingSchema
  let desiredEnabled := plugin.bind (·.enabled)
  let desiredReconciliation := plugin.bind (·.reconciliation)
  let effectiveReconciliation := desiredReconciliation.or candidate.reconciliation
  let runtime := if effectiveEnabled then .loading else .inactive
  .ok
    { name := inspected.name, path := candidate.path, required := candidate.required
      activationInputs, globalActivation := candidate.activation
      globalReconciliation := candidate.reconciliation
      desiredEnabled, effectiveEnabled, effectiveReconciliation
      configurationCbor := encodeConfiguration settings
      globalSettings := candidate.configuration, lockedSettings := candidate.lockedSettings
      validationSchema := inspected.settings, runtime
      management :=
        { name := inspected.name, required := candidate.required, desiredEnabled
          desiredReconciliation, effectiveReconciliation, effectiveEnabled, runtime
          activationLocked := candidate.activation != .managed, schema, desiredSettings
          effectiveSettings, lockedSettings := candidate.lockedSettings } }

def clearManagedSettings (name : String) :
    List (ManagedPluginConfig F) → List (ManagedPluginConfig F)
  | [] => []
  | plugin :: rest =>
    if plugin.name = name then { plugin with settings := .nil } :: rest
    else plugin :: clearManagedSettings name rest

/-- An optional plugin whose settings do not resolve keeps an entry: without its required
settings, or failing that without any of its settings. -/
def resolveInvalidOptionalCandidate (managed : ManagedConfig F) (candidate : PluginCandidate F)
    (inspected : InspectedPlugin F) (error : String) : Except String (PluginCatalogueEntry F) := do
  let relaxed :=
    { inspected with settings := inspected.settings.map ({ · with required := false }) }
  let sanitizedCandidate := { candidate with configuration := .nil }
  let sanitizedManaged :=
    { managed with plugins := clearManagedSettings inspected.name managed.plugins }
  let entry ← (resolveCandidate encodeConfiguration mode managed candidate relaxed).tryCatch
    fun _ => resolveCandidate encodeConfiguration mode sanitizedManaged sanitizedCandidate relaxed
  let desiredSettings ← (match managedPlugin managed inspected.name with
    | some plugin => reportedSettings plugin.settings entry.validationSchema
    | none => .ok entry.management.desiredSettings)
  let validationSchema := entry.validationSchema.zipWith
    (fun schema setting => { schema with required := setting.required }) inspected.settings
  let schema := entry.management.schema.zipWith
    (fun schema setting => { schema with required := setting.required }) inspected.settings
  let entry :=
    { entry with
      globalSettings := candidate.configuration, validationSchema
      management := { entry.management with desiredSettings, schema } }
  .ok (if entry.effectiveEnabled then entry.setRuntime (.failed error) else entry)

structure Discovered (F : Type) where
  candidate : PluginCandidate F
  inspected : Except String (InspectedPlugin F)

def buildCatalogue (managed : ManagedConfig F) :
    List String → List (Discovered F) → Except String (List (PluginCatalogueEntry F))
  | _, [] => .ok []
  | names, ⟨candidate, .error error⟩ :: rest =>
    if candidate.required then
      .error ("required plugin could not be inspected: " ++ candidate.path ++ ": " ++ error)
    else buildCatalogue managed names rest
  | names, ⟨candidate, .ok inspected⟩ :: rest =>
    if inspected.name ∈ names then
      if candidate.required then
        .error ("required plugin has duplicate installed name " ++ inspected.name ++ ": " ++
          candidate.path)
      else buildCatalogue managed names rest
    else do
      let entry ← (resolveCandidate encodeConfiguration mode managed candidate inspected).tryCatch
        fun error =>
          if candidate.required then .error error
          else resolveInvalidOptionalCandidate encodeConfiguration mode managed candidate inspected
            error
      let entries ← buildCatalogue managed (inspected.name :: names) rest
      .ok (entry :: entries)

end

/-- The catalogue, and for each loaded host the configuration it was started with. -/
structure PluginManager (F : Type) where
  catalogue : List (PluginCatalogueEntry F)
  loaded : String → Option Configuration

section

variable {F : Type} (start : PluginCatalogueEntry F → Except String Unit)

/-- A host that does not come up, or is refused, is a failure of its plugin, and of the
startup if the plugin is required. -/
def startPlugin (loaded : String → Option Configuration) (entry : PluginCatalogueEntry F) :
    Except String (PluginCatalogueEntry F × (String → Option Configuration)) :=
  if !entry.effectiveEnabled then .ok (entry, loaded)
  else match entry.runtime with
    | .failed _ => .ok (entry, loaded)
    | _ =>
      match start entry with
      | .ok () =>
        let loaded := update loaded entry.name (some entry.configurationCbor)
        .ok (entry.setRuntime .loaded, loaded)
      | .error error =>
        if entry.required then
          .error ("required plugin failed to load: " ++ entry.path ++ ": " ++ error)
        else .ok (entry.setRuntime (.failed error), loaded)

def load : (String → Option Configuration) → List (PluginCatalogueEntry F) →
    Except String (PluginManager F)
  | loaded, [] => .ok ⟨[], loaded⟩
  | loaded, entry :: rest => do
    let (entry, loaded) ← startPlugin start loaded entry
    let manager ← load loaded rest
    .ok { manager with catalogue := entry :: manager.catalogue }

end

section

variable {F : Type} {entry : PluginCatalogueEntry F}

/-- The configuration of the host that is running according to an entry. -/
def PluginCatalogueEntry.host (entry : PluginCatalogueEntry F) : Option Configuration :=
  if entry.runtime = .loaded then some entry.configurationCbor else none

theorem PluginCatalogueEntry.host_of_loaded (h : entry.runtime = .loaded) :
    entry.host = some entry.configurationCbor := if_pos h

theorem PluginCatalogueEntry.host_of_not_loaded (h : entry.runtime ≠ .loaded) : entry.host = none :=
  if_neg h

abbrev PluginManager.names (manager : PluginManager F) : List String :=
  manager.catalogue.map (·.name)

theorem tryCatch_ok {α ε : Type} {outcome : Except ε α} {recover : ε → Except ε α} {v : α}
    (h : outcome.tryCatch recover = .ok v) : outcome = .ok v ∨ ∃ e, recover e = .ok v := by
  cases outcome with
  | error e => exact .inr ⟨e, h⟩
  | ok fd => exact .inl h

variable [FloatFormat F]

/-- The configuration of an entry encodes the settings it should run with. -/
def UpToDate (encodeConfiguration : Table F → Configuration) (managed : ManagedConfig F)
    (entry : PluginCatalogueEntry F) : Prop :=
  (effectiveSettings managed entry).map encodeConfiguration = .ok entry.configurationCbor

/-- An entry before the hosts are started: where its host will be started, its configuration
is the effective one. -/
structure Startable (encodeConfiguration : Table F → Configuration) (managed : ManagedConfig F)
    (entry : PluginCatalogueEntry F) : Prop where
  notLoaded : entry.runtime ≠ .loaded
  upToDate : entry.effectiveEnabled = true →
    (∃ diagnostic, entry.runtime = .failed diagnostic) ∨ UpToDate encodeConfiguration managed entry

variable {encode : Table F → Configuration} {mg : ManagedConfig F}

theorem UpToDate.settings (h : UpToDate encode mg entry) :
    ∃ settings, effectiveSettings mg entry = .ok settings ∧
      encode settings = entry.configurationCbor := by
  unfold UpToDate at h
  cases hs : effectiveSettings mg entry with
  | error e =>
    rw [hs] at h
    cases h
  | ok settings =>
    rw [hs] at h
    exact ⟨settings, rfl, Except.ok.inj h⟩

theorem resolveCandidate_ok (h : resolveCandidate encode mode mg cand inspected = .ok entry) :
    entry.name = inspected.name ∧ entry.runtime ≠ .loaded ∧ UpToDate encode mg entry := by
  obtain ⟨settings, hs, h⟩ := bind_ok_iff.1 h
  obtain ⟨des, -, h⟩ := bind_ok_iff.1 h
  obtain ⟨effective, -, h⟩ := bind_ok_iff.1 h
  obtain ⟨sch, -, h⟩ := bind_ok_iff.1 h
  cases h
  refine ⟨rfl, ?_, ?_⟩
  · split <;> exact PluginRuntimeState.noConfusion
  · unfold UpToDate effectiveSettings
    rw [mapError_ok_iff.1 hs]
    rfl

theorem resolveInvalidOptionalCandidate_ok {e : String}
    (h : resolveInvalidOptionalCandidate encode mode mg cand inspected e = .ok entry) :
    entry.name = inspected.name ∧ Startable encode mg entry := by
  obtain ⟨resolved, hr, h⟩ := bind_ok_iff.1 h
  obtain ⟨des, -, h⟩ := bind_ok_iff.1 h
  have hn : resolved.name = inspected.name ∧ resolved.runtime ≠ .loaded := by
    rcases tryCatch_ok hr with hr | ⟨_, hr⟩
    · exact ⟨(resolveCandidate_ok hr).1, (resolveCandidate_ok hr).2.1⟩
    · exact ⟨(resolveCandidate_ok hr).1, (resolveCandidate_ok hr).2.1⟩
  have h := Except.ok.inj h
  split at h
  · subst h
    exact ⟨hn.1, PluginRuntimeState.noConfusion, fun _ => .inl ⟨e, rfl⟩⟩
  · next hd =>
    subst h
    exact ⟨hn.1, hn.2, fun he => absurd he hd⟩

theorem buildCatalogue_ok {names : List String} {discovered : List (Discovered F)}
    {entries : List (PluginCatalogueEntry F)}
    (h : buildCatalogue encode mode mg names discovered = .ok entries) :
    (∀ entry ∈ entries, Startable encode mg entry ∧ entry.name ∉ names) ∧
      (entries.map (·.name)).Nodup := by
  induction discovered generalizing names entries with
  | nil =>
    cases h
    exact ⟨fun _ hm => absurd hm not_mem_nil, nodup_nil⟩
  | cons first rest ih =>
    obtain ⟨cand, inspected | inspected⟩ := first
    · unfold buildCatalogue at h
      split at h
      · cases h
      · exact ih h
    · unfold buildCatalogue at h
      split at h
      · split at h
        · cases h
        · exact ih h
      · next hne =>
        obtain ⟨entry, he, h⟩ := bind_ok_iff.1 h
        obtain ⟨others, hot, h⟩ := bind_ok_iff.1 h
        cases h
        have hf : entry.name = inspected.name ∧ Startable encode mg entry := by
          rcases tryCatch_ok he with he | ⟨e, he⟩
          · obtain ⟨hna, hl, hc⟩ := resolveCandidate_ok he
            exact ⟨hna, hl, fun _ => .inr hc⟩
          · split at he
            · cases he
            · exact resolveInvalidOptionalCandidate_ok he
        obtain ⟨ha, hn⟩ := ih hot
        refine ⟨forall_mem_cons.2 ⟨⟨hf.2, hf.1 ▸ hne⟩, fun other ho => ?_⟩, ?_⟩
        · exact ⟨(ha other ho).1, not_mem_of_not_mem_cons (ha other ho).2⟩
        · refine nodup_cons.2 ⟨fun hm => ?_, hn⟩
          obtain ⟨other, ho, hna⟩ := mem_map.1 hm
          exact (ha other ho).2 (hna.trans hf.1 ▸ mem_cons_self)

/-- Exactly the loaded entries have a running host, and it runs with the configuration of the
entry. -/
def Settled (manager : PluginManager F) : Prop :=
  ∀ entry ∈ manager.catalogue, manager.loaded entry.name = entry.host

theorem startPlugin_ok {next : String → Option Configuration} (hfr : ld entry.name = none)
    (he : Startable encode mg entry) (h : startPlugin start ld entry = .ok (started, next)) :
    started.name = entry.name ∧ next entry.name = started.host ∧
      (∀ other, other ≠ entry.name → next other = ld other) ∧
      (started.runtime = .loaded → UpToDate encode mg started) := by
  have hk : ld entry.name = entry.host := by
    rw [hfr, PluginCatalogueEntry.host_of_not_loaded he.notLoaded]
  unfold startPlugin at h
  split at h
  · cases h
    exact ⟨rfl, hk, fun _ _ => rfl, fun hl => absurd hl he.notLoaded⟩
  · next hen =>
    split at h
    · cases h
      exact ⟨rfl, hk, fun _ _ => rfl, fun hl => absurd hl he.notLoaded⟩
    · next hf =>
      split at h
      · cases h
        refine ⟨rfl, update_self .., fun other ho => update_of_ne ho .., fun _ => ?_⟩
        rcases he.upToDate (by simpa using hen) with ⟨diagnostic, hd⟩ | hc
        · exact absurd hd (hf diagnostic)
        · exact hc
      · split at h
        · cases h
        · cases h
          exact ⟨rfl, hfr, fun _ _ => rfl, PluginRuntimeState.noConfusion⟩

theorem load_ok (hfr : ∀ entry ∈ entries, ld entry.name = none)
    (he : ∀ entry ∈ entries, Startable encode mg entry) (hn : (entries.map (·.name)).Nodup)
    (h : load start ld entries = .ok m) : m.names = entries.map (·.name) ∧ Settled m ∧
      (∀ name, name ∉ m.names → m.loaded name = ld name) ∧
      ∀ entry ∈ m.catalogue, entry.runtime = .loaded → UpToDate encode mg entry := by
  induction entries generalizing ld m with
  | nil =>
    cases h
    exact ⟨rfl, fun _ hm => absurd hm not_mem_nil, fun _ _ => rfl,
      fun _ hm => absurd hm not_mem_nil⟩
  | cons entry rest ih =>
    obtain ⟨hen, hr⟩ := forall_mem_cons.1 he
    obtain ⟨hf, hot⟩ := forall_mem_cons.1 hfr
    obtain ⟨hnw, hn⟩ := nodup_cons.1 hn
    obtain ⟨⟨started, next⟩, hst, h⟩ := bind_ok_iff.1 h
    obtain ⟨others, hl, h⟩ := bind_ok_iff.1 h
    cases h
    obtain ⟨hnm, hh, hnx, hc⟩ := startPlugin_ok hf hen hst
    have hne : ∀ other ∈ rest, other.name ≠ entry.name := fun other ho heq =>
      hnw (mem_map.2 ⟨other, ho, heq⟩)
    obtain ⟨hna, hs, hk, ha⟩ := ih (fun other ho => by
      rw [hnx _ (hne other ho), hot other ho]) hr hn hl
    have hfr : entry.name ∉ others.names := hna ▸ hnw
    refine ⟨?_, ?_, fun name hm => ?_, ?_⟩
    · rw [PluginManager.names, map_cons, hnm]
      exact congrArg _ hna
    · refine forall_mem_cons.2 ⟨?_, hs⟩
      rw [hnm, hk _ hfr, hh]
    · rw [PluginManager.names, map_cons, mem_cons, not_or, hnm] at hm
      exact (hk name hm.2).trans (hnx name hm.1)
    · exact forall_mem_cons.2 ⟨hc, ha⟩

end

end PluginCatalogue
