import Luminate.PluginCatalogue
import Luminate.SettingsResolution

/-! # What management shows of sensitive settings

Two runs that differ in the values of sensitive settings only. Neither the record of a plugin
that `apply_managed` writes nor the change set of a patch tells the runs apart. -/
namespace SettingsDisclosure

open Checks PluginSettings ManagedConfiguration PluginCatalogue SettingsResolution

variable {F : Type}

/-- What a reader who may not see a sensitive value may still tell about two values. -/
def AlikeValues (sensitive : Bool) (first second : Option (Value F)) : Prop :=
  if sensitive then first.isSome = second.isSome else first = second

theorem AlikeValues.refl (sensitive : Bool) (v : Option (Value F)) : AlikeValues sensitive v v := by
  unfold AlikeValues
  split <;> rfl

theorem AlikeValues.or (h : AlikeValues sensitive first second)
    (hb : AlikeValues sensitive below below') :
    AlikeValues sensitive (first.or below) (second.or below') := by
  cases sensitive with
  | false =>
    have hs : first = second := h
    have hs' : below = below' := hb
    rw [hs, hs']
    exact AlikeValues.refl _ _
  | true =>
    have hp : first.isSome = second.isSome := h
    have hp' : below.isSome = below'.isSome := hb
    show (first.or below).isSome = (second.or below').isSome
    rw [Option.isSome_or, Option.isSome_or, hp, hp']

theorem reportedValue_alike (h : AlikeValues sensitive first second) :
    reportedValue first sensitive = reportedValue second sensitive := by
  cases sensitive with
  | false =>
    have hs : first = second := h
    rw [hs]
  | true =>
    have hp : first.isSome = second.isSome := h
    cases first with
    | none =>
      cases second with
      | none => rfl
      | some v => cases hp
    | some v =>
      cases second with
      | none => cases hp
      | some v' => rfl

/-- The declared settings differ in sensitive values only. -/
def Alike (schema : List (PluginSettingSchema F)) (first second : Settings F) : Prop :=
  ∀ setting ∈ schema, AlikeValues setting.sensitive first[setting.key]? second[setting.key]?

/-- The same of two tables, where both can be flattened. -/
def AlikeTables (schema : List (PluginSettingSchema F)) (first second : Table F) : Prop :=
  ∀ firstValues secondValues : Settings F,
    flattenSettings none first ∅ = .ok firstValues →
    flattenSettings none second ∅ = .ok secondValues → Alike schema firstValues secondValues

theorem reportedSettings_alike (h : AlikeTables schema first second)
    (hf : reportedSettings first schema = .ok reported)
    (hs : reportedSettings second schema = .ok reported') : reported = reported' := by
  obtain ⟨vs, hv, hf⟩ := bind_ok_iff.1 hf
  obtain ⟨vs', hv', hs⟩ := bind_ok_iff.1 hs
  have hsa := mapM_congr fun st hse =>
    congrArg (Except.map (st.key, ·)) (reportedValue_alike (h vs vs' hv hv' st hse))
  exact Except.ok.inj (hf.symm.trans (hsa.trans hs))

variable [FloatFormat F]

theorem mergePluginSettings_alike {global global' managed mg' merged merged' : Table F}
    (hgl : AlikeTables schema global global') (hma : AlikeTables schema managed mg')
    (h : mergePluginSettings global managed locks schema = .ok merged)
    (h' : mergePluginSettings global' mg' locks schema = .ok merged') :
    AlikeTables schema merged merged' := by
  obtain ⟨globalValues, managedValues, vs, hg, hm, hv, hr, -⟩ := mergePluginSettings_flattened h
  obtain ⟨globalValues', managedValues', vs', hg', hm', hv', hr', -⟩ :=
    mergePluginSettings_flattened h'
  intro fd fd' hf hf' st hs
  cases hv.symm.trans hf
  cases hv'.symm.trans hf'
  rw [hr, hr', resolved, resolved]
  cases hk : schema.find? (·.key == st.key) with
  | none =>
    exact AlikeValues.refl _ _
  | some declared =>
    simp only [Option.bind_some]
    have hlo := (hgl _ _ hg hg' st hs).or (AlikeValues.refl st.sensitive declared.default)
    by_cases hl : Locked locks st.key
    · simpa [if_pos hl] using hlo
    · simp only [if_neg hl, Option.or_assoc]
      exact (hma _ _ hm hm' st hs).or hlo

/-- The managed configurations say the same of a plugin, but for sensitive values. -/
structure AlikeManaged (schema : List (PluginSettingSchema F)) (name : String)
    (first second : ManagedConfig F) : Prop where
  enabled : (managedPlugin first name).bind (·.enabled) =
    (managedPlugin second name).bind (·.enabled)
  reconciliation : (managedPlugin first name).bind (·.reconciliation) =
    (managedPlugin second name).bind (·.reconciliation)
  settings : AlikeTables schema (managedSettings first name) (managedSettings second name)

def undecided (management : ManagedPlugin F) : ManagedPlugin F :=
  { management with
    desiredEnabled := none, desiredReconciliation := none, effectiveReconciliation := none
    effectiveEnabled := false, desiredSettings := [], effectiveSettings := [] }

/-- Two catalogue entries of one plugin, under global settings that need not be the same. -/
structure SamePlugin (first second : PluginCatalogueEntry F) : Prop where
  name : first.name = second.name
  activationInputs : first.activationInputs = second.activationInputs
  globalActivation : first.globalActivation = second.globalActivation
  globalReconciliation : first.globalReconciliation = second.globalReconciliation
  lockedSettings : first.lockedSettings = second.lockedSettings
  validationSchema : first.validationSchema = second.validationSchema
  management : undecided first.management = undecided second.management

section

variable {enc : Table F → Configuration} {mode : PluginActivationMode}

theorem applyManaged_management (h : entry.applyManaged enc mode managed = (.ok (), after)) :
    ∃ merged des effective, effectiveSettings managed entry = .ok merged ∧
      reportedSettings (managedSettings managed entry.name) entry.validationSchema = .ok des ∧
      reportedSettings merged entry.validationSchema = .ok effective ∧
      after.management = { undecided entry.management with
          desiredEnabled := (managedPlugin managed entry.name).bind (·.enabled)
          desiredReconciliation := (managedPlugin managed entry.name).bind (·.reconciliation)
          effectiveReconciliation := ((managedPlugin managed entry.name).bind
            (·.reconciliation)).or entry.globalReconciliation
          effectiveEnabled := pluginIsEnabled mode entry.globalActivation
            (managedPlugin managed entry.name) entry.activationInputs
          desiredSettings := des
          effectiveSettings := effective } := by
  simp only [PluginCatalogueEntry.applyManaged] at h
  split at h
  · cases (Prod.mk.inj h).1
  · next merged hm =>
    split at h
    · cases (Prod.mk.inj h).1
    · next des hd =>
      split at h
      · cases (Prod.mk.inj h).1
      · next effective he =>
        cases h
        exact ⟨merged, des, effective, hm, hd, he, rfl⟩

theorem applyManaged_alike (he : SamePlugin entry e')
    (hg : AlikeTables entry.validationSchema entry.globalSettings e'.globalSettings)
    (hm : AlikeManaged entry.validationSchema entry.name managed mg')
    (h : entry.applyManaged enc mode managed = (.ok (), after))
    (h' : e'.applyManaged enc mode mg' = (.ok (), after')) :
    after.management = after'.management := by
  obtain ⟨merged, des, effective, hme, hd, hef, ha⟩ := applyManaged_management h
  obtain ⟨merged', des', effective', hm', hd', he', ha'⟩ := applyManaged_management h'
  simp only [effectiveSettings, ← he.name, ← he.lockedSettings,
    ← he.validationSchema] at hm' hd' he'
  have hal := mergePluginSettings_alike hg hm.settings hme hm'
  rw [ha, ha', ← he.name, ← he.management, ← he.globalReconciliation,
    ← he.globalActivation, ← he.activationInputs, hm.enabled, hm.reconciliation]
  unfold pluginIsEnabled
  rw [hm.enabled, reportedSettings_alike hm.settings hd hd', reportedSettings_alike hal hef he']

end

/-- The same mutation, or one that sets a sensitive setting to another value. -/
inductive AlikeMutations (plugins : List (ManageablePlugin F)) :
    ManagementMutation F → ManagementMutation F → Prop
  | same (mutation : ManagementMutation F) : AlikeMutations plugins mutation mutation
  | secret {plugin key : String} {metadata : ManageablePlugin F} {setting : PluginSettingSchema F}
      (value value' : SettingValue F) :
      requirePlugin plugins plugin = .ok metadata → requireSetting metadata key = .ok setting →
      setting.sensitive = true →
      AlikeMutations plugins (.setPluginSetting plugin key value)
        (.setPluginSetting plugin key value')

def reportedChange (plugins : List (ManageablePlugin F)) (daemon : ManagedDaemonConfig) :
    ManagementMutation F → Except String (ManagedDaemonConfig × ManagementChange)
  | .setDaemonPreferences preferences =>
    let next := managedDaemonConfig preferences
    .ok (next, .daemonPreferencesChanged (changedDaemonPreferences daemon next))
  | .setPluginEnabled plugin _ => .ok (daemon, .pluginActivationChanged plugin)
  | .setPluginReconciliation plugin _ => .ok (daemon, .pluginReconciliationChanged plugin)
  | .setPluginSetting plugin key _ | .clearPluginSetting plugin key => do
    let metadata ← requirePlugin plugins plugin
    let setting ← requireSetting metadata key
    .ok (daemon, .pluginSettingChanged plugin key setting.sensitive)

theorem applyMutation_reported {next : ManagedConfig F}
    (h : applyMutation ps cfg m = .ok (next, change)) :
    reportedChange ps cfg.daemon m = .ok (next.daemon, change) := by
  cases m with
  | setDaemonPreferences preferences =>
    cases h
    rfl
  | setPluginEnabled plugin enabled =>
    obtain ⟨-, -, h⟩ := bind_ok_iff.1 h
    obtain ⟨updated, hu, h⟩ := bind_ok_iff.1 h
    cases h
    rw [ManagedConfig.updatePlugin_daemon hu]
    rfl
  | setPluginReconciliation plugin reconciliation =>
    obtain ⟨-, -, h⟩ := bind_ok_iff.1 h
    obtain ⟨updated, hu, h⟩ := bind_ok_iff.1 h
    cases h
    rw [ManagedConfig.updatePlugin_daemon hu]
    rfl
  | setPluginSetting plugin key v =>
    obtain ⟨metadata, hm, h⟩ := bind_ok_iff.1 h
    obtain ⟨st, hs, h⟩ := bind_ok_iff.1 h
    obtain ⟨toml, -, h⟩ := bind_ok_iff.1 h
    obtain ⟨-, h⟩ := then_ok_iff.1 h
    obtain ⟨updated, hu, h⟩ := bind_ok_iff.1 h
    cases h
    rw [ManagedConfig.updatePlugin_daemon hu, reportedChange, hm, ok_bind, hs, ok_bind]
  | clearPluginSetting plugin key =>
    obtain ⟨metadata, hm, h⟩ := bind_ok_iff.1 h
    obtain ⟨st, hs, h⟩ := bind_ok_iff.1 h
    obtain ⟨updated, hu, h⟩ := bind_ok_iff.1 h
    cases h
    rw [ManagedConfig.updatePlugin_daemon hu, reportedChange, hm, ok_bind, hs, ok_bind]

theorem applyMutations_alike {next : ManagedConfig F}
    (ha : List.Forall₂ (AlikeMutations ps) mutations mutations') (hd : cfg.daemon = cfg'.daemon)
    (h : applyMutations ps mutations cfg = .ok (next, changes))
    (h' : applyMutations ps mutations' cfg' = .ok (next', changes')) : changes = changes' := by
  induction ha generalizing cfg cfg' changes changes' with
  | nil =>
    cases h
    cases Except.ok.inj h'
    rfl
  | @cons first second _ _ hf hre ih =>
    obtain ⟨⟨between, change⟩, hc, h⟩ := bind_ok_iff.1 h
    obtain ⟨⟨last, others⟩, ho, h⟩ := bind_ok_iff.1 h
    cases h
    obtain ⟨⟨between', change'⟩, hc', h'⟩ := bind_ok_iff.1 h'
    obtain ⟨⟨last', os'⟩, ho', h'⟩ := bind_ok_iff.1 h'
    cases Except.ok.inj h'
    -- The daemon preferences are carried along: the change of a preference names what differs.
    have hr := applyMutation_reported hc
    have ha : ∀ dm, reportedChange ps dm first = reportedChange ps dm second := by
      cases hf <;> exact fun _ => rfl
    rw [hd, ha, applyMutation_reported hc'] at hr
    obtain ⟨hb, rfl⟩ := ok_pair hr
    rw [ih hb.symm ho ho']

/-- Sensitive values show neither in the records of the plugins nor in the change sets of
patches. -/
theorem sensitive_settings_undisclosed (encodeConfiguration : Table F → Configuration)
    (mode : PluginActivationMode) :
    (∀ (managed managed' : ManagedConfig F) (entry entry' after after' : PluginCatalogueEntry F),
      SamePlugin entry entry' →
      AlikeTables entry.validationSchema entry.globalSettings entry'.globalSettings →
      AlikeManaged entry.validationSchema entry.name managed managed' →
      entry.applyManaged encodeConfiguration mode managed = (.ok (), after) →
      entry'.applyManaged encodeConfiguration mode managed' = (.ok (), after') →
      after.management = after'.management) ∧
    ∀ (plugins : List (ManageablePlugin F)) (current candidate candidate' : ManagedConfig F)
      (patch patch' : ManagementPatch F) (changes changes' : List ManagementChange),
      List.Forall₂ (AlikeMutations plugins) patch.mutations patch'.mutations →
      preparePatch current patch plugins = .ok (candidate, changes) →
      preparePatch current patch' plugins = .ok (candidate', changes') →
      candidate.revision = candidate'.revision ∧ changes = changes' := by
  constructor
  · intro managed managed' entry entry' after after' he hg hm h h'
    exact applyManaged_alike he hg hm h h'
  · intro plugins current candidate candidate' patch patch' changes changes' ha h h'
    obtain ⟨-, ⟨mutated, hmu, rfl⟩, -, -⟩ := preparePatch_ok h
    obtain ⟨-, ⟨mutated', hm', rfl⟩, -, -⟩ := preparePatch_ok h'
    exact ⟨rfl, applyMutations_alike ha rfl hmu hm'⟩

namespace Sample

open SettingsResolution.Sample

def schema : List (PluginSettingSchema Unit) :=
  [{ key := "bridge.token", kind := .string, sensitive := true },
    { key := "bridge.name", kind := .string }]

def bridge (name token : String) : Table Unit :=
  .cons "bridge" (.table (.cons "name" (.string name) (.cons "token" (.string token) .nil))) .nil

def managed (token : String) : ManagedConfig Unit :=
  { plugins := [{ name := "hue", enabled := some true, settings := bridge "hall" token }] }

def plugin : ManageablePlugin Unit :=
  { name := "hue", globalSettings := .nil, lockedSettings := ["bridge.token"], schema }

def entry (token : String) : PluginCatalogueEntry Unit where
  name := "hue"
  path := "hue.so"
  required := false
  activationInputs := { explicit := false, required := false, automaticallySelected := true }
  globalActivation := .managed
  globalReconciliation := none
  desiredEnabled := none
  effectiveEnabled := true
  effectiveReconciliation := none
  configurationCbor := []
  globalSettings := bridge "house" token
  lockedSettings := ["bridge.token"]
  validationSchema := schema
  runtime := .loaded
  management :=
    { name := "hue", required := false, desiredEnabled := none, desiredReconciliation := none
      effectiveReconciliation := none, effectiveEnabled := true, runtime := .loaded
      activationLocked := false, schema := [], desiredSettings := [], effectiveSettings := []
      lockedSettings := ["bridge.token"] }

def encode (settings : Table Unit) : Configuration :=
  match SettingPaths.leaf ["bridge", "token"] settings with
  | some (.string token) => token.toList.map fun c => c.toNat.toUInt8
  | _ => []

def patch (token : String) : ManagementPatch Unit :=
  { expectedRevision := 0, mutations := [.setPluginSetting "hue" "bridge.token" (.string token)] }

theorem bridge_alike (name token token' : String) :
    AlikeTables schema (bridge name token) (bridge name token') := by
  intro vs vs' hv hv'
  cases hv
  cases hv'
  exact List.forall_mem_cons.2 ⟨rfl, List.forall_mem_singleton.2 rfl⟩

end Sample

open Sample SettingsResolution.Sample in
/-- The tokens differ, what is shown of them does not. -/
theorem tokens_redacted : ((entry "a").applyManaged encode .all (managed "c")).2.configurationCbor ≠
        ((entry "b").applyManaged encode .all (managed "d")).2.configurationCbor ∧
      ((entry "a").applyManaged encode .all (managed "c")).2.management =
        ((entry "b").applyManaged encode .all (managed "d")).2.management ∧
      ∃ candidate candidate' changes changes',
        preparePatch (managed "c") (patch "e") [plugin] = .ok (candidate, changes) ∧
        preparePatch (managed "c") (patch "f") [plugin] = .ok (candidate', changes') ∧
        candidate.revision = candidate'.revision ∧ changes = changes' := by
  obtain ⟨hr, hc⟩ := sensitive_settings_undisclosed encode .all
  refine ⟨by decide +kernel, ?_, _, _, _, _, rfl, rfl, ?_⟩
  · apply hr (managed "c") (managed "d") (entry "a") (entry "b")
    · exact ⟨rfl, rfl, rfl, rfl, rfl, rfl, rfl⟩
    · exact bridge_alike "house" "a" "b"
    · exact ⟨rfl, rfl, bridge_alike "hall" "c" "d"⟩
    · rfl
    · rfl
  · apply hc [plugin] (managed "c") _ _ (patch "e") (patch "f")
    · exact .cons (.secret _ _ rfl rfl rfl) .nil
    · rfl
    · rfl

end SettingsDisclosure
