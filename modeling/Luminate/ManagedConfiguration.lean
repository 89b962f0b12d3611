import Luminate.CollectionMutation
import Luminate.Normalization
import Luminate.PluginSettings

/-! # Managed configuration

`managed_config/mod.rs`, `patch.rs` and the parts of `preferences.rs` that a patch uses:
the desired state an administrator sets, and the preparation of one transaction on it. -/
namespace ManagedConfiguration

open Checks DeviceModel CollectionMutation PluginSettings List

inductive ReconciliationPolicy where
  | restore | adopt | leave
  deriving DecidableEq

abbrev DevicePolicies := Std.ExtTreeMap DeviceId ReconciliationPolicy compare

structure ManagedDaemonConfig where
  defaultUnsupportedPolicy : Option UnsupportedPolicy := none
  reconciliationPolicy : Option ReconciliationPolicy := none
  deviceReconciliation : DevicePolicies := ∅
  cctEmulation : Option CctEmulation := none
  preferShm : Option Bool := none
  preferClientShm : Option Bool := none

structure ManagedPluginConfig (F : Type) where
  name : String
  enabled : Option Bool := none
  reconciliation : Option ReconciliationPolicy := none
  settings : Table F := .nil

structure ManagedConfig (F : Type) where
  revision : ℕ := 0
  daemon : ManagedDaemonConfig := {}
  plugins : List (ManagedPluginConfig F) := []

structure ManageablePlugin (F : Type) where
  name : String
  globalSettings : Table F
  lockedSettings : List String
  schema : List (PluginSettingSchema F)

structure DaemonPreferences where
  defaultUnsupportedPolicy : Option UnsupportedPolicy := none
  reconciliationPolicy : Option ReconciliationPolicy := none
  deviceReconciliation : List (DeviceId × ReconciliationPolicy) := []
  cctEmulation : Option CctEmulation := none
  preferShm : Option Bool := none
  preferClientShm : Option Bool := none

inductive ManagementMutation (F : Type) where
  | setDaemonPreferences (preferences : DaemonPreferences)
  | setPluginEnabled (plugin : String) (enabled : Option Bool)
  | setPluginReconciliation (plugin : String) (reconciliation : Option ReconciliationPolicy)
  | setPluginSetting (plugin key : String) (value : SettingValue F)
  | clearPluginSetting (plugin key : String)

structure ManagementPatch (F : Type) where
  expectedRevision : ℕ
  mutations : List (ManagementMutation F)

inductive ManagementChange where
  | daemonPreferencesChanged (keys : List String)
  | pluginActivationChanged (plugin : String)
  | pluginReconciliationChanged (plugin : String)
  | pluginSettingChanged (plugin key : String) (sensitive : Bool)
  deriving DecidableEq

inductive PrepareManagementPatchError where
  | conflict (expectedRevision currentRevision : ℕ)
  | invalid (error : String)
  deriving DecidableEq

def managedDaemonConfig (preferences : DaemonPreferences) : ManagedDaemonConfig where
  defaultUnsupportedPolicy := preferences.defaultUnsupportedPolicy
  reconciliationPolicy := preferences.reconciliationPolicy
  deviceReconciliation := preferences.deviceReconciliation.foldl
    (fun policies (device, policy) => policies.insert device policy) ∅
  cctEmulation := preferences.cctEmulation
  preferShm := preferences.preferShm
  preferClientShm := preferences.preferClientShm

def recordChange {α : Type} [DecidableEq α] (key : String) (previous next : α) : List String :=
  if previous ≠ next then [key] else []

def recordScopedChanges (root : String) (previous next : DevicePolicies) : List String :=
  (((previous.keys ++ next.keys).insertionSort (· ≤ ·)).dedup).flatMap fun key =>
    recordChange (root ++ "." ++ key) previous[key]? next[key]?

def changedDaemonPreferences (previous next : ManagedDaemonConfig) : List String :=
  recordChange "default_unsupported_policy" previous.defaultUnsupportedPolicy
      next.defaultUnsupportedPolicy ++
    recordChange "reconciliation_policy" previous.reconciliationPolicy next.reconciliationPolicy ++
    recordScopedChanges "device_reconciliation" previous.deviceReconciliation
      next.deviceReconciliation ++
    recordChange "cct_emulation" previous.cctEmulation next.cctEmulation ++
    recordChange "prefer_shm" previous.preferShm next.preferShm ++
    recordChange "prefer_client_shm" previous.preferClientShm next.preferClientShm

section

variable {F : Type}

def requirePlugin (plugins : List (ManageablePlugin F)) (name : String) :
    Except String (ManageablePlugin F) :=
  match plugins.find? (·.name == name) with
  | some plugin => .ok plugin
  | none => .error ("plugin " ++ name ++ " is not installed")

def requireSetting (plugin : ManageablePlugin F) (key : String) :
    Except String (PluginSettingSchema F) :=
  match plugin.schema.find? (·.key == key) with
  | some setting => .ok setting
  | none => .error ("plugin " ++ plugin.name ++ " has no setting " ++ key)

/-- `managed_plugin_mut`: the plugin's entry is changed, or appended if there is none. -/
def updatePlugin (name : String)
    (change : ManagedPluginConfig F → Except String (ManagedPluginConfig F)) :
    List (ManagedPluginConfig F) → Except String (List (ManagedPluginConfig F))
  | [] => do
    let plugin ← change { name }
    .ok [plugin]
  | plugin :: rest =>
    if plugin.name = name then do
      let plugin ← change plugin
      .ok (plugin :: rest)
    else do
      let rest ← updatePlugin name change rest
      .ok (plugin :: rest)

def ManagedConfig.updatePlugin (config : ManagedConfig F) (name : String)
    (change : ManagedPluginConfig F → Except String (ManagedPluginConfig F)) :
    Except String (ManagedConfig F) := do
  let plugins ← ManagedConfiguration.updatePlugin name change config.plugins
  .ok { config with plugins }

def validatePlugins : ℕ → List String → List (ManagedPluginConfig F) → Except String Unit
  | _, _, [] => .ok ()
  | index, names, plugin :: rest => do
    ensure (!isBlank plugin.name) ("plugins[" ++ toString index ++ "].name must not be empty")
    ensure (!names.contains plugin.name) ("duplicate managed plugin entry for " ++ plugin.name)
    validatePlugins (index + 1) (plugin.name :: names) rest

def ManagedConfig.validate (config : ManagedConfig F) : Except String Unit := do
  checkAll (fun device => ensure (!isBlank device)
    "daemon.device_reconciliation keys must not be empty") config.daemon.deviceReconciliation.keys
  validatePlugins 0 [] config.plugins

variable [FloatFormat F]

def applyMutation (plugins : List (ManageablePlugin F)) (config : ManagedConfig F) :
    ManagementMutation F → Except String (ManagedConfig F × ManagementChange)
  | .setDaemonPreferences preferences =>
    let daemon := managedDaemonConfig preferences
    .ok ({ config with daemon },
      .daemonPreferencesChanged (changedDaemonPreferences config.daemon daemon))
  | .setPluginEnabled plugin enabled => do
    let _ ← requirePlugin plugins plugin
    let config ← config.updatePlugin plugin fun managed => .ok { managed with enabled }
    .ok (config, .pluginActivationChanged plugin)
  | .setPluginReconciliation plugin reconciliation => do
    let _ ← requirePlugin plugins plugin
    let config ← config.updatePlugin plugin fun managed => .ok { managed with reconciliation }
    .ok (config, .pluginReconciliationChanged plugin)
  | .setPluginSetting plugin key value => do
    let metadata ← requirePlugin plugins plugin
    let setting ← requireSetting metadata key
    let value ← settingValueToToml value
    validateSettingValue setting value
    let config ← config.updatePlugin plugin fun managed => do
      let settings ← setDottedSetting managed.settings key value
      .ok { managed with settings }
    .ok (config, .pluginSettingChanged plugin key setting.sensitive)
  | .clearPluginSetting plugin key => do
    let metadata ← requirePlugin plugins plugin
    let setting ← requireSetting metadata key
    let config ← config.updatePlugin plugin fun managed =>
      .ok { managed with settings := clearDottedSetting managed.settings key }
    .ok (config, .pluginSettingChanged plugin key setting.sensitive)

def applyMutations (plugins : List (ManageablePlugin F)) :
    List (ManagementMutation F) → ManagedConfig F →
      Except String (ManagedConfig F × List ManagementChange)
  | [], config => .ok (config, [])
  | mutation :: rest, config => do
    let (config, change) ← applyMutation plugins config mutation
    let (config, changes) ← applyMutations plugins rest config
    .ok (config, change :: changes)

def validateManagedPluginSettings (config : ManagedConfig F)
    (plugins : List (ManageablePlugin F)) : Except String Unit :=
  checkAll (fun managed => do
    let plugin ← requirePlugin plugins managed.name
    let _ ← (mergePluginSettings plugin.globalSettings managed.settings plugin.lockedSettings
      plugin.schema).mapError ("validating settings for plugin " ++ managed.name ++ ": " ++ ·)
    .ok ()) config.plugins

def preparePatch (current : ManagedConfig F) (patch : ManagementPatch F)
    (plugins : List (ManageablePlugin F)) :
    Except PrepareManagementPatchError (ManagedConfig F × List ManagementChange) := do
  ensure (patch.expectedRevision == current.revision)
    (.conflict patch.expectedRevision current.revision)
  ensure (current.revision + 1 < 2 ^ 64) (.invalid "managed configuration revision is exhausted")
  let (candidate, changes) ← (applyMutations plugins patch.mutations current).mapError .invalid
  let candidate := { candidate with revision := current.revision + 1 }
  candidate.validate.mapError .invalid
  (validateManagedPluginSettings candidate plugins).mapError .invalid
  .ok (candidate, changes)

end

section

variable {F : Type}

abbrev ManagedConfig.names (config : ManagedConfig F) : List String := config.plugins.map (·.name)

def ManagementMutation.plugin : ManagementMutation F → Option String
  | .setDaemonPreferences _ => none
  | .setPluginEnabled plugin _ | .setPluginReconciliation plugin _
  | .setPluginSetting plugin _ _ | .clearPluginSetting plugin _ => some plugin

def ManagedConfig.DateFree (config : ManagedConfig F) : Prop :=
  ∀ plugin ∈ config.plugins, plugin.settings.dateFree = true

/-- Plugins stay named in the configuration, and no date-time comes into it. -/
structure Extends (before after : ManagedConfig F) : Prop where
  names : before.names ⊆ after.names
  dateFree : before.DateFree → after.DateFree

theorem Extends.refl (config : ManagedConfig F) : Extends config config := ⟨Subset.refl _, id⟩

theorem Extends.trans (h : Extends first second) (h' : Extends second third) :
    Extends first third := ⟨Subset.trans h.names h'.names, h'.dateFree ∘ h.dateFree⟩

theorem updatePlugin_names {next : List (ManagedPluginConfig F)}
    (hc : ∀ plugin ch, change plugin = .ok ch → ch.name = plugin.name)
    (h : updatePlugin name change pgs = .ok next) :
    name ∈ next.map (·.name) ∧ pgs.map (·.name) ⊆ next.map (·.name) := by
  induction pgs generalizing next with
  | nil =>
    obtain ⟨plugin, hp, h⟩ := bind_ok_iff.1 h
    cases h
    exact ⟨mem_singleton.2 (hc _ _ hp).symm, nil_subset _⟩
  | cons first rest ih =>
    unfold updatePlugin at h
    split at h
    · next hn =>
      obtain ⟨plugin, hp, h⟩ := bind_ok_iff.1 h
      cases h
      have hs : plugin.name = first.name := hc _ _ hp
      rw [map_cons, map_cons, hs, hn]
      exact ⟨mem_cons_self, Subset.refl _⟩
    · obtain ⟨others, ho, h⟩ := bind_ok_iff.1 h
      cases h
      obtain ⟨hm, hsu⟩ := ih ho
      exact ⟨mem_cons_of_mem _ hm, cons_subset_cons _ hsu⟩

theorem updatePlugin_all {next : List (ManagedPluginConfig F)} {P : ManagedPluginConfig F → Prop}
    (hn : P { name }) (hc : ∀ plugin ch, P plugin → change plugin = .ok ch → P ch)
    (hpl : ∀ plugin ∈ pgs, P plugin) (h : updatePlugin name change pgs = .ok next) :
    ∀ plugin ∈ next, P plugin := by
  induction pgs generalizing next with
  | nil =>
    obtain ⟨plugin, hp, h⟩ := bind_ok_iff.1 h
    cases h
    exact forall_mem_singleton.2 (hc _ _ hn hp)
  | cons first rest ih =>
    obtain ⟨hf, hr⟩ := forall_mem_cons.1 hpl
    unfold updatePlugin at h
    split at h
    · obtain ⟨plugin, hp, h⟩ := bind_ok_iff.1 h
      cases h
      exact forall_mem_cons.2 ⟨hc _ _ hf hp, hr⟩
    · obtain ⟨others, ho, h⟩ := bind_ok_iff.1 h
      cases h
      exact forall_mem_cons.2 ⟨hf, ih hr ho⟩

theorem ManagedConfig.updatePlugin_daemon {config next : ManagedConfig F}
    (h : config.updatePlugin name change = .ok next) : next.daemon = config.daemon := by
  obtain ⟨_, -, h⟩ := bind_ok_iff.1 h
  cases h
  rfl

theorem ManagedConfig.updatePlugin_extends {next : ManagedConfig F}
    (hn : ∀ plugin ch, change plugin = .ok ch → ch.name = plugin.name)
    (hf : ∀ plugin ch, plugin.settings.dateFree = true → change plugin = .ok ch →
      ch.settings.dateFree = true) (h : config.updatePlugin name change = .ok next) :
    Extends config next ∧ name ∈ next.names := by
  obtain ⟨pgs, hp, h⟩ := bind_ok_iff.1 h
  cases h
  obtain ⟨hm, hs⟩ := updatePlugin_names hn hp
  exact ⟨⟨hs, fun hb => updatePlugin_all rfl hf hb hp⟩, hm⟩

variable {ps : List (ManageablePlugin F)}

theorem find_of_requirePlugin (h : requirePlugin ps name = .ok plugin) :
    ps.find? (·.name == name) = some plugin := by
  unfold requirePlugin at h
  split at h
  · next hf =>
    cases h
    exact hf
  · cases h

def Declared (plugins : List (ManageablePlugin F)) (name key : String) : Prop :=
  ∃ metadata setting, requirePlugin plugins name = .ok metadata ∧
    requireSetting metadata key = .ok setting

variable [FloatFormat F]

def Edited (plugins : List (ManageablePlugin F)) (before after : ManagedPluginConfig F) :
    ManagementMutation F → Prop
  | .setDaemonPreferences _ => False
  | .setPluginEnabled _ enabled => after = { before with enabled }
  | .setPluginReconciliation _ reconciliation => after = { before with reconciliation }
  | .setPluginSetting plugin key value =>
    ∃ toml settings, Declared plugins plugin key ∧ settingValueToToml value = .ok toml ∧
      isTable toml = false ∧ setDottedSetting before.settings key toml = .ok settings ∧
      after = { before with settings }
  | .clearPluginSetting plugin key => Declared plugins plugin key ∧
      after = { before with settings := clearDottedSetting before.settings key }

section

variable {ps : List (ManageablePlugin F)} {cfg next : ManagedConfig F} {m : ManagementMutation F}
  {pre after : ManagedPluginConfig F}

theorem Edited.name (h : Edited ps pre after m) : after.name = pre.name := by
  cases m with
  | setDaemonPreferences preferences => exact absurd h id
  | setPluginEnabled | setPluginReconciliation =>
    obtain rfl := h
    rfl
  | setPluginSetting plugin key v =>
    obtain ⟨toml, settings, -, -, -, -, rfl⟩ := h
    rfl
  | clearPluginSetting plugin key =>
    obtain ⟨-, rfl⟩ := h
    rfl

theorem Edited.dateFree (h : Edited ps pre after m)
    (hf : pre.settings.dateFree = true) : after.settings.dateFree = true := by
  cases m with
  | setDaemonPreferences preferences => exact absurd h id
  | setPluginEnabled | setPluginReconciliation =>
    obtain rfl := h
    exact hf
  | setPluginSetting plugin key v =>
    obtain ⟨toml, settings, -, ht, -, hs, rfl⟩ := h
    obtain ⟨-, hs⟩ := then_ok_iff.1 hs
    exact insertParts_dateFree (clearParts_dateFree hf) (settingValueToToml_dateFree ht) hs
  | clearPluginSetting plugin key =>
    obtain ⟨-, rfl⟩ := h
    exact clearParts_dateFree hf

section

variable (h : applyMutation ps cfg m = .ok (next, change))

include h

theorem applyMutation_updates (hn : m.plugin = some name) :
    ∃ edit, (∀ mg ch, edit mg = .ok ch → Edited ps mg ch m) ∧
      cfg.updatePlugin name edit = .ok next := by
  cases m with
  | setDaemonPreferences preferences => cases hn
  | setPluginEnabled plugin enabled =>
    cases hn
    obtain ⟨-, -, h⟩ := bind_ok_iff.1 h
    obtain ⟨updated, hu, h⟩ := bind_ok_iff.1 h
    cases h
    exact ⟨_, fun mg ch hc => (Except.ok.inj hc).symm, hu⟩
  | setPluginReconciliation plugin reconciliation =>
    cases hn
    obtain ⟨-, -, h⟩ := bind_ok_iff.1 h
    obtain ⟨updated, hu, h⟩ := bind_ok_iff.1 h
    cases h
    exact ⟨_, fun mg ch hc => (Except.ok.inj hc).symm, hu⟩
  | setPluginSetting plugin key v =>
    cases hn
    obtain ⟨metadata, hm, h⟩ := bind_ok_iff.1 h
    obtain ⟨st, hs, h⟩ := bind_ok_iff.1 h
    obtain ⟨toml, ht, h⟩ := bind_ok_iff.1 h
    obtain ⟨hv, h⟩ := then_ok_iff.1 h
    obtain ⟨updated, hu, h⟩ := bind_ok_iff.1 h
    cases h
    refine ⟨_, fun mg ch hc => ?_, hu⟩
    obtain ⟨settings, hse, hc⟩ := bind_ok_iff.1 hc
    exact ⟨toml, settings, ⟨metadata, st, hm, hs⟩, ht,
      isTable_of_valid hv, hse, (Except.ok.inj hc).symm⟩
  | clearPluginSetting plugin key =>
    cases hn
    obtain ⟨metadata, hm, h⟩ := bind_ok_iff.1 h
    obtain ⟨st, hs, h⟩ := bind_ok_iff.1 h
    obtain ⟨updated, hu, h⟩ := bind_ok_iff.1 h
    cases h
    exact ⟨_, fun mg ch hc =>
      ⟨⟨metadata, st, hm, hs⟩, (Except.ok.inj hc).symm⟩, hu⟩

theorem applyMutation_daemon (hn : m.plugin = none) :
    ∃ preferences, m = .setDaemonPreferences preferences ∧
      next = { cfg with daemon := managedDaemonConfig preferences } := by
  cases m with
  | setDaemonPreferences preferences =>
    cases h
    exact ⟨preferences, rfl, rfl⟩
  | setPluginEnabled | setPluginReconciliation | setPluginSetting | clearPluginSetting => cases hn

theorem applyMutation_extends :
    Extends cfg next ∧ ∀ name, m.plugin = some name → name ∈ next.names := by
  cases hp : m.plugin with
  | none =>
    obtain ⟨preferences, -, rfl⟩ := applyMutation_daemon h hp
    exact ⟨⟨Subset.refl _, id⟩, fun _ hno => by cases hno⟩
  | some plugin =>
    obtain ⟨edit, hed, hu⟩ := applyMutation_updates h hp
    obtain ⟨he, hm⟩ := ManagedConfig.updatePlugin_extends (fun mg ch hc => (hed mg ch hc).name)
      (fun mg ch hf hc => (hed mg ch hc).dateFree hf)
      hu
    refine ⟨he, fun name hn => ?_⟩
    rw [← Option.some.inj hn]
    exact hm

end

end

variable {changes : List ManagementChange}

theorem applyMutations_extends {next : ManagedConfig F}
    (h : applyMutations ps mutations config = .ok (next, changes)) : Extends config next ∧
      ∀ mutation ∈ mutations, ∀ name, mutation.plugin = some name → name ∈ next.names := by
  induction mutations generalizing config changes with
  | nil =>
    cases h
    exact ⟨Extends.refl _, fun _ hm => absurd hm not_mem_nil⟩
  | cons mutation rest ih =>
    obtain ⟨⟨between, change⟩, hf, h⟩ := bind_ok_iff.1 h
    obtain ⟨⟨last, others⟩, hr, h⟩ := bind_ok_iff.1 h
    cases h
    obtain ⟨he, hn⟩ := applyMutation_extends hf
    obtain ⟨he', hn'⟩ := ih hr
    refine ⟨he.trans he', forall_mem_cons.2 ⟨fun name hna => ?_, hn'⟩⟩
    exact he'.names (hn name hna)

/-- The candidate of an accepted patch: the plugins named in it are installed and their
settings merge. -/
structure Accepted (current : ManagedConfig F) (patch : ManagementPatch F)
    (plugins : List (ManageablePlugin F)) (candidate : ManagedConfig F) : Prop
    extends Extends current candidate where
  named : ∀ mutation ∈ patch.mutations, ∀ name, mutation.plugin = some name →
    name ∈ candidate.names
  merges : ∀ managed ∈ candidate.plugins, ∃ plugin merged,
    plugins.find? (·.name == managed.name) = some plugin ∧
    mergePluginSettings plugin.globalSettings managed.settings plugin.lockedSettings
      plugin.schema = .ok merged

theorem preparePatch_ok (h : preparePatch current patch ps = .ok (cand, changes)) :
    patch.expectedRevision = current.revision ∧
      (∃ mutated, applyMutations ps patch.mutations current = .ok (mutated, changes) ∧
        cand = { mutated with revision := current.revision + 1 }) ∧
      cand.validate = .ok () ∧ validateManagedPluginSettings cand ps = .ok () := by
  obtain ⟨hr, h⟩ := then_ok_iff.1 h
  obtain ⟨-, h⟩ := then_ok_iff.1 h
  obtain ⟨⟨mutated, mutations⟩, hm, h⟩ := bind_ok_iff.1 h
  obtain ⟨hv, h⟩ := then_ok_iff.1 h
  obtain ⟨hs, h⟩ := then_ok_iff.1 h
  cases h
  exact ⟨by simpa using hr, ⟨mutated, mapError_ok_iff.1 hm, rfl⟩,
    mapError_ok_iff.1 hv, mapError_ok_iff.1 hs⟩

theorem preparePatch_accepted (h : preparePatch current patch ps = .ok (cand, changes)) :
    Accepted current patch ps cand := by
  obtain ⟨-, ⟨mutated, hmu, rfl⟩, -, hv⟩ := preparePatch_ok h
  obtain ⟨⟨hna, hf⟩, hn⟩ := applyMutations_extends hmu
  refine ⟨⟨hna, hf⟩, hn, fun mg hm => ?_⟩
  obtain ⟨plugin, hp, hmr⟩ := bind_ok_iff.1 (checkAll_ok_iff.1 hv mg hm)
  obtain ⟨merged, hme, -⟩ := bind_ok_iff.1 hmr
  exact ⟨plugin, merged, find_of_requirePlugin hp, mapError_ok_iff.1 hme⟩

end

end ManagedConfiguration
