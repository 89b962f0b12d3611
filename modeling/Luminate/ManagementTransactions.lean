import Luminate.PluginCatalogue
import Luminate.SettingsResolution
import Luminate.Transition

/-! # Management patches as transactions

`ManagedConfig::prepare_patch` and `PreparedManagementPatch::commit` under the management lock.
What an administrator desires is a map from plugins to flat settings, an activation and a
reconciliation policy; the stored configuration represents it through every patch. -/
namespace ManagementTransactions

open Checks PluginSettings ManagedConfiguration PluginCatalogue SettingPaths SettingsResolution
  Option
open Transition

variable {F : Type}

inductive PatchError where
  | prepare (error : PrepareManagementPatchError)
  | persist (error : String)
  deriving DecidableEq

/-- The candidate replaces the configuration in memory once it is saved. -/
def commit (saved : Except String Unit) (prepared : ManagedConfig F × List ManagementChange)
    (current : ManagedConfig F) :
    Except PatchError (List ManagementChange) × ManagedConfig F :=
  match saved with
  | .error error => (.error (.persist error), current)
  | .ok () => (.ok prepared.2, prepared.1)

structure PatchRequest (F : Type) where
  patch : ManagementPatch F
  saved : Except String Unit

def patchManaged [FloatFormat F] (plugins : List (ManageablePlugin F)) (request : PatchRequest F)
    (current : ManagedConfig F) :
    Except PatchError (List ManagementChange) × ManagedConfig F :=
  match preparePatch current request.patch plugins with
  | .error error => (.error (.prepare error), current)
  | .ok prepared => commit request.saved prepared current

def Initial (config : ManagedConfig F) : Prop := config = {}

def Step [FloatFormat F] (plugins : List (ManageablePlugin F)) (config : ManagedConfig F)
    (request : PatchRequest F) (next : ManagedConfig F) : Prop :=
  next = (patchManaged plugins request config).2

structure DesiredPlugin (F : Type) where
  enabled : Option Bool
  reconciliation : Option ReconciliationPolicy
  settings : Settings F

structure Desired (F : Type) where
  daemon : ManagedDaemonConfig
  plugins : String → DesiredPlugin F

/-- A mutation of the plugin it names. A value that has no TOML form sets nothing. -/
def DesiredPlugin.mutate [FloatFormat F] (plugin : DesiredPlugin F) :
    ManagementMutation F → DesiredPlugin F
  | .setDaemonPreferences _ => plugin
  | .setPluginEnabled _ enabled => { plugin with enabled }
  | .setPluginReconciliation _ reconciliation => { plugin with reconciliation }
  | .setPluginSetting _ key value =>
    match settingValueToToml value with
    | .error _ => plugin
    | .ok value => { plugin with settings := plugin.settings.insert key value }
  | .clearPluginSetting _ key => { plugin with settings := plugin.settings.erase key }

def Desired.mutate [FloatFormat F] (desired : Desired F) (mutation : ManagementMutation F) :
    Desired F where
  daemon :=
    match mutation with
    | .setDaemonPreferences preferences => managedDaemonConfig preferences
    | _ => desired.daemon
  plugins name :=
    if mutation.plugin = some name then (desired.plugins name).mutate mutation
    else desired.plugins name

/-- The entry of a plugin, or the one it would get. -/
def entryOf (config : ManagedConfig F) (name : String) : ManagedPluginConfig F :=
  (managedPlugin config name).getD { name }

structure EntryRepresents (entry : ManagedPluginConfig F) (desired : DesiredPlugin F) : Prop where
  enabled : entry.enabled = desired.enabled
  reconciliation : entry.reconciliation = desired.reconciliation
  settings : flattenSettings none entry.settings ∅ = .ok desired.settings

structure Represents (config : ManagedConfig F) (desired : Desired F) : Prop where
  daemon : config.daemon = desired.daemon
  plugins : ∀ name, EntryRepresents (entryOf config name) (desired.plugins name)

section

variable {key name : String}

theorem keyParts_ne_nil : keyParts key ≠ [] := by
  unfold keyParts
  simp

theorem clearDottedSetting_leaf (ht : tb.WellFormed) :
    leaf path (clearDottedSetting tb key) = if keyParts key <+: path then none else leaf path tb :=
  clearParts_leaf ht keyParts_ne_nil

theorem clearDottedSetting_wellFormed (ht : tb.WellFormed) :
    (clearDottedSetting tb key).WellFormed := clearParts_wellFormed ht keyParts_dotFree

theorem setDottedSetting_leaf {next : Table F} (ht : tb.WellFormed) (hv : isTable v = false)
    (h : setDottedSetting tb key v = .ok next) :
    leaf path next = some fd ↔ (path = keyParts key ∧ v = fd) ∨
      (¬ keyParts key <+: path ∧ leaf path tb = some fd) := by
  obtain ⟨-, h⟩ := then_ok_iff.1 h
  rw [insertParts_leaf hv h, clearDottedSetting_leaf ht, ite_none_left_eq_some]

theorem setDottedSetting_wellFormed {next : Table F} (ht : tb.WellFormed) (hv : isTable v = false)
    (h : setDottedSetting tb key v = .ok next) : next.WellFormed := by
  obtain ⟨-, h⟩ := then_ok_iff.1 h
  exact insertParts_wellFormed (clearDottedSetting_wellFormed ht)
    (wellFormed_of_not_table hv) keyParts_dotFree h

/-- No setting of the table is strictly below the key. -/
def Lowest (table : Table F) (key : String) : Prop :=
  ∀ name, leaf (keyParts name) table ≠ none → keyParts key <+: keyParts name → key = name

theorem Lowest.not_within (hl : Lowest tb key) (hname : key ≠ name)
    (hle : leaf (keyParts name) tb = some fd) : ¬ keyParts key <+: keyParts name := by
  intro hb
  have hs : leaf (keyParts name) tb ≠ none := by
    rw [hle]
    exact some_ne_none fd
  exact hname (hl name hs hb)

theorem setDottedSetting_flattened {next : Table F} (ht : tb.WellFormed) (hlo : Lowest tb key)
    (hv : isTable v = false) (hva : flattenSettings none tb ∅ = .ok vs)
    (h : setDottedSetting tb key v = .ok next) :
    flattenSettings none next ∅ = .ok (vs.insert key v) := by
  obtain ⟨flat, hf, hl⟩ := flattenSettings_of_wellFormed (setDottedSetting_wellFormed ht hv h)
  rw [hf]
  apply congrArg
  apply settings_ext
  intro name
  ext fd
  rw [hl, setDottedSetting_leaf ht hv h, keyParts_inj]
  by_cases hname : key = name
  · subst hname
    simp
  · rw [Std.ExtTreeMap.getElem?_insert, if_neg (compare_eq_iff_eq.not.2 hname),
      flattenSettings_getElem? ht hva]
    constructor
    · rintro (⟨rfl, -⟩ | ⟨-, hle⟩)
      · exact absurd rfl hname
      · exact hle
    · intro hle
      exact .inr ⟨hlo.not_within hname hle, hle⟩

theorem clearDottedSetting_flattened (ht : tb.WellFormed) (hlo : Lowest tb key)
    (hv : flattenSettings none tb ∅ = .ok vs) :
    flattenSettings none (clearDottedSetting tb key) ∅ = .ok (vs.erase key) := by
  have hwell : (clearDottedSetting tb key).WellFormed := clearDottedSetting_wellFormed ht
  obtain ⟨flat, hf, hl⟩ := flattenSettings_of_wellFormed hwell
  rw [hf]
  apply congrArg
  apply settings_ext
  intro name
  ext fd
  rw [hl, clearDottedSetting_leaf ht, ite_none_left_eq_some]
  by_cases hname : key = name
  · subst hname
    simp
  · rw [Std.ExtTreeMap.getElem?_erase, if_neg (compare_eq_iff_eq.not.2 hname),
      flattenSettings_getElem? ht hv]
    constructor
    · rintro ⟨-, hle⟩
      exact hle
    · intro hle
      exact ⟨hlo.not_within hname hle, hle⟩

end

section

variable {cfg next : ManagedConfig F} {name : String}
  {change : ManagedPluginConfig F → Except String (ManagedPluginConfig F)}

theorem updatePlugin_find (hch : ∀ plugin ch, change plugin = .ok ch → ch.name = plugin.name)
    (h : updatePlugin name change plugins = .ok after) :
    (∃ ch, change ((plugins.find? (·.name == name)).getD { name }) = .ok ch ∧
      after.find? (·.name == name) = some ch) ∧
    ∀ other, other ≠ name → after.find? (·.name == other) = plugins.find? (·.name == other) := by
  induction plugins generalizing after with
  | nil =>
    obtain ⟨ch, hc, h⟩ := bind_ok_iff.1 h
    cases h
    have hname : ch.name = name := hch _ _ hc
    refine ⟨⟨ch, hc, by simp [hname]⟩, fun other ho => ?_⟩
    simp [hname, ho.symm]
  | cons first rest ih =>
    unfold updatePlugin at h
    split at h
    · next hf =>
      obtain ⟨ch, hc, h⟩ := bind_ok_iff.1 h
      cases h
      have hname : ch.name = name := (hch _ _ hc).trans hf
      refine ⟨⟨ch, by simpa [hf] using hc, by simp [hname]⟩, fun other ho => ?_⟩
      simp [hname, hf, ho.symm]
    · next hf =>
      obtain ⟨others, hot, h⟩ := bind_ok_iff.1 h
      cases h
      obtain ⟨⟨ch, hc, hfo⟩, hfr⟩ := ih hot
      refine ⟨⟨ch, by simpa [List.find?_cons, hf] using hc,
        by simpa [List.find?_cons, hf] using hfo⟩, fun other ho => ?_⟩
      simp only [List.find?_cons, hfr other ho]

theorem updatePlugin_entryOf (hch : ∀ plugin ch, change plugin = .ok ch → ch.name = plugin.name)
    (h : cfg.updatePlugin name change = .ok next) :
    change (entryOf cfg name) = .ok (entryOf next name) ∧
      ∀ other, other ≠ name → managedPlugin next other = managedPlugin cfg other := by
  obtain ⟨plugins, hp, h⟩ := bind_ok_iff.1 h
  cases h
  obtain ⟨⟨ch, hc, hf⟩, hfr⟩ := updatePlugin_find hch hp
  refine ⟨?_, hfr⟩
  have he : entryOf { cfg with plugins } name = ch := by
    unfold entryOf managedPlugin
    rw [hf, getD_some]
  rw [he]
  exact hc

end

section

variable {ps : List (ManageablePlugin F)} {cfg next : ManagedConfig F}
  {m : ManagementMutation F} {change : ManagementChange} {name : String}

variable [FloatFormat F]

theorem applyMutation_edited (h : applyMutation ps cfg m = .ok (next, change))
    (hname : m.plugin = some name) : Edited ps (entryOf cfg name) (entryOf next name) m ∧
      (∀ other, other ≠ name → managedPlugin next other = managedPlugin cfg other) ∧
      next.daemon = cfg.daemon := by
  obtain ⟨edit, hed, hu⟩ := applyMutation_updates h hname
  have hk : ∀ plugin ch, edit plugin = .ok ch → ch.name = plugin.name :=
    fun plugin ch hc => (hed plugin ch hc).name
  obtain ⟨he, hf⟩ := updatePlugin_entryOf hk hu
  exact ⟨hed _ _ he, hf, ManagedConfig.updatePlugin_daemon hu⟩

theorem applyMutation_unnamed (h : applyMutation ps cfg m = .ok (next, change))
    (hname : m.plugin ≠ some name) : managedPlugin next name = managedPlugin cfg name := by
  cases hp : m.plugin with
  | none =>
    obtain ⟨preferences, -, rfl⟩ := applyMutation_daemon h hp
    rfl
  | some plugin =>
    apply (applyMutation_edited h hp).2.1 name
    rintro rfl
    exact hname hp

/-- Tables are well formed and hold declared settings only. -/
structure Stored (plugins : List (ManageablePlugin F)) (config : ManagedConfig F) : Prop where
  wellFormed : ∀ name, (entryOf config name).settings.WellFormed
  declared : ∀ name key, leaf (keyParts key) (entryOf config name).settings ≠ none →
    Declared plugins name key

/-- The schema of the plugin, if it is installed, has no key below another. -/
def Distinct (plugins : List (ManageablePlugin F)) (name : String) : Prop :=
  ∀ metadata, requirePlugin plugins name = .ok metadata →
    metadata.schema.Pairwise fun first second => Apart first.key second.key

variable {key : String}

omit [FloatFormat F] in
theorem mem_of_requireSetting (h : requireSetting metadata key = .ok st) :
    st ∈ metadata.schema ∧ st.key = key := by
  unfold requireSetting at h
  split at h
  · next hf =>
    cases h
    exact ⟨List.mem_of_find?_eq_some hf, by simpa using List.find?_some hf⟩
  · cases h

omit [FloatFormat F] in
theorem Distinct.eq_of_within (h : Distinct ps name) (hk : Declared ps name key)
    (hb : Declared ps name below) (hw : keyParts key <+: keyParts below) : key = below := by
  obtain ⟨metadata, st, hm, hs⟩ := hk
  obtain ⟨meta', st', hm', hs'⟩ := hb
  cases hm.symm.trans hm'
  obtain ⟨hme, rfl⟩ := mem_of_requireSetting hs
  obtain ⟨hme', rfl⟩ := mem_of_requireSetting hs'
  by_contra hne
  have hsy : Std.Symm fun first second : PluginSettingSchema F => Apart first.key second.key :=
    ⟨fun _ _ hp => ⟨hp.2, hp.1⟩⟩
  have ha : Apart st.key st'.key := (h metadata hm).forall hme hme'
    fun hsa => hne (congrArg PluginSettingSchema.key hsa)
  exact ha.1 hw

omit [FloatFormat F] in
theorem Stored.lowest (h : Stored ps cfg) (hd : Distinct ps name)
    (hk : Declared ps name key) : Lowest (entryOf cfg name).settings key :=
  fun below hl hw => hd.eq_of_within hk (h.declared name below hl) hw

section

variable {pre after : ManagedPluginConfig F}
  (hname : m.plugin = some name) (hedited : Edited ps pre after m)
  (hwell : pre.settings.WellFormed)

include hname hedited hwell

theorem edited_represents (he : EntryRepresents pre desired)
    (hl : ∀ key, Declared ps name key → Lowest pre.settings key) :
    EntryRepresents after (desired.mutate m) := by
  cases m with
  | setDaemonPreferences preferences => cases hname
  | setPluginEnabled plugin enabled =>
    obtain rfl := hedited
    exact ⟨rfl, he.reconciliation, he.settings⟩
  | setPluginReconciliation plugin reconciliation =>
    obtain rfl := hedited
    exact ⟨he.enabled, rfl, he.settings⟩
  | setPluginSetting plugin key val =>
    cases hname
    obtain ⟨toml, settings, hk, hto, ht, hs, rfl⟩ := hedited
    simp only [DesiredPlugin.mutate, hto]
    refine ⟨he.enabled, he.reconciliation, ?_⟩
    exact setDottedSetting_flattened hwell (hl key hk) ht he.settings hs
  | clearPluginSetting plugin key =>
    cases hname
    obtain ⟨hk, rfl⟩ := hedited
    refine ⟨he.enabled, he.reconciliation, ?_⟩
    exact clearDottedSetting_flattened hwell (hl key hk) he.settings

theorem edited_wellFormed : after.settings.WellFormed := by
  cases m with
  | setDaemonPreferences preferences => cases hname
  | setPluginEnabled | setPluginReconciliation =>
    obtain rfl := hedited
    exact hwell
  | setPluginSetting plugin key val =>
    obtain ⟨toml, settings, -, -, ht, hs, rfl⟩ := hedited
    exact setDottedSetting_wellFormed hwell ht hs
  | clearPluginSetting plugin key =>
    obtain ⟨-, rfl⟩ := hedited
    exact clearDottedSetting_wellFormed hwell

theorem edited_declared (hd : leaf (keyParts key) pre.settings ≠ none → Declared ps name key)
    (hl : leaf (keyParts key) after.settings ≠ none) : Declared ps name key := by
  cases m with
  | setDaemonPreferences preferences => cases hname
  | setPluginEnabled | setPluginReconciliation =>
    obtain rfl := hedited
    exact hd hl
  | setPluginSetting plugin written val =>
    cases hname
    obtain ⟨toml, settings, hw, -, ht, hs, rfl⟩ := hedited
    obtain ⟨fnd, hf⟩ := ne_none_iff_exists'.1 hl
    rcases (setDottedSetting_leaf hwell ht hs).1 hf with ⟨hk, -⟩ | ⟨-, ho⟩
    · rw [keyParts_inj.1 hk]
      exact hw
    · apply hd
      rw [ho]
      exact some_ne_none fnd
  | clearPluginSetting plugin cleared =>
    obtain ⟨-, rfl⟩ := hedited
    apply hd
    intro hn
    apply hl
    rw [clearDottedSetting_leaf hwell, hn, ite_self]

end

theorem applyMutation_represents (hs : Stored ps cfg) (hr : Represents cfg desired)
    (hd : ∀ plugin, m.plugin = some plugin → Distinct ps plugin)
    (h : applyMutation ps cfg m = .ok (next, change)) :
    Represents next (desired.mutate m) ∧ Stored ps next := by
  have ho : ∀ name, m.plugin ≠ some name → entryOf next name = entryOf cfg name := by
    intro name hname
    rw [entryOf, entryOf, applyMutation_unnamed h hname]
  refine ⟨⟨?_, fun name => ?_⟩, ⟨fun name => ?_, fun name key hl => ?_⟩⟩
  · cases hname : m.plugin with
    | none =>
      obtain ⟨preferences, rfl, rfl⟩ := applyMutation_daemon h hname
      rfl
    | some name =>
      rw [(applyMutation_edited h hname).2.2, hr.daemon]
      cases m with
      | setDaemonPreferences preferences => cases hname
      | setPluginEnabled | setPluginReconciliation | setPluginSetting | clearPluginSetting => rfl
  · simp only [Desired.mutate]
    split
    · next hname =>
      apply edited_represents hname (applyMutation_edited h hname).1 (hs.wellFormed name)
        (hr.plugins name)
      exact fun key hk => hs.lowest (hd name hname) hk
    · next hname =>
      rw [ho name hname]
      exact hr.plugins name
  · by_cases hname : m.plugin = some name
    · exact edited_wellFormed hname (applyMutation_edited h hname).1 (hs.wellFormed name)
    · rw [ho name hname]
      exact hs.wellFormed name
  · by_cases hname : m.plugin = some name
    · exact edited_declared hname (applyMutation_edited h hname).1 (hs.wellFormed name)
        (hs.declared name key) hl
    · rw [ho name hname] at hl
      exact hs.declared name key hl

end

section

variable [FloatFormat F] {ps : List (ManageablePlugin F)} {cur cand : ManagedConfig F}
  {patch : ManagementPatch F} {mutations : List (ManagementMutation F)} {des : Desired F}

variable {changes : List ManagementChange}

theorem applyMutations_represents {next : ManagedConfig F} (hs : Stored ps config)
    (hr : Represents config des)
    (hd : ∀ mutation ∈ mutations, ∀ plugin, mutation.plugin = some plugin →
      Distinct ps plugin) (h : applyMutations ps mutations config = .ok (next, changes)) :
    Represents next (mutations.foldl Desired.mutate des) ∧ Stored ps next := by
  induction mutations generalizing config des changes with
  | nil =>
    cases h
    exact ⟨hr, hs⟩
  | cons mutation rest ih =>
    obtain ⟨hf, hre⟩ := List.forall_mem_cons.1 hd
    obtain ⟨⟨between, change⟩, hc, h⟩ := bind_ok_iff.1 h
    obtain ⟨⟨last, others⟩, ho, h⟩ := bind_ok_iff.1 h
    cases h
    obtain ⟨hb, hk⟩ := applyMutation_represents hs hr hf hc
    exact ih hk hb hre ho

theorem applyMutations_unnamed {next : ManagedConfig F}
    (hname : ∀ mutation ∈ mutations, mutation.plugin ≠ some name)
    (h : applyMutations ps mutations config = .ok (next, changes)) :
    managedPlugin next name = managedPlugin config name := by
  induction mutations generalizing config changes with
  | nil =>
    cases h
    rfl
  | cons mutation rest ih =>
    obtain ⟨hf, hr⟩ := List.forall_mem_cons.1 hname
    obtain ⟨⟨between, change⟩, hc, h⟩ := bind_ok_iff.1 h
    obtain ⟨⟨last, others⟩, ho, h⟩ := bind_ok_iff.1 h
    cases h
    exact (ih hr ho).trans (applyMutation_unnamed hc hf)

theorem distinct_of_accepted (h : Accepted cur patch ps cand) (hname : name ∈ cand.names) :
    Distinct ps name := by
  intro metadata hm
  obtain ⟨mg, hma, rfl⟩ := List.mem_map.1 hname
  obtain ⟨plugin, merged, hp, hme⟩ := h.merges mg hma
  cases hp.symm.trans (find_of_requirePlugin hm)
  obtain ⟨defaults, hd, -⟩ := bind_ok_iff.1 hme
  exact (declareSettings_apart hd).2

theorem foldl_mutate_kept {α : Type} (view : Desired F → α)
    (hk : ∀ mutation ∈ mutations, ∀ des : Desired F, view (des.mutate mutation) = view des) :
    view (mutations.foldl Desired.mutate des) = view des := by
  induction mutations generalizing des with
  | nil => rfl
  | cons mutation rest ih =>
    obtain ⟨hf, hr⟩ := List.forall_mem_cons.1 hk
    rw [List.foldl_cons, ih hr, hf des]

structure Committed (before : ManagedConfig F) (desired : Desired F) (patch : ManagementPatch F)
    (after : ManagedConfig F) : Prop where
  expected : patch.expectedRevision = before.revision
  revision : after.revision = before.revision + 1
  names : after.names.Nodup
  represents : Represents after (patch.mutations.foldl Desired.mutate desired)
  unnamed : ∀ name, (∀ mutation ∈ patch.mutations, mutation.plugin ≠ some name) →
    managedPlugin after name = managedPlugin before name
  enabled : ∀ name, (∀ enabled, .setPluginEnabled name enabled ∉ patch.mutations) →
    (entryOf after name).enabled = (entryOf before name).enabled
  reconciliation : ∀ name,
    (∀ reconciliation, .setPluginReconciliation name reconciliation ∉ patch.mutations) →
    (entryOf after name).reconciliation = (entryOf before name).reconciliation
  daemon : (∀ preferences, .setDaemonPreferences preferences ∉ patch.mutations) →
    after.daemon = before.daemon

omit [FloatFormat F] in
theorem validatePlugins_nodup {entries : List (ManagedPluginConfig F)}
    (h : validatePlugins i names entries = .ok ()) :
    (entries.map (·.name)).Nodup ∧ ∀ entry ∈ entries, entry.name ∉ names := by
  induction entries generalizing i names with
  | nil => exact ⟨List.nodup_nil, fun _ hm => absurd hm List.not_mem_nil⟩
  | cons entry rest ih =>
    obtain ⟨-, h⟩ := then_ok_iff.1 h
    obtain ⟨hne, h⟩ := then_ok_iff.1 h
    obtain ⟨hn, hr⟩ := ih h
    constructor
    · refine List.nodup_cons.2 ⟨fun hm => ?_, hn⟩
      obtain ⟨other, ho, hname⟩ := List.mem_map.1 hm
      exact hr other ho (hname ▸ List.mem_cons_self)
    · refine List.forall_mem_cons.2 ⟨by simpa using hne, fun other ho hm => ?_⟩
      exact hr other ho (List.mem_cons_of_mem _ hm)

theorem mutate_enabled (h : ∀ enabled, m ≠ .setPluginEnabled name enabled) :
    ((des.mutate m).plugins name).enabled = (des.plugins name).enabled := by
  simp only [Desired.mutate]
  split
  · next hname =>
    cases m with
    | setPluginEnabled plugin enabled =>
      cases hname
      exact absurd rfl (h enabled)
    | setPluginSetting plugin key val =>
      simp only [DesiredPlugin.mutate]
      split <;> rfl
    | setDaemonPreferences | setPluginReconciliation | clearPluginSetting => rfl
  · rfl

theorem mutate_reconciliation
    (h : ∀ reconciliation, m ≠ .setPluginReconciliation name reconciliation) :
    ((des.mutate m).plugins name).reconciliation = (des.plugins name).reconciliation := by
  simp only [Desired.mutate]
  split
  · next hname =>
    cases m with
    | setPluginReconciliation plugin reconciliation =>
      cases hname
      exact absurd rfl (h reconciliation)
    | setPluginSetting plugin key val =>
      simp only [DesiredPlugin.mutate]
      split <;> rfl
    | setDaemonPreferences | setPluginEnabled | clearPluginSetting => rfl
  · rfl

theorem mutate_daemon (h : ∀ preferences, m ≠ .setDaemonPreferences preferences) :
    (des.mutate m).daemon = des.daemon := by
  cases m with
  | setDaemonPreferences preferences => exact absurd rfl (h preferences)
  | setPluginEnabled | setPluginReconciliation | setPluginSetting | clearPluginSetting => rfl

theorem preparePatch_committed (hs : Stored ps cur) (hr : Represents cur des)
    (h : preparePatch cur patch ps = .ok (cand, changes)) :
    Committed cur des patch cand ∧ Stored ps cand := by
  have hac := preparePatch_accepted h
  obtain ⟨he, ⟨mutated, hmu, rfl⟩, hv, -⟩ := preparePatch_ok h
  have hd : ∀ mutation ∈ patch.mutations, ∀ plugin, mutation.plugin = some plugin →
      Distinct ps plugin := fun mutation hm plugin hp =>
    distinct_of_accepted hac (hac.named mutation hm plugin hp)
  obtain ⟨ha, hke⟩ := applyMutations_represents hs hr hd hmu
  refine ⟨⟨he, rfl, (validatePlugins_nodup (then_ok_iff.1 hv).2).1,
    ⟨ha.daemon, ha.plugins⟩, ?_, ?_, ?_, ?_⟩, ⟨hke.wellFormed, hke.declared⟩⟩
  · intro name hname
    have hk : managedPlugin mutated name = managedPlugin cur name :=
      applyMutations_unnamed hname hmu
    exact hk
  · intro name hn
    calc (entryOf mutated name).enabled
        = ((patch.mutations.foldl Desired.mutate des).plugins name).enabled :=
          (ha.plugins name).enabled
      _ = (des.plugins name).enabled := foldl_mutate_kept (fun des => (des.plugins name).enabled)
            fun mutation hm _ => mutate_enabled fun enabled hsa =>
              hn enabled (hsa ▸ hm)
      _ = (entryOf cur name).enabled := (hr.plugins name).enabled.symm
  · intro name hn
    calc (entryOf mutated name).reconciliation
        = ((patch.mutations.foldl Desired.mutate des).plugins name).reconciliation :=
          (ha.plugins name).reconciliation
      _ = (des.plugins name).reconciliation :=
          foldl_mutate_kept (fun des => (des.plugins name).reconciliation)
            fun mutation hm _ => mutate_reconciliation fun reconciliation hsa =>
              hn reconciliation (hsa ▸ hm)
      _ = (entryOf cur name).reconciliation := (hr.plugins name).reconciliation.symm
  · intro hn
    calc mutated.daemon = (patch.mutations.foldl Desired.mutate des).daemon := ha.daemon
      _ = des.daemon := foldl_mutate_kept Desired.daemon fun mutation hm _ =>
            mutate_daemon fun preferences hsa => hn preferences (hsa ▸ hm)
      _ = cur.daemon := hr.daemon.symm

end

section

variable [FloatFormat F] {plugins : List (ManageablePlugin F)} {current : ManagedConfig F}

theorem patchManaged_cases (plugins : List (ManageablePlugin F)) (request : PatchRequest F)
    (current : ManagedConfig F) :
    (∃ e, patchManaged plugins request current = (.error e, current)) ∨
      ∃ cd changes, preparePatch current request.patch plugins = .ok (cd, changes) ∧
        patchManaged plugins request current = (.ok changes, cd) := by
  unfold patchManaged
  split
  · next e _ => exact .inl ⟨.prepare e, rfl⟩
  · next prepared hp =>
    unfold commit
    split
    · next e _ => exact .inl ⟨.persist e, rfl⟩
    · exact .inr ⟨prepared.1, prepared.2, hp, rfl⟩

/-- After any request the configuration represents some desired state. -/
theorem step_represents {next : ManagedConfig F}
    (h : current.names.Nodup ∧ Stored plugins current ∧ ∃ desired, Represents current desired)
    (hst : Step plugins current request next) :
    next.names.Nodup ∧ Stored plugins next ∧ ∃ desired, Represents next desired := by
  obtain rfl := hst
  rcases patchManaged_cases plugins request current with ⟨e, hre⟩ | ⟨cd, changes, hp, hpa⟩
  · rw [hre]
    exact h
  · rw [hpa]
    obtain ⟨-, hs, desired, hr⟩ := h
    obtain ⟨hc, hk⟩ := preparePatch_committed hs hr hp
    exact ⟨hc.names, hk, _, hc.represents⟩

theorem reachable_represents (h : Reachable Initial (Step plugins) (fun _ _ => True) current) :
    current.names.Nodup ∧ Stored plugins current ∧ ∃ desired, Represents current desired := by
  apply h.holds fun config =>
    config.names.Nodup ∧ Stored plugins config ∧ ∃ desired, Represents config desired
  · rintro config rfl
    refine ⟨List.nodup_nil, ⟨fun _ => trivial, fun name key hl => ?_⟩,
      { daemon := {}, plugins := fun _ => ⟨none, none, ∅⟩ }, rfl, fun _ => ⟨rfl, rfl, rfl⟩⟩
    exact absurd (leaf_nil _) hl
  · intro config request next hc _ hs
    exact step_represents hc hs

/-- Through every run, a request either leaves the configuration or makes the next revision of
it, in which the mutations of the patch are done to the desired state in order. -/
theorem patches_are_transactions (h : Reachable Initial (Step plugins) (fun _ _ => True) current) :
    current.names.Nodup ∧ ∃ desired, Represents current desired ∧ ∀ request : PatchRequest F,
      (∀ error after, patchManaged plugins request current = (.error error, after) →
        after = current) ∧
      (request.patch.expectedRevision ≠ current.revision → patchManaged plugins request current =
          (.error (.prepare (.conflict request.patch.expectedRevision current.revision)),
            current)) ∧
      ∀ changes after, patchManaged plugins request current = (.ok changes, after) →
        Committed current desired request.patch after := by
  obtain ⟨hn, hs, desired, hrp⟩ := reachable_represents h
  refine ⟨hn, desired, hrp, fun request => ⟨?_, ?_, ?_⟩⟩
  · intro error after hr
    rcases patchManaged_cases plugins request current with ⟨_, hre⟩ | ⟨_, _, -, hp⟩
    · exact (Prod.mk.inj (hr.symm.trans hre)).2
    · cases (Prod.mk.inj (hr.symm.trans hp)).1
  · intro hst
    have hc : preparePatch current request.patch plugins =
        .error (.conflict request.patch.expectedRevision current.revision) := by
      rw [preparePatch, beq_false_of_ne hst]
      rfl
    rw [patchManaged, hc]
  · intro changes after hr
    rcases patchManaged_cases plugins request current with ⟨_, hre⟩ | ⟨candidate, _, hpr, hp⟩
    · cases (Prod.mk.inj (hr.symm.trans hre)).1
    · obtain rfl := (Prod.mk.inj (hr.symm.trans hp)).2
      exact (preparePatch_committed hs hrp hpr).1

end

namespace Sample

open SettingsResolution.Sample

def lampPlugin : ManageablePlugin Unit :=
  { name := "lamp", globalSettings := .nil, lockedSettings := [], schema }

def request (expectedRevision : ℕ) (mutations : List (ManagementMutation Unit)) :
    PatchRequest Unit :=
  { patch := { expectedRevision, mutations }, saved := .ok () }

def named : PatchRequest Unit :=
  request 0 [.setPluginSetting "lamp" "lamp.name" (.string "desk"),
    .setPluginSetting "lamp" "lamp.speed" (.integer 2)]

def renamed : PatchRequest Unit :=
  request 1 [.clearPluginSetting "lamp" "lamp.name",
    .setPluginSetting "lamp" "lamp.name" (.string "shelf"), .setPluginEnabled "lamp" (some true)]

def config (revision : ℕ) (plugin : ManagedPluginConfig Unit) : ManagedConfig Unit :=
  { revision, plugins := [plugin] }

def before : ManagedConfig Unit := config 1
  { name := "lamp"
    settings := lamp (.cons "name" (.string "desk") (.cons "speed" (.integer 2) .nil)) }

def after : ManagedConfig Unit := config 2
  { name := "lamp", enabled := some true
    settings := lamp (.cons "name" (.string "shelf") (.cons "speed" (.integer 2) .nil)) }

theorem reachable_before : Reachable Initial (Step [lampPlugin]) (fun _ _ => True) before := by
  have hi : Initial ({} : ManagedConfig Unit) := rfl
  exact .step (l := named) (.initial hi) trivial rfl

end Sample

open Sample SettingsResolution.Sample in
theorem lamp_renamed : Reachable Initial (Step [lampPlugin]) (fun _ _ => True) before ∧
      (patchManaged [lampPlugin] renamed before).2 = after ∧
      ∃ desired, Represents before desired ∧ Committed before desired renamed.patch after := by
  obtain ⟨-, desired, hr, hre⟩ := patches_are_transactions reachable_before
  refine ⟨reachable_before, rfl, desired, hr, ?_⟩
  exact (hre renamed).2.2 _ after rfl

end ManagementTransactions
