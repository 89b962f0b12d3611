import Luminate.PluginCatalogue
import Luminate.Transition

/-! # Reconciling hosts with the managed configuration

`plugins/managed.rs` and `patch_management`: once a patch is committed, the catalogue takes
over the new settings and the hosts are started, stopped or restarted to match. Host loads
and unloads succeed. -/
namespace ManagedReconciliation

open PluginSettings ManagedConfiguration PluginCatalogue Transition List Function

section

variable {F : Type}

def setEntryRuntime (name : String) (runtime : PluginRuntimeState) :
    List (PluginCatalogueEntry F) → List (PluginCatalogueEntry F)
  | [] => []
  | entry :: rest =>
    if entry.name = name then entry.setRuntime runtime :: rest
    else entry :: setEntryRuntime name runtime rest

section

variable (name : String) (runtime : PluginRuntimeState) (configurationChanges : List String)
  (manager : PluginManager F)

def setRuntimeState : PluginManager F :=
  { manager with catalogue := setEntryRuntime name runtime manager.catalogue }

def activatePlugin : Except String Unit × PluginManager F :=
  match manager.catalogue.find? (·.name == name) with
  | none => (.error ("installed plugin not found: " ++ name), manager)
  | some entry =>
    let manager := setRuntimeState name .loading manager
    if (manager.loaded name).isSome then (.error ("plugin is already loaded: " ++ name), manager)
    else
      let loaded := update manager.loaded name (some entry.configurationCbor)
      (.ok (), setRuntimeState name .loaded { manager with loaded })

def unloadPlugin : Except String Unit × PluginManager F :=
  match manager.loaded name with
  | none => (.error ("no loaded plugin named " ++ name.quote), manager)
  | some _ =>
    let loaded := update manager.loaded name none
    (.ok (), setRuntimeState name .inactive { manager with loaded })

/-- The host process is replaced at the same path and configuration. -/
def reloadPlugin : Except String Unit × PluginManager F :=
  match manager.loaded name with
  | none => (.error ("no loaded plugin named " ++ name.quote), manager)
  | some _ => (.ok (), setRuntimeState name .loaded manager)

inductive ManagedPluginAction where
  | activate | deactivate | restart
  deriving DecidableEq

def managedPluginAction (effectiveEnabled configurationChanged : Bool) :
    Option ManagedPluginAction :=
  match runtime, effectiveEnabled, configurationChanged with
  | .loaded, false, _ => some .deactivate
  | .inactive, true, _ | .failed _, true, _ => some .activate
  | .loaded, true, true => some .restart
  | .loading, _, _ | .inactive, false, _ | .failed _, false, _ | .loaded, true, false => none

def runManagedPluginAction : ManagedPluginAction → Except String Unit × PluginManager F
  | .activate => activatePlugin name manager
  | .deactivate => unloadPlugin name manager
  | .restart =>
    match unloadPlugin name manager with
    | (.error error, manager) => (.error error, manager)
    | (.ok (), manager) => activatePlugin name manager

def managedPluginActions (catalogue : List (PluginCatalogueEntry F)) :
    List (String × ManagedPluginAction) :=
  catalogue.filterMap fun entry =>
    (managedPluginAction entry.runtime entry.effectiveEnabled
      (configurationChanges.contains entry.name)).map ((entry.name, ·))

def recordOutcome : Except String Unit × PluginManager F → PluginManager F
  | (.ok (), manager) => manager
  | (.error diagnostic, manager) => setRuntimeState name (.failed diagnostic) manager

def runManagedPluginActions : List (String × ManagedPluginAction) → PluginManager F →
    PluginManager F
  | [], manager => manager
  | (name, action) :: rest, manager =>
    runManagedPluginActions rest (recordOutcome name (runManagedPluginAction name manager action))

def reconcileManagedPlugins : PluginManager F :=
  runManagedPluginActions (managedPluginActions configurationChanges manager.catalogue) manager

end

end

structure State (F : Type) where
  managed : ManagedConfig F
  manager : PluginManager F

/-- A patch, with whether its candidate could be persisted; or an administrator's unload or
reload of one plugin. -/
inductive Action (F : Type) where
  | patch (patch : ManagementPatch F) (persisted : Bool)
  | unload (name : String)
  | reload (name : String)

section

variable {F : Type}

def manageablePlugins (catalogue : List (PluginCatalogueEntry F)) : List (ManageablePlugin F) :=
  catalogue.map fun entry =>
    { name := entry.name, globalSettings := entry.globalSettings,
      lockedSettings := entry.lockedSettings, schema := entry.validationSchema }

variable [FloatFormat F] (encodeConfiguration : Table F → Configuration)
  (mode : PluginActivationMode)

/-- The names of the plugins whose configuration changed, and the catalogue. The first entry
that fails ends the loop with the entries before it already written. -/
def applyManagedConfig (managed : ManagedConfig F) :
    List (PluginCatalogueEntry F) → Except String (List String) × List (PluginCatalogueEntry F)
  | [] => (.ok [], [])
  | entry :: rest =>
    match entry.applyManaged encodeConfiguration mode managed with
    | (.error error, entry) => (.error error, entry :: rest)
    | (.ok (), applied) =>
      match applyManagedConfig managed rest with
      | (.error error, rest) => (.error error, applied :: rest)
      | (.ok names, rest) =>
        if applied.configurationCbor ≠ entry.configurationCbor then
          (.ok (applied.name :: names), applied :: rest)
        else (.ok names, applied :: rest)

def patchManagement (patch : ManagementPatch F) (persisted : Bool) (s : State F) : State F :=
  match preparePatch s.managed patch (manageablePlugins s.manager.catalogue) with
  | .error _ => s
  | .ok (candidate, _) =>
    if !persisted then s
    else match applyManagedConfig encodeConfiguration mode candidate s.manager.catalogue with
      | (.error _, catalogue) => ⟨candidate, { s.manager with catalogue }⟩
      | (.ok configurationChanges, catalogue) =>
        ⟨candidate, reconcileManagedPlugins configurationChanges { s.manager with catalogue }⟩

def next (s : State F) : Action F → State F
  | .patch patch persisted => patchManagement encodeConfiguration mode patch persisted s
  | .unload name => { s with manager := (unloadPlugin name s.manager).2 }
  | .reload name => { s with manager := (reloadPlugin name s.manager).2 }

def Step (s : State F) (action : Action F) (t : State F) : Prop :=
  t = next encodeConfiguration mode s action

/-- The daemon has started from a valid managed file, whatever was discovered and whichever
hosts came up. -/
def Initial (s : State F) : Prop :=
  s.managed.validate = .ok () ∧ ∃ discovered entries start,
    buildCatalogue encodeConfiguration mode s.managed [] discovered = .ok entries ∧
    load start (fun _ => none) entries = .ok s.manager

/-- Every loaded plugin runs with its effective configuration. -/
def Current (s : State F) : Prop :=
  ∀ entry ∈ s.manager.catalogue, entry.runtime = .loaded →
    ∃ settings, effectiveSettings s.managed entry = .ok settings ∧
      s.manager.loaded entry.name = some (encodeConfiguration settings)

/-- Every installed plugin that neither the managed file nor the patch names resolves its
settings without them, and no setting is a date-time. -/
structure Resolvable (s : State F) (patch : ManagementPatch F) : Prop where
  unnamed : ∀ entry ∈ s.manager.catalogue, entry.name ∉ s.managed.names →
    (∀ mutation ∈ patch.mutations, mutation.plugin ≠ some entry.name) →
    ∃ merged, mergePluginSettings entry.globalSettings .nil entry.lockedSettings
      entry.validationSchema = .ok merged
  managed : s.managed.DateFree
  global : ∀ entry ∈ s.manager.catalogue, entry.globalSettings.dateFree = true
  defaults : ∀ entry ∈ s.manager.catalogue, ∀ setting ∈ entry.validationSchema,
    ∀ default, setting.default = some default → default.dateFree = true

def Guard (s : State F) : Action F → Prop
  | .patch patch _ => Resolvable s patch
  | .unload _ | .reload _ => True

end

section

variable {F : Type} {name : String} {m : PluginManager F}

/-- One plugin was acted on, and of its entry only the runtime state was written. -/
structure OnlyChanges (name : String) (before after : PluginManager F) : Prop where
  names : after.names = before.names
  entries : ∀ entry ∈ after.catalogue, entry.name ≠ name → entry ∈ before.catalogue
  loaded : ∀ other, other ≠ name → after.loaded other = before.loaded other
  keeps : ∀ P : PluginCatalogueEntry F → Prop,
    (∀ entry runtime, P entry → P (entry.setRuntime runtime)) →
    (∀ entry ∈ before.catalogue, P entry) → ∀ entry ∈ after.catalogue, P entry

theorem OnlyChanges.refl (name : String) (m : PluginManager F) : OnlyChanges name m m :=
  ⟨rfl, fun _ hm _ => hm, fun _ _ => rfl, fun _ _ ha => ha⟩

theorem OnlyChanges.trans (h : OnlyChanges name first second) (h' : OnlyChanges name second third) :
    OnlyChanges name first third where
  names := h'.names.trans h.names
  entries entry hm hne := h.entries entry (h'.entries entry hm hne) hne
  loaded other hne := (h'.loaded other hne).trans (h.loaded other hne)
  keeps P hr ha := h'.keeps P hr (h.keeps P hr ha)

theorem setEntryRuntime_names (cat : List (PluginCatalogueEntry F)) :
    (setEntryRuntime name runtime cat).map (·.name) = cat.map (·.name) := by
  induction cat with
  | nil => rfl
  | cons entry rest ih =>
    unfold setEntryRuntime
    split
    · rfl
    · rw [map_cons, map_cons, ih]

variable {rt : PluginRuntimeState}

section

variable {entry : PluginCatalogueEntry F} {cat : List (PluginCatalogueEntry F)}

theorem mem_setEntryRuntime (h : entry ∈ setEntryRuntime name rt cat) :
    (∃ pre ∈ cat, pre.name = name ∧ entry = pre.setRuntime rt) ∨
      entry ∈ cat ∧ ((cat.map (·.name)).Nodup → entry.name ≠ name) := by
  induction cat with
  | nil => exact absurd h not_mem_nil
  | cons first rest ih =>
    unfold setEntryRuntime at h
    split at h
    · next hf =>
      rcases mem_cons.1 h with rfl | h
      · exact .inl ⟨first, mem_cons_self, hf, rfl⟩
      · refine .inr ⟨mem_cons_of_mem _ h, fun hn hna => (nodup_cons.1 hn).1 ?_⟩
        exact mem_map.2 ⟨entry, h, hna.trans hf.symm⟩
    · next hf =>
      rcases mem_cons.1 h with rfl | h
      · exact .inr ⟨mem_cons_self, fun _ => hf⟩
      · rcases ih h with ⟨pre, hm, hb⟩ | ⟨hm, hne⟩
        · exact .inl ⟨pre, mem_cons_of_mem _ hm, hb⟩
        · exact .inr ⟨mem_cons_of_mem _ hm, fun hn => hne (nodup_cons.1 hn).2⟩

theorem named_setEntryRuntime (hn : (cat.map (·.name)).Nodup)
    (h : entry ∈ setEntryRuntime name rt cat) (hna : entry.name = name) :
    ∃ pre ∈ cat, pre.name = name ∧ entry = pre.setRuntime rt :=
  (mem_setEntryRuntime h).resolve_right fun hm => hm.2 hn hna

end

theorem setRuntimeState_onlyChanges : OnlyChanges name m (setRuntimeState name rt m) := by
  refine ⟨setEntryRuntime_names _, fun entry hm hne => ?_, fun _ _ => rfl,
    fun P hr ha entry hm => ?_⟩
  · rcases mem_setEntryRuntime hm with ⟨pre, _, hn, rfl⟩ | ⟨hm, -⟩
    · exact absurd hn hne
    · exact hm
  · rcases mem_setEntryRuntime hm with ⟨pre, hb, _, rfl⟩ | ⟨hm, -⟩
    · exact hr pre rt (ha pre hb)
    · exact ha entry hm

theorem loaded_onlyChanges : OnlyChanges name m
      { m with loaded := update m.loaded name cfg } :=
  ⟨rfl, fun _ hm _ => hm, fun _ hne => update_of_ne hne .., fun _ _ ha => ha⟩

/-- The host of one plugin is the one its entry tells of. -/
def SettledAt (name : String) (manager : PluginManager F) : Prop :=
  ∀ entry ∈ manager.catalogue, entry.name = name → manager.loaded name = entry.host

theorem setRuntimeState_settledAt (hn : m.names.Nodup) (hr : rt ≠ .loaded)
    (hl : m.loaded name = none) : SettledAt name (setRuntimeState name rt m) := by
  intro entry he hna
  obtain ⟨pre, -, -, rfl⟩ := named_setEntryRuntime hn he hna
  exact hl.trans (PluginCatalogueEntry.host_of_not_loaded hr).symm

theorem activatePlugin_onlyChanges : OnlyChanges name m (activatePlugin name m).2 := by
  unfold activatePlugin
  split
  · exact .refl name m
  · dsimp only
    split
    · exact setRuntimeState_onlyChanges
    · exact (setRuntimeState_onlyChanges.trans loaded_onlyChanges).trans setRuntimeState_onlyChanges

theorem unloadPlugin_onlyChanges : OnlyChanges name m (unloadPlugin name m).2 := by
  unfold unloadPlugin
  split
  · exact .refl name m
  · exact loaded_onlyChanges.trans setRuntimeState_onlyChanges

/-- An action that succeeded leaves its plugin settled, one that failed leaves it without a
host. -/
def Finishes (name : String) (outcome : Except String Unit × PluginManager F) : Prop :=
  match outcome.1 with
  | .ok _ => SettledAt name outcome.2
  | .error _ => outcome.2.loaded name = none

theorem activatePlugin_finishes (hn : m.names.Nodup)
    (hlo : m.loaded name = none) : Finishes name (activatePlugin name m) := by
  unfold activatePlugin
  split
  · exact hlo
  · next fd hfo =>
    dsimp only
    rw [show (setRuntimeState name .loading m).loaded name = none from hlo]
    intro entry he hna
    have hla : (setEntryRuntime name .loading m.catalogue).map (·.name)
        = m.names := setEntryRuntime_names _
    obtain ⟨loading, hm, hl, rfl⟩ := named_setEntryRuntime (hla ▸ hn) he hna
    obtain ⟨pre, hbe, hb, rfl⟩ := named_setEntryRuntime hn hm hl
    have hf : fd.name = name := by simpa using find?_some hfo
    obtain rfl : pre = fd := inj_on_of_nodup_map hn hbe
      (mem_of_find?_eq_some hfo) (hb.trans hf.symm)
    exact update_self ..

theorem unloadPlugin_loaded : (unloadPlugin name m).2.loaded name = none := by
  unfold unloadPlugin
  split
  · next hn => exact hn
  · exact update_self ..

theorem unloadPlugin_finishes (hn : m.names.Nodup) : Finishes name (unloadPlugin name m) := by
  unfold unloadPlugin
  split
  · next hno => exact hno
  · exact setRuntimeState_settledAt hn PluginRuntimeState.noConfusion (update_self ..)

theorem runManagedPluginAction_onlyChanges :
    OnlyChanges name m (runManagedPluginAction name m a).2 := by
  cases a with
  | activate => exact activatePlugin_onlyChanges
  | deactivate => exact unloadPlugin_onlyChanges
  | restart =>
    have hu : OnlyChanges name m (unloadPlugin name m).2 := unloadPlugin_onlyChanges
    dsimp only [runManagedPluginAction]
    split
    · next hf => rwa [hf] at hu
    · next hun =>
      rw [hun] at hu
      exact hu.trans activatePlugin_onlyChanges

theorem runManagedPluginAction_finishes (hn : m.names.Nodup)
    (hi : a = .activate → m.loaded name = none) :
    Finishes name (runManagedPluginAction name m a) := by
  cases a with
  | activate => exact activatePlugin_finishes hn (hi rfl)
  | deactivate => exact unloadPlugin_finishes hn
  | restart =>
    have hl : (unloadPlugin name m).2.loaded name = none := unloadPlugin_loaded
    have hna : (unloadPlugin name m).2.names = m.names := unloadPlugin_onlyChanges.names
    dsimp only [runManagedPluginAction]
    split
    · next hf => rwa [hf] at hl
    · next hu =>
      rw [hu] at hl hna
      exact activatePlugin_finishes (hna ▸ hn) hl

theorem recordOutcome_onlyChanges (h : OnlyChanges name m outcome.2) :
    OnlyChanges name m (recordOutcome name outcome) := by
  obtain ⟨diagnostic | ⟨⟩, after⟩ := outcome
  · exact h.trans setRuntimeState_onlyChanges
  · exact h

theorem recordOutcome_settledAt (hn : outcome.2.names.Nodup) (h : Finishes name outcome) :
    SettledAt name (recordOutcome name outcome) := by
  obtain ⟨diagnostic | ⟨⟩, after⟩ := outcome
  · exact setRuntimeState_settledAt hn PluginRuntimeState.noConfusion h
  · exact h

/-- Between two actions: the plugins that are not waiting for one are settled, and those
waiting to be activated have no host. -/
structure Pending (actions : List (String × ManagedPluginAction)) (manager : PluginManager F) :
    Prop where
  distinct : (actions.map (·.1)).Nodup
  names : manager.names.Nodup
  settled : ∀ entry ∈ manager.catalogue, entry.name ∉ actions.map (·.1) →
    manager.loaded entry.name = entry.host
  idle : ∀ name, (name, ManagedPluginAction.activate) ∈ actions → manager.loaded name = none

theorem Pending.next (h : Pending ((name, a) :: rest) m) :
    Pending rest (recordOutcome name (runManagedPluginAction name m a)) := by
  have hc : OnlyChanges name m (runManagedPluginAction name m a).2 :=
    runManagedPluginAction_onlyChanges
  have hn : (runManagedPluginAction name m a).2.names.Nodup := hc.names ▸ h.names
  have hf : Finishes name (runManagedPluginAction name m a) :=
    runManagedPluginAction_finishes h.names fun ha =>
      h.idle name (ha ▸ mem_cons_self)
  have hs := recordOutcome_settledAt hn hf
  have hr := recordOutcome_onlyChanges hc
  obtain ⟨hna, hd⟩ := nodup_cons.1 h.distinct
  refine ⟨hd, hr.names ▸ h.names, fun entry hen hno => ?_, fun other ho => ?_⟩
  · by_cases he : entry.name = name
    · rw [he]
      exact hs entry hen he
    · rw [hr.loaded _ he]
      apply h.settled entry (hr.entries entry hen he)
      exact not_mem_cons_of_ne_of_not_mem he hno
  · have hne : other ≠ name := by
      rintro rfl
      exact hna (mem_map.2 ⟨_, ho, rfl⟩)
    rw [hr.loaded _ hne]
    exact h.idle other (mem_cons_of_mem _ ho)

theorem Pending.run (h : Pending actions m) : (runManagedPluginActions actions m).names.Nodup ∧
      Settled (runManagedPluginActions actions m) := by
  induction actions generalizing m with
  | nil => exact ⟨h.names, fun entry he => h.settled entry he not_mem_nil⟩
  | cons first rest ih => exact ih h.next

theorem runManagedPluginActions_keeps {P : PluginCatalogueEntry F → Prop}
    (hr : ∀ entry rt, P entry → P (entry.setRuntime rt)) (ha : ∀ entry ∈ m.catalogue, P entry) :
    ∀ entry ∈ (runManagedPluginActions actions m).catalogue, P entry := by
  induction actions generalizing m with
  | nil => exact ha
  | cons first rest ih =>
    have hc : OnlyChanges first.1 m (runManagedPluginAction first.1 m first.2).2 :=
      runManagedPluginAction_onlyChanges
    exact ih ((recordOutcome_onlyChanges hc).keeps P hr ha)

theorem managedPluginActions_names (cat : List (PluginCatalogueEntry F)) :
    ((managedPluginActions configurationChanges cat).map (·.1)).Sublist (cat.map (·.name)) := by
  induction cat with
  | nil => exact Sublist.slnil
  | cons entry rest ih =>
    rw [managedPluginActions, filterMap_cons]
    cases managedPluginAction entry.runtime entry.effectiveEnabled
        (configurationChanges.contains entry.name) with
    | none => exact ih.cons _
    | some a => exact ih.cons_cons _

theorem unchanged_of_no_action
    (h : managedPluginAction rt effectiveEnabled configurationChanged = none) (hl : rt = .loaded) :
    configurationChanged = false := by
  subst hl
  cases effectiveEnabled
  · cases h
  · cases configurationChanged
    · rfl
    · cases h

theorem not_loaded_of_activate
    (h : managedPluginAction rt effectiveEnabled configurationChanged = some .activate) :
    rt ≠ .loaded := by
  rintro rfl
  cases effectiveEnabled
  · cases h
  · cases configurationChanged <;> cases h

/-- If the changes that are reconciled name every loaded plugin whose configuration is not its
host's, every plugin is settled afterwards. -/
theorem reconcileManagedPlugins_settled (hn : m.names.Nodup)
    (hi : ∀ entry ∈ m.catalogue, entry.runtime ≠ .loaded → m.loaded entry.name = none)
    (hc : ∀ entry ∈ m.catalogue, entry.runtime = .loaded → entry.name ∉ configurationChanges →
      m.loaded entry.name = some entry.configurationCbor) :
    (reconcileManagedPlugins configurationChanges m).names.Nodup ∧
      Settled (reconcileManagedPlugins configurationChanges m) := by
  refine Pending.run ⟨(managedPluginActions_names _).nodup hn, hn,
    fun entry he hnt => ?_, fun name hna => ?_⟩
  · by_cases hl : entry.runtime = .loaded
    · rw [PluginCatalogueEntry.host_of_loaded hl]
      have hno : managedPluginAction entry.runtime entry.effectiveEnabled
          (configurationChanges.contains entry.name) = none := by
        rw [Option.eq_none_iff_forall_ne_some]
        intro a ha
        refine hnt (mem_map.2 ⟨(entry.name, a), ?_, rfl⟩)
        exact mem_filterMap.2 ⟨entry, he, by rw [ha]; rfl⟩
      have hu := unchanged_of_no_action hno hl
      exact hc entry he hl fun hm => by simp [hm] at hu
    · rw [PluginCatalogueEntry.host_of_not_loaded hl]
      exact hi entry he hl
  · obtain ⟨entry, he, ha⟩ := mem_filterMap.1 hna
    obtain ⟨a, ha, hp⟩ := Option.map_eq_some_iff.1 ha
    cases hp
    exact hi entry he (not_loaded_of_activate ha)

theorem find_manageablePlugins {plugin : ManageablePlugin F} (hn : (cat.map (·.name)).Nodup)
    (he : entry ∈ cat) (h : (manageablePlugins cat).find? (·.name == entry.name) = some plugin) :
    plugin = ⟨entry.name, entry.globalSettings, entry.lockedSettings, entry.validationSchema⟩ := by
  have hna : plugin.name = entry.name := by simpa using find?_some h
  obtain ⟨fd, hf, rfl⟩ := mem_map.1 (mem_of_find?_eq_some h)
  obtain rfl : fd = entry := inj_on_of_nodup_map hn hf he hna
  rfl

end

section

variable {F : Type} [FloatFormat F] {encode : Table F → Configuration}
  {mode : PluginActivationMode} {mg : ManagedConfig F}

structure Applied (encodeConfiguration : Table F → Configuration) (managed : ManagedConfig F)
    (names : List String) (before after : PluginCatalogueEntry F) : Prop where
  name : after.name = before.name
  runtime : after.runtime = before.runtime
  upToDate : UpToDate encodeConfiguration managed after
  changed : after.configurationCbor ≠ before.configurationCbor → after.name ∈ names

theorem Applied.mono {pre after : PluginCatalogueEntry F} (h : Applied encode mg names pre after)
    (hn : names ⊆ names') : Applied encode mg names' pre after :=
  ⟨h.name, h.runtime, h.upToDate, fun hc => hn (h.changed hc)⟩

def Applies (managed : ManagedConfig F) (entry : PluginCatalogueEntry F) : Prop :=
  ∃ settings, effectiveSettings managed entry = .ok settings ∧
    (∃ reported, reportedSettings (managedSettings managed entry.name) entry.validationSchema
      = .ok reported) ∧
    ∃ reported, reportedSettings settings entry.validationSchema = .ok reported

theorem applyManaged_ok (encode : Table F → Configuration) (mode : PluginActivationMode)
    (h : Applies mg entry) : ∃ after, entry.applyManaged encode mode mg = (.ok (), after) ∧
      after.name = entry.name ∧ after.runtime = entry.runtime ∧ UpToDate encode mg after := by
  obtain ⟨settings, hs, ⟨des, hd⟩, ⟨effective, he⟩⟩ := h
  simp only [PluginCatalogueEntry.applyManaged, hs, hd, he, Prod.mk.injEq, true_and]
  refine ⟨_, rfl, rfl, rfl, ?_⟩
  exact congrArg (Except.map encode) hs

theorem applyManagedConfig_ok (h : ∀ entry ∈ cat, Applies mg entry) :
    ∃ names after, applyManagedConfig encode mode mg cat = (.ok names, after) ∧
      Forall₂ (Applied encode mg names) cat after := by
  induction cat with
  | nil => exact ⟨[], [], rfl, .nil⟩
  | cons entry rest ih =>
    obtain ⟨he, hre⟩ := forall_mem_cons.1 h
    obtain ⟨applied, ha, hn, hr, hcu⟩ := applyManaged_ok encode mode he
    obtain ⟨names, after, haf, hf⟩ := ih hre
    by_cases hc : applied.configurationCbor = entry.configurationCbor
    · refine ⟨names, applied :: after, ?_, .cons ?_ hf⟩
      · simp [applyManagedConfig, ha, haf, hc]
      · exact ⟨hn, hr, hcu, fun hne => absurd hc hne⟩
    · refine ⟨applied.name :: names, applied :: after, ?_, .cons ?_ ?_⟩
      · simp [applyManagedConfig, ha, haf, hc]
      · exact ⟨hn, hr, hcu, fun _ => mem_cons_self⟩
      · exact hf.imp fun _ _ ho => ho.mono (subset_cons_self _ _)

theorem Applied.names {names : List String} {cat after : List (PluginCatalogueEntry F)}
    (h : Forall₂ (Applied encode mg names) cat after) : after.map (·.name) = cat.map (·.name) := by
  induction h with
  | nil => rfl
  | cons hf _ ih => rw [map_cons, map_cons, hf.name, ih]

theorem Applied.origin {names : List String} {cat after : List (PluginCatalogueEntry F)}
    (h : Forall₂ (Applied encode mg names) cat after) (he : entry ∈ after) :
    ∃ pre ∈ cat, Applied encode mg names pre entry := by
  induction h with
  | nil => exact absurd he not_mem_nil
  | cons hf _ ih =>
    rcases mem_cons.1 he with rfl | he
    · exact ⟨_, mem_cons_self, hf⟩
    · obtain ⟨pre, hb, ha⟩ := ih he
      exact ⟨pre, mem_cons_of_mem _ hb, ha⟩

/-- Before the commit only the plugins that the candidate names are checked; the guard is what
the others need. -/
theorem applies_of_accepted {cand : ManagedConfig F} (hn : s.manager.names.Nodup)
    (hg : Resolvable s patch)
    (h : preparePatch s.managed patch (manageablePlugins s.manager.catalogue)
      = .ok (cand, changes)) : ∀ entry ∈ s.manager.catalogue, Applies cand entry := by
  intro entry he
  have ha := preparePatch_accepted h
  have hmr : ∃ settings, effectiveSettings cand entry = .ok settings := by
    unfold effectiveSettings managedSettings
    cases hf : managedPlugin cand entry.name with
    | none =>
      have hu : entry.name ∉ cand.names := by
        intro hmm
        obtain ⟨plugin, hp, hna⟩ := mem_map.1 hmm
        exact find?_eq_none.1 hf plugin hp (beq_iff_eq.2 hna)
      apply hg.unnamed entry he (fun hmm => hu (ha.names hmm))
      exact fun mutation hmu hp =>
        hu (ha.named mutation hmu _ hp)
    | some plugin =>
      have hna : plugin.name = entry.name := by simpa using find?_some hf
      obtain ⟨manageable, merged, hm, hme⟩ := ha.merges plugin (mem_of_find?_eq_some hf)
      obtain rfl := find_manageablePlugins hn he (hna ▸ hm)
      exact ⟨merged, hme⟩
  have hma : (managedSettings cand entry.name).dateFree = true := by
    unfold managedSettings
    cases hf : managedPlugin cand entry.name with
    | none => rfl
    | some plugin => exact ha.dateFree hg.managed plugin (mem_of_find?_eq_some hf)
  obtain ⟨settings, hs⟩ := hmr
  exact ⟨settings, hs, mergePluginSettings_reportable (hg.global entry he) hma
    (hg.defaults entry he) hs⟩

end

section

variable {F : Type} [FloatFormat F] {encodeConfiguration : Table F → Configuration}
  {mode : PluginActivationMode} {s : State F}

structure Invariant (encodeConfiguration : Table F → Configuration) (s : State F) : Prop where
  names : s.manager.names.Nodup
  settled : Settled s.manager
  upToDate : ∀ entry ∈ s.manager.catalogue, entry.runtime = .loaded →
    UpToDate encodeConfiguration s.managed entry

theorem invariant_initial (h : Initial encodeConfiguration mode s) :
    Invariant encodeConfiguration s := by
  obtain ⟨-, discovered, entries, start, hb, hl⟩ := h
  obtain ⟨he, hn⟩ := buildCatalogue_ok hb
  obtain ⟨hna, hs, -, hc⟩ := load_ok (fun _ _ => rfl) (fun entry hen => (he entry hen).1) hn hl
  exact ⟨hna ▸ hn, hs, hc⟩

section

variable (h : Invariant encodeConfiguration s)

include h

/-- What is committed is taken over by the whole catalogue, and every running host that this
leaves behind is named. -/
theorem Invariant.applies (mode : PluginActivationMode) {changes : List ManagementChange}
    (hg : Resolvable s patch) (hp : preparePatch s.managed patch
      (manageablePlugins s.manager.catalogue) = .ok (cand, changes)) :
    ∃ names after, applyManagedConfig encodeConfiguration mode cand s.manager.catalogue
        = (.ok names, after) ∧
      after.map (·.name) = s.manager.names ∧
      ∀ entry ∈ after, UpToDate encodeConfiguration cand entry ∧
        (entry.runtime ≠ .loaded → s.manager.loaded entry.name = none) ∧
        (entry.runtime = .loaded → ∃ running, s.manager.loaded entry.name = some running ∧
          (running ≠ entry.configurationCbor → entry.name ∈ names)) := by
  obtain ⟨names, after, haf, hf⟩ := applyManagedConfig_ok (applies_of_accepted h.names hg hp)
  refine ⟨names, after, haf, Applied.names hf, fun entry he => ?_⟩
  obtain ⟨pre, hb, ha⟩ := Applied.origin hf he
  rw [ha.name, ha.runtime, h.settled pre hb]
  refine ⟨ha.upToDate, PluginCatalogueEntry.host_of_not_loaded, fun hl => ?_⟩
  refine ⟨_, PluginCatalogueEntry.host_of_loaded hl, fun hne => ?_⟩
  exact ha.name ▸ ha.changed hne.symm

theorem Invariant.patch {patch : ManagementPatch F} (hg : Resolvable s patch) (persisted : Bool) :
    Invariant encodeConfiguration (patchManagement encodeConfiguration mode patch persisted s) := by
  unfold patchManagement
  split
  · exact h
  · next cand changes hp =>
    split
    · exact h
    · obtain ⟨names, after, ha, hn, hal⟩ := h.applies mode hg hp
      rw [ha]
      obtain ⟨hno, hs⟩ : (reconcileManagedPlugins names
          { s.manager with catalogue := after }).names.Nodup ∧
          Settled (reconcileManagedPlugins names { s.manager with catalogue := after }) := by
        refine reconcileManagedPlugins_settled (hn.symm ▸ h.names :)
          (fun entry he => (hal entry he).2.1) fun entry he hl hnt => ?_
        obtain ⟨running, hr, hc⟩ := (hal entry he).2.2 hl
        rw [hr, Classical.not_not.1 fun hne => hnt (hc hne)]
      refine ⟨hno, hs, fun entry he _ => ?_⟩
      exact runManagedPluginActions_keeps (fun _ _ hcu => hcu)
        (fun entry he => (hal entry he).1) entry he

theorem Invariant.onlyChanges (hc : OnlyChanges name s.manager manager)
    (hs : SettledAt name manager)
    (hl : ∀ entry ∈ manager.catalogue, entry.name = name → entry.runtime = .loaded →
      ∃ before ∈ s.manager.catalogue, before.runtime = .loaded ∧
        entry = before.setRuntime .loaded) :
    Invariant encodeConfiguration { s with manager } := by
  refine ⟨hc.names ▸ h.names, fun entry he => ?_, fun entry he hr => ?_⟩
  · by_cases hn : entry.name = name
    · rw [hn]
      exact hs entry he hn
    · rw [hc.loaded _ hn]
      exact h.settled entry (hc.entries entry he hn)
  · by_cases hn : entry.name = name
    · obtain ⟨before, hbe, hb, rfl⟩ := hl entry he hn hr
      exact h.upToDate before hbe hb
    · exact h.upToDate entry (hc.entries entry he hn) hr

theorem Invariant.unload (name : String) :
    Invariant encodeConfiguration { s with manager := (unloadPlugin name s.manager).2 } := by
  unfold unloadPlugin
  split
  · exact h
  · refine h.onlyChanges (loaded_onlyChanges.trans setRuntimeState_onlyChanges)
      ?_ fun entry he hn hl => ?_
    · exact setRuntimeState_settledAt h.names PluginRuntimeState.noConfusion (update_self ..)
    · obtain ⟨before, -, -, rfl⟩ := named_setEntryRuntime h.names he hn
      cases hl

theorem Invariant.reload (name : String) :
    Invariant encodeConfiguration { s with manager := (reloadPlugin name s.manager).2 } := by
  unfold reloadPlugin
  split
  · exact h
  · next running hr =>
    -- A plugin with a host is a loaded one, so its runtime state does not change.
    have ho : ∀ entry ∈ (setRuntimeState name .loaded s.manager).catalogue,
        entry.name = name → ∃ before ∈ s.manager.catalogue, before.name = name ∧
          before.runtime = .loaded ∧ entry = before.setRuntime .loaded := by
      intro entry he hn
      obtain ⟨before, hbe, hb, rfl⟩ := named_setEntryRuntime h.names he hn
      refine ⟨before, hbe, hb, ?_, rfl⟩
      by_contra hno
      have hs := h.settled before hbe
      rw [hb, hr, PluginCatalogueEntry.host_of_not_loaded hno] at hs
      cases hs
    refine h.onlyChanges setRuntimeState_onlyChanges (fun entry he hn => ?_) fun entry he hn _ => ?_
    · obtain ⟨before, hbe, hb, hl, rfl⟩ := ho entry he hn
      exact (hb ▸ h.settled before hbe).trans (PluginCatalogueEntry.host_of_loaded hl)
    · obtain ⟨before, hbe, -, hl⟩ := ho entry he hn
      exact ⟨before, hbe, hl⟩

theorem invariant_step (hg : Guard s a) (hs : Step encodeConfiguration mode s a t) :
    Invariant encodeConfiguration t := by
  obtain rfl := hs
  cases a with
  | patch patch persisted => exact h.patch hg persisted
  | unload name => exact h.unload name
  | reload name => exact h.reload name

end

theorem reachable_invariant (h : Reachable (Initial encodeConfiguration mode)
    (Step encodeConfiguration mode) Guard s) : Invariant encodeConfiguration s :=
  h.holds (Invariant encodeConfiguration) (fun _ => invariant_initial)
    fun _ _ _ h => invariant_step h

theorem Invariant.current (h : Invariant encodeConfiguration s) :
    Current encodeConfiguration s := by
  intro entry he hl
  obtain ⟨settings, hs, hen⟩ := (h.upToDate entry he hl).settings
  refine ⟨settings, hs, ?_⟩
  rw [h.settled entry he, PluginCatalogueEntry.host_of_loaded hl, hen]

/-- Every loaded plugin runs with its effective configuration, and a patch that is accepted is
taken over by the whole catalogue, naming every running host it leaves behind. -/
theorem committed_patches_reach_hosts (h : Reachable (Initial encodeConfiguration mode)
    (Step encodeConfiguration mode) Guard s) : Current encodeConfiguration s ∧
      ∀ patch candidate changes, Resolvable s patch →
        preparePatch s.managed patch (manageablePlugins s.manager.catalogue)
          = .ok (candidate, changes) →
        ∃ names after, applyManagedConfig encodeConfiguration mode candidate s.manager.catalogue
            = (.ok names, after) ∧
          ∀ entry ∈ after, ∀ running settings, s.manager.loaded entry.name = some running →
            effectiveSettings candidate entry = .ok settings →
            running ≠ encodeConfiguration settings → entry.name ∈ names := by
  have hi := reachable_invariant h
  refine ⟨hi.current, fun patch candidate changes hg hp => ?_⟩
  obtain ⟨names, after, ha, -, hal⟩ := hi.applies mode hg hp
  refine ⟨names, after, ha, fun entry hen running settings hr hs hne => ?_⟩
  obtain ⟨hcu, hid, hch⟩ := hal entry hen
  by_cases hl : entry.runtime = .loaded
  · obtain ⟨host, hh, hn⟩ := hch hl
    obtain ⟨current, hc, he⟩ := hcu.settings
    cases hs.symm.trans hc
    cases hr.symm.trans hh
    exact hn fun heq => hne (heq.trans he.symm)
  · rw [hid hl] at hr
    cases hr

end

/-! ## Two plugins

`alpha` has a speed with a default. `beta` is optional and has a required token that nothing
sets, so its entry is kept as failed. -/

namespace Sample

instance wholeNumbers : FloatFormat Int where
  ofInt := id
  le x y := decide (x ≤ y)
  isFinite _ := true

def bytes : Table Int → Configuration
  | .nil => []
  | .cons _ (.integer n) rest => UInt8.ofNat n.toNat :: bytes rest
  | .cons _ _ rest => 0 :: bytes rest

def alpha : Discovered Int where
  candidate := { path := "alpha", explicit := true, required := false }
  inspected := .ok
    { name := "alpha",
      settings := [{ key := "speed", kind := .integer, default := some (.integer 1) }] }

def beta : Discovered Int where
  candidate := { path := "beta", explicit := true, required := false }
  inspected := .ok
    { name := "beta", settings := [{ key := "token", kind := .string, required := true }] }

def built (discovered : List (Discovered Int)) : List (PluginCatalogueEntry Int) :=
  (buildCatalogue bytes .explicit {} [] discovered).toOption.getD []

def started (discovered : List (Discovered Int)) : State Int :=
  ⟨{}, ((load (fun _ => .ok ()) (fun _ => none) (built discovered)).toOption.getD
    ⟨[], fun _ => none⟩)⟩

def speedPatch : ManagementPatch Int := ⟨0, [.setPluginSetting "alpha" "speed" (.integer 2)]⟩

def tokenPatch : ManagementPatch Int := ⟨1, [.setPluginSetting "beta" "token" (.string "x")]⟩

def faster (discovered : List (Discovered Int)) : State Int :=
  next bytes .explicit (started discovered) (.patch speedPatch true)

end Sample

section

open Sample

theorem started_initial (discovered : List (Discovered Int))
    (hb : buildCatalogue bytes .explicit {} [] discovered = .ok (built discovered))
    (hs : load (fun _ => .ok ()) (fun _ => none) (built discovered)
      = .ok (started discovered).manager) : Initial bytes .explicit (started discovered) :=
  ⟨rfl, discovered, built discovered, _, hb, hs⟩

/-- The running `alpha` is restarted with its new speed. -/
theorem restarted_plugin_is_current : (faster [alpha]).manager.loaded "alpha" = some [2] ∧
    Current bytes (faster [alpha]) := by
  have hg : Guard (started [alpha]) (.patch speedPatch true) :=
    { unnamed := forall_mem_singleton.2 fun _ _ => ⟨_, rfl⟩
      managed := fun _ hm => absurd hm not_mem_nil
      global := forall_mem_singleton.2 rfl
      defaults := forall_mem_singleton.2 (forall_mem_singleton.2 (by rintro _ ⟨⟩; rfl)) }
  have hr : Reachable (Initial bytes .explicit) (Step bytes .explicit) Guard (faster [alpha]) :=
    (Reachable.initial (started_initial [alpha] rfl rfl)).step hg rfl
  exact ⟨rfl, (committed_patches_reach_hosts hr).1⟩

/-- The new speed of `alpha` is committed, but taking it over ends at `beta` before `alpha` is
restarted. The patch that gives `beta` its token finds the configuration of `alpha` already
written, so `alpha` keeps running with the old speed. -/
theorem Counterexample.committed_speed_is_lost :
    ∃ s, Reachable (Initial bytes .explicit) (Step bytes .explicit) (fun _ _ => True) s ∧
      s.managed.revision = 2 ∧ ¬ Current bytes s := by
  refine ⟨next bytes .explicit (faster [alpha, beta]) (.patch tokenPatch true), ?_, rfl, ?_⟩
  · exact ((Reachable.initial (started_initial [alpha, beta] rfl rfl)).step
      (l := Action.patch speedPatch true) trivial rfl).step
      (l := Action.patch tokenPatch true) trivial rfl
  · intro hc
    obtain ⟨settings, hs, hh⟩ := hc _ mem_cons_self rfl
    cases hs
    exact absurd hh (by decide)

end

end ManagedReconciliation
