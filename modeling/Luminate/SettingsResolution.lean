import Luminate.SettingPaths

/-! # Resolution of plugin settings

What `merge_plugin_settings` makes of a schema, a global and a managed layer: each declared
key has the value of the highest layer that gives one, and the merged table holds nothing
else. -/
namespace SettingsResolution

open Checks PluginSettings Segments SettingPaths List Std.ExtTreeMap Option

variable {F : Type}

/-- A lock on the key or on one of its dotted parents. -/
def Locked (locks : List String) (key : String) : Prop :=
  ∃ lock ∈ locks, keyParts lock <+: keyParts key

instance (locks : List String) (key : String) : Decidable (Locked locks key) :=
  inferInstanceAs (Decidable (∃ lock ∈ locks, keyParts lock <+: keyParts key))

theorem keyParts_prefix_iff : keyParts parent <+: keyParts child ↔
      parent = child ∨ dottedKeyContains parent child = true := by
  rw [dottedKeyContains, isPrefixOf_iff_prefix]
  refine segments_prefix_iff.trans (or_congr_right ?_)
  constructor
  · rintro ⟨rest, hr⟩
    exact ⟨rest, by rw [hr]; simp⟩
  · rintro ⟨rest, hr⟩
    exact ⟨rest, by rw [← hr]; simp⟩

theorem daemonSettingLocked_iff : daemonSettingLocked locks key = true ↔ Locked locks key := by
  simp [daemonSettingLocked, Locked, keyParts_prefix_iff]

/-- Neither key is the other or a dotted parent of it. -/
def Apart (first second : String) : Prop :=
  ¬ keyParts first <+: keyParts second ∧ ¬ keyParts second <+: keyParts first

theorem Apart.ne (h : Apart first second) : first ≠ second := by
  rintro rfl
  exact h.1 prefix_rfl

variable [FloatFormat F]

section

variable {st : PluginSettingSchema F} {sch rest : List (PluginSettingSchema F)}
  {declared : List String} {vs next : Settings F}

theorem declareSettings_cons (h : declareSettings (st :: rest) declared vs = .ok next) :
    (∀ other ∈ declared, Apart other st.key) ∧
      (∀ default, st.default = some default → validateSettingValue st default = .ok ()) ∧
      declareSettings rest (declared ++ [st.key])
        (st.default.elim vs (vs.insert st.key)) = .ok next := by
  obtain ⟨-, h⟩ := then_ok_iff.1 h
  obtain ⟨hc, h⟩ := then_ok_iff.1 h
  obtain ⟨hnw, h⟩ := then_ok_iff.1 h
  have ha : ∀ other ∈ declared, Apart other st.key := by
    intro other ho
    have hn := all_eq_true.1 (ensure_ok_iff.1 hc) other ho
    have hne : other ≠ st.key := by
      rintro rfl
      simp [ho] at hnw
    simp only [Bool.and_eq_true, Bool.not_eq_true'] at hn
    constructor
    · rw [keyParts_prefix_iff]
      simp [hne, hn.1]
    · rw [keyParts_prefix_iff]
      simp [hne.symm, hn.2]
  cases hd : st.default with
  | none =>
    rw [hd] at h
    refine ⟨ha, ?_, h⟩
    intro default hs
    cases hs
  | some default =>
    rw [hd] at h
    obtain ⟨hv, h⟩ := then_ok_iff.1 h
    exact ⟨ha, fun _ hs => Option.some.inj hs ▸ hv, h⟩

section

variable (h : declareSettings sch declared vs = .ok next)

include h

theorem declareSettings_apart : (∀ st ∈ sch, ∀ other ∈ declared, Apart other st.key) ∧
      sch.Pairwise fun first second => Apart first.key second.key := by
  induction sch generalizing declared vs with
  | nil => exact ⟨fun _ hm => absurd hm not_mem_nil, Pairwise.nil⟩
  | cons st rest ih =>
    obtain ⟨ha, -, h⟩ := declareSettings_cons h
    obtain ⟨hr, hp⟩ := ih h
    constructor
    · refine forall_mem_cons.2 ⟨ha, fun later hl other ho => ?_⟩
      exact hr later hl other (mem_append_left _ ho)
    · refine pairwise_cons.2 ⟨fun later hl => ?_, hp⟩
      exact hr later hl _ (mem_append_right _ (mem_singleton_self _))

theorem declareSettings_defaults : ∀ st ∈ sch, ∀ default, st.default = some default →
      validateSettingValue st default = .ok () := by
  induction sch generalizing declared vs with
  | nil => exact fun _ hm => absurd hm not_mem_nil
  | cons st rest ih =>
    obtain ⟨-, hd, h⟩ := declareSettings_cons h
    exact forall_mem_cons.2 ⟨hd, ih h⟩

theorem declareSettings_getElem? (key : String) :
    next[key]? = ((sch.find? (·.key == key)).bind (·.default)).or vs[key]? := by
  induction sch generalizing declared vs with
  | nil =>
    cases h
    simp
  | cons st rest ih =>
    obtain ⟨-, -, h⟩ := declareSettings_cons h
    rw [ih h]
    by_cases hk : st.key = key
    · subst hk
      have hl : rest.find? (·.key == st.key) = none := by
        rw [find?_eq_none]
        intro later hl
        have ha := (declareSettings_apart h).1 later hl st.key
          (mem_append_right _ (mem_singleton_self _))
        simpa using ha.ne.symm
      have hf : (st :: rest).find? (·.key == st.key) = some st :=
        find?_cons_of_pos (beq_self_eq_true st.key)
      rw [hl, hf, bind_some]
      cases st.default <;> simp
    · have ho : (st.default.elim vs (vs.insert st.key))[key]? = vs[key]? := by
        cases st.default with
        | none => rfl
        | some default =>
          rw [elim_some, Std.ExtTreeMap.getElem?_insert, if_neg]
          exact fun hs => hk (compare_eq_iff_eq.1 hs)
      rw [find?_cons_of_neg (by simpa using hk), ho]

end

end

section

variable {layer : String} {sch : List (PluginSettingSchema F)} {applies : String → Bool}
  {es : List (String × Value F)} {vs next : Settings F}

theorem overlaySettings_checked (h : overlaySettings layer sch applies es vs = .ok next) :
    ∀ entry ∈ es, ∃ setting, sch.find? (·.key == entry.1) = some setting ∧
      validateSettingValue setting entry.2 = .ok () := by
  induction es generalizing vs with
  | nil => exact fun _ hm => absurd hm not_mem_nil
  | cons entry rest ih =>
    rw [overlaySettings] at h
    split at h
    · cases h
    · next setting hs =>
      obtain ⟨hv, h⟩ := then_ok_iff.1 h
      exact forall_mem_cons.2 ⟨⟨setting, hs, hv⟩, ih h⟩

variable {key : String}

theorem overlaySettings_cons
    (h : overlaySettings layer sch applies ((key, v) :: es) vs = .ok next) :
    overlaySettings layer sch applies es
      (if applies key then vs.insert key v else vs) = .ok next := by
  rw [overlaySettings] at h
  split at h
  · cases h
  · exact (then_ok_iff.1 h).2

theorem overlaySettings_getElem?_of_not_mem (h : overlaySettings layer sch applies es vs = .ok next)
    (hk : key ∉ es.map Prod.fst) : next[key]? = vs[key]? := by
  induction es generalizing vs with
  | nil =>
    cases h
    rfl
  | cons entry rest ih =>
    obtain ⟨hf, hr⟩ := not_or.1 (mem_cons.not.1 (map_cons ▸ hk))
    rw [ih (overlaySettings_cons h) hr]
    split
    · rw [Std.ExtTreeMap.getElem?_insert, if_neg]
      exact fun hs => hf (compare_eq_iff_eq.1 hs).symm
    · rfl

theorem overlaySettings_getElem?_of_mem (h : overlaySettings layer sch applies es vs = .ok next)
    (hn : (es.map Prod.fst).Nodup) (he : (key, v) ∈ es) :
    next[key]? = if applies key then some v else vs[key]? := by
  induction es generalizing vs with
  | nil => exact absurd he not_mem_nil
  | cons entry rest ih =>
    obtain ⟨hnw, hr⟩ := nodup_cons.1 (map_cons ▸ hn)
    have hl := overlaySettings_cons h
    rcases mem_cons.1 he with rfl | he
    · rw [overlaySettings_getElem?_of_not_mem hl hnw]
      split
      · exact getElem?_insert_self
      · rfl
    · rw [ih hl hr he]
      have hne : entry.1 ≠ key := fun hs => hnw (hs ▸ mem_map_of_mem he)
      split
      · rfl
      · split
        · rw [Std.ExtTreeMap.getElem?_insert, if_neg]
          exact fun hs => hne (compare_eq_iff_eq.1 hs)
        · rfl

section

variable {layerValues : Settings F}
  (h : overlaySettings layer sch applies layerValues.toList vs = .ok next)

include h

theorem overlaySettings_valid (hv : layerValues[key]? = some v) :
    ∃ setting, sch.find? (·.key == key) = some setting ∧ validateSettingValue setting v = .ok () :=
  overlaySettings_checked h _ (mem_toList_iff_getElem?_eq_some.2 hv)

theorem overlaySettings_undeclared (hk : sch.find? (·.key == key) = none) :
    layerValues[key]? = none := by
  rw [eq_none_iff_forall_ne_some]
  intro v hv
  obtain ⟨setting, hs, -⟩ := overlaySettings_valid h hv
  rw [hk] at hs
  cases hs

theorem overlaySettings_getElem? :
    next[key]? = (if applies key then layerValues[key]? else none).or vs[key]? := by
  have hk : layerValues.toList.map Prod.fst = layerValues.keys := map_fst_toList_eq_keys
  cases hv : layerValues[key]? with
  | none =>
    have hno : key ∉ layerValues.toList.map Prod.fst := by simpa using hv
    rw [overlaySettings_getElem?_of_not_mem h hno]
    simp
  | some v =>
    have hn : (layerValues.toList.map Prod.fst).Nodup := by
      rw [hk]
      exact nodup_keys
    have he := mem_toList_iff_getElem?_eq_some.2 hv
    rw [overlaySettings_getElem?_of_mem h hn he]
    split <;> simp

end

end

/-- The value a declared key resolves to: the managed one unless the key is locked, else the
global one, else the default. -/
def resolved (schema : List (PluginSettingSchema F)) (locks : List String)
    (global managed : Settings F) (key : String) : Option (Value F) :=
  (schema.find? (·.key == key)).bind fun setting =>
    ((if Locked locks key then none else managed[key]?).or global[key]?).or setting.default

section

variable {schema : List (PluginSettingSchema F)} {locks : List String}
  {global managed merged : Table F}

theorem mergePluginSettings_values
    (h : mergePluginSettings global managed locks schema = .ok merged) :
    ∃ globalValues managedValues values : Settings F,
      flattenSettings none global ∅ = .ok globalValues ∧
      flattenSettings none managed ∅ = .ok managedValues ∧
      (∀ key, values[key]? = resolved schema locks globalValues managedValues key) ∧
      (∀ entry ∈ values.toList, isTable entry.2 = false) ∧
      nestSettings values.toList .nil = .ok merged := by
  simp only [mergePluginSettings, bind_ok_iff] at h
  obtain ⟨defaults, hd, globalValues, hgl, overGlobal, ho, managedValues,
    hma, values, hva, -, -, hme⟩ := h
  have hr : ∀ key : String,
      values[key]? = resolved schema locks globalValues managedValues key := by
    intro key
    rw [overlaySettings_getElem? hva, overlaySettings_getElem? ho,
      declareSettings_getElem? hd, resolved]
    have hl : (!daemonSettingLocked locks key) = true ↔ ¬ Locked locks key := by
      rw [← daemonSettingLocked_iff]
      simp
    cases hk : schema.find? (·.key == key) with
    | none =>
      rw [overlaySettings_undeclared ho hk, overlaySettings_undeclared hva hk]
      simp
    | some setting =>
      simp only [hl, ite_not]
      simp [Option.or_assoc]
  refine ⟨globalValues, managedValues, values, hgl, hma, hr, ?_, hme⟩
  rintro ⟨key, v⟩ he
  have hv := mem_toList_iff_getElem?_eq_some.1 he
  rw [hr] at hv
  obtain ⟨setting, hs, hv⟩ := bind_eq_some_iff.1 hv
  rcases or_eq_some_iff.1 hv with hla | ⟨-, hde⟩
  · rcases or_eq_some_iff.1 hla with hm | ⟨-, hg⟩
    · obtain ⟨-, hm⟩ := ite_none_left_eq_some.1 hm
      obtain ⟨_, -, hvl⟩ := overlaySettings_valid hva hm
      exact isTable_of_valid hvl
    · obtain ⟨_, -, hvl⟩ := overlaySettings_valid ho hg
      exact isTable_of_valid hvl
  · exact isTable_of_valid (declareSettings_defaults hd setting (mem_of_find?_eq_some hs) v hde)

omit [FloatFormat F] in
theorem settings_ext {first second : Settings F} (h : ∀ key : String, first[key]? = second[key]?) :
    first = second := ext_getElem? h

theorem mergePluginSettings_flattened
    (h : mergePluginSettings global managed locks schema = .ok merged) :
    ∃ globalValues managedValues values : Settings F,
      flattenSettings none global ∅ = .ok globalValues ∧
      flattenSettings none managed ∅ = .ok managedValues ∧
      flattenSettings none merged ∅ = .ok values ∧
      (∀ key, values[key]? = resolved schema locks globalValues managedValues key) ∧
      nestSettings values.toList .nil = .ok merged := by
  obtain ⟨globalValues, managedValues, values, hg, hm, hr, hs, hn⟩ := mergePluginSettings_values h
  have hni : (Table.nil : Table F).WellFormed := trivial
  have hw : merged.WellFormed := nestSettings_wellFormed hs hni hn
  obtain ⟨flat, hf, hl⟩ := flattenSettings_of_wellFormed hw
  have hsa : flat = values := by
    apply settings_ext
    intro key
    ext value
    rw [hl, nestSettings_leaf hs hn, mem_toList_iff_getElem?_eq_some]
    simp
  exact ⟨globalValues, managedValues, values, hg, hm, hsa ▸ hf, hr, hn⟩
omit [FloatFormat F] in
theorem resolved_congr (h : ∀ key : String, ¬ Locked locks key → first[key]? = second[key]?)
    (key : String) : resolved schema locks globalValues first key =
      resolved schema locks globalValues second key := by
  rw [resolved, resolved]
  by_cases hl : Locked locks key
  · simp only [if_pos hl]
  · simp only [if_neg hl, h key hl]

/-- Merging gives each declared key the value it resolves to and nothing else, and depends on
the managed table only where keys are not locked. -/
theorem merged_settings_resolve (h : mergePluginSettings global managed locks schema = .ok merged) :
    (∃ globalValues managedValues values : Settings F,
      flattenSettings none global ∅ = .ok globalValues ∧
      flattenSettings none managed ∅ = .ok managedValues ∧
      flattenSettings none merged ∅ = .ok values ∧
      ∀ key, values[key]? = resolved schema locks globalValues managedValues key) ∧
    ∀ (other merged' : Table F) (managedValues otherValues : Settings F),
      mergePluginSettings global other locks schema = .ok merged' →
      flattenSettings none managed ∅ = .ok managedValues →
      flattenSettings none other ∅ = .ok otherValues →
      (∀ key : String, ¬ Locked locks key → managedValues[key]? = otherValues[key]?) →
      merged' = merged := by
  obtain ⟨globalValues, managedValues, values, hg, hm, hv, hr, hn⟩ :=
    mergePluginSettings_flattened h
  refine ⟨⟨globalValues, managedValues, values, hg, hm, hv, hr⟩, ?_⟩
  intro other merged' managedValues' otherValues h' hm' ho ha
  cases hm.symm.trans hm'
  obtain ⟨globalValues', otherValues', values', hg', ho', -, hr', hn'⟩ :=
    mergePluginSettings_flattened h'
  cases hg.symm.trans hg'
  cases ho.symm.trans ho'
  have hs : values = values' := by
    apply settings_ext
    intro key
    rw [hr, hr', resolved_congr ha]
  exact Except.ok.inj (hn'.symm.trans (hs ▸ hn))

end

namespace Sample

instance noFloats : FloatFormat Unit where
  ofInt _ := ()
  le _ _ := true
  isFinite _ := true

def schema : List (PluginSettingSchema Unit) :=
  [{ key := "lamp.speed", kind := .integer, default := some (.integer 1) },
    { key := "lamp.name", kind := .string }]

def lamp (entries : Table Unit) : Table Unit := .cons "lamp" (.table entries) .nil

def global : Table Unit := lamp (.cons "name" (.string "desk") .nil)

def managed : Table Unit := lamp (.cons "name" (.string "shelf") (.cons "speed" (.integer 3) .nil))

def merged : Table Unit := lamp (.cons "name" (.string "desk") (.cons "speed" (.integer 3) .nil))

end Sample

open Sample in
/-- The name is locked, the speed is managed. -/
theorem lamp_settings_resolve :
    mergePluginSettings global managed ["lamp.name"] schema = .ok merged ∧
      ∃ values : Settings Unit, flattenSettings none merged ∅ = .ok values ∧
        values["lamp.name"]? = some (.string "desk") ∧
        values["lamp.speed"]? = some (.integer 3) := by
  have hm : mergePluginSettings global managed ["lamp.name"] schema = .ok merged := by rfl
  obtain ⟨⟨globalValues, managedValues, values, hg, hma, hv, hr⟩, -⟩ := merged_settings_resolve hm
  cases hg
  cases hma
  exact ⟨hm, values, hv, hr "lamp.name", hr "lamp.speed"⟩

end SettingsResolution
