import Luminate.NormalizedDevices
import Luminate.Segments

/-! # Target identifiers on D-Bus

`luminate-dbus/src/path.rs`: methods take targets as slash-joined identifiers, which are
split again when a client sends one. -/
namespace CanonicalIds

open Checks DeviceModel Normalization NormalizedDevices Segments TargetTopology Option List

def canonicalId : TargetId → String
  | .device device => "device:" ++ device
  | .surface device surface => "device:" ++ device ++ "/surface:" ++ surface
  | .group device group => "device:" ++ device ++ "/group:" ++ group
  | .element device surface element =>
    "device:" ++ device ++ "/surface:" ++ surface ++ "/element:" ++ element

/-- The only variant of `MethodError` that parsing returns. -/
inductive MethodError where
  | invalidArgument (message : String)
  deriving DecidableEq

/-- `debug` is the `{:?}` rendering of a text. -/
def componentValue (debug : String → String) (value kind : String) : Except MethodError String :=
  match ((stripStart value kind).bind (stripStart · ":")).filter (· != "") with
  | some id => .ok id
  | none => .error (.invalidArgument ("invalid " ++ kind ++ " target component " ++ debug value))

def parseCanonicalId (debug : String → String) (value : String) : Except MethodError TargetId :=
  match segments '/' value with
  | [device] => do
    let device ← componentValue debug device "device"
    .ok (.device device)
  | [device, second] =>
    if startsWith second "group:" then do
      let device ← componentValue debug device "device"
      let group ← componentValue debug second "group"
      .ok (.group device group)
    else do
      let device ← componentValue debug device "device"
      let surface ← componentValue debug second "surface"
      .ok (.surface device surface)
  | [device, surface, element] => do
    let device ← componentValue debug device "device"
    let surface ← componentValue debug surface "surface"
    let element ← componentValue debug element "element"
    .ok (.element device surface element)
  | _ => .error (.invalidArgument ("invalid canonical target identifier " ++ debug value))

def identifiers : TargetId → List String
  | .device device => [device]
  | .surface device surface => [device, surface]
  | .group device group => [device, group]
  | .element device surface element => [device, surface, element]

def components : TargetId → List String
  | .device device => ["device:" ++ device]
  | .surface device surface => ["device:" ++ device, "surface:" ++ surface]
  | .group device group => ["device:" ++ device, "group:" ++ group]
  | .element device surface element =>
    ["device:" ++ device, "surface:" ++ surface, "element:" ++ element]

variable {debug : String → String}

variable {value : String} {target : TargetId}

theorem componentValue_ok_iff {kind id : String} :
    componentValue debug value kind = .ok id ↔ value = kind ++ ":" ++ id ∧ id ≠ "" := by
  have hs : ((stripStart value kind).bind (stripStart · ":")).filter (· != "") = some id ↔
      value = kind ++ ":" ++ id ∧ id ≠ "" := by
    rw [filter_eq_some_iff, bind_eq_some_iff]
    simp only [stripStart_eq_some, bne_iff_ne, String.append_assoc]
    constructor
    · rintro ⟨⟨rest, hv, rfl⟩, hid⟩
      exact ⟨hv, hid⟩
    · rintro ⟨hv, hid⟩
      exact ⟨⟨_, hv, rfl⟩, hid⟩
  rw [← hs, componentValue]
  cases ((stripStart value kind).bind (stripStart · ":")).filter (· != "") with
  | none => simp
  | some fd => simp

theorem bind_componentValue : componentValue debug value kind >>= f = .ok target ↔
      ∃ id, value = kind ++ ":" ++ id ∧ id ≠ "" ∧ f id = .ok target := by
  simp only [bind_ok_iff, componentValue_ok_iff, and_assoc]

theorem parseCanonicalId_ok_iff : parseCanonicalId debug value = .ok target ↔
      segments '/' value = components target ∧ ∀ id ∈ identifiers target, id ≠ "" := by
  constructor
  · intro h
    rw [parseCanonicalId] at h
    split at h
    · next hp =>
      obtain ⟨d, rfl, hd, h⟩ := bind_componentValue.1 h
      cases h
      exact ⟨hp, by simpa [identifiers] using hd⟩
    · next hp =>
      split at h
      · obtain ⟨d, rfl, hd, h⟩ := bind_componentValue.1 h
        obtain ⟨g, rfl, hg, h⟩ := bind_componentValue.1 h
        cases h
        exact ⟨hp, by simpa [identifiers] using And.intro hd hg⟩
      · obtain ⟨d, rfl, hd, h⟩ := bind_componentValue.1 h
        obtain ⟨surf, rfl, hs, h⟩ := bind_componentValue.1 h
        cases h
        exact ⟨hp, by simpa [identifiers] using And.intro hd hs⟩
    · next hp =>
      obtain ⟨d, rfl, hd, h⟩ := bind_componentValue.1 h
      obtain ⟨surf, rfl, hs, h⟩ := bind_componentValue.1 h
      obtain ⟨el, rfl, he, h⟩ := bind_componentValue.1 h
      cases h
      exact ⟨hp, by simpa [identifiers] using ⟨hd, hs, he⟩⟩
    · cases h
  · rintro ⟨hp, hn⟩
    rw [parseCanonicalId, hp]
    cases target with
    | device d => exact bind_componentValue.2 ⟨d, rfl, by simpa [identifiers] using hn, rfl⟩
    | surface d surf =>
      obtain ⟨hd, hs⟩ : d ≠ "" ∧ surf ≠ "" := by simpa [identifiers] using hn
      have ho : startsWith ("surface:" ++ surf) "group:" = false := by simp [startsWith, isPrefixOf]
      simp only [components, ho]
      refine bind_componentValue.2 ⟨d, rfl, hd, ?_⟩
      exact bind_componentValue.2 ⟨surf, rfl, hs, rfl⟩
    | element d surf el =>
      obtain ⟨hd, hs, he⟩ : d ≠ "" ∧ surf ≠ "" ∧ el ≠ "" := by simpa [identifiers] using hn
      refine bind_componentValue.2 ⟨d, rfl, hd, ?_⟩
      refine bind_componentValue.2 ⟨surf, rfl, hs, ?_⟩
      exact bind_componentValue.2 ⟨el, rfl, he, rfl⟩
    | group d g =>
      obtain ⟨hd, hn⟩ : d ≠ "" ∧ g ≠ "" := by simpa [identifiers] using hn
      have hg : startsWith ("group:" ++ g) "group:" = true := startsWith_iff.2 ⟨_, rfl⟩
      simp only [components, hg]
      refine bind_componentValue.2 ⟨d, rfl, hd, ?_⟩
      exact bind_componentValue.2 ⟨g, rfl, hn, rfl⟩

theorem segments_canonicalId :
    segments '/' (canonicalId target) = (components target).flatMap (segments '/') := by
  cases target with
  | device d => exact (append_nil _).symm
  | surface d surf =>
    have hs : segments '/' (canonicalId (.surface d surf)) =
        segments '/' ("device:" ++ d) ++ segments '/' ("surface:" ++ surf) :=
      segments_join (by simp [canonicalId])
    simpa [components] using hs
  | group d g =>
    have hg : segments '/' (canonicalId (.group d g)) =
        segments '/' ("device:" ++ d) ++ segments '/' ("group:" ++ g) :=
      segments_join (by simp [canonicalId])
    simpa [components] using hg
  | element d surf el =>
    have he : segments '/' (canonicalId (.element d surf el)) =
        segments '/' (canonicalId (.surface d surf)) ++ segments '/' ("element:" ++ el) :=
      segments_join (by simp [canonicalId])
    have hs : segments '/' (canonicalId (.surface d surf)) =
        segments '/' ("device:" ++ d) ++ segments '/' ("surface:" ++ surf) :=
      segments_join (by simp [canonicalId])
    rw [hs] at he
    simpa [components] using he

theorem canonicalId_of_parsed (h : parseCanonicalId debug value = .ok target) :
    canonicalId target = value := by
  obtain ⟨hv, -⟩ := parseCanonicalId_ok_iff.1 h
  have hp : segments '/' (canonicalId target) = segments '/' value := by
    rw [segments_canonicalId, ← hv]
    exact flatMap_segments fun part hpa => not_mem_of_mem_segments hpa
  exact segments_inj.1 hp

theorem segments_canonicalId_iff : segments '/' (canonicalId target) = components target ↔
      ∀ id ∈ identifiers target, '/' ∉ id.toList := by
  have hp : (∀ part ∈ components target, '/' ∉ part.toList) ↔
      ∀ id ∈ identifiers target, '/' ∉ id.toList := by
    cases target <;> simp [components, identifiers]
  rw [← hp]
  constructor
  · intro h part hpa
    exact not_mem_of_mem_segments (h ▸ hpa)
  · intro h
    rw [segments_canonicalId, flatMap_segments h]

theorem found_named {α : Type} {key : α → String} {is : List α} {id : String} {it : α}
    (h : Distinct (is.map key)) (hf : is.find? (key · == id) = some it) : it ∈ is ∧ id ≠ "" := by
  have hm := mem_of_find?_eq_some hf
  have hs := find?_some hf
  have hid : key it = id := by simpa using hs
  exact ⟨hm, hid ▸ h.named _ (mem_map_of_mem hm)⟩

theorem identifiers_named {descs : List DeviceDescriptor} {ds : List Device}
    (h : normalizeDevices descs = .ok ds)
    (ht : (capabilitiesForTarget (fromDevices ds) target).isSome = true) :
    ∀ id ∈ identifiers target, id ≠ "" := by
  obtain ⟨hno, -, hi, hm⟩ := normalizeFrom_ok h
  have hd : ∀ {id d}, findDevice (fromDevices ds) id = some d → id ≠ "" ∧ Normalized d := by
    intro id d hf
    obtain ⟨hl, rfl⟩ := (fromDevices_getElem? (hi ▸ hno)).1 hf
    obtain ⟨desc, -, hn⟩ := (hm d).1 hl
    have hn := normalizeDevice_normalized hn
    exact ⟨hn.named, hn⟩
  obtain ⟨caps, hf⟩ := isSome_iff_exists.1 ht
  cases target with
  | device d =>
    obtain ⟨_, hf, -⟩ := map_eq_some_iff.1 hf
    simpa [identifiers] using (hd hf).1
  | surface d surf =>
    obtain ⟨_, hf, -⟩ := map_eq_some_iff.1 hf
    obtain ⟨_, hf, hs⟩ := bind_eq_some_iff.1 hf
    obtain ⟨hna, hn⟩ := hd hf
    have hn' := (found_named hn.surfaces hs).2
    simpa [identifiers] using And.intro hna hn'
  | element d surf el =>
    obtain ⟨_, hf, -⟩ := map_eq_some_iff.1 hf
    obtain ⟨_, hf, he⟩ := bind_eq_some_iff.1 hf
    obtain ⟨_, hf, hs⟩ := bind_eq_some_iff.1 hf
    obtain ⟨hna, hn⟩ := hd hf
    obtain ⟨hl, hn'⟩ := found_named hn.surfaces hs
    have hn'' := (found_named (hn.elements _ hl) he).2
    simpa [identifiers] using And.intro hna (And.intro hn' hn'')
  | group d g =>
    obtain ⟨_, hf, -⟩ := map_eq_some_iff.1 hf
    obtain ⟨_, hf, hg⟩ := bind_eq_some_iff.1 hf
    obtain ⟨hna, hn⟩ := hd hf
    have hn' := (found_named hn.groups hg).2
    simpa [identifiers] using And.intro hna hn'

/-- Where the topology is accepted, an identifier finds its target again exactly where no
identifier of the target contains the separator; and only the identifier of a target is
parsed as that target. -/
theorem canonical_ids_round_trip {descriptors : List DeviceDescriptor} {devices : List Device}
    (h : normalizeDevices descriptors = .ok devices) :
    (∀ target, (capabilitiesForTarget (fromDevices devices) target).isSome = true →
      (parseCanonicalId debug (canonicalId target) = .ok target ↔
        ∀ id ∈ identifiers target, '/' ∉ id.toList)) ∧
    ∀ value target, parseCanonicalId debug value = .ok target → canonicalId target = value := by
  refine ⟨fun target ht => ?_, fun value target => canonicalId_of_parsed⟩
  rw [parseCanonicalId_ok_iff, segments_canonicalId_iff]
  exact and_iff_left (identifiers_named h ht)

namespace Sample

def keyboard : DeviceDescriptor :=
  { id := "keyboard", name := "Keyboard", surfaces := [{ id := "keys", name := "Keys" }] }

/-- A lamp whose identifier reads like a surface of the keyboard. -/
def lamp : DeviceDescriptor := { id := "keyboard/surface:keys", name := "Lamp" }

def keys : Surface := ⟨"keys", [], {}⟩

end Sample

theorem keyboard_surface_round_trips :
    normalizeDevices [Sample.keyboard] = .ok [⟨"keyboard", [Sample.keys], [], {}⟩] ∧
      parseCanonicalId id (canonicalId (.surface "keyboard" "keys")) =
        .ok (.surface "keyboard" "keys") := by
  have ha : normalizeDevices [Sample.keyboard] =
      .ok [⟨"keyboard", [Sample.keys], [], {}⟩] := by decide +kernel
  refine ⟨ha, ((canonical_ids_round_trip ha).1 _ ?_).2 ?_⟩
  · rfl
  · decide

/-- The identifier of the lamp addresses the keyboard. -/
theorem Counterexample.identifier_of_another_target :
    ∃ devices, normalizeDevices [Sample.keyboard, Sample.lamp] = .ok devices ∧
      (capabilitiesForTarget (fromDevices devices) (.device Sample.lamp.id)).isSome = true ∧
      (capabilitiesForTarget (fromDevices devices) (.surface "keyboard" "keys")).isSome = true ∧
      parseCanonicalId id (canonicalId (.device Sample.lamp.id)) =
        .ok (.surface "keyboard" "keys") := by
  refine ⟨[⟨"keyboard", [Sample.keys], [], {}⟩, ⟨Sample.lamp.id, [], [], {}⟩], ?_, rfl, rfl, ?_⟩
  · decide +kernel
  · decide +kernel

end CanonicalIds
