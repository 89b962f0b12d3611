import Luminate.CanonicalIds
import Luminate.ShmRegistries

/-! # Keys of shared-memory streams

Both registries find a stream under the rendering of its target, and the names of its
iceoryx2 services are derived from the same text (`luminate-host-supervisor/src/shm.rs`). -/
namespace StreamKeys

open CanonicalIds DeviceModel Normalization Segments ShmRegistries TargetTopology

/-- Bytes that `escape_into` passes through. -/
def passes (byte : UInt8) : Bool :=
  ('A'.toNat ≤ byte.toNat && byte.toNat ≤ 'Z'.toNat) ||
    ('a'.toNat ≤ byte.toNat && byte.toNat ≤ 'z'.toNat) ||
    ('0'.toNat ≤ byte.toNat && byte.toNat ≤ '9'.toNat) ||
    byte.toNat == '-'.toNat || byte.toNat == '_'.toNat || byte.toNat == '.'.toNat

def hexDigit (digit : ℕ) : Char :=
  Char.ofNat (if digit < 10 then '0'.toNat + digit else 'A'.toNat + (digit - 10))

def escapeByte (byte : UInt8) : List Char :=
  if passes byte then [Char.ofNat byte.toNat]
  else ['%', hexDigit (byte.toNat / 16), hexDigit (byte.toNat % 16)]

/-- What `escape_into` appends for `raw`. -/
def escape (raw : String) : String := String.ofList (raw.toByteArray.data.toList.flatMap escapeByte)

structure ShmServiceNames where
  publishSubscribe : String
  event : String
  deriving DecidableEq

/-- `ServiceName::new` of iceoryx2. Which texts it takes is its own matter; a name that
it makes is the text it was given. -/
structure ServiceName where
  Error : Type
  new : String → Except Error String
  accepted : ∀ {text name}, new text = .ok name → name = text

def namesFromBase (service : ServiceName) (base : String) :
    Except service.Error ShmServiceNames := do
  let publishSubscribe ← service.new base
  let event ← service.new (base ++ "/notify")
  .ok ⟨publishSubscribe, event⟩

def serviceNames (service : ServiceName) (pluginName targetPath : String) :
    Except service.Error ShmServiceNames :=
  namesFromBase service
    ("luminate/shm-frame/v1" ++ "/" ++ escape pluginName ++ "/" ++ escape targetPath)

def clientServiceNames (service : ServiceName) (targetPath : String) :
    Except service.Error ShmServiceNames :=
  namesFromBase service ("luminate/shm-client-frame/v1" ++ "/" ++ escape targetPath)

theorem passes_char (h : passes byte = true) :
    Char.ofNat byte.toNat ≠ '%' ∧ Char.ofNat byte.toNat ≠ '/' := by
  have hb : ∀ n < 256, passes (UInt8.ofNat n) = true →
      Char.ofNat n ≠ '%' ∧ Char.ofNat n ≠ '/' := by decide +kernel
  exact hb byte.toNat byte.toNat_lt (by rwa [UInt8.ofNat_toNat])

theorem hexDigit_inj : ∀ m < 16, ∀ n < 16, hexDigit m = hexDigit n → m = n := by decide +kernel

theorem hexDigit_ne : ∀ n < 16, hexDigit n ≠ '/' := by decide +kernel

theorem charOfByte_inj {a b : UInt8} (h : Char.ofNat a.toNat = Char.ofNat b.toNat) : a = b := by
  have hv : ∀ n < 256, (Char.ofNat n).toNat = n := by decide +kernel
  have hs : a.toNat = b.toNat := by rw [← hv _ a.toNat_lt, h, hv _ b.toNat_lt]
  exact UInt8.toNat_inj.1 hs

theorem escapeByte_ne_nil (byte : UInt8) : escapeByte byte ≠ [] := by
  rw [escapeByte]
  split
  · exact List.cons_ne_nil _ _
  · exact List.cons_ne_nil _ _

theorem escapeByte_inj (h : escapeByte a ++ rest = escapeByte b ++ rest') : a = b := by
  rw [escapeByte, escapeByte] at h
  by_cases ha : passes a = true
  · by_cases hb : passes b = true
    · rw [if_pos ha, if_pos hb] at h
      exact charOfByte_inj (List.cons.inj h).1
    · rw [if_pos ha, if_neg hb] at h
      exact absurd (List.cons.inj h).1 (passes_char ha).1
  · by_cases hb : passes b = true
    · rw [if_neg ha, if_pos hb] at h
      exact absurd (List.cons.inj h).1.symm (passes_char hb).1
    · rw [if_neg ha, if_neg hb] at h
      obtain ⟨hh, h⟩ := List.cons.inj (List.cons.inj h).2
      have hl := (List.cons.inj h).1
      have hlt := a.toNat_lt
      have hlt' := b.toNat_lt
      have hh := hexDigit_inj _ (by omega) _ (by omega) hh
      have hl := hexDigit_inj _ (by omega) _ (by omega) hl
      exact UInt8.toNat_inj.1 (by omega)

theorem escape_inj (h : escape raw = escape other) : raw = other := by
  have hb := flatMap_inj escapeByte_ne_nil escapeByte_inj (String.ofList_inj.1 h)
  apply String.toByteArray_inj.1
  exact ByteArray.ext (Array.toList_inj.1 hb)

theorem not_mem_escapeByte : '/' ∉ escapeByte byte := by
  have hlt := byte.toNat_lt
  rw [escapeByte]
  split
  · next h =>
    rw [List.mem_singleton]
    exact (passes_char h).2.symm
  · have hh := hexDigit_ne (byte.toNat / 16) (by omega)
    have hl := hexDigit_ne (byte.toNat % 16) (by omega)
    simp [hh.symm, hl.symm]

theorem not_mem_escape : '/' ∉ (escape raw).toList := by
  intro h
  rw [escape, String.toList_ofList] at h
  obtain ⟨byte, -, h⟩ := List.mem_flatMap.1 h
  exact not_mem_escapeByte h

/-- The leg from the daemon to the host of a plugin, and the leg from a client. -/
inductive Leg where
  | host (pluginName : String)
  | client
  deriving DecidableEq

def Leg.serviceNames (service : ServiceName) (key : String) :
    Leg → Except service.Error ShmServiceNames
  | .host pluginName => StreamKeys.serviceNames service pluginName key
  | .client => clientServiceNames service key

def ShmServiceNames.all (names : ShmServiceNames) : List String :=
  [names.publishSubscribe, names.event]

def Leg.path (key : String) : Leg → List String
  | .host pluginName => ["luminate", "shm-frame", "v1", escape pluginName, escape key]
  | .client => ["luminate", "shm-client-frame", "v1", escape key]

variable {service : ServiceName} {names : ShmServiceNames} {key : String} {leg : Leg}
  {target : TargetId}

theorem namesFromBase_ok (h : namesFromBase service base = .ok names) :
    names = ⟨base, base ++ "/notify"⟩ := by
  obtain ⟨publishSubscribe, hp, h⟩ := Checks.bind_ok_iff.1 h
  obtain ⟨event, he, h⟩ := Checks.bind_ok_iff.1 h
  cases h
  rw [service.accepted hp, service.accepted he]

theorem segments_slash :
    segments '/' (pre ++ "/" ++ after) = segments '/' pre ++ segments '/' after :=
  segments_join (by simp)

theorem serviceNames_path (h : leg.serviceNames service key = .ok names) :
    segments '/' names.publishSubscribe = leg.path key ∧
      segments '/' names.event = leg.path key ++ ["notify"] := by
  have he : ∀ base, segments '/' (base ++ "/notify") = segments '/' base ++ ["notify"] := by
    intro base
    have hj : segments '/' (base ++ "/notify") = segments '/' base ++ segments '/' "notify" :=
      segments_join (by simp)
    exact hj
  cases leg with
  | host pluginName =>
    obtain rfl := namesFromBase_ok h
    have hb : segments '/' ("luminate/shm-frame/v1" ++ "/" ++ escape pluginName ++ "/" ++
        escape key) = (Leg.host pluginName).path key := by
      rw [segments_slash, segments_slash, segments_of_not_mem not_mem_escape,
        segments_of_not_mem not_mem_escape]
      rfl
    exact ⟨hb, by rw [he, hb]⟩
  | client =>
    obtain rfl := namesFromBase_ok h
    have hb : segments '/' ("luminate/shm-client-frame/v1" ++ "/" ++ escape key) =
        Leg.client.path key := by
      rw [segments_slash, segments_of_not_mem not_mem_escape]
      rfl
    exact ⟨hb, by rw [he, hb]⟩

theorem Leg.path_inj {leg' : Leg} (ht : tail = [] ∨ tail = ["notify"])
    (ht' : tail' = [] ∨ tail' = ["notify"]) (h : leg.path key ++ tail = leg'.path key' ++ tail') :
    key = key' := by
  apply escape_inj
  cases leg <;> cases leg' <;> rcases ht with rfl | rfl <;> rcases ht' with rfl | rfl <;>
    simp_all [Leg.path]

theorem key_of_service {leg' : Leg} (h : leg.serviceNames service key = .ok names)
    (h' : leg'.serviceNames service key' = .ok names') (hn : name ∈ names.all)
    (hn' : name ∈ names'.all) : key = key' := by
  have hpa : ∀ {key leg names}, Leg.serviceNames service key leg = .ok names → name ∈ names.all →
      ∃ tail, (tail = [] ∨ tail = ["notify"]) ∧ segments '/' name = leg.path key ++ tail := by
    intro key leg names h hn
    obtain ⟨hp, he⟩ := serviceNames_path h
    rcases List.mem_cons.1 hn with rfl | hn
    · exact ⟨[], .inl rfl, by rw [hp, List.append_nil]⟩
    · obtain rfl := List.mem_singleton.1 hn
      exact ⟨["notify"], .inr rfl, he⟩
  obtain ⟨tail, ht, hs⟩ := hpa h hn
  obtain ⟨tail', ht', hs'⟩ := hpa h' hn'
  exact Leg.path_inj ht ht' (hs.symm.trans hs')

/-- The identifiers of a target cut at every slash, a group's with its marker. -/
def pathSegments : TargetId → List String
  | .device device => segments '/' device
  | .surface device surface => segments '/' device ++ segments '/' surface
  | .element device surface element =>
    segments '/' device ++ segments '/' surface ++ segments '/' element
  | .group device group => segments '/' device ++ segments '/' ("group:" ++ group)

theorem segments_streamKey : segments '/' (streamKey target) = pathSegments target := by
  cases target with
  | device d => rfl
  | surface d surf => exact segments_slash
  | element d surf el =>
    rw [streamKey, segments_slash, segments_slash]
    rfl
  | group d g => exact segments_join (by simp [streamKey])

/-- Whatever a registry does for `target` leaves the entry of `other` as it is, and no
service of the one has the name of a service of the other. -/
structure Separate (target other : TargetId) : Prop where
  key : streamKey target ≠ streamKey other
  inserted : ∀ {Entry : Type} (streams : Registry Entry) (entry : Entry),
    streams.insert target entry (streamKey other) = streams (streamKey other)
  forced : ∀ {Entry : Type} (streams : Registry Entry),
    streams.forceEnd target (streamKey other) = streams (streamKey other)
  ended : ∀ (streams : ShmPublisherRegistry) (generation : ℕ),
    streams.endStream target generation (streamKey other) = streams (streamKey other)
  endedByClient : ∀ (streams : ShmClientSubscriberRegistry) (generation : ℕ),
    streams.endStream target generation (streamKey other) = streams (streamKey other)
  fed : ∀ (streams : ShmPublisherRegistry) (generation connectionEpoch : ℕ),
    streams.apply target generation connectionEpoch (streamKey other) = streams (streamKey other)
  services : ∀ {service : ServiceName} {leg leg' : Leg} {names names' : ShmServiceNames},
    leg.serviceNames service (streamKey target) = .ok names →
      leg'.serviceNames service (streamKey other) = .ok names' →
        ∀ name ∈ names.all, name ∉ names'.all

theorem separate_of_key {other : TargetId} (h : streamKey target ≠ streamKey other) :
    Separate target other := by
  have hf : ∀ {Entry : Type} (streams : Registry Entry),
      streams.forceEnd target (streamKey other) = streams (streamKey other) :=
    fun streams => Function.update_of_ne h.symm _ _
  have he : ∀ {Entry : Type} (streams : Registry Entry) (ends : Entry → Bool),
      streams.endIf target ends (streamKey other) = streams (streamKey other) := by
    intro Entry streams ends
    rw [Registry.endIf]
    split
    · exact hf streams
    · rfl
  exact
    { key := h
      inserted := fun streams entry => Function.update_of_ne h.symm _ _
      forced := hf
      ended := fun streams generation => he streams _
      endedByClient := fun streams generation => he streams _
      fed := fun streams generation connectionEpoch => he streams _
      services := fun hn hn' name hna hna' =>
        h (key_of_service hn hn' hna hna') }

/-- No identifier contains a slash, and no surface is named like a group. -/
structure Plain (target : TargetId) : Prop where
  unslashed : ∀ id ∈ identifiers target, '/' ∉ id.toList
  unmarked : ∀ surface ∈ target.surfaceOf, startsWith surface "group:" = false

/-- The pieces of a target with plain identifiers are the identifiers themselves. -/
theorem Plain.pathSegments_eq (h : Plain target) : pathSegments target = match target with
      | .device d => [d]
      | .surface d surf => [d, surf]
      | .element d surf el => [d, surf, el]
      | .group d g => [d, "group:" ++ g] := by
  have hs : ∀ id ∈ identifiers target, segments '/' id = [id] :=
    fun id hid => segments_of_not_mem (h.unslashed id hid)
  cases target with
  | device d => exact hs d (by simp [identifiers])
  | surface d surf =>
    rw [pathSegments, hs d (by simp [identifiers]), hs surf (by simp [identifiers])]
    rfl
  | element d surf el =>
    rw [pathSegments, hs d (by simp [identifiers]),
      hs surf (by simp [identifiers]), hs el (by simp [identifiers])]
    rfl
  | group d g =>
    have hg : '/' ∉ ("group:" ++ g).toList := by simpa using h.unslashed g (by simp [identifiers])
    rw [pathSegments, hs d (by simp [identifiers]), segments_of_not_mem hg]
    rfl

theorem Plain.inj (h : Plain target) (h' : Plain other)
    (hsa : pathSegments target = pathSegments other) : target = other := by
  rw [h.pathSegments_eq, h'.pathSegments_eq] at hsa
  have hm : ∀ {surf g : String}, startsWith surf "group:" = false → surf ≠ "group:" ++ g := by
    rintro surf g hu rfl
    exact Bool.false_ne_true (hu.symm.trans (startsWith_iff.2 ⟨g, rfl⟩))
  cases target with
  | device d => cases other <;> simp_all
  | surface d surf =>
    cases other with
    | group other g =>
      have hs := (List.cons.inj (List.cons.inj hsa).2).1
      exact absurd hs (hm (h.unmarked surf rfl))
    | _ => simp_all
  | element d surf el => cases other <;> simp_all
  | group d g =>
    cases other with
    | surface other surf =>
      have hs := (List.cons.inj (List.cons.inj hsa).2).1
      exact absurd hs.symm (hm (h'.unmarked surf rfl))
    | _ => simp_all

/-- Two targets are kept apart exactly where their identifiers, cut at the slashes, are
different lists; in particular where the identifiers are plain. -/
theorem stream_keys_identify_targets (target other : TargetId) :
    (Separate target other ↔ pathSegments target ≠ pathSegments other) ∧
      (target ≠ other → Plain target → Plain other → Separate target other) := by
  have hk : streamKey target ≠ streamKey other ↔ pathSegments target ≠ pathSegments other := by
    rw [← segments_streamKey, ← segments_streamKey]
    exact not_congr segments_inj.symm
  refine ⟨⟨fun h => hk.1 h.key, fun h => separate_of_key (hk.2 h)⟩, ?_⟩
  intro hne hp hp'
  exact separate_of_key (hk.2 fun hs => hne (hp.inj hp' hs))

namespace Sample

/-- A lamp with a surface `bar/left`, and a surface `bar` with the element `left`. -/
def lamp : DeviceDescriptor :=
  { id := "lamp"
    name := "Lamp"
    surfaces := [{ id := "bar/left", name := "Left" },
      { id := "bar", name := "Bar", elements := [{ id := "left", name := "Left" }] }] }

end Sample

/-- A surface and a group of one name are kept apart. -/
theorem surface_and_group_separate :
    Plain (.surface "lamp" "bar") ∧ Plain (.group "lamp" "bar") ∧
      Separate (.surface "lamp" "bar") (.group "lamp" "bar") := by
  have hs : Plain (.surface "lamp" "bar") := ⟨by decide, by simp [TargetId.surfaceOf]; decide⟩
  have hg : Plain (.group "lamp" "bar") := ⟨by decide, by simp [TargetId.surfaceOf]⟩
  exact ⟨hs, hg, (stream_keys_identify_targets _ _).2 (by decide) hs hg⟩

/-- The stream of an element is ended through the key of a surface. -/
theorem Counterexample.ended_through_another_key :
    ∃ devices, normalizeDevices [Sample.lamp] = .ok devices ∧
      (capabilitiesForTarget (fromDevices devices) (.surface "lamp" "bar/left")).isSome = true ∧
      (capabilitiesForTarget (fromDevices devices) (.element "lamp" "bar" "left")).isSome = true ∧
      streamKey (.surface "lamp" "bar/left") = streamKey (.element "lamp" "bar" "left") ∧
      ((Registry.insert (fun _ => none) (.element "lamp" "bar" "left") 7).forceEnd
        (.surface "lamp" "bar/left")) (streamKey (.element "lamp" "bar" "left")) =
          (none : Option ℕ) := by
  refine ⟨[⟨"lamp", [⟨"bar/left", [], {}⟩, ⟨"bar", [⟨"left", {}⟩], {}⟩], [], {}⟩],
    ?_, rfl, rfl, ?_, ?_⟩
  · decide +kernel
  · decide +kernel
  · decide +kernel

end StreamKeys
