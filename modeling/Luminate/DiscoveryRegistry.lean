import Luminate.OneUse

/-! # Dynamically discovered devices

`DynamicDeviceRegistry::refresh_with_source_limit` of `dynamic_registry.rs` in the plugin
API. The number of entries of each source is counted once after the expiry and then
kept up to date while the candidates are merged. -/
namespace DiscoveryRegistry

open Std.ExtTreeMap Function

inductive RegistryExpiry where
  | atOrAfter | after
  deriving DecidableEq

variable (T F σ : Type)

structure RegistryEntry where
  value : T
  fingerprint : F
  discoverySource : Option σ
  lastSeen : ℕ

structure Candidate where
  id : String
  value : T
  fingerprint : F
  discoverySource : Option σ

abbrev Entries := Std.ExtTreeMap String (RegistryEntry T F σ) compare

structure DynamicDeviceRegistry where
  maximumEntries : ℕ
  expiry : ℕ
  expiryBoundary : RegistryExpiry
  entries : Entries T F σ := ∅

structure Call where
  now : ℕ
  refreshed : List (Candidate T F σ)
  maximumEntriesPerSource : ℕ

structure RegistryRefresh where
  topologyChanged : Bool
  rejected : ℕ
  expired : ℕ
  deriving DecidableEq

/-- The variables of the merging loop. A source without a count has none. -/
structure Merge where
  entries : Entries T F σ
  entriesPerSource : σ → ℕ
  rejected : ℕ := 0

variable {T F σ}

def fingerprints (entries : Entries T F σ) : List (String × F) :=
  entries.toList.map fun entry => (entry.1, entry.2.fingerprint)

theorem fingerprints_eq_iff {before after : Entries T F σ} :
    fingerprints before = fingerprints after ↔
      ∀ id : String, before[id]?.map (·.fingerprint) = after[id]?.map (·.fingerprint) := by
  have ht (entries : Entries T F σ) :
      fingerprints entries = (entries.map fun _ entry => entry.fingerprint).toList := by
    rw [toList_map, fingerprints]
  rw [ht, ht, toList_inj]
  constructor
  · intro h id
    have hid := congrArg (·[id]?) h
    simpa using hid
  · intro h
    refine ext_getElem? fun id => ?_
    rw [getElem?_map, getElem?_map, h]

def RegistryEntry.kept (registry : DynamicDeviceRegistry T F σ) (now : ℕ)
    (entry : RegistryEntry T F σ) : Bool :=
  let age := now - entry.lastSeen
  match registry.expiryBoundary with
  | .atOrAfter => age < registry.expiry
  | .after => age ≤ registry.expiry

variable [DecidableEq σ]

def incrementSourceCount (counts : σ → ℕ) : Option σ → σ → ℕ
  | some source => update counts source (counts source + 1)
  | none => counts

def decrementSourceCount (counts : σ → ℕ) : Option σ → σ → ℕ
  | some source => update counts source (counts source - 1)
  | none => counts

def sourceCounts (entries : Entries T F σ) : σ → ℕ :=
  (entries.toList.filterMap (·.2.discoverySource)).foldl
    (fun counts source => incrementSourceCount counts (some source)) fun _ => 0

def Merge.candidate (maximum perSource now : ℕ) (m : Merge T F σ) (c : Candidate T F σ) :
    Merge T F σ :=
  let existingSource := m.entries[c.id]?.bind (·.discoverySource)
  let sourceHasCapacity := c.discoverySource.all fun source => m.entriesPerSource source < perSource
  if m.entries.contains c.id || m.entries.size < maximum && sourceHasCapacity then
    { m with
      entries := m.entries.insert c.id ⟨c.value, c.fingerprint, c.discoverySource, now⟩
      entriesPerSource :=
        if existingSource ≠ c.discoverySource then
          incrementSourceCount (decrementSourceCount m.entriesPerSource existingSource)
            c.discoverySource
        else if !m.entries.contains c.id then
          incrementSourceCount m.entriesPerSource c.discoverySource
        else m.entriesPerSource }
  else { m with rejected := m.rejected + 1 }

def merging (registry : DynamicDeviceRegistry T F σ) (call : Call T F σ)
    (refreshed : List (Candidate T F σ)) : Merge T F σ :=
  let entries := registry.entries.filter fun _ entry => entry.kept registry call.now
  refreshed.foldl
    (Merge.candidate registry.maximumEntries call.maximumEntriesPerSource call.now)
    ⟨entries, sourceCounts entries, 0⟩

/-- How many entries really are of a source. -/
def ofSource (entries : Entries T F σ) (source : σ) : ℕ :=
  entries.toList.countP (·.2.discoverySource = some source)

/-- The identifier is there already, or there is room for it and for one more of its source. -/
def Admits (maximum perSource : ℕ) (entries : Entries T F σ) (c : Candidate T F σ) : Prop :=
  entries.contains c.id = true ∨ entries.size < maximum ∧
    ∀ source, c.discoverySource = some source → ofSource entries source < perSource

/-- With one more candidate, that one is stored anew or one more is rejected. -/
def Handles (maximum perSource now : ℕ) (c : Candidate T F σ) (entries : Entries T F σ)
    (rejected : ℕ) (entries' : Entries T F σ) (rejected' : ℕ) : Prop :=
  (Admits maximum perSource entries c →
    entries' = entries.insert c.id ⟨c.value, c.fingerprint, c.discoverySource, now⟩ ∧
      rejected' = rejected) ∧
  (¬ Admits maximum perSource entries c → entries' = entries ∧ rejected' = rejected + 1)

section

variable {entries : Entries T F σ} {id : String} {e : RegistryEntry T F σ} {source : σ}

theorem incrementSourceCount_apply : incrementSourceCount counts source' source =
      counts source + if source' = some source then 1 else 0 := by
  cases source' with
  | none => rfl
  | some s =>
    by_cases h : s = source
    · simp [incrementSourceCount, h]
    · simp [incrementSourceCount, h, update_of_ne (Ne.symm h)]

theorem decrementSourceCount_apply : decrementSourceCount counts source' source =
      counts source - if source' = some source then 1 else 0 := by
  cases source' with
  | none => rfl
  | some s =>
    by_cases h : s = source
    · simp [decrementSourceCount, h]
    · simp [decrementSourceCount, h, update_of_ne (Ne.symm h)]

theorem sourceCounts_apply : sourceCounts entries source = ofSource entries source := by
  have hf (list : List (String × RegistryEntry T F σ)) (counts : σ → ℕ) :
      (list.filterMap (·.2.discoverySource)).foldl
        (fun counts source => incrementSourceCount counts (some source)) counts source =
      counts source + list.countP (·.2.discoverySource = some source) := by
    induction list generalizing counts with
    | nil => rfl
    | cons entry rest ih =>
      rw [List.filterMap_cons, List.countP_cons]
      cases hs : entry.2.discoverySource with
      | none => simpa using ih counts
      | some s =>
        rw [List.foldl_cons, ih, incrementSourceCount_apply]
        simp only [decide_eq_true_eq]
        omega
  rw [sourceCounts, hf, Nat.zero_add, ofSource]

theorem ofSource_insert : ofSource (entries.insert id e) source =
    ofSource (entries.erase id) source + if e.discoverySource = some source then 1 else 0 := by
  rw [ofSource, OneUse.insert_perm.countP_eq, List.countP_cons, ofSource]
  simp

theorem ofSource_erase : ofSource entries source = ofSource (entries.erase id) source +
    if entries[id]?.bind (·.discoverySource) = some source then 1 else 0 := by
  cases h : entries[id]? with
  | none => rw [OneUse.erase_of_none h]; rfl
  | some old => rw [Option.bind_some, ← ofSource_insert, OneUse.insert_of_some h]

end

section

variable {m : Merge T F σ}

theorem Merge.size_candidate (h : m.entries.size ≤ maximum) :
    (m.candidate maximum perSource now c).entries.size ≤ maximum := by
  rw [Merge.candidate]
  split
  · next ha =>
    rw [size_insert]
    split
    · exact h
    · next hc =>
      rw [Bool.not_eq_true] at hc
      rw [hc, Bool.false_or, Bool.and_eq_true] at ha
      exact Nat.succ_le_of_lt (of_decide_eq_true ha.1)
  · exact h

section

variable (h : ∀ source, m.entriesPerSource source = ofSource m.entries source)

include h

theorem Merge.counted_candidate (source : σ) :
    (m.candidate maximum perSource now c).entriesPerSource source =
      ofSource (m.candidate maximum perSource now c).entries source := by
  have he : ofSource m.entries source = ofSource (m.entries.erase c.id) source + _ := ofSource_erase
  have hs := h source
  rw [Merge.candidate]
  split
  · simp only [ofSource_insert]
    split
    · rw [incrementSourceCount_apply, decrementSourceCount_apply]
      omega
    · next heq =>
      rw [Decidable.not_not.1 heq] at he
      split
      · next hc =>
        -- a new entry without a source
        have hn : m.entries[c.id]? = none := by
          rwa [contains_eq_isSome_getElem?, Bool.not_eq_true',
            Option.isSome_eq_false_iff, Option.isNone_iff_eq_none] at hc
        rw [hn] at heq
        rw [incrementSourceCount_apply, hs, he, ← Decidable.not_not.1 heq]
        rfl
      · omega
  · exact hs

theorem Merge.admits_iff : Admits maximum perSource m.entries c ↔ (m.entries.contains c.id ||
      m.entries.size < maximum && c.discoverySource.all fun source =>
        m.entriesPerSource source < perSource) = true := by
  cases hc : c.discoverySource <;> simp [Admits, hc, h]

theorem Merge.handles : Handles maximum perSource now c m.entries m.rejected
      (m.candidate maximum perSource now c).entries
      (m.candidate maximum perSource now c).rejected := by
  constructor
  · intro ha
    rw [Merge.candidate, if_pos ((Merge.admits_iff h).1 ha)]
    exact ⟨rfl, rfl⟩
  · intro ha
    rw [Merge.candidate, if_neg (mt (Merge.admits_iff h).2 ha)]
    exact ⟨rfl, rfl⟩

end

theorem merging_counted (refreshed : List (Candidate T F σ)) (source : σ) :
    (merging registry call refreshed).entriesPerSource source =
      ofSource (merging registry call refreshed).entries source := by
  refine List.foldlRecOn (motive := fun m : Merge T F σ =>
    ∀ source, m.entriesPerSource source = ofSource m.entries source) refreshed _
    (fun _ => sourceCounts_apply) (fun m hm c _ => Merge.counted_candidate hm) source

theorem merging_handles (done : List (Candidate T F σ)) (c : Candidate T F σ) :
    Handles registry.maximumEntries call.maximumEntriesPerSource call.now c
      (merging registry call done).entries (merging registry call done).rejected
      (merging registry call (done ++ [c])).entries
      (merging registry call (done ++ [c])).rejected := by
  have hm : merging registry call (done ++ [c]) = (merging registry call done).candidate
      registry.maximumEntries call.maximumEntriesPerSource call.now c := by
    rw [merging, List.foldl_append]
    rfl
  rw [hm]
  exact Merge.handles (merging_counted done)

theorem merging_size (h : registry.entries.size ≤ registry.maximumEntries)
    (refreshed : List (Candidate T F σ)) :
    (merging registry call refreshed).entries.size ≤ registry.maximumEntries := by
  refine List.foldlRecOn (motive := fun m : Merge T F σ =>
    m.entries.size ≤ registry.maximumEntries) refreshed _ ?_ fun m hm c _ => Merge.size_candidate hm
  exact Std.ExtTreeMap.size_filter_le_size.trans h

end

variable [DecidableEq F]

def refreshWithSourceLimit (registry : DynamicDeviceRegistry T F σ) (call : Call T F σ) :
    DynamicDeviceRegistry T F σ × RegistryRefresh :=
  let kept := registry.entries.filter fun _ entry => entry.kept registry call.now
  let merged := merging registry call call.refreshed
  ({ registry with entries := merged.entries },
    { topologyChanged := fingerprints registry.entries ≠ fingerprints merged.entries
      rejected := merged.rejected
      expired := registry.entries.size - kept.size })

def refreshAll (registry : DynamicDeviceRegistry T F σ) (calls : List (Call T F σ)) :
    DynamicDeviceRegistry T F σ :=
  calls.foldl (fun registry call => (refreshWithSourceLimit registry call).1) registry

theorem refreshAll_size (calls : List (Call T F σ)) :
    let registry := refreshAll ⟨maximumEntries, expiry, boundary, ∅⟩ calls
    registry.maximumEntries = maximumEntries ∧ registry.entries.size ≤ maximumEntries := by
  refine List.foldlRecOn (motive := fun registry : DynamicDeviceRegistry T F σ =>
    registry.maximumEntries = maximumEntries ∧ registry.entries.size ≤ maximumEntries) calls _
    ⟨rfl, Nat.zero_le _⟩ ?_
  rintro registry ⟨rfl, hs⟩ call -
  exact ⟨rfl, merging_size hs call.refreshed⟩

/-- After any calls, the next one drops what has expired and then handles its candidates
one by one, with the counters always right. -/
theorem refresh_bounded_per_source (maximumEntries expiry : ℕ) (boundary : RegistryExpiry)
    (calls : List (Call T F σ)) (call : Call T F σ) :
    let registry := refreshAll ⟨maximumEntries, expiry, boundary, ∅⟩ calls
    let reply := fun refreshed => refreshWithSourceLimit registry { call with refreshed }
    registry.entries.size ≤ maximumEntries ∧
    (reply []).1.entries = registry.entries.filter (fun _ e => e.kept registry call.now) ∧
    (reply []).2.rejected = 0 ∧
    (∀ done candidate, Handles maximumEntries call.maximumEntriesPerSource call.now candidate
      (reply done).1.entries (reply done).2.rejected
      (reply (done ++ [candidate])).1.entries (reply (done ++ [candidate])).2.rejected) ∧
    (∀ done, (reply done).2.expired + (reply []).1.entries.size = registry.entries.size ∧
      ∀ source, (merging registry call done).entriesPerSource source =
        ofSource (reply done).1.entries source) ∧
    ((reply call.refreshed).2.topologyChanged = true ↔
      ∃ id : String, registry.entries[id]?.map (·.fingerprint) ≠
        (reply call.refreshed).1.entries[id]?.map (·.fingerprint)) := by
  intro registry reply
  obtain ⟨hm, hs⟩ := refreshAll_size calls
  refine ⟨hs, rfl, rfl, hm ▸ merging_handles, fun done => ⟨?_, ?_⟩, ?_⟩
  · exact Nat.sub_add_cancel size_filter_le_size
  · exact merging_counted done
  · simp [reply, refreshWithSourceLimit, fingerprints_eq_iff]

namespace Sample

def seen (id : String) (source : ℕ) : Candidate Unit ℕ ℕ := ⟨id, (), 0, some source⟩

/-- The lamp has been seen from the first source, which may have one entry. -/
def found : DynamicDeviceRegistry Unit ℕ ℕ :=
  refreshAll ⟨2, 10, .after, ∅⟩ [⟨0, [seen "lamp" 1], 1⟩]

def reply (refreshed : List (Candidate Unit ℕ ℕ)) :
    DynamicDeviceRegistry Unit ℕ ℕ × RegistryRefresh :=
  refreshWithSourceLimit found ⟨5, refreshed, 1⟩

end Sample

open Sample in
/-- The strip is rejected until the lamp is seen from another source. -/
theorem strip_waits_for_the_lamp :
    (reply [seen "strip" 1, seen "lamp" 2]).2.rejected = 1 ∧
    (reply [seen "strip" 1, seen "lamp" 2, seen "strip" 1]).2.rejected = 1 ∧
    (reply [seen "strip" 1, seen "lamp" 2, seen "strip" 1]).1.entries["strip"]? =
      some ⟨(), 0, some 1, 5⟩ := by
  obtain ⟨-, -, -, hh, -⟩ := refresh_bounded_per_source 2 10 .after [⟨0, [seen "lamp" 1], 1⟩]
    (⟨5, [], 1⟩ : Call Unit ℕ ℕ)
  have hr : (reply [seen "strip" 1, seen "lamp" 2]).2.rejected = 1 := by decide +kernel
  have ha : Admits 2 1 (reply [seen "strip" 1, seen "lamp" 2]).1.entries (seen "strip" 1) := by
    refine .inr ⟨by decide +kernel, ?_⟩
    rintro source ⟨⟩
    decide +kernel
  obtain ⟨he, hrj⟩ := (hh [seen "strip" 1, seen "lamp" 2] (seen "strip" 1)).1 ha
  refine ⟨hr, hrj.trans hr, ?_⟩
  exact (congrArg (·["strip"]?) he).trans getElem?_insert_self

end DiscoveryRegistry
