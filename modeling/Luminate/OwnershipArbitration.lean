import Luminate.GreedySelection
import Luminate.PluginOwnership

/-! # Arbitration as a greedy selection

The candidates are taken in order of priority. A candidate is accepted unless its
device has been given away or one of its claims contests an accepted claim. -/
namespace OwnershipArbitration

open GreedySelection Normalization PluginOwnership List Std

/-- Two claims on one resource, of which one is exclusive. -/
def ContestsClaim (a b : HardwareClaim) : Prop :=
  sameResource a b = true ∧ (a.exclusivity = .exclusive ∨ b.exclusivity = .exclusive)

instance : DecidableRel ContestsClaim := fun _ _ => inferInstanceAs (Decidable (_ ∧ _))

def ClaimsContest (a b : DeviceDescriptor) : Prop :=
  ∃ x ∈ a.claims, ∃ y ∈ b.claims, ContestsClaim x y

instance : DecidableRel ClaimsContest :=
  fun a b => inferInstanceAs (Decidable (∃ x ∈ a.claims, ∃ y ∈ b.claims, ContestsClaim x y))

def Contests (a b : Candidate) : Prop :=
  a.descriptor.id = b.descriptor.id ∨ ClaimsContest a.descriptor b.descriptor

instance : DecidableRel Contests := fun _ _ => inferInstanceAs (Decidable (_ ∨ _))

def accepts (awarded : Awarded) (candidate : Candidate) : Bool :=
  !awarded.owners.contains candidate.descriptor.id &&
    !candidate.descriptor.claims.any (loses awarded.claims)

/-- The candidates for which the loop reaches the insertion of an owner. -/
def acceptedFrom : Awarded → List Candidate → List Candidate
  | _, [] => []
  | awarded, candidate :: rest =>
    if accepts awarded candidate then candidate :: acceptedFrom (award awarded candidate) rest
    else acceptedFrom (award awarded candidate) rest

def sortedCandidates (metadata : List LoadedPluginMetadata)
    (descriptorsByPlugin : List (List DeviceDescriptor)) : List Candidate :=
  (candidates descriptorsByPlugin).insertionSort (precedes metadata)

def accepted (metadata : List LoadedPluginMetadata)
    (descriptorsByPlugin : List (List DeviceDescriptor)) : List Candidate :=
  acceptedFrom {} (sortedCandidates metadata descriptorsByPlugin)

theorem ContestsClaim.symm (h : ContestsClaim a b) : ContestsClaim b a := by
  obtain ⟨hs, he⟩ := h
  refine ⟨?_, he.symm⟩
  simp only [sameResource, Bool.and_eq_true, beq_iff_eq] at hs ⊢
  exact ⟨⟨hs.1.1.symm, hs.1.2.symm⟩, hs.2.symm⟩

variable {a b : Candidate} {metadata : List LoadedPluginMetadata}

theorem Contests.symm (h : Contests a b) : Contests b a := by
  rcases h with hid | ⟨x, hx, y, hy, hc⟩
  · exact .inl hid.symm
  · exact .inr ⟨y, hy, x, hx, hc.symm⟩

theorem loses_iff : loses held claim = true ↔ ∃ existing ∈ held, ContestsClaim existing claim := by
  simp only [loses, any_eq_true, mem_filter, Bool.or_eq_true, beq_iff_eq]
  constructor
  · rintro ⟨existing, ⟨hh, hs⟩, he⟩
    exact ⟨existing, hh, ContestsClaim.symm ⟨hs, he⟩⟩
  · rintro ⟨existing, hh, hc⟩
    obtain ⟨hs, he⟩ := hc.symm
    exact ⟨existing, ⟨hh, hs⟩, he⟩

theorem mem_candidates : cd ∈ candidates descs ↔
      ∃ dss, descs[cd.pluginIndex]? = some dss ∧ dss[cd.descriptorIndex]? = some cd.descriptor := by
  simp only [candidates, mem_flatMap, mem_map, Prod.exists, mem_zipIdx_iff_getElem?]
  constructor
  · rintro ⟨dss, pluginIndex, hp, desc, descriptorIndex, hd, rfl⟩
    exact ⟨dss, hp, hd⟩
  · rintro ⟨dss, hp, hd⟩
    exact ⟨dss, _, hp, _, _, hd, rfl⟩

theorem eq_of_same_indices (ha : a ∈ candidates descs)
    (hb : b ∈ candidates descs) (hp : a.pluginIndex = b.pluginIndex)
    (hd : a.descriptorIndex = b.descriptorIndex) : a = b := by
  obtain ⟨_, hr, hf⟩ := mem_candidates.1 ha
  obtain ⟨_, hr', hf'⟩ := mem_candidates.1 hb
  obtain ⟨pluginIndex, descriptorIndex, desc⟩ := a
  obtain ⟨pluginIndex', descriptorIndex', desc'⟩ := b
  obtain rfl : pluginIndex = pluginIndex' := hp
  obtain rfl : descriptorIndex = descriptorIndex' := hd
  cases hr.symm.trans hr'
  cases hf.symm.trans hf'
  rfl

theorem eq_of_same_device (ha : a ∈ candidates descs)
    (hb : b ∈ candidates descs) (hp : a.pluginIndex = b.pluginIndex)
    (hn : ∀ dss, descs[a.pluginIndex]? = some dss →
      (dss.map (·.id)).Nodup) (hid : a.descriptor.id = b.descriptor.id) : a = b := by
  apply eq_of_same_indices ha hb hp
  obtain ⟨dss, hr, hf⟩ := mem_candidates.1 ha
  obtain ⟨descs', hr', hf'⟩ := mem_candidates.1 hb
  cases hr.symm.trans (hp ▸ hr')
  have hlt := (List.getElem?_eq_some_iff.1 hf).1
  refine (getElem?_inj (l := dss.map (·.id)) ?_ (hn _ hr)).1 ?_
  · rwa [length_map]
  · rw [getElem?_map, getElem?_map, hf, hf', Option.map_some, Option.map_some, hid]

theorem mem_sortedCandidates : cd ∈ sortedCandidates metadata descs ↔ cd ∈ candidates descs :=
  (perm_insertionSort _ _).mem_iff

section

variable (metadata : List LoadedPluginMetadata)

instance precedes_total : Std.Total (precedes metadata) where
  total a b := by
    unfold precedes
    omega

instance precedes_trans : IsTrans Candidate (precedes metadata) where
  trans a b c hab hbc := by
    unfold precedes at *
    omega

theorem sortedCandidates_pairwise (descs : List (List DeviceDescriptor)) :
    (sortedCandidates metadata descs).Pairwise (precedes metadata) := pairwise_insertionSort _ _

end

structure Represents (awarded : Awarded) (taken : List Candidate) : Prop where
  owners : ∀ device index, awarded.owners[device]? = some index ↔
    ∃ candidate ∈ taken, candidate.descriptor.id = device ∧ candidate.pluginIndex = index
  claims : awarded.claims = taken.flatMap (·.descriptor.claims)

theorem represents_nil : Represents {} [] where
  owners device index := by simp
  claims := rfl

section

variable {cand : Candidate}

theorem award_of_accepts (h : accepts awarded cand = true) : award awarded cand =
      { owners := awarded.owners.insert cand.descriptor.id cand.pluginIndex
        claims := awarded.claims ++ cand.descriptor.claims } := by
  simp only [accepts, Bool.and_eq_true, Bool.not_eq_true'] at h
  simp only [award, h.1, h.2, Bool.false_eq_true, if_false]

theorem award_of_not_accepts (h : ¬ accepts awarded cand = true) :
    award awarded cand = awarded := by
  simp only [accepts, Bool.and_eq_true, Bool.not_eq_true', not_and, Bool.not_eq_false] at h
  unfold award
  by_cases hc : awarded.owners.contains cand.descriptor.id
  · rw [if_pos hc]
  · rw [if_neg hc, if_pos (h (Bool.not_eq_true _ ▸ hc))]

section

variable (h : Represents awarded taken)

include h

theorem Represents.contains_iff :
    awarded.owners.contains d = true ↔ ∃ cand ∈ taken, cand.descriptor.id = d := by
  rw [ExtTreeMap.contains_eq_isSome_getElem?, Option.isSome_iff_exists]
  constructor
  · rintro ⟨i, hi⟩
    obtain ⟨cand, hc, hid, -⟩ := (h.owners d i).1 hi
    exact ⟨cand, hc, hid⟩
  · rintro ⟨cand, hc, hid⟩
    exact ⟨cand.pluginIndex, (h.owners d _).2 ⟨cand, hc, hid, rfl⟩⟩

theorem Represents.any_loses_iff : cand.descriptor.claims.any (loses awarded.claims) = true ↔
      ∃ old ∈ taken, ClaimsContest old.descriptor cand.descriptor := by
  simp only [any_eq_true, loses_iff, h.claims, mem_flatMap, ClaimsContest]
  constructor
  · rintro ⟨claim, hcl, existing, ⟨old, hea, he⟩, hc⟩
    exact ⟨old, hea, existing, he, claim, hcl, hc⟩
  · rintro ⟨old, hea, existing, he, claim, hcl, hc⟩
    exact ⟨claim, hcl, existing, ⟨old, hea, he⟩, hc⟩

theorem Represents.accepts_iff :
    accepts awarded cand = true ↔ ¬ ∃ old ∈ taken, Contests old cand := by
  have hb : accepts awarded cand = true ↔ ¬ awarded.owners.contains cand.descriptor.id = true ∧
        ¬ cand.descriptor.claims.any (loses awarded.claims) = true := by
    simp only [accepts, Bool.and_eq_true, Bool.not_eq_true', Bool.not_eq_true]
  rw [hb, h.contains_iff, h.any_loses_iff, ← not_or]
  simp only [Contests, and_or_left, exists_or]

theorem Represents.award (ha : accepts awarded cand = true) :
    Represents (award awarded cand) (taken ++ [cand]) := by
  have hf := h.accepts_iff.1 ha
  rw [award_of_accepts ha]
  constructor
  · intro d i
    rw [ExtTreeMap.getElem?_insert]
    by_cases hd : cand.descriptor.id = d
    · -- No earlier candidate has the device of an accepted one.
      subst hd
      have hn : ∀ old ∈ taken, old.descriptor.id ≠ cand.descriptor.id :=
        fun old he hid => hf ⟨old, he, .inl hid⟩
      simp only [ReflCmp.compare_self, if_true, Option.some.injEq, mem_append, mem_singleton]
      constructor
      · rintro rfl
        exact ⟨cand, .inr rfl, rfl, rfl⟩
      · rintro ⟨other, ho | rfl, hid, hi⟩
        · exact absurd hid (hn other ho)
        · exact hi
    · rw [if_neg (fun hc => hd (LawfulEqCmp.eq_of_compare hc)), h.owners]
      simp only [mem_append, mem_singleton, or_and_right, exists_or, exists_eq_left,
        hd, false_and, or_false]
  · simp only [h.claims, flatMap_append, flatMap_cons, flatMap_nil, append_nil]

end

end

theorem foldl_award_represents (h : Represents awarded taken) (is : List Candidate) :
    Represents (is.foldl award awarded) (taken ++ select Contests taken is) := by
  induction is generalizing awarded taken with
  | nil => simpa [select] using h
  | cons cd rest ih =>
    rw [foldl_cons]
    by_cases ha : accepts awarded cd = true
    · rw [select_cons_of_free (h.accepts_iff.1 ha)]
      simpa using ih (h.award ha)
    · rw [award_of_not_accepts ha,
        select_cons_of_conflict (not_not.1 fun hc => ha (h.accepts_iff.2 hc))]
      exact ih h

theorem acceptedFrom_eq_select (h : Represents awarded taken) :
    acceptedFrom awarded is = select Contests taken is := by
  induction is generalizing awarded taken with
  | nil => rfl
  | cons cd rest ih =>
    rw [acceptedFrom]
    by_cases ha : accepts awarded cd = true
    · rw [if_pos ha, select_cons_of_free (h.accepts_iff.1 ha), ih (h.award ha)]
    · rw [if_neg ha, award_of_not_accepts ha,
        select_cons_of_conflict (not_not.1 fun hc => ha (h.accepts_iff.2 hc)), ih h]

theorem accepted_eq_select : accepted md descs = select Contests [] (sortedCandidates md descs) :=
  acceptedFrom_eq_select represents_nil

theorem owner_iff : (arbitrateOwnership md descs)[d]? = some i ↔
      ∃ cd ∈ accepted md descs, cd.descriptor.id = d ∧ cd.pluginIndex = i := by
  have h := foldl_award_represents represents_nil (sortedCandidates md descs)
  rw [← accepted_eq_select] at h
  exact h.owners d i

theorem mem_candidates_of_accepted (h : cd ∈ accepted md descs) : cd ∈ candidates descs := by
  rw [accepted_eq_select] at h
  exact mem_sortedCandidates.1 ((select_sublist _ _).subset h)

theorem accepted_independent (ha : a ∈ accepted md descs) (hb : b ∈ accepted md descs)
    (hne : a ≠ b) : ¬ Contests a b := by
  have hp : (accepted md descs).Pairwise fun a b => ¬ Contests a b := by
    rw [accepted_eq_select]
    exact select_independent _ _
  have hs : Symm fun a b => ¬ Contests a b := ⟨fun _ _ h hc => h hc.symm⟩
  exact hp.forall ha hb hne

theorem rejected_contested (h : cd ∈ candidates descs) (hr : cd ∉ accepted md descs) :
    ∃ winner ∈ accepted md descs, precedes md winner cd ∧ Contests winner cd := by
  rw [accepted_eq_select] at hr ⊢
  obtain ⟨winner, hw, hc⟩ := conflict_of_not_mem_select
    (sortedCandidates_pairwise md descs) (mem_sortedCandidates.2 h) hr
  obtain ⟨hs, hp⟩ := hw.resolve_left not_mem_nil
  exact ⟨winner, hs, hp, hc⟩

def acceptedDescriptors (metadata : List LoadedPluginMetadata)
    (descriptorsByPlugin : List (List DeviceDescriptor)) : List DeviceDescriptor :=
  ((candidates descriptorsByPlugin).filter (· ∈ accepted metadata descriptorsByPlugin)).map
    (·.descriptor)

theorem accepted_of_owned (hp : descs[i]? = some dss) (hd : dss[position]? = some desc)
    (hn : (dss.map (·.id)).Nodup) (ho : (arbitrateOwnership metadata descs)[desc.id]? = some i) :
    ⟨i, position, desc⟩ ∈ accepted metadata descs := by
  obtain ⟨winner, hw, hid, hi⟩ := owner_iff.1 ho
  have how : (⟨i, position, desc⟩ : Candidate) ∈ candidates descs := mem_candidates.2 ⟨dss, hp, hd⟩
  have hs := eq_of_same_device how (mem_candidates_of_accepted hw) hi.symm ?_ hid.symm
  · exact hs ▸ hw
  · rintro reported hr
    cases hp.symm.trans hr
    exact hn

theorem ownedDescriptors_eq (metadata : List LoadedPluginMetadata)
    (keyed : List (ℕ × List DeviceDescriptor)) (owners : OwnerMap ℕ) (hk : (keyed.map (·.1)).Nodup)
    (hn : ∀ dss ∈ keyed.map (·.2), (dss.map (·.id)).Nodup)
    (ho : ∀ (d : String) (key : ℕ), owners[d]? = some key ↔
      ∃ i, (arbitrateOwnership metadata (keyed.map (·.2)))[d]? = some i ∧
        keyed[i]?.map (·.1) = some key) :
    ownedDescriptors owners keyed = acceptedDescriptors metadata (keyed.map (·.2)) := by
  have hs : keyed = keyed.zipIdx.map (·.1) := (zipIdx_map_fst 0 keyed).symm
  have hc : candidates (keyed.map (·.2)) =
      keyed.zipIdx.flatMap fun slot => slot.1.2.zipIdx.map fun entry =>
        ⟨slot.2, entry.2, entry.1⟩ := by
    rw [candidates, zipIdx_map, flatMap_map]
    rfl
  rw [acceptedDescriptors, hc, filter_flatMap, map_flatMap, ownedDescriptors]
  conv_lhs => rw [hs, flatMap_map]
  refine flatMap_congr fun ⟨⟨key, dss⟩, i⟩ hsl => ?_
  have hp : keyed[i]? = some (key, dss) := mem_zipIdx_iff_getElem?.1 hsl
  have hr : (keyed.map (·.2))[i]? = some dss := by rw [getElem?_map, hp, Option.map_some]
  have hd : dss = dss.zipIdx.map (·.1) := (zipIdx_map_fst 0 dss).symm
  change (dss.filter fun desc => owners[desc.id]? == some key) = _
  rw [filter_map, map_map]
  conv_lhs => rw [hd, filter_map]
  congr 1
  refine filter_congr fun ⟨desc, position⟩ he => ?_
  have hde : dss[position]? = some desc := mem_zipIdx_iff_getElem?.1 he
  have hif : owners[desc.id]? = some key ↔
      (⟨i, position, desc⟩ : Candidate) ∈ accepted metadata (keyed.map (·.2)) := by
    rw [ho]
    constructor
    · rintro ⟨owner, how, hke⟩
      have hi : i = owner := by
        have hlt := (List.getElem?_eq_some_iff.1 hp).1
        refine (getElem?_inj (l := keyed.map (·.1)) ?_ hk).1 ?_
        · rwa [length_map]
        · rw [getElem?_map, getElem?_map, hke, hp, Option.map_some]
      obtain rfl := hi
      exact accepted_of_owned hr hde (hn dss (mem_of_getElem? hr)) how
    · intro ha
      refine ⟨i, owner_iff.2 ⟨_, ha, rfl, rfl⟩, ?_⟩
      rw [hp, Option.map_some]
  rw [Bool.eq_iff_iff]
  simpa using hif

theorem ownerById_iff {d : String} {id : LoadedPluginId} :
    (arbitrateOwnershipById ps)[d]? = some id ↔ ∃ i, (arbitrateOwnership (ps.map (·.metadata))
        (ps.map (·.descriptors)))[d]? = some i ∧ ps[i]?.map (·.id) = some id := by
  rw [arbitrateOwnershipById, ExtTreeMap.getElem?_filterMap', Option.bind_eq_some_iff]

theorem ownedDescriptors_by_index (hn : ∀ dss ∈ descs, (dss.map (·.id)).Nodup) :
    ownedDescriptors (arbitrateOwnership metadata descs) (descs.zipIdx.map Prod.swap) =
        acceptedDescriptors metadata descs := by
  have hd : (descs.zipIdx.map Prod.swap).map (·.2) = descs := by
    rw [map_map]
    exact zipIdx_map_fst 0 descs
  have hk : ((descs.zipIdx.map Prod.swap).map (·.1)).Nodup := by
    rw [map_map]
    change (descs.zipIdx.map (·.2)).Nodup
    rw [zipIdx_map_snd]
    exact nodup_range'
  have how := ownedDescriptors_eq metadata (descs.zipIdx.map Prod.swap)
    (arbitrateOwnership metadata descs)
  rw [hd] at how
  refine how hk hn fun d i => ?_
  constructor
  · intro ho
    obtain ⟨winner, hw, -, rfl⟩ := owner_iff.1 ho
    obtain ⟨dss, hp, -⟩ := mem_candidates.1 (mem_candidates_of_accepted hw)
    refine ⟨winner.pluginIndex, ho, ?_⟩
    simp [getElem?_zipIdx, hp]
  · rintro ⟨position, ho, hke⟩
    obtain ⟨slot, hs, rfl⟩ := Option.map_eq_some_iff.1 hke
    simp only [getElem?_map, getElem?_zipIdx, Option.map_map, Option.map_eq_some_iff] at hs
    obtain ⟨dss, -, rfl⟩ := hs
    simpa using ho

theorem ownedDescriptors_by_id {ps : List Contender} (hi : (ps.map (·.id)).Nodup)
    (hn : ∀ plugin ∈ ps, (plugin.descriptors.map (·.id)).Nodup) :
    ownedDescriptors (arbitrateOwnershipById ps)
      (ps.map fun plugin => (plugin.id, plugin.descriptors)) =
        acceptedDescriptors (ps.map (·.metadata)) (ps.map (·.descriptors)) := by
  have hd : (ps.map fun plugin => (plugin.id, plugin.descriptors)).map (·.2) =
      ps.map (·.descriptors) := map_map
  have ho := ownedDescriptors_eq (ps.map (·.metadata))
    (ps.map fun plugin => (plugin.id, plugin.descriptors)) (arbitrateOwnershipById ps)
  rw [hd] at ho
  refine ho (by rwa [map_map]) (forall_mem_map.2 hn) fun d key => ?_
  rw [ownerById_iff]
  simp

/-- The owners are the plugins of the accepted candidates. These do not contest each
other, and whatever was turned down is contested by one that comes earlier. -/
theorem arbitration_is_greedy (metadata : List LoadedPluginMetadata)
    (descriptorsByPlugin : List (List DeviceDescriptor)) : (∀ (device : String) (index : ℕ),
      (arbitrateOwnership metadata descriptorsByPlugin)[device]? = some index ↔
        ∃ candidate ∈ accepted metadata descriptorsByPlugin,
          candidate.descriptor.id = device ∧ candidate.pluginIndex = index) ∧
    (∀ a ∈ accepted metadata descriptorsByPlugin, ∀ b ∈ accepted metadata descriptorsByPlugin,
      a ≠ b → a.descriptor.id ≠ b.descriptor.id ∧ ¬ ClaimsContest a.descriptor b.descriptor) ∧
    (∀ candidate ∈ candidates descriptorsByPlugin,
      candidate ∉ accepted metadata descriptorsByPlugin →
        ∃ winner ∈ accepted metadata descriptorsByPlugin,
          winner ≠ candidate ∧ precedes metadata winner candidate ∧
            (winner.descriptor.id = candidate.descriptor.id ∨
              ClaimsContest winner.descriptor candidate.descriptor)) ∧
    ((∀ descriptors ∈ descriptorsByPlugin, (descriptors.map (·.id)).Nodup) →
      ownedDescriptors (arbitrateOwnership metadata descriptorsByPlugin)
          (descriptorsByPlugin.zipIdx.map Prod.swap) =
        acceptedDescriptors metadata descriptorsByPlugin ∧
      ∀ plugins : List Contender, (plugins.map (·.id)).Nodup → plugins.map (·.metadata) = metadata →
        plugins.map (·.descriptors) = descriptorsByPlugin →
        ownedDescriptors (arbitrateOwnershipById plugins)
            (plugins.map fun plugin => (plugin.id, plugin.descriptors)) =
          acceptedDescriptors metadata descriptorsByPlugin) := by
  refine ⟨fun _ _ => owner_iff, ?_, ?_, ?_⟩
  · intro a ha b hb hne
    exact not_or.1 (accepted_independent ha hb hne)
  · intro candidate hc hr
    obtain ⟨winner, hw, hp, hco⟩ := rejected_contested hc hr
    refine ⟨winner, hw, ?_, hp, hco⟩
    rintro rfl
    exact hr hw
  · intro hn
    refine ⟨ownedDescriptors_by_index hn, ?_⟩
    rintro plugins hi rfl rfl
    exact ownedDescriptors_by_id hi fun plugin hpl => hn _ (mem_map_of_mem hpl)

end OwnershipArbitration
