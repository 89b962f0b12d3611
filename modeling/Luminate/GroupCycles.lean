import Luminate.NormalizedDevices

/-! # Cycles of groups

`reject_group_cycles` of `normalize.rs` against the graph of groups and their members.
The search starts from the keys of a hash map, in any order. -/
namespace GroupCycles

open Checks Normalization NormalizedDevices List

/-- A group lists another one as its member. -/
def Nests (groups : List GroupDescriptor) (outer nested : String) : Prop :=
  ∃ group ∈ groups, group.id = outer ∧ .group nested ∈ group.members

theorem mem_groupReferences : nested ∈ groupReferences group ↔ .group nested ∈ group.members := by
  rw [groupReferences, mem_filterMap]
  constructor
  · rintro ⟨member, hm, h⟩
    cases member <;> cases h
    exact hm
  · exact fun h => ⟨_, h, rfl⟩

theorem nests_of_mem (h : nested ∈ referencesOf groups outer) : Nests groups outer nested := by
  rw [referencesOf] at h
  cases hf : groups.find? (·.id == outer) with
  | none =>
    rw [hf] at h
    cases h
  | some group =>
    rw [hf] at h
    exact ⟨group, mem_of_find?_eq_some hf, by simpa using find?_some hf, mem_groupReferences.1 h⟩

theorem mem_of_nests (hu : (groups.map (·.id)).Nodup) (h : Nests groups outer nested) :
    nested ∈ referencesOf groups outer := by
  obtain ⟨group, hg, rfl, hm⟩ := h
  rw [referencesOf, find_id hu hg]
  exact mem_groupReferences.2 hm

theorem exploreAll_error {explore : CycleSearch → String → ExceptT String Option CycleSearch}
    (hex : ∀ name ∈ names, ∀ search result, Searched groups names search →
      search.visiting = vis → (explore search name).run = some (.ok result) →
        Explored groups names search result name) (hm : ms ⊆ names)
    (hs : Searched groups names search) (hv : search.visiting = vis)
    (h : (ms.foldlM explore search).run = some (.error e)) :
    ∃ name ∈ ms, ∃ between, Searched groups names between ∧ between.visiting = vis ∧
      (explore between name).run = some (.error e) := by
  induction ms generalizing search with
  | nil => cases h
  | cons name rest ih =>
    obtain ⟨hn, hre⟩ := cons_subset.1 hm
    rw [foldlM_cons] at h
    obtain he | ⟨between, hb, h⟩ := run_error_iff.1 h
    · exact ⟨name, mem_cons_self, search, hs, hv, he⟩
    · have he := hex name hn search between hs hv hb
      obtain ⟨other, ho, found⟩ := ih hre he.searched (he.visiting.trans hv) h
      exact ⟨other, mem_cons_of_mem _ ho, found⟩

/-- Every group being expanded leads to the one the search is at. -/
theorem rejectGroupCyclesFrom_error (hn : ∀ name ∈ names, referencesOf groups name ⊆ names)
    {name : String} (hna : name ∈ names)
    (hfu : names.length < search.visiting.length + fuel) (hs : Searched groups names search)
    (hp : ∀ other ∈ search.visiting, Relation.TransGen (Nests groups) other name)
    (h : (rejectGroupCyclesFrom groups fuel name search).run = some (.error e)) :
    ∃ name, Relation.TransGen (Nests groups) name name := by
  induction fuel generalizing name search with
  | zero => cases h
  | succ fuel ih =>
    rw [rejectGroupCyclesFrom] at h
    split at h
    · cases h
    next hd =>
    split at h
    · next hf => exact ⟨name, hp name hf⟩
    next hf =>
    have hle : ∀ between : CycleSearch, between.visiting = name :: search.visiting →
        names.length < between.visiting.length + fuel := by
      intro between hv
      rw [hv, length_cons]
      omega
    obtain hw | ⟨walked, -, h⟩ := run_error_iff.1 h
    · obtain ⟨other, ho, between, hb, hv, he⟩ := exploreAll_error
        (fun _ ho _ _ hb hv => rejectGroupCyclesFrom_ok hn ho (hle _ hv) hb)
        (hn name hna) (hs.enter hna hd hf) rfl hw
      have hl := nests_of_mem ho
      refine ih (hn name hna ho) (hle _ hv) hb ?_ he
      rw [hv]
      exact forall_mem_cons.2 ⟨.single hl, fun before hbe => (hp before hbe).tail hl⟩
    · cases h

/-- What a group leads to stands lower in the order in which the search was done. -/
theorem lower_of_nested (hu : (groups.map (·.id)).Nodup)
    (ho : Topological.Ordered (referencesOf groups) done) (ha : groups.map (·.id) ⊆ done)
    (h : Relation.TransGen (Nests groups) outer nested) :
    Topological.rank nested done < Topological.rank outer done := by
  have hst : ∀ outer nested, Nests groups outer nested →
      Topological.rank nested done < Topological.rank outer done := by
    intro outer nested hl
    obtain ⟨group, hg, rfl, -⟩ := id hl
    exact (ho.rank_lt_of_mem (ha (mem_map_of_mem hg)) (mem_of_nests hu hl)).2
  induction h with
  | single hl => exact hst _ _ hl
  | tail _ hl ih => exact Nat.lt_trans (hst _ _ hl) ih

/-- In whatever order the map lists its keys, the search ends within one call for each
group and one more, and it fails exactly when some group leads back to itself. -/
theorem group_cycles_rejected (device : DeviceDescriptor)
    (hunique : (device.groups.map (·.id)).Nodup)
    (hmembers : ∀ group ∈ device.groups, ∀ nested, .group nested ∈ group.members →
      nested ∈ device.groups.map (·.id))
    {order : List String} (horder : order.Perm (device.groups.map (·.id)))
    {fuel : ℕ} (hfuel : device.groups.length < fuel) :
    ∃ outcome, rejectGroupCyclesIn device.groups fuel order = some outcome ∧
      ((∃ error, outcome = .error error) ↔
        ∃ name, Relation.TransGen (Nests device.groups) name name) := by
  have hr : ∀ g ∈ device.groups, groupReferences g ⊆ device.groups.map (·.id) :=
    fun g hg nested hi => hmembers g hg nested (mem_groupReferences.1 hi)
  have hn := references_subset hr
  obtain ⟨outcome, he⟩ := rejectGroupCyclesIn_ends hfuel
  refine ⟨outcome, he, ?_⟩
  cases outcome with
  | ok search =>
    obtain ⟨ho, -, hd⟩ := searchAll_ok hr hfuel horder.subset he
    refine iff_of_false (fun ⟨_, h⟩ => nomatch h) fun ⟨name, hc⟩ => ?_
    exact Nat.lt_irrefl _ (lower_of_nested hunique ho (List.Subset.trans horder.symm.subset hd) hc)
  | error error =>
    have hlevels : ∀ search : CycleSearch,
        (device.groups.map (·.id)).length < search.visiting.length + fuel := by
      intro search
      rw [length_map]
      omega
    obtain ⟨name, hna, between, hb, hv, he⟩ := exploreAll_error
      (fun _ hna _ _ hb _ => rejectGroupCyclesFrom_ok hn hna (hlevels _) hb) horder.subset
      searched_empty rfl he
    refine iff_of_true ⟨error, rfl⟩
      (rejectGroupCyclesFrom_error hn (horder.subset hna) (hlevels _) hb ?_ he)
    rw [hv]
    exact fun _ h => absurd h not_mem_nil

/-- Two groups that share a third one. -/
def sharing : DeviceDescriptor where
  id := "lamp"
  name := "Lamp"
  groups := [⟨"desk", "Desk", [.group "keys"], {}⟩, ⟨"room", "Room", [.group "keys"], {}⟩,
    ⟨"keys", "Keys", [], {}⟩]

/-- Desk and room share the keys without a cycle. -/
theorem shared_group_searched :
    ∃ outcome, rejectGroupCyclesIn sharing.groups 4 ["room", "keys", "desk"] = some outcome ∧
      ((∃ error, outcome = .error error) ↔
        ∃ name, Relation.TransGen (Nests sharing.groups) name name) :=
  group_cycles_rejected sharing (by decide) (by simp [sharing]) (by decide) (by decide)

end GroupCycles
