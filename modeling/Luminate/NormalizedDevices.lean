import Luminate.Normalization
import Luminate.TargetTopology
import Luminate.Topological

/-! # Normalized devices

What the checks of `normalize.rs` establish for the devices they produce:
identifiers are not empty and unique in their scope, and groups refer to what is
there and do not nest in a cycle. -/
namespace NormalizedDevices

open Checks DeviceModel Normalization List

section

variable {groups : List GroupDescriptor}

/-- The names that the search can meet, those being expanded, and those done. -/
structure Searched (groups : List GroupDescriptor) (names : List String) (search : CycleSearch) :
    Prop where
  ordered : Topological.Ordered (referencesOf groups) search.visited
  visited : search.visited ⊆ names
  visiting : search.visiting ⊆ names
  distinct : search.visiting.Nodup
  apart : ∀ name ∈ search.visiting, name ∉ search.visited

/-- What the search from one name leaves behind. -/
structure Explored (groups : List GroupDescriptor) (names : List String)
    (search result : CycleSearch) (name : String) : Prop where
  searched : Searched groups names result
  visiting : result.visiting = search.visiting
  visited : search.visited ⊆ result.visited
  done : name ∈ result.visited

theorem exploreAll_ok {explore : CycleSearch → String → ExceptT String Option CycleSearch}
    (hex : ∀ name ∈ names, ∀ search result, Searched groups names search →
      search.visiting = vis → (explore search name).run = some (.ok result) →
        Explored groups names search result name) (hm : ms ⊆ names)
    (hs : Searched groups names search) (hv : search.visiting = vis)
    (h : (ms.foldlM explore search).run = some (.ok result)) :
    Searched groups names result ∧ result.visiting = vis ∧
      search.visited ⊆ result.visited ∧ ms ⊆ result.visited := by
  induction ms generalizing search with
  | nil =>
    cases h
    exact ⟨hs, hv, Subset.refl _, nil_subset _⟩
  | cons name rest ih =>
    rw [foldlM_cons] at h
    obtain ⟨between, hb, h⟩ := run_ok_iff.1 h
    obtain ⟨hn, hre⟩ := cons_subset.1 hm
    have he := hex name hn search between hs hv hb
    obtain ⟨hr, hsa, hk, hd⟩ := ih hre he.searched (he.visiting.trans hv) h
    exact ⟨hr, hsa, Subset.trans he.visited hk, cons_subset.2 ⟨hk he.done, hd⟩⟩

theorem Searched.enter (hs : Searched groups names search) (hn : name ∈ names)
    (hd : name ∉ search.visited) (hf : name ∉ search.visiting) :
    Searched groups names { search with visiting := name :: search.visiting } :=
  ⟨hs.ordered, hs.visited, cons_subset.2 ⟨hn, hs.visiting⟩, nodup_cons.2 ⟨hf, hs.distinct⟩,
    forall_mem_cons.2 ⟨hd, hs.apart⟩⟩

/-- With a level for each name, the search from a name ends with the name and all
that it leads to in order. -/
theorem rejectGroupCyclesFrom_ok (hn : ∀ name ∈ names, referencesOf groups name ⊆ names)
    {name : String} (hna : name ∈ names) (hfu : names.length < search.visiting.length + fuel)
    (hs : Searched groups names search)
    (h : (rejectGroupCyclesFrom groups fuel name search).run = some (.ok result)) :
    Explored groups names search result name := by
  induction fuel generalizing name search result with
  | zero =>
    have hle := (subperm_of_subset hs.distinct hs.visiting).length_le
    omega
  | succ fuel ih =>
    rw [rejectGroupCyclesFrom] at h
    split at h
    · next hvi =>
      cases h
      exact ⟨hs, rfl, Subset.refl _, hvi⟩
    · next hne =>
      split at h
      · cases h
      next hf =>
      obtain ⟨walked, hw, h⟩ := run_ok_iff.1 h
      cases h
      obtain ⟨hr, hsa, hk, hd⟩ := exploreAll_ok (fun other ho pre after hb hv ha => ih ho (by
          rw [hv, length_cons]
          omega) hb ha) (hn name hna) (hs.enter hna hne hf) rfl hw
      have he : walked.visiting.erase name = search.visiting := by
        rw [hsa]
        exact erase_cons_head name search.visiting
      have hun : ∀ other ∈ name :: search.visiting, other ∉ walked.visited := by
        rw [← show walked.visiting = name :: search.visiting from hsa]
        exact hr.apart
      obtain ⟨hse, hot⟩ := forall_mem_cons.1 hun
      refine ⟨⟨.cons hd hse hr.ordered, cons_subset.2 ⟨hna, hr.visited⟩,
        ?_, ?_, ?_⟩, he, subset_cons_of_subset name hk, mem_cons_self⟩
      · rw [he]
        exact hs.visiting
      · rw [he]
        exact hs.distinct
      · rw [he]
        intro other ho hl
        rcases mem_cons.1 hl with rfl | hl
        · exact hf ho
        · exact hot other ho hl

theorem references_subset (hn : ∀ g ∈ groups, groupReferences g ⊆ groups.map (·.id)) :
    ∀ name ∈ groups.map (·.id), referencesOf groups name ⊆ groups.map (·.id) := by
  intro name _
  rw [referencesOf]
  cases hf : groups.find? (·.id == name) with
  | none => exact nil_subset _
  | some g => exact hn g (mem_of_find?_eq_some hf)

theorem searched_empty : Searched groups names {} :=
  ⟨.nil, nil_subset _, nil_subset _, nodup_nil, fun _ h => absurd h not_mem_nil⟩

/-- The search from each name of a list, with a level for each group to spare. -/
theorem searchAll_ok (hn : ∀ g ∈ groups, groupReferences g ⊆ groups.map (·.id))
    (hf : groups.length < fuel) {order : List String} (ho : order ⊆ groups.map (·.id))
    (h : rejectGroupCyclesIn groups fuel order = some (.ok search)) :
    Topological.Ordered (referencesOf groups) search.visited ∧
      search.visited ⊆ groups.map (·.id) ∧ order ⊆ search.visited := by
  obtain ⟨hs, -, -, hd⟩ := exploreAll_ok (fun name hna pre after hb hv ha =>
      rejectGroupCyclesFrom_ok (references_subset hn) hna (by
        rw [hv, length_map]
        omega) hb ha) ho searched_empty rfl h
  exact ⟨hs.ordered, hs.visited, hd⟩

end

structure Distinct (ids : List String) : Prop where
  named : ∀ id ∈ ids, id ≠ ""
  nodup : ids.Nodup

theorem Distinct.nil : Distinct [] := ⟨fun _ h => absurd h not_mem_nil, nodup_nil⟩

theorem Distinct.cons {α : Type} {key : α → String} (it : α) {rest : List α} (hn : key it ≠ "")
    (hne : key it ∉ seen) (h : Distinct (rest.map key))
    (hf : ∀ other ∈ rest, key other ∉ key it :: seen) :
    Distinct ((it :: rest).map key) ∧ ∀ other ∈ it :: rest, key other ∉ seen := by
  have hu : key it ∉ rest.map key := by
    intro hl
    obtain ⟨other, ho, hs⟩ := mem_map.1 hl
    exact hf other ho (hs ▸ mem_cons_self)
  refine ⟨⟨forall_mem_cons.2 ⟨hn, h.named⟩, nodup_cons.2 ⟨hu, h.nodup⟩⟩,
    forall_mem_cons.2 ⟨hne, fun other ho hk => ?_⟩⟩
  exact hf other ho (mem_cons_of_mem _ hk)

theorem normalizeElements_ok {surf : String} {descs : List ElementDescriptor}
    (h : normalizeElements surf descs ids names = .ok elements) :
    Distinct (elements.map (·.id)) ∧ ∀ el ∈ elements, el.id ∉ ids := by
  induction descs generalizing ids names elements with
  | nil =>
    cases h
    exact ⟨.nil, fun _ h => absurd h not_mem_nil⟩
  | cons desc rest ih =>
    rw [normalizeElements, then_ok_iff] at h
    obtain ⟨hn, h⟩ := h
    obtain ⟨-, h⟩ := then_ok_iff.1 h
    obtain ⟨-, h⟩ := then_ok_iff.1 h
    obtain ⟨hne, h⟩ := then_ok_iff.1 h
    obtain ⟨names', -, h⟩ := bind_ok_iff.1 h
    obtain ⟨others, ho, h⟩ := bind_ok_iff.1 h
    cases h
    obtain ⟨hd, hf⟩ := ih ho
    exact hd.cons _ (by simpa using hn) (by simpa using hne) hf

theorem normalizeSurfaces_ok {d : String} {descs : List SurfaceDescriptor}
    (h : normalizeSurfaces d descs ids names = .ok surfaces) :
    Distinct (surfaces.map (·.id)) ∧ (∀ surf ∈ surfaces, surf.id ∉ ids) ∧
      ∀ surf ∈ surfaces, Distinct (surf.elements.map (·.id)) := by
  induction descs generalizing ids names surfaces with
  | nil =>
    cases h
    exact ⟨.nil, fun _ h => absurd h not_mem_nil, fun _ h => absurd h not_mem_nil⟩
  | cons desc rest ih =>
    rw [normalizeSurfaces, then_ok_iff] at h
    obtain ⟨hn, h⟩ := h
    obtain ⟨-, h⟩ := then_ok_iff.1 h
    obtain ⟨-, h⟩ := then_ok_iff.1 h
    obtain ⟨-, h⟩ := then_ok_iff.1 h
    obtain ⟨hne, h⟩ := then_ok_iff.1 h
    obtain ⟨-, h⟩ := then_ok_iff.1 h
    obtain ⟨elements, he, h⟩ := bind_ok_iff.1 h
    obtain ⟨others, ho, h⟩ := bind_ok_iff.1 h
    cases h
    obtain ⟨hd, hf, hi⟩ := ih ho
    obtain ⟨ha, hf⟩ := hd.cons ⟨desc.id, elements, desc.capabilities⟩
      (by simpa using hn) (by simpa using hne) hf
    exact ⟨ha, hf, forall_mem_cons.2 ⟨(normalizeElements_ok he).1, hi⟩⟩

theorem checkGroups_ok {d : String} {groups : List GroupDescriptor}
    (h : checkGroups d groups ids names = .ok ()) :
    Distinct (groups.map (·.id)) ∧ ∀ g ∈ groups, g.id ∉ ids := by
  induction groups generalizing ids names with
  | nil => exact ⟨.nil, fun _ h => absurd h not_mem_nil⟩
  | cons g rest ih =>
    rw [checkGroups, then_ok_iff] at h
    obtain ⟨hn, h⟩ := h
    obtain ⟨-, h⟩ := then_ok_iff.1 h
    obtain ⟨-, h⟩ := then_ok_iff.1 h
    obtain ⟨hne, h⟩ := then_ok_iff.1 h
    obtain ⟨-, h⟩ := then_ok_iff.1 h
    obtain ⟨hd, hf⟩ := ih h
    exact hd.cons _ (by simpa using hn) (by simpa using hne) hf

def memberOf : GroupMemberDescriptor → GroupMember
  | .surface surface => .surface surface
  | .element surface element => .element surface element
  | .group group => .group group

def groupOf (group : GroupDescriptor) : Group :=
  ⟨group.id, group.members.map memberOf, group.capabilities⟩

theorem normalizeGroupMember_ok (h : normalizeGroupMember d g desc = .ok m) :
    m = memberOf desc ∧ ∀ n, desc = .group n → n ∈ d.groups.map (·.id) := by
  cases desc with
  | surface surf =>
    obtain ⟨-, h⟩ := then_ok_iff.1 h
    cases h
    exact ⟨rfl, nofun⟩
  | element surf el =>
    rw [normalizeGroupMember] at h
    split at h
    · cases h
    · obtain ⟨-, h⟩ := then_ok_iff.1 h
      cases h
      exact ⟨rfl, nofun⟩
  | group n =>
    obtain ⟨-, h⟩ := then_ok_iff.1 h
    obtain ⟨hk, h⟩ := then_ok_iff.1 h
    cases h
    refine ⟨rfl, fun other ho => ?_⟩
    cases ho
    obtain ⟨known, hm, hid⟩ := any_eq_true.1 (ensure_ok_iff.1 hk)
    exact mem_map.2 ⟨known, hm, beq_iff_eq.1 hid⟩

theorem find_id {α : Type} {key : α → String} {is : List α} {it : α}
    (h : (is.map key).Nodup) (hm : it ∈ is) : is.find? (key · == key it) = some it := by
  induction is with
  | nil => exact absurd hm not_mem_nil
  | cons first rest ih =>
    obtain ⟨hn, hr⟩ := nodup_cons.1 h
    rcases mem_cons.1 hm with rfl | hm
    · exact find?_cons_of_pos (beq_self_eq_true _)
    · have hne : key first ≠ key it := fun hs => hn (hs ▸ mem_map_of_mem hm)
      rw [find?_cons_of_neg (by simpa using hne)]
      exact ih hr hm

structure Ranked (groups : List Group) (rank : GroupId → ℕ) : Prop where
  bounded : ∀ group ∈ groups, rank group.id < groups.length
  nested : ∀ group ∈ groups, ∀ inner, .group inner ∈ group.members → rank inner < rank group.id

structure Normalized (device : Device) : Prop where
  named : device.id ≠ ""
  surfaces : Distinct (device.surfaces.map (·.id))
  elements : ∀ surface ∈ device.surfaces, Distinct (surface.elements.map (·.id))
  groups : Distinct (device.groups.map (·.id))
  ranked : ∃ rank, Ranked device.groups rank

theorem normalizeGroups_ok {d : DeviceDescriptor} {groups : List Group}
    (h : normalizeGroups d = .ok groups) :
    Distinct (groups.map (·.id)) ∧ ∃ rank, Ranked groups rank := by
  rw [normalizeGroups, then_ok_iff] at h
  obtain ⟨hc, h⟩ := h
  obtain ⟨mapped, hma, h⟩ := bind_ok_iff.1 h
  obtain ⟨search, hs, h⟩ := bind_ok_iff.1 h
  cases h
  have hgr : groups = d.groups.map groupOf := by
    refine mapM_ok_eq_map (fun desc g hg => ?_) hma
    obtain ⟨ms, hm, hg⟩ := bind_ok_iff.1 hg
    cases hg
    rw [groupOf, mapM_ok_eq_map (fun _ _ h => (normalizeGroupMember_ok h).1) hm]
  have hid : (d.groups.map groupOf).map (·.id) = d.groups.map (·.id) := by
    rw [map_map]
    rfl
  obtain ⟨hdi, -⟩ := checkGroups_ok hc
  have hre : ∀ g ∈ d.groups, groupReferences g ⊆ d.groups.map (·.id) := by
    intro g hg n hn
    obtain ⟨m, hme, hr⟩ := mem_filterMap.1 hn
    obtain ⟨_, hok⟩ := mapM_ok_of_mem hma g hg
    obtain ⟨ms, hm, -⟩ := bind_ok_iff.1 hok
    obtain ⟨_, hc⟩ := mapM_ok_of_mem hm m hme
    cases m with
    | group inner =>
      cases hr
      exact (normalizeGroupMember_ok hc).2 n rfl
    | surface surf => cases hr
    | element surf el => cases hr
  obtain ⟨ho, hv, ha⟩ := searchAll_ok hre (Nat.lt_succ_self _) (Subset.refl _)
    ((Option.some_get _).symm.trans (congrArg some hs))
  rw [hgr, hid]
  refine ⟨hdi, fun name => Topological.rank name search.visited, ?_, ?_⟩
  · intro g hg
    obtain ⟨desc, hd, rfl⟩ := mem_map.1 hg
    have hl := (subperm_of_subset ho.nodup hv).length_le
    rw [length_map] at hl ⊢
    have hli := ha (mem_map_of_mem hd)
    exact Nat.lt_of_lt_of_le (Topological.rank_lt hli) hl
  · intro g hg inner hi
    obtain ⟨desc, hd, rfl⟩ := mem_map.1 hg
    obtain ⟨m, hme, hmm⟩ := mem_map.1 hi
    have hr : inner ∈ referencesOf d.groups desc.id := by
      rw [referencesOf, find_id hdi.nodup hd]
      cases m <;> cases hmm
      exact mem_filterMap.2 ⟨_, hme, rfl⟩
    exact (ho.rank_lt_of_mem (ha (mem_map_of_mem hd)) hr).2

theorem normalizeDevice_normalized (h : normalizeDevice desc = .ok d) : Normalized d := by
  rw [normalizeDevice, then_ok_iff] at h
  obtain ⟨hn, h⟩ := h
  obtain ⟨-, h⟩ := then_ok_iff.1 h
  obtain ⟨-, h⟩ := then_ok_iff.1 h
  obtain ⟨-, h⟩ := then_ok_iff.1 h
  obtain ⟨surfaces, hs, h⟩ := bind_ok_iff.1 h
  obtain ⟨groups, hg, h⟩ := bind_ok_iff.1 h
  cases h
  obtain ⟨hd, -, he⟩ := normalizeSurfaces_ok hs
  obtain ⟨hd', hr⟩ := normalizeGroups_ok hg
  exact ⟨by simpa using hn, hd, he, hd', hr⟩

end NormalizedDevices
