import Luminate.CollectionGraph

/-! # Projecting collections through a visibility rule

`CollectionGraph::project` of `luminate-core/src/collection.rs`: the collections
as a client sees them that may not see every target. -/
namespace CollectionProjection

open Checks DeviceModel DaemonModel Membership CollectionGraph

abbrev Cache := List (CollectionId × Option Collection)

abbrev Projected := Except CollectionGraphError (Option Collection × Cache)

/-- One member; `projectNested` projects a nested collection. -/
def projectMember (targetVisible : TargetId → Bool)
    (projectNested : Cache → CollectionId → Projected)
    (progress : List CollectionMember × Cache) :
    CollectionMember → Except CollectionGraphError (List CollectionMember × Cache)
  | .target target =>
    .ok (if targetVisible target then progress.1 ++ [.target target] else progress.1, progress.2)
  | .collection nested => do
    let (projected, cache) ← projectNested progress.2 nested
    return (if projected.isSome then progress.1 ++ [.collection nested] else progress.1, cache)

section

variable (collections : List Collection) (targetVisible : TargetId → Bool)
  (emptyVisible : CollectionId → Bool)

def projectOne : ℕ → List CollectionId → Cache → CollectionId → Projected
  | 0, _, _, id => .error (.cycle id)
  | fuel + 1, visiting, cache, id =>
    match cache.lookup id with
    | some projected => .ok (projected, cache)
    | none =>
      match collections.filter (·.id == id) with
      | _ :: _ :: _ => .error (.duplicateCollection id)
      | [] => .error (if id ∈ visiting then .cycle id else .collectionNotFound id)
      | [collection] =>
        if id ∈ visiting then .error (.cycle id)
        else do
          let (members, cache) ← collection.members.foldlM
            (projectMember targetVisible (projectOne fuel (id :: visiting))) ([], cache)
          let projected :=
            if members.isEmpty && !emptyVisible id then none else some { collection with members }
          return (projected, (id, projected) :: cache)

def sortedIds : List CollectionId := (collections.map (·.id)).dedup.insertionSort (· ≤ ·)

def projectNext (progress : List Collection × Cache) (id : CollectionId) :
    Except CollectionGraphError (List Collection × Cache) := do
  let (projected, cache) ←
    projectOne collections targetVisible emptyVisible (collections.length + 1) [] progress.2 id
  return (progress.1 ++ projected.toList, cache)

def project : Except CollectionGraphError (List Collection) := do
  let (projected, _) ← (sortedIds collections).foldlM
    (projectNext collections targetVisible emptyVisible) ([], [])
  return projected

end

variable {collections : List Collection} {targetVisible : TargetId → Bool}
  {emptyVisible : CollectionId → Bool} {id : CollectionId}

section

variable (collections targetVisible emptyVisible)

noncomputable def keepsMember (member : CollectionMember) : Bool :=
  keeps (registryOf collections) targetVisible emptyVisible (link member)

noncomputable def keptPart (collection : Collection) : Collection :=
  { collection with
    members := collection.members.filter (keepsMember collections targetVisible emptyVisible) }

noncomputable def projectionOf (id : CollectionId) : Option Collection :=
  if kept (registryOf collections) targetVisible emptyVisible id then
    (lookup collections id).map (keptPart collections targetVisible emptyVisible)
  else none

def Faithful (cache : Cache) : Prop :=
  ∀ entry ∈ cache, entry.2 = projectionOf collections targetVisible emptyVisible entry.1

end

variable {cache : Cache} {left right : List Collection}

theorem Faithful.lookup (h : Faithful cs visible empty cache)
    (hl : cache.lookup id = some projected) : projected = projectionOf cs visible empty id := by
  obtain ⟨pre, after, rfl, _⟩ := List.lookup_eq_some_iff.1 hl
  exact h (id, projected) (List.mem_append_right _ List.mem_cons_self)

theorem isSome_projectionOf (h : Grounded (registryOf cs) id) :
    (projectionOf cs visible empty id).isSome = kept (registryOf cs) visible empty id := by
  obtain ⟨links, hli⟩ := h.exists_members
  obtain ⟨c, hl, _⟩ := exists_lookup hli
  rw [projectionOf, hl]
  cases kept (registryOf cs) visible empty id
  · rfl
  · rfl

theorem append_if {α : Type} (keep : α → Bool) (pre : List α) (it : α) :
    (if keep it then pre ++ [it] else pre) = pre ++ [it].filter keep := by
  rw [List.filter_singleton]
  cases keep it
  · exact (List.append_nil pre).symm
  · rfl

/-- `projectNested` is right about `nested`, whatever has been projected before. -/
def ProjectsTo (collections : List Collection) (targetVisible : TargetId → Bool)
    (emptyVisible : CollectionId → Bool) (projectNested : Cache → CollectionId → Projected)
    (nested : CollectionId) : Prop :=
  ∀ cache, Faithful collections targetVisible emptyVisible cache →
    ∃ after, projectNested cache nested =
        .ok (projectionOf collections targetVisible emptyVisible nested, after) ∧
      Faithful collections targetVisible emptyVisible after

theorem projectMembers_ok {ms : List CollectionMember}
    (hn : ∀ n, .collection n ∈ ms → Grounded (registryOf cs) n ∧
        ProjectsTo cs visible empty projectNested n) (pre : List CollectionMember)
    (hc : Faithful cs visible empty cache) :
    ∃ after, ms.foldlM (projectMember visible projectNested) (pre, cache) =
        .ok (pre ++ ms.filter (keepsMember cs visible empty), after) ∧
      Faithful cs visible empty after := by
  induction ms generalizing pre cache with
  | nil => exact ⟨cache, by rw [List.filter_nil, List.append_nil]; rfl, hc⟩
  | cons m ms ih =>
    -- The first member is appended exactly when it is kept.
    have hfi : ∃ after, projectMember visible projectNested (pre, cache) m =
          .ok (pre ++ [m].filter (keepsMember cs visible empty), after) ∧
        Faithful cs visible empty after := by
      cases m with
      | target target =>
        refine ⟨cache, ?_, hc⟩
        rw [← append_if]
        rfl
      | collection n =>
        obtain ⟨hg, hpr⟩ := hn n List.mem_cons_self
        obtain ⟨after, hp, ha⟩ := hpr cache hc
        refine ⟨after, ?_, ha⟩
        have hk : keepsMember cs visible empty (.collection n) =
            (projectionOf cs visible empty n).isSome := (isSome_projectionOf hg).symm
        rw [projectMember, hp, ← append_if, hk]
        rfl
    obtain ⟨between, hb, hf⟩ := hfi
    obtain ⟨after, ha, hf⟩ := ih (fun n h => hn n (List.mem_cons_of_mem _ h)) _ hf
    refine ⟨after, ?_, hf⟩
    rw [List.foldlM_cons, hb, ok_bind, ha, List.append_assoc, ← List.filter_append]
    rfl

theorem projectionOf_eq (hl : lookup cs id = some c) (hg : Grounded (registryOf cs) id) :
    projectionOf cs visible empty id = if (keptPart cs visible empty c).members.isEmpty &&
          !empty id then none
      else some (keptPart cs visible empty c) := by
  have he : (keptPart cs visible empty c).members.isEmpty =
      !c.members.any (keepsMember cs visible empty) := by
    rw [Bool.eq_iff_iff, keptPart, List.isEmpty_iff, List.filter_eq_nil_iff, Bool.not_eq_true',
      List.any_eq_false]
  have hk : kept (registryOf cs) visible empty id =
      (c.members.any (keepsMember cs visible empty) || empty id) := by
    rw [kept_eq hg (registryOf_eq hl), List.any_map]
    rfl
  rw [projectionOf, hl, hk, he]
  cases c.members.any (keepsMember cs visible empty)
  · cases empty id
    · rfl
    · rfl
  · rfl

theorem projectOne_ok (hg : Grounded (registryOf cs) id) : ProjectsTo cs visible empty
      (projectOne cs visible empty (cs.length + 1) []) id := by
  refine walk_induction_from_start (motive := fun fuel vis id => ProjectsTo cs visible empty
      (projectOne cs visible empty fuel vis) id) ?_ hg
  intro fuel vis id c hl hs hne ih cache hca
  cases hc : cache.lookup id with
  | some projected =>
    refine ⟨cache, ?_, hca⟩
    rw [projectOne, hc, hca.lookup hc]
  | none =>
    have hn : ∀ n, .collection n ∈ c.members →
        Grounded (registryOf cs) n ∧ ProjectsTo cs visible empty
          (projectOne cs visible empty fuel (id :: vis)) n :=
      fun n hm =>
        ⟨hs.of_contains ⟨_, registryOf_eq hl, inr_mem_links.2 hm⟩, ih n hm⟩
    obtain ⟨after, ha, hf⟩ := projectMembers_ok hn [] hca
    have hp : projectionOf cs visible empty id = _ := projectionOf_eq hl hs
    refine ⟨(id, projectionOf cs visible empty id) :: after, ?_, ?_⟩
    · rw [projectOne, hc, lookup_eq_some.1 hl]
      simp only [if_neg hne, ha, ok_bind, List.nil_append]
      rw [hp]
      rfl
    · intro entry he
      obtain rfl | he := List.mem_cons.1 he
      · rfl
      · exact hf entry he

theorem mem_sortedIds : id ∈ sortedIds cs ↔ ∃ stored ∈ cs, stored.id = id := by
  rw [sortedIds, (List.perm_insertionSort _ _).mem_iff, List.mem_dedup, List.mem_map]

theorem nodup_sortedIds : (sortedIds cs).Nodup :=
  (List.perm_insertionSort _ _).nodup_iff.2 (List.nodup_dedup _)

theorem projectAll_ok {ids : List CollectionId}
    (hg : ∀ id ∈ ids, Grounded (registryOf cs) id) (pre : List Collection)
    (hc : Faithful cs visible empty cache) :
    ∃ after, ids.foldlM (projectNext cs visible empty) (pre, cache) =
      .ok (pre ++ ids.filterMap (projectionOf cs visible empty), after) := by
  induction ids generalizing pre cache with
  | nil => exact ⟨cache, by rw [List.filterMap_nil, List.append_nil]; rfl⟩
  | cons id ids ih =>
    obtain ⟨between, hp, hf⟩ := projectOne_ok (hg id List.mem_cons_self) cache hc
    obtain ⟨after, ha⟩ := ih (fun id h => hg id (List.mem_cons_of_mem _ h))
      (pre ++ (projectionOf cs visible empty id).toList) hf
    refine ⟨after, ?_⟩
    rw [List.foldlM_cons, projectNext, hp]
    apply Eq.trans ha
    rw [List.append_assoc]
    cases hid : projectionOf cs visible empty id with
    | none => rw [List.filterMap_cons_none hid]; rfl
    | some projected => rw [List.filterMap_cons_some hid]; rfl

noncomputable def projection (collections : List Collection) (targetVisible : TargetId → Bool)
    (emptyVisible : CollectionId → Bool) : List Collection :=
  (sortedIds collections).filterMap (projectionOf collections targetVisible emptyVisible)

theorem project_ok (h : Sound cs) : project cs visible empty =
      .ok (projection cs visible empty) := by
  have hg : ∀ id ∈ sortedIds cs, Grounded (registryOf cs) id := by
    intro id hid
    obtain ⟨c, hm, rfl⟩ := mem_sortedIds.1 hid
    exact h.grounded hm
  have he : Faithful cs visible empty [] := fun _ h => absurd h List.not_mem_nil
  obtain ⟨after, ha⟩ := projectAll_ok hg [] he
  rw [project, ha]
  rfl

theorem projectionOf_some (h : projectionOf cs visible empty id = some c) :
    kept (registryOf cs) visible empty id = true ∧ ∃ original, lookup cs id = some original ∧
        c = keptPart cs visible empty original := by
  rw [projectionOf] at h
  split at h
  · next hk =>
    obtain ⟨original, hl, rfl⟩ := Option.map_eq_some_iff.1 h
    exact ⟨hk, original, hl, rfl⟩
  · cases h

theorem projectionOf_id (h : projectionOf cs visible empty id = some c) : c.id = id := by
  obtain ⟨_, original, hl, rfl⟩ := projectionOf_some h
  exact (lookup_mem hl).2

theorem mem_projection : c ∈ projection cs visible empty ↔
      projectionOf cs visible empty c.id = some c := by
  rw [projection, List.mem_filterMap]
  constructor
  · rintro ⟨id, _, hid⟩
    rw [projectionOf_id hid]
    exact hid
  · intro h
    obtain ⟨_, original, hl, _⟩ := projectionOf_some h
    obtain ⟨hm, hid⟩ := lookup_mem hl
    exact ⟨c.id, mem_sortedIds.2 ⟨original, hm, hid⟩, h⟩

theorem nodup_projection : ((projection cs visible empty).map (·.id)).Nodup := by
  rw [List.nodup_iff_pairwise_ne, List.pairwise_map, projection, List.pairwise_filterMap]
  apply nodup_sortedIds.imp
  intro left right hne first hf second hs heq
  rw [projectionOf_id hf, projectionOf_id hs] at heq
  exact hne heq

theorem registryOf_projection : registryOf (projection cs visible empty) =
      prune (registryOf cs) visible empty := by
  have hl : ∀ id, lookup (projection cs visible empty) id = projectionOf cs visible empty id := by
    intro id
    refine Option.ext fun c => ?_
    rw [lookup_iff nodup_projection, mem_projection]
    constructor
    · rintro ⟨h, rfl⟩
      exact h
    · intro h
      have hid := projectionOf_id h
      exact ⟨hid.symm ▸ h, hid⟩
  funext id
  rw [registryOf, hl, projectionOf, prune]
  split
  · rw [registryOf, Option.map_map, Option.map_map]
    congr 1
    funext c
    exact (List.filter_map ..).symm
  · rfl

theorem grounded_of_mem_projection (h : Sound cs) (hm : c ∈ projection cs visible empty) :
    Grounded (registryOf cs) c.id ∧ kept (registryOf cs) visible empty c.id = true := by
  obtain ⟨hk, original, hl, _⟩ := projectionOf_some (mem_projection.1 hm)
  obtain ⟨ho, hid⟩ := lookup_mem hl
  exact ⟨hid ▸ h.grounded ho, hk⟩

theorem sound_projection (h : Sound cs) : Sound (projection cs visible empty) := by
  refine sound_of_grounded nodup_projection fun c hm => ?_
  obtain ⟨hg, hk⟩ := grounded_of_mem_projection h hm
  rw [registryOf_projection]
  exact grounded_prune hg hk

theorem resolveLeaves_projection (h : Sound cs) (hm : c ∈ projection cs visible empty) :
    ∃ leaves, resolveLeaves cs c.id = .ok leaves ∧
      resolveLeaves (projection cs visible empty) c.id = .ok (leaves.filter visible) := by
  obtain ⟨hg, hk⟩ := grounded_of_mem_projection h hm
  refine ⟨_, resolveLeaves_ok_iff.2 ⟨hg, rfl⟩, resolveLeaves_ok_iff.2 ?_⟩
  rw [registryOf_projection]
  refine ⟨grounded_prune hg hk, ?_⟩
  rw [addAll_filter, flatten_filter empty hg, if_pos hk]
  rfl

/-- A collection with a visible leaf below it is kept. -/
theorem kept_of_visible_leaf (h : Sound cs) (hm : c ∈ cs) (hl : resolveLeaves cs c.id = .ok leaves)
    (ht : target ∈ leaves) (hv : visible target = true) :
    ∃ projected, project cs visible empty = .ok projected ∧ ∃ seen ∈ projected, seen.id = c.id := by
  obtain ⟨hg, rfl⟩ := resolveLeaves_ok_iff.1 hl
  have hf : target ∈ flatten (registryOf cs) c.id := (mem_addAll.1 ht).resolve_left List.not_mem_nil
  have hs : target ∈ (flatten (registryOf cs) c.id).filter visible := List.mem_filter.2 ⟨hf, hv⟩
  rw [flatten_filter empty hg] at hs
  split at hs
  · next hk =>
    have hp : projectionOf cs visible empty c.id = some (keptPart cs visible empty c) := by
      rw [projectionOf, if_pos hk, lookup_of_mem h.unique hm]
      rfl
    have hm : keptPart cs visible empty c ∈ projection cs visible empty := mem_projection.2 hp
    exact ⟨_, project_ok h, _, hm, rfl⟩
  · cases hs

section

variable (targetVisible)

def shows : CollectionMember → Bool
  | .target target => targetVisible target
  | .collection _ => true

def hideTargets (collection : Collection) : Collection :=
  { collection with members := collection.members.filter (shows targetVisible) }

/-- The registries hold the same collections, apart from invisible targets. -/
def SameVisible (left right : List Collection) : Prop :=
  (left.map (hideTargets targetVisible)).Perm (right.map (hideTargets targetVisible))

end

theorem projectMembers_hidden (projectNested : Cache → CollectionId → Projected)
    (ms : List CollectionMember) :
    (ms.filter (shows visible)).foldlM (projectMember visible projectNested) progress =
      ms.foldlM (projectMember visible projectNested) progress := by
  induction ms generalizing progress with
  | nil => rfl
  | cons m ms ih =>
    rw [List.foldlM_cons]
    by_cases hs : shows visible m = true
    · rw [List.filter_cons_of_pos hs, List.foldlM_cons]
      simp only [ih]
    · rw [List.filter_cons_of_neg hs, ih]
      cases m with
      | target target =>
        have hh : visible target = false := Bool.eq_false_of_not_eq_true hs
        rw [projectMember, hh]
        rfl
      | collection n => exact absurd rfl hs

theorem projectOne_hidden (vis : List CollectionId) (cache : Cache) (id : CollectionId) :
    projectOne (cs.map (hideTargets visible)) visible empty fuel vis cache id =
      projectOne cs visible empty fuel vis cache id := by
  induction fuel generalizing vis cache id with
  | zero => rfl
  | succ fuel ih =>
    have hn : projectOne (cs.map (hideTargets visible)) visible empty fuel (id :: vis) =
        projectOne cs visible empty fuel (id :: vis) := by
      funext cache nested
      exact ih _ _ _
    have hf : (cs.map (hideTargets visible)).filter (·.id == id) =
        (cs.filter (·.id == id)).map (hideTargets visible) := List.filter_map
    rw [projectOne, projectOne, hf, hn]
    cases cache.lookup id with
    | some projected => rfl
    | none =>
      generalize cs.filter (·.id == id) = found
      match found with
      | [] => rfl
      | [c] => simp [hideTargets, projectMembers_hidden]
      | _ :: _ :: _ => rfl

theorem projectOne_perm (h : left.Perm right) (vis : List CollectionId) (cache : Cache)
    (id : CollectionId) : projectOne left visible empty fuel vis cache id =
      projectOne right visible empty fuel vis cache id := by
  induction fuel generalizing vis cache id with
  | zero => rfl
  | succ fuel ih =>
    have hn : projectOne left visible empty fuel (id :: vis) =
        projectOne right visible empty fuel (id :: vis) := by
      funext cache nested
      exact ih _ _ _
    have hf := h.filter (·.id == id)
    rw [projectOne, projectOne, hn]
    -- A permutation of no or one collection is the same list, and two are a duplicate anyway.
    generalize left.filter (·.id == id) = before at hf
    generalize right.filter (·.id == id) = after at hf
    have hl := hf.length_eq
    match before, after with
    | [], [] => rfl
    | [first], [second] => rw [List.perm_singleton.1 hf]
    | _ :: _ :: _, _ :: _ :: _ => rfl
    | [], _ :: _ | _ :: _, [] | [_], _ :: _ :: _ | _ :: _ :: _, [_] => simp at hl

theorem sortedIds_perm (h : (left.map (·.id)).Perm (right.map (·.id))) :
    sortedIds left = sortedIds right := by
  have hs : ∀ ids : List CollectionId, (ids.insertionSort (· ≤ ·)).Pairwise (· ≤ ·) :=
    List.pairwise_insertionSort _
  apply List.Perm.eq_of_pairwise (fun _ _ _ _ hle hge => le_antisymm hle hge) (hs _) (hs _)
  exact ((List.perm_insertionSort _ _).trans h.dedup).trans (List.perm_insertionSort _ _).symm

/-- The projection is a function of what is visible: nothing else of the registry
influences it, errors included. -/
theorem project_eq_of_sameVisible (h : SameVisible visible left right) :
    project left visible empty = project right visible empty := by
  have hi : (left.map (·.id)).Perm (right.map (·.id)) := by
    have hm := h.map (·.id)
    rwa [List.map_map, List.map_map] at hm
  have hl : left.length = right.length := by simpa using h.length_eq
  have ho : projectOne left visible empty = projectOne right visible empty := by
    funext fuel visiting cache id
    rw [← projectOne_hidden]
    exact (projectOne_perm h visiting cache id).trans (projectOne_hidden visiting cache id)
  have hn : projectNext left visible empty = projectNext right visible empty := by
    funext progress id
    rw [projectNext, projectNext, ho, hl]
  rw [project, project, hn, sortedIds_perm hi]

/-- The projection of a sound registry is sound, shows visible targets only, keeps the visible
leaves of each collection in order, and depends on nothing hidden. -/
theorem projection_hides_without_distorting (targetVisible : TargetId → Bool)
    (emptyVisible : CollectionId → Bool) (h : Sound collections) :
    ∃ projected, project collections targetVisible emptyVisible = .ok projected ∧ Sound projected ∧
      (∀ seen ∈ projected, ∀ target, .target target ∈ seen.members → targetVisible target = true) ∧
      (∀ seen ∈ projected, ∃ leaves, resolveLeaves collections seen.id = .ok leaves ∧
        resolveLeaves projected seen.id = .ok (leaves.filter targetVisible)) ∧
      ∀ other, SameVisible targetVisible collections other →
        project other targetVisible emptyVisible = .ok projected := by
  refine ⟨projection collections targetVisible emptyVisible, project_ok h, sound_projection h,
    fun seen hm target ht => ?_, fun seen hm => resolveLeaves_projection h hm, fun other hs => ?_⟩
  · obtain ⟨_, original, _, rfl⟩ := projectionOf_some (mem_projection.1 hm)
    exact (List.mem_filter.1 ht).2
  · rw [← project_eq_of_sameVisible hs]
    exact project_ok h

def sampleCollections : List Collection :=
  [⟨"room", "Room", none, .uid 1000, none,
      [.target (.device "lamp"), .collection "desk", .target (.device "strip")]⟩,
    ⟨"studio", "Studio", none, .uid 1000, none, [.collection "desk", .collection "safe"]⟩,
    ⟨"desk", "Desk", none, .uid 1000, none,
      [.target (.device "keyboard"), .target (.device "strip")]⟩,
    ⟨"safe", "Safe", none, .uid 1000, none, [.target (.device "lamp")]⟩]

theorem sampleCollections_sound : Sound sampleCollections :=
  sound_of_resolved (by decide) (by decide)

/-- The studio shows the guests the keyboard on its desk. -/
theorem studio_kept_for_guests :
    ∃ projected, project sampleCollections (· ≠ .device "lamp") (fun _ => false) = .ok projected ∧
      ∃ seen ∈ projected, seen.id = "studio" :=
  kept_of_visible_leaf sampleCollections_sound (List.getElem_mem (n := 1) (by decide)) rfl
    List.mem_cons_self (by decide)

/-- The safe holds nothing but the lamp, so it is hidden with it. -/
theorem safe_hidden_from_guests :
    ∃ projected, project sampleCollections (· ≠ .device "lamp") (fun _ => false) = .ok projected ∧
      projected.map (·.id) = ["desk", "room", "studio"] ∧ Sound projected ∧
      ∀ seen ∈ projected, ∃ leaves, resolveLeaves sampleCollections seen.id = .ok leaves ∧
        resolveLeaves projected seen.id = .ok (leaves.filter (· ≠ .device "lamp")) := by
  obtain ⟨projected, hp, hs, _, hl, _⟩ := projection_hides_without_distorting
    (· ≠ .device "lamp") (fun _ => false) sampleCollections_sound
  have hi : (project sampleCollections (· ≠ .device "lamp") (fun _ => false)).map
      (List.map (·.id)) = .ok ["desk", "room", "studio"] := by decide
  rw [hp] at hi
  exact ⟨projected, hp, Except.ok.inj hi, hs, hl⟩

end CollectionProjection
