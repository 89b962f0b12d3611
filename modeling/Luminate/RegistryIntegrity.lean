import Luminate.LoadValidation
import Luminate.SceneApplication
import Luminate.Transition

/-! # The collection and scene registries over whole runs

The mutations of `state/collection.rs` and `state/scene.rs`, with the changes they
take back when the state could not be persisted, and restoration at startup. -/
namespace RegistryIntegrity

open Checks DeviceModel DaemonModel Membership CollectionGraph PersistedSnapshot Adoption List Std
  SceneApplication LoadValidation List ExtTreeMap

/-- The variants of `DaemonError` that only these operations return, next to the
others. -/
inductive RegistryError where
  | daemon (error : DaemonError)
  | collectionSelfReference (id : CollectionId)
  | collectionInUse (id : CollectionId) (referencedBy : List CollectionId)
  | collectionReferencedByScene (collection : CollectionId) (scene : SceneId)
  | sceneNotFound (id : SceneId)
  | sceneRevisionConflict (id : SceneId) (expected actual : ℕ)
  deriving DecidableEq

abbrev Outcome (α : Type) := Except RegistryError α × DaemonState

/-- `?` before anything has changed. -/
def attempt {α β : Type} (state : DaemonState) (check : Except RegistryError α)
    (next : α → Outcome β) : Outcome β :=
  match check with
  | .ok value => next value
  | .error error => (.error error, state)

/-- A change that is kept only if the state can still be persisted; `previous` is the
state with the change taken back. -/
def keepIfPersistable {α : Type} (platform : Platform) (changed previous : DaemonState)
    (result : α) : Outcome α :=
  match ensurePersistable platform changed with
  | .ok () => (.ok result, changed)
  | .error error => (.error (.daemon error), previous)

section

variable (state : DaemonState) (platform : Platform)

def memberExists : CollectionMember → Except RegistryError Unit
  | .target _ => .ok ()
  | .collection nested =>
    ensure (state.collections.contains nested) (.daemon (.collectionNotFound nested))

def createCollection (id : CollectionId) (name : String) (description : Option String)
    (owner : OwnerIdentity) (kind : Option String) (members : List CollectionMember)
    (state : DaemonState) : Outcome CollectionId :=
  attempt state (checkAll (memberExists state) members) fun _ =>
    let collection : Collection := ⟨id, name, description, owner, kind, addAll [] members⟩
    let created := { state with collections := state.collections.insert id collection }
    keepIfPersistable platform created
      { created with collections := created.collections.erase id } id

def collectionsReferencing (id : CollectionId) : List CollectionId :=
  ((state.collections.toList.map Prod.snd).filter fun collection =>
    collection.id ≠ id ∧ .collection id ∈ collection.members).map (·.id)

def bindsDynamically (id : CollectionId) (scene : Scene) : Bool :=
  scene.bindings.any fun binding => binding.dynamicCollection = some id

def destroyCollection (id : CollectionId) (state : DaemonState) : Outcome Collection :=
  match state.collections[id]? with
  | none => (.error (.daemon (.collectionNotFound id)), state)
  | some collection =>
    if collectionsReferencing state id ≠ [] then
      (.error (.collectionInUse id (collectionsReferencing state id)), state)
    else
      match (state.scenes.toList.map Prod.snd).find? (bindsDynamically id) with
      | some scene => (.error (.collectionReferencedByScene id scene.id), state)
      | none => (.ok collection, { state with collections := state.collections.erase id })

/-- The members in order until one reaches the target. -/
def reachesAny (reaches : List CollectionId → CollectionId → Bool × List CollectionId) :
    List CollectionMember → List CollectionId → Bool × List CollectionId
  | [], visited => (false, visited)
  | .target _ :: members, visited => reachesAny reaches members visited
  | .collection nested :: members, visited =>
    match reaches visited nested with
    | (true, visited) => (true, visited)
    | (false, visited) => reachesAny reaches members visited

/-- `collection_reaches`, with the visited collections it leaves. -/
def collectionReaches (collections : Collections) (target : CollectionId) :
    ℕ → List CollectionId → CollectionId → Bool × List CollectionId
  | 0, visited, _ => (false, visited)
  | fuel + 1, visited, source =>
    if source = target then (true, visited)
    else if source ∈ visited then (false, visited)
    else
      match collections[source]? with
      | none => (false, source :: visited)
      | some collection =>
        reachesAny (collectionReaches collections target fuel) collection.members
          (source :: visited)

def admitMember (id : CollectionId) : CollectionMember → Except RegistryError Unit
  | .target _ => .ok ()
  | .collection nested => do
    ensure (nested ≠ id) (.collectionSelfReference id)
    ensure (state.collections.contains nested) (.daemon (.collectionNotFound nested))
    -- Every level of the search visits another collection, but for the last.
    ensure (!(collectionReaches state.collections id (state.collections.toList.length + 1) []
      nested).1) (.daemon (.collectionCycle nested))

def setMembers (collections : Collections) (id : CollectionId) (members : List CollectionMember) :
    Collections :=
  match collections[id]? with
  | some collection => collections.insert id { collection with members := members }
  | none => collections

def addCollectionMember (id : CollectionId) (member : CollectionMember) (state : DaemonState) :
    Outcome Unit :=
  match state.collections[id]? with
  | none => (.error (.daemon (.collectionNotFound id)), state)
  | some collection =>
    attempt state (admitMember state id member) fun _ =>
      let members :=
        if member ∈ collection.members then collection.members else collection.members ++ [member]
      let added := { state with collections := setMembers state.collections id members }
      keepIfPersistable platform added
        { added with collections := setMembers added.collections id collection.members } ()

def removeCollectionMember (id : CollectionId) (member : CollectionMember) (state : DaemonState) :
    Outcome Unit :=
  match state.collections[id]? with
  | none => (.error (.daemon (.collectionNotFound id)), state)
  | some collection =>
    (.ok (), { state with
      collections := setMembers state.collections id (collection.members.filter (· ≠ member)) })

def createScene (id : SceneId) (name : String) (description : Option String) (owner : OwnerIdentity)
    (bindings : List SceneBinding) (state : DaemonState) : Outcome Scene :=
  let scene : Scene := ⟨id, 1, name, description, owner, bindings⟩
  attempt state ((validateSceneBindings platform state scene).mapError .daemon) fun _ =>
    let created := { state with scenes := state.scenes.insert id scene }
    keepIfPersistable platform created { created with scenes := created.scenes.erase id } scene

def currentScene (id : SceneId) (expectedRevision : ℕ) : Except RegistryError Scene :=
  match state.scenes[id]? with
  | none => .error (.sceneNotFound id)
  | some scene =>
    if scene.revision ≠ expectedRevision then
      .error (.sceneRevisionConflict id expectedRevision scene.revision)
    else .ok scene

def maxRevision : ℕ := 18446744073709551615

def replaceScene (id : SceneId) (expectedRevision : ℕ) (name : String) (description : Option String)
    (bindings : List SceneBinding) (state : DaemonState) : Outcome Scene :=
  attempt state (currentScene state id expectedRevision) fun current =>
    let replacement : Scene :=
      ⟨id, min (current.revision + 1) maxRevision, name, description, current.owner, bindings⟩
    attempt state ((validateSceneBindings platform state replacement).mapError .daemon) fun _ =>
      let replaced := { state with scenes := state.scenes.insert id replacement }
      keepIfPersistable platform replaced
        { replaced with scenes := replaced.scenes.insert id current } replacement

end

def deleteScene (id : SceneId) (expectedRevision : ℕ) (state : DaemonState) : Outcome Scene :=
  attempt state (currentScene state id expectedRevision) fun current =>
    (.ok current, { state with scenes := state.scenes.erase id })

/-- The startup code restores neither registry when no collection was persisted. -/
def restoreRegistries (snapshot : PersistedState) (state : DaemonState) : DaemonState :=
  if snapshot.collections.isEmpty then state
  else { state with collections := snapshot.collections, scenes := snapshot.scenes }

variable {state next : DaemonState} {cs : Collections} {id nested : CollectionId} {c : Collection}

def unseen (collections : Collections) (visited : List CollectionId) : ℕ :=
  (collections.toList.filter fun entry => entry.1 ∉ visited).length

variable {visited : List CollectionId} {members : List CollectionMember} {key : SceneId}
  {name : String} {description : Option String} {expectedRevision : ℕ} {other : CollectionId}

theorem unseen_lt (hfo : cs[src]? = some c) (hn : src ∉ visited) :
    unseen cs (src :: visited) < unseen cs visited := by
  have hf : cs.toList.filter (fun entry => entry.1 ∉ src :: visited) =
      (cs.toList.filter fun entry => entry.1 ∉ visited).filter fun entry => entry.1 ≠ src := by
    rw [filter_filter]
    refine filter_congr fun entry _ => ?_
    simp
  rw [unseen, hf]
  refine length_filter_lt_length_iff_exists.2 ⟨(src, c), ?_, by simp⟩
  refine mem_filter.2 ⟨mem_toList_iff_getElem?_eq_some.2 hfo, ?_⟩
  exact decide_eq_true hn

theorem unseen_anti (h : visited ⊆ more) : unseen cs more ≤ unseen cs visited := by
  apply Sublist.length_le
  refine monotone_filter_right _ fun entry he => ?_
  exact decide_eq_true fun hm => of_decide_eq_true he (h hm)

/-- What the search adds to the visited collections: none of it is the target, and
everything directly below it has been visited too. -/
structure Explored (collections : Collections) (target : CollectionId)
    (visited after : List CollectionId) : Prop where
  grown : visited ⊆ after
  avoids : ∀ id ∈ after, id ∈ visited ∨ id ≠ target
  closed : ∀ id ∈ after, id ∈ visited ∨
    ∀ nested, Contains (memberRegistry collections) id nested → nested ∈ after

theorem Explored.refl (visited : List CollectionId) : Explored cs t visited visited where
  grown := Subset.refl visited
  avoids := fun _ h => .inl h
  closed := fun _ h => .inl h

theorem Explored.trans {between after : List CollectionId} (h : Explored cs t visited between)
    (hne : Explored cs t between after) : Explored cs t visited after where
  grown := Subset.trans h.grown hne.grown
  avoids := fun id hid => (hne.avoids id hid).elim (h.avoids id) .inr
  closed := by
    intro id hid
    obtain hb | hc := hne.closed id hid
    · exact (h.closed id hb).imp_right fun hc nested hn =>
        hne.grown (hc nested hn)
    · exact .inr hc

def Missed (collections : Collections) (target : CollectionId) (visited : List CollectionId)
    (source : CollectionId) (after : List CollectionId) : Prop :=
  Explored collections target visited after ∧ source ∈ after

theorem reachesAny_missed {bound : ℕ} (hr : ∀ visited nested after, unseen cs visited < bound →
      reaches visited nested = (false, after) → Missed cs t visited nested after)
    {after : List CollectionId} (hb : unseen cs visited < bound)
    (h : reachesAny reaches members visited = (false, after)) :
    Explored cs t visited after ∧ ∀ nested, .collection nested ∈ members → nested ∈ after := by
  induction members generalizing visited with
  | nil =>
    obtain rfl := (Prod.mk.inj h).2
    exact ⟨.refl visited, fun _ hm => absurd hm not_mem_nil⟩
  | cons m members ih =>
    cases m with
    | target leaf =>
      obtain ⟨he, hv⟩ := ih hb h
      refine ⟨he, fun nested hm => hv nested ?_⟩
      obtain heq | hm := mem_cons.1 hm
      · cases heq
      · exact hm
    | collection first =>
      rw [reachesAny] at h
      split at h
      · cases h
      · next between hf =>
        obtain ⟨he, hme⟩ := hr visited first between hb hf
        have hl := Nat.lt_of_le_of_lt (unseen_anti he.grown) hb
        obtain ⟨hre, hv⟩ := ih hl h
        refine ⟨he.trans hre, fun nested hm => ?_⟩
        obtain heq | hm := mem_cons.1 hm
        · exact CollectionMember.collection.inj heq ▸ hre.grown hme
        · exact hv nested hm

theorem collectionReaches_missed {after : List CollectionId} (hfu : unseen cs visited < fuel)
    (h : collectionReaches cs t fuel visited src = (false, after)) :
    Missed cs t visited src after := by
  induction fuel generalizing visited src after with
  | zero => exact absurd hfu (Nat.not_lt_zero _)
  | succ fuel ih =>
    rw [collectionReaches] at h
    split at h
    · cases h
    · next hne =>
      split at h
      · next hv =>
        obtain rfl := (Prod.mk.inj h).2
        exact ⟨.refl visited, hv⟩
      · next hnw =>
        -- Visiting the source alone is fine once everything below it has been visited.
        have hvi : ∀ {after : List CollectionId}, Explored cs t (src :: visited) after →
            (∀ nested, Contains (memberRegistry cs) src nested → nested ∈ after) →
            Missed cs t visited src after := by
          intro after he hb
          refine ⟨⟨fun id hid => he.grown (mem_cons_of_mem _ hid), ?_, ?_⟩, he.grown mem_cons_self⟩
          · intro id hid
            obtain hv | ha := he.avoids id hid
            · obtain rfl | hv := mem_cons.1 hv
              · exact .inr hne
              · exact .inl hv
            · exact .inr ha
          · intro id hid
            obtain hv | hcl := he.closed id hid
            · obtain rfl | hv := mem_cons.1 hv
              · exact .inr hb
              · exact .inl hv
            · exact .inr hcl
        split at h
        · next hmi =>
          obtain rfl := (Prod.mk.inj h).2
          refine hvi (.refl _) fun nested hc => ?_
          obtain ⟨c, hf, _⟩ := contains_memberRegistry.1 hc
          rw [hmi] at hf
          cases hf
        · next c hf =>
          have hl := unseen_lt hf hnw
          obtain ⟨he, hm⟩ := reachesAny_missed (fun visited nested after hbo hok => ih hbo hok)
            (Nat.lt_of_lt_of_le hl (Nat.le_of_lt_succ hfu)) h
          refine hvi he fun nested hc => ?_
          obtain ⟨other, ho, hn⟩ := contains_memberRegistry.1 hc
          rw [hf] at ho
          cases ho
          exact hm nested hn

theorem not_reaches_of_missed
    (h : (collectionReaches cs t (cs.toList.length + 1) [] src).1 = false) :
    ¬ Relation.ReflTransGen (Contains (memberRegistry cs)) src t := by
  obtain ⟨after, ha⟩ : ∃ after, collectionReaches cs t
      (cs.toList.length + 1) [] src = (false, after) := ⟨_, Prod.ext h rfl⟩
  have hf : unseen cs [] < cs.toList.length + 1 := Nat.lt_succ_of_le (length_filter_le _ _)
  obtain ⟨he, hs⟩ := collectionReaches_missed hf ha
  intro hr
  have hv : t ∈ after := by
    refine hr.head_induction_on (motive := fun id _ => id ∈ after → t ∈ after)
      (fun h => h) (fun hc _ ih hid => ?_) hs
    exact ih ((he.closed _ hid).resolve_left not_mem_nil _ hc)
  exact (he.avoids t hv).resolve_left not_mem_nil rfl

def Unchanged (state next : DaemonState) : Prop :=
  next.collections = state.collections ∧ next.scenes = state.scenes

def Stored (state : DaemonState) (id : CollectionId) : Prop :=
  ∃ collection, state.collections[id]? = some collection

/-- The effects a successful operation can have on the registries. -/
inductive Change (state next : DaemonState) : Prop where
  | none (same : Unchanged state next)
  | create (collection : Collection) (fresh : state.collections[collection.id]? = none)
      (unique : collection.members.Nodup)
      (exist : ∀ nested, .collection nested ∈ collection.members → Stored state nested)
      (collections : next.collections = state.collections.insert collection.id collection)
      (scenes : next.scenes = state.scenes)
  | destroy (id : CollectionId)
      (unreferenced : ∀ (other : CollectionId) (collection : Collection),
        state.collections[other]? = some collection → collection.id ≠ id →
        .collection id ∉ collection.members)
      (unbound : ∀ (key : SceneId) (scene : Scene), state.scenes[key]? = some scene →
        ∀ binding ∈ scene.bindings, binding.dynamicCollection ≠ some id)
      (collections : next.collections = state.collections.erase id)
      (scenes : next.scenes = state.scenes)
  | members (id : CollectionId) (collection : Collection) (members : List CollectionMember)
      (found : state.collections[id]? = some collection)
      (unique : collection.members.Nodup → members.Nodup)
      (admitted : ∀ nested, .collection nested ∈ members →
        .collection nested ∈ collection.members ∨ (Stored state nested ∧
          ¬ Relation.ReflTransGen (Contains (memberRegistry state.collections)) nested id))
      (collections : next.collections =
        state.collections.insert id { collection with members := members })
      (scenes : next.scenes = state.scenes)
  | scenes (collections : next.collections = state.collections)
      (bound : ∀ (key : SceneId) (scene : Scene), next.scenes[key]? = some scene →
        state.scenes[key]? = some scene ∨
          ∀ binding ∈ scene.bindings, ∀ id, binding.dynamicCollection = some id → Stored state id)

/-- An operation fails without a trace or makes one of these changes. -/
def Transacts {α : Type} (state : DaemonState) (outcome : Outcome α) : Prop :=
  (∃ error, outcome.1 = .error error ∧ Unchanged state outcome.2) ∨
    ((∃ result, outcome.1 = .ok result) ∧ Change state outcome.2)

theorem transacts_error {α : Type} :
    Transacts state ((.error e, state) : Outcome α) := .inl ⟨e, rfl, rfl, rfl⟩

theorem transacts_attempt {α β : Type} {check : Except RegistryError α} {body : α → Outcome β}
    (h : ∀ v, check = .ok v → Transacts state (body v)) :
    Transacts state (attempt state check body) := by
  cases hc : check with
  | error e => exact transacts_error
  | ok v => exact h v hc

theorem transacts_keepIfPersistable {prev : DaemonState} {α : Type} {result : α}
    (hc : Change state ch) (hp : Unchanged state prev) :
    Transacts state (keepIfPersistable p ch prev result) := by
  rw [keepIfPersistable]
  split
  · exact .inr ⟨⟨result, rfl⟩, hc⟩
  · next e _ => exact .inl ⟨_, rfl, hp⟩

theorem erase_insert {κ ν : Type} {cmp : κ → κ → Ordering} [TransCmp cmp]
    [LawfulEqCmp cmp] (map : ExtTreeMap κ ν cmp) {key : κ} (v : ν)
    (h : map[key]? = none) : (map.insert key v).erase key = map := by
  refine ExtTreeMap.ext_getElem? fun other => ?_
  rw [ExtTreeMap.getElem?_erase, ExtTreeMap.getElem?_insert]
  split
  · next heq => rw [← LawfulEqCmp.eq_of_compare heq, h]
  · rfl

theorem insert_insert {κ ν : Type} {cmp : κ → κ → Ordering} [TransCmp cmp]
    [LawfulEqCmp cmp] (map : ExtTreeMap κ ν cmp) {key : κ} (v prev : ν)
    (h : map[key]? = some prev) : (map.insert key v).insert key prev = map := by
  refine ExtTreeMap.ext_getElem? fun other => ?_
  rw [ExtTreeMap.getElem?_insert, ExtTreeMap.getElem?_insert]
  split
  · next heq => rw [← LawfulEqCmp.eq_of_compare heq, h]
  · rfl

theorem stored_of_contains (h : state.collections.contains id = true) : Stored state id := by
  apply Option.isSome_iff_exists.1
  rwa [← contains_eq_isSome_getElem?]

theorem members_exist (h : checkAll (memberExists state) members = .ok ()) :
    ∀ nested, .collection nested ∈ members → Stored state nested := by
  intro nested hn
  have he := checkAll_ok_iff.1 h _ hn
  exact stored_of_contains (ensure_ok_iff.1 he)

theorem createCollection_transacts {owner : OwnerIdentity} {kind : Option String}
    (hf : state.collections[id]? = none) :
    Transacts state (createCollection p id name description owner kind members state) := by
  refine transacts_attempt fun _ hm => ?_
  have he := members_exist hm
  refine transacts_keepIfPersistable
    (.create ⟨id, name, description, owner, kind, addAll [] members⟩ hf
      (nodup_addAll nodup_nil) ?_ rfl rfl) ⟨erase_insert _ _ hf, rfl⟩
  intro nested hn
  exact he nested ((mem_addAll.1 hn).resolve_left not_mem_nil)

theorem destroyCollection_transacts : Transacts state (destroyCollection id state) := by
  rw [destroyCollection]
  split
  · exact transacts_error
  · next c hf =>
    split
    · exact transacts_error
    · next hr =>
      split
      · exact transacts_error
      · next hs =>
        refine .inr ⟨⟨c, rfl⟩, .destroy id ?_ ?_ rfl rfl⟩
        · intro other referencing ho hne hm
          have he : collectionsReferencing state id = [] := not_not.1 hr
          rw [collectionsReferencing, map_eq_nil_iff, filter_eq_nil_iff] at he
          refine he referencing ?_ (decide_eq_true ⟨hne, hm⟩)
          exact mem_map.2 ⟨(other, referencing), mem_toList_iff_getElem?_eq_some.2 ho, rfl⟩
        · intro key sc hsc b hb hd
          rw [find?_eq_none] at hs
          refine hs sc ?_ (any_eq_true.2 ⟨b, hb, decide_eq_true hd⟩)
          exact mem_map.2 ⟨(key, sc), mem_toList_iff_getElem?_eq_some.2 hsc, rfl⟩

theorem setMembers_eq (h : cs[id]? = some c) : setMembers cs id members =
      cs.insert id { c with members := members } := by
  rw [setMembers, h]

theorem setMembers_back (h : cs[id]? = some c) :
    setMembers (setMembers cs id members) id c.members = cs := by
  rw [setMembers_eq h]
  have hc : (cs.insert id { c with members := members })[id]? =
      some { c with members := members } := getElem?_insert_self
  rw [setMembers_eq hc]
  exact insert_insert cs _ c h

theorem addCollectionMember_transacts {m : CollectionMember} :
    Transacts state (addCollectionMember p id m state) := by
  rw [addCollectionMember]
  split
  · exact transacts_error
  · next c hf =>
    refine transacts_attempt fun _ ha => ?_
    refine transacts_keepIfPersistable ?_ ⟨setMembers_back hf, rfl⟩
    refine .members id c _ hf ?_ ?_ (setMembers_eq hf) rfl
    · intro hu
      split
      · exact hu
      · next hne => exact nodup_middle.2 (nodup_cons.2 ⟨by simpa using hne, by simpa using hu⟩)
    · intro nested hn
      have hl : .collection nested ∈ c.members ∨ .collection nested = m := by
        split at hn
        · exact .inl hn
        · exact (mem_append.1 hn).imp_right mem_singleton.1
      apply hl.imp_right
      rintro rfl
      obtain ⟨⟨⟩, _, ha⟩ := bind_ok_iff.1 ha
      obtain ⟨⟨⟩, hs, hr⟩ := bind_ok_iff.1 ha
      refine ⟨stored_of_contains (ensure_ok_iff.1 hs), not_reaches_of_missed ?_⟩
      simpa using ensure_ok_iff.1 hr

theorem removeCollectionMember_transacts {m : CollectionMember} :
    Transacts state (removeCollectionMember id m state) := by
  rw [removeCollectionMember]
  split
  · exact transacts_error
  · next c hf =>
    refine .inr ⟨⟨(), rfl⟩, .members id c _ hf ?_ ?_ (setMembers_eq hf) rfl⟩
    · exact fun hu => hu.filter _
    · exact fun nested hn => .inl (mem_filter.1 hn).1

theorem stored_of_resolved (hk : Keyed state.collections)
    (h : resolveCollectionLeaves state id = .ok leaves) : Stored state id := by
  obtain ⟨hg, _⟩ := resolveLeaves_ok_iff.1 (mapError_ok_iff.1 h)
  obtain ⟨links, hli⟩ := hg.exists_members
  obtain ⟨c, hl, _⟩ := exists_lookup hli
  obtain ⟨hm, hid⟩ := lookup_mem hl
  obtain ⟨⟨key, stored⟩, he, rfl⟩ := mem_map.1 hm
  have hs := mem_toList_iff_getElem?_eq_some.1 he
  rw [← hid, hk key stored hs]
  exact ⟨stored, hs⟩

theorem validated_collections (hk : Keyed state.collections) {sc : Scene}
    (h : validateSceneBindings p state sc = .ok ()) :
    ∀ b ∈ sc.bindings, ∀ id, b.dynamicCollection = some id → Stored state id := by
  intro b hbn id hd
  obtain ⟨⟨⟩, _, hbi⟩ := bind_ok_iff.1 h
  have hb := checkAll_ok_iff.1 hbi b hbn
  rw [validateBoundState] at hb
  simp only [then_ok_iff] at hb
  obtain ⟨_, _, _, _, _, hc⟩ := hb
  rw [hd] at hc
  have hv := checkAll_ok_iff.1 hc id mem_cons_self
  obtain ⟨leaves, hl, _⟩ := bind_ok_iff.1 hv
  exact stored_of_resolved hk hl

theorem change_insertScene {sc : Scene}
    (hb : ∀ b ∈ sc.bindings, ∀ id, b.dynamicCollection = some id → Stored state id) :
    Change state { state with scenes := state.scenes.insert key sc } := by
  refine .scenes rfl fun other stored hs => ?_
  rw [ExtTreeMap.getElem?_insert] at hs
  split at hs
  · exact .inr (Option.some.inj hs ▸ hb)
  · exact .inl hs

theorem createScene_transacts (hk : Keyed state.collections) {owner : OwnerIdentity}
    {bs : List SceneBinding} (hf : state.scenes[key]? = none) :
    Transacts state (createScene p key name description owner bs state) := by
  refine transacts_attempt fun _ hv => ?_
  have hb := validated_collections hk (mapError_ok_iff.1 hv)
  exact transacts_keepIfPersistable (change_insertScene hb) ⟨rfl, erase_insert _ _ hf⟩

theorem currentScene_found {current : Scene}
    (h : currentScene state key expectedRevision = .ok current) :
    state.scenes[key]? = some current := by
  rw [currentScene] at h
  split at h
  · cases h
  · next sc hf =>
    split at h
    · cases h
    · exact Except.ok.inj h ▸ hf

theorem replaceScene_transacts (hk : Keyed state.collections) {bs : List SceneBinding} :
    Transacts state (replaceScene p key expectedRevision name description bs state) := by
  refine transacts_attempt fun current hc => transacts_attempt fun _ hv => ?_
  have hb := validated_collections hk (mapError_ok_iff.1 hv)
  exact transacts_keepIfPersistable (change_insertScene hb)
    ⟨rfl, insert_insert _ _ _ (currentScene_found hc)⟩

theorem deleteScene_transacts : Transacts state (deleteScene key expectedRevision state) := by
  refine transacts_attempt fun current _ => .inr ⟨⟨current, rfl⟩, .scenes rfl ?_⟩
  intro other sc hs
  rw [ExtTreeMap.getElem?_erase] at hs
  split at hs
  · cases hs
  · exact .inl hs

structure Intact (state : DaemonState) : Prop where
  keyed : Keyed state.collections
  unique : ∀ (id : CollectionId) (collection : Collection),
    state.collections[id]? = some collection → collection.members.Nodup
  grounded : ∀ (id : CollectionId) (collection : Collection),
    state.collections[id]? = some collection → Grounded (memberRegistry state.collections) id
  bound : ∀ (key : SceneId) (scene : Scene), state.scenes[key]? = some scene →
    ∀ binding ∈ scene.bindings, ∀ id, binding.dynamicCollection = some id → Stored state id

theorem memberRegistry_insert :
    memberRegistry (cs.insert id c) other = if other = id then some (c.members.map link)
      else memberRegistry cs other := by
  rw [memberRegistry, ExtTreeMap.getElem?_insert]
  by_cases heq : other = id
  · rw [if_pos heq, if_pos (heq ▸ ReflCmp.compare_self)]
    rfl
  · rw [if_neg heq, if_neg fun h => heq (LawfulEqCmp.eq_of_compare h).symm]
    rfl

theorem stored_insert (h : (cs.insert id c)[other]? = some stored) :
    (other = id ∧ stored = c) ∨ (other ≠ id ∧ cs[other]? = some stored) := by
  rw [ExtTreeMap.getElem?_insert] at h
  split at h
  · next heq => exact .inl ⟨(LawfulEqCmp.eq_of_compare heq).symm, (Option.some.inj h).symm⟩
  · next hne => exact .inr ⟨fun heq => hne (heq ▸ ReflCmp.compare_self), h⟩

section

variable (h : Intact state)

include h

theorem Intact.grounded_stored (hs : Stored state id) :
    Grounded (memberRegistry state.collections) id := by
  obtain ⟨c, hf⟩ := hs
  exact h.grounded id c hf

theorem Intact.insert (hc : next.collections =
      state.collections.insert c.id c) (hse : next.scenes = state.scenes)
    (hu : c.members.Nodup) (hm : ∀ nested, .collection nested ∈ c.members → Stored state nested ∧
      ¬ Relation.ReflTransGen (Contains (memberRegistry state.collections)) nested
        c.id) : Intact next := by
  have hr : ∀ other, other ≠ c.id →
      memberRegistry next.collections other = memberRegistry state.collections other := by
    intro other hne
    rw [hc, memberRegistry_insert, if_neg hne]
  have hsl : Grounded (memberRegistry next.collections) c.id := by
    refine .intro (by rw [hc, memberRegistry_insert, if_pos rfl]) fun nested hn => ?_
    obtain ⟨hs, ha⟩ := hm nested (inr_mem_links.1 hn)
    refine (h.grounded_stored hs).congr fun other hre => hr other ?_
    rintro rfl
    exact ha hre
  have hs : ∀ {id}, Stored state id → Stored next id := by
    rintro id ⟨stored, hf⟩
    rw [Stored, hc, ExtTreeMap.getElem?_insert]
    split
    · exact ⟨c, rfl⟩
    · exact ⟨stored, hf⟩
  refine ⟨hc ▸ h.keyed.insert c, ?_, ?_, ?_⟩
  · intro id stored hf
    rw [hc] at hf
    obtain ⟨_, rfl⟩ | ⟨_, hf⟩ := stored_insert hf
    · exact hu
    · exact h.unique id stored hf
  · intro id stored hf
    rw [hc] at hf
    obtain ⟨rfl, _⟩ | ⟨_, hf⟩ := stored_insert hf
    · exact hsl
    · exact hsl.change hr (h.grounded id stored hf)
  · intro key sc hsc b hb id hd
    rw [hse] at hsc
    exact hs (h.bound key sc hsc b hb id hd)

theorem Intact.stored_of_contains (hs : Stored state id)
    (hc : Contains (memberRegistry state.collections) id nested) : Stored state nested := by
  obtain ⟨links, hl⟩ := ((h.grounded_stored hs).of_contains hc).exists_members
  obtain ⟨c, hf, _⟩ := Option.map_eq_some_iff.1 hl
  exact ⟨c, hf⟩

theorem Intact.stored_of_reaches (hs : Stored state src)
    (hr : Relation.ReflTransGen (Contains (memberRegistry state.collections)) src id) :
    Stored state id := by
  induction hr with
  | refl => exact hs
  | tail _ hc ih => exact h.stored_of_contains ih hc

theorem Intact.create (hf : state.collections[c.id]? = none) (hu : c.members.Nodup)
    (he : ∀ nested, .collection nested ∈ c.members → Stored state nested)
    (hc : next.collections = state.collections.insert c.id c)
    (hsc : next.scenes = state.scenes) : Intact next := by
  refine h.insert hc hsc hu fun nested hn => ?_
  refine ⟨he nested hn, fun hr => ?_⟩
  obtain ⟨stored, hs⟩ := h.stored_of_reaches (he nested hn) hr
  rw [hf] at hs
  cases hs

theorem Intact.setMembers (hf : state.collections[id]? = some c)
    (hu : c.members.Nodup → members.Nodup) (ha : ∀ nested, .collection nested ∈ members →
      .collection nested ∈ c.members ∨ (Stored state nested ∧
        ¬ Relation.ReflTransGen (Contains (memberRegistry state.collections)) nested id))
    (hco : next.collections = state.collections.insert id { c with members := members })
    (hs : next.scenes = state.scenes) : Intact next := by
  have hid : c.id = id := h.keyed id c hf
  subst hid
  have hch : next.collections = state.collections.insert
      ({ c with members := members } : Collection).id
      { c with members := members } := hco
  refine h.insert hch hs (hu (h.unique _ _ hf)) fun nested hn => ?_
  obtain hl | ha := ha nested hn
  · have hc : Contains (memberRegistry state.collections) c.id nested :=
      contains_memberRegistry.2 ⟨c, hf, hl⟩
    refine ⟨h.stored_of_contains ⟨c, hf⟩ hc, fun hr => ?_⟩
    exact (h.grounded _ _ hf).not_reaches_self (.head' hc hr)
  · exact ha

end

theorem stored_erase (h : (cs.erase id)[other]? = some stored) :
    other ≠ id ∧ cs[other]? = some stored := by
  rw [ExtTreeMap.getElem?_erase] at h
  split at h
  · cases h
  · next hne => exact ⟨fun heq => hne (heq ▸ ReflCmp.compare_self), h⟩

theorem getElem?_erase_of_ne (hne : other ≠ id) : (cs.erase id)[other]? = cs[other]? := by
  rw [ExtTreeMap.getElem?_erase, if_neg fun h => hne (LawfulEqCmp.eq_of_compare h).symm]

theorem Intact.destroy (h : Intact state) (hu : ∀ (other : CollectionId) (c : Collection),
      state.collections[other]? = some c → c.id ≠ id → .collection id ∉ c.members)
    (hun : ∀ (key : SceneId) (sc : Scene), state.scenes[key]? = some sc →
      ∀ b ∈ sc.bindings, b.dynamicCollection ≠ some id)
    (hc : next.collections = state.collections.erase id)
    (hsc : next.scenes = state.scenes) : Intact next := by
  have hr : ∀ {src other}, src ≠ id →
      Relation.ReflTransGen (Contains (memberRegistry state.collections)) src other →
      other ≠ id := by
    intro src other hso hre
    induction hre with
    | refl => exact hso
    | @tail outer inner _ hco ih =>
      rintro rfl
      obtain ⟨c, hf, hm⟩ := contains_memberRegistry.1 hco
      exact hu outer c hf (h.keyed outer c hf ▸ ih) hm
  refine ⟨?_, ?_, ?_, ?_⟩
  · intro other stored hf
    rw [hc] at hf
    exact h.keyed other stored (stored_erase hf).2
  · intro other stored hf
    rw [hc] at hf
    exact h.unique other stored (stored_erase hf).2
  · intro other stored hf
    rw [hc] at hf
    obtain ⟨hne, hf⟩ := stored_erase hf
    refine (h.grounded other stored hf).congr fun below hbe => ?_
    rw [memberRegistry, hc, getElem?_erase_of_ne (hr hne hbe)]
    rfl
  · intro key sc hs b hb other hd
    rw [hsc] at hs
    obtain ⟨stored, hst⟩ := h.bound key sc hs b hb other hd
    have hne : other ≠ id := by
      rintro rfl
      exact hun key sc hs b hb hd
    exact ⟨stored, by rw [hc, getElem?_erase_of_ne hne, hst]⟩

theorem Intact.of_same_collections (h : Intact state) (hc : next.collections = state.collections)
    (hbo : ∀ (key : SceneId) (sc : Scene), next.scenes[key]? = some sc →
      ∀ b ∈ sc.bindings, ∀ id, b.dynamicCollection = some id → Stored state id) :
    Intact next where
  keyed := hc ▸ h.keyed
  unique := hc ▸ h.unique
  grounded := hc ▸ h.grounded
  bound := by
    intro key sc hs b hb id hd
    rw [Stored, hc]
    exact hbo key sc hs b hb id hd

theorem Intact.unchanged (h : Intact state) (hsa : Unchanged state next) : Intact next := by
  refine h.of_same_collections hsa.1 fun key sc hs => ?_
  rw [hsa.2] at hs
  exact h.bound key sc hs

theorem Change.intact (hc : Change state next) (h : Intact state) : Intact next := by
  cases hc with
  | none same => exact h.unchanged same
  | create c fresh unique exist cs scs => exact h.create fresh unique exist cs scs
  | destroy id unreferenced unbound cs scs => exact h.destroy unreferenced unbound cs scs
  | members id c members fd unique admitted cs scs => exact h.setMembers fd unique admitted cs scs
  | scenes cs bound =>
    refine h.of_same_collections cs fun key sc hs => ?_
    obtain hk | hb := bound key sc hs
    · exact h.bound key sc hk
    · exact hb

theorem intact_of_validated (h : validateSnapshot p snapshot = .ok ())
    (hc : next.collections = snapshot.collections) (hsc : next.scenes = snapshot.scenes) :
    Intact next := by
  rw [validateSnapshot] at h
  simp only [then_ok_iff, checkAll_ok_iff] at h
  obtain ⟨_, _, _, _, hen, _, hg, _, hst, _⟩ := h
  have he : ∀ (id : CollectionId) (c : Collection), next.collections[id]? = some c →
      validateCollection p id c = .ok () := by
    intro id c hf
    rw [hc] at hf
    exact hen (id, c) (mem_toList_iff_getElem?_eq_some.2 hf)
  refine ⟨?_, ?_, ?_, ?_⟩
  · intro id c hf
    have hv := he id c hf
    simp only [validateCollection, then_ok_iff, ensure_ok_iff, decide_eq_true_eq] at hv
    exact hv.1.symm
  · intro id c hf
    have hv := he id c hf
    simp only [validateCollection, then_ok_iff, ensure_ok_iff, decide_eq_true_eq] at hv
    exact hv.2.2.2.1
  · intro id c hf
    rw [hc] at hf ⊢
    exact validateCollectionGraph_grounded hg hf
  · intro key sc hs b hb id hd
    rw [hsc] at hs
    have hv := hst (key, sc) (mem_toList_iff_getElem?_eq_some.2 hs)
    simp only [validateStoredScene, then_ok_iff, checkAll_ok_iff] at hv
    have hch := hv.2.2.2.2.1 b hb
    simp only [validateBinding, then_ok_iff, checkAll_ok_iff, hd] at hch
    have hco := ensure_ok_iff.1 (hch.1 id mem_cons_self)
    rw [← hc] at hco
    exact RegistryIntegrity.stored_of_contains hco

inductive Operation where
  | createCollection (id : CollectionId) (name : String) (description : Option String)
      (owner : OwnerIdentity) (kind : Option String) (members : List CollectionMember)
  | destroyCollection (id : CollectionId)
  | addCollectionMember (id : CollectionId) (member : CollectionMember)
  | removeCollectionMember (id : CollectionId) (member : CollectionMember)
  | createScene (id : SceneId) (name : String) (description : Option String)
      (owner : OwnerIdentity) (bindings : List SceneBinding)
  | replaceScene (id : SceneId) (expectedRevision : ℕ) (name : String)
      (description : Option String) (bindings : List SceneBinding)
  | deleteScene (id : SceneId) (expectedRevision : ℕ)

def Operation.Fresh (state : DaemonState) : Operation → Prop
  | .createCollection id .. => state.collections[id]? = none
  | .createScene id .. => state.scenes[id]? = none
  | _ => True

def Outcome.void {α : Type} (outcome : Outcome α) : Outcome Unit :=
  (outcome.1.map fun _ => (), outcome.2)

def perform (platform : Platform) (state : DaemonState) : Operation → Outcome Unit
  | .createCollection id name description owner kind members =>
    Outcome.void (createCollection platform id name description owner kind members state)
  | .destroyCollection id => Outcome.void (destroyCollection id state)
  | .addCollectionMember id member => addCollectionMember platform id member state
  | .removeCollectionMember id member => removeCollectionMember id member state
  | .createScene id name description owner bindings =>
    Outcome.void (createScene platform id name description owner bindings state)
  | .replaceScene id expectedRevision name description bindings =>
    Outcome.void (replaceScene platform id expectedRevision name description bindings state)
  | .deleteScene id expectedRevision => Outcome.void (deleteScene id expectedRevision state)

inductive Action where
  | operate (operation : Operation)
  | restore (snapshot : PersistedState)
  | elsewhere

/-- Everything else the daemon does leaves the two registries alone. -/
inductive Step (platform : Platform) : DaemonState → Action → DaemonState → Prop where
  | operate {state : DaemonState} {operation : Operation} (fresh : operation.Fresh state) :
      Step platform state (.operate operation) (perform platform state operation).2
  | restore {state : DaemonState} {snapshot : PersistedState}
      (accepted : validateSnapshot platform snapshot = .ok ()) :
      Step platform state (.restore snapshot) (restoreRegistries snapshot state)
  | elsewhere {state next : DaemonState} (same : Unchanged state next) :
      Step platform state .elsewhere next

def Initial (state : DaemonState) : Prop := state.collections = ∅ ∧ state.scenes = ∅

theorem Transacts.void {α : Type} {outcome : Outcome α} (h : Transacts state outcome) :
    Transacts state (Outcome.void outcome) := by
  obtain ⟨e, he, hs⟩ | ⟨⟨result, hr⟩, hc⟩ := h
  · exact .inl ⟨e, by rw [Outcome.void, he]; rfl, hs⟩
  · exact .inr ⟨⟨(), by rw [Outcome.void, hr]; rfl⟩, hc⟩

theorem perform_transacts (hk : Keyed state.collections) {op : Operation}
    (hf : op.Fresh state) : Transacts state (perform p state op) := by
  cases op with
  | createCollection => exact (createCollection_transacts hf).void
  | destroyCollection => exact destroyCollection_transacts.void
  | addCollectionMember => exact addCollectionMember_transacts
  | removeCollectionMember => exact removeCollectionMember_transacts
  | createScene => exact (createScene_transacts hk hf).void
  | replaceScene => exact (replaceScene_transacts hk).void
  | deleteScene => exact deleteScene_transacts.void

/-- Operations that fail change nothing, and those that succeed keep the registries intact. -/
theorem step_intact (h : Intact state) (hst : Step p state a next) : Intact next := by
  cases hst with
  | operate fresh =>
    obtain ⟨_, _, hs⟩ | ⟨_, hc⟩ := perform_transacts h.keyed fresh
    · exact h.unchanged hs
    · exact hc.intact h
  | restore accepted =>
    rw [restoreRegistries]
    split
    · exact h
    · exact intact_of_validated accepted rfl rfl
  | elsewhere same => exact h.unchanged same

theorem initial_intact (h : Initial state) : Intact state := by
  obtain ⟨hc, hsc⟩ := h
  have hn : ∀ (id : CollectionId) (c : Collection), state.collections[id]? ≠ some c := by
    intro id c hf
    rw [hc] at hf
    simp at hf
  refine ⟨fun id c hf => absurd hf (hn id c), fun id c hf => absurd hf (hn id c),
    fun id c hf => absurd hf (hn id c), ?_⟩
  intro key sc hs
  rw [hsc] at hs
  simp at hs

structure Integrity (state : DaemonState) : Prop where
  keyed : ∀ (id : CollectionId) (collection : Collection),
    state.collections[id]? = some collection → collection.id = id
  unique : ∀ (id : CollectionId) (collection : Collection),
    state.collections[id]? = some collection → collection.members.Nodup
  referenced : ∀ (id : CollectionId) (collection : Collection) (nested : CollectionId),
    state.collections[id]? = some collection → .collection nested ∈ collection.members →
    Stored state nested
  acyclic : ∀ id, ¬ Relation.TransGen (Contains (memberRegistry state.collections)) id id
  bound : ∀ (key : SceneId) (scene : Scene), state.scenes[key]? = some scene →
    ∀ binding ∈ scene.bindings, ∀ id, binding.dynamicCollection = some id → Stored state id

theorem Intact.integrity (h : Intact state) : Integrity state where
  keyed := h.keyed
  unique := h.unique
  referenced := fun id c nested hf hm =>
    h.stored_of_contains ⟨c, hf⟩ (contains_memberRegistry.2 ⟨c, hf, hm⟩)
  acyclic := by
    intro id hcy
    obtain ⟨nested, hc, _⟩ := Relation.TransGen.head'_iff.1 hcy
    obtain ⟨c, hf, _⟩ := contains_memberRegistry.1 hc
    exact (h.grounded id c hf).not_reaches_self hcy
  bound := h.bound

/-- The registries are intact after any run, and an operation that fails leaves them unchanged.
-/
theorem registries_keep_integrity (platform : Platform) (state : DaemonState)
    (h : Transition.Reachable Initial (Step platform) (fun _ _ => True) state) :
    Integrity state ∧ ∀ operation : Operation, operation.Fresh state →
      ∀ error, (perform platform state operation).1 = .error error →
        Unchanged state (perform platform state operation).2 := by
  have hi : Intact state :=
    h.holds Intact (fun _ => initial_intact) fun _ _ _ hi _ hst => step_intact hi hst
  refine ⟨hi.integrity, fun operation hf error he => ?_⟩
  obtain ⟨_, _, hs⟩ | ⟨⟨result, hr⟩, _⟩ := perform_transacts hi.keyed hf
  · exact hs
  · rw [he] at hr
    cases hr

namespace Sample

def createDesk : Operation := .createCollection "desk" "Desk" none (.uid 1000) none []

def createRoom : Operation :=
  .createCollection "room" "Room" none (.uid 1000) none [.collection "desk", .collection "desk"]

def wrapRoom : Operation := .addCollectionMember "desk" (.collection "room")

def withDesk : DaemonState := (perform DesiredState.Sample.platform (fromDevices []) createDesk).2

def furnished : DaemonState := (perform DesiredState.Sample.platform withDesk createRoom).2

theorem furnished_reachable : Transition.Reachable Initial (Step DesiredState.Sample.platform)
    (fun _ _ => True) furnished := by
  have hd : createDesk.Fresh (fromDevices []) := rfl
  have hr : createRoom.Fresh withDesk := rfl
  exact .step (.step (.initial ⟨rfl, rfl⟩) trivial (.operate hd)) trivial (.operate hr)

end Sample

open Sample in
/-- The room holds the desk once, and the desk cannot be put around the room. -/
theorem furnished_keeps_integrity : Integrity furnished ∧
      (perform DesiredState.Sample.platform furnished wrapRoom).1 =
        .error (.daemon (.collectionCycle "room")) ∧
      Unchanged furnished (perform DesiredState.Sample.platform furnished wrapRoom).2 := by
  obtain ⟨hi, ha⟩ :=
    registries_keep_integrity DesiredState.Sample.platform furnished furnished_reachable
  have hr : (perform DesiredState.Sample.platform furnished wrapRoom).1 =
      .error (.daemon (.collectionCycle "room")) := by decide +kernel
  exact ⟨hi, hr, ha _ trivial _ hr⟩

end RegistryIntegrity
