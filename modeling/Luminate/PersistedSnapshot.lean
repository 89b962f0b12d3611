import Luminate.SceneCapture

/-! # The persistence domain

`ValidatedPersistedSnapshot::new` of `persistence.rs`: the limits and reference
checks that every state written to or loaded from disk has passed. -/
namespace PersistedSnapshot

open Checks DeviceModel DaemonModel SceneCapture

def maxStateFileBytes : ℕ := 4 * 1024 * 1024

def maxStateEntries : ℕ := 100000

def maxScenes : ℕ := 10000

def maxSceneBindings : ℕ := 100000

def maxAppearanceSlotValues : ℕ := 100000

def maxCollections : ℕ := 10000

def maxCollectionMembers : ℕ := 100000

def maxAdoptedFacets : ℕ := 100000

def maxTextBytes : ℕ := 64 * 1024

def maxObjectBytes : ℕ := 256 * 1024

def validateCount (dimension : String) (actual maximum : ℕ) : Except String Unit :=
  ensure (actual ≤ maximum) ("persisted snapshot resource limit exceeded: " ++ dimension ++
    " is " ++ toString actual ++ "; maximum is " ++ toString maximum)

def validateText (dimension value : String) : Except String Unit :=
  validateCount dimension value.utf8ByteSize maxTextBytes

def validateUniqueSlots (dimension : String) (values : List AppearanceSlotValue) :
    Except String Unit :=
  ensure (values.map (·.slot)).Nodup
    ("persisted snapshot " ++ dimension ++ " contain duplicate slot identifiers")

def validateObjectSize (dimension : String) (size : ℕ) : Except String Unit :=
  validateCount (dimension ++ " serialized bytes") size maxObjectBytes

section

variable (platform : Platform)

def validateCollection (id : CollectionId) (collection : Collection) : Except String Unit := do
  ensure (id = collection.id)
    "persisted snapshot collection key does not match embedded identifier"
  validateText "collection name" collection.name
  checkAll (validateText "collection description") collection.description.toList
  ensure collection.members.Nodup "persisted snapshot collection contains duplicate membership"
  validateObjectSize "collection" (platform.collectionBytes collection)

def collectionDebug (id : CollectionId) : String :=
  "CollectionId(" ++ platform.debugText id ++ ")"

/-- The search stack holds each open collection with the members left to scan. -/
structure GraphSearch where
  complete : List CollectionId
  visiting : List CollectionId
  stack : List (CollectionId × List CollectionMember)

def missingCollection (id : CollectionId) : String :=
  "persisted snapshot references missing collection " ++ collectionDebug platform id

/-- One iteration of the depth-first loop of `validate_collection_graph`. -/
def graphStep (collections : Collections) (search : GraphSearch) : Except String GraphSearch :=
  match search.stack with
  | [] => .ok search
  | (id, []) :: rest =>
    .ok ⟨id :: search.complete, search.visiting.erase id, rest⟩
  | (id, .target _ :: members) :: rest => .ok { search with stack := (id, members) :: rest }
  | (id, .collection nested :: members) :: rest =>
    match collections[nested]? with
    | none => .error (missingCollection platform nested)
    | some collection =>
      if nested ∈ search.complete then .ok { search with stack := (id, members) :: rest }
      else if nested ∈ search.visiting then
        .error ("persisted snapshot collection graph contains a cycle at " ++
          collectionDebug platform nested)
      else .ok { search with
        visiting := nested :: search.visiting
        stack := (nested, collection.members) :: (id, members) :: rest }

def graphLoop (platform : Platform) (collections : Collections) :
    ℕ → GraphSearch → Except String GraphSearch
  | 0, search => .ok search
  | fuel + 1, search =>
    if search.stack.isEmpty then .ok search
    else graphStep platform collections search >>= graphLoop platform collections fuel

/-- Every collection is opened and closed once, and each of its members scanned once. -/
def graphFuel (collections : Collections) : ℕ :=
  (collections.toList.map fun entry => entry.2.members.length + 1).sum

def validateCollectionGraph (collections : Collections) : Except String Unit := do
  let _ ← collections.toList.foldlM (fun (complete : List CollectionId) (entry : _ × Collection) =>
    if entry.1 ∈ complete then return complete
    else do
      let search ← graphLoop platform collections (graphFuel collections)
        ⟨complete, [entry.1], [(entry.1, entry.2.members)]⟩
      return search.complete) []
  return ()

def validateBindingTargets (seen : List TargetId) :
    List SceneBinding → Except SceneValidationError Unit
  | [] => .ok ()
  | binding :: rest => do
    validateSceneTargetState binding.state
    ensure (binding.target ∉ seen) (.duplicateTarget binding.target)
    validateBindingTargets (binding.target :: seen) rest

/-- `Scene::validate`. -/
def validateScene (scene : Scene) : Except SceneValidationError Unit := do
  ensure (platform.isUuid scene.id) .invalidId
  ensure (scene.revision ≠ 0) .zeroRevision
  ensure (!scene.bindings.isEmpty) .noBindings
  validateBindingTargets [] scene.bindings

def validateBinding (collections : Collections) (binding : SceneBinding) : Except String Unit := do
  checkAll (fun collection => ensure (collections.contains collection)
    ("persisted snapshot scene references missing collection " ++
      collectionDebug platform collection)) binding.dynamicCollection.toList
  checkAll (validateUniqueSlots "scene appearance-slot values")
    binding.state.appearanceSlots.toList

def validateStoredScene (collections : Collections) (id : SceneId) (scene : Scene) :
    Except String Unit := do
  ensure (id = scene.id) "persisted snapshot scene key does not match embedded identifier"
  (validateScene platform scene).mapError fun _ => "persisted snapshot scene is invalid"
  validateText "scene name" scene.name
  checkAll (validateText "scene description") scene.description.toList
  checkAll (validateBinding platform collections) scene.bindings
  validateObjectSize "scene" (platform.sceneBytes scene)

def targetSlots : TargetState → List (List AppearanceSlotValue)
  | .appearanceSlots values => [values]
  | _ => []

def facetSlots : FacetValue → List (List AppearanceSlotValue)
  | .appearanceSlots slots => [slots.values]
  | _ => []

def slotTotal (slots : List (List AppearanceSlotValue)) : ℕ := (slots.map List.length).sum

def allSlots (snapshot : PersistedState) : List (List AppearanceSlotValue) :=
  snapshot.targets.flatMap (targetSlots ·.state) ++
    snapshot.scenes.toList.flatMap (fun entry =>
      entry.2.bindings.flatMap (·.state.appearanceSlots.toList)) ++
    snapshot.adoptedBaseline.flatMap (facetSlots ·.value)

def validateSnapshot (snapshot : PersistedState) : Except String Unit := do
  validateCount "target entries" snapshot.targets.length maxStateEntries
  validateCount "collections" snapshot.collections.size maxCollections
  validateCount "scenes" snapshot.scenes.size maxScenes
  validateCount "adopted facets" snapshot.adoptedBaseline.length maxAdoptedFacets
  checkAll (fun entry => validateCollection platform entry.1 entry.2) snapshot.collections.toList
  validateCount "collection members"
    (snapshot.collections.toList.map (·.2.members.length)).sum maxCollectionMembers
  validateCollectionGraph platform snapshot.collections
  checkAll (validateUniqueSlots "target appearance-slot values")
    (snapshot.targets.flatMap (targetSlots ·.state))
  checkAll (fun entry => validateStoredScene platform snapshot.collections entry.1 entry.2)
    snapshot.scenes.toList
  checkAll (validateUniqueSlots "adopted appearance-slot values")
    (snapshot.adoptedBaseline.flatMap (facetSlots ·.value))
  validateCount "scene bindings" (snapshot.scenes.toList.map (·.2.bindings.length)).sum
    maxSceneBindings
  validateCount "appearance-slot values" (slotTotal (allSlots snapshot)) maxAppearanceSlotValues
  validateCount "serialized bytes" (platform.stateBytes snapshot) maxStateFileBytes

end

end PersistedSnapshot
