import Mathlib.Algebra.BigOperators.Group.Finset.Basic
import Mathlib.Algebra.Order.BigOperators.Group.Finset
import Luminate.CollectionGraph

/-! # Building event filters

`collect_collection_devices` of the HTTP server's `websocket.rs` walks the collections of
a subscription. It forgets what it has left again, so a shared collection is walked once
for each way down to it. -/
namespace EventFilters

open DeviceModel DaemonModel Membership CollectionGraph List

/-- The devices found so far, and how often the function has been called. -/
structure Walk where
  devices : Finset DeviceId := ∅
  calls : ℕ := 0
  deriving DecidableEq

def eachMember (expand : CollectionId → Walk → Except String Unit × Walk) :
    List CollectionMember → Walk → Except String Unit × Walk
  | [], w => (.ok (), w)
  | .target t :: rest, w =>
    eachMember expand rest { w with devices := insert t.deviceId w.devices }
  | .collection nested :: rest, w =>
    match expand nested w with
    | (.ok (), w) => eachMember expand rest w
    | (.error e, w) => (.error e, w)

/-- The map from the listed collections keeps the last one of each identifier. -/
def indexed (cs : List Collection) (id : CollectionId) : Option Collection :=
  cs.reverse.find? (·.id == id)

/-- `visiting` holds distinct collections, so one level for each collection is enough. -/
def collectCollectionDevices (cs : List Collection) : ℕ → List CollectionId → CollectionId →
    Walk → Except String Unit × Walk
  | 0, _, id, w => (.error ("collection " ++ id ++ " contains a membership cycle"), w)
  | fuel + 1, visiting, id, w =>
    let w := { w with calls := w.calls + 1 }
    if id ∈ visiting then (.error ("collection " ++ id ++ " contains a membership cycle"), w)
    else
      match indexed cs id with
      | none => (.error ("collection " ++ id ++ " is not observable"), w)
      | some c => eachMember (collectCollectionDevices cs fuel (id :: visiting)) c.members w

def collectionDevices (cs : List Collection) (id : CollectionId) : Except String Unit × Walk :=
  collectCollectionDevices cs (cs.length + 1) [] id {}

def nestedOf (c : Collection) : List CollectionId := (c.members.map link).filterMap Sum.getRight?

/-- A collection that nests others is nested in one collection at most, and listed there
once. One that nests none may be shared. -/
structure Unshared (cs : List Collection) : Prop where
  parent : ∀ a ∈ cs, ∀ b ∈ cs, ∀ c ∈ cs, nestedOf c ≠ [] → c.id ∈ nestedOf a →
    c.id ∈ nestedOf b → a = b
  once : ∀ a ∈ cs, ∀ c ∈ cs, nestedOf c ≠ [] → (nestedOf a).count c.id ≤ 1

def totalMembers (cs : List Collection) : ℕ := (cs.map (·.members.length)).sum

def devicesOf (ts : List TargetId) : Finset DeviceId := (ts.map (·.deviceId)).toFinset

def Walk.add (w : Walk) (ts : List TargetId) (calls : ℕ) : Walk :=
  ⟨w.devices ∪ devicesOf ts, w.calls + calls⟩

section

variable {cs : List Collection} {c : Collection} {id : CollectionId} {w : Walk}

theorem indexed_of_lookup (h : lookup cs id = some c) : indexed cs id = some c := by
  rw [indexed, ← head?_filter, filter_reverse, lookup_eq_some.1 h]
  rfl

theorem Walk.add_add : (w.add ts n).add us m = w.add (ts ++ us) (n + m) := by
  simp [Walk.add, devicesOf, Finset.union_assoc, Nat.add_assoc]

theorem eachMember_eq (h : ∀ n, .collection n ∈ ms → ∀ w,
      expand n w =
        (.ok (), w.add (flatten (registryOf cs) n) (expansions (registryOf cs) n).length)) :
    eachMember expand ms w = (.ok (), w.add ((ms.map link).flatMap (leavesOf cs))
      (((ms.map link).filterMap Sum.getRight?).flatMap (expansions (registryOf cs))).length) := by
  induction ms generalizing w with
  | nil => simp [eachMember, Walk.add, devicesOf]
  | cons m ms ih =>
    have hr := fun w => @ih w fun n hn => h n (mem_cons_of_mem _ hn)
    cases m with
    | target t =>
      have hw : { w with devices := insert t.deviceId w.devices } = w.add [t] 0 := by
        simp [Walk.add, devicesOf]
      rw [eachMember, hw, hr, Walk.add_add]
      simp [link, leavesOf, filterMap_cons]
    | collection n =>
      rw [eachMember, h n mem_cons_self]
      dsimp only
      rw [hr, Walk.add_add]
      simp [link, leavesOf]

theorem collectionDevices_eq (hg : Grounded (registryOf cs) id) : collectionDevices cs id =
    (.ok (), Walk.add {} (flatten (registryOf cs) id) (expansions (registryOf cs) id).length) := by
  suffices h : ∀ w, collectCollectionDevices cs (cs.length + 1) [] id w =
      (.ok (), w.add (flatten (registryOf cs) id) (expansions (registryOf cs) id).length) from h {}
  refine walk_induction_from_start (motive := fun fuel vis id => ∀ w,
    collectCollectionDevices cs fuel vis id w =
      (.ok (), w.add (flatten (registryOf cs) id) (expansions (registryOf cs) id).length)) ?_ hg
  intro fuel vis id c hl hs hn ih w
  rw [collectCollectionDevices, if_neg hn, indexed_of_lookup hl]
  dsimp only
  rw [eachMember_eq ih, flatten_eq hs (registryOf_eq hl), expansions_eq hs, nestedIn,
    registryOf_eq hl, Walk.add, Nat.add_assoc, length_cons, Nat.add_comm 1]
  rfl

end

/-- The filter is built in a call for the collection and one for each member listed
anywhere. -/
def Cheap (cs : List Collection) (id : CollectionId) : Prop :=
  (collectionDevices cs id).2.calls ≤ 1 + totalMembers cs

/-- The filter has the devices of the resolved leaves, and fails where these cannot be
resolved. -/
structure Exact (cs : List Collection) (id : CollectionId) : Prop where
  ok : ∀ leaves, resolveLeaves cs id = .ok leaves → (collectionDevices cs id).1 = .ok () ∧
    (collectionDevices cs id).2.devices = devicesOf leaves
  error : ∀ e, resolveLeaves cs id = .error e → ∃ e, (collectionDevices cs id).1 = .error e

section

variable {cs : List Collection} {c : Collection} {id : CollectionId}

theorem nestedIn_registryOf (hs : Sound cs) (hc : c ∈ cs) :
    nestedIn (registryOf cs) c.id = nestedOf c := by
  rw [nestedIn, registryOf_eq (lookup_of_mem hs.unique hc)]
  rfl

theorem exists_of_nestedIn (hs : Sound cs) (h : nestedIn (registryOf cs) id ≠ []) :
    ∃ c ∈ cs, c.id = id ∧ nestedOf c ≠ [] := by
  obtain ⟨n, hn⟩ := exists_mem_of_ne_nil _ h
  obtain ⟨c, hc, rfl, -⟩ := (contains_iff hs.unique).1 (mem_nestedIn.1 hn)
  exact ⟨c, hc, rfl, nestedIn_registryOf hs hc ▸ h⟩

theorem Unshared.count_le (h : Unshared cs) (hs : Sound cs) (hg : Grounded (registryOf cs) id)
    (hn : nestedIn (registryOf cs) n ≠ []) : (expansions (registryOf cs) id).count n ≤ 1 := by
  have hp : ∀ {a n}, Contains (registryOf cs) a n → ∃ c ∈ cs, c.id = a ∧ n ∈ nestedOf c := by
    intro a n ha
    obtain ⟨c, hc, rfl, -⟩ := (contains_iff hs.unique).1 ha
    exact ⟨c, hc, rfl, nestedIn_registryOf hs hc ▸ mem_nestedIn.2 ha⟩
  rw [← count_filter (p := (nestedIn (registryOf cs) · ≠ [])) (by simpa using hn)]
  refine nodup_iff_count_le_one.1 (nodup_expansions (fun a b n ha hb hn => ?_)
    (fun a n hn => ?_) hg) n
  · obtain ⟨x, hx, rfl, hxn⟩ := hp ha
    obtain ⟨y, hy, rfl, hyn⟩ := hp hb
    obtain ⟨c, hc, rfl, hne⟩ := exists_of_nestedIn hs hn
    rw [h.parent x hx y hy c hc hne hxn hyn]
  · obtain ⟨c, hc, rfl, hne⟩ := exists_of_nestedIn hs hn
    by_cases ha : nestedIn (registryOf cs) a = []
    · simp [ha]
    · obtain ⟨x, hx, rfl, -⟩ := exists_of_nestedIn hs ha
      rw [nestedIn_registryOf hs hx]
      exact h.once x hx c hc hne

theorem Unshared.cheap (h : Unshared cs) (hs : Sound cs) (hg : Grounded (registryOf cs) id) :
    (expansions (registryOf cs) id).length ≤ 1 + totalMembers cs := by
  have hf : ∀ n ∈ (expansions (registryOf cs) id).toFinset,
      (expansions (registryOf cs) id).count n • (nestedIn (registryOf cs) n).length ≤
        (nestedIn (registryOf cs) n).length := by
    intro n _
    by_cases hn : nestedIn (registryOf cs) n = []
    · simp [hn]
    · exact (Nat.mul_le_mul_right _ (h.count_le hs hg hn)).trans_eq (Nat.one_mul _)
  rw [length_expansions hg, Finset.sum_list_map_count]
  refine Nat.add_le_add_left ((Finset.sum_le_sum hf).trans ?_) 1
  have hi : ∀ n ∈ (expansions (registryOf cs) id).toFinset,
      (nestedIn (registryOf cs) n).length ≠ 0 → n ∈ (cs.map (·.id)).toFinset := by
    intro n _ hn
    obtain ⟨c, hc, rfl, -⟩ := exists_of_nestedIn hs (ne_nil_of_length_pos (Nat.pos_of_ne_zero hn))
    exact mem_toFinset.2 (mem_map_of_mem hc)
  refine (Finset.sum_le_sum_of_ne_zero hi).trans ?_
  rw [sum_toFinset _ hs.unique, map_map, totalMembers]
  refine sum_le_sum fun c hc => ?_
  rw [Function.comp_apply, nestedIn_registryOf hs hc, nestedOf]
  exact (length_filterMap_le _ _).trans_eq (length_map _)

end

namespace Sample

def layer (id : CollectionId) (nested : List CollectionId) : Collection :=
  ⟨id, id, none, .uid 0, none, nested.map .collection⟩

/-- Three layers of two collections, each nesting both of the next layer. -/
def layers : List Collection :=
  [layer "root" ["a1", "b1"], layer "a1" ["a2", "b2"], layer "b1" ["a2", "b2"],
    layer "a2" ["a3", "b3"], layer "b2" ["a3", "b3"], layer "a3" [], layer "b3" []]

/-- Both rooms of the house nest the desk. -/
def house : List Collection :=
  [layer "house" ["room", "studio"], layer "room" ["desk"], layer "studio" ["desk"],
    ⟨"desk", "Desk", none, .uid 0, none, [.target (.device "lamp")]⟩]

end Sample

end EventFilters
