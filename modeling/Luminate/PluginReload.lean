import Luminate.OwnershipArbitration
import Luminate.PluginTopology

/-! # Reloading a plugin

`reload_plugin`: the restarted plugin is known by a new identifier, and its descriptors
move to the end of the list that arbitration goes through. Among plugins of one
priority the order of that list decides. -/
namespace PluginReload

open Checks GreedySelection Normalization OwnershipArbitration PluginOwnership PluginTopology List

structure Manager where
  loaded : List LoadedPlugin := []
  topology : PluginTopologyState := {}
  nextId : LoadedPluginId := 0

inductive ReloadError where
  | pluginNotFound (name : String)
  | pluginReloadFailed (plugin diagnostic : String)
  | internal (message : String)
  deriving DecidableEq

/-- The outcome of the restart is what the new host reports, or why it did not start. -/
def reloadPlugin (name : String) (restart : Except String (List DeviceDescriptor))
    (manager : Manager) : Except ReloadError TopologyReconcile × Manager :=
  match manager.loaded.find? (·.metadata.name == name) with
  | none => (.error (.pluginNotFound name), manager)
  | some old =>
    let remaining := manager.loaded.filter (·.id != old.id)
    match (do let descriptors ← restart; let _ ← normalizeDevices descriptors; .ok descriptors) with
    | .error diagnostic =>
      (.error (.pluginReloadFailed name diagnostic), { manager with loaded := remaining })
    | .ok descriptors =>
      let loaded := remaining ++ [⟨manager.nextId, old.metadata⟩]
      let restarted := { manager with loaded, nextId := manager.nextId + 1 }
      match commitReload old.id manager.nextId descriptors loaded manager.topology with
      | .error message => (.error (.internal message), restarted)
      | .ok (result, topology) => (.ok result, { restarted with topology })

def Manager.ownerName (manager : Manager) (device : String) : Option String :=
  manager.topology.ownerByDevice[device]?.bind fun id =>
    (manager.loaded.find? (·.id == id)).map (·.metadata.name)

def Manager.contenders (manager : Manager) : List Contender :=
  arbitrationInputs manager.topology.descriptorsByPlugin manager.loaded

def sortedOf (plugins : List Contender) : List Candidate :=
  sortedCandidates (plugins.map (·.metadata)) (plugins.map (·.descriptors))

def acceptedOf (plugins : List Contender) : List Candidate :=
  accepted (plugins.map (·.metadata)) (plugins.map (·.descriptors))

/-- No device of the plugin contests one that a later plugin of the same priority
would have if this plugin were not there. -/
def Unrivalled (before : List Contender) (reloaded : Contender) (after : List Contender) : Prop :=
  ∀ own ∈ acceptedOf (before ++ reloaded :: after), own.pluginIndex = before.length →
    ∀ rival ∈ acceptedOf (before ++ after), before.length ≤ rival.pluginIndex →
      priorityOf ((before ++ after).map (·.metadata)) rival.pluginIndex =
        reloaded.metadata.priority → ¬ Contests own rival

/-- Where the plugin at an index stands after the one at `position` has moved behind
all `count` others. -/
def moved (position count index : ℕ) : ℕ :=
  if index < position then index else if index = position then count else index - 1

def move (position count : ℕ) (candidate : Candidate) : Candidate :=
  { candidate with pluginIndex := moved position count candidate.pluginIndex }

section

variable {α : Type*} (pre after : List α) (it : α) (i : ℕ)

theorem getElem?_moved (h : i ≤ pre.length + after.length) :
    (pre ++ (after ++ [it]))[moved pre.length (pre.length + after.length) i]? =
      (pre ++ it :: after)[i]? := by
  rcases lt_trichotomy i pre.length with hlt | rfl | hgt
  · rw [moved, if_pos hlt, getElem?_append_left hlt, getElem?_append_left hlt]
  · rw [moved, if_neg (lt_irrefl _), if_pos rfl, ← append_assoc, ← length_append,
      getElem?_append_right (le_refl _)]
    simp
  · have hi : i - pre.length = (i - 1 - pre.length) + 1 := by omega
    have hb : i - 1 - pre.length < after.length := by omega
    rw [moved, if_neg (by omega), if_neg (by omega), getElem?_append_right (by omega),
      getElem?_append_left hb, getElem?_append_right (by omega), hi, getElem?_cons_succ]

theorem getElem?_moved_of_ne (h : i ≤ pre.length + after.length) (hne : i ≠ pre.length) :
    (pre ++ after)[moved pre.length (pre.length + after.length) i]? = (pre ++ it :: after)[i]? := by
  have hb : moved pre.length (pre.length + after.length) i < (pre ++ after).length := by
    rw [length_append]
    unfold moved
    split_ifs <;> omega
  rw [← getElem?_moved pre after it i h, ← append_assoc, getElem?_append_left hb]

end

theorem exists_moved {position count target : ℕ} (hp : position ≤ count) (h : target ≤ count) :
    ∃ ix ≤ count, moved position count ix = target ∧ (target < count → ix ≠ position) := by
  unfold moved
  rcases lt_trichotomy target position with hlt | rfl | hgt
  · exact ⟨target, h, if_pos hlt, fun _ => hlt.ne⟩
  all_goals
    by_cases hl : target = count
    · exact ⟨_, hp, by rw [if_neg (lt_irrefl _), if_pos rfl, hl], fun hlt => by omega⟩
    · exact ⟨target + 1, by omega, by split_ifs <;> omega, fun _ => by omega⟩

section

variable {pre after : List (List DeviceDescriptor)} {descs : List DeviceDescriptor}
  {cand : Candidate}

theorem pluginIndex_lt (h : cand ∈ candidates pre) : cand.pluginIndex < pre.length := by
  obtain ⟨_, hp, -⟩ := mem_candidates.1 h
  exact (List.getElem?_eq_some_iff.1 hp).1

theorem pluginIndex_le (h : cand ∈ candidates (pre ++ descs :: after)) :
    cand.pluginIndex ≤ pre.length + after.length := by
  have hlt := pluginIndex_lt h
  rw [length_append, length_cons] at hlt
  omega

theorem mem_candidates_moved : cand ∈ candidates (pre ++ (after ++ [descs])) ↔
      ∃ old ∈ candidates (pre ++ descs :: after),
        move pre.length (pre.length + after.length) old = cand := by
  constructor
  · intro h
    have hlt := pluginIndex_lt h
    rw [length_append, length_append, length_singleton] at hlt
    obtain ⟨ix, hi, hm, -⟩ := exists_moved
      (Nat.le_add_right pre.length after.length) (show cand.pluginIndex ≤ _ by omega)
    refine ⟨{ cand with pluginIndex := ix }, ?_, ?_⟩
    · rw [mem_candidates, ← hm, getElem?_moved _ _ _ _ hi] at h
      exact mem_candidates.2 h
    · rw [move, hm]
  · rintro ⟨old, ho, rfl⟩
    rw [mem_candidates, move, getElem?_moved _ _ _ _ (pluginIndex_le ho)]
    exact mem_candidates.1 ho

theorem mem_candidates_without (descs : List DeviceDescriptor) : cand ∈ candidates (pre ++ after) ↔
      ∃ old ∈ candidates (pre ++ descs :: after), old.pluginIndex ≠ pre.length ∧
        move pre.length (pre.length + after.length) old = cand := by
  constructor
  · intro h
    have hlt := pluginIndex_lt h
    rw [length_append] at hlt
    obtain ⟨ix, hi, hm, hne⟩ := exists_moved (Nat.le_add_right pre.length _) hlt.le
    refine ⟨{ cand with pluginIndex := ix }, ?_, hne hlt, ?_⟩
    · rw [mem_candidates, ← hm, getElem?_moved_of_ne _ _ descs _ hi (hne hlt)] at h
      exact mem_candidates.2 h
    · rw [move, hm]
  · rintro ⟨old, ho, hne, rfl⟩
    rw [mem_candidates, move, getElem?_moved_of_ne _ _ descs _ (pluginIndex_le ho) hne]
    exact mem_candidates.1 ho

theorem candidates_nodup : (candidates descriptorsByPlugin).Nodup := by
  rw [candidates, nodup_flatMap]
  constructor
  · rintro ⟨descs, pluginIndex⟩ -
    refine Nodup.map ?_ (Nodup.of_map Prod.snd ?_)
    · rintro ⟨a, i⟩ ⟨b, j⟩ hs
      obtain ⟨-, rfl, rfl⟩ := Candidate.mk.inj hs
      rfl
    · rw [zipIdx_map_snd]
      exact nodup_range'
  · have hi : descriptorsByPlugin.zipIdx.Pairwise fun a b => a.2 ≠ b.2 := by
      rw [← pairwise_map (R := fun i j => i ≠ j), zipIdx_map_snd]
      exact nodup_range'
    refine hi.imp fun {a b} hne => ?_
    intro cand ha hb
    obtain ⟨_, -, rfl⟩ := mem_map.1 ha
    obtain ⟨_, -, hb⟩ := mem_map.1 hb
    exact hne (Candidate.mk.inj hb).1.symm

end

def comesBefore (metadata : List LoadedPluginMetadata) (a b : Candidate) : Prop :=
  precedes metadata a b ∧ ¬ precedes metadata b a

section

variable {metadata : List LoadedPluginMetadata}

instance : Std.Irrefl (comesBefore metadata) where
  irrefl _ h := h.2 h.1

instance : Std.Antisymm (comesBefore metadata) where
  antisymm _ _ h h' := absurd h'.1 h.2

theorem sortedCandidates_strict :
    (sortedCandidates metadata descs).Pairwise (comesBefore metadata) := by
  have hn : (sortedCandidates metadata descs).Nodup :=
    (perm_insertionSort _ _).nodup_iff.2 candidates_nodup
  apply ((sortedCandidates_pairwise metadata descs).and hn).imp_of_mem
  rintro a b ha hb ⟨hp, hne⟩
  refine ⟨hp, fun hba => hne ?_⟩
  have hi : a.pluginIndex = b.pluginIndex ∧ a.descriptorIndex = b.descriptorIndex := by
    unfold precedes at hp hba
    omega
  exact eq_of_same_indices (mem_sortedCandidates.1 ha) (mem_sortedCandidates.1 hb) hi.1 hi.2

theorem sortedCandidates_eq (hs : list.Pairwise (comesBefore metadata))
    (hm : ∀ cd, cd ∈ list ↔ cd ∈ candidates descs) : sortedCandidates metadata descs = list :=
  sortedCandidates_strict.eq_of_mem_iff hs fun cd =>
    mem_sortedCandidates.trans (hm cd).symm

end

inductive Block where
  | earlier
  | reloaded
  | later
  | lower
  deriving DecidableEq

section

variable (before : List Contender) (reloaded : Contender) (after : List Contender)

def priorityIn (plugins : List Contender) (candidate : Candidate) : ℤ :=
  priorityOf (plugins.map (·.metadata)) candidate.pluginIndex

/-- The plugins of the same priority are earlier or later by their place in the list. -/
def Lies (candidate : Candidate) : Block → Prop
  | .earlier => reloaded.metadata.priority < priorityIn (before ++ reloaded :: after) candidate ∨
      priorityIn (before ++ reloaded :: after) candidate = reloaded.metadata.priority ∧
        candidate.pluginIndex < before.length
  | .reloaded => candidate.pluginIndex = before.length
  | .later => priorityIn (before ++ reloaded :: after) candidate = reloaded.metadata.priority ∧
      before.length < candidate.pluginIndex
  | .lower => priorityIn (before ++ reloaded :: after) candidate < reloaded.metadata.priority

instance (candidate : Candidate) : DecidablePred (Lies before reloaded after candidate)
  | .earlier => inferInstanceAs (Decidable (_ ∨ _))
  | .reloaded => inferInstanceAs (Decidable (_ = _))
  | .later => inferInstanceAs (Decidable (_ ∧ _))
  | .lower => inferInstanceAs (Decidable (_ < _))

def part (block : Block) : List Candidate :=
  (sortedOf (before ++ reloaded :: after)).filter (Lies before reloaded after · block)

def reported (plugins : List Contender) : List (List DeviceDescriptor) :=
  plugins.map (·.descriptors)

variable {before reloaded after}

variable {block : Block} {plugins : List Contender} {blocks : List Block}

theorem mem_part : cand ∈ part before reloaded after block ↔
    cand ∈ candidates (reported (before ++ reloaded :: after)) ∧
      Lies before reloaded after cand block := by
  rw [part, mem_filter, decide_eq_true_iff]
  exact and_congr_left fun _ => mem_sortedCandidates

theorem priority_at_reloaded (before : List Contender) (reloaded : Contender)
    (after : List Contender) (cand : Candidate) (h : cand.pluginIndex = before.length) :
    priorityIn (before ++ reloaded :: after) cand = reloaded.metadata.priority := by
  rw [priorityIn, priorityOf, h, map_append, map_cons,
    getElem?_append_right (by rw [length_map]), length_map, Nat.sub_self]
  rfl

theorem lies_somewhere : ∃ block, Lies before reloaded after cand block := by
  by_cases hr : cand.pluginIndex = before.length
  · exact ⟨.reloaded, hr⟩
  · rcases lt_trichotomy (priorityIn (before ++ reloaded :: after) cand)
      reloaded.metadata.priority with hl | hs | hh
    · exact ⟨.lower, hl⟩
    · rcases Nat.lt_or_gt_of_ne hr with hlt | hgt
      · exact ⟨.earlier, .inr ⟨hs, hlt⟩⟩
      · exact ⟨.later, hs, hgt⟩
    · exact ⟨.earlier, .inl hh⟩

theorem comesBefore_iff : comesBefore (plugins.map (·.metadata)) a b ↔
      priorityIn plugins b < priorityIn plugins a ∨ priorityIn plugins a = priorityIn plugins b ∧
          (a.pluginIndex < b.pluginIndex ∨
            a.pluginIndex = b.pluginIndex ∧ a.descriptorIndex < b.descriptorIndex) := by
  unfold comesBefore precedes priorityIn
  omega

def Block.rank : Block → ℕ
  | .earlier => 0
  | .reloaded => 1
  | .later => 2
  | .lower => 3

/-- The move exchanges the reloaded plugin and the later ones of its priority. -/
def Block.movedRank : Block → ℕ
  | .earlier => 0
  | .later => 1
  | .reloaded => 2
  | .lower => 3

theorem comesBefore_of_rank (hr : x.rank < y.rank) (ha : Lies before reloaded after a x)
    (hb : Lies before reloaded after b y) :
    comesBefore ((before ++ reloaded :: after).map (·.metadata)) a b := by
  have hpa := priority_at_reloaded before reloaded after a
  have hpb := priority_at_reloaded before reloaded after b
  rw [comesBefore_iff]
  cases x <;> cases y <;> simp only [Lies, Block.rank] at ha hb hr <;> omega

theorem moved_lt {position count i j : ℕ} (hp : position ≤ count) (hne : i ≠ position)
    (h : i < j) : moved position count i < moved position count j := by
  unfold moved
  split_ifs <;> omega

theorem moved_lt_reloaded {position count i : ℕ} (h : position < i) (hi : i ≤ count) :
    moved position count i < moved position count position := by
  unfold moved
  split_ifs <;> omega

/-- The plugin between `before` and `after` is moved to the end. -/
abbrev moveLast (before after : List Contender) : Candidate → Candidate :=
  move before.length (before.length + after.length)

section

variable (hpa : priorityIn plugins (moveLast pre after a) = priorityIn (pre ++ reloaded :: after) a)
  (hpb : priorityIn plugins (moveLast pre after b) = priorityIn (pre ++ reloaded :: after) b)
include hpa hpb

theorem move_comesBefore_of_rank {x y : Block} (hr : x.movedRank < y.movedRank)
    (ha : a.pluginIndex ≤ pre.length + after.length)
    (hx : Lies pre reloaded after a x) (hy : Lies pre reloaded after b y) :
    comesBefore (plugins.map (·.metadata)) (moveLast pre after a) (moveLast pre after b) := by
  have hra := priority_at_reloaded pre reloaded after a
  have hrb := priority_at_reloaded pre reloaded after b
  have hlt := moved_lt (i := a.pluginIndex) (j := b.pluginIndex)
    (Nat.le_add_right pre.length after.length)
  have hl : pre.length < a.pluginIndex → b.pluginIndex = pre.length →
      moved pre.length (pre.length + after.length) a.pluginIndex <
        moved pre.length (pre.length + after.length) b.pluginIndex := by
    intro h hb
    rw [hb]
    exact moved_lt_reloaded h ha
  rw [comesBefore_iff, hpa, hpb]
  simp only [move]
  cases x <;> cases y <;> simp only [Lies, Block.movedRank] at hx hy hr <;> omega

theorem move_comesBefore_within {x : Block}
    (hx : Lies pre reloaded after a x) (hy : Lies pre reloaded after b x)
    (h : comesBefore ((pre ++ reloaded :: after).map (·.metadata)) a b) :
    comesBefore (plugins.map (·.metadata)) (moveLast pre after a) (moveLast pre after b) := by
  have hra := priority_at_reloaded pre reloaded after a
  have hlt := moved_lt (i := a.pluginIndex) (j := b.pluginIndex)
    (Nat.le_add_right pre.length after.length)
  have hs : a.pluginIndex = b.pluginIndex →
      moved pre.length (pre.length + after.length) a.pluginIndex =
        moved pre.length (pre.length + after.length) b.pluginIndex := fun h => h ▸ rfl
  rw [comesBefore_iff] at h ⊢
  rw [hpa, hpb]
  simp only [move]
  cases x <;> simp only [Lies] at hx hy <;> omega

end

theorem pairwise_parts (hw : ∀ block ∈ blocks, (part before reloaded after block).Pairwise below)
    (ha : blocks.Pairwise fun x y => ∀ a ∈ part before reloaded after x,
      ∀ b ∈ part before reloaded after y, below a b) :
    (blocks.flatMap (part before reloaded after)).Pairwise below := pairwise_flatMap.2 ⟨hw, ha⟩

theorem mem_parts : cand ∈ blocks.flatMap (part before reloaded after) ↔
      cand ∈ candidates (reported (before ++ reloaded :: after)) ∧
        ∃ block ∈ blocks, Lies before reloaded after cand block := by
  simp only [mem_flatMap, mem_part]
  exact ⟨fun ⟨block, hb, h, hl⟩ => ⟨h, block, hb, hl⟩, fun ⟨h, block, hb, hl⟩ => ⟨block, hb, h, hl⟩⟩

theorem part_strict : (part before reloaded after block).Pairwise
    (comesBefore ((before ++ reloaded :: after).map (·.metadata))) :=
  sortedCandidates_strict.sublist filter_sublist

variable (before reloaded after)

theorem sortedOf_loaded : sortedOf (before ++ reloaded :: after) =
    [.earlier, .reloaded, .later, .lower].flatMap (part before reloaded after) := by
  refine sortedCandidates_eq (pairwise_parts (fun block _ => part_strict) ?_) ?_
  · have hr : [Block.earlier, .reloaded, .later, .lower].Pairwise fun x y => x.rank < y.rank := by
      decide
    refine hr.imp fun hra a ha b hb => ?_
    exact comesBefore_of_rank hra (mem_part.1 ha).2 (mem_part.1 hb).2
  · intro cand
    rw [mem_parts]
    refine and_iff_left_of_imp fun _ => ?_
    obtain ⟨block, hl⟩ := lies_somewhere
    exact ⟨block, by cases block <;> decide, hl⟩

variable {before reloaded after}

theorem index_le (h : cand ∈ candidates (reported (before ++ reloaded :: after))) :
    cand.pluginIndex ≤ before.length + after.length := by
  rw [reported, map_append] at h
  simpa using pluginIndex_le h

theorem sortedOf_parts (hr : blocks.Pairwise fun x y => x.movedRank < y.movedRank)
    (hp : ∀ cand ∈ blocks.flatMap (part before reloaded after),
      priorityIn plugins (moveLast before after cand) =
        priorityIn (before ++ reloaded :: after) cand)
    (hme : ∀ cand, cand ∈ candidates (reported plugins) ↔
      ∃ old ∈ blocks.flatMap (part before reloaded after), moveLast before after old = cand) :
    sortedOf plugins =
      (blocks.flatMap (part before reloaded after)).map (moveLast before after) := by
  have hm : ∀ block ∈ blocks, ∀ cand ∈ part before reloaded after block,
      priorityIn plugins (moveLast before after cand) =
        priorityIn (before ++ reloaded :: after) cand := fun block hbl cand h =>
    hp cand (mem_flatMap.2 ⟨block, hbl, h⟩)
  refine sortedCandidates_eq (pairwise_map.2 (pairwise_parts ?_ ?_)) ?_
  · intro block hbl
    refine part_strict.imp_of_mem fun {a b} ha hb h => ?_
    exact move_comesBefore_within (hm block hbl a ha) (hm block hbl b hb)
      (mem_part.1 ha).2 (mem_part.1 hb).2 h
  · refine hr.imp_of_mem fun {x y} hx hy hra a ha b hb => ?_
    exact move_comesBefore_of_rank (hm x hx a ha) (hm y hy b hb) hra
      (index_le (mem_part.1 ha).1) (mem_part.1 ha).2 (mem_part.1 hb).2
  · intro cand
    exact mem_map.trans (hme cand).symm

theorem priorityIn_moved (hmetadata : renewed.metadata = reloaded.metadata)
    (h : cand.pluginIndex ≤ before.length + after.length) :
    priorityIn (before ++ (after ++ [renewed])) (moveLast before after cand) =
      priorityIn (before ++ reloaded :: after) cand := by
  have hm := getElem?_moved (before.map (·.metadata)) (after.map (·.metadata))
    reloaded.metadata cand.pluginIndex
  simp only [length_map] at hm
  simp [priorityIn, priorityOf, move, hmetadata, hm h]

theorem priorityIn_without (h : cand.pluginIndex ≤ before.length + after.length)
    (hne : cand.pluginIndex ≠ before.length) :
    priorityIn (before ++ after) (moveLast before after cand) =
      priorityIn (before ++ reloaded :: after) cand := by
  have hm := getElem?_moved_of_ne (before.map (·.metadata)) (after.map (·.metadata))
    reloaded.metadata cand.pluginIndex
  simp only [length_map] at hm
  simp [priorityIn, priorityOf, move, hm h hne]

theorem lies_elsewhere : (∃ block ∈ [Block.earlier, .later, .lower],
    Lies before reloaded after cand block) ↔ cand.pluginIndex ≠ before.length := by
  constructor
  · rintro ⟨block, hb, hl⟩ hi
    have hp := priority_at_reloaded before reloaded after cand hi
    cases block <;> simp only [Lies] at hl <;> first | omega | simp at hb
  · intro hi
    obtain ⟨block, hl⟩ := lies_somewhere
    refine ⟨block, ?_, hl⟩
    cases block with
    | reloaded => exact absurd hl hi
    | _ => decide

/-- The reloaded plugin now comes after the later ones of its priority. -/
theorem sortedOf_moved (hmetadata : renewed.metadata = reloaded.metadata)
    (hdescriptors : renewed.descriptors = reloaded.descriptors) :
    sortedOf (before ++ (after ++ [renewed])) =
      ([.earlier, .later, .reloaded, .lower].flatMap (part before reloaded after)).map
        (moveLast before after) := by
  refine sortedOf_parts (by decide) ?_ ?_
  · intro cand h
    exact priorityIn_moved hmetadata (index_le (mem_parts.1 h).1)
  · intro cand
    simp only [reported, map_append, map_cons, map_nil, hdescriptors]
    rw [mem_candidates_moved]
    simp only [length_map, mem_parts, reported, map_append, map_cons]
    refine exists_congr fun old => and_congr_left fun _ => (and_iff_left ?_).symm
    obtain ⟨block, hl⟩ := lies_somewhere
    exact ⟨block, by cases block <;> decide, hl⟩

variable (reloaded) in
theorem sortedOf_without : sortedOf (before ++ after) =
    ([.earlier, .later, .lower].flatMap (part before reloaded after)).map
      (moveLast before after) := by
  refine sortedOf_parts (by decide) ?_ ?_
  · intro cand h
    obtain ⟨hc, hl⟩ := mem_parts.1 h
    exact priorityIn_without (index_le hc) (lies_elsewhere.1 hl)
  · intro cand
    rw [reported, map_append, mem_candidates_without reloaded.descriptors]
    simp only [length_map, mem_parts, lies_elsewhere, reported, map_append, map_cons, and_assoc]

theorem lies_unique (hx : Lies before reloaded after cand x)
    (hy : Lies before reloaded after cand y) : x = y := by
  have hp := priority_at_reloaded before reloaded after cand
  cases x <;> cases y <;> first | rfl | (simp only [Lies] at hx hy; omega)

theorem not_mem_parts (hx : Lies before reloaded after cand x) (h : x ∉ blocks) :
    cand ∉ blocks.flatMap (part before reloaded after) := by
  intro hm
  obtain ⟨-, y, hy, hl⟩ := mem_parts.1 hm
  exact h (lies_unique hx hl ▸ hy)

variable (before reloaded after)

def decided : List Candidate := select Contests [] (part before reloaded after .earlier)

def granted (block : Block) : List Candidate :=
  select Contests (decided before reloaded after) (part before reloaded after block)

variable {before reloaded after}

theorem lies_of_granted (h : cand ∈ granted before reloaded after block) :
    Lies before reloaded after cand block := (mem_part.1 ((select_sublist _ _).subset h)).2

theorem mem_select_granted (hl : Lies before reloaded after cand block) (he : block ≠ .earlier)
    (hr : block ∉ rest) :
    cand ∈ select Contests [] ((.earlier :: block :: rest).flatMap (part before reloaded after)) ↔
      cand ∈ granted before reloaded after block := by
  have hf : cand ∉ part before reloaded after .earlier := fun h =>
    he (lies_unique hl (mem_part.1 h).2)
  exact mem_select_middle hf (not_mem_parts hl hr)

theorem acceptedOf_loaded : acceptedOf (before ++ reloaded :: after) =
    select Contests [] ([.earlier, .reloaded, .later, .lower].flatMap
      (part before reloaded after)) := by
  rw [← sortedOf_loaded]
  exact accepted_eq_select

theorem acceptedOf_parts (h : sortedOf plugins = (blocks.flatMap (part before reloaded after)).map
      (moveLast before after)) :
    acceptedOf plugins = (select Contests [] (blocks.flatMap (part before reloaded after))).map
      (moveLast before after) := by
  have ha : acceptedOf plugins = select Contests [] (sortedOf plugins) := accepted_eq_select
  rw [ha, h]
  exact select_map _ (fun _ _ => Iff.rfl) []

theorem own_iff : cand ∈ acceptedOf (before ++ reloaded :: after) ∧
    cand.pluginIndex = before.length ↔ cand ∈ granted before reloaded after .reloaded := by
  rw [acceptedOf_loaded]
  constructor
  · rintro ⟨h, hi⟩
    have hl : Lies before reloaded after cand .reloaded := hi
    exact (mem_select_granted hl (by decide) (by decide)).1 h
  · intro h
    have hl := lies_of_granted h
    exact ⟨(mem_select_granted hl (by decide) (by decide)).2 h, hl⟩

theorem rival_iff : (cand ∈ acceptedOf (before ++ after) ∧ before.length ≤ cand.pluginIndex ∧
      priorityIn (before ++ after) cand = reloaded.metadata.priority) ↔
    ∃ old ∈ granted before reloaded after .later, moveLast before after old = cand := by
  rw [acceptedOf_parts (sortedOf_without reloaded), mem_map]
  constructor
  · rintro ⟨⟨old, ho, rfl⟩, hi, hp⟩
    obtain ⟨hc, hli⟩ := mem_parts.1 ((select_sublist _ _).subset ho)
    have hne := lies_elsewhere.1 hli
    rw [priorityIn_without (index_le hc) hne] at hp
    have hl : Lies before reloaded after old .later := by
      refine ⟨hp, ?_⟩
      simp only [move, moved] at hi
      split_ifs at hi <;> omega
    exact ⟨old, (mem_select_granted hl (by decide) (by decide)).1 ho, rfl⟩
  · rintro ⟨old, ho, rfl⟩
    have hl := lies_of_granted ho
    have hc := (mem_part.1 ((select_sublist _ _).subset ho)).1
    refine ⟨⟨old, (mem_select_granted hl (by decide) (by decide)).2 ho, rfl⟩, ?_, ?_⟩
    · have hgt := hl.2
      simp only [move, moved]
      split_ifs <;> omega
    · rw [priorityIn_without (index_le hc) hl.2.ne']
      exact hl.1

theorem unrivalled_iff : Unrivalled before reloaded after ↔
    ∀ own ∈ granted before reloaded after .reloaded,
      ∀ rival ∈ granted before reloaded after .later, ¬ Contests own rival := by
  constructor
  · intro h own how rival hr
    obtain ⟨ha, hi⟩ := own_iff.2 how
    obtain ⟨hm, hp, hpr⟩ := rival_iff.2 ⟨rival, hr, rfl⟩
    exact h own ha hi (move _ _ rival) hm hp hpr
  · intro h own ha hi rival hr hp hpr
    obtain ⟨old, ho, rfl⟩ := rival_iff.1 ⟨hr, hp, hpr⟩
    exact h own (own_iff.1 ⟨ha, hi⟩) old ho

theorem owner_accepted {id : LoadedPluginId} : (arbitrateOwnershipById plugins)[d]? = some id ↔
      ∃ cand ∈ acceptedOf plugins, cand.descriptor.id = d ∧
        plugins[cand.pluginIndex]?.map (·.id) = some id := by
  rw [ownerById_iff]
  constructor
  · rintro ⟨ix, ho, hid⟩
    obtain ⟨cand, hc, hd, rfl⟩ := owner_iff.1 ho
    exact ⟨cand, hc, hd, hid⟩
  · rintro ⟨cand, hc, hd, hid⟩
    exact ⟨cand.pluginIndex, owner_iff.2 ⟨cand, hc, hd, rfl⟩, hid⟩

def renamed (old new id : LoadedPluginId) : LoadedPluginId := if id = old then new else id

theorem renamed_self : renamed old new old = new := if_pos rfl

theorem renamed_of_ne {old new id : LoadedPluginId} (h : id ≠ old) : renamed old new id = id :=
  if_neg h

theorem map_renamed {old new : LoadedPluginId} (h : ∀ plugin ∈ plugins, plugin.id ≠ old) :
    plugins.map (fun plugin => renamed old new plugin.id) = plugins.map (·.id) :=
  map_congr_left fun plugin hp => renamed_of_ne (h plugin hp)

section

variable {renewed : Contender} (hids : ((pre ++ reloaded :: after).map (·.id)).Nodup)
include hids

theorem other_ids : (∀ plugin ∈ pre, plugin.id ≠ reloaded.id) ∧
    ∀ plugin ∈ after, plugin.id ≠ reloaded.id := by
  rw [map_append, map_cons, nodup_append, nodup_cons] at hids
  obtain ⟨-, ⟨ha, -⟩, hd⟩ := hids
  refine ⟨fun plugin hp => ?_, fun plugin hp hid => ?_⟩
  · exact hd _ (mem_map_of_mem hp) _ mem_cons_self
  · exact ha (hid ▸ mem_map_of_mem hp)

theorem id_moved (h : ix ≤ pre.length + after.length) :
    (pre ++ (after ++ [renewed]))[moved pre.length (pre.length + after.length) ix]?.map (·.id) =
      ((pre ++ reloaded :: after)[ix]?.map (·.id)).map (renamed reloaded.id renewed.id) := by
  obtain ⟨hb, ha⟩ := other_ids hids
  have hl : (pre ++ renewed :: after).map (·.id) =
      (pre ++ reloaded :: after).map fun plugin => renamed reloaded.id renewed.id plugin.id := by
    simp [map_renamed hb, map_renamed ha, renamed_self]
  rw [getElem?_moved _ _ _ _ h, ← getElem?_map, hl, getElem?_map, Option.map_map]
  rfl
variable (hmetadata : renewed.metadata = reloaded.metadata)
  (hdescriptors : renewed.descriptors = reloaded.descriptors)
include hmetadata hdescriptors

theorem owner_moved_iff {id : LoadedPluginId} :
    (arbitrateOwnershipById (pre ++ (after ++ [renewed])))[d]? = some id ↔
      ∃ cand ∈ select Contests [] ([.earlier, .later, .reloaded, .lower].flatMap
          (part pre reloaded after)),
        cand.descriptor.id = d ∧ ((pre ++ reloaded :: after)[cand.pluginIndex]?.map (·.id)).map
            (renamed reloaded.id renewed.id) = some id := by
  rw [owner_accepted, acceptedOf_parts (sortedOf_moved hmetadata hdescriptors)]
  constructor
  · rintro ⟨cand, hc, hd, hid⟩
    obtain ⟨old, ho, rfl⟩ := mem_map.1 hc
    have hi := index_le (mem_parts.1 ((select_sublist _ _).subset ho)).1
    exact ⟨old, ho, hd, id_moved hids hi ▸ hid⟩
  · rintro ⟨old, ho, hd, hid⟩
    have hi := index_le (mem_parts.1 ((select_sublist _ _).subset ho)).1
    exact ⟨_, mem_map_of_mem ho, hd, (id_moved hids hi).trans hid⟩

variable (renewed) in
theorem owners_kept (h : Unrivalled pre reloaded after) (d : String) :
    (arbitrateOwnershipById (pre ++ (after ++ [renewed])))[d]? =
      (arbitrateOwnershipById (pre ++ reloaded :: after))[d]?.map
        (renamed reloaded.id renewed.id) := by
  have hs : ∀ cand, cand ∈ select Contests [] ([.earlier, .later, .reloaded, .lower].flatMap
        (part pre reloaded after)) ↔ cand ∈ acceptedOf (pre ++ reloaded :: after) := by
    intro cand
    rw [acceptedOf_loaded]
    simp only [flatMap_cons]
    rw [select_append [] (part pre reloaded after .earlier),
      select_append [] (part pre reloaded after .earlier), mem_append, mem_append]
    exact or_congr_right (mem_select_swap (fun _ _ => Contests.symm) (unrivalled_iff.1 h))
  ext id
  rw [owner_moved_iff hids hmetadata hdescriptors, Option.map_eq_some_iff]
  simp only [owner_accepted, hs]
  constructor
  · rintro ⟨cand, hc, hd, hid⟩
    obtain ⟨old, ho, rfl⟩ := Option.map_eq_some_iff.1 hid
    exact ⟨old, ⟨cand, hc, hd, ho⟩, rfl⟩
  · rintro ⟨old, ⟨cand, hc, hd, ho⟩, rfl⟩
    exact ⟨cand, hc, hd, by rw [ho, Option.map_some]⟩

variable (renewed) in
/-- A rival takes the place of the reloaded plugin, which then loses a device. -/
theorem unrivalled_of_owners (hf : renewed.id ∉ (pre ++ reloaded :: after).map (·.id))
    (hrp : (reloaded.descriptors.map (·.id)).Nodup)
    (h : ∀ d : String, (arbitrateOwnershipById (pre ++ reloaded :: after))[d]? = some reloaded.id →
      (arbitrateOwnershipById (pre ++ (after ++ [renewed])))[d]? = some renewed.id) :
    Unrivalled pre reloaded after := by
  rw [unrivalled_iff]
  intro own how rival hri hco
  have hat : ∀ {cand : Candidate}, cand.pluginIndex = pre.length →
      (pre ++ reloaded :: after)[cand.pluginIndex]? = some reloaded := by
    intro cand hi
    rw [hi, getElem?_append_right (le_refl _), Nat.sub_self, getElem?_cons_zero]
  obtain ⟨ha, hi⟩ := own_iff.2 how
  have ho : (arbitrateOwnershipById (pre ++ reloaded :: after))[own.descriptor.id]? =
      some reloaded.id := owner_accepted.2 ⟨own, ha, rfl, by rw [hat hi, Option.map_some]⟩
  obtain ⟨kept, hke, hd, hid⟩ := (owner_moved_iff hids hmetadata hdescriptors).1 (h _ ho)
  -- Only the reloaded plugin has the new identifier, so `kept` is `own` again.
  have hk : kept.pluginIndex = pre.length := by
    obtain ⟨old, hol, hre⟩ := Option.map_eq_some_iff.1 hid
    obtain ⟨plugin, hp, rfl⟩ := Option.map_eq_some_iff.1 hol
    have hm := mem_map_of_mem (f := (·.id)) (mem_of_getElem? hp)
    by_cases hr : plugin.id = reloaded.id
    · have hlt := (List.getElem?_eq_some_iff.1 hp).1
      refine (getElem?_inj (l := (pre ++ reloaded :: after).map (·.id)) ?_ hids).1 ?_
      · rwa [length_map]
      · rw [getElem?_map, getElem?_map, hp, ← hi, hat hi, Option.map_some, Option.map_some, hr]
    · rw [renamed_of_ne hr] at hre
      exact absurd (hre ▸ hm) hf
  have hs : kept = own := by
    have hc := (mem_parts.1 ((select_sublist _ _).subset hke)).1
    refine eq_of_same_device hc (mem_candidates_of_accepted ha) (hk.trans hi.symm) ?_ hd
    rw [reported, getElem?_map, hat hk]
    rintro _ ⟨⟩
    exact hrp
  subst hs
  have hli := lies_of_granted how
  have hg : kept ∈ select Contests
      ([] ++ select Contests [] ([.earlier, .later].flatMap (part pre reloaded after)))
      (part pre reloaded after .reloaded) := by
    have hl : kept ∉ [Block.lower].flatMap (part pre reloaded after) :=
      not_mem_parts hli (by decide)
    apply (mem_select_middle (not_mem_parts hli (by decide)) hl).1
    simpa using hke
  have ht : rival ∈ select Contests [] ([.earlier, .later].flatMap (part pre reloaded after)) :=
    (mem_select_granted (lies_of_granted hri) (by decide) (by decide)).2 hri
  exact free_of_mem_select hg rival ht hco.symm

end

end

/-- The topology describes the loaded plugins, which differ in identifier and name. -/
structure Manager.Settled (manager : Manager) : Prop where
  consistent : Consistent manager.loaded manager.topology
  ids : (manager.loaded.map (·.id)).Nodup
  names : (manager.loaded.map (·.metadata.name)).Nodup
  fresh : ∀ plugin ∈ manager.loaded, plugin.id < manager.nextId

def Manager.KeepsPlace (manager : Manager) (name : String) : Prop :=
  ∀ before reloaded after, manager.contenders = before ++ reloaded :: after →
    reloaded.metadata.name = name → Unrivalled before reloaded after

def slot (contender : Contender) : LoadedPluginId × List DeviceDescriptor :=
  (contender.id, contender.descriptors)

theorem arbitrationInputs_slots
    (h : ∀ cont ∈ contenders, ld.find? (·.id == cont.id) = some ⟨cont.id, cont.metadata⟩) :
    arbitrationInputs (contenders.map slot) ld = contenders := by
  rw [arbitrationInputs, filterMap_map]
  conv_rhs => rw [← filterMap_some (l := contenders)]
  refine filterMap_congr fun cont hc => ?_
  simp [slot, h cont hc]

theorem mem_contenders {mgr : Manager} (hc : cont ∈ mgr.contenders) :
    (⟨cont.id, cont.metadata⟩ : LoadedPlugin) ∈ mgr.loaded := by
  obtain ⟨⟨id, dss⟩, -, hf⟩ := mem_filterMap.1 hc
  obtain ⟨plugin, hp, rfl⟩ := Option.map_eq_some_iff.1 hf
  obtain rfl : plugin.id = id := by simpa using find?_some hp
  exact mem_of_find?_eq_some hp

section

variable {m : Manager} (h : m.Settled)
include h

theorem slots_contenders : m.contenders.map slot = m.topology.descriptorsByPlugin := by
  rw [Manager.contenders, arbitrationInputs, map_filterMap]
  conv_rhs => rw [← filterMap_some (l := m.topology.descriptorsByPlugin)]
  apply filterMap_congr
  rintro ⟨id, dss⟩ hs
  obtain ⟨plugin, hp, rfl⟩ := mem_map.1
    (h.consistent.ids.mem_iff.1 (mem_map_of_mem (f := (·.1)) hs))
  simp [find_of_mem h.ids hp, slot]

theorem contenders_ids : (m.contenders.map (·.id)).Nodup := by
  have hids : m.contenders.map (·.id) = m.topology.descriptorsByPlugin.map (·.1) := by
    rw [← slots_contenders h, map_map]
    rfl
  rw [hids]
  exact h.consistent.ids.nodup_iff.2 h.ids

theorem plugin_of_name (hp : plugin ∈ m.loaded) (ho : other ∈ m.loaded)
    (hn : plugin.metadata.name = other.metadata.name) : plugin = other :=
  inj_on_of_nodup_map h.names hp ho hn

end

theorem reloadPlugin_ok {next : Manager}
    (h : reloadPlugin name (.ok dss) mgr = (.ok result, next)) :
    ∃ old ds, mgr.loaded.find? (·.metadata.name == name) = some old ∧
      normalizeDevices dss = .ok ds ∧
      next.loaded = mgr.loaded.filter (·.id != old.id) ++ [⟨mgr.nextId, old.metadata⟩] ∧
      commitReload old.id mgr.nextId dss next.loaded mgr.topology =
        .ok (result, next.topology) := by
  unfold reloadPlugin at h
  cases hf : mgr.loaded.find? (·.metadata.name == name) with
  | none =>
    rw [hf] at h
    cases (Prod.mk.inj h).1
  | some old =>
    rw [hf] at h
    cases hd : normalizeDevices dss with
    | error diagnostic =>
      simp only [hd, ok_bind, error_bind] at h
      cases (Prod.mk.inj h).1
    | ok ds =>
      simp only [hd, ok_bind] at h
      cases hc : commitReload old.id mgr.nextId dss
          (mgr.loaded.filter (·.id != old.id) ++ [⟨mgr.nextId, old.metadata⟩])
          mgr.topology with
      | error message =>
        simp only [hc] at h
        cases (Prod.mk.inj h).1
      | ok committed =>
        simp only [hc] at h
        obtain ⟨hr, rfl⟩ := Prod.mk.inj h
        cases hr
        exact ⟨old, ds, rfl, rfl, rfl, hc⟩

/-- What a successful reload of the plugin between `before` and `after` leaves. -/
structure Reloaded (manager next : Manager) (before : List Contender) (reloaded : Contender)
    (after : List Contender) (result : TopologyReconcile) : Prop where
  contenders : manager.contenders = before ++ reloaded :: after
  reported : (reloaded.descriptors.map (·.id)).Nodup
  loaded : next.loaded = manager.loaded.filter (·.id != reloaded.id) ++
    [⟨manager.nextId, reloaded.metadata⟩]
  descriptors : next.topology.descriptorsByPlugin =
    (before ++ (after ++ [{ reloaded with id := manager.nextId }])).map slot
  owners : next.topology.ownerByDevice =
    arbitrateOwnershipById (before ++ (after ++ [{ reloaded with id := manager.nextId }]))
  committed : Committed manager.topology result next.topology

section

variable {m next : Manager} {pre after : List Contender} {reloaded : Contender}
  {res : TopologyReconcile} {name : String}

theorem fresh_id (h : m.Settled) : m.nextId ∉ m.contenders.map (·.id) := by
  intro hk
  obtain ⟨cont, hc, hid⟩ := mem_map.1 hk
  have hlt := h.fresh _ (mem_contenders hc)
  exact hlt.ne hid

theorem withoutPlugin_slots (hids : ((pre ++ reloaded :: after).map (·.id)).Nodup) :
    withoutPlugin reloaded.id ((pre ++ reloaded :: after).map slot) = (pre ++ after).map slot := by
  obtain ⟨hb, ha⟩ := other_ids hids
  have hk : ∀ contenders : List Contender, (∀ plugin ∈ contenders, plugin.id ≠ reloaded.id) →
      withoutPlugin reloaded.id (contenders.map slot) = contenders.map slot := by
    intro contenders hne
    refine filter_eq_self.2 (forall_mem_map.2 fun cont hc => ?_)
    exact bne_iff_ne.2 (hne cont hc)
  have hd : withoutPlugin reloaded.id (slot reloaded :: after.map slot) =
      withoutPlugin reloaded.id (after.map slot) := filter_cons_of_neg (by simp [slot])
  rw [map_append, map_append]
  calc withoutPlugin reloaded.id (pre.map slot ++ slot reloaded :: after.map slot)
      = withoutPlugin reloaded.id (pre.map slot) ++
          withoutPlugin reloaded.id (slot reloaded :: after.map slot) := filter_append ..
    _ = pre.map slot ++ after.map slot := by
      rw [hk pre hb, hd, hk after ha]

theorem loaded_ids (h : m.Settled) (hl : next.loaded =
    m.loaded.filter (·.id != reloaded.id) ++ [⟨m.nextId, reloaded.metadata⟩]) :
    (next.loaded.map (·.id)).Nodup := by
  rw [hl, map_append, nodup_append]
  refine ⟨h.ids.sublist (filter_sublist.map _), nodup_singleton _, ?_⟩
  rintro _ hid _ hn rfl
  obtain ⟨plugin, hp, rfl⟩ := mem_map.1 hid
  obtain hs := mem_singleton.1 hn
  exact (h.fresh plugin (mem_filter.1 hp).1).ne hs

theorem reloaded_of_ok (h : m.Settled) (hs : m.contenders = pre ++ reloaded :: after)
    (hn : reloaded.metadata.name = name)
    (hre : reloadPlugin name (.ok reloaded.descriptors) m = (.ok res, next)) :
    Reloaded m next pre reloaded after res := by
  obtain ⟨old, ds, hf, hd, hl, hcm⟩ := reloadPlugin_ok hre
  have hids : ((pre ++ reloaded :: after).map (·.id)).Nodup := hs ▸ contenders_ids h
  have hm : (⟨reloaded.id, reloaded.metadata⟩ : LoadedPlugin) ∈ m.loaded :=
    mem_contenders (hs ▸ mem_append_right _ mem_cons_self)
  obtain rfl : old = ⟨reloaded.id, reloaded.metadata⟩ := by
    refine plugin_of_name h (mem_of_find?_eq_some hf) hm ?_
    rw [hn]
    simpa using find?_some hf
  obtain ⟨hco, hso, ho⟩ := rebuild_ok hcm
  have hdescriptors : next.topology.descriptorsByPlugin =
      (pre ++ (after ++ [{ reloaded with id := m.nextId }])).map slot := by
    rw [← Except.ok.inj hso, reloadedDescriptors, ← slots_contenders h, hs,
      withoutPlugin_slots hids, ← append_assoc]
    conv_rhs => rw [map_append]
    rfl
  refine ⟨hs, (normalizeFrom_ok hd).1, hl, hdescriptors, ?_, hco⟩
  rw [ho, hdescriptors, ownersOf, arbitrationInputs_slots]
  intro cont hc
  have hp : (⟨cont.id, cont.metadata⟩ : LoadedPlugin) ∈ next.loaded := by
    obtain ⟨hb, ha⟩ := other_ids hids
    have hot : cont ∈ pre ++ after → (⟨cont.id, cont.metadata⟩ : LoadedPlugin) ∈
          m.loaded.filter (·.id != reloaded.id) := by
      intro hme
      refine mem_filter.2 ⟨mem_contenders (hs ▸ ?_), bne_iff_ne.2 ?_⟩
      · exact mem_append.2 ((mem_append.1 hme).imp_right (mem_cons_of_mem _))
      · exact (mem_append.1 hme).elim (hb cont) (ha cont)
    rw [hl]
    rw [← append_assoc] at hc
    refine mem_append.2 ((mem_append.1 hc).imp hot ?_)
    intro hr
    rw [mem_singleton.1 hr]
    exact mem_singleton_self _
  exact find_of_mem (loaded_ids h hl) hp

theorem Reloaded.loaded_old (hr : Reloaded m next pre reloaded after res) :
    (⟨reloaded.id, reloaded.metadata⟩ : LoadedPlugin) ∈ m.loaded :=
  mem_contenders (hr.contenders ▸ mem_append_right _ mem_cons_self)

theorem mem_owned {topology : PluginTopologyState} {contenders : List Contender}
    (h : topology.descriptorsByPlugin = contenders.map slot) :
    desc ∈ topology.owned ↔ ∃ cont ∈ contenders, desc ∈ cont.descriptors ∧
      topology.ownerByDevice[desc.id]? = some cont.id := by
  simp [PluginTopologyState.owned, ownedDescriptors, h, mem_filter, slot]

theorem renamed_inj (ha : a ≠ new) (hb : b ≠ new) :
    renamed old new a = renamed old new b ↔ a = b := by
  unfold renamed
  split_ifs with hao hbo hbo
  · exact iff_of_true rfl (hao.trans hbo.symm)
  · exact iff_of_false (fun h => hb h.symm) fun h => hbo (h ▸ hao)
  · exact iff_of_false ha fun h => hao (h.trans hbo)
  · exact Iff.rfl

section

variable (h : m.Settled) (hr : Reloaded m next pre reloaded after res)

include h hr

theorem Reloaded.ids : ((pre ++ reloaded :: after).map (·.id)).Nodup :=
  hr.contenders ▸ contenders_ids h

theorem Reloaded.owners_before :
    m.topology.ownerByDevice = arbitrateOwnershipById (pre ++ reloaded :: after) := by
  rw [h.consistent.owners, ← hr.contenders]
  rfl

theorem Reloaded.find_new :
    next.loaded.find? (·.id == m.nextId) = some ⟨m.nextId, reloaded.metadata⟩ := by
  have hp : (⟨m.nextId, reloaded.metadata⟩ : LoadedPlugin) ∈ next.loaded :=
    hr.loaded ▸ mem_append_right _ (mem_singleton_self _)
  exact find_of_mem (loaded_ids h hr.loaded) hp

theorem Reloaded.find_other (hpl : plugin ∈ m.loaded) (hne : plugin.id ≠ reloaded.id) :
    next.loaded.find? (·.id == plugin.id) = some plugin := by
  have hp : plugin ∈ next.loaded :=
    hr.loaded ▸ mem_append_left _ (mem_filter.2 ⟨hpl, bne_iff_ne.2 hne⟩)
  exact find_of_mem (loaded_ids h hr.loaded) hp

theorem Reloaded.ownerName_kept {d : String} (ho : next.topology.ownerByDevice[d]? =
      m.topology.ownerByDevice[d]?.map (renamed reloaded.id m.nextId)) :
    next.ownerName d = m.ownerName d := by
  rw [Manager.ownerName, Manager.ownerName, ho]
  cases hol : m.topology.ownerByDevice[d]? with
  | none => rfl
  | some id =>
    obtain ⟨plugin, hp, rfl⟩ := h.consistent.owners_loaded d id hol
    simp only [Option.map_some, Option.bind_some, find_of_mem h.ids hp]
    by_cases hid : plugin.id = reloaded.id
    · have hs : plugin = ⟨reloaded.id, reloaded.metadata⟩ :=
        inj_on_of_nodup_map h.ids hp hr.loaded_old hid
      rw [hid, renamed_self, hr.find_new h, hs]
      rfl
    · rw [renamed_of_ne hid, hr.find_other h hp hid]
      rfl

theorem Reloaded.owner_of_name (hn : next.ownerName d = some reloaded.metadata.name) :
    next.topology.ownerByDevice[d]? = some m.nextId := by
  obtain ⟨id, ho, hf⟩ := Option.bind_eq_some_iff.1 hn
  obtain ⟨plugin, hp, hs⟩ := Option.map_eq_some_iff.1 hf
  obtain rfl : plugin.id = id := by simpa using find?_some hp
  have hm := mem_of_find?_eq_some hp
  rw [hr.loaded, mem_append, mem_filter, mem_singleton, bne_iff_ne] at hm
  rcases hm with ⟨hl, hne⟩ | rfl
  · have he := plugin_of_name h hl hr.loaded_old hs
    exact absurd (congrArg LoadedPlugin.id he) hne
  · exact ho

theorem Reloaded.exists_contender (property : LoadedPluginId → List DeviceDescriptor → Prop) :
    (∃ cont ∈ pre ++ (after ++ [{ reloaded with id := m.nextId }]),
      property cont.id cont.descriptors) ↔
    ∃ cont ∈ pre ++ reloaded :: after,
      property (renamed reloaded.id m.nextId cont.id) cont.descriptors := by
  obtain ⟨hb, ha⟩ := other_ids (hr.ids h)
  have hs : ∀ {contenders : List Contender}, (∀ plugin ∈ contenders, plugin.id ≠ reloaded.id) →
      ((∃ cont ∈ contenders, property cont.id cont.descriptors) ↔ ∃ cont ∈ contenders,
          property (renamed reloaded.id m.nextId cont.id) cont.descriptors) :=
    fun hne => exists_congr fun cont => and_congr_right fun hm => by
      rw [renamed_of_ne (hne cont hm)]
  simp only [mem_append, mem_cons, or_and_right, exists_or, exists_eq_left,
    hs hb, hs ha, renamed_self, not_mem_nil, or_false]
  exact or_congr_right or_comm

theorem Reloaded.unchanged (ho : ∀ d : String, next.topology.ownerByDevice[d]? =
      m.topology.ownerByDevice[d]?.map (renamed reloaded.id m.nextId)) :
    res.changedDevices = [] := by
  obtain ⟨hne, prev, hp, hch⟩ := hr.committed
  obtain ⟨hn, -, hids, hm⟩ := normalizeFrom_ok hp
  obtain ⟨hn', -, hi', hm'⟩ := normalizeFrom_ok hne
  rw [hch]
  refine unchanged_of_same_devices (hids ▸ hn) (hi' ▸ hn') fun d => ?_
  rw [hm, hm']
  refine exists_congr fun desc => and_congr_left fun _ => ?_
  rw [mem_owned ((slots_contenders h).symm.trans (congrArg _ hr.contenders)),
    mem_owned hr.descriptors, hr.exists_contender h (fun id dss => desc ∈ dss ∧
      next.topology.ownerByDevice[desc.id]? = some id), ho]
  refine exists_congr fun cont => and_congr_right fun hc => and_congr_right fun _ => ?_
  have hf : cont.id ≠ m.nextId := fun hid =>
    fresh_id h (hid ▸ hr.contenders ▸ mem_map_of_mem hc)
  cases how : m.topology.ownerByDevice[desc.id]? with
  | none => simp
  | some id =>
    obtain ⟨plugin, hpl, rfl⟩ := h.consistent.owners_loaded _ _ how
    rw [Option.map_some, Option.some.injEq, Option.some.injEq,
      renamed_inj (h.fresh plugin hpl).ne hf]

end

theorem same_contender (h : m.Settled) {a b : Contender} (ha : a ∈ m.contenders)
    (hb : b ∈ m.contenders) (hn : a.metadata.name = b.metadata.name) : a = b := by
  have hp := plugin_of_name h (mem_contenders ha) (mem_contenders hb) hn
  exact inj_on_of_nodup_map (contenders_ids h) ha hb (congrArg LoadedPlugin.id hp)

theorem unrivalled_of_priority
    (h : ∀ plugin ∈ after, plugin.metadata.priority ≠ reloaded.metadata.priority) :
    Unrivalled pre reloaded after := by
  intro own _ _ rival hri hpo hpr
  obtain ⟨_, hr, -⟩ := mem_candidates.1 (mem_candidates_of_accepted hri)
  rw [getElem?_map] at hr
  obtain ⟨plugin, hp, -⟩ := Option.map_eq_some_iff.1 hr
  have hl : plugin ∈ after := by
    rw [getElem?_append_right hpo] at hp
    exact mem_of_getElem? hp
  rw [priorityOf, getElem?_map, hp] at hpr
  exact absurd hpr (h plugin hl)

end

/-- A reload with unchanged descriptors keeps all owners exactly where no later plugin
of the same priority is waiting for a device of the reloaded one. -/
theorem reload_keeps_owners_iff (manager next : Manager) (name : String)
    (descriptors : List DeviceDescriptor) (result : TopologyReconcile) (h : manager.Settled)
    (hreload : reloadPlugin name (.ok descriptors) manager = (.ok result, next))
    (hsame : ∃ plugin ∈ manager.contenders,
      plugin.metadata.name = name ∧ plugin.descriptors = descriptors) :
    ((∀ device, next.ownerName device = manager.ownerName device) ∧ result.changedDevices = []) ↔
      manager.KeepsPlace name := by
  obtain ⟨plugin, hp, rfl, rfl⟩ := hsame
  constructor
  · rintro ⟨hn, -⟩ before reloaded after hs hna
    have hm : reloaded ∈ manager.contenders := hs ▸ mem_append_right _ mem_cons_self
    obtain rfl := same_contender h hm hp hna
    have hr := reloaded_of_ok h hs rfl hreload
    refine unrivalled_of_owners { reloaded with id := manager.nextId } (hr.ids h) rfl rfl
      (hs ▸ fresh_id h) hr.reported fun device how => ?_
    rw [← hr.owners]
    refine hr.owner_of_name h ((hn device).trans ?_)
    rw [← hr.owners_before h] at how
    rw [Manager.ownerName, how, Option.bind_some, find_of_mem h.ids hr.loaded_old]
    rfl
  · intro hk
    obtain ⟨before, after, hs⟩ := append_of_mem hp
    have hr := reloaded_of_ok h hs rfl hreload
    have ho : ∀ device : String, next.topology.ownerByDevice[device]? =
        manager.topology.ownerByDevice[device]?.map (renamed plugin.id manager.nextId) := by
      intro device
      rw [hr.owners, hr.owners_before h]
      exact owners_kept { plugin with id := manager.nextId } (hr.ids h) rfl rfl
        (hk before plugin after hs rfl) device
    exact ⟨fun device => hr.ownerName_kept h (ho device), hr.unchanged h ho⟩

namespace Sample

def lamp : DeviceDescriptor := { id := "lamp", name := "Desk lamp" }

def started (priority : ℤ) : Manager :=
  let loaded : List LoadedPlugin := [⟨0, "first", priority⟩, ⟨1, "second", 0⟩]
  let descriptorsByPlugin := [(0, [lamp]), (1, [lamp])]
  { loaded
    topology := { descriptorsByPlugin, ownerByDevice := ownersOf descriptorsByPlugin loaded }
    nextId := 2 }

theorem started_settled : (started priority).Settled where
  consistent := consistent_of_mem_iff (by simp [started]) (by simp [started]) (fun _ => by
    simp [started]) rfl
  ids := by simp [started]
  names := by simp [started]
  fresh := by simp [started]

end Sample

open Sample in
/-- The first plugin has the higher priority and keeps the lamp. -/
theorem preferred_plugin_keeps_lamp :
    (∀ device, (reloadPlugin "first" (.ok [lamp]) (started 1)).2.ownerName device =
      (started 1).ownerName device) ∧ (started 1).ownerName "lamp" = some "first" := by
  refine ⟨((reload_keeps_owners_iff (started 1) _ "first" [lamp] ⟨[⟨"lamp", [], [], {}⟩], []⟩
    started_settled (Prod.ext ?_ rfl) ?_).2 ?_).1, ?_⟩
  · decide +kernel
  · exact ⟨_, mem_cons_self, rfl, rfl⟩
  · intro before reloaded after hs hn
    have hc : (started 1).contenders =
        [⟨0, ⟨"first", 1⟩, [lamp]⟩, ⟨1, ⟨"second", 0⟩, [lamp]⟩] := rfl
    rw [hc] at hs
    cases before with
    | nil =>
      obtain ⟨rfl, rfl⟩ := cons.inj hs
      exact unrivalled_of_priority (by decide)
    | cons contender rest =>
      have hm : reloaded ∈ [(⟨1, ⟨"second", 0⟩, [lamp]⟩ : Contender)] :=
        (cons.inj hs).2 ▸ mem_append_right _ mem_cons_self
      rw [mem_singleton.1 hm] at hn
      exact absurd hn (by decide)
  · decide +kernel

open Sample in
/-- The plugins have the same priority, so the second takes over the lamp. -/
theorem Counterexample.reload_hands_over_lamp :
    (started 0).Settled ∧ (reloadPlugin "first" (.ok [lamp]) (started 0)).1.isOk = true ∧
      (started 0).ownerName "lamp" = some "first" ∧
      (reloadPlugin "first" (.ok [lamp]) (started 0)).2.ownerName "lamp" = some "second" :=
  ⟨started_settled, by decide +kernel, by decide +kernel, by decide +kernel⟩

end PluginReload
