import Luminate.RegistryIntegrity

/-! # Scene revisions

Optimistic concurrency on the scenes of `state/scene.rs`: a replacement or deletion
names the revision it was prepared for. Runs start from any persisted scenes. -/
namespace SceneRevisions

open DeviceModel DaemonModel RegistryIntegrity Std.ExtTreeMap

/-- `issued` and `replaced` record the past: the identifiers scenes have had, and the
revisions that were replaced. -/
structure State where
  daemon : DaemonState
  issued : List SceneId
  replaced : List (SceneId × ℕ) := []

inductive Action where
  | create (id : SceneId) (name : String) (description : Option String) (owner : OwnerIdentity)
      (bindings : List SceneBinding)
  | replace (id : SceneId) (expectedRevision : ℕ) (name : String) (description : Option String)
      (bindings : List SceneBinding)
  | delete (id : SceneId) (expectedRevision : ℕ)
  | elsewhere (daemon : DaemonState)

section

variable (platform : Platform)

def call (daemon : DaemonState) : Action → Outcome Unit
  | .create id name description owner bindings =>
    Outcome.void (createScene platform id name description owner bindings daemon)
  | .replace id expectedRevision name description bindings =>
    Outcome.void (replaceScene platform id expectedRevision name description bindings daemon)
  | .delete id expectedRevision => Outcome.void (deleteScene id expectedRevision daemon)
  | .elsewhere next => (.ok (), next)

/-- A generated identifier has not been used before; what else the daemon does leaves
the scenes alone. -/
def Enabled (s : State) : Action → Prop
  | .create id .. => id ∉ s.issued
  | .elsewhere next => next.scenes = s.daemon.scenes
  | _ => True

def next (s : State) (action : Action) : State where
  daemon := (call platform s.daemon action).2
  issued :=
    match action with
    | .create id .. => id :: s.issued
    | _ => s.issued
  replaced :=
    match action with
    | .replace id expectedRevision .. =>
      if (call platform s.daemon action).1.isOk then (id, expectedRevision) :: s.replaced
      else s.replaced
    | _ => s.replaced

def Step (s : State) (action : Action) (t : State) : Prop :=
  Enabled s action ∧ t = next platform s action

structure Initial (s : State) : Prop where
  issued : ∀ (id : SceneId) (scene : Scene), s.daemon.scenes[id]? = some scene → id ∈ s.issued
  bounded : ∀ (id : SceneId) (scene : Scene), s.daemon.scenes[id]? = some scene →
    scene.revision ≤ maxRevision
  replaced : s.replaced = []

/-- No replacement names the largest revision. -/
def Guard (_ : State) : Action → Prop
  | .replace _ expectedRevision .. => expectedRevision ≠ maxRevision
  | _ => True

/-- The scene and the revision an action insists on. -/
def Action.expects : Action → Option (SceneId × ℕ)
  | .replace id expectedRevision .. | .delete id expectedRevision => some (id, expectedRevision)
  | _ => none

structure OneUse (s : State) : Prop where
  once : s.replaced.Nodup
  current : ∀ action id revision, action.expects = some (id, revision) →
    (call platform s.daemon action).1.isOk = true →
    ∃ scene, s.daemon.scenes[id]? = some scene ∧ scene.revision = revision
  atomic : ∀ action, Enabled s action → (call platform s.daemon action).1.isOk = false →
    (call platform s.daemon action).2.scenes = s.daemon.scenes

variable {platform} {dm : DaemonState} {id : SceneId} {rev : ℕ} {name : String}
  {description : Option String} {owner : OwnerIdentity} {bs : List SceneBinding}

variable {scene : Scene}

theorem currentScene_ok (h : currentScene dm id rev = .ok scene) :
    dm.scenes[id]? = some scene ∧ scene.revision = rev := by
  rw [currentScene] at h
  split at h
  · cases h
  · split at h
    · cases h
    · rename_i hf hr
      cases h
      exact ⟨hf, not_not.1 hr⟩

variable (platform dm id rev name description bs) in
theorem call_replace_cases :
    let outcome := call platform dm (.replace id rev name description bs)
    (outcome.1.isOk = false ∧ outcome.2.scenes = dm.scenes) ∨
      (outcome.1.isOk = true ∧ ∃ current repl, dm.scenes[id]? = some current ∧
        current.revision = rev ∧ repl.revision = min (rev + 1) maxRevision ∧
        outcome.2.scenes = dm.scenes.insert id repl) := by
  dsimp only [call, Outcome.void, replaceScene]
  cases hc : currentScene dm id rev with
  | error e => exact .inl ⟨rfl, rfl⟩
  | ok current =>
    obtain ⟨hf, hr⟩ := currentScene_ok hc
    dsimp only [attempt]
    split
    · dsimp only [keepIfPersistable]
      split
      · exact .inr ⟨rfl, current, _, hf, hr, by rw [hr], rfl⟩
      · exact .inl ⟨rfl, insert_insert _ _ _ hf⟩
    · exact .inl ⟨rfl, rfl⟩

variable (platform dm id rev) in
theorem call_delete_cases :
    let outcome := call platform dm (.delete id rev)
    (outcome.1.isOk = false ∧ outcome.2.scenes = dm.scenes) ∨
      (outcome.1.isOk = true ∧ (∃ current, dm.scenes[id]? = some current ∧
        current.revision = rev) ∧ outcome.2.scenes = dm.scenes.erase id) := by
  dsimp only [call, Outcome.void, deleteScene]
  cases hc : currentScene dm id rev with
  | error e => exact .inl ⟨rfl, rfl⟩
  | ok current => exact .inr ⟨rfl, ⟨current, currentScene_ok hc⟩, rfl⟩

variable (platform name description owner bs) in
theorem call_create_cases (hf : dm.scenes[id]? = none) :
    let outcome := call platform dm (.create id name description owner bs)
    (outcome.1.isOk = false ∧ outcome.2.scenes = dm.scenes) ∨
      (outcome.1.isOk = true ∧ ∃ scene, scene.revision = 1 ∧
        outcome.2.scenes = dm.scenes.insert id scene) := by
  dsimp only [call, Outcome.void, createScene, attempt]
  split
  · dsimp only [keepIfPersistable]
    split
    · refine .inr ⟨rfl, _, ?_, rfl⟩
      rfl
    · exact .inl ⟨rfl, erase_insert _ _ hf⟩
  · exact .inl ⟨rfl, rfl⟩

/-- A scene is past every revision of it that was replaced. -/
structure Invariant (s : State) : Prop where
  issued : ∀ (id : SceneId) (scene : Scene), s.daemon.scenes[id]? = some scene → id ∈ s.issued
  bounded : ∀ (id : SceneId) (scene : Scene), s.daemon.scenes[id]? = some scene →
    scene.revision ≤ maxRevision
  past : ∀ (id : SceneId) (revision : ℕ), (id, revision) ∈ s.replaced → id ∈ s.issued ∧
    ∀ scene : Scene, s.daemon.scenes[id]? = some scene → revision < scene.revision
  once : s.replaced.Nodup

theorem initial_invariant (h : Initial s) : Invariant s where
  issued := h.issued
  bounded := h.bounded
  past := by
    intro id revision hm
    rw [h.replaced] at hm
    cases hm
  once := by
    rw [h.replaced]
    exact List.nodup_nil

variable {s t : State}

theorem Invariant.shrink (h : Invariant s) (hi : s.issued ⊆ t.issued) (hr : t.replaced = s.replaced)
    (hsc : ∀ (id : SceneId) (scene : Scene), t.daemon.scenes[id]? = some scene →
      s.daemon.scenes[id]? = some scene) : Invariant t where
  issued id scene hs := hi (h.issued id scene (hsc id scene hs))
  bounded id scene hs := h.bounded id scene (hsc id scene hs)
  past id revision hm := by
    rw [hr] at hm
    obtain ⟨hid, hp⟩ := h.past id revision hm
    exact ⟨hi hid, fun scene hs => hp scene (hsc id scene hs)⟩
  once := hr ▸ h.once

theorem Invariant.same (h : Invariant s) (hi : s.issued ⊆ t.issued)
    (hr : t.replaced = s.replaced) (hs : t.daemon.scenes = s.daemon.scenes) : Invariant t :=
  h.shrink hi hr fun id scene hsc => by rwa [hs] at hsc

variable {id : SceneId} {bs : List SceneBinding} {description : Option String}

section

variable (h : Invariant s)

include h

theorem Invariant.store (hi : s.issued ⊆ t.issued)
    (hid : id ∈ t.issued) (hb : scene.revision ≤ maxRevision)
    (hs : t.daemon.scenes = s.daemon.scenes.insert id scene)
    (hr : ∀ key revision, (key, revision) ∈ t.replaced → (key, revision) ∈ s.replaced ∨ key = id)
    (hp : ∀ revision, (id, revision) ∈ t.replaced → revision < scene.revision)
    (ho : t.replaced.Nodup) : Invariant t := by
  have hl : ∀ (key : SceneId) (fd : Scene), t.daemon.scenes[key]? = some fd →
      (key = id ∧ fd = scene) ∨ (key ≠ id ∧ s.daemon.scenes[key]? = some fd) := by
    intro key fd hf
    rw [hs, getElem?_insert] at hf
    split at hf
    · next heq => exact .inl ⟨(Std.LawfulEqCmp.eq_of_compare heq).symm, (Option.some.inj hf).symm⟩
    · next hne =>
      refine .inr ⟨?_, hf⟩
      rintro rfl
      exact hne Std.ReflCmp.compare_self
  constructor
  · intro key fd hf
    obtain ⟨rfl, -⟩ | ⟨-, hol⟩ := hl key fd hf
    · exact hid
    · exact hi (h.issued key fd hol)
  · intro key fd hf
    obtain ⟨-, rfl⟩ | ⟨-, hol⟩ := hl key fd hf
    · exact hb
    · exact h.bounded key fd hol
  · intro key revision hm
    rcases hr key revision hm with hol | rfl
    · refine ⟨hi (h.past key revision hol).1, fun fd hf => ?_⟩
      obtain ⟨rfl, rfl⟩ | ⟨-, hst⟩ := hl key fd hf
      · exact hp revision hm
      · exact (h.past key revision hol).2 fd hst
    · refine ⟨hid, fun fd hf => ?_⟩
      obtain ⟨-, rfl⟩ | ⟨hne, -⟩ := hl key fd hf
      · exact hp revision hm
      · exact absurd rfl hne
  · exact ho

theorem Invariant.unstored (hfr : id ∉ s.issued) : s.daemon.scenes[id]? = none := by
  cases hf : s.daemon.scenes[id]? with
  | none => rfl
  | some scene => exact absurd (h.issued id scene hf) hfr

theorem Invariant.create (hf : id ∉ s.issued) :
    Invariant (next platform s (.create id name description owner bs)) := by
  obtain ⟨-, hsa⟩ | ⟨-, scene, hr, hs⟩ := call_create_cases platform name
    description owner bs (h.unstored hf)
  · exact h.same (List.subset_cons_self _ _) rfl hsa
  · have hu : ∀ revision, (id, revision) ∉ s.replaced :=
      fun revision hm => hf (h.past id revision hm).1
    refine h.store (List.subset_cons_self _ _) List.mem_cons_self ?_ hs
      (fun key revision hm => .inl hm) (fun revision hm => absurd hm (hu revision))
      h.once
    rw [hr]
    decide

theorem Invariant.replace (hg : rev ≠ maxRevision) :
    Invariant (next platform s (.replace id rev name description bs)) := by
  obtain ⟨hfa, hsa⟩ | ⟨hok, current, repl, hf, hc, hre, hs⟩ :=
    call_replace_cases platform s.daemon id rev name description bs
  · exact h.same (List.Subset.refl _) (by simp [next, hfa]) hsa
  · have hr : (next platform s (.replace id rev name description
        bs)).replaced = (id, rev) :: s.replaced := by simp [next, hok]
    have hb : rev < maxRevision := Nat.lt_of_le_of_ne (hc ▸ h.bounded id current hf) hg
    have hp : ∀ revision, (id, revision) ∈ s.replaced → revision < rev :=
      fun revision hme => hc ▸ (h.past id revision hme).2 current hf
    refine h.store (List.Subset.refl _) (h.issued id current hf) (by omega) hs ?_ ?_ ?_
    · intro key revision hme
      rw [hr] at hme
      rcases List.mem_cons.1 hme with heq | ho
      · exact .inr (congrArg Prod.fst heq)
      · exact .inl ho
    · intro revision hme
      rw [hr] at hme
      rcases List.mem_cons.1 hme with heq | ho
      · obtain rfl := congrArg Prod.snd heq
        omega
      · have := hp revision ho
        omega
    · rw [hr]
      exact List.nodup_cons.2 ⟨fun hme => Nat.lt_irrefl _ (hp rev hme), h.once⟩

theorem Invariant.delete : Invariant (next platform s (.delete id rev)) := by
  obtain ⟨-, hsa⟩ | ⟨-, -, hsc⟩ := call_delete_cases platform s.daemon id rev
  · exact h.same (List.Subset.refl _) rfl hsa
  · refine h.shrink (List.Subset.refl _) rfl fun key scene hs => ?_
    change (call platform s.daemon (.delete id rev)).2.scenes[key]? = _ at hs
    rw [hsc, getElem?_erase] at hs
    split at hs
    · cases hs
    · exact hs

theorem step_invariant (hg : Guard s a) (hs : Step platform s a t) : Invariant t := by
  obtain ⟨he, rfl⟩ := hs
  cases a with
  | create => exact h.create he
  | replace => exact h.replace hg
  | delete => exact h.delete
  | elsewhere dm => exact h.same (List.Subset.refl _) rfl he

theorem Invariant.oneUse : OneUse platform s := by
  refine ⟨h.once, ?_, ?_⟩
  · intro a id revision he hok
    cases a with
    | replace key expected name description bs =>
      obtain ⟨rfl, rfl⟩ := Prod.mk.inj (Option.some.inj he)
      obtain ⟨hf, -⟩ | ⟨-, current, -, hfo, hc, -⟩ :=
        call_replace_cases platform s.daemon key expected name description bs
      · simp [hf] at hok
      · exact ⟨current, hfo, hc⟩
    | delete key expected =>
      obtain ⟨rfl, rfl⟩ := Prod.mk.inj (Option.some.inj he)
      obtain ⟨hf, -⟩ | ⟨-, hc, -⟩ := call_delete_cases platform s.daemon key expected
      · simp [hf] at hok
      · exact hc
    | create | elsewhere => cases he
  · intro a hen hf
    cases a with
    | create id name description owner bs =>
      obtain ⟨-, hs⟩ | ⟨hok, -⟩ := call_create_cases platform name description owner bs
        (h.unstored hen)
      · exact hs
      · simp [hok] at hf
    | replace id expected name description bs =>
      obtain ⟨-, hs⟩ | ⟨hok, -⟩ :=
        call_replace_cases platform s.daemon id expected name description bs
      · exact hs
      · simp [hok] at hf
    | delete id expected =>
      obtain ⟨-, hs⟩ | ⟨hok, -⟩ := call_delete_cases platform s.daemon id expected
      · exact hs
      · simp [hok] at hf
    | elsewhere dm => exact hen

end

theorem replaced_advances
    (hok : (replaceScene platform id rev name description bs s.daemon).1 = .ok scene) :
    ∃ repl, (replaceScene platform id rev name description bs s.daemon).2.scenes[id]? = some repl ∧
      (repl.revision ≠ rev ↔ rev ≠ maxRevision) := by
  obtain ⟨hf, -⟩ | ⟨-, current, repl, hfo, hc, hr, hs⟩ :=
    call_replace_cases platform s.daemon id rev name description bs
  · simp [call, Outcome.void, hok, Except.map, Except.isOk, Except.toBool] at hf
  · refine ⟨repl, ?_, ?_⟩
    · change (call platform s.daemon (.replace id rev name description bs)).2.scenes[id]? = _
      rw [hs, getElem?_insert_self]
    · omega

/-- In every run whose replacements stay below the largest revision, no revision of a
scene is replaced twice, only the current revision can be replaced or deleted and a
call that fails changes no scene; and a replacement moves the revision on exactly
where it stays below the largest. -/
theorem revisions_are_one_use (platform : Platform) (s : State)
    (hreach : Transition.Reachable Initial (Step platform) Guard s) : OneUse platform s ∧
      ∀ (id : SceneId) (expectedRevision : ℕ) (name : String) (description : Option String)
        (bindings : List SceneBinding) (scene : Scene),
        (replaceScene platform id expectedRevision name description bindings s.daemon).1 =
          .ok scene →
        ∃ replacement, (replaceScene platform id expectedRevision name description bindings
            s.daemon).2.scenes[id]? = some replacement ∧
          (replacement.revision ≠ expectedRevision ↔ expectedRevision ≠ maxRevision) := by
  have hi : Invariant s := hreach.holds Invariant (fun _ h => initial_invariant h)
    fun _ _ _ h hg hs => step_invariant h hg hs
  exact ⟨hi.oneUse, fun id expectedRevision name description bindings scene hok =>
    replaced_advances hok⟩

end

namespace Sample

open DesiredState.Sample (platform topology surface red blue)

def redKeys : List SceneBinding := [.frozen surface { appearance := some red }]

def blueKeys : List SceneBinding := [.frozen surface { appearance := some blue }]

def evening (revision : ℕ) : Scene := ⟨"evening", revision, "Evening", none, .uid 1000, redKeys⟩

def loaded (revision : ℕ) : State where
  daemon := { topology := topology, scenes := (∅ : Scenes).insert "evening" (evening revision) }
  issued := ["evening"]

def repaint (revision : ℕ) : Action := .replace "evening" revision "Evening" none blueKeys

abbrev after (s : State) (revision : ℕ) : State := next platform s (repaint revision)

theorem loaded_initial (h : revision ≤ maxRevision) : Initial (loaded revision) := by
  have hs : ∀ (id : SceneId) (scene : Scene), (loaded revision).daemon.scenes[id]? = some scene →
        id = "evening" ∧ scene = evening revision := by
    intro id scene hf
    change ((∅ : Scenes).insert "evening" (evening revision))[id]? = some scene at hf
    rw [getElem?_insert] at hf
    split at hf
    · next heq => exact ⟨(Std.LawfulEqCmp.eq_of_compare heq).symm, (Option.some.inj hf).symm⟩
    · simp at hf
  constructor
  · intro id scene hf
    obtain ⟨rfl, -⟩ := hs id scene hf
    exact List.mem_cons_self
  · intro id scene hf
    obtain ⟨-, rfl⟩ := hs id scene hf
    exact h
  · rfl

end Sample

open Sample in
open DesiredState.Sample (platform) in
/-- Revision 3 is replaced once; a second client that prepared for it is refused. -/
theorem second_replacement_refused : (after (after (loaded 3) 3) 3).replaced = [("evening", 3)] ∧
      OneUse platform (after (after (loaded 3) 3) 3) := by
  refine ⟨by decide +kernel, ?_⟩
  have hl : Transition.Reachable Initial (Step platform) Guard (loaded 3) :=
    .initial (loaded_initial (by decide))
  have hf := hl.step (l := repaint 3) (show 3 ≠ maxRevision by decide) ⟨trivial, rfl⟩
  have hs := hf.step (l := repaint 3) (show 3 ≠ maxRevision by decide) ⟨trivial, rfl⟩
  exact (revisions_are_one_use platform _ hs).1

open Sample in
open DesiredState.Sample (platform) in
/-- A scene at the largest revision stays there, so two clients that prepared for it
both succeed. -/
theorem Counterexample.largest_revision_replaced_twice :
    Transition.Reachable Initial (Step platform) (fun _ _ => True)
        (after (after (loaded maxRevision) maxRevision) maxRevision) ∧
      (after (after (loaded maxRevision) maxRevision) maxRevision).replaced =
        [("evening", maxRevision), ("evening", maxRevision)] ∧
      ¬ OneUse platform (after (after (loaded maxRevision) maxRevision) maxRevision) := by
  have hr : (after (after (loaded maxRevision) maxRevision) maxRevision).replaced =
      [("evening", maxRevision), ("evening", maxRevision)] := by decide +kernel
  refine ⟨?_, hr, fun h => ?_⟩
  · exact .step (l := repaint maxRevision) (.step (l := repaint maxRevision)
      (.initial (loaded_initial (Nat.le_refl _))) trivial ⟨trivial, rfl⟩) trivial ⟨trivial, rfl⟩
  · have ho := h.once
    rw [hr] at ho
    simp at ho

end SceneRevisions
