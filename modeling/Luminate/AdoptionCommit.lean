import Luminate.Reconciliation

/-! # Committing staged adoptions

`run_mutation_job`: the jobs stage their facets in one list, and a job that is done saves
the whole state. A save that succeeds takes the list into the baseline; one that fails
throws the list away. -/
namespace AdoptionCommit

open DeviceModel DaemonModel Adoption List Function

abbrev JobId := ℕ

inductive Phase where
  | unstarted
  | running
  /-- The save has failed; the job holds the commit lock and waits for the state. -/
  | discarding
  | failed
  | saved
  deriving DecidableEq

structure State where
  daemon : DaemonState
  phases : JobId → Phase := fun _ => .unstarted
  /-- What was staged before the pending list was last taken, oldest first. -/
  taken : List (JobId × AdoptedFacet) := []
  /-- What was staged since. -/
  staged : List (JobId × AdoptedFacet) := []

def State.log (s : State) : List (JobId × AdoptedFacet) := s.taken ++ s.staged

def State.move (s : State) (job : JobId) (phase : Phase) : State :=
  { s with phases := update s.phases job phase }

def State.finish (s : State) (persisted : Bool) : State :=
  { s with
    daemon := finishPendingAdoption s.daemon persisted
    taken := s.taken ++ s.staged
    staged := [] }

inductive Action where
  | begin (job : JobId)
  | mutate (job : JobId)
  | stage (job : JobId) (delta : List AdoptedFacet)
  | fail (job : JobId)
  | save (job : JobId) (persisted : Bool)
  | discard (job : JobId)

inductive Step (platform : Platform) : State → Action → State → Prop where
  | begin {s job} (unstarted : s.phases job = .unstarted) :
      Step platform s (.begin job) (s.move job .running)
  /-- Whatever else a job does leaves both lists alone. -/
  | mutate {s job daemon} (running : s.phases job = .running)
      (baseline : daemon.adoptedBaseline = s.daemon.adoptedBaseline)
      (pending : daemon.pendingAdoption = s.daemon.pendingAdoption) :
      Step platform s (.mutate job) { s with daemon }
  | stage {s job delta daemon} (running : s.phases job = .running)
      (ok : stageAdoption platform s.daemon delta = .ok daemon) :
      Step platform s (.stage job delta)
        { s with daemon, staged := s.staged ++ delta.map (job, ·) }
  | stageFails {s job delta error} (running : s.phases job = .running)
      (refused : stageAdoption platform s.daemon delta = .error error) :
      Step platform s (.stage job delta) (s.move job .failed)
  | fail {s job} (running : s.phases job = .running) :
      Step platform s (.fail job) (s.move job .failed)
  | save {s job} (running : s.phases job = .running)
      (free : ∀ other, s.phases other ≠ .discarding) :
      Step platform s (.save job true) ((s.finish true).move job .saved)
  | saveFails {s job} (running : s.phases job = .running)
      (free : ∀ other, s.phases other ≠ .discarding) :
      Step platform s (.save job false) (s.move job .discarding)
  | discard {s job} (discarding : s.phases job = .discarding) :
      Step platform s (.discard job) ((s.finish false).move job .failed)

/-- `kept` is the facet, possibly with values for slots that it leaves out. -/
structure Covers (kept facet : AdoptedFacet) : Prop where
  same : SameFacet kept facet
  confirmed : kept.confirmedAtMs = facet.confirmedAtMs
  value : kept.value = facet.value ∨ ∃ slots more complete,
    facet.value = .appearanceSlots slots ∧
      kept.value = .appearanceSlots ⟨slots.values ++ more, slots.complete || complete⟩

def Kept (facets : List AdoptedFacet) (facet : AdoptedFacet) (later : List AdoptedFacet) : Prop :=
  ∃ latest ∈ facet :: later, SameFacet latest facet ∧ ∃ kept ∈ facets, Covers kept latest

/-- A failed save throws away no facet of another job that may still save. -/
def Guard (s : State) : Action → Prop
  | .discard job => ∀ entry ∈ s.staged, entry.1 ≠ job → s.phases entry.1 ≠ .running
  | _ => True

structure Initial (s : State) : Prop where
  unstarted : ∀ job, s.phases job = .unstarted
  nothing : s.log = []
  pending : s.daemon.pendingAdoption = []

theorem mergeSlotValues_extends : ∃ more, mergeSlotValues vs current = vs ++ more := by
  unfold mergeSlotValues
  induction current using reverseRecOn with
  | nil => exact ⟨[], by simp⟩
  | append_singleton current v ih =>
    obtain ⟨more, hm⟩ := ih
    rw [foldl_append, hm, foldl_cons]
    split
    · exact ⟨more, rfl⟩
    · exact ⟨more ++ [v], by simp⟩

theorem inheritSlots_covers (facets : List AdoptedFacet) (f : AdoptedFacet) :
    Covers (inheritSlots facets f) f := by
  unfold inheritSlots
  split
  next slots _ current _ hv _ =>
    obtain ⟨more, hm⟩ := mergeSlotValues_extends
    refine ⟨⟨rfl, by rw [hv]; rfl⟩, rfl, .inr ⟨slots, more, current.complete, hv, ?_⟩⟩
    rw [hm]
  next => exact ⟨⟨rfl, rfl⟩, rfl, .inl rfl⟩

theorem Covers.trans {f g k : AdoptedFacet} (h : Covers f g) (h' : Covers g k) : Covers f k := by
  refine ⟨h.same.trans h'.same, h.confirmed.trans h'.confirmed, ?_⟩
  rcases h.value with hfg | ⟨slots, more, complete, hg, hf⟩
  · rcases h'.value with hgk | ⟨slots, more, complete, hk, hg⟩
    · exact .inl (hfg.trans hgk)
    · exact .inr ⟨slots, more, complete, hk, hfg.trans hg⟩
  · rcases h'.value with hgk | ⟨slots', more', complete', hk, hg'⟩
    · exact .inr ⟨slots, more, complete, hgk ▸ hg, hf⟩
    · obtain rfl := FacetValue.appearanceSlots.inj (hg.symm.trans hg')
      refine .inr ⟨slots', more' ++ more, complete' || complete, hk, ?_⟩
      rw [hf, append_assoc, Bool.or_assoc]

theorem mem_replaceAdoptedFacet : kept ∈ replaceAdoptedFacet facets new ↔
      kept ∈ facets ∧ ¬ SameFacet kept new ∨ kept = inheritSlots facets new := by
  simp [replaceAdoptedFacet]

theorem inheritSlots_mem :
    inheritSlots facets new ∈ replaceAdoptedFacet facets new := mem_replaceAdoptedFacet.2 (.inr rfl)

section

variable {pending staged later : List AdoptedFacet}

theorem Kept.mono (h : Kept baseline fc later) (hs : later ⊆ more) : Kept baseline fc more := by
  obtain ⟨latest, hl, hsa, hk⟩ := h
  exact ⟨latest, cons_subset_cons _ hs hl, hsa, hk⟩

structure Represents (pending staged : List AdoptedFacet) : Prop where
  distinct : pending.Pairwise fun f g => ¬ SameFacet f g
  origin : ∀ f ∈ pending, ∃ source ∈ staged, Covers f source
  kept : ∀ older f later, staged = older ++ f :: later → Kept pending f later

theorem represents_nil : Represents [] [] where
  distinct := Pairwise.nil
  origin f hf := absurd hf not_mem_nil
  kept older f later h := by simp at h

theorem append_eq_append_cons {α : Type*} {front back older later : List α} {x : α}
    (h : front ++ back = older ++ x :: later) :
    (∃ between, front = older ++ x :: between ∧ later = between ++ back) ∨
      ∃ pre, back = pre ++ x :: later := by
  rcases append_eq_append_iff.1 h with ⟨pre, -, hb⟩ | ⟨rest, hf, hl⟩
  · exact .inr ⟨pre, hb⟩
  · rcases cons_eq_append_iff.1 hl with ⟨rfl, hb⟩ | ⟨between, rfl, hl⟩
    · exact .inr ⟨[], hb⟩
    · exact .inl ⟨between, hf, (cons.inj hl).2⟩

theorem Represents.stage (h : Represents pending staged) (new : AdoptedFacet) :
    Represents (replaceAdoptedFacet pending new) (staged ++ [new]) := by
  have hn := inheritSlots_covers pending new
  refine ⟨?_, ?_, ?_⟩
  · refine pairwise_append.2 ⟨h.distinct.filter _, pairwise_singleton _ _, ?_⟩
    intro f hf g hg hsa
    obtain rfl := mem_singleton.1 hg
    exact (of_decide_eq_true (mem_filter.1 hf).2) (hsa.trans hn.same)
  · intro f hf
    rcases mem_replaceAdoptedFacet.1 hf with ⟨hol, -⟩ | rfl
    · obtain ⟨src, hs, hc⟩ := h.origin f hol
      exact ⟨src, mem_append_left _ hs, hc⟩
    · exact ⟨new, mem_append_right _ (mem_singleton_self _), hn⟩
  · intro older f later hsp
    rcases append_eq_append_cons hsp with ⟨between, hst, rfl⟩ | ⟨pre, hla⟩
    · by_cases hsa : SameFacet new f
      · exact ⟨new, by simp, hsa, _, inheritSlots_mem, hn⟩
      · obtain ⟨latest, hl, hlf, kept, hk, hc⟩ := h.kept older f between hst
        have ho : ¬ SameFacet kept new := fun hkn =>
          hsa (hkn.symm.trans (hc.same.trans hlf))
        refine ⟨latest, cons_subset_cons _ (subset_append_left _ _) hl, hlf, kept,
          mem_replaceAdoptedFacet.2 (.inl ⟨hk, ho⟩), hc⟩
    · obtain ⟨rfl, rfl⟩ : f = new ∧ later = [] := by
        cases pre with
        | nil => simpa [eq_comm] using hla
        | cons x pre => simp at hla
      exact ⟨f, mem_cons_self, ⟨rfl, rfl⟩, _, inheritSlots_mem, hn⟩

theorem Represents.stageAll (h : Represents pending staged) :
    Represents (delta.foldl replaceAdoptedFacet pending) (staged ++ delta) := by
  induction delta generalizing pending staged with
  | nil => simpa using h
  | cons new delta ih => simpa using ih (h.stage new)

theorem mem_merged_of_untouched (hk : kept ∈ baseline) (hu : ∀ f ∈ pending, ¬ SameFacet kept f) :
    kept ∈ pending.foldl replaceAdoptedFacet baseline := by
  induction pending generalizing baseline with
  | nil => exact hk
  | cons f pending ih =>
    refine ih (mem_replaceAdoptedFacet.2 (.inl ⟨hk, ?_⟩)) fun g hg => ?_
    · exact hu f mem_cons_self
    · exact hu g (mem_cons_of_mem _ hg)

theorem merged_covers (baseline : List AdoptedFacet)
    (hd : pending.Pairwise fun f g => ¬ SameFacet f g) (hp : fc ∈ pending) :
    ∃ kept ∈ pending.foldl replaceAdoptedFacet baseline, Covers kept fc := by
  induction pending generalizing baseline with
  | nil => cases hp
  | cons f pending ih =>
    obtain ⟨hf, hr⟩ := pairwise_cons.1 hd
    rcases mem_cons.1 hp with rfl | hp
    · have hc := inheritSlots_covers baseline fc
      rw [foldl_cons]
      refine ⟨_, mem_merged_of_untouched inheritSlots_mem fun g hg hs => ?_, hc⟩
      exact hf g hg (hc.same.symm.trans hs)
    · exact ih _ hr hp

theorem Kept.commit (hd : pending.Pairwise fun f g => ¬ SameFacet f g) (h : Kept pending fc later) :
    Kept (pending.foldl replaceAdoptedFacet baseline) fc later := by
  obtain ⟨latest, hl, hs, kept, hk, hc⟩ := h
  obtain ⟨merged, hm, hmc⟩ := merged_covers baseline hd hk
  exact ⟨latest, hl, hs, merged, hm, hmc.trans hc⟩

theorem Kept.merge (hp : Represents pending staged) (h : Kept baseline fc later) :
    Kept (pending.foldl replaceAdoptedFacet baseline) fc (later ++ staged) := by
  obtain ⟨latest, hl, hsa, kept, hk, hc⟩ := h
  by_cases ht : ∃ f ∈ pending, SameFacet kept f
  · obtain ⟨f, hf, hkf⟩ := ht
    obtain ⟨src, hs, hfs⟩ := hp.origin f hf
    obtain ⟨merged, hm, hmf⟩ := merged_covers baseline hp.distinct hf
    refine ⟨src, mem_cons_of_mem _ (mem_append_right _ hs), ?_, merged, hm, hmf.trans hfs⟩
    exact hfs.same.symm.trans (hkf.symm.trans (hc.same.trans hsa))
  · refine ⟨latest, cons_subset_cons _ (subset_append_left _ _) hl, hsa, kept,
      mem_merged_of_untouched hk fun f hf hkf => ht ⟨f, hf, hkf⟩, hc⟩

end

structure Invariant (s : State) : Prop where
  represents : Represents s.daemon.pendingAdoption (s.staged.map (·.2))
  started : ∀ entry ∈ s.log, s.phases entry.1 ≠ .unstarted
  unsaved : ∀ entry ∈ s.staged, s.phases entry.1 ≠ .saved
  kept : ∀ older job facet later, s.taken = older ++ (job, facet) :: later →
    s.phases job = .running ∨ s.phases job = .saved →
    Kept s.daemon.adoptedBaseline facet (later.map (·.2))

theorem State.move_self (s : State) (job : JobId) (phase : Phase) :
    (s.move job phase).phases job = phase := update_self ..

theorem State.move_of_ne (s : State) (phase : Phase) {job other : JobId} (h : other ≠ job) :
    (s.move job phase).phases other = s.phases other := update_of_ne h ..

section

variable (h : Invariant s)

include h

theorem Invariant.move (hst : phase ≠ .unstarted) (hs : phase ≠ .saved)
    (hr : phase = .running → s.phases job = .unstarted) : Invariant (s.move job phase) := by
  refine ⟨h.represents, fun entry he => ?_, fun entry he => ?_, ?_⟩
  · by_cases hj : entry.1 = job
    · rwa [hj, State.move_self]
    · rw [State.move_of_ne s phase hj]
      exact h.started entry he
  · by_cases hj : entry.1 = job
    · rwa [hj, State.move_self]
    · rw [State.move_of_ne s phase hj]
      exact h.unsaved entry he
  · intro older other f later ht hp
    apply h.kept older other f later ht
    by_cases hj : other = job
    · -- a job that begins has staged nothing
      subst hj
      rw [State.move_self] at hp
      have hu := hr (hp.resolve_right hs)
      have hm : (other, f) ∈ s.taken := by
        rw [show s.taken = _ from ht]
        exact mem_append_right _ mem_cons_self
      exact absurd hu (h.started _ (mem_append_left _ hm))
    · rwa [State.move_of_ne s phase hj] at hp

theorem Invariant.stage (hr : s.phases job = .running)
    (hok : stageAdoption platform s.daemon delta = .ok daemon) :
    Invariant { s with daemon, staged := s.staged ++ delta.map (job, ·) } := by
  have hn : ∀ entry ∈ delta.map (job, ·), s.phases entry.1 = .running := by
    intro entry he
    obtain ⟨facet, -, rfl⟩ := mem_map.1 he
    exact hr
  refine ⟨?_, fun entry he => ?_, fun entry he => ?_, ?_⟩
  · have hf : ((s.staged ++ delta.map (job, ·)).map (·.2)) = s.staged.map (·.2) ++ delta := by simp
    rw [hf, stageAdoption_pendingAdoption hok]
    exact h.represents.stageAll
  · rcases mem_append.1 he with ht | hs
    · exact h.started entry (mem_append_left _ ht)
    · rcases mem_append.1 hs with ho | ha
      · exact h.started entry (mem_append_right _ ho)
      · simp [hn entry ha]
  · rcases mem_append.1 he with ho | ha
    · exact h.unsaved entry ho
    · simp [hn entry ha]
  · simp only [stageAdoption_adoptedBaseline hok]
    exact h.kept

/-- Once the pending list is taken, everything staged so far has to be in the baseline
for the jobs that may still save or have done so. -/
theorem Invariant.finish (hst : phase ≠ .unstarted)
    (hk : ∀ older other f later, s.log = older ++ (other, f) :: later →
      (s.move job phase).phases other = .running ∨ (s.move job phase).phases other = .saved →
      Kept (finishPendingAdoption s.daemon persisted).adoptedBaseline f (later.map (·.2))) :
    Invariant ((s.finish persisted).move job phase) := by
  refine ⟨?_, fun entry he => ?_, fun entry he => absurd he not_mem_nil, hk⟩
  · show Represents (finishPendingAdoption s.daemon persisted).pendingAdoption []
    rw [finishPendingAdoption_pendingAdoption]
    exact represents_nil
  · have hl : entry ∈ s.log := by
      rcases mem_append.1 he with ht | hs
      · exact ht
      · cases hs
    by_cases hj : entry.1 = job
    · rwa [hj, State.move_self]
    · rw [State.move_of_ne _ phase hj]
      exact h.started entry hl

theorem Invariant.save (hr : s.phases job = .running) :
    Invariant ((s.finish true).move job .saved) := by
  refine h.finish (by decide) fun older other f later hl hp => ?_
  rw [finishPendingAdoption_adoptedBaseline]
  rcases append_eq_append_cons hl with ⟨between, ht, rfl⟩ | ⟨pre, hs⟩
  · have hb : s.phases other = .running ∨ s.phases other = .saved := by
      by_cases hj : other = job
      · rw [hj]
        exact .inl hr
      · rwa [State.move_of_ne s _ hj] at hp
    rw [map_append]
    exact (h.kept older other f between ht hb).merge h.represents
  · refine Kept.commit h.represents.distinct (h.represents.kept (pre.map (·.2)) f _ ?_)
    rw [hs, map_append, map_cons]

theorem Invariant.discard (hg : Guard s (.discard job)) :
    Invariant ((s.finish false).move job .failed) := by
  refine h.finish (by decide) fun older other f later hl hp => ?_
  rw [finishPendingAdoption_adoptedBaseline]
  have hj : other ≠ job := by
    rintro rfl
    rw [State.move_self] at hp
    rcases hp with hp | hp <;> cases hp
  rw [State.move_of_ne s _ hj] at hp
  rcases append_eq_append_cons hl with ⟨between, ht, rfl⟩ | ⟨pre, hs⟩
  · apply (h.kept older other f between ht hp).mono
    exact map_subset _ (subset_append_left _ _)
  · have hm : (other, f) ∈ s.staged := by
      rw [hs]
      exact mem_append_right _ mem_cons_self
    rcases hp with hp | hp
    · exact absurd hp (hg _ hm hj)
    · exact absurd hp (h.unsaved _ hm)

theorem step_invariant (platform : Platform) (hg : Guard s action) (hs : Step platform s action t) :
    Invariant t := by
  cases hs with
  | begin unstarted => exact h.move (by decide) (by decide) fun _ => unstarted
  | mutate _ baseline pending =>
    refine ⟨?_, h.started, h.unsaved, ?_⟩
    · rw [pending]
      exact h.represents
    · intro older other facet later ht hp
      rw [baseline]
      exact h.kept older other facet later ht hp
  | stage running ok => exact h.stage running ok
  | stageFails | fail | saveFails => exact h.move (by decide) (by decide) fun hr => by cases hr
  | save running => exact h.save running
  | discard => exact h.discard hg

end

theorem initial_invariant {s : State} (h : Initial s) : Invariant s := by
  obtain ⟨ht, hs⟩ := append_eq_nil_iff.1 h.nothing
  refine ⟨?_, fun entry he => ?_, fun entry he => ?_, fun older job f later heq => ?_⟩
  · rw [h.pending, hs]
    exact represents_nil
  · rw [h.nothing] at he
    cases he
  · rw [hs] at he
    cases he
  · rw [ht] at heq
    simp at heq

/-- Once a job has saved, each facet it staged is in the adopted baseline, or one that
was staged later in its place. -/
theorem saved_adoptions_are_kept (platform : Platform) (s : State)
    (h : Transition.Reachable Initial (Step platform) Guard s) (job : JobId)
    (hsaved : s.phases job = .saved) (older later : List (JobId × AdoptedFacet))
    (facet : AdoptedFacet) (hlog : s.log = older ++ (job, facet) :: later) :
    Kept s.daemon.adoptedBaseline facet (later.map (·.2)) := by
  have hi := h.holds Invariant (fun _ => initial_invariant)
    fun _ _ _ hs => step_invariant hs platform
  rcases append_eq_append_cons hlog with ⟨between, ht, rfl⟩ | ⟨before, hst⟩
  · apply (hi.kept older job facet between ht (.inr hsaved)).mono
    exact map_subset _ (subset_append_left _ _)
  · have hm : (job, facet) ∈ s.staged := by
      rw [hst]
      exact mem_append_right _ mem_cons_self
    exact absurd hsaved (hi.unsaved _ hm)

namespace Sample

open DesiredState.Sample (platform)
open Reconciliation (lampState lampRed)

abbrev Run (guard : State → Action → Prop) : State → Prop :=
  Transition.Reachable Initial (Step platform) guard

def started : State := { daemon := lampState }

def lampStaged : DaemonState := { lampState with pendingAdoption := [lampRed] }

def staged : State where
  daemon := lampStaged
  phases := (started.move 0 .running).move 1 .running |>.phases
  staged := [(0, lampRed)]

theorem staged_reachable {guard : State → Action → Prop} (hb : ∀ s job, guard s (.begin job))
    (hs : ∀ s job delta, guard s (.stage job delta)) : Run guard staged := by
  have hi : Run guard started := .initial ⟨fun _ => rfl, rfl, rfl⟩
  have hf : Run guard (started.move 0 .running) := hi.step (hb started 0) (.begin rfl)
  have hbo : Run guard ((started.move 0 .running).move 1 .running) := hf.step (hb _ 1) (.begin rfl)
  have hok : stageAdoption platform lampState [lampRed] = .ok lampStaged := rfl
  exact hbo.step (hs _ 0 [lampRed]) (.stage rfl hok)

end Sample

open Sample Reconciliation in
/-- The second job saves first and takes the facet of the first along. -/
theorem facet_kept_by_another_save :
    Kept ((((staged.finish true).move 1 .saved).finish true).move 0 .saved).daemon.adoptedBaseline
      lampRed [] := by
  have hst : Run Guard staged := staged_reachable (fun _ _ => trivial) fun _ _ _ => trivial
  have hs : Run Guard ((staged.finish true).move 1 .saved) :=
    hst.step (l := Action.save 1 true) trivial (.save rfl (by rintro (_ | _ | other) ⟨⟩))
  have hf : Run Guard ((((staged.finish true).move 1 .saved).finish true).move 0 .saved) :=
    hs.step (l := Action.save 0 true) trivial (.save rfl (by rintro (_ | _ | other) ⟨⟩))
  exact saved_adoptions_are_kept _ _ hf 0 rfl [] [] lampRed rfl

namespace Counterexample

open Sample Reconciliation

def discarded : State := ((staged.move 1 .discarding).finish false).move 1 .failed

/-- The second job's save fails and throws away the facet of the first, whose own save
then succeeds without it. -/
theorem facet_lost_by_another_save : Run (fun _ _ => True) ((discarded.finish true).move 0 .saved) ∧
      ((discarded.finish true).move 0 .saved).phases 0 = .saved ∧
      ((discarded.finish true).move 0 .saved).log = [(0, lampRed)] ∧
      ((discarded.finish true).move 0 .saved).daemon.adoptedBaseline = [] := by
  refine ⟨?_, rfl, rfl, rfl⟩
  have hs : Run (fun _ _ => True) staged :=
    staged_reachable (fun _ _ => trivial) fun _ _ _ => trivial
  have hf : Run (fun _ _ => True) (staged.move 1 .discarding) :=
    hs.step (l := Action.save 1 false) trivial (.saveFails rfl (by rintro (_ | _ | other) ⟨⟩))
  have hd : Run (fun _ _ => True) discarded :=
    hf.step (l := Action.discard 1) trivial (.discard rfl)
  exact hd.step (l := Action.save 0 true) trivial (.save rfl (by rintro (_ | _ | other) ⟨⟩))

end Counterexample

end AdoptionCommit
