import Luminate.AccessPolicy
import Luminate.Transition

/-! # Replacing the access policy

`RuntimeAccessPolicy::replace` over its two stores. A store compares the revision that
the administrator expects with the one it holds; the replacement brings its own. -/
namespace PolicyRevisions

open AccessPolicy Function List

inductive PolicyError where
  | revisionConflict (expected actual : ℕ)
  | unavailable (reason : String)
  deriving DecidableEq

inductive Store where
  | inMemory (document : PolicyDocument)
  /-- The contents of the policy file, and the document used while there is none. -/
  | file (contents fallback : Option PolicyDocument)

def Store.revision : Store → ℕ
  | .inMemory document => document.source.revision
  | .file (some document) _ => document.source.revision
  | .file none (some fallback) => fallback.source.revision
  | .file none none => 0

/-- How the file system answers. A write can fail after the new file is in place. -/
structure FileSystem where
  loadError : Option String := none
  writeError : Option (String × Bool) := none

def Store.put (replacement : PolicyDocument) : Store → Store
  | .inMemory _ => .inMemory replacement
  | .file _ fallback => .file (some replacement) fallback

/-- `PolicyStore::replace`, and what the store holds afterwards. -/
def Store.replace (files : FileSystem) (expected : ℕ) (replacement : PolicyDocument)
    (store : Store) : Except PolicyError PolicyDocument × Store :=
  let conflict := PolicyError.revisionConflict expected store.revision
  match store with
  | .inMemory _ =>
    if store.revision ≠ expected then (.error conflict, store)
    else (.ok replacement, store.put replacement)
  | .file .. =>
    match files.loadError with
    | some reason => (.error (.unavailable reason), store)
    | none =>
      if store.revision ≠ expected then (.error conflict, store)
      else
        match files.writeError with
        | some (reason, replaced) =>
          (.error (.unavailable reason), if replaced then store.put replacement else store)
        | none => (.ok replacement, store.put replacement)

abbrev RequestId := ℕ

inductive Request where
  | idle
  | replacing (expected : ℕ) (replacement : PolicyDocument)
  | stored (expected : ℕ) (replacement : PolicyDocument)

structure State where
  store : Store
  active : PolicyDocument
  replacing : Bool := false
  requests : RequestId → Request := fun _ => .idle
  /-- The expected revisions of the replacements that have succeeded. -/
  succeeded : List ℕ := []

def State.move (s : State) (c : RequestId) (request : Request) : State :=
  { s with requests := update s.requests c request }

inductive Action where
  | begin (c : RequestId) (expected : ℕ) (replacement : PolicyDocument)
  | store (c : RequestId) (files : FileSystem)
  | activate (c : RequestId)

inductive Step : State → Action → State → Prop where
  | begin {s c expected replacement} (idle : s.requests c = .idle) (free : s.replacing = false) :
      Step s (.begin c expected replacement)
        ({ s with replacing := true }.move c (.replacing expected replacement))
  /-- The request is answered with "policy replacement is already active". -/
  | busy {s c expected replacement} (idle : s.requests c = .idle) (busy : s.replacing = true) :
      Step s (.begin c expected replacement) s
  | store {s c expected replacement files document store}
      (request : s.requests c = .replacing expected replacement)
      (ok : s.store.replace files expected replacement = (.ok document, store)) :
      Step s (.store c files) ({ s with store }.move c (.stored expected document))
  | refused {s c expected replacement files error store}
      (request : s.requests c = .replacing expected replacement)
      (failed : s.store.replace files expected replacement = (.error error, store)) :
      Step s (.store c files) ({ s with store, replacing := false }.move c .idle)
  | activate {s c expected document} (request : s.requests c = .stored expected document) :
      Step s (.activate c)
        (State.move { s with
          active := document
          replacing := false
          succeeded := s.succeeded ++ [expected] } c .idle)

structure Initial (s : State) : Prop where
  free : s.replacing = false
  idle : ∀ c, s.requests c = .idle
  fresh : s.succeeded = []

/-- A replacement brings a revision that it does not expect itself and that no
replacement before it has used up. -/
def Guard (s : State) : Action → Prop
  | .store c _ => ∀ expected replacement, s.requests c = .replacing expected replacement →
      replacement.source.revision ≠ expected ∧ replacement.source.revision ∉ s.succeeded
  | _ => True

structure Invariant (s : State) : Prop where
  nodup : s.succeeded.Nodup
  fresh : s.store.revision ∉ s.succeeded
  stored : ∀ c expected document, s.requests c = .stored expected document →
    expected ∉ s.succeeded ∧ s.store.revision ≠ expected
  /-- The flag admits one request at a time. -/
  alone : ∀ c, s.requests c ≠ .idle → s.replacing = true ∧ ∀ d, d ≠ c → s.requests d = .idle

theorem Store.put_revision (repl : PolicyDocument) (store : Store) :
    (store.put repl).revision = repl.source.revision := by
  cases store <;> rfl

/-- A store that takes the replacement has held the revision expected. It may take it
and still answer with an error. -/
theorem Store.replace_cases {pre after : Store}
    (h : pre.replace files expected repl = (result, after)) :
    (after = pre ∧ ∃ e, result = .error e) ∨ (pre.revision = expected ∧ after = pre.put repl) := by
  cases pre with
  | inMemory document =>
    simp only [Store.replace] at h
    split at h
    · exact .inl ⟨(Prod.mk.inj h).2.symm, _, (Prod.mk.inj h).1.symm⟩
    next he => exact .inr ⟨not_not.1 he, (Prod.mk.inj h).2.symm⟩
  | file contents fallback =>
    simp only [Store.replace] at h
    split at h
    · exact .inl ⟨(Prod.mk.inj h).2.symm, _, (Prod.mk.inj h).1.symm⟩
    · split at h
      · exact .inl ⟨(Prod.mk.inj h).2.symm, _, (Prod.mk.inj h).1.symm⟩
      next he =>
        split at h
        next reason replaced _ =>
          cases h
          cases replaced with
          | false => exact .inl ⟨rfl, _, rfl⟩
          | true => exact .inr ⟨not_not.1 he, rfl⟩
        · exact .inr ⟨not_not.1 he, (Prod.mk.inj h).2.symm⟩

section

variable {s : State}

theorem State.move_self (s : State) (c : RequestId) (req : Request) :
    (s.move c req).requests c = req := update_self ..

theorem State.move_of_ne (s : State) (req : Request) (h : d ≠ c) :
    (s.move c req).requests d = s.requests d := update_of_ne h ..

theorem Invariant.all_idle (h : Invariant s) (hf : s.replacing = false) : s.requests d = .idle := by
  by_contra hd
  have hr := (h.alone d hd).1
  rw [hf] at hr
  cases hr

theorem invariant_move (hn : s.succeeded.Nodup) (hf : s.store.revision ∉ s.succeeded)
    (ho : ∀ d, d ≠ c → s.requests d = .idle)
    (hs : ∀ expected document, req = .stored expected document →
      expected ∉ s.succeeded ∧ s.store.revision ≠ expected)
    (hr : req ≠ .idle → s.replacing = true) : Invariant (s.move c req) := by
  have hi : ∀ d, d ≠ c → (s.move c req).requests d = .idle := by
    intro d hd
    rw [State.move_of_ne s req hd]
    exact ho d hd
  refine ⟨hn, hf, fun d expected document hd => ?_, fun d hd => ?_⟩
  · by_cases hdc : d = c
    · rw [hdc, State.move_self] at hd
      exact hs expected document hd
    · rw [hi d hdc] at hd
      cases hd
  · obtain rfl : d = c := by
      by_contra hdc
      exact hd (hi d hdc)
    rw [State.move_self] at hd
    exact ⟨hr hd, hi⟩

theorem Invariant.store (h : Invariant s) {store : Store}
    (hrq : s.requests c = .replacing expected repl)
    (hok : s.store.replace files expected repl = (.ok document, store))
    (how : repl.source.revision ≠ expected) (hu : repl.source.revision ∉ s.succeeded) :
    Invariant ({ s with store }.move c (.stored expected document)) := by
  obtain ⟨hre, ho⟩ := h.alone c (by simp [hrq])
  rcases Store.replace_cases hok with ⟨-, e, her⟩ | ⟨he, rfl⟩
  · cases her
  · have hr := Store.put_revision repl s.store
    refine invariant_move h.nodup ?_ ho ?_ fun _ => hre
    · rwa [hr]
    · rintro _ _ ⟨⟩
      refine ⟨?_, by rwa [hr]⟩
      rw [← he]
      exact h.fresh

theorem Invariant.refuse (h : Invariant s) {store : Store} {e : PolicyError}
    (hr : s.requests c = .replacing expected repl)
    (hf : s.store.replace files expected repl = (.error e, store))
    (hu : repl.source.revision ∉ s.succeeded) :
    Invariant ({ s with store, replacing := false }.move c .idle) := by
  obtain ⟨-, ho⟩ := h.alone c (by simp [hr])
  have hfr : store.revision ∉ s.succeeded := by
    rcases Store.replace_cases hf with ⟨rfl, -⟩ | ⟨-, rfl⟩
    · exact h.fresh
    · rwa [Store.put_revision]
  exact invariant_move h.nodup hfr ho (by simp) fun hb => absurd rfl hb

theorem Invariant.activate (h : Invariant s) (hr : s.requests c = .stored expected document) :
    Invariant (State.move { s with
      active := document
      replacing := false
      succeeded := s.succeeded ++ [expected] } c .idle) := by
  obtain ⟨-, ho⟩ := h.alone c (by simp [hr])
  obtain ⟨hu, hre⟩ := h.stored c expected document hr
  refine invariant_move ?_ ?_ ho (by simp) fun hb => absurd rfl hb
  · exact concat_eq_append ▸ h.nodup.concat hu
  · intro hm
    rcases mem_append.1 hm with hm | hm
    · exact h.fresh hm
    · exact hre (mem_singleton.1 hm)

theorem step_invariant {a : Action} (h : Invariant s) (hg : Guard s a)
    (hs : Step s a t) : Invariant t := by
  cases hs with
  | begin _ free =>
    exact invariant_move h.nodup h.fresh (fun d _ => h.all_idle free) (by simp) fun _ => rfl
  | busy => exact h
  | store req ok =>
    obtain ⟨ho, hu⟩ := hg _ _ req
    exact h.store req ok ho hu
  | refused req failed => exact h.refuse req failed (hg _ _ req).2
  | activate req => exact h.activate req

end

theorem initial_invariant (h : Initial s) : Invariant s where
  nodup := by simp [h.fresh]
  fresh := by simp [h.fresh]
  stored c expected document hc := by simp [h.idle c] at hc
  alone c hc := absurd (h.idle c) hc

/-- No two replacements that succeed have expected the same revision. -/
theorem expected_revisions_are_used_once (s : State)
    (h : Transition.Reachable Initial Step Guard s) : s.succeeded.Nodup :=
  (h.holds Invariant (fun _ => initial_invariant) fun _ _ _ hs => step_invariant hs).nodup

namespace Sample

abbrev Run (guard : State → Action → Prop) : State → Prop := Transition.Reachable Initial Step guard

def document (revision : ℕ) : PolicyDocument where
  source := { revision, roles := ∅, bindings := [] }
  valid := ⟨by simp, nodup_nil, rfl, by simp⟩

def started : State := { store := .file none (some (document 1)), active := document 1 }

def storing (s : State) (c : RequestId) (expected : ℕ) (replacement : PolicyDocument) : State :=
  { s with replacing := true }.move c (.replacing expected replacement)

def replaced (s : State) (c : RequestId) (expected : ℕ) (replacement : PolicyDocument) : State :=
  let stored := State.move { storing s c expected replacement with
    store := s.store.put replacement } c (.stored expected replacement)
  State.move { stored with
    active := replacement
    replacing := false
    succeeded := s.succeeded ++ [expected] } c .idle

theorem replace_run {guard : State → Action → Prop} (h : Run guard s)
    (hb : guard s (.begin c expected repl)) (hso : guard (storing s c expected repl) (.store c {}))
    (ha : ∀ u, guard u (.activate c)) (hi : s.requests c = .idle) (hf : s.replacing = false)
    (hok : s.store.replace {} expected repl = (.ok repl, s.store.put repl)) :
    Run guard (replaced s c expected repl) := by
  have hs : Run guard (storing s c expected repl) := h.step hb (.begin hi hf)
  have hst : Run guard _ := hs.step hso (.store (State.move_self ..) hok)
  exact hst.step (ha _) (.activate (State.move_self ..))

end Sample

open Sample in
/-- The second administrator has read the first one's revision. -/
theorem two_replacements_use_two_revisions :
    (replaced (replaced started 0 1 (document 2)) 1 2 (document 3)).succeeded.Nodup := by
  have hf : Run Guard (replaced started 0 1 (document 2)) := by
    refine replace_run (.initial ⟨rfl, fun _ => rfl, rfl⟩) trivial ?_ (fun _ => trivial) rfl rfl rfl
    rintro expected replacement ⟨⟩
    decide
  have hs : Run Guard (replaced (replaced started 0 1 (document 2)) 1 2 (document 3)) := by
    refine replace_run hf trivial ?_ (fun _ => trivial) rfl rfl rfl
    rintro expected replacement ⟨⟩
    decide
  exact expected_revisions_are_used_once _ hs

namespace Counterexample

open Sample

/-- Both administrators have read revision 1; the first keeps the number in the document
it sends, and the second overwrites that document. -/
theorem revision_used_twice :
    Run (fun _ _ => True) (replaced (replaced started 0 1 (document 1)) 1 1 (document 2)) ∧
      (replaced (replaced started 0 1 (document 1)) 1 1 (document 2)).succeeded = [1, 1] := by
  refine ⟨?_, rfl⟩
  have hf : Run (fun _ _ => True) (replaced started 0 1 (document 1)) :=
    replace_run (.initial ⟨rfl, fun _ => rfl, rfl⟩) trivial trivial (fun _ => trivial) rfl rfl rfl
  exact replace_run hf trivial trivial (fun _ => trivial) rfl rfl rfl

end Counterexample

end PolicyRevisions
