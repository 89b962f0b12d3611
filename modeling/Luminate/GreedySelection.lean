import Mathlib.Data.List.Pairwise

/-! # Greedy selection

Items are taken in order, and an item is left out if it conflicts with one that has been
taken before it. -/
namespace GreedySelection

open List

variable {α : Type*} (conflict : α → α → Prop) [DecidableRel conflict]

def select : List α → List α → List α
  | _, [] => []
  | taken, item :: rest =>
    if ∃ earlier ∈ taken, conflict earlier item then select taken rest
    else item :: select (taken ++ [item]) rest

variable {conflict}

theorem select_cons_of_conflict (h : ∃ old ∈ taken, conflict old it) :
    select conflict taken (it :: rest) = select conflict taken rest := by
  rw [select, if_pos h]

theorem select_cons_of_free (h : ¬ ∃ old ∈ taken, conflict old it) :
    select conflict taken (it :: rest) = it :: select conflict (taken ++ [it]) rest := by
  rw [select, if_neg h]

theorem select_sublist (taken is : List α) : (select conflict taken is).Sublist is := by
  induction is generalizing taken with
  | nil => exact Sublist.refl _
  | cons it rest ih =>
    by_cases h : ∃ old ∈ taken, conflict old it
    · rw [select_cons_of_conflict h]
      exact (ih taken).cons it
    · rw [select_cons_of_free h]
      exact (ih (taken ++ [it])).cons_cons it

theorem select_append (taken is : List α) : select conflict taken (is ++ rest) =
      select conflict taken is ++ select conflict (taken ++ select conflict taken is) rest := by
  induction is generalizing taken with
  | nil => rw [select, append_nil, nil_append, nil_append]
  | cons it is ih =>
    rw [cons_append]
    by_cases h : ∃ old ∈ taken, conflict old it
    · rw [select_cons_of_conflict h, select_cons_of_conflict h, ih]
    · rw [select_cons_of_free h, select_cons_of_free h, ih, cons_append, append_assoc,
        singleton_append]

theorem mem_select_middle (hl : it ∉ left) (hr : it ∉ right) :
    it ∈ select conflict taken (left ++ (middle ++ right)) ↔
      it ∈ select conflict (taken ++ select conflict taken left) middle := by
  have hno : it ∉ select conflict taken left := fun h =>
    hl ((select_sublist _ _).subset h)
  have hn : ∀ taken, it ∉ select conflict taken right := fun _ h =>
    hr ((select_sublist _ _).subset h)
  simp [select_append, hno, hn]

theorem select_congr (h : ∀ it ∈ is, (∃ old ∈ taken, conflict old it) ↔
    ∃ old ∈ taken', conflict old it) : select conflict taken is = select conflict taken' is := by
  induction is generalizing taken taken' with
  | nil => rfl
  | cons it rest ih =>
    obtain ⟨hi, hr⟩ := forall_mem_cons.1 h
    by_cases hc : ∃ old ∈ taken, conflict old it
    · rw [select_cons_of_conflict hc, select_cons_of_conflict (hi.1 hc)]
      exact ih hr
    · rw [select_cons_of_free hc, select_cons_of_free fun hc' => hc (hi.2 hc')]
      refine congrArg _ (ih fun other ho => ?_)
      simp [hr other ho]

theorem free_of_mem_select (h : it ∈ select conflict taken is) :
    ∀ old ∈ taken, ¬ conflict old it := by
  induction is generalizing taken with
  | nil => cases h
  | cons first rest ih =>
    by_cases hc : ∃ old ∈ taken, conflict old first
    · rw [select_cons_of_conflict hc] at h
      exact ih h
    · rw [select_cons_of_free hc] at h
      intro old he hco
      rcases mem_cons.1 h with rfl | h
      · exact hc ⟨old, he, hco⟩
      · exact ih h old (mem_append_left _ he) hco

/-- What is selected does not conflict. -/
theorem select_independent (taken is : List α) :
    (select conflict taken is).Pairwise fun old later => ¬ conflict old later := by
  induction is generalizing taken with
  | nil => exact Pairwise.nil
  | cons first rest ih =>
    by_cases hc : ∃ old ∈ taken, conflict old first
    · rw [select_cons_of_conflict hc]
      exact ih taken
    · rw [select_cons_of_free hc]
      refine pairwise_cons.2 ⟨fun later hl => ?_, ih _⟩
      exact free_of_mem_select hl first (mem_append_right _ (mem_singleton_self _))

theorem conflict_of_not_mem_select (hso : is.Pairwise pre) (hi : it ∈ is)
    (hle : it ∉ select conflict taken is) :
    ∃ old, (old ∈ taken ∨ old ∈ select conflict taken is ∧ pre old it) ∧ conflict old it := by
  induction is generalizing taken with
  | nil => cases hi
  | cons first rest ih =>
    obtain ⟨hf, hr⟩ := pairwise_cons.1 hso
    by_cases hc : ∃ old ∈ taken, conflict old first
    · rw [select_cons_of_conflict hc] at hle ⊢
      rcases mem_cons.1 hi with rfl | hi
      · obtain ⟨old, he, hco⟩ := hc
        exact ⟨old, .inl he, hco⟩
      · exact ih hr hi hle
    · rw [select_cons_of_free hc] at hle ⊢
      obtain ⟨hne, hle⟩ := not_or.1 (fun h => hle (mem_cons.2 h))
      have hl := (mem_cons.1 hi).resolve_left hne
      obtain ⟨old, he, hco⟩ := ih hr hl hle
      refine ⟨old, ?_, hco⟩
      rcases he with he | ⟨hs, hb⟩
      · rcases mem_append.1 he with ht | hsi
        · exact .inl ht
        · obtain rfl := mem_singleton.1 hsi
          exact .inr ⟨mem_cons_self, hf it hl⟩
      · exact .inr ⟨mem_cons_of_mem _ hs, hb⟩

theorem select_map {β : Type*} {cf' : β → β → Prop} [DecidableRel cf'] (f : α → β)
    (h : ∀ a b, cf' (f a) (f b) ↔ conflict a b) (taken : List α) :
    select cf' (taken.map f) (is.map f) = (select conflict taken is).map f := by
  induction is generalizing taken with
  | nil => rfl
  | cons it rest ih =>
    have hi : (∃ old ∈ taken.map f, cf' old (f it)) ↔ ∃ old ∈ taken, conflict old it := by simp [h]
    rw [map_cons]
    by_cases hc : ∃ old ∈ taken, conflict old it
    · rw [select_cons_of_conflict hc, select_cons_of_conflict (hi.2 hc), ih]
    · rw [select_cons_of_free hc, select_cons_of_free (hi.not.2 hc), map_cons, ← ih,
        map_append, map_singleton]

theorem select_of_subset (hs : taken ⊆ taken')
    (hf : ∀ it ∈ select conflict taken is, ∀ old ∈ taken', ¬ conflict old it) :
    select conflict taken' is = select conflict taken is := by
  induction is generalizing taken taken' with
  | nil => rfl
  | cons it rest ih =>
    by_cases hc : ∃ old ∈ taken, conflict old it
    · have hc' : ∃ old ∈ taken', conflict old it := by
        obtain ⟨old, he, hco⟩ := hc
        exact ⟨old, hs he, hco⟩
      rw [select_cons_of_conflict hc] at hf ⊢
      rw [select_cons_of_conflict hc', ih hs hf]
    · rw [select_cons_of_free hc] at hf ⊢
      obtain ⟨hi, hr⟩ := forall_mem_cons.1 hf
      have hc' : ¬ ∃ old ∈ taken', conflict old it := by
        rintro ⟨old, he, hco⟩
        exact hi old he hco
      rw [select_cons_of_free hc']
      refine congrArg _ (ih ?_ ?_)
      · exact append_subset.2 ⟨Subset.trans hs (subset_append_left _ _), subset_append_right _ _⟩
      · intro later hl old he
        rcases mem_append.1 he with he | he
        · exact hr later hl old he
        · exact free_of_mem_select hl old (mem_append_right _ he)

/-- Two neighbouring blocks may change places if what each would select on its own is
free of conflicts with the other. -/
theorem mem_select_swap (hs : ∀ a b, conflict a b → conflict b a)
    (hf : ∀ a ∈ select conflict taken left, ∀ b ∈ select conflict taken right, ¬ conflict a b) :
    it ∈ select conflict taken (right ++ (left ++ rest)) ↔
      it ∈ select conflict taken (left ++ (right ++ rest)) := by
  have hr : select conflict (taken ++ select conflict taken left) right =
      select conflict taken right := by
    refine select_of_subset (subset_append_left _ _) fun b hb old he => ?_
    rcases mem_append.1 he with he | he
    · exact free_of_mem_select hb old he
    · exact hf old he b hb
  have hl : select conflict (taken ++ select conflict taken right) left =
      select conflict taken left := by
    refine select_of_subset (subset_append_left _ _) fun a ha old he => ?_
    rcases mem_append.1 he with he | he
    · exact free_of_mem_select ha old he
    · exact fun hc => hf a ha old he (hs _ _ hc)
  have hre : select conflict (taken ++ select conflict taken right ++
        select conflict taken left) rest =
      select conflict (taken ++ select conflict taken left ++
        select conflict taken right) rest := by
    refine select_congr fun _ _ => ?_
    simp only [mem_append, or_right_comm]
  simp only [select_append, hr, hl, hre, mem_append, or_left_comm]

end GreedySelection
