import Mathlib.Data.List.Induction

/-! # Overlay logs

An overlay log is a list of entries, oldest first. At every point each entry
writes some facets, and the newest write to a facet wins. A log is compacted by
dropping the entries that a new one supersedes before it is appended. -/
namespace OverlayLog

open List

universe u v w x

variable {Entry : Type u} {Point : Type v} {Facet : Type w} {Value : Facet → Type x}

section

variable (write : Entry → Point → (f : Facet) → Option (Value f))

def overlay (p : Point) (state : (f : Facet) → Value f) (e : Entry) : (f : Facet) → Value f :=
  fun f => (write e p f).getD (state f)

def replay (p : Point) (state : (f : Facet) → Value f) (log : List Entry) :
    (f : Facet) → Value f := log.foldl (overlay write p) state

def lastWrite (p : Point) (f : Facet) (log : List Entry) : Option (Value f) :=
  log.reverse.findSome? fun e => write e p f

@[simp] theorem lastWrite_nil (p : Point) (f : Facet) : lastWrite write p f [] = none := rfl

theorem lastWrite_append : lastWrite write p f (older ++ newer) =
      (lastWrite write p f newer).or (lastWrite write p f older) := by
  rw [lastWrite, reverse_append, findSome?_append]
  rfl

theorem lastWrite_concat :
    lastWrite write p f (log ++ [e]) = (write e p f).or (lastWrite write p f log) := by
  rw [lastWrite_append]
  simp [lastWrite]

theorem lastWrite_filterMap {Source : Type*} (p : Point) (f : Facet)
    (entry : Source → Option Entry) (sources : List Source) :
    lastWrite write p f (sources.filterMap entry) =
      sources.reverse.findSome? fun s => (entry s).bind fun e => write e p f := by
  rw [lastWrite, ← filterMap_reverse, ← head?_filterMap, filterMap_filterMap, head?_filterMap]

theorem replay_eq_lastWrite (state : (f : Facet) → Value f) :
    replay write p state log f = (lastWrite write p f log).getD (state f) := by
  induction log using reverseRecOn with
  | nil => rfl
  | append_singleton log e ih =>
    rw [replay, foldl_append, lastWrite_concat]
    change (write e p f).getD (replay write p state log f) = _
    rw [ih]
    cases write e p f <;> rfl

end

section

variable (supersedes : Entry → Entry → Bool)

def insert (log : List Entry) (e : Entry) : List Entry :=
  log.filter (fun old => !supersedes e old) ++ [e]

def compact (history : List Entry) : List Entry := history.foldl (insert supersedes) []

@[simp] theorem compact_concat (hist : List Entry) (e : Entry) :
    compact supersedes (hist ++ [e]) = insert supersedes (compact supersedes hist) e := by
  simp [compact]

theorem exists_split_of_mem_compact (h : e ∈ compact supersedes hist) :
    ∃ pre after, hist = pre ++ e :: after ∧ ∀ x ∈ after, supersedes x e = false := by
  induction hist using reverseRecOn with
  | nil => simp [compact] at h
  | append_singleton hist new ih =>
    rw [compact_concat] at h
    rcases mem_append.1 h with h | h
    · obtain ⟨hm, hk⟩ := mem_filter.1 h
      obtain ⟨pre, after, rfl, ha⟩ := ih hm
      refine ⟨pre, after ++ [new], by simp, fun x hx => ?_⟩
      rcases mem_append.1 hx with hx | hx
      · exact ha x hx
      · obtain rfl := mem_singleton.1 hx
        simpa using hk
    · obtain rfl := mem_singleton.1 h
      exact ⟨hist, [], rfl, by simp⟩

theorem mem_of_mem_compact (h : e ∈ compact supersedes hist) : e ∈ hist := by
  obtain ⟨pre, after, rfl, -⟩ := exists_split_of_mem_compact supersedes h
  exact mem_append_right _ mem_cons_self

theorem compact_pairwise (h : ∀ pre f between g after, hist = pre ++ f :: between ++ g :: after →
      (∀ x ∈ between ++ g :: after, supersedes x f = false) → related f g) :
    (compact supersedes hist).Pairwise related := by
  induction hist using reverseRecOn generalizing related with
  | nil => exact Pairwise.nil
  | append_singleton hist new ih =>
    have hk : (compact supersedes hist).Pairwise
        fun f g => supersedes new f = false → related f g := by
      refine ih fun pre f between g after heq hl hn => ?_
      refine h pre f between g (after ++ [new]) (by simp [heq]) fun x hx => ?_
      rw [← cons_append, ← append_assoc] at hx
      rcases mem_append.1 hx with hx | hx
      · exact hl x hx
      · exact mem_singleton.1 hx ▸ hn
    rw [compact_concat]
    refine pairwise_append.2 ⟨?_, pairwise_singleton _ _, ?_⟩
    · refine (hk.filter _).imp_of_mem fun hf _ hr => hr ?_
      simpa using (mem_filter.1 hf).2
    · intro f hf g hg
      obtain rfl := mem_singleton.1 hg
      obtain ⟨hm, hs⟩ := mem_filter.1 hf
      obtain ⟨pre, after, rfl, ha⟩ := exists_split_of_mem_compact supersedes hm
      refine h pre f after g [] (by simp) fun x hx => ?_
      rcases mem_append.1 hx with hx | hx
      · exact ha x hx
      · obtain rfl := mem_singleton.1 hx
        simpa using hs

/-- Entries are only superseded by entries that write at least as much. -/
def Sound (write : Entry → Point → (f : Facet) → Option (Value f)) : Prop :=
  ∀ new old, supersedes new old = true → ∀ p f,
    (write old p f).isSome = true → (write new p f).isSome = true

variable {supersedes} {write : Entry → Point → (f : Facet) → Option (Value f)}

theorem lastWrite_filter (keep : Entry → Bool)
    (h : ∀ e ∈ log, keep e = false → write e p f = none) :
    lastWrite write p f (log.filter keep) = lastWrite write p f log := by
  induction log using reverseRecOn with
  | nil => rfl
  | append_singleton log e ih =>
    have hl := ih fun x hx => h x (mem_append_left _ hx)
    rw [filter_append, lastWrite_append, lastWrite_concat, hl]
    cases hk : keep e with
    | true => simp [hk, lastWrite]
    | false => simp [hk, h e (by simp) hk]

section

variable (h : Sound supersedes write)

include h

theorem lastWrite_insert (p : Point) :
    lastWrite write p f (insert supersedes log e) = (write e p f).or (lastWrite write p f log) := by
  rw [insert, lastWrite_concat]
  cases he : write e p f with
  | some v => rfl
  | none =>
    refine lastWrite_filter _ fun old _ ho => ?_
    by_contra hn
    have := h e old (by simpa using ho) p f (Option.isSome_iff_ne_none.2 hn)
    simp [he] at this

theorem lastWrite_compact (p : Point) (hist : List Entry) :
    lastWrite write p f (compact supersedes hist) = lastWrite write p f hist := by
  induction hist using reverseRecOn with
  | nil => rfl
  | append_singleton hist e ih => rw [compact_concat, lastWrite_insert h, lastWrite_concat, ih]

theorem lastWrite_foldl_insert (p : Point) (f : Facet) (log entries : List Entry) :
    lastWrite write p f (entries.foldl (insert supersedes) log) =
      (lastWrite write p f entries).or (lastWrite write p f log) := by
  induction entries using reverseRecOn with
  | nil => rfl
  | append_singleton entries e ih =>
    rw [foldl_append, foldl_cons, foldl_nil, lastWrite_insert h, ih,
      lastWrite_concat, Option.or_assoc]

/-- Compacting a log cannot be observed by replaying it. -/
theorem replay_compact (p : Point) (state : (f : Facet) → Value f) (hist : List Entry) :
    replay write p state (compact supersedes hist) = replay write p state hist := by
  funext f
  rw [replay_eq_lastWrite, replay_eq_lastWrite, lastWrite_compact h]

end

end

section

variable (supersedes : Entry → Entry → Bool)

def Irredundant (log : List Entry) : Prop :=
  log.Pairwise fun older newer => supersedes newer older = false

variable {supersedes}

theorem insert_irredundant (h : Irredundant supersedes log) :
    Irredundant supersedes (insert supersedes log e) := by
  refine pairwise_append.2 ⟨h.sublist filter_sublist, pairwise_singleton _ _, ?_⟩
  intro old ho new hn
  obtain rfl := mem_singleton.1 hn
  simpa using (mem_filter.1 ho).2

theorem compact_irredundant (hist : List Entry) :
    Irredundant supersedes (compact supersedes hist) := by
  induction hist using reverseRecOn with
  | nil => exact Pairwise.nil
  | append_singleton hist e ih => simpa using insert_irredundant ih

theorem insert_eq_concat (h : ∀ old ∈ log, supersedes e old = false) :
    insert supersedes log e = log ++ [e] := by
  rw [insert, filter_eq_self.2 fun old ho => by simp [h old ho]]

theorem foldl_insert_irredundant (start : List Entry) (h : Irredundant supersedes (start ++ log)) :
    log.foldl (insert supersedes) start = start ++ log := by
  induction log generalizing start with
  | nil => simp
  | cons e rest ih =>
    have hs : insert supersedes start e = start ++ [e] := insert_eq_concat fun old ho =>
        (pairwise_append.1 h).2.2 old ho e mem_cons_self
    rw [foldl_cons, hs, ih _ (by simpa [append_assoc] using h)]
    simp

/-- A log in which nothing is superseded is kept as it is. -/
theorem compact_of_irredundant (h : Irredundant supersedes log) : compact supersedes log = log := by
  simpa [compact] using foldl_insert_irredundant [] (by simpa using h)

end

section

variable (supersedes : Entry → Entry → Bool)

theorem foldl_insert_eq : entries.foldl (insert supersedes) start =
      start.filter (fun old => entries.all fun e => !supersedes e old) ++
        compact supersedes entries := by
  induction entries using reverseRecOn with
  | nil =>
    have hk : start.filter (fun _ => true) = start := filter_eq_self.2 fun _ _ => rfl
    simp [compact, hk]
  | append_singleton entries e ih =>
    rw [foldl_append, foldl_cons, ih, compact_concat, insert, insert,
      filter_append, filter_filter, ← append_assoc]
    simp [Bool.and_comm]
variable {supersedes}

/-- Insertions change nothing exactly when their compaction already ends the
log and supersedes nothing below it. -/
theorem foldl_insert_eq_self_iff (hs : ∀ e ∈ entries, supersedes e e = true) :
    entries.foldl (insert supersedes) log = log ↔ ∃ base, log = base ++ compact supersedes entries ∧
        ∀ old ∈ base, ∀ e ∈ entries, supersedes e old = false := by
  rw [foldl_insert_eq]
  constructor
  · intro h
    refine ⟨_, h.symm, fun old ho e he => ?_⟩
    simpa using all_eq_true.1 (mem_filter.1 ho).2 e he
  · rintro ⟨base, rfl, hb⟩
    have hk : base.filter (fun old => entries.all fun e => !supersedes e old) = base :=
      filter_eq_self.2 fun old ho =>
        all_eq_true.2 fun e he => by simp [hb old ho e he]
    -- an entry of the compaction is superseded by its own reinsertion
    have hd : (compact supersedes entries).filter
        (fun old => entries.all fun e => !supersedes e old) = [] := by
      refine filter_eq_nil_iff.2 fun e he ha => ?_
      have hm := mem_of_mem_compact supersedes he
      simpa [hs e hm] using all_eq_true.1 ha e hm
    rw [filter_append, hk, hd, append_nil]

end

end OverlayLog
