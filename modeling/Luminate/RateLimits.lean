import Luminate.TokenBucket
import Luminate.Transition
import Mathlib.Algebra.GroupWithZero.Nat
import Mathlib.Data.Finset.Card
import Mathlib.Data.List.MinMax

/-! # Rate limits of the HTTP companion

`RateStore` of `luminate-http/src/resource.rs`: one token bucket for each key, dropped
after a minute without use. Times are in nanoseconds. -/
namespace RateLimits

open TokenBucket Transition List

structure Rate where
  perMinute : ℕ
  burst : ℕ
  deriving DecidableEq

def u32Max : ℕ := 2 ^ 32 - 1

def u64Max : ℕ := 2 ^ 64 - 1

def saturatingAdd (a b : ℕ) : ℕ := min (a + b) u64Max

def saturatingMul (a b : ℕ) : ℕ := min (a * b) u64Max

def Rate.capacity (rate : Rate) : ℕ :=
  saturatingMul (min (rate.perMinute + rate.burst) u32Max) 60000

structure Window where
  updated : ℕ
  tokenMillis : ℕ
  sequence : ℕ
  deriving DecidableEq

def millisecond : ℕ := 1000000

def minute : ℕ := 60000 * millisecond

/-- Fractions of a millisecond are dropped. -/
def elapsedMillis (updated now : ℕ) : ℕ := min ((now - updated) / millisecond) u64Max

def Window.refill (window : Window) (rate : Rate) (now : ℕ) : Window :=
  { window with
    updated := now
    tokenMillis := min (saturatingAdd window.tokenMillis
      (saturatingMul (elapsedMillis window.updated now) rate.perMinute)) rate.capacity }

variable {K : Type} [DecidableEq K]

structure Store (K : Type) where
  entries : List (K × Window) := []
  nextSequence : ℕ := 0

def put (entries : List (K × Window)) (key : K) (window : Window) : List (K × Window) :=
  (key, window) :: entries.filter (·.1 ≠ key)

/-- The entry that was used first makes room for a new key. -/
def evict (maximumEntries : ℕ) (key : K) (entries : List (K × Window)) : List (K × Window) :=
  if (entries.lookup key).isNone && maximumEntries ≤ entries.length then
    match entries.argmin (·.2.sequence) with
    | some oldest => entries.filter (·.1 ≠ oldest.1)
    | none => entries
  else entries

def retain (now : ℕ) (entries : List (K × Window)) : List (K × Window) :=
  entries.filter fun entry => now - entry.2.updated < minute

def availableAt (rate : Rate) (store : Store K) (key : K) (now : ℕ) : Bool × Store K :=
  match store.entries.lookup key with
  | none => (true, store)
  | some window =>
    let window := window.refill rate now
    (60000 ≤ window.tokenMillis, { store with entries := put store.entries key window })

def allowAt (rate : Rate) (maximumEntries : ℕ) (store : Store K) (key : K) (now : ℕ) :
    Bool × Store K :=
  let entries := evict maximumEntries key (retain now store.entries)
  let sequence := store.nextSequence
  let nextSequence := (sequence + 1) % 2 ^ 64
  let window := (entries.lookup key).getD ⟨now, rate.capacity, sequence⟩
  let window : Window := { window.refill rate now with sequence := sequence }
  if window.tokenMillis < 60000 then (false, ⟨put entries key window, nextSequence⟩)
  else
    let window : Window := { window with tokenMillis := window.tokenMillis - 60000 }
    (true, ⟨put entries key window, nextSequence⟩)

inductive CallKind where
  | allow | available
  deriving DecidableEq

structure Call (K : Type) where
  kind : CallKind
  key : K
  now : ℕ
  deriving DecidableEq

def serve (rate : Rate) (maximumEntries : ℕ) (store : Store K) (call : Call K) :
    Bool × Store K :=
  match call.kind with
  | .allow => allowAt rate maximumEntries store call.key call.now
  | .available => availableAt rate store call.key call.now

structure System (K : Type) where
  store : Store K := {}
  history : List (Call K × Bool) := []
  clock : ℕ := 0

def System.next (rate : Rate) (maximumEntries : ℕ) (s : System K) (call : Call K) : System K :=
  let (answer, store) := serve rate maximumEntries s.store call
  ⟨store, (call, answer) :: s.history, call.now⟩

def Step (rate : Rate) (maximumEntries : ℕ) (s : System K) (call : Call K) (t : System K) : Prop :=
  s.clock ≤ call.now ∧ t = s.next rate maximumEntries call

def grants (history : List (Call K × Bool)) (key : K) : List ℕ :=
  (history.filter fun entry => entry.1.kind = .allow && entry.1.key = key && entry.2).map (·.1.now)

def granted (history : List (Call K × Bool)) (key : K) (start stop : ℕ) : ℕ :=
  (grants history key).countP fun t => start ≤ t ∧ t ≤ stop

def usedKeys (history : List (Call K × Bool)) : Finset K := (history.map (·.1.key)).toFinset

/-- A bucket that the call drops for lack of use would have been full again. -/
def FullWhenDropped (rate : Rate) (s : System K) (call : Call K) : Prop :=
  call.kind = .allow → ∀ entry ∈ s.store.entries, entry ∉ retain call.now s.store.entries →
    (entry.2.refill rate call.now).tokenMillis = rate.capacity

variable {rate : Rate} {maximumEntries : ℕ} {s : System K} {call : Call K}

def bucketOf (rate : Rate) : Bucket := ⟨rate.capacity, 60000, rate.perMinute, millisecond⟩

theorem capacity_le (rate : Rate) : rate.capacity ≤ 60000 * (rate.perMinute + rate.burst) := by
  rw [Rate.capacity, Nat.mul_comm 60000]
  exact (min_le_left _ _).trans (Nat.mul_le_mul_right _ (min_le_left _ _))

theorem refill_capped (window : Window) :
    (window.refill rate now).tokenMillis ≤ rate.capacity := min_le_right _ _

theorem refill_le (window : Window) : (window.refill rate now).tokenMillis ≤
      window.tokenMillis + (bucketOf rate).earned window.updated now := by
  have he : elapsedMillis window.updated now ≤ (now - window.updated) / millisecond :=
    min_le_left _ _
  calc (window.refill rate now).tokenMillis ≤ saturatingAdd window.tokenMillis
          (saturatingMul (elapsedMillis window.updated now) rate.perMinute) := min_le_left _ _
    _ ≤ window.tokenMillis +
          saturatingMul (elapsedMillis window.updated now) rate.perMinute := min_le_left _ _
    _ ≤ window.tokenMillis + elapsedMillis window.updated now * rate.perMinute :=
        Nat.add_le_add_left (min_le_left _ _) _
    _ ≤ window.tokenMillis + (bucketOf rate).earned window.updated now :=
        Nat.add_le_add_left (Nat.mul_le_mul_right _ he) _

variable {window : Window} {answer : Bool}

theorem mem_put {key other : K} : (other, fd) ∈ put entries key window ↔
      (other = key ∧ fd = window) ∨ (other ≠ key ∧ (other, fd) ∈ entries) := by
  rw [put, mem_cons, mem_filter, and_comm (b := decide _ = true)]
  simp

theorem keys_put {key other : K} :
    other ∈ (put entries key window).map Prod.fst ↔ other = key ∨ other ∈ entries.map Prod.fst := by
  rw [put, map_cons, mem_cons]
  constructor
  · rintro (hs | ho)
    · exact .inl hs
    · exact .inr ((filter_sublist.map Prod.fst).subset ho)
  · rintro (hs | ho)
    · exact .inl hs
    · by_cases hs : other = key
      · exact .inl hs
      · obtain ⟨⟨_, fd⟩, hf, rfl⟩ := mem_map.1 ho
        exact .inr (mem_map.2 ⟨_, mem_filter.2 ⟨hf, decide_eq_true hs⟩, rfl⟩)

theorem nodup_put (h : (entries.map Prod.fst).Nodup) (key : K) :
    ((put entries key window).map Prod.fst).Nodup := by
  rw [put, map_cons, nodup_cons]
  refine ⟨fun hm => ?_, h.sublist (filter_sublist.map Prod.fst)⟩
  obtain ⟨entry, he, hk⟩ := mem_map.1 hm
  exact of_decide_eq_true (mem_filter.1 he).2 hk

/-- Every key is backed: by its bucket, or by a full one where it has none. -/
structure Sound (rate : Rate) (entries : List (K × Window)) (history : List (Call K × Bool))
    (clock : ℕ) : Prop where
  nodup : (entries.map Prod.fst).Nodup
  used : ∀ key ∈ entries.map Prod.fst, key ∈ usedKeys history
  kept : ∀ key window, (key, window) ∈ entries → window.updated ≤ clock ∧
    Backed (bucketOf rate) (grants history key) window.tokenMillis window.updated
  absent : ∀ key, key ∉ entries.map Prod.fst →
    Backed (bucketOf rate) (grants history key) rate.capacity clock

variable {es : List (K × Window)} {hist : List (Call K × Bool)} {clock now : ℕ}

theorem Sound.initial (rate : Rate) : Sound rate ([] : List (K × Window)) [] 0 where
  nodup := nodup_nil
  used := fun _ h => absurd h not_mem_nil
  kept := fun _ _ h => absurd h not_mem_nil
  absent := fun _ _ => .new _ _

theorem Sound.retain (h : Sound rate es hist clock) (hc : clock ≤ now)
    (hf : ∀ entry ∈ es, entry ∉ RateLimits.retain now es →
      (entry.2.refill rate now).tokenMillis = rate.capacity) :
    Sound rate (RateLimits.retain now es) hist now where
  nodup := h.nodup.sublist (filter_sublist.map Prod.fst)
  used := fun key hke => h.used key ((filter_sublist.map Prod.fst).subset hke)
  kept := fun key window hm =>
    ⟨(h.kept key window (mem_of_mem_filter hm)).1.trans hc,
      (h.kept key window (mem_of_mem_filter hm)).2⟩
  absent := by
    intro key hke
    by_cases hb : key ∈ es.map Prod.fst
    · obtain ⟨⟨_, window⟩, hm, rfl⟩ := mem_map.1 hb
      obtain ⟨hu, hba⟩ := h.kept _ window hm
      have hd := hf _ hm fun hk => hke (mem_map_of_mem hk)
      refine hba.later (hu.trans hc) ?_ (Nat.le_refl _)
      rw [← hd]
      exact refill_le window
    · exact (h.absent key hb).later hc (Nat.le_add_right _ _) (Nat.le_refl _)

theorem evict_eq (h : Sound rate es hist clock) (hu : (usedKeys hist).card < maximumEntries) :
    evict maximumEntries key es = es := by
  refine if_neg fun hf => ?_
  have hl : maximumEntries ≤ es.length := of_decide_eq_true (Bool.and_eq_true_iff.1 hf).2
  have hs : (es.map Prod.fst).toFinset ⊆ usedKeys hist :=
    fun other ho => h.used other (mem_toFinset.1 ho)
  have hc := Finset.card_le_card hs
  rw [toFinset_card_of_nodup h.nodup, length_map] at hc
  omega

theorem Sound.later (h : Sound rate es hist clock) (hc : clock ≤ now) : Sound rate es hist now where
  nodup := h.nodup
  used := h.used
  kept := fun key window hm =>
    ⟨(h.kept key window hm).1.trans hc, (h.kept key window hm).2⟩
  absent := fun key hk =>
    (h.absent key hk).later hc (Nat.le_add_right _ _) (Nat.le_refl _)

theorem grants_other (hk : key ≠ call.key) :
    grants ((call, answer) :: hist) key = grants hist key := by
  rw [grants, grants]
  simp [hk.symm]

theorem grants_refused (h : call.kind = .available ∨ answer = false) :
    grants ((call, answer) :: hist) key = grants hist key := by
  rw [grants, grants]
  rcases h with h | h <;> simp [h]

theorem grants_allowed (h : call.kind = .allow) :
    grants ((call, true) :: hist) call.key = call.now :: grants hist call.key := by
  rw [grants, filter_cons_of_pos, map_cons, grants]
  simp [h]

theorem mem_usedKeys_cons :
    key ∈ usedKeys ((call, answer) :: hist) ↔ key = call.key ∨ key ∈ usedKeys hist := by
  simp [usedKeys]

theorem Sound.pass (h : Sound rate es hist clock) (hr : call.kind = .available ∨ answer = false) :
    Sound rate es ((call, answer) :: hist) clock where
  nodup := h.nodup
  used := fun key hk => mem_usedKeys_cons.2 (.inr (h.used key hk))
  kept := by
    intro key window hm
    rw [grants_refused hr]
    exact h.kept key window hm
  absent := by
    intro key hk
    rw [grants_refused hr]
    exact h.absent key hk

theorem Sound.put (h : Sound rate es hist now) (hu : window.updated = now)
    (hb : Backed (bucketOf rate) (grants ((call, answer) :: hist) call.key)
      window.tokenMillis now) :
    Sound rate (RateLimits.put es call.key window) ((call, answer) :: hist) now where
  nodup := nodup_put h.nodup _
  used := by
    intro key hk
    rw [keys_put] at hk
    exact mem_usedKeys_cons.2 (hk.imp_right (h.used key))
  kept := by
    intro key fd hm
    rcases mem_put.1 hm with ⟨rfl, rfl⟩ | ⟨ho, hm⟩
    · exact ⟨hu.le, hu ▸ hb⟩
    · rw [grants_other ho]
      exact h.kept key fd hm
  absent := by
    intro key hk
    rw [keys_put, not_or] at hk
    rw [grants_other hk.1]
    exact h.absent key hk.2

theorem Sound.refilled (h : Sound rate es hist clock) (hc : clock ≤ now) (key : K) (sequence : ℕ) :
    Backed (bucketOf rate) (grants hist key)
      (((es.lookup key).getD ⟨now, rate.capacity, sequence⟩).refill rate now).tokenMillis
      now := by
  cases hf : es.lookup key with
  | some window =>
    obtain ⟨pre, after, hs, -⟩ := lookup_eq_some_iff.1 hf
    have hm : (key, window) ∈ es := by
      rw [hs]
      exact mem_append_right _ mem_cons_self
    obtain ⟨hu, hb⟩ := h.kept key window hm
    exact hb.later (hu.trans hc) (refill_le _) (refill_capped _)
  | none =>
    have ha : key ∉ es.map Prod.fst := by
      intro hm
      obtain ⟨entry, he, rfl⟩ := mem_map.1 hm
      simpa using lookup_eq_none_iff.1 hf entry he
    refine (h.absent key ha).later hc ?_ (refill_capped _)
    exact (refill_capped _).trans (Nat.le_add_right _ _)

theorem availableAt_sound (h : Sound rate s.store.entries s.history s.clock)
    (hc : s.clock ≤ call.now) (hk : call.kind = .available) :
    Sound rate (availableAt rate s.store call.key call.now).2.entries
      ((call, (availableAt rate s.store call.key call.now).1) :: s.history) call.now := by
  rw [availableAt]
  cases hf : s.store.entries.lookup call.key with
  | none => exact (h.later hc).pass (.inl hk)
  | some window =>
    have hb := h.refilled hc call.key 0
    rw [hf] at hb
    apply (h.later hc).put rfl
    rw [grants_refused (.inl hk)]
    exact hb

theorem allowAt_sound (h : Sound rate s.store.entries s.history s.clock)
    (hc : s.clock ≤ call.now) (hk : call.kind = .allow)
    (hu : (usedKeys s.history).card < maximumEntries) (hf : FullWhenDropped rate s call) :
    Sound rate (allowAt rate maximumEntries s.store call.key call.now).2.entries
      ((call, (allowAt rate maximumEntries s.store call.key call.now).1) :: s.history)
      call.now := by
  have hr := h.retain hc (hf hk)
  have hb := hr.refilled (Nat.le_refl _) call.key s.store.nextSequence
  rw [allowAt, evict_eq hr hu]
  split
  · apply hr.put rfl
    rw [grants_refused (.inr rfl)]
    exact hb
  · next he =>
    apply hr.put rfl
    rw [grants_allowed hk]
    exact hb.spend (Nat.le_of_not_lt he)

theorem usedKeys_subset (hist : List (Call K × Bool)) :
    usedKeys hist ⊆ usedKeys (entry :: hist) := fun _ hk => mem_usedKeys_cons.2 (.inr hk)

/-- A call that drops only full entries keeps the store sound. -/
theorem step_sound (hst : Step rate maximumEntries s call t) (hf : FullWhenDropped rate s call)
    (h : (usedKeys s.history).card < maximumEntries → Sound rate s.store.entries s.history s.clock)
    (hu : (usedKeys t.history).card < maximumEntries) :
    Sound rate t.store.entries t.history t.clock := by
  obtain ⟨hc, rfl⟩ := hst
  have hb : (usedKeys s.history).card < maximumEntries :=
    (Finset.card_le_card (usedKeys_subset _)).trans_lt hu
  cases hk : call.kind with
  | allow =>
    have hs := allowAt_sound (h hb) hc hk hb hf
    simpa only [System.next, serve, hk] using hs
  | available =>
    have hs := availableAt_sound (h hb) hc hk
    simpa only [System.next, serve, hk] using hs

omit [DecidableEq K] in
/-- Without a burst a minute fills every bucket. -/
theorem fullWhenDropped_of_burstless (hb : rate.burst = 0) (s : System K) (call : Call K) :
    FullWhenDropped rate s call := by
  intro _ entry hme hd
  have hm : minute ≤ call.now - entry.2.updated := by
    by_contra hl
    exact hd (mem_filter.2 ⟨hme, decide_eq_true (Nat.lt_of_not_le hl)⟩)
  have he : 60000 ≤ elapsedMillis entry.2.updated call.now := by
    refine le_min ?_ (by decide)
    rw [Nat.le_div_iff_mul_le (by decide)]
    exact hm
  have hc : rate.capacity ≤ min (60000 * rate.perMinute) u64Max := by
    refine le_min ?_ (min_le_right _ _)
    have hle := capacity_le rate
    rwa [hb] at hle
  have hea : min (60000 * rate.perMinute) u64Max ≤
      saturatingMul (elapsedMillis entry.2.updated call.now) rate.perMinute :=
    min_le_min_right _ (Nat.mul_le_mul_right _ he)
  have ha : saturatingMul (elapsedMillis entry.2.updated call.now) rate.perMinute ≤
      saturatingAdd entry.2.tokenMillis
        (saturatingMul (elapsedMillis entry.2.updated call.now) rate.perMinute) :=
    le_min (Nat.le_add_left _ _) (min_le_right _ _)
  exact min_eq_right (hc.trans (hea.trans ha))

/-- The bound holds as long as no bucket is dropped before it is full again. -/
theorem rate_limit_bounds {s : System K}
    (h : Reachable (· = {}) (Step rate maximumEntries) (FullWhenDropped rate) s)
    (hused : (usedKeys s.history).card < maximumEntries) (key : K) (start length : ℕ) :
    60000 * granted s.history key start (start + length) ≤
      60000 * (rate.perMinute + rate.burst) + length / millisecond * rate.perMinute := by
  have hso := h.holds (fun s => (usedKeys s.history).card < maximumEntries →
    Sound rate s.store.entries s.history s.clock) (fun s hs _ => hs ▸ .initial rate)
    (fun s call t hs hg hst => step_sound hst hg hs) hused
  have hb : (bucketOf rate).Bounded (grants s.history key) := by
    by_cases hk : key ∈ s.store.entries.map Prod.fst
    · obtain ⟨⟨_, window⟩, hm, rfl⟩ := mem_map.1 hk
      exact (hso.kept _ window hm).2.bounded
    · exact (hso.absent key hk).bounded
  have hsp := hb start (start + length)
  rw [Bucket.earned, Nat.add_sub_cancel_left] at hsp
  exact hsp.trans (Nat.add_le_add_right (capacity_le rate) _)

theorem length_put_le (hf : es.lookup key = some fd) : (put es key window).length ≤ es.length := by
  obtain ⟨pre, after, rfl, -⟩ := lookup_eq_some_iff.1 hf
  refine length_filter_lt_length_iff_exists.2 ⟨(key, fd), ?_, by simp⟩
  exact mem_append_right _ mem_cons_self

/-- Eviction leaves room for the key's entry. -/
theorem length_put_evict_le (hl : es.length ≤ max limit 1) :
    (put (evict limit key es) key window).length ≤ max limit 1 := by
  cases hf : es.lookup key with
  | some fd => simpa [evict, hf] using (length_put_le hf).trans hl
  | none =>
    refine (Nat.succ_le_succ (length_filter_le _ _)).trans ?_
    simp only [evict, hf]
    split
    · split
      · next oldest ho =>
        refine Nat.lt_of_lt_of_le (length_filter_lt_length_iff_exists.2 ?_) hl
        exact ⟨oldest, argmin_mem ho, by simp⟩
      · next ho => simp [argmin_eq_none.1 ho]
    · next hr => exact le_max_of_le_left (Nat.lt_of_not_le fun h => hr (by simpa using h))

abbrev Store.keys (store : Store K) : List K := store.entries.map Prod.fst

/-- The call drops the entry: a minute has passed without use, or a new key finds the store
full and no other entry was used before. -/
def Dropped (maximumEntries : ℕ) (s : System K) (call : Call K) (entry : K × Window) : Prop :=
  let kept := retain call.now s.store.entries
  call.kind = .allow ∧ (minute ≤ call.now - entry.2.updated ∨ kept.lookup call.key = none ∧
    maximumEntries ≤ kept.length ∧ ∀ other ∈ kept, entry.2.sequence ≤ other.2.sequence)

theorem evict_sublist : evict limit key es <+ es := by
  unfold evict
  split
  · split
    · exact filter_sublist
    · exact .refl _
  · exact .refl _

theorem mem_evict (hn : (es.map Prod.fst).Nodup) (h : e ∈ es) : e ∈ evict limit key es ∨
    es.lookup key = none ∧ limit ≤ es.length ∧ ∀ other ∈ es, e.2.sequence ≤ other.2.sequence := by
  unfold evict
  split
  · next hf =>
    split
    · next oldest ho =>
      by_cases he : e.1 = oldest.1
      · -- keys are unique, so the entry is the one that was used first
        obtain rfl := inj_on_of_nodup_map hn h (argmin_mem ho) he
        rw [Bool.and_eq_true, Option.isNone_iff_eq_none, decide_eq_true_eq] at hf
        exact .inr ⟨hf.1, hf.2, fun other hm =>
          le_of_mem_argmin (f := fun e : K × Window => e.2.sequence) hm ho⟩
      · exact .inl (mem_filter.2 ⟨h, decide_eq_true he⟩)
    · exact .inl h
  · exact .inl h

theorem allowAt_entries (rate : Rate) (limit : ℕ) (store : Store K) (key : K) (now : ℕ) :
    ∃ window,
      (allowAt rate limit store key now).2.entries =
        put (evict limit key (retain now store.entries)) key window := by
  rw [allowAt]
  split <;> exact ⟨_, rfl⟩

theorem keys_availableAt (other : K) :
    other ∈ (availableAt rate store key now).2.keys ↔ other ∈ store.keys := by
  rw [availableAt]
  cases hf : store.entries.lookup key with
  | none => exact Iff.rfl
  | some fd =>
    obtain ⟨pre, after, hs, -⟩ := lookup_eq_some_iff.1 hf
    refine keys_put.trans (or_iff_right_of_imp ?_)
    rintro rfl
    simp [hs]

theorem step_bounded (hn : s.store.keys.Nodup) (hl : s.store.entries.length ≤ max limit 1) :
    (s.next rate limit call).store.keys.Nodup ∧
      (s.next rate limit call).store.entries.length ≤ max limit 1 := by
  simp only [System.next, serve]
  split
  · obtain ⟨window, he⟩ := allowAt_entries rate limit s.store call.key call.now
    rw [Store.keys, he]
    refine ⟨nodup_put (hn.sublist ?_) _, ?_⟩
    · exact (evict_sublist.trans filter_sublist).map _
    · exact length_put_evict_le ((length_filter_le _ _).trans hl)
  · rw [availableAt]
    cases hf : s.store.entries.lookup call.key with
    | none => exact ⟨hn, hl⟩
    | some fd => exact ⟨nodup_put hn _, (length_put_le hf).trans hl⟩

namespace Peer

def pair : Rate := ⟨1, 1⟩

def allow (seconds : ℕ) : Call String := ⟨.allow, "peer", seconds * 1000 * millisecond⟩

def after (calls : List (Call String)) : System String := calls.foldl (System.next pair 8) {}

end Peer

namespace Sample

def ask (key : String) (now : ℕ) : Call String := ⟨.allow, key, now⟩

/-- A store for two keys. The first was asked for again after the second. -/
def full : System String := [ask "a" 0, ask "b" 1, ask "a" 2].foldl (System.next Peer.pair 2) {}

end Sample

open Peer in
/-- The peer spends its bucket, waits a minute in which half of it is earned, and finds
it full. -/
theorem Counterexample.burst_given_back : Reachable (· = {}) (Step pair 8) (fun _ _ => True)
      (after [allow 0, allow 0, allow 60, allow 60]) ∧
    (usedKeys (after [allow 0, allow 0, allow 60, allow 60]).history).card < 8 ∧
    granted (after [allow 0, allow 0, allow 60, allow 60]).history "peer" 0 (0 + minute) = 4 ∧
    60000 * (pair.perMinute + pair.burst) + minute / millisecond * pair.perMinute = 60000 * 3 := by
  refine ⟨?_, by decide +kernel, by decide +kernel, by decide +kernel⟩
  have h₀ : Reachable (· = ({} : System String)) (Step pair 8) (fun _ _ => True) {} := .initial rfl
  have h₁ := h₀.step (l := allow 0) trivial ⟨by decide +kernel, rfl⟩
  have h₂ := h₁.step (l := allow 0) trivial ⟨by decide +kernel, rfl⟩
  have h₃ := h₂.step (l := allow 60) trivial ⟨by decide +kernel, rfl⟩
  exact h₃.step (l := allow 60) trivial ⟨by decide +kernel, rfl⟩

theorem burstless_peer_keeps_its_share :
    FullWhenDropped ⟨1, 0⟩ (System.next ⟨1, 0⟩ 8 {} (Peer.allow 0)) (Peer.allow 60) :=
  fullWhenDropped_of_burstless rfl _ _

open Peer in
theorem refused_before_the_minute :
    granted (after [allow 0, allow 0, allow 59]).history "peer" 0 (0 + minute) = 2 ∧
    60000 * granted (after [allow 0, allow 0, allow 59]).history "peer" 0 (0 + minute) ≤
      60000 * (pair.perMinute + pair.burst) + minute / millisecond * pair.perMinute := by
  have h₀ : Reachable (· = ({} : System String)) (Step pair 8) (FullWhenDropped pair) {} :=
    .initial rfl
  have h₁ := h₀.step (l := allow 0) (fun _ _ hm => absurd hm not_mem_nil) ⟨by decide +kernel, rfl⟩
  have h₂ := h₁.step (l := allow 0) (fun _ => by decide +kernel) ⟨by decide +kernel, rfl⟩
  have h₃ := h₂.step (l := allow 59) (fun _ => by decide +kernel) ⟨by decide +kernel, rfl⟩
  exact ⟨by decide +kernel, rate_limit_bounds h₃ (by decide +kernel) "peer" 0 minute⟩

end RateLimits
