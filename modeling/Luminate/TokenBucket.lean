import Mathlib.Data.Nat.Init

/-! # Token buckets

A balance is spent at some times and earned back while time passes, in whole ticks, up
to a capacity. Nobody can spend more in an interval than the capacity and what the
interval earns. -/
namespace TokenBucket

structure Bucket where
  capacity : ℕ
  cost : ℕ
  rate : ℕ
  tick : ℕ

variable {bucket : Bucket} {times : List ℕ} {balance now start stop : ℕ}

def Bucket.earned (bucket : Bucket) (start stop : ℕ) : ℕ :=
  (stop - start) / bucket.tick * bucket.rate

theorem earned_mono (bucket : Bucket) (start : ℕ) (h : stop ≤ later) :
    bucket.earned start stop ≤ bucket.earned start later :=
  Nat.mul_le_mul_right _ (Nat.div_le_div_right (Nat.sub_le_sub_right h start))

theorem earned_add (bucket : Bucket) (hst : start ≤ middle) (hso : middle ≤ stop) :
    bucket.earned start middle + bucket.earned middle stop ≤ bucket.earned start stop := by
  have hd : (middle - start) / bucket.tick + (stop - middle) / bucket.tick ≤
      (stop - start) / bucket.tick := by
    have hs : stop - start = (middle - start) + (stop - middle) := by omega
    rw [hs]
    exact Nat.div_add_div_le_add_div
  calc bucket.earned start middle + bucket.earned middle stop
      = ((middle - start) / bucket.tick + (stop - middle) / bucket.tick) * bucket.rate :=
        (Nat.add_mul _ _ _).symm
    _ ≤ bucket.earned start stop := Nat.mul_le_mul_right _ hd

/-- In no interval is more spent than the capacity and what the interval earns. -/
def Bucket.Bounded (bucket : Bucket) (times : List ℕ) : Prop :=
  ∀ start stop, bucket.cost * times.countP (fun t => start ≤ t ∧ t ≤ stop) ≤
    bucket.capacity + bucket.earned start stop

/-- The balance is what is left after spending at these times. -/
structure Backed (bucket : Bucket) (times : List ℕ) (balance now : ℕ) : Prop where
  past : ∀ t ∈ times, t ≤ now
  capped : balance ≤ bucket.capacity
  backed : ∀ start, start ≤ now →
    bucket.cost * times.countP (start ≤ ·) + balance ≤ bucket.capacity + bucket.earned start now
  bounded : bucket.Bounded times

theorem Backed.new (bucket : Bucket) (now : ℕ) : Backed bucket [] bucket.capacity now where
  past := fun _ h => absurd h List.not_mem_nil
  capped := Nat.le_refl _
  backed := by
    intro start _
    rw [List.countP_nil, Nat.mul_zero, Nat.zero_add]
    exact Nat.le_add_right _ _
  bounded := by
    intro start stop
    rw [List.countP_nil]
    exact Nat.zero_le _

theorem Backed.later (h : Backed bucket times balance now) {later balance' : ℕ}
    (hl : now ≤ later) (he : balance' ≤ balance + bucket.earned now later)
    (hc : balance' ≤ bucket.capacity) : Backed bucket times balance' later where
  past := fun t ht => Nat.le_trans (h.past t ht) hl
  capped := hc
  backed := by
    intro start hs
    by_cases hb : start ≤ now
    · have hba := h.backed start hb
      have ha := earned_add bucket hb hl
      omega
    · -- Nothing has been spent since then.
      have hn : times.countP (start ≤ ·) = 0 := by
        rw [List.countP_eq_zero]
        intro t ht hs
        have hp := h.past t ht
        have hle := of_decide_eq_true hs
        omega
      rw [hn, Nat.mul_zero, Nat.zero_add]
      exact Nat.le_trans hc (Nat.le_add_right _ _)
  bounded := h.bounded

theorem Backed.spend (h : Backed bucket times balance now) (hco : bucket.cost ≤ balance) :
    Backed bucket (now :: times) (balance - bucket.cost) now := by
  have hb : ∀ start, start ≤ now →
      bucket.cost * (now :: times).countP (start ≤ ·) + (balance - bucket.cost) ≤
        bucket.capacity + bucket.earned start now := by
    intro start hs
    have hbe := h.backed start hs
    have hc : (now :: times).countP (start ≤ ·) = times.countP (start ≤ ·) + 1 :=
      List.countP_cons_of_pos (decide_eq_true hs)
    rw [hc, Nat.mul_add]
    omega
  refine ⟨?_, Nat.le_trans (Nat.sub_le _ _) h.capped, hb, ?_⟩
  · exact List.forall_mem_cons.2 ⟨Nat.le_refl _, h.past⟩
  · intro start stop
    by_cases hi : start ≤ now ∧ now ≤ stop
    · -- The interval ends at the newest time or later, so everything since its start counts.
      have hc : (now :: times).countP (fun t => start ≤ t ∧ t ≤ stop) ≤
          (now :: times).countP (start ≤ ·) := by
        refine List.countP_mono_left fun t _ ht => ?_
        exact decide_eq_true (of_decide_eq_true ht).1
      have hsp := hb start hi.1
      have hm := Nat.mul_le_mul_left bucket.cost hc
      have he := earned_mono bucket start hi.2
      omega
    · rw [List.countP_cons_of_neg (by simpa using hi)]
      exact h.bounded start stop

end TokenBucket
