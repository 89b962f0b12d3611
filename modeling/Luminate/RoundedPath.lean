import Mathlib.Data.Nat.Dist
import Mathlib.Tactic.Ring

/-! # Rounded paths between naturals

A path covers a distance in `d` equal steps, each position rounded to the
nearest natural with halves away from the start. -/
namespace RoundedPath

/-- The part of `distance` covered after `n` of `d` steps. -/
def advance (distance n d : ℕ) : ℕ := (distance * n + d / 2) / d

/-- The position after `n` of `d` steps from `a` to `b`. -/
def path (a b n d : ℕ) : ℕ := if a ≤ b then a + advance (b - a) n d else a - advance (a - b) n d

variable {dist a b n d step : ℕ}

theorem advance_mono {m : ℕ} (h : m ≤ n) : advance dist m d ≤ advance dist n d := by
  apply Nat.div_le_div_right
  exact Nat.add_le_add_right (Nat.mul_le_mul_left dist h) _

variable (hd : 0 < d)

include hd

theorem advance_zero : advance dist 0 d = 0 := by
  rw [advance, Nat.mul_zero, Nat.zero_add]
  exact Nat.div_eq_of_lt (Nat.div_lt_self hd (by omega))

theorem advance_self : advance dist d d = dist := by
  rw [advance, Nat.mul_comm, Nat.mul_add_div hd, Nat.div_eq_of_lt (Nat.div_lt_self hd (by omega)),
    Nat.add_zero]

theorem advance_le (dist : ℕ) (hn : n ≤ d) : advance dist n d ≤ dist := by
  calc advance dist n d ≤ advance dist d d := advance_mono hn
    _ = dist := advance_self hd

theorem path_le_max (hn : n ≤ d) : path a b n d ≤ max a b := by
  rw [path]
  split
  · have := advance_le hd (b - a) hn
    omega
  · omega

theorem min_le_path (hn : n ≤ d) : min a b ≤ path a b n d := by
  rw [path]
  split
  · omega
  · have := advance_le hd (a - b) hn
    omega

theorem path_zero : path a b 0 d = a := by
  rw [path, advance_zero hd, advance_zero hd]
  split <;> rfl

theorem path_self : path a b d d = b := by
  rw [path]
  split
  · rw [advance_self hd]
    omega
  · rw [advance_self hd]
    omega

theorem advance_succ (dist n : ℕ) : advance dist (n + 1) d = advance dist n d + dist / d ∨
      advance dist (n + 1) d = advance dist n d + (dist / d + 1) := by
  have hs : dist * (n + 1) + d / 2 = dist * n + d / 2 + dist % d + d * (dist / d) := by
    have := Nat.div_add_mod dist d
    rw [Nat.mul_succ]
    omega
  have hm := Nat.mod_lt dist hd
  rw [advance, hs, Nat.add_mul_div_left _ _ hd, advance]
  generalize dist * n + d / 2 = covered
  have hl : covered / d ≤ (covered + dist % d) / d := Nat.div_le_div_right (by omega)
  have hu : (covered + dist % d) / d ≤ (covered + d) / d := Nat.div_le_div_right (by omega)
  rw [Nat.add_div_right _ hd] at hu
  omega

theorem advance_eq_mul {c : ℕ} (h : ∀ n < d, advance dist (n + 1) d = advance dist n d + c)
    (hn : n ≤ d) : advance dist n d = n * c := by
  induction n with
  | zero => rw [advance_zero hd, Nat.zero_mul]
  | succ n ih => rw [h n hn, ih (by omega), Nat.succ_mul]

theorem advance_of_dvd (h : d * step ∣ dist) : step ∣ advance dist n d := by
  obtain ⟨k, rfl⟩ := h
  rw [advance, show d * step * k * n = d * (step * k * n) by ring, Nat.mul_add_div hd,
    Nat.div_eq_of_lt (Nat.div_lt_self hd (by omega)), Nat.mul_assoc]
  exact Nat.dvd_mul_right step (k * n)

/-- The whole path stays on a grid only where the grid has every natural, or
every single step of the path moves by whole cells. -/
theorem forall_dvd_advance_iff :
    (∀ n ≤ d, step ∣ advance dist n d) ↔ step = 1 ∨ d * step ∣ dist := by
  constructor
  · intro h
    by_cases ho : step = 1
    · exact .inl ho
    right
    have hi : ∀ n < d, ∀ c, advance dist (n + 1) d = advance dist n d + c → step ∣ c := by
      intro n hn c hc
      have hne := h (n + 1) (by omega)
      rw [hc] at hne
      exact (Nat.dvd_add_iff_right (h n (by omega))).2 hne
    -- only one of two consecutive increments can be a multiple of the step
    have he : ¬ (step ∣ dist / d ∧ step ∣ dist / d + 1) := by
      rintro ⟨hle, hr⟩
      exact ho (Nat.dvd_one.1 ((Nat.dvd_add_iff_right hle).2 hr))
    have hl : ∀ c, step ∣ c → (∀ n < d, advance dist (n + 1) d = advance dist n d + c) →
        d * step ∣ dist := by
      intro c hc hsa
      have ht := advance_eq_mul hd hsa le_rfl
      rw [advance_self hd] at ht
      rw [ht]
      exact Nat.mul_dvd_mul_left d hc
    by_cases hw : step ∣ dist / d
    · refine hl _ hw fun n hn => ?_
      rcases advance_succ hd dist n with hs | hs
      · exact hs
      · exact absurd ⟨hw, hi n hn _ hs⟩ he
    · have hm : ∀ n < d, advance dist (n + 1) d = advance dist n d + (dist / d + 1) := by
        intro n hn
        rcases advance_succ hd dist n with hs | hs
        · exact absurd (hi n hn _ hs) hw
        · exact hs
      exact hl _ (hi 0 hd _ (hm 0 hd)) hm
  · rintro (rfl | h) n _
    · exact one_dvd _
    · exact advance_of_dvd hd h

theorem dvd_path_sub_iff {low : ℕ} (hn : n ≤ d) (ha : low ≤ a) (hb : low ≤ b)
    (hg : step ∣ a - low) :
    step ∣ path a b n d - low ↔ step ∣ advance (Nat.dist a b) n d := by
  rw [path]
  split
  · next hle =>
    have hs : a + advance (b - a) n d - low = (a - low) + advance (b - a) n d := by omega
    rw [hs, Nat.dist_eq_sub_of_le hle]
    exact (Nat.dvd_add_iff_right hg).symm
  · next hlt =>
    have hbo := advance_le hd (a - b) hn
    have hs : a - low = (a - advance (a - b) n d - low) + advance (a - b) n d := by omega
    rw [Nat.dist_eq_sub_of_le_right (by omega)]
    rw [hs] at hg
    exact ⟨fun h => (Nat.dvd_add_iff_right h).2 hg, fun h => (Nat.dvd_add_iff_left h).2 hg⟩

end RoundedPath
