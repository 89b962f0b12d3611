import Luminate.Interpolation
import Mathlib.Data.Nat.ModEq

/-! # Order and arcs of interpolated values

How the rounded values of a transition move while its progress grows: numbers never
step back, except by the rounding of the smooth curve, and hues stay on their arc. -/
namespace InterpolationBounds

open Interpolation RoundedPath

/-- The value `n` of `d` parts into a transition. -/
def transitionValue (f : TransitionFunction) (start finish n d : ℕ) :
    Except TransitionInterpolationError ℕ := do
  let (p, q) ← easeProgress f n d
  interpolateU32 start finish p q

def FallsAtMost (slack : ℕ) (f : TransitionFunction) (start finish n n' d : ℕ) : Prop :=
  ∃ v v', transitionValue f start finish n d = .ok v ∧
    transitionValue f start finish n' d = .ok v' ∧ v ≤ v' + slack

/-- Over all 64-bit progress and 32-bit values, nothing moves backwards. -/
def NeverFalls (f : TransitionFunction) : Prop :=
  ∀ d n n' start finish, 0 < d → d < 2 ^ 64 → n ≤ n' → n' < 2 ^ 64 → start ≤ finish →
    finish < 2 ^ 32 → FallsAtMost 0 f start finish n n' d

section

variable {f : TransitionFunction} {start finish n n' d : ℕ}

theorem transitionValue_eq (hd : 0 < d) (hs : start ≤ finish) :
    transitionValue f start finish n d = .ok (start + advance (finish - start)
      (easedProgress f (advance progressScale (min n d) d)) progressScale) := by
  have hx : advance progressScale (min n d) d ≤ progressScale :=
    advance_le hd progressScale (Nat.min_le_right n d)
  have he : easeProgress f n d =
      .ok (easedProgress f (advance progressScale (min n d) d), progressScale) := by
    rw [easeProgress, if_neg (by omega), advance, Nat.mul_comm progressScale]
  have hs0 : 0 < progressScale := by decide
  rw [transitionValue, he]
  apply (interpolateU32_eq start finish _ hs0).trans
  rw [Nat.min_eq_left (easedProgress_le hx), path, if_pos hs]

theorem easedProgress_mono (hf : f ≠ .easeInOut) (h : x ≤ y) :
    easedProgress f x ≤ easedProgress f y := by
  cases f with
  | linear => exact h
  | easeIn =>
    apply Nat.div_le_div_right
    exact Nat.mul_le_mul (Nat.mul_le_mul h h) h
  | easeOut =>
    have hc : progressScale - y ≤ progressScale - x := Nat.sub_le_sub_left h _
    apply Nat.sub_le_sub_left
    apply Nat.div_le_div_right
    exact Nat.mul_le_mul (Nat.mul_le_mul hc hc) hc
  | easeInOut => exact absurd rfl hf

/-- The two truncated terms of the smooth curve disagree by one unit at most. -/
theorem easedProgress_falls (h : x ≤ y) (hy : y ≤ progressScale) :
    easedProgress f x ≤ easedProgress f y + 1 := by
  by_cases hf : f = .easeInOut
  · subst hf
    simp only [easedProgress]
    have hs : 0 < progressScale := by decide
    generalize progressScale = s at *
    have hc : 3 * x * x * s + 2 * y * y * y ≤ 3 * y * y * s + 2 * x * x * x := by
      obtain ⟨k, rfl⟩ := Nat.exists_eq_add_of_le h
      obtain ⟨m, rfl⟩ := Nat.exists_eq_add_of_le hy
      nlinarith [Nat.zero_le (x * k * k), Nat.zero_le (k * k * k), Nat.zero_le (x * k * m),
        Nat.zero_le (k * k * m)]
    have hsc : ∀ z, 3 * z * z / s = 3 * z * z * s / (s * s) :=
      fun z => (Nat.mul_div_mul_right _ _ hs).symm
    have hl : 3 * x * x * s / (s * s) + 2 * y * y * y / (s * s) ≤
        (3 * x * x * s + 2 * y * y * y) / (s * s) := Nat.div_add_div_le_add_div
    have hm := Nat.div_le_div_right (c := s * s) hc
    have hr := Nat.add_div_le_div_add_div_add_one (3 * y * y * s) (2 * x * x * x) (s * s)
    rw [hsc, hsc]
    omega
  · exact (easedProgress_mono hf h).trans (Nat.le_succ _)

theorem falls_at_most (hd : 0 < d) (hn : n ≤ n') (hs : start ≤ finish) :
    FallsAtMost ((finish - start) / progressScale + 1) f start finish n n' d := by
  refine ⟨_, _, transitionValue_eq hd hs, transitionValue_eq hd hs, ?_⟩
  have hx : advance progressScale (min n d) d ≤ advance progressScale (min n' d) d :=
    advance_mono (by omega)
  have hy := advance_le hd progressScale (Nat.min_le_right n' d)
  have he : advance (finish - start) _ progressScale ≤ advance (finish - start) _ progressScale :=
    advance_mono (easedProgress_falls (f := f) hx hy)
  have hu := advance_succ (d := progressScale) (by decide) (finish - start)
    (easedProgress f (advance progressScale (min n' d) d))
  omega

theorem smooth_value_before :
    transitionValue .easeInOut 0 4294967295 793700 1000000000 = .ok 8113 := by
  rw [transitionValue_eq (by decide) (by decide)]
  norm_num [easedProgress, advance, progressScale]

theorem smooth_value_after :
    transitionValue .easeInOut 0 4294967295 793701 1000000000 = .ok 8109 := by
  rw [transitionValue_eq (by decide) (by decide)]
  norm_num [easedProgress, advance, progressScale]

/-- A transition of any curve but the smooth one never moves backwards; the smooth one
falls by no more than the rounding of one unit of its scale. -/
theorem never_falls_iff (f : TransitionFunction) : (NeverFalls f ↔ f ≠ .easeInOut) ∧
      ∀ d n n' start finish, 0 < d → n ≤ n' → start ≤ finish →
        FallsAtMost ((finish - start) / progressScale + 1) f start finish n n' d := by
  refine ⟨⟨?_, ?_⟩, fun d n n' start finish => falls_at_most⟩
  · rintro h rfl
    obtain ⟨v, v', hv, hv', hle⟩ := h 1000000000 793700 793701 0 4294967295 (by norm_num)
      (by norm_num) (by norm_num) (by norm_num) (by norm_num) (by norm_num)
    cases smooth_value_before.symm.trans hv
    cases smooth_value_after.symm.trans hv'
    omega
  · intro hf d n n' start finish hd _ hn _ hs _
    refine ⟨_, _, transitionValue_eq hd hs, transitionValue_eq hd hs, ?_⟩
    rw [Nat.add_zero]
    apply Nat.add_le_add_left
    apply advance_mono
    apply easedProgress_mono hf
    apply advance_mono
    omega

/-- In one of 10⁹ parts of the smooth curve the eased progress falls from 1889 to 1888,
and with it the value. -/
theorem smooth_transition_falls :
    ¬ FallsAtMost 0 .easeInOut 0 4294967295 793700 793701 1000000000 := by
  rintro ⟨v, v', hv, hv', hle⟩
  cases smooth_value_before.symm.trans hv
  cases smooth_value_after.symm.trans hv'
  omega

end

/-- How far `b` lies ahead of `a` on a circle of `m` hues. -/
def arcLength (m a b : ℕ) : ℕ := (b + m - a) % m

/-- `v` lies on the arc of `len` steps ahead from `a` to `b`. -/
def OnArc (m a b len v : ℕ) : Prop := len < m ∧ (a + len) % m = b ∧ ∃ k ≤ len, (a + k) % m = v

/-- The arc from `start` to `finish` in the direction; a falling hue passes the rising arc
from `finish` to `start`. -/
def FollowsArc (m start finish v : ℕ) : HueDirection → Prop
  | .increasing => ∃ len, OnArc m start finish len v
  | .decreasing => ∃ len, OnArc m finish start len v
  | .shortest => ∃ len, len * 2 ≤ m ∧ (OnArc m start finish len v ∨ OnArc m finish start len v)

/-- The 64-bit and the signed 128-bit values `interpolate_hue` computes on the way. -/
def hueIntermediates (start finish maximum n d : ℕ) (direction : HueDirection) : List ℕ × List ℤ :=
  let m := maximum + 1
  let signed := hueDistance start finish m direction
  let scaled := signed * min n d
  ([m, finish + m, start + m, arcLength m start finish * 2],
    [signed, scaled, scaled + (d / 2 : ℕ), scaled - (d / 2 : ℕ), start + roundedShare signed
      (min n d) d])

section

variable {start finish n d v : ℕ} {dir : HueDirection}

theorem arcLength_spec (ha : a < m) (hb : b < m) : arcLength m a b < m ∧
    (a + arcLength m a b = b ∨ a + arcLength m a b = b + m) := by
  refine ⟨Nat.mod_lt _ (by omega), ?_⟩
  by_cases h : a ≤ b
  · left
    rw [arcLength, show b + m - a = b - a + m by omega, Nat.add_mod_right,
      Nat.mod_eq_of_lt (by omega)]
    omega
  · right
    rw [arcLength, Nat.mod_eq_of_lt (by omega)]
    omega

theorem hueDistance_cases (dir : HueDirection) (ha : start < m) (hb : finish < m) :
    (hueDistance start finish m dir = arcLength m start finish ∧
      (dir = .increasing ∨ dir = .shortest ∧ arcLength m start finish * 2 ≤ m)) ∨
    (hueDistance start finish m dir = -(arcLength m finish start : ℤ) ∧
      (dir = .decreasing ∨ dir = .shortest ∧ arcLength m finish start * 2 ≤ m)) := by
  cases dir with
  | increasing => exact .inl ⟨rfl, .inl rfl⟩
  | decreasing => exact .inr ⟨rfl, .inl rfl⟩
  | shortest =>
    have hf := arcLength_spec ha hb
    have hr := arcLength_spec hb ha
    simp only [hueDistance, ← arcLength.eq_def]
    split
    · next h => exact .inl ⟨rfl, .inr ⟨trivial, h⟩⟩
    · exact .inr ⟨by omega, .inr ⟨trivial, by omega⟩⟩

theorem onArc_ahead (ha : start < m) (hb : finish < m) (hd : 0 < d) (v : ℕ)
    (hv : v = (start + advance (arcLength m start finish) (min n d) d) % m) :
    OnArc m start finish (arcLength m start finish) v ∧ (n = 0 → v = start) ∧
      (d ≤ n → v = finish) := by
  obtain ⟨hl, hen⟩ := arcLength_spec ha hb
  have hr : (start + arcLength m start finish) % m = finish := by
    obtain he | he := hen
    · rw [he, Nat.mod_eq_of_lt hb]
    · rw [he, Nat.add_mod_right, Nat.mod_eq_of_lt hb]
  refine ⟨⟨hl, hr, _, advance_le hd _ (Nat.min_le_right n d), hv.symm⟩, ?_, ?_⟩
  · rintro rfl
    rw [hv, Nat.zero_min, advance_zero hd, Nat.add_zero, Nat.mod_eq_of_lt ha]
  · intro hn
    rw [hv, Nat.min_eq_right hn, advance_self hd, hr]

theorem onArc_back (ha : start < m) (hb : finish < m) (hd : 0 < d) (v : ℕ)
    (hv : (v : ℤ) = (start - advance (arcLength m finish start) (min n d) d : ℤ) % m) :
    OnArc m finish start (arcLength m finish start) v ∧ (n = 0 → v = start) ∧
      (d ≤ n → v = finish) := by
  obtain ⟨hl, hen⟩ := arcLength_spec hb ha
  have hk := advance_le hd (arcLength m finish start) (Nat.min_le_right n d)
  have hr : (finish + arcLength m finish start) % m = start := by
    obtain he | he := hen
    · rw [he, Nat.mod_eq_of_lt ha]
    · rw [he, Nat.add_mod_right, Nat.mod_eq_of_lt ha]
  -- the falling hue is as far ahead of `finish` as the arc is not yet passed
  have hva : v = (finish + (arcLength m finish start -
      advance (arcLength m finish start) (min n d) d)) % m := by
    zify [hk]
    rw [hv]
    obtain he | he := hen
    · congr 1
      omega
    · rw [← Int.add_emod_right]
      congr 1
      omega
  refine ⟨⟨hl, hr, _, Nat.sub_le _ _, hva.symm⟩, ?_, ?_⟩
  · rintro rfl
    rw [hva, Nat.zero_min, advance_zero hd, Nat.sub_zero, hr]
  · intro hn
    rw [hva, Nat.min_eq_right hn, advance_self hd, Nat.sub_self, Nat.add_zero, Nat.mod_eq_of_lt hb]

def FitsWords (values : List ℕ × List ℤ) : Prop :=
  (∀ x ∈ values.1, x < 2 ^ 64) ∧ ∀ z ∈ values.2, -2 ^ 127 ≤ z ∧ z < 2 ^ 127

theorem natAbs_roundedShare_le (z : ℤ) (hd : 0 < d) (hn : n ≤ d) :
    (roundedShare z n d).natAbs ≤ z.natAbs := by
  obtain ⟨k, rfl | rfl⟩ := Int.eq_nat_or_neg z
  · exact advance_le hd k hn
  · rw [roundedShare_neg k n hd, Int.natAbs_neg, Int.natAbs_neg]
    exact advance_le hd k hn

theorem hueIntermediates_fit (hs : start ≤ mx) (hf : finish ≤ mx)
    (hm : mx < 2 ^ 32) (hd : 0 < d) (hw : d < 2 ^ 64) :
    FitsWords (hueIntermediates start finish mx n d dir) := by
  have ha : start < mx + 1 := by omega
  have hb : finish < mx + 1 := by omega
  have hl := (arcLength_spec ha hb).1
  have hr := (arcLength_spec hb ha).1
  have hsi : (hueDistance start finish (mx + 1) dir).natAbs ≤ mx := by
    obtain ⟨he, _⟩ | ⟨he, _⟩ := hueDistance_cases dir ha hb <;> omega
  have hro := natAbs_roundedShare_le (hueDistance start finish (mx + 1) dir) hd
    (Nat.min_le_right n d)
  have hsc : (hueDistance start finish (mx + 1) dir * (min n d : ℕ)).natAbs ≤
      (2 ^ 32 - 1) * (2 ^ 64 - 1) := by
    rw [Int.natAbs_mul]
    exact Nat.mul_le_mul (by omega) (by omega)
  simp only [FitsWords, hueIntermediates, List.forall_mem_cons]
  refine ⟨⟨?_, ?_, ?_, ?_, by simp⟩, ?_, ?_, ?_, ?_, ?_, by simp⟩ <;> omega

theorem interpolateHue_arc (hs : start ≤ mx) (hf : finish ≤ mx) (hd : 0 < d) :
    ∃ v ≤ mx, interpolateHue start finish mx n d dir = .ok v ∧ (n = 0 → v = start) ∧
      (d ≤ n → v = finish) ∧ FollowsArc (mx + 1) start finish v dir := by
  have ha : start < mx + 1 := by omega
  have hb : finish < mx + 1 := by omega
  obtain ⟨v, hv, hok⟩ := interpolateHue_le hd
  refine ⟨v, hv, hok, ?_⟩
  rw [interpolateHue, if_neg (by omega), Nat.mod_eq_of_lt ha, Nat.mod_eq_of_lt hb] at hok
  have hva := Except.ok.inj hok
  obtain ⟨he, hdi⟩ | ⟨he, hdi⟩ := hueDistance_cases dir ha hb
  · rw [he] at hva
    obtain ⟨har, hen⟩ := onArc_ahead ha hb hd v (by rw [← hva]; norm_cast)
    refine ⟨hen.1, hen.2, ?_⟩
    obtain rfl | ⟨rfl, hsh⟩ := hdi
    · exact ⟨_, har⟩
    · exact ⟨_, hsh, .inl har⟩
  · rw [he, roundedShare_neg _ _ hd, ← sub_eq_add_neg] at hva
    have hn := Int.emod_nonneg (start - advance (arcLength (mx + 1) finish start)
      (min n d) d : ℤ) (show ((mx + 1 : ℕ) : ℤ) ≠ 0 by omega)
    obtain ⟨har, hen⟩ := onArc_back ha hb hd v (by rw [← hva, Int.toNat_of_nonneg hn])
    refine ⟨hen.1, hen.2, ?_⟩
    obtain rfl | ⟨rfl, hsh⟩ := hdi
    · exact ⟨_, har⟩
    · exact ⟨_, hsh, .inr har⟩

/-- The interpolated hue is on the circle, starts and ends where it should, stays on its
arc, and nothing overflows on the way. -/
theorem interpolateHue_follows_arc (start finish maximum n d : ℕ) (dir : HueDirection)
    (hs : start ≤ maximum) (hf : finish ≤ maximum) (hm : maximum < 2 ^ 32) (hd : 0 < d)
    (hw : d < 2 ^ 64) : (∃ v ≤ maximum, interpolateHue start finish maximum n d dir = .ok v ∧
      (n = 0 → v = start) ∧ (d ≤ n → v = finish) ∧ FollowsArc (maximum + 1) start finish v dir) ∧
    FitsWords (hueIntermediates start finish maximum n d dir) := by
  exact ⟨interpolateHue_arc hs hf hd, hueIntermediates_fit hs hf hm hd hw⟩

/-- The short way from 350 to 10 degrees crosses zero. -/
theorem hue_wraps_half_way : ∃ v ≤ 359, interpolateHue 350 10 359 1 2 .shortest = .ok v ∧
      FollowsArc 360 350 10 v .shortest := by
  obtain ⟨⟨v, hv, hok, _, _, ha⟩, _⟩ := interpolateHue_follows_arc 350 10 359 1 2 .shortest
    (by decide) (by decide) (by decide) (by decide) (by decide)
  exact ⟨v, hv, hok, ha⟩

end

section

open DeviceModel List

variable {p hue : ℕ → ℕ → ℕ} {a b : Effect} {mx n d : ℕ}

def HueWithin (hueMaximum : ℕ) : Effect → Prop
  | .static (.hsv hue _ _) | .static (.hsl hue _ _) => hue ≤ hueMaximum
  | _ => True

section

variable (hp : ∀ x y, p x y = bif e then x else y)

include hp

theorem mixColours_end (hl : start.length = finish.length) :
    mixColours p start finish = bif e then start else finish := by
  have hm : (fun pair : Rgb × Rgb => mixRgb p pair.1 pair.2) =
      fun pair => bif e then pair.1 else pair.2 := by
    funext pair
    cases e <;> simp [mixRgb, hp]
  rw [mixColours, hm]
  cases e with
  | false => exact map_snd_zip hl.ge
  | true => exact map_fst_zip hl.le

theorem mixChannels_end (hn : start.map (·.channel) = finish.map (·.channel)) :
    mixChannels p start finish = bif e then start else finish := by
  induction start generalizing finish with
  | nil =>
    rw [map_nil, eq_comm, map_eq_nil_iff] at hn
    rw [hn, Bool.cond_self]
    rfl
  | cons first rest ih =>
    obtain ⟨other, others, rfl, ho, hr⟩ := map_eq_cons_iff.1 hn.symm
    have hi := ih hr.symm
    rw [mixChannels] at hi ⊢
    rw [zip_cons_cons, map_cons, hi, hp]
    cases e with
    | false => exact congrArg (· :: others) (congrArg (ColourChannelValue.mk · _) ho.symm)
    | true => rfl

theorem map₂_end (hs : x.isSome = y.isSome) : Option.map₂ p x y = bif e then x else y := by
  cases x <;> cases y <;> cases e <;> simp_all

theorem mixEffect_end (h : SameStructure a b)
    (hh : ∀ x ≤ mx, ∀ y ≤ mx, hue x y = bif e then x else y) (ha : HueWithin mx a)
    (hb : HueWithin mx b) : mixEffect p hue a b = bif e then a else b := by
  cases h with
  | static hc =>
    cases hc with
    | additive hn =>
      rw [mixEffect, mixColour, mixChannels_end hp hn]
      cases e <;> rfl
    | hsv | hsl =>
      rw [mixEffect, mixColour, hp, hp, hh _ ha _ hb]
      cases e <;> rfl
    | cct | monochrome =>
      rw [mixEffect, mixColour, hp]
      cases e <;> rfl
  | breathe | pulse | strobe | scanner =>
    rw [mixEffect, mixRgb, hp, hp, hp, hp]
    cases e <;> simp
  | morph hl =>
    rw [mixEffect, mixColours_end hp hl, hp]
    cases e <;> rfl
  | spectrum | rainbow =>
    rw [mixEffect, hp]
    cases e <;> rfl
  | hardware hs =>
    rw [mixEffect, mixArguments, mixColours_end hp hs.colours, map₂_end hp hs.speed,
      map₂_end hp hs.durationMs, map₂_end hp hs.brightness, hs.direction, hs.choice]
    cases e with
    | false => rfl
    | true => rw [← hs.direction, ← hs.choice]; rfl

end

theorem sameStructure_mix (h : SameStructure a b) : SameStructure a (mixEffect p hue a b) := by
  cases h with
  | static hc =>
    cases hc with
    | additive hn => exact .static (.additive (channel_names hn).symm)
    | hsv => exact .static .hsv
    | hsl => exact .static .hsl
    | cct => exact .static .cct
    | monochrome => exact .static .monochrome
  | breathe => exact .breathe
  | pulse => exact .pulse
  | strobe => exact .strobe
  | scanner => exact .scanner
  | morph hl => exact .morph (by simp [mixColours, hl])
  | spectrum => exact .spectrum
  | rainbow => exact .rainbow
  | hardware hs =>
    have hi {x y : Option ℕ} (hxy : x.isSome = y.isSome) :
        x.isSome = (Option.map₂ p x y).isSome := by
      cases x <;> cases y <;> simp_all
    exact .hardware ⟨rfl, rfl, by simp [mixArguments, mixColours, hs.colours], hi hs.speed,
      hi hs.durationMs, hi hs.brightness⟩

/-- Numbers are taken by a function whose values lie between its arguments, so no RGB
component wraps around. -/
theorem interpolateEffect_exact (palette : Palette) (dir : HueDirection) (hv : ValidColour a)
    (ha : HueWithin mx a) (hb : HueWithin mx b) (hd : 0 < d) : (SameStructure a b →
      (∀ n, ∃ p hue, (∀ x y, min x y ≤ p x y ∧ p x y ≤ max x y) ∧
        interpolateEffect palette a b n d mx (.encoded dir) = .ok (mixEffect p hue a b) ∧
        SameStructure a (mixEffect p hue a b)) ∧
      interpolateEffect palette a b 0 d mx (.encoded dir) = .ok a ∧
      ∀ n ≥ d, interpolateEffect palette a b n d mx (.encoded dir) = .ok b) ∧
    (¬ SameStructure a b →
      ∀ n, ∃ error, interpolateEffect palette a b n d mx (.encoded dir) = .error error) := by
  refine ⟨fun hs => ⟨fun n => ?_, ?_, fun n hn => ?_⟩, fun hs n => ?_⟩
  · have hn := Nat.min_le_right n d
    exact ⟨_, _, fun x y => ⟨min_le_path hd hn, path_le_max hd hn⟩, interpolateEffect_eq hs hv hd,
      sameStructure_mix hs⟩
  · rw [interpolateEffect_eq hs hv hd, mixEffect_end (e := true) _ hs _ ha hb]
    · rfl
    · intro x y
      rw [share, Nat.zero_min, path_zero hd]
      rfl
    · intro x hx y hy
      obtain ⟨v, -, hok, hz, -⟩ := interpolateHue_arc hx hy hd
      rw [hueShare, hok, hz rfl]
      rfl
  · rw [interpolateEffect_eq hs hv hd, mixEffect_end (e := false) _ hs _ ha hb]
    · rfl
    · intro x y
      rw [share, Nat.min_eq_right hn, path_self hd]
      rfl
    · intro x hx y hy
      obtain ⟨v, -, hok, -, hz, -⟩ := interpolateHue_arc hx hy hd
      rw [hueShare, hok, hz hn]
      rfl
  · cases h : interpolateEffect palette a b n d mx (.encoded dir) with
    | error error => exact ⟨error, rfl⟩
    | ok eff => exact absurd (sameStructure_of_ok hd h).1 hs

theorem interpolateEffect_exact_static :
    interpolateEffect (fun start _ _ _ => start) (.static (.hsv 350 10 20)) (.static (.hsv 10 30 0))
      0 4 359 (.encoded .shortest) = .ok (.static (.hsv 350 10 20)) :=
  ((interpolateEffect_exact (a := .static (.hsv 350 10 20)) (b := .static (.hsv 10 30 0)) _
    .shortest trivial (show 350 ≤ 359 by decide) (show 10 ≤ 359 by decide) (by decide)).1
    (.static .hsv)).2.1

end

end InterpolationBounds
