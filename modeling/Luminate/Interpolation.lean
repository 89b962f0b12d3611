import Luminate.RoundedPath
import Luminate.Validation
import Mathlib.Tactic.Linarith

/-! # Interpolating effects

`transition.rs` of `luminate-core`: easing, rounding interpolation of numbers,
colours and effects, and snapping to an advertised range. The palette library
that mixes OKLab colours is taken from outside. -/
namespace Interpolation

open Checks DeviceModel Validation List

inductive TransitionFunction where
  | linear | easeIn | easeOut | easeInOut
  deriving DecidableEq

inductive HueDirection where
  | shortest | increasing | decreasing
  deriving DecidableEq

inductive TransitionColourInterpolation where
  | encoded (hueDirection : HueDirection)
  | oklab
  deriving DecidableEq

structure TransitionOptions where
  durationMs : ℕ
  function : TransitionFunction := .linear
  colourInterpolation : TransitionColourInterpolation := .encoded .shortest
  deriving DecidableEq

inductive TransitionInterpolationError where
  | effectIdentity | colourStructure | hardwareStructure | oklabUnsupported
  deriving DecidableEq

def TransitionInterpolationError.text : TransitionInterpolationError → String
  | .effectIdentity => "transition effects have different identities"
  | .colourStructure => "transition colours have incompatible structure"
  | .hardwareStructure => "transition hardware-effect arguments have incompatible structure"
  | .oklabUnsupported => "OKLab interpolation requires an RGB colour encoding"

def progressScale : ℕ := 1000000000

def easedProgress (function : TransitionFunction) (x : ℕ) : ℕ :=
  let complement := progressScale - x
  match function with
  | .linear => x
  | .easeIn => x * x * x / (progressScale * progressScale)
  | .easeOut =>
    progressScale - complement * complement * complement / (progressScale * progressScale)
  | .easeInOut =>
    3 * x * x / progressScale - 2 * x * x * x / (progressScale * progressScale)

def easeProgress (function : TransitionFunction) (numerator denominator : ℕ) :
    Except TransitionInterpolationError (ℕ × ℕ) :=
  if denominator = 0 then .error .hardwareStructure
  else
    let numerator := min numerator denominator
    let x := (numerator * progressScale + denominator / 2) / denominator
    .ok (easedProgress function x, progressScale)

/-- `numerator / denominator` of a signed distance, rounded half away from zero
by truncating division. -/
def roundedShare (distance : ℤ) (numerator denominator : ℕ) : ℤ :=
  let scaled := distance * numerator
  let half : ℤ := (denominator / 2 : ℕ)
  if 0 ≤ scaled then (scaled + half).tdiv denominator else (scaled - half).tdiv denominator

/-- The result lies between the two values, so the source's conversion back to
`u32` cannot fail. -/
def interpolateU32 (start finish numerator denominator : ℕ) :
    Except TransitionInterpolationError ℕ :=
  if denominator = 0 then .error .hardwareStructure
  else
    .ok (start + roundedShare ((finish : ℤ) - start) (min numerator denominator) denominator).toNat

def interpolateU8 (start finish : UInt8) (numerator denominator : ℕ) :
    Except TransitionInterpolationError UInt8 := do
  let value ← interpolateU32 start.toNat finish.toNat numerator denominator
  return UInt8.ofNat value

def snapToDiscreteRangeU32 (value : ℕ) (range : DiscreteRange) :
    Except TransitionInterpolationError ℕ :=
  if range.step = 0 ∨ range.max < range.min then .error .hardwareStructure
  else
    let value := min (max value range.min) range.max
    let offset := value - range.min
    let lower := range.min + offset / range.step * range.step
    let upper := min (lower + range.step) range.max
    .ok (if value - lower < upper - value then lower else upper)

def hueDistance (start finish modulus : ℕ) : HueDirection → ℤ
  | .shortest =>
    let forward := (finish + modulus - start) % modulus
    if forward * 2 ≤ modulus then forward else (forward : ℤ) - modulus
  | .increasing => ((finish + modulus - start) % modulus : ℕ)
  | .decreasing => -((start + modulus - finish) % modulus : ℕ)

def interpolateHue (start finish maximum numerator denominator : ℕ) (direction : HueDirection) :
    Except TransitionInterpolationError ℕ :=
  let modulus := maximum + 1
  let start := start % modulus
  let finish := finish % modulus
  if denominator = 0 then .error .hardwareStructure
  else
    let rounded := roundedShare (hueDistance start finish modulus direction)
      (min numerator denominator) denominator
    .ok ((start + rounded) % modulus).toNat

def isAdditive : ColourChannel → Bool
  | .red | .green | .blue | .white | .warmWhite | .coolWhite | .amber | .ultraviolet => true
  | .hue | .saturation | .value | .lightness | .temperature | .intensity => false

inductive ColourError where
  | emptyAdditive
  | duplicateAdditiveChannel (channel : ColourChannel)
  | nonAdditiveChannel (channel : ColourChannel)
  deriving DecidableEq

def ColourError.text : ColourError → String
  | .emptyAdditive => "additive colour has no channels"
  | .duplicateAdditiveChannel channel =>
    "additive colour repeats the " ++ channelDebug channel ++ " channel"
  | .nonAdditiveChannel channel =>
    channelDebug channel ++ " is not an additive emitter channel"

def validateAdditiveNames (seen : List ColourChannel) : List ColourChannel → Except ColourError Unit
  | [] => .ok ()
  | channel :: rest => do
    ensure (isAdditive channel) (.nonAdditiveChannel channel)
    ensure (channel ∉ seen) (.duplicateAdditiveChannel channel)
    validateAdditiveNames (channel :: seen) rest

def additiveColour (channels : List ColourChannelValue) : Except ColourError Colour := do
  ensure (!channels.isEmpty) .emptyAdditive
  validateAdditiveNames [] (channels.map (·.channel))
  return .additive channels

/-- How the palette library mixes two RGB colours at a fraction through OKLab. -/
abbrev Palette := Rgb → Rgb → ℕ → ℕ → Rgb

def interpolateRgbEncoded (start finish : Rgb) (numerator denominator : ℕ) :
    Except TransitionInterpolationError Rgb := do
  let r ← interpolateU8 start.r finish.r numerator denominator
  let g ← interpolateU8 start.g finish.g numerator denominator
  let b ← interpolateU8 start.b finish.b numerator denominator
  return ⟨r, g, b⟩

section

variable (palette : Palette)

def interpolateRgbOklab (start finish : Rgb) (numerator denominator : ℕ) :
    Except TransitionInterpolationError Rgb :=
  if denominator = 0 then .error .hardwareStructure
  else if numerator = 0 then .ok start
  else if denominator ≤ numerator then .ok finish
  else .ok (palette start finish numerator denominator)

def interpolateRgb (start finish : Rgb) (numerator denominator : ℕ) :
    TransitionColourInterpolation → Except TransitionInterpolationError Rgb
  | .encoded _ => interpolateRgbEncoded start finish numerator denominator
  | .oklab => interpolateRgbOklab palette start finish numerator denominator

/-- An additive colour of exactly the three 8-bit RGB channels, in order. -/
def rgb8 : List ColourChannelValue → Option Rgb
  | [red, green, blue] =>
    if red.channel = .red ∧ green.channel = .green ∧ blue.channel = .blue ∧
        red.value ≤ 255 ∧ green.value ≤ 255 ∧ blue.value ≤ 255 then
      some ⟨.ofNat red.value, .ofNat green.value, .ofNat blue.value⟩
    else none
  | _ => none

def interpolateAdditiveOklab (start finish : List ColourChannelValue) (numerator denominator : ℕ) :
    Except TransitionInterpolationError Colour :=
  match rgb8 start, rgb8 finish with
  | some startRgb, some finishRgb => do
    let rgb ← interpolateRgbOklab palette startRgb finishRgb numerator denominator
    return Colour.rgb rgb
  | _, _ => .error .oklabUnsupported

def interpolateChannel (numerator denominator : ℕ)
    (channels : ColourChannelValue × ColourChannelValue) :
    Except TransitionInterpolationError ColourChannelValue := do
  let value ← interpolateU32 channels.1.value channels.2.value numerator denominator
  return ⟨channels.1.channel, value⟩

def interpolateColour (start finish : Colour) (numerator denominator hueMaximum : ℕ) :
    TransitionColourInterpolation → Except TransitionInterpolationError Colour
  | .oklab =>
    match start, finish with
    | .additive start, .additive finish =>
      interpolateAdditiveOklab palette start finish numerator denominator
    | _, _ => .error .oklabUnsupported
  | .encoded direction =>
    match start, finish with
    | .additive start, .additive finish =>
      if start.map (·.channel) = finish.map (·.channel) then do
        let channels ← (start.zip finish).mapM (interpolateChannel numerator denominator)
        (additiveColour channels).mapError fun _ => .colourStructure
      else .error .colourStructure
    | .hsv hue saturation value, .hsv hue' saturation' value' => do
      let hue ← interpolateHue hue hue' hueMaximum numerator denominator direction
      let saturation ← interpolateU32 saturation saturation' numerator denominator
      let value ← interpolateU32 value value' numerator denominator
      return .hsv hue saturation value
    | .hsl hue saturation lightness, .hsl hue' saturation' lightness' => do
      let hue ← interpolateHue hue hue' hueMaximum numerator denominator direction
      let saturation ← interpolateU32 saturation saturation' numerator denominator
      let lightness ← interpolateU32 lightness lightness' numerator denominator
      return .hsl hue saturation lightness
    | .cct kelvin, .cct kelvin' => do
      let kelvin ← interpolateU32 kelvin kelvin' numerator denominator
      return .cct kelvin
    | .monochrome intensity, .monochrome intensity' => do
      let intensity ← interpolateU32 intensity intensity' numerator denominator
      return .monochrome intensity
    | _, _ => .error .colourStructure

/-- `zip`, `map` and `transpose` of two optional arguments. -/
def interpolateOptional (start finish : Option ℕ) (numerator denominator : ℕ) :
    Except TransitionInterpolationError (Option ℕ) :=
  match start, finish with
  | some start, some finish => do
    let value ← interpolateU32 start finish numerator denominator
    return some value
  | _, _ => .ok none

def sameStructure (start finish : EffectArguments) : Bool :=
  start.direction == finish.direction && start.choice == finish.choice &&
    start.colours.length == finish.colours.length &&
    start.speed.isSome == finish.speed.isSome &&
    start.durationMs.isSome == finish.durationMs.isSome &&
    start.brightness.isSome == finish.brightness.isSome

def interpolateColours (start finish : List Rgb) (numerator denominator : ℕ)
    (interpolation : TransitionColourInterpolation) :
    Except TransitionInterpolationError (List Rgb) :=
  (start.zip finish).mapM fun pair =>
    interpolateRgb palette pair.1 pair.2 numerator denominator interpolation

def interpolateArguments (start finish : EffectArguments) (numerator denominator : ℕ)
    (interpolation : TransitionColourInterpolation) :
    Except TransitionInterpolationError EffectArguments :=
  if sameStructure start finish then do
    let colours ← interpolateColours palette start.colours finish.colours numerator denominator
      interpolation
    let speed ← interpolateOptional start.speed finish.speed numerator denominator
    let durationMs ← interpolateOptional start.durationMs finish.durationMs numerator denominator
    let brightness ← interpolateOptional start.brightness finish.brightness numerator denominator
    return { colours, speed, direction := start.direction, durationMs, brightness,
             choice := start.choice }
  else .error .hardwareStructure

/-- The four effects with one colour and a period. -/
def interpolatePeriodic (effect : Rgb → ℕ → Effect) (colour colour' : Rgb)
    (period period' numerator denominator : ℕ) (interpolation : TransitionColourInterpolation) :
    Except TransitionInterpolationError Effect := do
  let colour ← interpolateRgb palette colour colour' numerator denominator interpolation
  let period ← interpolateU32 period period' numerator denominator
  return effect colour period

def interpolateEffect (start finish : Effect) (numerator denominator hueMaximum : ℕ)
    (interpolation : TransitionColourInterpolation) : Except TransitionInterpolationError Effect :=
  match start, finish with
  | .static start, .static finish => do
    let colour ← interpolateColour palette start finish numerator denominator hueMaximum
      interpolation
    return .static colour
  | .breathe colour period, .breathe colour' period' =>
    interpolatePeriodic palette .breathe colour colour' period period' numerator denominator
      interpolation
  | .pulse colour period, .pulse colour' period' =>
    interpolatePeriodic palette .pulse colour colour' period period' numerator denominator
      interpolation
  | .strobe colour period, .strobe colour' period' =>
    interpolatePeriodic palette .strobe colour colour' period period' numerator denominator
      interpolation
  | .scanner colour period, .scanner colour' period' =>
    interpolatePeriodic palette .scanner colour colour' period period' numerator denominator
      interpolation
  | .morph colours period, .morph colours' period' =>
    if colours.length = colours'.length then do
      let colours ← interpolateColours palette colours colours' numerator denominator interpolation
      let period ← interpolateU32 period period' numerator denominator
      return .morph colours period
    else .error .effectIdentity
  | .spectrum period, .spectrum period' => do
    let period ← interpolateU32 period period' numerator denominator
    return .spectrum period
  | .rainbow period, .rainbow period' => do
    let period ← interpolateU32 period period' numerator denominator
    return .rainbow period
  | .hardware id arguments, .hardware id' arguments' =>
    if id = id' then do
      let arguments ← interpolateArguments palette arguments arguments' numerator denominator
        interpolation
      return .hardware id arguments
    else .error .effectIdentity
  | _, _ => .error .effectIdentity

end

theorem roundedShare_natCast (dist : ℕ) : roundedShare dist n d =
      RoundedPath.advance dist n d := by
  have hs : (0 : ℤ) ≤ (dist : ℤ) * n := by positivity
  norm_cast

theorem roundedShare_neg (dist n : ℕ) (hd : 0 < d) : roundedShare (-(dist : ℤ)) n d =
      -(RoundedPath.advance dist n d : ℤ) := by
  rw [roundedShare, RoundedPath.advance]
  by_cases hz : dist * n = 0
  · have hs : -(dist : ℤ) * n = 0 := by
      rw [Int.neg_mul, ← Nat.cast_mul, hz]
      rfl
    have hh : d / 2 / d = 0 := Nat.div_eq_of_lt (Nat.div_lt_self hd (by omega))
    rw [hs, if_pos le_rfl, hz, Int.zero_add, Nat.zero_add, ← Int.ofNat_tdiv, hh]
    rfl
  · have hn : ¬ (0 : ℤ) ≤ -(dist : ℤ) * n := by
      rw [Int.neg_mul]
      omega
    have hsu : -(dist : ℤ) * n - ((d / 2 : ℕ) : ℤ) = -((dist * n + d / 2 : ℕ) : ℤ) := by
      push_cast
      ring
    rw [if_neg hn, hsu, Int.neg_tdiv, ← Int.ofNat_tdiv]

theorem interpolateU32_eq (start finish n : ℕ) (hd : 0 < d) : interpolateU32 start finish n d =
      .ok (RoundedPath.path start finish (min n d) d) := by
  rw [interpolateU32, if_neg (by omega), RoundedPath.path]
  split
  · next hle =>
    have hdi : (finish : ℤ) - start = ((finish - start : ℕ) : ℤ) := by omega
    rw [hdi, roundedShare_natCast]
    rfl
  · next hlt =>
    have hdi : (finish : ℤ) - start = -((start - finish : ℕ) : ℤ) := by omega
    rw [hdi, roundedShare_neg _ _ hd]
    congr 1
    omega

theorem interpolateHue_le (hd : 0 < d) :
    ∃ hue ≤ mx, interpolateHue start finish mx n d direction = .ok hue := by
  rw [interpolateHue, if_neg (by omega)]
  refine ⟨_, ?_, rfl⟩
  generalize (start % (mx + 1) : ℕ) + roundedShare _ _ _ = value
  have hlt := Int.emod_lt_of_pos value (show (0 : ℤ) < (mx + 1 : ℕ) by omega)
  omega

theorem easedProgress_le (hx : x ≤ progressScale) : easedProgress function x ≤ progressScale := by
  have hs : 0 < progressScale := by decide
  cases function with
  | linear => exact hx
  | easeIn =>
    apply Nat.div_le_of_le_mul
    exact Nat.mul_le_mul (Nat.mul_le_mul hx hx) hx
  | easeOut => exact Nat.sub_le _ _
  | easeInOut =>
    simp only [easedProgress]
    generalize progressScale = scale at *
    -- the smooth step 3x² - 2x³ stays below one: (1 - x)²(1 + 2x) ≥ 0
    have hsm : 3 * x * x * scale ≤ 2 * x * x * x + scale * scale * scale := by
      obtain ⟨gap, rfl⟩ := Nat.exists_eq_add_of_le hx
      nlinarith [Nat.zero_le (gap * gap * (gap + 3 * x))]
    have hc : 3 * x * x / scale = 3 * x * x * scale / (scale * scale) :=
      (Nat.mul_div_mul_right _ _ hs).symm
    have hb : 3 * x * x * scale / (scale * scale) ≤ 2 * x * x * x / (scale * scale) + scale := by
      rw [← Nat.add_mul_div_left _ _ (Nat.mul_pos hs hs)]
      exact Nat.div_le_div_right hsm
    omega

theorem easeProgress_ok (hd : 0 < duration) :
    ∃ n ≤ progressScale, easeProgress function elapsed duration = .ok (n, progressScale) := by
  rw [easeProgress, if_neg (by omega)]
  refine ⟨_, easedProgress_le ?_, rfl⟩
  rw [Nat.mul_comm]
  exact RoundedPath.advance_le hd progressScale (Nat.min_le_right _ _)

theorem easeProgress_linear (hn : n ≤ progressScale) :
    easeProgress .linear n progressScale = .ok (n, progressScale) := by
  have hh : progressScale / 2 / progressScale = 0 := by decide
  rw [easeProgress, if_neg (by decide), Nat.min_eq_left hn]
  simp only [easedProgress]
  rw [Nat.mul_comm, Nat.mul_add_div (by decide), hh, Nat.add_zero]

section

variable {r : DiscreteRange} {k high v : ℕ}

theorem contains_iff : r.contains v = true ↔ r.step ≠ 0 ∧ r.min ≤ v ∧ v ≤ r.max ∧
      r.step ∣ v - r.min := by
  simp [DiscreteRange.contains, Nat.dvd_iff_mod_eq_zero, and_assoc]

/-- The last grid point at or below the maximum. -/
def lastPoint (range : DiscreteRange) : ℕ :=
  range.min + (range.max - range.min) / range.step * range.step

/-- The grid point nearest to the clamped value, the upper one of two. -/
structure SnapsTo (value : ℕ) (range : DiscreteRange) (snapped : ℕ) : Prop where
  contained : range.contains snapped = true
  nearest : ∀ other, range.contains other = true →
    let clamped := min (max value range.min) range.max
    clamped.dist snapped ≤ clamped.dist other ∧
      (clamped.dist snapped = clamped.dist other → other ≤ snapped)

theorem dvd_gap (hf : step ∣ floor) (hk : step ∣ k) : k ≤ floor ∨ floor + step ≤ k := by
  obtain ⟨a, rfl⟩ := hf
  obtain ⟨b, rfl⟩ := hk
  rcases Nat.lt_or_ge a b with h | h
  · exact .inr (Nat.mul_le_mul_left step h)
  · exact .inl (Nat.mul_le_mul_left step h)

theorem lastPoint_spec (hs : r.step ≠ 0) (hm : r.min ≤ r.max) :
    r.step ∣ lastPoint r - r.min ∧ r.min ≤ lastPoint r ∧ lastPoint r ≤ r.max ∧
      r.max < lastPoint r + r.step := by
  have hl := Nat.div_mul_le_self (r.max - r.min) r.step
  have hu := Nat.lt_div_mul_add (a := r.max - r.min) (Nat.pos_of_ne_zero hs)
  refine ⟨by simp [lastPoint], ?_⟩
  rw [lastPoint]
  omega

theorem snapsTo_iff (hs : r.step ≠ 0) (hm : r.min ≤ r.max) (hc : min (max v r.min) r.max = c)
    (hd : r.step ∣ floor) (hf : r.min + floor ≤ c) (hu : c < r.min + floor + r.step) :
    SnapsTo v r (if c - (r.min + floor) < min (r.min + floor + r.step) r.max - c
      then r.min + floor else min (r.min + floor + r.step) r.max) ↔
    r.contains r.max = true ∨ c - lastPoint r < r.max - c := by
  obtain ⟨hdl, hml, hlm, hlu⟩ := lastPoint_spec hs hm
  generalize lastPoint r = last at *
  have hgap {other : ℕ} (h : r.contains other = true) :
      other ≤ r.min + floor ∨ r.min + floor + r.step ≤ other := by
    obtain ⟨-, ho, -, hdo⟩ := contains_iff.1 h
    have := dvd_gap hd hdo
    omega
  rcases dvd_gap hd hdl with hlast | hnext
  · -- no grid point is left above the value
    have hfl : r.min + floor = last := by
      have := dvd_gap hdl hd
      omega
    have hup : min (r.min + floor + r.step) r.max = r.max := by omega
    rw [hup, hfl]
    split
    next hnear =>
      refine ⟨fun _ => .inr hnear, fun _ => ⟨contains_iff.2 ⟨hs, hml, hlm, hdl⟩, ?_⟩⟩
      intro other ho
      have := hgap ho
      simp only [hc, Nat.dist]
      omega
    next hnear =>
      refine ⟨fun h => .inl h.contained, fun h => ?_⟩
      have hcm := h.resolve_right hnear
      refine ⟨hcm, fun other ho => ?_⟩
      have := hgap hcm
      simp only [hc, Nat.dist]
      omega
  · have hup : min (r.min + floor + r.step) r.max = r.min + floor + r.step := by omega
    rw [hup]
    refine ⟨fun _ => .inr (by omega), fun _ => ⟨contains_iff.2 ⟨hs, ?_⟩, fun other ho => ?_⟩⟩
    · split
      · exact ⟨by omega, by omega, by simpa using hd⟩
      · refine ⟨by omega, by omega, ?_⟩
        rw [Nat.add_assoc, Nat.add_sub_cancel_left]
        exact Nat.dvd_add hd (Nat.dvd_refl _)
    · have := hgap ho
      simp only [hc, Nat.dist]
      split <;> omega

theorem snap_snapsTo_iff (hs : r.step ≠ 0) (hm : r.min ≤ r.max) :
    (∃ snapped, snapToDiscreteRangeU32 v r = .ok snapped ∧ SnapsTo v r snapped) ↔
      r.contains r.max = true ∨
        min (max v r.min) r.max - lastPoint r < r.max - min (max v r.min) r.max := by
  have hf := Nat.div_mul_le_self (min (max v r.min) r.max - r.min) r.step
  have hu := Nat.lt_div_mul_add (a := min (max v r.min) r.max - r.min) (Nat.pos_of_ne_zero hs)
  have hd : r.step ∣ (min (max v r.min) r.max - r.min) / r.step * r.step := Nat.dvd_mul_left _ _
  rw [snapToDiscreteRangeU32, if_neg (by omega)]
  simp only [Except.ok.injEq, exists_eq_left']
  exact snapsTo_iff hs hm rfl hd (by omega) (by omega)

theorem exists_snapsTo (hhi : r.contains high = true) (hh : v ≤ high) :
    ∃ snapped, snapToDiscreteRangeU32 v r = .ok snapped ∧ SnapsTo v r snapped := by
  obtain ⟨hs, hmi, hma, hd⟩ := contains_iff.1 hhi
  have hm := hmi.trans hma
  obtain ⟨hdl, hml, hlm, hlu⟩ := lastPoint_spec hs hm
  have hg := dvd_gap hdl hd
  apply (snap_snapsTo_iff hs hm).2
  rcases hlm.eq_or_lt with h | h
  · exact .inl (contains_iff.2 ⟨hs, hm, le_rfl, h ▸ hdl⟩)
  · exact .inr (by omega)

/-- A value below an accepted one snaps to an accepted one, also where the maximum
is not a multiple of the step. -/
theorem snap_of_below (hhi : r.contains high = true) (hh : v ≤ high) :
    ∃ snapped, snapToDiscreteRangeU32 v r = .ok snapped ∧ r.contains snapped = true := by
  obtain ⟨snapped, hok, hsn⟩ := exists_snapsTo hhi hh
  exact ⟨snapped, hok, hsn.contained⟩

theorem snap_self (h : r.contains v = true) : snapToDiscreteRangeU32 v r = .ok v := by
  obtain ⟨-, hmi, hma, -⟩ := contains_iff.1 h
  obtain ⟨snapped, hok, hsn⟩ := exists_snapsTo h le_rfl
  have hn := (hsn.nearest v h).1
  simp only [Nat.dist] at hn
  have he : snapped = v := by omega
  rw [hok, he]

def mulU32 (a b : ℕ) : Option ℕ := if a * b < 2 ^ 32 then some (a * b) else none

def addU32 (a b : ℕ) : Option ℕ := if a + b < 2 ^ 32 then some (a + b) else none

def subU32 (a b : ℕ) : Option ℕ := if b ≤ a then some (a - b) else none

/-- `snap_to_discrete_range_u32` on machine words: `none` where an operation
overflows. -/
def snapWords (value : ℕ) (range : DiscreteRange) :
    Option (Except TransitionInterpolationError ℕ) :=
  if range.step = 0 ∨ range.max < range.min then some (.error .hardwareStructure)
  else do
    let value := min (max value range.min) range.max
    let offset ← subU32 value range.min
    let cells ← mulU32 (offset / range.step) range.step
    let lower ← addU32 range.min cells
    let upper := min (min (lower + range.step) (2 ^ 32 - 1)) range.max
    let below ← subU32 value lower
    let above ← subU32 upper value
    return .ok (if below < above then lower else upper)

theorem snapWords_eq (hm : r.max < 2 ^ 32) : snapWords v r = some (snapToDiscreteRangeU32 v r) := by
  rw [snapWords, snapToDiscreteRangeU32]
  split
  · rfl
  · have hf := Nat.div_mul_le_self (min (max v r.min) r.max - r.min) r.step
    have hu : min (max v r.min) r.max <
        r.min + (min (max v r.min) r.max - r.min) / r.step * r.step + r.step := by
      have := Nat.lt_div_mul_add (a := min (max v r.min) r.max - r.min) (b := r.step) (by omega)
      omega
    simp only [subU32, mulU32, addU32, Option.bind_eq_bind]
    rw [if_pos (by omega), Option.bind_some]
    generalize (min (max v r.min) r.max - r.min) / r.step * r.step = floor at *
    rw [if_pos (by omega), Option.bind_some, if_pos (by omega), Option.bind_some]
    rw [if_pos (by omega), Option.bind_some, if_pos (by omega), Option.bind_some]
    have ht : min (min (r.min + floor + r.step) (2 ^ 32 - 1)) r.max =
        min (r.min + floor + r.step) r.max := by omega
    rw [ht]
    rfl

/-- Where the maximum is not on the grid, a value nearer to it than to the last
grid point is snapped to the maximum. -/
theorem snap_nearest_iff (hb : r.max < 2 ^ 32) (hs : r.step ≠ 0) (hm : r.min ≤ r.max) :
    (∃ snapped, snapWords v r = some (.ok snapped) ∧ SnapsTo v r snapped) ↔
      r.contains r.max = true ∨
        min (max v r.min) r.max - lastPoint r < r.max - min (max v r.min) r.max := by
  rw [snapWords_eq hb, ← snap_snapsTo_iff hs hm]
  simp

/-- Seven lies between the grid points six and ten. -/
theorem snap_nearest_at_seven :
    ∃ snapped, snapWords 7 ⟨2, 10, 4⟩ = some (.ok snapped) ∧ SnapsTo 7 ⟨2, 10, 4⟩ snapped :=
  (snap_nearest_iff (by decide) (by decide) (by decide)).2 (.inl (by decide))

/-- The range has the values 0 and 3 only. -/
theorem snap_leaves_grid : snapWords 5 ⟨0, 5, 3⟩ = some (.ok 5) ∧
    (⟨0, 5, 3⟩ : DiscreteRange).contains 5 = false := by
  decide

end

/-! ## One step between compatible effects

With encoded colours, whether two effects can be interpolated depends on their
structure only, and so does the structure of every value in between. -/

section

variable (p hue : ℕ → ℕ → ℕ)

def mixRgb (start finish : Rgb) : Rgb :=
  ⟨.ofNat (p start.r.toNat finish.r.toNat), .ofNat (p start.g.toNat finish.g.toNat),
    .ofNat (p start.b.toNat finish.b.toNat)⟩

def mixColours (start finish : List Rgb) : List Rgb :=
  (start.zip finish).map fun pair => mixRgb p pair.1 pair.2

def mixChannels (start finish : List ColourChannelValue) : List ColourChannelValue :=
  (start.zip finish).map fun pair => ⟨pair.1.channel, p pair.1.value pair.2.value⟩

def mixColour : Colour → Colour → Colour
  | .additive start, .additive finish => .additive (mixChannels p start finish)
  | .hsv h saturation value, .hsv h' saturation' value' =>
    .hsv (hue h h') (p saturation saturation') (p value value')
  | .hsl h saturation lightness, .hsl h' saturation' lightness' =>
    .hsl (hue h h') (p saturation saturation') (p lightness lightness')
  | .cct kelvin, .cct kelvin' => .cct (p kelvin kelvin')
  | .monochrome intensity, .monochrome intensity' => .monochrome (p intensity intensity')
  | start, _ => start

def mixArguments (start finish : EffectArguments) : EffectArguments :=
  { start with
    colours := mixColours p start.colours finish.colours
    speed := Option.map₂ p start.speed finish.speed
    durationMs := Option.map₂ p start.durationMs finish.durationMs
    brightness := Option.map₂ p start.brightness finish.brightness }

/-- The structure of the first effect, with each hue taken by `hue` from the hues of both
and every other number by `p`. -/
def mixEffect : Effect → Effect → Effect
  | .static start, .static finish => .static (mixColour p hue start finish)
  | .breathe colour period, .breathe colour' period' =>
    .breathe (mixRgb p colour colour') (p period period')
  | .pulse colour period, .pulse colour' period' =>
    .pulse (mixRgb p colour colour') (p period period')
  | .strobe colour period, .strobe colour' period' =>
    .strobe (mixRgb p colour colour') (p period period')
  | .scanner colour period, .scanner colour' period' =>
    .scanner (mixRgb p colour colour') (p period period')
  | .morph colours period, .morph colours' period' =>
    .morph (mixColours p colours colours') (p period period')
  | .spectrum period, .spectrum period' => .spectrum (p period period')
  | .rainbow period, .rainbow period' => .rainbow (p period period')
  | .hardware id arguments, .hardware _ arguments' =>
    .hardware id (mixArguments p arguments arguments')
  | start, _ => start

end

inductive SameColour : Colour → Colour → Prop where
  | additive {start finish : List ColourChannelValue}
      (channels : start.map (·.channel) = finish.map (·.channel)) :
      SameColour (.additive start) (.additive finish)
  | hsv {h s v h' s' v' : ℕ} : SameColour (.hsv h s v) (.hsv h' s' v')
  | hsl {h s l h' s' l' : ℕ} : SameColour (.hsl h s l) (.hsl h' s' l')
  | cct {k k' : ℕ} : SameColour (.cct k) (.cct k')
  | monochrome {i i' : ℕ} : SameColour (.monochrome i) (.monochrome i')

structure SameArguments (start finish : EffectArguments) : Prop where
  direction : start.direction = finish.direction
  choice : start.choice = finish.choice
  colours : start.colours.length = finish.colours.length
  speed : start.speed.isSome = finish.speed.isSome
  durationMs : start.durationMs.isSome = finish.durationMs.isSome
  brightness : start.brightness.isSome = finish.brightness.isSome

inductive SameStructure : Effect → Effect → Prop where
  | static {start finish : Colour} (colour : SameColour start finish) :
      SameStructure (.static start) (.static finish)
  | breathe {c c' : Rgb} {t t' : ℕ} : SameStructure (.breathe c t) (.breathe c' t')
  | pulse {c c' : Rgb} {t t' : ℕ} : SameStructure (.pulse c t) (.pulse c' t')
  | strobe {c c' : Rgb} {t t' : ℕ} : SameStructure (.strobe c t) (.strobe c' t')
  | scanner {c c' : Rgb} {t t' : ℕ} : SameStructure (.scanner c t) (.scanner c' t')
  | morph {cs cs' : List Rgb} {t t' : ℕ} (length : cs.length = cs'.length) :
      SameStructure (.morph cs t) (.morph cs' t')
  | spectrum {t t' : ℕ} : SameStructure (.spectrum t) (.spectrum t')
  | rainbow {t t' : ℕ} : SameStructure (.rainbow t) (.rainbow t')
  | hardware {id : HardwareEffectId} {start finish : EffectArguments}
      (arguments : SameArguments start finish) :
      SameStructure (.hardware id start) (.hardware id finish)

/-- What `Colour::additive` admits. -/
def ValidColour : Effect → Prop
  | .static (.additive channels) => additiveColour channels = .ok (.additive channels)
  | _ => True

section

variable {n d hueMaximum : ℕ} {dir : HueDirection}

theorem additiveColour_of_names (hn : others.map (·.channel) = channels.map (·.channel))
    (h : additiveColour channels = .ok col) : additiveColour others = .ok (.additive others) := by
  have hl := congrArg length hn
  have he : others.isEmpty = channels.isEmpty := by
    cases others <;> cases channels <;> simp_all
  rw [additiveColour, then_ok_iff, then_ok_iff] at h
  rw [additiveColour, he, hn, h.1, h.2.1]
  rfl

def share (n d start finish : ℕ) : ℕ := RoundedPath.path start finish (min n d) d

def hueShare (hueMaximum n d : ℕ) (dir : HueDirection) (start finish : ℕ) : ℕ :=
  (interpolateHue start finish hueMaximum n d dir).toOption.getD 0

theorem interpolateHue_eq (hd : 0 < d) : interpolateHue start finish hueMaximum n d dir =
      .ok (hueShare hueMaximum n d dir start finish) := by
  obtain ⟨value, -, hok⟩ := interpolateHue_le hd
  rw [hueShare, hok]
  rfl

theorem interpolateRgb_eq (hd : 0 < d) : interpolateRgb palette start finish n d (.encoded dir) =
      .ok (mixRgb (share n d) start finish) := by
  rw [interpolateRgb, interpolateRgbEncoded, interpolateU8, interpolateU8, interpolateU8,
    interpolateU32_eq _ _ _ hd, interpolateU32_eq _ _ _ hd, interpolateU32_eq _ _ _ hd]
  rfl

theorem interpolateColours_eq (hd : 0 < d) :
    interpolateColours palette start finish n d (.encoded dir) =
      .ok (mixColours (share n d) start finish) := by
  simp only [interpolateColours, interpolateRgb_eq hd]
  exact mapM_pure

theorem interpolateChannels_eq (start : List ColourChannelValue) (hd : 0 < d) :
    (start.zip finish).mapM (interpolateChannel n d) =
      .ok (mixChannels (share n d) start finish) := by
  have hi : interpolateChannel n d = fun pair => .ok ⟨pair.1.channel,
      share n d pair.1.value pair.2.value⟩ := by
    funext pair
    rw [interpolateChannel, interpolateU32_eq _ _ _ hd]
    rfl
  rw [hi]
  exact mapM_pure

theorem interpolateOptional_eq (hd : 0 < d) :
    interpolateOptional start finish n d = .ok (Option.map₂ (share n d) start finish) := by
  cases start with
  | none => rfl
  | some start =>
    cases finish with
    | none => rfl
    | some finish =>
      rw [interpolateOptional, interpolateU32_eq _ _ _ hd]
      rfl

theorem share_of_le (hn : n ≤ d) : share n d start finish = RoundedPath.path start finish n d := by
  rw [share, Nat.min_eq_left hn]

/-- What `p` makes of two numbers lies between them. -/
def Between (p : ℕ → ℕ → ℕ) : Prop := ∀ a b, min a b ≤ p a b ∧ p a b ≤ max a b

theorem between_share (n : ℕ) (hd : 0 < d) : Between (share n d) := fun _ _ =>
  ⟨RoundedPath.min_le_path hd (Nat.min_le_right n d),
    RoundedPath.path_le_max hd (Nat.min_le_right n d)⟩

theorem hueShare_le (n : ℕ) (dir : HueDirection) (hd : 0 < d) (start finish : ℕ) :
    hueShare hueMaximum n d dir start finish ≤ hueMaximum := by
  obtain ⟨value, hle, hok⟩ := interpolateHue_le hd
  rwa [hueShare, hok]

theorem channel_names (hn : start.map (·.channel) = finish.map (·.channel)) :
    (mixChannels p start finish).map (·.channel) = start.map (·.channel) := by
  have hl := congrArg length hn
  rw [length_map, length_map] at hl
  have hf : (start.zip finish).map Prod.fst = start := map_fst_zip (by omega)
  rw [mixChannels, map_map]
  conv_rhs => rw [← hf, map_map]
  rfl

theorem interpolateColour_eq (h : SameColour start finish) (hv : ValidColour (.static start))
    (hd : 0 < d) : interpolateColour palette start finish n d hueMaximum (.encoded dir) =
      .ok (mixColour (share n d) (hueShare hueMaximum n d dir) start finish) := by
  cases h with
  | additive hn =>
    rw [interpolateColour, if_pos hn, interpolateChannels_eq _ hd, ok_bind, mapError_ok_iff]
    exact additiveColour_of_names (channel_names hn) hv
  | hsv | hsl =>
    rw [interpolateColour, interpolateHue_eq hd, interpolateU32_eq _ _ _ hd,
      interpolateU32_eq _ _ _ hd]
    rfl
  | cct | monochrome =>
    rw [interpolateColour, interpolateU32_eq _ _ _ hd]
    rfl

theorem sameStructure_iff : sameStructure start finish = true ↔ SameArguments start finish := by
  simp only [sameStructure, Bool.and_eq_true, beq_iff_eq]
  exact ⟨fun ⟨⟨⟨⟨⟨hd, hc⟩, hl⟩, hs⟩, ht⟩, hb⟩ => ⟨hd, hc, hl, hs, ht, hb⟩,
    fun ⟨hd, hc, hl, hs, ht, hb⟩ => ⟨⟨⟨⟨⟨hd, hc⟩, hl⟩, hs⟩, ht⟩, hb⟩⟩

theorem interpolateEffect_eq (h : SameStructure start finish) (hv : ValidColour start)
    (hd : 0 < d) : interpolateEffect palette start finish n d hueMaximum (.encoded dir) =
      .ok (mixEffect (share n d) (hueShare hueMaximum n d dir) start finish) := by
  cases h with
  | static hc =>
    rw [interpolateEffect, interpolateColour_eq hc hv hd]
    rfl
  | breathe | pulse | strobe | scanner =>
    rw [interpolateEffect, interpolatePeriodic, interpolateRgb_eq hd, interpolateU32_eq _ _ _ hd]
    rfl
  | morph hl =>
    rw [interpolateEffect, if_pos hl, interpolateColours_eq hd, interpolateU32_eq _ _ _ hd]
    rfl
  | spectrum | rainbow =>
    rw [interpolateEffect, interpolateU32_eq _ _ _ hd]
    rfl
  | hardware ha =>
    rw [interpolateEffect, if_pos rfl, interpolateArguments, if_pos (sameStructure_iff.2 ha),
      interpolateColours_eq hd, interpolateOptional_eq hd, interpolateOptional_eq hd,
      interpolateOptional_eq hd]
    rfl

theorem sameColour_of_ok (hd : 0 < d)
    (h : interpolateColour palette start finish n d hueMaximum (.encoded dir) = .ok col) :
    SameColour start finish ∧ ValidColour (.static start) := by
  cases start with
  | additive start =>
    cases finish with
    | additive finish =>
      rw [interpolateColour] at h
      split at h
      case isFalse => cases h
      case isTrue hn =>
        rw [interpolateChannels_eq _ hd, ok_bind, mapError_ok_iff] at h
        exact ⟨.additive hn, additiveColour_of_names (channel_names hn).symm h⟩
    | _ => cases h
  | hsv =>
    cases finish with
    | hsv => exact ⟨.hsv, trivial⟩
    | _ => cases h
  | hsl =>
    cases finish with
    | hsl => exact ⟨.hsl, trivial⟩
    | _ => cases h
  | cct =>
    cases finish with
    | cct => exact ⟨.cct, trivial⟩
    | _ => cases h
  | monochrome =>
    cases finish with
    | monochrome => exact ⟨.monochrome, trivial⟩
    | _ => cases h

theorem sameStructure_of_ok (hd : 0 < d)
    (h : interpolateEffect palette start finish n d hueMaximum (.encoded dir) = .ok eff) :
    SameStructure start finish ∧ ValidColour start := by
  cases start with
  | off => cases h
  | static =>
    cases finish with
    | static =>
      obtain ⟨col, hc, -⟩ := bind_ok_iff.1 h
      exact (sameColour_of_ok hd hc).imp_left .static
    | _ => cases h
  | breathe =>
    cases finish with
    | breathe => exact ⟨.breathe, trivial⟩
    | _ => cases h
  | pulse =>
    cases finish with
    | pulse => exact ⟨.pulse, trivial⟩
    | _ => cases h
  | strobe =>
    cases finish with
    | strobe => exact ⟨.strobe, trivial⟩
    | _ => cases h
  | scanner =>
    cases finish with
    | scanner => exact ⟨.scanner, trivial⟩
    | _ => cases h
  | morph =>
    cases finish with
    | morph =>
      rw [interpolateEffect] at h
      split at h
      case isFalse => cases h
      case isTrue hl => exact ⟨.morph hl, trivial⟩
    | _ => cases h
  | spectrum =>
    cases finish with
    | spectrum => exact ⟨.spectrum, trivial⟩
    | _ => cases h
  | rainbow =>
    cases finish with
    | rainbow => exact ⟨.rainbow, trivial⟩
    | _ => cases h
  | hardware =>
    cases finish with
    | hardware =>
      rw [interpolateEffect] at h
      split at h
      case isFalse => cases h
      case isTrue hid =>
        subst hid
        obtain ⟨args, ha, -⟩ := bind_ok_iff.1 h
        rw [interpolateArguments] at ha
        split at ha
        case isFalse => cases ha
        case isTrue hs => exact ⟨.hardware (sameStructure_iff.1 hs), trivial⟩
    | _ => cases h

end

end Interpolation
