import Luminate.TransitionPlans

/-! # Steps between accepted effects

Which effects on the way between two accepted ones are accepted by
`validate_target_state`. Colours and hardware arguments stay within what
validation accepted for both; the periods of built-in effects are interpolated
but never snapped. -/
namespace TransitionSteps

open Checks DeviceModel TargetTopology DaemonModel Validation Interpolation TransitionPlans List

def Fits (bits value : ℕ) : Prop := ∃ maximum, maximumForBits bits = some maximum ∧ value ≤ maximum

variable {bits : ℕ} {params : List EffectParameter} {ranges : List DiscreteRange}
  {q hue : ℕ → ℕ → ℕ}

theorem Fits.mono (h : Fits bits v) (hle : smaller ≤ v) : Fits bits smaller := by
  obtain ⟨maximum, hm, hv⟩ := h
  exact ⟨maximum, hm, by omega⟩

theorem Fits.mix (ha : Fits bits a) (hb : Fits bits b) (hm : Between q) :
    Fits bits (q a b) := by
  have hle := (hm a b).2
  rcases Nat.le_total a b with h | h
  · exact hb.mono (by omega)
  · exact ha.mono (by omega)

theorem validateFixedChannels_ok_iff :
    validateFixedChannels t channels = .ok () ↔ ∀ ch ∈ channels, Fits ch.2.2 ch.2.1 := by
  rw [validateFixedChannels, checkAll_ok_iff]
  refine forall₂_congr fun ch _ => ?_
  cases hm : maximumForBits ch.2.2 with
  | none => simp [hm, Fits, unsupported]
  | some maximum => simp [hm, Fits, invalid]

/-- An additive channel that the capability advertises with enough bits. -/
def Admits (channels : List ColourChannelCapability) (value : ColourChannelValue) : Prop :=
  ∃ channel, channels.find? (·.channel == value.channel) = some channel ∧
    Fits channel.bits value.value

theorem validateAdditive_ok_iff :
    validateColourChannels t (.additive vs) (.additive channels) = .ok () ↔
      vs.length = channels.length ∧ ∀ v ∈ vs, Admits channels v := by
  rw [validateColourChannels]
  split
  · next hl => simp [invalid, hl]
  · next hl =>
    rw [checkAll_ok_iff, and_iff_right (not_not.1 hl)]
    refine forall₂_congr fun v _ => ?_
    rw [validateAdditiveChannel]
    cases hf : channels.find? (·.channel == v.channel) with
    | none => simp [invalid, Admits, hf]
    | some ch =>
      cases hm : maximumForBits ch.bits with
      | none => simp [hm, Fits, Admits, hf, unsupported]
      | some maximum => simp [hm, Fits, Admits, hf, invalid]

/-- What validation requires of a colour under a capability of its model. -/
def ChannelsFit : ColourCapability → Colour → Prop
  | .additive channels, .additive values =>
    values.length = channels.length ∧ ∀ value ∈ values, Admits channels value
  | .hsv hueBits saturationBits valueBits, .hsv hue saturation value =>
    Fits hueBits hue ∧ Fits saturationBits saturation ∧ Fits valueBits value
  | .hsl hueBits saturationBits lightnessBits, .hsl hue saturation lightness =>
    Fits hueBits hue ∧ Fits saturationBits saturation ∧ Fits lightnessBits lightness
  | .cct bits, .cct kelvin => Fits bits kelvin
  | .monochrome bits, .monochrome intensity => Fits bits intensity
  | _, _ => False

theorem validateColourChannels_ok_iff :
    validateColourChannels t col cap = .ok () ↔ ChannelsFit cap col := by
  cases col <;> cases cap
  case additive.additive => exact validateAdditive_ok_iff
  all_goals
    simp [validateColourChannels, ChannelsFit, validateFixedChannels_ok_iff, invalid, reduceCtorEq]

/-- The hue bound of a plan belongs to the capability that validates its colour. -/
def HueBound (capability : ColourCapability) (maximum : ℕ) : Prop :=
  match capability with
  | .hsv hueBits _ _ | .hsl hueBits _ _ => maximumForBits hueBits = some maximum
  | _ => True

theorem Admits.mix (ha : Admits channels a) (hb : Admits channels b) (hna : a.channel = b.channel)
    (hm : Between q) : Admits channels ⟨a.channel, q a.value b.value⟩ := by
  obtain ⟨ch, hf, hfi⟩ := ha
  obtain ⟨ch', hf', hfi'⟩ := hb
  rw [← hna, hf] at hf'
  cases hf'
  exact ⟨ch, hf, hfi.mix hfi' hm⟩

theorem ChannelsFit.mix (hs : ChannelsFit cap start) (hf : ChannelsFit cap finish)
    (hh : HueBound cap mx) (hu : ∀ a b, hue a b ≤ mx) (hc : SameColour start finish)
    (hm : Between q) : ChannelsFit cap (mixColour q hue start finish) := by
  cases hc with
  | @additive vs vs' hna =>
    cases cap with
    | additive channels =>
      have hl := congrArg List.length hna
      rw [length_map, length_map] at hl
      refine ⟨?_, ?_⟩
      · rw [mixChannels, length_map, length_zip, ← hl, Nat.min_self]
        exact hs.1
      · intro v hv
        obtain ⟨⟨a, b⟩, hp, rfl⟩ := mem_map.1 hv
        obtain ⟨ha, hb⟩ := of_mem_zip hp
        have hnm : a.channel = b.channel := by
          obtain ⟨i, hi, hg⟩ := mem_iff_getElem.1 hp
          have hat := congrArg (·[i]?) hna
          simp only [getElem?_map] at hat
          rw [getElem_zip] at hg
          cases hg
          rw [length_zip] at hi
          rw [getElem?_eq_getElem (by omega), getElem?_eq_getElem (by omega)] at hat
          exact Option.some.inj hat
        exact (hs.2 a ha).mix (hf.2 b hb) hnm hm
    | _ => exact hs.elim
  | hsv =>
    cases cap with
    | hsv => exact ⟨⟨mx, hh, hu _ _⟩, hs.2.1.mix hf.2.1 hm, hs.2.2.mix hf.2.2 hm⟩
    | _ => exact hs.elim
  | hsl =>
    cases cap with
    | hsl => exact ⟨⟨mx, hh, hu _ _⟩, hs.2.1.mix hf.2.1 hm, hs.2.2.mix hf.2.2 hm⟩
    | _ => exact hs.elim
  | cct =>
    cases cap with
    | cct => exact Fits.mix hs hf hm
    | _ => exact hs.elim
  | monochrome =>
    cases cap with
    | monochrome => exact Fits.mix hs hf hm
    | _ => exact hs.elim

theorem ChannelsFit.darken (h : ChannelsFit cap col) (hd : darkenColour col = .ok dark) :
    ChannelsFit cap dark := by
  cases col with
  | additive vs =>
    cases cap with
    | additive channels =>
      have hd' : dark = .additive (vs.map fun v => ⟨v.channel, 0⟩) := by
        rw [darkenColour, additiveColour] at hd
        split at hd
        · next col hok =>
          cases hd
          rw [then_ok_iff, then_ok_iff] at hok
          exact (Except.ok.inj hok.2.2).symm
        · cases hd
      rw [hd']
      refine ⟨by rw [length_map]; exact h.1, ?_⟩
      intro v hv
      obtain ⟨original, ho, rfl⟩ := mem_map.1 hv
      obtain ⟨ch, hf, hfi⟩ := h.2 original ho
      exact ⟨ch, hf, hfi.mono (Nat.zero_le _)⟩
    | _ => exact h.elim
  | hsv hue saturation v =>
    cases hd
    cases cap with
    | hsv hueBits saturationBits valueBits => exact ⟨h.1, h.2.1, h.2.2.mono (Nat.zero_le _)⟩
    | _ => exact h.elim
  | hsl hue saturation lightness =>
    cases hd
    cases cap with
    | hsl hueBits saturationBits lightnessBits => exact ⟨h.1, h.2.1, h.2.2.mono (Nat.zero_le _)⟩
    | _ => exact h.elim
  | cct kelvin => cases hd
  | monochrome intensity =>
    cases hd
    cases cap with
    | monochrome bits => exact Fits.mono h (Nat.zero_le _)
    | _ => exact h.elim

theorem capabilityMatchesColour_congr (h : a.encoding = b.encoding) :
    capabilityMatchesColour cap a = capabilityMatchesColour cap b := by
  cases cap <;> cases a <;> cases b <;> first | rfl | cases h

theorem validateColour_ok_iff : validateEffectForAppearance p t (.static col) caps cct = .ok () ↔
      (∃ cap, caps.colour.find? (capabilityMatchesColour · col) = some cap ∧ ChannelsFit cap col) ∨
      caps.colour.find? (capabilityMatchesColour · col) = none ∧
        ∃ emulated cap, emulateCct p col caps cct =
          some (emulated, cap) ∧ ChannelsFit cap emulated := by
  have hr : validateEffectForAppearance p t (.static col) caps
      cct = .ok () ↔ ∃ resolved, resolveColourForAppearance p t col caps cct = .ok resolved := by
    rw [validateEffectForAppearance]
    simp [pure, Except.pure]
  have ht : ∀ (checked : Colour) (cap : ColourCapability),
      (∃ resolved, (validateColourChannels t checked cap >>= fun _ => pure checked) =
        .ok resolved) ↔ ChannelsFit cap checked := by
    intro checked cap
    simp only [then_ok_iff, validateColourChannels_ok_iff]
    constructor
    · rintro ⟨_, hf, -⟩
      exact hf
    · intro hf
      exact ⟨checked, hf, rfl⟩
  rw [hr, resolveColourForAppearance]
  cases caps.colour.find? (capabilityMatchesColour · col) with
  | some cap => simpa using ht col cap
  | none =>
    cases emulateCct p col caps cct with
    | some emulated =>
      obtain ⟨emulated, cap⟩ := emulated
      simpa using ht emulated cap
    | none =>
      simp only [reduceCtorEq, false_and, exists_false, and_false, or_self, iff_false]
      split <;> simp [unsupported, invalid]

theorem validateStatic_ok_iff (hc : col.encoding ≠ .cct) :
    validateEffectForAppearance p t (.static col) caps cct = .ok () ↔
      ∃ cap, caps.colour.find? (capabilityMatchesColour · col) =
        some cap ∧ ChannelsFit cap col := by
  have he : emulateCct p col caps cct = none := by
    cases col <;> first | rfl | exact absurd rfl hc
  simp [validateColour_ok_iff, he, reduceCtorEq]

theorem validateStatic_step (hc : start.encoding ≠ .cct)
    (hh : ∀ cap, caps.colour.find? (capabilityMatchesColour · start) = some cap → HueBound cap mx)
    (hu : ∀ a b, hue a b ≤ mx)
    (hs : validateEffectForAppearance p t (.static start) caps cct = .ok ())
    (hfi : validateEffectForAppearance p t (.static finish) caps cct = .ok ())
    (hsa : SameColour start finish) (hm : Between q) :
    validateEffectForAppearance p t (.static (mixColour q hue start finish)) caps cct =
      .ok () := by
  obtain ⟨he, he'⟩ : finish.encoding = start.encoding ∧
      (mixColour q hue start finish).encoding = start.encoding := by
    cases hsa <;> exact ⟨rfl, rfl⟩
  obtain ⟨cap, hf, hft⟩ := (validateStatic_ok_iff hc).1 hs
  obtain ⟨cap', hf', hfi'⟩ := (validateStatic_ok_iff (he ▸ hc)).1 hfi
  simp only [capabilityMatchesColour_congr he, hf, Option.some.injEq] at hf'
  subst hf'
  refine (validateStatic_ok_iff (he' ▸ hc)).2 ⟨cap, ?_, ?_⟩
  · simp only [capabilityMatchesColour_congr he', hf]
  · exact hft.mix hfi' (hh cap hf) hu hsa hm

theorem darkenColour_encoding (h : darkenColour col = .ok dark) :
    dark.encoding = col.encoding ∧ col.encoding ≠ .cct := by
  cases col with
  | additive vs =>
    rw [darkenColour, additiveColour] at h
    split at h
    · next dark hok =>
      cases h
      rw [then_ok_iff, then_ok_iff] at hok
      cases hok.2.2
      exact ⟨rfl, fun h => by cases h⟩
    · cases h
  | cct kelvin => cases h
  | hsv hue saturation v =>
    cases h
    exact ⟨rfl, fun h => by cases h⟩
  | hsl hue saturation lightness =>
    cases h
    exact ⟨rfl, fun h => by cases h⟩
  | monochrome intensity =>
    cases h
    exact ⟨rfl, fun h => by cases h⟩

theorem validateStatic_darken (hd : darkenColour col = .ok dark)
    (h : validateEffectForAppearance p t (.static col) caps cct = .ok ()) :
    validateEffectForAppearance p t (.static dark) caps cct = .ok () := by
  obtain ⟨he, hc⟩ := darkenColour_encoding hd
  obtain ⟨cap, hf, hfi⟩ := (validateStatic_ok_iff hc).1 h
  refine (validateStatic_ok_iff (he ▸ hc)).2 ⟨cap, ?_, hfi.darken hd⟩
  simp only [capabilityMatchesColour_congr he, hf]

def durationRanges (parameters : List EffectParameter) : List DiscreteRange :=
  parameters.filterMap fun
    | .duration milliseconds => some milliseconds
    | _ => none

def speedRanges (parameters : List EffectParameter) : List DiscreteRange :=
  parameters.filterMap fun
    | .speed range => some range
    | _ => none

theorem mem_durationRanges {r : DiscreteRange} :
    r ∈ durationRanges params ↔ .duration r ∈ params := by
  rw [durationRanges, mem_filterMap]
  constructor
  · rintro ⟨param, hm, heq⟩
    cases param <;> simp_all
  · exact fun hm => ⟨_, hm, rfl⟩

theorem mem_speedRanges {r : DiscreteRange} : r ∈ speedRanges params ↔ .speed r ∈ params := by
  rw [speedRanges, mem_filterMap]
  constructor
  · rintro ⟨param, hm, heq⟩
    cases param <;> simp_all
  · exact fun hm => ⟨_, hm, rfl⟩

theorem validateTypedParameters_period {count : Option ℕ}
    (h : validateTypedParameters t count period sawColour sawDuration params = .ok ()) :
    validateTypedParameters t count period' sawColour sawDuration params = .ok () ↔
      ∀ r ∈ durationRanges params, r.contains period' = true := by
  induction params generalizing sawColour sawDuration with
  | nil => simpa [durationRanges, validateTypedParameters] using h
  | cons param rest ih =>
    cases param with
    | colour minimum maximum =>
      cases sawColour with
      | true => simp [validateTypedParameters, unsupported] at h
      | false =>
        cases count with
        | none => simp [validateTypedParameters, invalid] at h
        | some count =>
          simp only [validateTypedParameters, Bool.false_eq_true, if_false, then_ok_iff] at h ⊢
          rw [ih h.2, and_iff_right h.1]
          rfl
    | duration milliseconds =>
      have hr : durationRanges (.duration milliseconds :: rest) =
          milliseconds :: durationRanges rest := rfl
      cases sawDuration with
      | true => simp [validateTypedParameters, unsupported] at h
      | false =>
        simp only [validateTypedParameters, Bool.false_eq_true, if_false, then_ok_iff,
          ensure_ok_iff] at h ⊢
        rw [ih h.2, hr, forall_mem_cons]
    | speed r => simp [validateTypedParameters, unsupported] at h
    | direction vs => simp [validateTypedParameters, unsupported] at h
    | brightness bits => simp [validateTypedParameters, unsupported] at h
    | choice options => simp [validateTypedParameters, unsupported] at h

def descriptorCheck (platform : Platform) (target : TargetId)
    (descriptor : HardwareEffectDescriptor) : Effect → Except DaemonError Unit
  | .hardware _ arguments => validateHardwareArguments platform target descriptor arguments
  | effect => validateEffectParameters target descriptor effect

theorem validateAnimated_ok_iff (ho : eff ≠ .off) (hs : ∀ colour, eff ≠ .static colour) :
    validateEffectForAppearance p t eff caps cct = .ok () ↔
      ∃ effects descriptor, caps.hardwareEffects = some effects ∧
        effects.effects.find? (·.id == eff.capabilityId) = some descriptor ∧
        validateScope t effects.scope = .ok () ∧ descriptorCheck p t descriptor eff = .ok () := by
  have ha : validateEffectForAppearance p t eff caps cct = validateAnimatedEffect p t eff caps := by
    cases eff <;> first | rfl | exact absurd rfl ho | exact absurd rfl (hs _)
  rw [ha, validateAnimatedEffect]
  cases caps.hardwareEffects with
  | none => simp [unsupported]
  | some effects =>
    simp only [Option.some.injEq, exists_and_left, exists_eq_left']
    cases effects.effects.find? (·.id == eff.capabilityId) with
    | none => simp [unsupported]
    | some descriptor =>
      simp only [then_ok_iff, Option.some.injEq, exists_eq_left']
      cases eff <;> rfl

theorem validateArgument_ok_iff {α : Type} {check : α → Except DaemonError Unit}
    {argument : Option α} :
    validateArgument t name check argument = .ok () ↔ ∃ v ∈ argument, check v = .ok () := by
  cases argument with
  | none => simp [validateArgument, invalid]
  | some v => simp [validateArgument]

/-- The arguments that a step changes, against every range and width advertised. -/
structure ArgumentsFit (parameters : List EffectParameter) (arguments : EffectArguments) :
    Prop where
  speeds : ∀ range ∈ speedRanges parameters, ∃ speed ∈ arguments.speed, range.contains speed = true
  durations : ∀ range ∈ durationRanges parameters,
    ∃ duration ∈ arguments.durationMs, range.contains duration = true
  brightness : ∀ bits, .brightness bits ∈ parameters →
    ∃ brightness ∈ arguments.brightness, Fits bits brightness

theorem rejectUndeclaredArguments_congr (h : SameArguments os args) :
    rejectUndeclaredArguments t desc os = rejectUndeclaredArguments t desc args := by
  have he : os.colours.isEmpty = args.colours.isEmpty := by
    have := h.colours
    cases hc : os.colours <;> cases hc' : args.colours <;> simp_all
  rw [rejectUndeclaredArguments, rejectUndeclaredArguments]
  simp only [he, h.speed, h.direction, h.durationMs, h.brightness, h.choice]

theorem validateBrightnessArgument_ok_iff {bits : ℕ} :
    validateHardwareArgument p t args (.brightness bits) = .ok () ↔
      ∃ br ∈ args.brightness, Fits bits br := by
  rw [validateHardwareArgument, validateArgument_ok_iff]
  cases hm : maximumForBits bits with
  | none => simp [unsupported, Fits, hm]
  | some maximum => simp [Fits, hm]

theorem validateHardwareArguments_fit (h : validateHardwareArguments p t desc args = .ok ()) :
    ArgumentsFit desc.parameters args := by
  rw [validateHardwareArguments, then_ok_iff, checkAll_ok_iff] at h
  refine ⟨?_, ?_, ?_⟩
  · intro r hr
    have hc := h.1 _ (mem_speedRanges.1 hr)
    rw [validateHardwareArgument, validateArgument_ok_iff] at hc
    simpa using hc
  · intro r hr
    have hc := h.1 _ (mem_durationRanges.1 hr)
    rw [validateHardwareArgument, validateArgument_ok_iff] at hc
    simpa using hc
  · intro bits hb
    exact validateBrightnessArgument_ok_iff.1 (h.1 _ hb)

theorem validateHardwareArguments_ok_iff (h : validateHardwareArguments p t desc args = .ok ())
    (hs : SameArguments os args) :
    validateHardwareArguments p t desc os = .ok () ↔ ArgumentsFit desc.parameters os := by
  refine ⟨validateHardwareArguments_fit, fun hf => ?_⟩
  rw [validateHardwareArguments, then_ok_iff, checkAll_ok_iff] at h ⊢
  refine ⟨fun param hp => ?_, ?_⟩
  · have hb := h.1 param hp
    cases param with
    | colour minimum maximum =>
      rw [validateHardwareArgument] at hb ⊢
      rw [hs.colours]
      exact hb
    | speed r =>
      rw [validateHardwareArgument, validateArgument_ok_iff]
      simpa using hf.speeds r (mem_speedRanges.2 hp)
    | direction vs =>
      rw [validateHardwareArgument] at hb ⊢
      rw [hs.direction]
      exact hb
    | duration milliseconds =>
      rw [validateHardwareArgument, validateArgument_ok_iff]
      simpa using hf.durations milliseconds (mem_durationRanges.2 hp)
    | brightness bits =>
      exact validateBrightnessArgument_ok_iff.2 (hf.brightness bits hp)
    | choice options =>
      rw [validateHardwareArgument] at hb ⊢
      rw [hs.choice]
      exact hb
  · rw [rejectUndeclaredArguments_congr hs]
    exact h.2

theorem orImpossible_ok_iff : orImpossible x = .ok v ↔ x = .ok v := by
  cases x <;> simp [orImpossible, impossible]

def snapThrough (ranges : List DiscreteRange) (value : ℕ) :
    Except TransitionInterpolationError ℕ := ranges.foldlM snapToDiscreteRangeU32 value

def snapOptional (ranges : List DiscreteRange) :
    Option ℕ → Except TransitionInterpolationError (Option ℕ)
  | none => .ok none
  | some value => do
    let snapped ← snapThrough ranges value
    return some snapped

theorem snapOptional_nil : snapOptional [] argument = .ok argument := by
  cases argument <;> rfl

theorem snapOptional_cons :
    snapOptional (r :: ranges) (some v) = (snapToDiscreteRangeU32 v r >>= fun snapped =>
        snapOptional ranges (some snapped)) := by
  rw [snapOptional, snapThrough, foldlM_cons]
  cases snapToDiscreteRangeU32 v r <;> rfl

theorem snapThrough_self (h : ∀ r ∈ ranges, r.contains v = true) :
    snapThrough ranges v = .ok v := by
  induction ranges with
  | nil => rfl
  | cons r rest ih =>
    obtain ⟨hr, hre⟩ := forall_mem_cons.1 h
    rw [snapThrough, foldlM_cons, snap_self hr]
    exact ih hre

theorem snapArguments_ok (hs : snapOptional (speedRanges params) arguments.speed = .ok speed)
    (hd : snapOptional (durationRanges params) arguments.durationMs = .ok durationMs) :
    params.foldlM snapArgument arguments = .ok { arguments with speed, durationMs } := by
  induction params generalizing arguments with
  | nil =>
    rw [speedRanges, filterMap_nil, snapOptional_nil] at hs
    rw [durationRanges, filterMap_nil, snapOptional_nil] at hd
    cases hs
    cases hd
    rfl
  | cons param rest ih =>
    rw [foldlM_cons]
    cases param with
    | speed r =>
      cases hv : arguments.speed with
      | none =>
        rw [snapArgument, hv]
        exact ih (hv ▸ hs) hd
      | some v =>
        rw [show speedRanges (.speed r :: rest) = r :: speedRanges rest from rfl, hv,
          snapOptional_cons] at hs
        obtain ⟨snapped, hsn, hs⟩ := bind_ok_iff.1 hs
        simp only [snapArgument, hv, hsn, orImpossible, ok_bind, pure_bind]
        exact ih hs hd
    | duration r =>
      cases hv : arguments.durationMs with
      | none =>
        rw [snapArgument, hv]
        exact ih hs (hv ▸ hd)
      | some v =>
        rw [show durationRanges (.duration r :: rest) = r :: durationRanges rest from rfl, hv,
          snapOptional_cons] at hd
        obtain ⟨snapped, hsn, hd⟩ := bind_ok_iff.1 hd
        simp only [snapArgument, hv, hsn, orImpossible, ok_bind, pure_bind]
        exact ih hs hd
    | _ => exact ih hs hd

theorem isSome_map₂ {start finish : Option ℕ} (hs : start.isSome = finish.isSome) :
    (Option.map₂ q start finish).isSome = start.isSome := by
  cases start <;> cases finish <;> simp_all

/-- Between two values of one range, the larger is a value to snap to. -/
theorem snapOptional_mix (ho : ranges.length ≤ 1) (hs : start.isSome = finish.isSome)
    (ha : ∀ r ∈ ranges, ∃ v ∈ start, r.contains v = true)
    (hb : ∀ r ∈ ranges, ∃ v ∈ finish, r.contains v = true) (hm : Between q) :
    ∃ snapped, snapOptional ranges (Option.map₂ q start finish) = .ok snapped ∧
      snapped.isSome = start.isSome ∧ ∀ r ∈ ranges, ∃ v ∈ snapped, r.contains v = true := by
  match ranges, ho with
  | [], _ => exact ⟨_, snapOptional_nil, isSome_map₂ hs, fun _ h => absurd h not_mem_nil⟩
  | [r], _ =>
    obtain ⟨a, rfl, hca⟩ := ha r mem_cons_self
    obtain ⟨b, rfl, hcb⟩ := hb r mem_cons_self
    have he : r.contains (max a b) = true := by
      rcases Nat.le_total a b with h | h
      · rwa [Nat.max_eq_right h]
      · rwa [Nat.max_eq_left h]
    obtain ⟨snapped, hs, hin⟩ := snap_of_below he (hm a b).2
    refine ⟨some snapped, ?_, rfl, by simpa using hin⟩
    rw [Option.map₂_some_some, snapOptional_cons, hs]
    rfl

theorem sameArguments_mix (h : SameArguments start finish) (hsp : speed.isSome = start.speed.isSome)
    (hdu : durationMs.isSome = start.durationMs.isSome) :
    SameArguments { mixArguments q start finish with speed, durationMs } start where
  direction := rfl
  choice := rfl
  colours := by simp [mixArguments, mixColours, h.colours]
  speed := hsp
  durationMs := hdu
  brightness := isSome_map₂ h.brightness

/-- With one range each, the speed and the duration of a step can be snapped into it. -/
theorem snappedArguments_valid (hst : validateHardwareArguments p t desc start = .ok ())
    (hf : validateHardwareArguments p t desc finish = .ok ())
    (hsp : (speedRanges desc.parameters).length ≤ 1)
    (hdu : (durationRanges desc.parameters).length ≤ 1) (hsa : SameArguments start finish)
    (hm : Between q) :
    ∃ snapped, desc.parameters.foldlM snapArgument (mixArguments q start finish) = .ok snapped ∧
      validateHardwareArguments p t desc snapped = .ok () := by
  have hfi := validateHardwareArguments_fit hst
  have hf' := validateHardwareArguments_fit hf
  obtain ⟨speed, hs, hso, hsr⟩ := snapOptional_mix hsp hsa.speed hfi.speeds hf'.speeds hm
  obtain ⟨durationMs, hd, hdo, hdr⟩ :=
    snapOptional_mix hdu hsa.durationMs hfi.durations hf'.durations hm
  refine ⟨_, snapArguments_ok hs hd, ?_⟩
  refine (validateHardwareArguments_ok_iff hst (sameArguments_mix hsa hso hdo)).2 ⟨hsr, hdr, ?_⟩
  intro bits hbi
  obtain ⟨v, hv, hfv⟩ := hfi.brightness bits hbi
  obtain ⟨v', hv', hfv'⟩ := hf'.brightness bits hbi
  exact ⟨_, Option.mem_map₂_iff.2 ⟨v, v', hv, hv', rfl⟩, hfv.mix hfv' hm⟩

/-- A width that represents the emulation of two temperatures represents it for
those between them. The routine is taken from outside. -/
def KelvinBetween (platform : Platform) : Prop :=
  ∀ a b kelvin bits, min a b ≤ kelvin → kelvin ≤ max a b →
    ∀ channel ∈ [Rgb.r, Rgb.g, Rgb.b], Fits bits (channel (platform.kelvinToRgb a)).toNat →
      Fits bits (channel (platform.kelvinToRgb b)).toNat →
        Fits bits (channel (platform.kelvinToRgb kelvin)).toNat

section

variable {cctEmulationOverride : Option CctEmulation}

theorem Admits.between (h : Admits channels ⟨name, v⟩) (h' : Admits channels ⟨name, v'⟩)
    (hfi : ∀ bits, Fits bits v → Fits bits v' → Fits bits middle) :
    Admits channels ⟨name, middle⟩ := by
  obtain ⟨ch, hf, hv⟩ := h
  obtain ⟨ch', hf', hv'⟩ := h'
  rw [hf] at hf'
  cases hf'
  exact ⟨ch, hf, hfi _ hv hv'⟩

theorem ChannelsFit.emulated (hk : KelvinBetween p) (hmi : min a b ≤ kelvin) (hm : kelvin ≤ max a b)
    (ha : ChannelsFit (.additive channels) (Colour.rgb (p.kelvinToRgb a)))
    (hb : ChannelsFit (.additive channels) (Colour.rgb (p.kelvinToRgb b))) :
    ChannelsFit (.additive channels) (Colour.rgb (p.kelvinToRgb kelvin)) := by
  have hbe := fun ch hc bits => hk a b kelvin bits hmi hm ch hc
  obtain ⟨hl, hf⟩ := ha
  obtain ⟨-, hf'⟩ := hb
  simp only [forall_mem_cons, not_mem_nil, false_imp_iff, implies_true, and_true] at hf hf'
  obtain ⟨hr, hg, hbl⟩ := hf
  obtain ⟨hr', hg', hb'⟩ := hf'
  refine ⟨hl, ?_⟩
  simp only [forall_mem_cons, not_mem_nil, false_imp_iff, implies_true, and_true]
  exact ⟨hr.between hr' (hbe Rgb.r (by simp)), hg.between hg' (hbe Rgb.g (by simp)),
    hbl.between hb' (hbe Rgb.b (by simp))⟩

/-- The additive capability that emulates temperatures, if any. -/
def emulator (capabilities : AppearanceCapability) (cctEmulationOverride : Option CctEmulation) :
    Option ColourCapability :=
  if capabilities.cctEmulation ≠ .disabled ∧ cctEmulationOverride.getD .auto = .auto then
    capabilities.colour.find? isAdditiveCapability
  else none

theorem emulateCct_cct : emulateCct p (.cct kelvin) caps cctEmulationOverride =
      (emulator caps cctEmulationOverride).map
        fun capability => (Colour.rgb (p.kelvinToRgb kelvin), capability) := by
  simp only [emulateCct, emulator]
  cases caps.cctEmulation <;> cases cctEmulationOverride.getD .auto <;>
    cases caps.colour.find? isAdditiveCapability <;> rfl

theorem emulator_additive (h : emulator caps cctEmulationOverride = some capability) :
    ∃ channels, capability = .additive channels := by
  rw [emulator] at h
  split at h
  · have ha := find?_some h
    cases capability <;> first | exact ⟨_, rfl⟩ | cases ha
  · cases h

theorem validateCct_between (hk : KelvinBetween p) (hmi : min a b ≤ kelvin) (hm : kelvin ≤ max a b)
    (ha : validateEffectForAppearance p t (.static (.cct a)) caps cctEmulationOverride = .ok ())
    (hb : validateEffectForAppearance p t (.static (.cct b)) caps cctEmulationOverride = .ok ()) :
    validateEffectForAppearance p t (.static (.cct kelvin)) caps cctEmulationOverride = .ok () := by
  have hs : ∀ other, (Colour.cct other).encoding = (Colour.cct kelvin).encoding := fun _ => rfl
  rw [validateColour_ok_iff] at ha hb ⊢
  simp only [capabilityMatchesColour_congr (hs a), emulateCct_cct] at ha
  simp only [capabilityMatchesColour_congr (hs b), emulateCct_cct] at hb
  rw [emulateCct_cct]
  cases hf : caps.colour.find? (capabilityMatchesColour · (.cct kelvin)) with
  | some capability =>
    simp only [hf, Option.some.injEq, exists_eq_left', reduceCtorEq, false_and, or_false] at ha hb ⊢
    cases capability with
    | cct bits =>
      rcases Nat.le_total a b with h | h
      · exact Fits.mono hb (by omega)
      · exact Fits.mono ha (by omega)
    | _ => exact ha.elim
  | none =>
    simp only [hf, reduceCtorEq, false_and, exists_false, true_and, false_or,
      Option.map_eq_some_iff, Prod.mk.injEq] at ha hb ⊢
    obtain ⟨_, capability, ⟨_, hc, rfl, rfl⟩, ha⟩ := ha
    obtain ⟨_, _, ⟨_, hc', rfl, rfl⟩, hb⟩ := hb
    rw [hc] at hc'
    cases hc'
    obtain ⟨channels, rfl⟩ := emulator_additive hc
    exact ⟨_, _, ⟨_, hc, rfl, rfl⟩, ha.emulated hk hmi hm hb⟩

end

/-- `validate_effects` of `luminate-core` refuses descriptors that repeat one. -/
def parameterKind : EffectParameter → ℕ
  | .colour .. => 0
  | .speed _ => 1
  | .direction _ => 2
  | .duration _ => 3
  | .brightness _ => 4
  | .choice _ => 5

def DistinctKinds (descriptor : HardwareEffectDescriptor) : Prop :=
  (descriptor.parameters.map parameterKind).Nodup

theorem length_filterMap_le_one (kind : ℕ)
    (hk : ∀ param r, r? param = some r → parameterKind param = kind)
    (h : (params.map parameterKind).Nodup) : (params.filterMap r?).length ≤ 1 := by
  induction params with
  | nil => simp
  | cons param rest ih =>
    obtain ⟨hn, hre⟩ := nodup_cons.1 h
    cases hr : r? param with
    | none =>
      rw [filterMap_cons_none hr]
      exact ih hre
    | some r =>
      have hno : rest.filterMap r? = [] := by
        rw [filterMap_eq_nil_iff]
        intro other ho
        by_contra hs
        obtain ⟨r', hr'⟩ := Option.ne_none_iff_exists'.1 hs
        apply hn
        rw [hk param r hr, ← hk other r' hr']
        exact mem_map_of_mem ho
      rw [filterMap_cons_some hr, hno]
      exact Nat.le_refl 1

theorem DistinctKinds.speeds {descriptor : HardwareEffectDescriptor}
    (h : DistinctKinds descriptor) : (speedRanges descriptor.parameters).length ≤ 1 := by
  refine length_filterMap_le_one 1 ?_ h
  intro param r hr
  cases param <;> first | rfl | cases hr

theorem DistinctKinds.durations {descriptor : HardwareEffectDescriptor}
    (h : DistinctKinds descriptor) : (durationRanges descriptor.parameters).length ≤ 1 := by
  refine length_filterMap_le_one 3 ?_ h
  intro param r hr
  cases param <;> first | rfl | cases hr

def periodOf (effect : Effect) : Option ℕ := (typedParameters effect).map (·.2)

def advertisedDurations (state : DaemonState) (target : TargetId) (id : HardwareEffectId) :
    List DiscreteRange := (advertisedEffect state target id).elim [] (durationRanges ·.parameters)

theorem validateEffect_eq (hc : capabilitiesForTarget s.topology t = some caps) :
    validateEffect p s t eff = validateEffectForAppearance p t
      eff caps.toAppearanceCapability s.cctEmulationOverride := by
  rw [validateEffect, capabilitiesForTargetOrError, hc]
  rfl

theorem exists_capabilities (h : validateEffect p s t eff = .ok ()) :
    ∃ caps, capabilitiesForTarget s.topology t = some caps := by
  rw [validateEffect, capabilitiesForTargetOrError] at h
  cases hc : capabilitiesForTarget s.topology t with
  | none =>
    rw [hc] at h
    cases h
  | some caps => exact ⟨caps, rfl⟩

theorem validateDescribed_ok_iff (ho : eff ≠ .off) (hst : ∀ colour, eff ≠ .static colour) :
    validateEffect p s t eff = .ok () ↔ ∃ caps effects descriptor,
        capabilitiesForTarget s.topology t = some caps ∧ caps.hardwareEffects = some effects ∧
        advertisedEffect s t eff.capabilityId = some descriptor ∧
        validateScope t effects.scope = .ok () ∧ descriptorCheck p t descriptor eff = .ok () := by
  constructor
  · intro h
    obtain ⟨caps, hc⟩ := exists_capabilities h
    rw [validateEffect_eq hc, validateAnimated_ok_iff ho hst] at h
    obtain ⟨effects, descriptor, he, hd, hs, hch⟩ := h
    refine ⟨caps, effects, descriptor, hc, he, ?_, hs, hch⟩
    rw [advertisedEffect, hc, Option.bind_some, findEffect, he]
    exact hd
  · rintro ⟨caps, effects, descriptor, hc, he, hd, hs, hch⟩
    rw [advertisedEffect, hc, Option.bind_some, findEffect, he] at hd
    rw [validateEffect_eq hc, validateAnimated_ok_iff ho hst]
    exact ⟨effects, descriptor, he, hd, hs, hch⟩

theorem static_step_valid {start finish : Colour} (hk : KelvinBetween p)
    (hh : ∀ caps, capabilitiesForTarget s.topology t = some caps →
      ∀ capability, caps.colour.find? (capabilityMatchesColour · start) =
        some capability → HueBound capability mx) (hu : ∀ a b, hue a b ≤ mx)
    (hs : validateEffect p s t (.static start) = .ok ())
    (hf : validateEffect p s t (.static finish) = .ok ())
    (hsa : SameColour start finish) (hm : Between q) :
    validateEffect p s t (.static (mixColour q hue start finish)) = .ok () := by
  obtain ⟨caps, hc⟩ := exists_capabilities hs
  rw [validateEffect_eq hc] at hs hf ⊢
  by_cases hcc : start.encoding = .cct
  · cases hsa <;> first
      | exact validateCct_between hk (hm _ _).1 (hm _ _).2 hs hf
      | cases hcc
  · exact validateStatic_step hcc (hh caps hc) hu hs hf hsa hm

theorem typed_step_valid_iff {count : Option ℕ} (hid : step.capabilityId = start.capabilityId)
    (hst : typedParameters start = some (count, period))
    (hse : typedParameters step = some (count, period'))
    (hv : validateEffect p s t start = .ok ()) :
    validateEffect p s t step = .ok () ↔ ∀ r ∈ advertisedDurations s t start.capabilityId,
        r.contains period' = true := by
  have hd : ∀ {eff : Effect} {count : Option ℕ} {period : ℕ},
      typedParameters eff = some (count, period) → eff ≠ .off ∧ (∀ colour, eff ≠ .static colour) ∧
      ∀ descriptor, descriptorCheck p t descriptor eff =
        validateTypedParameters t count period count.isNone false descriptor.parameters := by
    intro eff count period ht
    cases eff <;> cases ht <;> exact ⟨nofun, nofun, fun _ => rfl⟩
  obtain ⟨ho, hs, hch⟩ := hd hst
  obtain ⟨ho', hs', hc'⟩ := hd hse
  obtain ⟨caps, effects, descriptor, hc, he, hde, hsc, ha⟩ := (validateDescribed_ok_iff ho hs).1 hv
  rw [hch] at ha
  rw [validateDescribed_ok_iff ho' hs', hid, advertisedDurations, hde,
    Option.elim_some, ← validateTypedParameters_period ha]
  simp only [hc', hc, Option.some.injEq]
  constructor
  · rintro ⟨_, _, _, rfl, -, rfl, -, h⟩
    exact h
  · intro h
    exact ⟨caps, effects, descriptor, rfl, he, rfl, hsc, h⟩

theorem validateHardware_ok_iff {id : HardwareEffectId} :
    validateEffect p s t (.hardware id arguments) = .ok () ↔ ∃ caps effects descriptor,
        capabilitiesForTarget s.topology t = some caps ∧ caps.hardwareEffects = some effects ∧
        advertisedEffect s t id = some descriptor ∧ validateScope t effects.scope = .ok () ∧
        validateHardwareArguments p t descriptor arguments = .ok () :=
  validateDescribed_ok_iff nofun nofun

theorem hardware_step_valid {id : HardwareEffectId} {start finish : EffectArguments}
    (hk : ∀ descriptor ∈ advertisedEffect s t id, DistinctKinds descriptor)
    (hst : validateEffect p s t (.hardware id start) = .ok ())
    (hf : validateEffect p s t (.hardware id finish) = .ok ())
    (hsa : SameArguments start finish) (hm : Between q) :
    ∃ snapped, snapHardwareEffect s t (.hardware id (mixArguments q start finish)) =
      .ok snapped ∧ validateEffect p s t snapped = .ok () := by
  obtain ⟨caps, effects, descriptor, hc, he, hde, hsc, hch⟩ := validateHardware_ok_iff.1 hst
  obtain ⟨-, -, desc', -, -, hd', -, hc'⟩ := validateHardware_ok_iff.1 hf
  rw [hde] at hd'
  cases hd'
  have hdi := hk descriptor hde
  obtain ⟨snapped, hs, hv⟩ := snappedArguments_valid hch hc' hdi.speeds hdi.durations hsa hm
  refine ⟨.hardware id snapped, ?_, ?_⟩
  · simp only [snapHardwareEffect, hde, hs]
    rfl
  · exact validateHardware_ok_iff.2 ⟨caps, effects, descriptor, hc, he, hde, hsc, hv⟩

/-- A step of two accepted effects is accepted once it is snapped, unless it is a
period that its descriptor does not advertise. -/
theorem effect_step_valid_iff (hk : KelvinBetween p) (hh : ∀ colour, start = .static colour →
      ∀ caps, capabilitiesForTarget s.topology t = some caps →
      ∀ capability, caps.colour.find? (capabilityMatchesColour · colour) =
        some capability → HueBound capability mx)
    (hki : ∀ descriptor ∈ advertisedEffect s t start.capabilityId, DistinctKinds descriptor)
    (hu : ∀ a b, hue a b ≤ mx) (hs : validateEffect p s t start = .ok ())
    (hf : validateEffect p s t finish = .ok ()) (hst : SameStructure start finish)
    (hm : Between q) :
    (∃ snapped, snapHardwareEffect s t (mixEffect q hue start finish) = .ok snapped ∧
        validateEffect p s t snapped = .ok ()) ↔
      ∀ period ∈ periodOf start, ∀ period' ∈ periodOf finish,
        ∀ r ∈ advertisedDurations s t start.capabilityId,
          r.contains (q period period') = true := by
  cases hst with
  | static hc =>
    refine iff_of_true ⟨_, rfl, ?_⟩ (fun _ hp => by cases hp)
    exact static_step_valid hk (hh _ rfl) hu hs hf hc hm
  | breathe | pulse | strobe | scanner | spectrum | rainbow =>
    simp only [mixEffect, snapHardwareEffect, periodOf, typedParameters, Except.ok.injEq,
      exists_eq_left', Option.map_some, Option.mem_some, forall_eq']
    exact typed_step_valid_iff rfl rfl rfl hs
  | morph hl =>
    simp only [mixEffect, snapHardwareEffect, periodOf, typedParameters, Except.ok.injEq,
      exists_eq_left', Option.map_some, Option.mem_some, forall_eq']
    exact typed_step_valid_iff rfl rfl (by simp [typedParameters, mixColours, hl]) hs
  | hardware ha =>
    refine iff_of_true ?_ (fun _ hp => by cases hp)
    exact hardware_step_valid hki hs hf ha hm

end TransitionSteps
