import Luminate.DaemonModel
import Mathlib.Algebra.GroupWithZero.Nat

/-! # Mutation validation

`state/validation.rs`: which colours, effects, brightness values and appearance
slots a target accepts, with the diagnostics it returns. -/
namespace Validation

open Checks DeviceModel TargetTopology DaemonModel List

def unsupported {α : Type} (target : TargetId) (reason : String) : Except DaemonError α :=
  .error (.unsupportedCapability target reason)

def invalid {α : Type} (target : TargetId) (reason : String) : Except DaemonError α :=
  .error (.invalidArgument target reason)

def channelDebug : ColourChannel → String
  | .red => "Red" | .green => "Green" | .blue => "Blue" | .white => "White"
  | .warmWhite => "WarmWhite" | .coolWhite => "CoolWhite" | .amber => "Amber"
  | .ultraviolet => "Ultraviolet" | .hue => "Hue" | .saturation => "Saturation"
  | .value => "Value" | .lightness => "Lightness" | .temperature => "Temperature"
  | .intensity => "Intensity"

def encodingDebug : ColourEncoding → String
  | .additive => "Additive" | .hsv => "Hsv" | .hsl => "Hsl" | .cct => "Cct"
  | .monochrome => "Monochrome"

def scopeDebug : CapabilityScope → String
  | .element => "Element" | .surface => "Surface" | .device => "Device"
  | .controller => "Controller"

section

variable (platform : Platform) (target : TargetId)

def targetDebug : TargetId → String
  | .device d => "Device(DeviceId(" ++ platform.debugText d ++ "))"
  | .surface d s => "Surface \x7b device: DeviceId(" ++ platform.debugText d ++
      "), surface: SurfaceId(" ++ platform.debugText s ++ ") \x7d"
  | .element d s e => "Element \x7b device: DeviceId(" ++ platform.debugText d ++
      "), surface: SurfaceId(" ++ platform.debugText s ++ "), element: ElementId(" ++
      platform.debugText e ++ ") \x7d"
  | .group d g => "Group \x7b device: DeviceId(" ++ platform.debugText d ++
      "), group: GroupId(" ++ platform.debugText g ++ ") \x7d"

def facetKindDebug : StateFacetKind → String
  | .appearance => "Appearance" | .brightness => "Brightness" | .emission => "Emission"
  | .physicalPower => "PhysicalPower" | .effectiveAppearance => "EffectiveAppearance"
  | .appearanceSlots => "AppearanceSlots"

def slotDebug (slot : AppearanceSlotId) : String :=
  "AppearanceSlotId(" ++ platform.debugText slot ++ ")"

def maximumForBits (bits : ℕ) : Option ℕ :=
  if 1 ≤ bits ∧ bits ≤ 32 then some (2 ^ bits - 1) else none

def capabilityMatchesColour : ColourCapability → Colour → Bool
  | .additive _, .additive _ => true
  | .hsv .., .hsv .. => true
  | .hsl .., .hsl .. => true
  | .cct _, .cct _ => true
  | .monochrome _, .monochrome _ => true
  | _, _ => false

def validateFixedChannels : List (String × ℕ × ℕ) → Except DaemonError Unit :=
  checkAll fun (name, value, bits) =>
    match maximumForBits bits with
    | none => unsupported target
        ("advertised " ++ name ++ " channel has invalid bit width " ++ toString bits)
    | some maximum =>
      if maximum < value then
        invalid target (name ++ " value " ++ toString value ++ " exceeds " ++ toString maximum ++
          " for " ++ toString bits ++ " bits")
      else .ok ()

def validateAdditiveChannel (channels : List ColourChannelCapability) (value : ColourChannelValue) :
    Except DaemonError Unit :=
  match channels.find? (·.channel == value.channel) with
  | none => invalid target ("channel " ++ channelDebug value.channel ++ " is not advertised")
  | some channel =>
    match maximumForBits channel.bits with
    | none => unsupported target ("advertised channel " ++ channelDebug value.channel ++
        " has invalid bit width " ++ toString channel.bits)
    | some maximum =>
      if maximum < value.value then
        invalid target ("channel " ++ channelDebug value.channel ++ " value " ++
          toString value.value ++ " exceeds " ++ toString maximum ++ " for " ++
          toString channel.bits ++ " bits")
      else .ok ()

def validateColourChannels (colour : Colour) (capability : ColourCapability) :
    Except DaemonError Unit :=
  match colour, capability with
  | .additive values, .additive channels =>
    if values.length ≠ channels.length then
      invalid target ("colour requires exactly " ++ toString channels.length ++
        " channels, received " ++ toString values.length)
    else checkAll (validateAdditiveChannel target channels) values
  | .hsv hue saturation value, .hsv hueBits saturationBits valueBits =>
    validateFixedChannels target [("hue", hue, hueBits),
      ("saturation", saturation, saturationBits), ("value", value, valueBits)]
  | .hsl hue saturation lightness, .hsl hueBits saturationBits lightnessBits =>
    validateFixedChannels target [("hue", hue, hueBits),
      ("saturation", saturation, saturationBits), ("lightness", lightness, lightnessBits)]
  | .cct kelvin, .cct bits => validateFixedChannels target [("temperature", kelvin, bits)]
  | .monochrome intensity, .monochrome bits =>
    validateFixedChannels target [("intensity", intensity, bits)]
  | _, _ => invalid target "colour model does not match capability"

def isAdditiveCapability : ColourCapability → Bool
  | .additive _ => true
  | _ => false

/-- The additive approximation of a temperature, where emulation applies. -/
def emulateCct (colour : Colour) (capabilities : AppearanceCapability)
    (cctEmulationOverride : Option CctEmulation) : Option (Colour × ColourCapability) :=
  let emulation := if capabilities.cctEmulation = .disabled then .disabled
    else cctEmulationOverride.getD .auto
  match colour, emulation, capabilities.colour.find? isAdditiveCapability with
  | .cct kelvin, .auto, some capability =>
    some (Colour.rgb (platform.kelvinToRgb kelvin), capability)
  | _, _, _ => none

end

section

variable (platform : Platform) (state : DaemonState) (target : TargetId)

def resolveColourForAppearance (colour : Colour) (capabilities : AppearanceCapability)
    (cctEmulationOverride : Option CctEmulation) : Except DaemonError Colour :=
  match capabilities.colour.find? (capabilityMatchesColour · colour) with
  | some capability => do
    validateColourChannels target colour capability
    return colour
  | none =>
    match emulateCct platform colour capabilities cctEmulationOverride with
    | some (emulated, capability) => do
      validateColourChannels target emulated capability
      return emulated
    | none =>
      if capabilities.colour.isEmpty then unsupported target "target has no colour capability"
      else invalid target ("colour encoding " ++ encodingDebug colour.encoding ++
        " does not match any advertised encoding")

def findEffect (capabilities : AppearanceCapability) (id : HardwareEffectId) :
    Option HardwareEffectDescriptor :=
  capabilities.hardwareEffects.bind fun effects => effects.effects.find? (·.id == id)

def requiredScope : TargetId → CapabilityScope
  | .device _ => .device
  | .group .. => .device
  | .surface .. => .surface
  | .element .. => .element

def validateScope (scope : CapabilityScope) : Except DaemonError Unit :=
  ensure (scope = requiredScope target) (.unsupportedCapability target
    ("capability scope is " ++ scopeDebug scope ++ ", target requires " ++
      scopeDebug (requiredScope target)))

def rangeDebug (range : DiscreteRange) : String :=
  toString range.min ++ "..=" ++ toString range.max ++ " step " ++ toString range.step

def validateColourCount (minimum maximum count : ℕ) : Except DaemonError Unit :=
  ensure (minimum ≤ count && count ≤ maximum) (.invalidArgument target
    ("effect requires " ++ toString minimum ++ "..=" ++ toString maximum ++
      " colours, received " ++ toString count))

/-- Colour count and period of the built-in effects with typed parameters. -/
def typedParameters : Effect → Option (Option ℕ × ℕ)
  | .breathe _ period => some (some 1, period)
  | .pulse _ period => some (some 1, period)
  | .strobe _ period => some (some 1, period)
  | .scanner _ period => some (some 1, period)
  | .morph colours period => some (some colours.length, period)
  | .spectrum period => some (none, period)
  | .rainbow period => some (none, period)
  | .off => none
  | .static _ => none
  | .hardware .. => none

/-- The parameter loop of `validate_effect_parameters`; the flags say which
parameters have been met. -/
def validateTypedParameters (target : TargetId) (colourCount : Option ℕ) (periodMs : ℕ)
    (sawColour sawDuration : Bool) : List EffectParameter → Except DaemonError Unit
  | [] =>
    if sawColour && sawDuration then .ok ()
    else unsupported target "effect descriptor does not bound all wire parameters"
  | .colour minimum maximum :: rest =>
    if sawColour then unsupported target "duplicate colour effect parameter"
    else
      match colourCount with
      | none => invalid target "effect does not accept colour parameters"
      | some count => do
        validateColourCount target minimum maximum count
        validateTypedParameters target colourCount periodMs true sawDuration rest
  | .duration milliseconds :: rest =>
    if sawDuration then unsupported target "duplicate duration effect parameter"
    else do
      ensure (milliseconds.contains periodMs) (.invalidArgument target
        ("effect duration " ++ toString periodMs ++ "ms is outside " ++ rangeDebug milliseconds))
      validateTypedParameters target colourCount periodMs sawColour true rest
  | .speed _ :: _ | .direction _ :: _ | .brightness _ :: _ | .choice _ :: _ =>
    unsupported target "effect descriptor requires a parameter absent from the wire effect"

def validateEffectParameters (descriptor : HardwareEffectDescriptor) (effect : Effect) :
    Except DaemonError Unit :=
  match typedParameters effect with
  | none => .ok ()
  | some (colourCount, periodMs) =>
    validateTypedParameters target colourCount periodMs colourCount.isNone false
      descriptor.parameters

/-- A required argument: missing, or present and checked. -/
def validateArgument {α : Type} (target : TargetId) (name : String)
    (check : α → Except DaemonError Unit) : Option α → Except DaemonError Unit
  | none => invalid target ("effect requires a " ++ name ++ " argument")
  | some value => check value

def validateHardwareArgument (arguments : EffectArguments) :
    EffectParameter → Except DaemonError Unit
  | .colour minimum maximum => validateColourCount target minimum maximum arguments.colours.length
  | .speed range =>
    validateArgument target "speed" (fun value =>
      ensure (range.contains value) (.invalidArgument target
        ("speed " ++ toString value ++ " is outside " ++ rangeDebug range))) arguments.speed
  | .direction values =>
    validateArgument target "direction" (fun value =>
      ensure (values.contains value) (.invalidArgument target
        "direction is not among the advertised values")) arguments.direction
  | .duration milliseconds =>
    validateArgument target "duration" (fun value =>
      ensure (milliseconds.contains value) (.invalidArgument target
        ("duration " ++ toString value ++ "ms is outside " ++ rangeDebug milliseconds)))
      arguments.durationMs
  | .brightness bits =>
    validateArgument target "brightness" (fun value =>
      match maximumForBits bits with
      | none => unsupported target
          ("advertised brightness has invalid bit width " ++ toString bits)
      | some maximum => ensure (value ≤ maximum) (.invalidArgument target
          ("brightness " ++ toString value ++ " exceeds " ++ toString maximum ++ " for " ++
            toString bits ++ " bits"))) arguments.brightness
  | .choice options =>
    validateArgument target "choice" (fun value =>
      ensure (options.contains value) (.invalidArgument target
        ("choice " ++ platform.debugText value ++ " is not an advertised option")))
      arguments.choice

def EffectParameter.isColour : EffectParameter → Bool | .colour .. => true | _ => false

def EffectParameter.isSpeed : EffectParameter → Bool | .speed _ => true | _ => false

def EffectParameter.isDirection : EffectParameter → Bool | .direction _ => true | _ => false

def EffectParameter.isDuration : EffectParameter → Bool | .duration _ => true | _ => false

def EffectParameter.isBrightness : EffectParameter → Bool | .brightness _ => true | _ => false

def EffectParameter.isChoice : EffectParameter → Bool | .choice _ => true | _ => false

/-- An argument may only be supplied for a declared parameter. -/
def rejectUndeclaredArguments (descriptor : HardwareEffectDescriptor)
    (arguments : EffectArguments) : Except DaemonError Unit := do
  let declared (supplied : Bool) (declares : EffectParameter → Bool) (reason : String) :=
    ensure (!supplied || descriptor.parameters.any declares)
      (DaemonError.invalidArgument target reason)
  declared (!arguments.colours.isEmpty) EffectParameter.isColour
    "effect does not accept colour arguments"
  declared arguments.speed.isSome EffectParameter.isSpeed
    "effect does not accept a speed argument"
  declared arguments.direction.isSome EffectParameter.isDirection
    "effect does not accept a direction argument"
  declared arguments.durationMs.isSome EffectParameter.isDuration
    "effect does not accept a duration argument"
  declared arguments.brightness.isSome EffectParameter.isBrightness
    "effect does not accept a brightness argument"
  declared arguments.choice.isSome EffectParameter.isChoice
    "effect does not accept a choice argument"

def validateHardwareArguments (descriptor : HardwareEffectDescriptor)
    (arguments : EffectArguments) : Except DaemonError Unit := do
  checkAll (validateHardwareArgument platform target arguments) descriptor.parameters
  rejectUndeclaredArguments target descriptor arguments

/-- The part of `validate_effect_for_appearance` behind `Off` and `Static`. -/
def validateAnimatedEffect (effect : Effect) (capabilities : AppearanceCapability) :
    Except DaemonError Unit :=
  let notAdvertised := "effect " ++ effect.capabilityId ++ " is not advertised"
  match capabilities.hardwareEffects with
  | none => unsupported target notAdvertised
  | some effects =>
    match effects.effects.find? (·.id == effect.capabilityId) with
    | none => unsupported target notAdvertised
    | some descriptor => do
      validateScope target effects.scope
      match effect with
      | .hardware _ arguments => validateHardwareArguments platform target descriptor arguments
      | _ => validateEffectParameters target descriptor effect

def validateEffectForAppearance (effect : Effect) (capabilities : AppearanceCapability)
    (cctEmulationOverride : Option CctEmulation) : Except DaemonError Unit :=
  match effect with
  | .off =>
    ensure (!capabilities.colour.isEmpty || (findEffect capabilities "off").isSome)
      (.unsupportedCapability target "target cannot be turned off")
  | .static colour => do
    let _ ← resolveColourForAppearance platform target colour capabilities cctEmulationOverride
    return ()
  | _ => validateAnimatedEffect platform target effect capabilities

def capabilitiesForTargetOrError : Except DaemonError CapabilitySet :=
  match capabilitiesForTarget state.topology target with
  | some capabilities => .ok capabilities
  | none => .error (.targetNotFound target)

def ensureTargetExists : Except DaemonError Unit :=
  ensure (capabilitiesForTarget state.topology target).isSome (.targetNotFound target)

def resolveColour (colour : Colour) : Except DaemonError Colour := do
  let capabilities ← capabilitiesForTargetOrError state target
  resolveColourForAppearance platform target colour capabilities.toAppearanceCapability
    state.cctEmulationOverride

def validateColour (colour : Colour) : Except DaemonError Unit := do
  let _ ← resolveColour platform state target colour
  return ()

def validateEffect (effect : Effect) : Except DaemonError Unit := do
  let capabilities ← capabilitiesForTargetOrError state target
  validateEffectForAppearance platform target effect capabilities.toAppearanceCapability
    state.cctEmulationOverride

def validateBrightness (value : ℕ) : Except DaemonError Unit := do
  let capabilities ← capabilitiesForTargetOrError state target
  match capabilities.brightness with
  | .none => unsupported target "target has no independent brightness capability"
  | .independent bits maximum scope =>
    validateScope target scope
    match maximumForBits bits with
    | none => unsupported target ("invalid brightness bit width " ++ toString bits)
    | some representableMaximum =>
      ensure (maximum ≤ representableMaximum) (.unsupportedCapability target
        ("brightness maximum " ++ toString maximum ++ " exceeds " ++ toString bits ++
          "-bit representation"))
      ensure (value ≤ maximum) (.invalidArgument target
        ("brightness " ++ toString value ++ " exceeds advertised maximum " ++ toString maximum))

/-- Slot values last written to exactly this target, or adopted for it. -/
def knownAppearanceSlotValues : List AppearanceSlotValue :=
  let adopted := state.adoptedBaseline.flatMap fun facet =>
    if facet.target = target then
      match facet.value with
      | .appearanceSlots slots => slots.values
      | _ => []
    else []
  state.targetState.foldl (fun known entry =>
    if entry.target = target then
      match entry.state with
      | .appearanceSlots values => values
      | .clear => []
      | _ => known
    else known) adopted

def isSurface : TargetId → Bool
  | .surface .. => true
  | _ => false

def findSlot (slots : List AppearanceSlotDescriptor) (slot : AppearanceSlotId) :
    Except DaemonError AppearanceSlotDescriptor :=
  match slots.find? (·.id == slot) with
  | some descriptor => .ok descriptor
  | none => invalid target ("unknown appearance slot " ++ slotDebug platform slot)

def ensureSlotFresh (seen : List AppearanceSlotId) (slot : AppearanceSlotId) :
    Except DaemonError Unit :=
  ensure (slot ∉ seen) (.invalidArgument target
    ("appearance slot " ++ slotDebug platform slot ++ " occurs more than once"))

def resolveSlotEffect (effect : Effect) (descriptor : AppearanceSlotDescriptor)
    (cctEmulationOverride : Option CctEmulation) : Except DaemonError Effect :=
  match effect with
  | .static colour => do
    let resolved ← resolveColourForAppearance platform target colour descriptor.appearance
      cctEmulationOverride
    return .static resolved
  | _ => do
    validateEffectForAppearance platform target effect descriptor.appearance cctEmulationOverride
    return effect

/-- The value loop of `validate_appearance_slot_values`. -/
def resolveSlotValues (platform : Platform) (target : TargetId)
    (slots : List AppearanceSlotDescriptor) (cctEmulationOverride : Option CctEmulation)
    (seen : List AppearanceSlotId) : List AppearanceSlotValue →
    Except DaemonError (List AppearanceSlotValue)
  | [] => .ok []
  | value :: rest => do
    ensureSlotFresh platform target seen value.slot
    let descriptor ← findSlot platform target slots value.slot
    let effect ← resolveSlotEffect platform target value.effect descriptor cctEmulationOverride
    let resolved ← resolveSlotValues platform target slots cctEmulationOverride
      (value.slot :: seen) rest
    return ⟨value.slot, effect⟩ :: resolved

def completeSlots (target : TargetId) (known : List AppearanceSlotValue)
    (seen : List AppearanceSlotId) : List AppearanceSlotDescriptor →
    Except DaemonError (List AppearanceSlotValue)
  | [] => .ok []
  | descriptor :: rest =>
    if descriptor.id ∈ seen then completeSlots target known seen rest
    else
      match known.find? (·.slot == descriptor.id) with
      | none => .error (.unknownState target)
      | some value => do
        let completed ← completeSlots target known seen rest
        return value :: completed

def appearanceSlotsOrError : Except DaemonError AppearanceSlotsCapability := do
  let capabilities ← capabilitiesForTargetOrError state target
  match capabilities.appearanceSlots with
  | some slots => return slots
  | none => unsupported target "target does not advertise appearance slots"

def validateAppearanceSlotValues (values : List AppearanceSlotValue) :
    Except DaemonError (List AppearanceSlotValue) := do
  ensure (isSurface target) (.invalidArgument target
    "appearance slots require one concrete surface")
  ensure (!values.isEmpty) (.invalidArgument target "appearance-slot mutation is empty")
  let slots ← appearanceSlotsOrError state target
  let resolved ← resolveSlotValues platform target slots.slots state.cctEmulationOverride [] values
  if values.length = slots.slots.length then return resolved
  else
    match slots.updatePolicy with
    | .independent => return resolved
    | .partialIfKnown =>
      let completed ← completeSlots target (knownAppearanceSlotValues state target)
        (values.map (·.slot)) slots.slots
      return resolved ++ completed
    | .completeSet => invalid target "appearance-slot mutation must include every slot"

def checkObservedSlots (platform : Platform) (target : TargetId)
    (slots : List AppearanceSlotDescriptor) (cctEmulationOverride : Option CctEmulation)
    (seen : List AppearanceSlotId) : List AppearanceSlotValue → Except DaemonError Unit
  | [] => .ok ()
  | value :: rest => do
    ensureSlotFresh platform target seen value.slot
    let descriptor ← findSlot platform target slots value.slot
    validateEffectForAppearance platform target value.effect descriptor.appearance
      cctEmulationOverride
    checkObservedSlots platform target slots cctEmulationOverride (value.slot :: seen) rest

/-- Whether the observed values name every advertised slot. -/
def validateObservedAppearanceSlotValues (values : List AppearanceSlotValue) :
    Except DaemonError Bool := do
  ensure (!values.isEmpty) (.invalidArgument target "appearance-slot observation is empty")
  let slots ← appearanceSlotsOrError state target
  checkObservedSlots platform target slots.slots state.cctEmulationOverride [] values
  return values.length = slots.slots.length

def validateTargetState (targetState : TargetState) : Except DaemonError Unit :=
  match targetState with
  | .effect effect => validateEffect platform state target effect
  | .brightness value => validateBrightness state target value
  | .appearanceSlots values => do
    let _ ← validateAppearanceSlotValues platform state target values
    return ()
  | .clear => ensureTargetExists state target

end

/-- Every advertised slot is named, so nothing is filled in from known values. -/
def NamesAllSlots (topology : Topology) (entry : TargetStateEntry) : Prop :=
  ∀ values, entry.state = .appearanceSlots values →
    ∀ capabilities ∈ capabilitiesForTarget topology entry.target,
      ∀ slots ∈ capabilities.appearanceSlots, ∀ descriptor ∈ slots.slots,
        descriptor.id ∈ values.map (·.slot)

variable {t : TargetId}

theorem completeSlots_of_named (h : ∀ desc ∈ slots, desc.id ∈ seen) :
    completeSlots t known seen slots = .ok [] := by
  induction slots with
  | nil => rfl
  | cons desc rest ih =>
    rw [completeSlots, if_pos (h desc mem_cons_self)]
    exact ih fun d hd => h d (mem_cons_of_mem _ hd)

section

variable {p : Platform} {s s' : DaemonState} {ts : TargetState} (ht : s.topology = s'.topology)
  (ho : s.cctEmulationOverride = s'.cctEmulationOverride)

include ht ho

theorem validateTargetState_congr_slots (hs : ∀ vs, ts = .appearanceSlots vs →
      validateAppearanceSlotValues p s t vs = validateAppearanceSlotValues p s' t vs) :
    validateTargetState p s t ts = validateTargetState p s' t ts := by
  cases ts with
  | effect eff =>
    simp only [validateTargetState, validateEffect, capabilitiesForTargetOrError, ht, ho]
  | brightness v =>
    simp only [validateTargetState, validateBrightness, capabilitiesForTargetOrError, ht]
  | clear => simp only [validateTargetState, ensureTargetExists, ht]
  | appearanceSlots vs => simp only [validateTargetState, hs vs rfl]

theorem validateTargetState_congr_known
    (hk : knownAppearanceSlotValues s t = knownAppearanceSlotValues s' t) :
    validateTargetState p s t ts = validateTargetState p s' t ts := by
  refine validateTargetState_congr_slots ht ho fun vs _ => ?_
  simp only [validateAppearanceSlotValues, appearanceSlotsOrError, capabilitiesForTargetOrError,
    ht, ho, hk]

/-- Apart from filling in missing slots, validation reads the topology and the
emulation override only. -/
theorem validateTargetState_congr (hn : NamesAllSlots s.topology ⟨t, ts⟩) :
    validateTargetState p s t ts = validateTargetState p s' t ts := by
  apply validateTargetState_congr_slots ht ho
  rintro vs rfl
  simp only [validateAppearanceSlotValues, appearanceSlotsOrError, capabilitiesForTargetOrError,
    ← ht, ← ho]
  cases hc : capabilitiesForTarget s.topology t with
  | none => rfl
  | some caps =>
    cases hs : caps.appearanceSlots with
    | none => simp only [ok_bind, hs, unsupported, error_bind]
    | some slots =>
      have hna := hn vs rfl caps hc slots hs
      simp [ok_bind, hs, completeSlots_of_named hna]

end
end Validation
