import Mathlib.Data.List.Basic

/-! # Devices, targets and lighting values

The canonical types of `luminate-core`. Names, notes, geometry and other
presentation data that no modelled function reads are left out. -/
namespace DeviceModel

abbrev DeviceId := String
abbrev SurfaceId := String
abbrev ElementId := String
abbrev GroupId := String
abbrev AppearanceSlotId := String
abbrev HardwareEffectId := String
abbrev CollectionId := String
abbrev SceneId := String

structure Rgb where
  r : UInt8
  g : UInt8
  b : UInt8
  deriving DecidableEq, Repr

inductive ColourChannel where
  | red | green | blue | white | warmWhite | coolWhite | amber | ultraviolet
  | hue | saturation | value | lightness | temperature | intensity
  deriving DecidableEq, Repr

inductive ColourEncoding where
  | additive | hsv | hsl | cct | monochrome
  deriving DecidableEq, Repr

structure ColourChannelValue where
  channel : ColourChannel
  value : ℕ
  deriving DecidableEq, Repr

inductive Colour where
  | additive (channels : List ColourChannelValue)
  | hsv (hue saturation value : ℕ)
  | hsl (hue saturation lightness : ℕ)
  | cct (kelvin : ℕ)
  | monochrome (intensity : ℕ)
  deriving DecidableEq, Repr

/-- All pixels of a target in the plugin's order, or the changed ones by index. -/
inductive FramePayload where
  | full (pixels : List Colour)
  | changed (pixels : List (ℕ × Colour))
  deriving DecidableEq, Repr

structure FrameEnvelope where
  generation : ℕ
  sequence : ℕ
  payload : FramePayload
  commit : Bool
  deriving DecidableEq, Repr

def Colour.encoding : Colour → ColourEncoding
  | .additive _ => .additive
  | .hsv .. => .hsv
  | .hsl .. => .hsl
  | .cct _ => .cct
  | .monochrome _ => .monochrome

def Colour.rgb (rgb : Rgb) : Colour :=
  .additive [⟨.red, rgb.r.toNat⟩, ⟨.green, rgb.g.toNat⟩, ⟨.blue, rgb.b.toNat⟩]

def Colour.isDark : Colour → Bool
  | .additive channels => channels.all (·.value == 0)
  | .hsv _ _ value => value == 0
  | .hsl _ _ lightness => lightness == 0
  | .cct _ => false
  | .monochrome intensity => intensity == 0

inductive EffectDirection where
  | forward | reverse | clockwise | counterClockwise | inward | outward | random
  deriving DecidableEq, Repr

structure EffectArguments where
  colours : List Rgb := []
  speed : Option ℕ := none
  direction : Option EffectDirection := none
  durationMs : Option ℕ := none
  brightness : Option ℕ := none
  choice : Option String := none
  deriving DecidableEq, Repr

inductive Effect where
  | off
  | static (colour : Colour)
  | breathe (colour : Rgb) (periodMs : ℕ)
  | pulse (colour : Rgb) (periodMs : ℕ)
  | strobe (colour : Rgb) (periodMs : ℕ)
  | scanner (colour : Rgb) (periodMs : ℕ)
  | morph (colours : List Rgb) (periodMs : ℕ)
  | spectrum (periodMs : ℕ)
  | rainbow (periodMs : ℕ)
  | hardware (id : HardwareEffectId) (arguments : EffectArguments)
  deriving DecidableEq, Repr

def Effect.capabilityId : Effect → String
  | .off => "off"
  | .static _ => "static"
  | .breathe .. => "breathe"
  | .pulse .. => "pulse"
  | .strobe .. => "strobe"
  | .scanner .. => "scanner"
  | .morph .. => "morph"
  | .spectrum _ => "spectrum"
  | .rainbow _ => "rainbow"
  | .hardware id _ => id

structure AppearanceSlotValue where
  slot : AppearanceSlotId
  effect : Effect
  deriving DecidableEq, Repr

inductive TargetId where
  | device (device : DeviceId)
  | surface (device : DeviceId) (surface : SurfaceId)
  | element (device : DeviceId) (surface : SurfaceId) (element : ElementId)
  | group (device : DeviceId) (group : GroupId)
  deriving DecidableEq, Repr

def TargetId.deviceId : TargetId → DeviceId
  | .device d => d
  | .surface d _ => d
  | .element d _ _ => d
  | .group d _ => d

def TargetId.surfaceOf : TargetId → Option SurfaceId
  | .surface _ s | .element _ s _ => some s
  | .device _ | .group _ _ => none

inductive StateFacetKind where
  | appearance | brightness | emission | physicalPower | effectiveAppearance | appearanceSlots
  deriving DecidableEq, Repr

structure AppearanceSlotsState where
  values : List AppearanceSlotValue
  complete : Bool
  deriving DecidableEq, Repr

inductive AppearanceState where
  | static (colour : Colour)
  | effect (effect : Effect)
  | mixed
  deriving DecidableEq, Repr

inductive EmissionState where
  | dark | emitting
  deriving DecidableEq, Repr

inductive PhysicalPowerState where
  | off | on
  deriving DecidableEq, Repr

inductive EffectiveAppearanceState where
  | off
  | static (colour : Colour)
  | effect (effect : Effect)
  | streaming
  | mixed
  deriving DecidableEq, Repr

inductive FacetValue where
  | appearance (state : AppearanceState)
  | brightness (value : ℕ)
  | emission (state : EmissionState)
  | physicalPower (state : PhysicalPowerState)
  | effectiveAppearance (state : EffectiveAppearanceState)
  | appearanceSlots (state : AppearanceSlotsState)
  deriving DecidableEq, Repr

def FacetValue.kind : FacetValue → StateFacetKind
  | .appearance _ => .appearance
  | .brightness _ => .brightness
  | .emission _ => .emission
  | .physicalPower _ => .physicalPower
  | .effectiveAppearance _ => .effectiveAppearance
  | .appearanceSlots _ => .appearanceSlots

structure AdoptedFacet where
  target : TargetId
  value : FacetValue
  confirmedAtMs : ℕ
  deriving DecidableEq, Repr

structure DiscreteRange where
  min : ℕ
  max : ℕ
  step : ℕ
  deriving DecidableEq, Repr

def DiscreteRange.contains (range : DiscreteRange) (value : ℕ) : Bool :=
  range.step != 0 && range.min ≤ value && value ≤ range.max &&
    (value - range.min) % range.step == 0

inductive CapabilityScope where
  | element | surface | device | controller
  deriving DecidableEq, Repr

structure ColourChannelCapability where
  channel : ColourChannel
  bits : ℕ
  deriving DecidableEq, Repr

inductive ColourCapability where
  | additive (channels : List ColourChannelCapability)
  | hsv (hueBits saturationBits valueBits : ℕ)
  | hsl (hueBits saturationBits lightnessBits : ℕ)
  | cct (bits : ℕ)
  | monochrome (bits : ℕ)
  deriving DecidableEq, Repr

def ColourCapability.rgb8 : ColourCapability := .additive [⟨.red, 8⟩, ⟨.green, 8⟩, ⟨.blue, 8⟩]

inductive CctEmulation where
  | auto | disabled
  deriving DecidableEq, Repr

inductive BrightnessCapability where
  | none
  | independent (bits maximum : ℕ) (scope : CapabilityScope)
  deriving DecidableEq, Repr

inductive EffectParameter where
  | colour (minimumColours maximumColours : ℕ)
  | speed (range : DiscreteRange)
  | direction (values : List EffectDirection)
  | duration (milliseconds : DiscreteRange)
  | brightness (bits : ℕ)
  | choice (options : List String)
  deriving DecidableEq, Repr

structure HardwareEffectDescriptor where
  id : HardwareEffectId
  parameters : List EffectParameter
  deriving DecidableEq, Repr

structure HardwareEffectsCapability where
  effects : List HardwareEffectDescriptor
  scope : CapabilityScope
  concurrentWithStreaming : Bool
  deriving DecidableEq, Repr

inductive PersistenceRequirement where
  | optional | required
  deriving DecidableEq, Repr

inductive PersistenceCapability where
  | none
  | currentState (requirement : PersistenceRequirement) (explicitCommit readback : Bool)
  | profiles (requirement : PersistenceRequirement) (slots : ℕ) (explicitCommit readback : Bool)
  deriving DecidableEq, Repr

inductive ReadbackFidelity where
  | bestEffort | exact
  deriving DecidableEq, Repr

structure ReadableFacet where
  facet : StateFacetKind
  fidelity : ReadbackFidelity
  deriving DecidableEq, Repr

inductive StateReadbackCapability where
  | none
  | readable (facets : List ReadableFacet) (readDisturbsOutput notifiesExternalChanges : Bool)
  deriving DecidableEq, Repr

inductive PowerDomainRef where
  | device
  | surface (surface : SurfaceId)
  deriving DecidableEq, Repr

inductive AppearanceSlotUpdatePolicy where
  | independent | partialIfKnown | completeSet
  deriving DecidableEq, Repr

/-- The part of a capability set that appearance validation reads; it is shared
by whole targets and by appearance slots. -/
structure AppearanceCapability where
  colour : List ColourCapability := []
  cctEmulation : CctEmulation := .auto
  hardwareEffects : Option HardwareEffectsCapability := none
  deriving DecidableEq, Repr

structure AppearanceSlotDescriptor where
  id : AppearanceSlotId
  name : String
  appearance : AppearanceCapability
  persistence : PersistenceCapability
  deriving DecidableEq, Repr

structure AppearanceSlotsCapability where
  slots : List AppearanceSlotDescriptor
  updatePolicy : AppearanceSlotUpdatePolicy
  deriving DecidableEq, Repr

inductive FrameUpdateMode where
  | fullFrameOnly | partialFrame | both
  deriving DecidableEq, Repr

structure FrameUploadCapability where
  scope : CapabilityScope
  updateMode : FrameUpdateMode
  maxRateHz : Option ℕ
  atomic : Bool
  shm : Bool
  deriving DecidableEq, Repr

structure CapabilitySet extends AppearanceCapability where
  brightness : BrightnessCapability := .none
  frameUpload : Option FrameUploadCapability := none
  appearanceSlots : Option AppearanceSlotsCapability := none
  persistence : PersistenceCapability := .none
  stateReadback : StateReadbackCapability := .none
  emission : Bool := false
  offIsWearSafe : Bool := false
  physicalPower : Option CapabilityScope := none
  powerDomain : Option PowerDomainRef := none
  deriving DecidableEq, Repr

structure Element where
  id : ElementId
  capabilities : CapabilitySet := {}
  deriving DecidableEq, Repr

structure Surface where
  id : SurfaceId
  elements : List Element := []
  capabilities : CapabilitySet := {}
  deriving DecidableEq, Repr

inductive GroupMember where
  | surface (surface : SurfaceId)
  | element (surface : SurfaceId) (element : ElementId)
  | group (group : GroupId)
  deriving DecidableEq, Repr

structure Group where
  id : GroupId
  members : List GroupMember
  capabilities : CapabilitySet := {}
  deriving DecidableEq, Repr

structure Device where
  id : DeviceId
  surfaces : List Surface := []
  groups : List Group := []
  capabilities : CapabilitySet := {}
  deriving DecidableEq, Repr

end DeviceModel
