import Luminate.AggregateObservation
import Luminate.Interpolation
import Luminate.SceneApplication

/-! # Planning transitions

`daemon/dispatch/transitions.rs`: resolving a request into one plan per target,
the checks of the preflight, the endpoints of a step and what is sent for them. -/
namespace TransitionPlans

open Checks DeviceModel TargetTopology DaemonModel Validation AggregateObservation SceneApplication
  Interpolation

inductive TransitionError where
  | daemon (error : DaemonError)
  | sceneNotFound (id : SceneId)
  | transitionImpossible (diagnostic : String)
  deriving DecidableEq

def impossible {α : Type} (message : String) : Except TransitionError α :=
  .error (.transitionImpossible
    (if isBlank message then "It's just not." else message))

/-- `map_err(|error| impossible(&error.to_string()))`. -/
def orImpossible {α : Type} : Except TransitionInterpolationError α → Except TransitionError α
  | .ok value => .ok value
  | .error error => impossible error.text

structure Endpoint where
  target : TargetId
  appearance : Effect
  brightness : Option ℕ
  emission : EmissionState
  deriving DecidableEq

structure TargetPlan where
  start : Endpoint
  finish : Endpoint
  hueMaximum : ℕ
  deriving DecidableEq

inductive TransitionSource where
  | current
  | scene (id : SceneId)
  deriving DecidableEq

inductive TransitionDestination where
  | scene (id : SceneId)
  | targetStates (states : List BoundTarget)
  deriving DecidableEq

structure StartTransitionRequest where
  source : TransitionSource
  destination : TransitionDestination
  options : TransitionOptions
  authorizedTargets : Option (List TargetId) := none
  deriving DecidableEq

/-- Inserting into the map of targets; a later state replaces an earlier one. -/
def insertBound (resolved : List BoundTarget) (new : BoundTarget) : List BoundTarget :=
  resolved.filter (·.1 ≠ new.1) ++ [new]

section

variable (clock : TargetId → ℕ) (state : DaemonState) (target : TargetId)

def resolveScene (id : SceneId) : Except TransitionError (List BoundTarget) :=
  match state.scenes[id]? with
  | none => .error (.sceneNotFound id)
  | some scene => .ok (((scene.bindings.filter (bindingApplies state)).map bound).foldl
      insertBound [])

def validateSparseTransitionState (state : SceneTargetState) : Except TransitionError Unit :=
  if state.appearanceSlots.isSome then
    impossible "appearance slots cannot be interpolated by a transition"
  else if state.appearance = none ∧ state.brightness = none ∧ state.emission = none then
    impossible "transition target state must contain at least one facet"
  else if state.appearance = some .off then
    impossible "Effect::Off is an emission state, not a retained appearance"
  else if state.emission = some .emitting ∧ state.brightness = some 0 then
    impossible "an emitting transition endpoint cannot have zero brightness"
  else .ok ()

def normalizeTargetStates (authorized : Option (List TargetId)) (states : List BoundTarget) :
    Except TransitionError (List BoundTarget) :=
  states.foldlM (fun normalized entry =>
    if authorized.any (!·.contains entry.1) then .ok normalized
    else do
      validateSparseTransitionState entry.2
      if normalized.any (·.1 == entry.1) then
        impossible "transition destination repeats a target"
      else .ok (normalized ++ [entry])) []

/-- `fresh_current_target_state` of `state/scene.rs`. -/
def freshCurrentTargetState : Except DaemonError SceneTargetState := do
  ensure (!isFrameStreaming state target)
    (.conflict target "a frame stream is active on this target")
  match deviceObservations clock state target.deviceId with
  | none => .error (.unknownState target)
  | some observations =>
    let fresh (kind : StateFacetKind) : Option FacetValue :=
      ((observations target kind).filter (!·.stale)).map (·.value)
    let appearance ← match fresh .appearance with
      | some (.appearance (.static colour)) => .ok (Effect.static colour)
      | some (.appearance (.effect effect)) => .ok effect
      | _ => .error (.unknownState target)
    let emission ← match fresh .emission with
      | some (.emission emission) => .ok emission
      | _ => .error (.unknownState target)
    let effective := match fresh .effectiveAppearance with
      | some (.effectiveAppearance .off) | some (.effectiveAppearance (.static _))
      | some (.effectiveAppearance (.effect _)) => true
      | _ => false
    ensure effective (.unknownState target)
    let brightness := match fresh .brightness with
      | some (.brightness brightness) => some brightness
      | _ => none
    return { appearance := some appearance, brightness, emission := some emission }

def currentEndpoint : Except TransitionError SceneTargetState :=
  match freshCurrentTargetState clock state target with
  | .ok current => .ok current
  | .error _ => impossible "a required current endpoint is unknown"

def merge (sparse fallback : SceneTargetState) : SceneTargetState where
  appearance := sparse.appearance.or fallback.appearance
  brightness := sparse.brightness.or fallback.brightness
  emission := sparse.emission.or fallback.emission
  appearanceSlots := none

def complete (state : SceneTargetState) : Except TransitionError Endpoint :=
  match state.appearance, state.emission with
  | none, _ => impossible "transition endpoint has no retained appearance"
  | some _, none => impossible "transition endpoint has unknown emission"
  | some appearance, some emission => .ok ⟨target, appearance, state.brightness, emission⟩

/-- The source endpoint of one target, completed from the current state. -/
def sourceEndpoint (sources : List BoundTarget) (target : TargetId) :
    Except TransitionError SceneTargetState :=
  match sources.lookup target with
  | none => currentEndpoint clock state target
  | some scene =>
    if scene.appearance.isSome && scene.emission.isSome then .ok scene
    else do
      let current ← currentEndpoint clock state target
      return merge scene current

def darkRgb : Rgb := ⟨0, 0, 0⟩

def darkenColour : Colour → Except TransitionError Colour
  | .additive channels =>
    match additiveColour (channels.map fun channel => ⟨channel.channel, 0⟩) with
    | .ok colour => .ok colour
    | .error error => impossible error.text
  | .hsv hue saturation _ => .ok (.hsv hue saturation 0)
  | .hsl hue saturation _ => .ok (.hsl hue saturation 0)
  | .monochrome _ => .ok (.monochrome 0)
  | .cct _ => impossible "correlated colour temperature cannot represent zero visibility"

def unfadable : Except TransitionError Effect :=
  impossible "an endpoint without independent brightness cannot be faded safely"

def darkenEffect : Effect → Except TransitionError Effect
  | .static colour => do
    let colour ← darkenColour colour
    return .static colour
  | .breathe _ period => .ok (.breathe darkRgb period)
  | .pulse _ period => .ok (.pulse darkRgb period)
  | .strobe _ period => .ok (.strobe darkRgb period)
  | .scanner _ period => .ok (.scanner darkRgb period)
  | .morph colours period => .ok (.morph (List.replicate colours.length darkRgb) period)
  | .hardware id arguments =>
    if arguments.brightness.isSome then .ok (.hardware id { arguments with brightness := some 0 })
    else if !arguments.colours.isEmpty then
      .ok (.hardware id { arguments with
        colours := List.replicate arguments.colours.length darkRgb })
    else unfadable
  | .off | .spectrum _ | .rainbow _ => unfadable

/-- A dark endpoint without its own brightness is faded through its colours. -/
def logicalAppearance (endpoint : Endpoint) : Except TransitionError Effect :=
  if endpoint.emission = .emitting ∨ endpoint.brightness.isSome then .ok endpoint.appearance
  else darkenEffect endpoint.appearance

def logicalBrightness (endpoint : Endpoint) : Option ℕ :=
  endpoint.brightness.map fun brightness => if endpoint.emission = .dark then 0 else brightness

def u32Max : ℕ := 4294967295

def hueBits : Colour → ColourCapability → Option ℕ
  | .hsv .., .hsv hueBits _ _ => some hueBits
  | .hsl .., .hsl hueBits _ _ => some hueBits
  | _, _ => none

def hueMaximum (endpoint : Endpoint) : Except TransitionError ℕ :=
  match endpoint.appearance with
  | .static colour =>
    match (capabilitiesForTarget state.topology endpoint.target).bind
        (·.colour.findSome? (hueBits colour)) with
    | none => .ok u32Max
    | some bits =>
      match maximumForBits bits with
      | some maximum => .ok maximum
      | none => impossible "target advertises an invalid hue channel width"
  | _ => .ok u32Max

def isRgb8Capability : ColourCapability → Bool
  | .additive [red, green, blue] =>
    red.channel == .red && red.bits == 8 && green.channel == .green && green.bits == 8 &&
      blue.channel == .blue && blue.bits == 8
  | _ => false

def validateColourInterpolation (effect : Effect) :
    TransitionColourInterpolation → Except TransitionError Unit
  | .encoded _ => .ok ()
  | .oklab =>
    match effect with
    | .static (.additive _) =>
      if (capabilitiesForTarget state.topology target).any (·.colour.any isRgb8Capability) then
        .ok ()
      else impossible "OKLab interpolation requires an advertised 8-bit RGB encoding"
    | _ => .ok ()

end

def validateEndpoint (platform : Platform) (state : DaemonState) (endpoint : Endpoint) :
    Except DaemonError Unit := do
  validateTargetState platform state endpoint.target (.effect endpoint.appearance)
  checkAll (fun brightness =>
    validateTargetState platform state endpoint.target (.brightness brightness))
    endpoint.brightness.toList
  checkAll (fun _ => validateTargetState platform state endpoint.target (.effect .off))
    (if endpoint.emission = .dark then [()] else [])

section

variable (platform : Platform) (palette : Palette) (clock : TargetId → ℕ) (state : DaemonState)

/-- The checks on two completed endpoints. Interpolating half-way exercises a
real intermediate value. -/
def checkPlan (interpolation : TransitionColourInterpolation) (start finish : Endpoint) :
    Except TransitionError TargetPlan := do
  let maximum ← hueMaximum state start
  let interpolationStart ← logicalAppearance start
  let interpolationEnd ← logicalAppearance finish
  validateColourInterpolation state start.target interpolationStart interpolation
  let _ ← orImpossible
    (interpolateEffect palette interpolationStart interpolationEnd 1 2 maximum interpolation)
  (validateEndpoint platform state start).mapError .daemon
  (validateEndpoint platform state finish).mapError .daemon
  return ⟨start, finish, maximum⟩

def planTarget (interpolation : TransitionColourInterpolation) (sources : List BoundTarget)
    (destination : BoundTarget) : Except TransitionError TargetPlan := do
  (ensureTargetExists state destination.1).mapError .daemon
  let source ← sourceEndpoint clock state sources destination.1
  let start ← complete destination.1 source
  let finish ← complete destination.1 (merge destination.2 source)
  checkPlan platform palette state interpolation start finish

def resolveDestination (request : StartTransitionRequest) :
    Except TransitionError (List BoundTarget) :=
  match request.destination with
  | .scene id => resolveScene state id
  | .targetStates states => normalizeTargetStates request.authorizedTargets states

def sameTargets (left right : List BoundTarget) : Bool :=
  left.all (fun entry => right.any (·.1 == entry.1)) &&
    right.all fun entry => left.any (·.1 == entry.1)

def resolveSource (request : StartTransitionRequest) (destinations : List BoundTarget) :
    Except TransitionError (List BoundTarget) :=
  match request.source with
  | .current => .ok []
  | .scene id => do
    let source ← resolveScene state id
    if sameTargets source destinations then return source
    else impossible "source and destination resolve to different target sets"

def sortPlans (plans : List TargetPlan) : List TargetPlan :=
  plans.insertionSort fun a b =>
    targetDebug platform a.start.target ≤ targetDebug platform b.start.target

/-- The plans, and whether the source is a scene. -/
def preflight (request : StartTransitionRequest) :
    Except TransitionError (List TargetPlan × Bool) := do
  let destinations ← resolveDestination state request
  if destinations.isEmpty then impossible "transition has no concrete destination targets"
  else
    let sources ← resolveSource state request destinations
    let plans ← (sortTargets platform destinations).mapM
      (planTarget platform palette clock state request.options.colourInterpolation sources)
    return (sortPlans platform plans, request.source ≠ .current)

end

section

variable (state : DaemonState) (palette : Palette) (target : TargetId)

def interpolatePlan (options : TransitionOptions) (numerator denominator : ℕ) (plan : TargetPlan) :
    Except TransitionError Endpoint :=
  if denominator ≤ numerator then .ok plan.finish
  else do
    let startAppearance ← logicalAppearance plan.start
    let endAppearance ← logicalAppearance plan.finish
    let appearance ← orImpossible (interpolateEffect palette startAppearance endAppearance
      numerator denominator plan.hueMaximum options.colourInterpolation)
    let brightness ← orImpossible (interpolateOptional (logicalBrightness plan.start)
      (logicalBrightness plan.finish) numerator denominator)
    return { target := plan.start.target, appearance, brightness,
             emission := if plan.start.emission = .emitting ∨ plan.finish.emission = .emitting
               then .emitting else .dark }

def interpolatePlans (plans : List TargetPlan) (elapsedMs : ℕ) (options : TransitionOptions) :
    Except TransitionError (List Endpoint) := do
  let (numerator, denominator) ←
    orImpossible (easeProgress options.function elapsedMs options.durationMs)
  plans.mapM (interpolatePlan palette options numerator denominator)

def snapArgument (arguments : EffectArguments) :
    EffectParameter → Except TransitionError EffectArguments
  | .speed range =>
    match arguments.speed with
    | some speed => do
      let snapped ← orImpossible (snapToDiscreteRangeU32 speed range)
      return { arguments with speed := some snapped }
    | none => .ok arguments
  | .duration milliseconds =>
    match arguments.durationMs with
    | some duration => do
      let snapped ← orImpossible (snapToDiscreteRangeU32 duration milliseconds)
      return { arguments with durationMs := some snapped }
    | none => .ok arguments
  | .colour .. | .direction _ | .brightness _ | .choice _ => .ok arguments

def advertisedEffect (id : HardwareEffectId) : Option HardwareEffectDescriptor :=
  (capabilitiesForTarget state.topology target).bind fun capabilities =>
    findEffect capabilities.toAppearanceCapability id

def snapHardwareEffect : Effect → Except TransitionError Effect
  | .hardware id arguments =>
    match advertisedEffect state target id with
    | none => impossible "hardware effect descriptor disappeared during transition"
    | some descriptor => do
      let arguments ← descriptor.parameters.foldlM snapArgument arguments
      return .hardware id arguments
  | effect => .ok effect

/-- What `apply_endpoints` sends for one endpoint, in order. -/
def sentStates (endpoint : Endpoint) : Except TransitionError (List TargetState) := do
  let appearance ← snapHardwareEffect state endpoint.target endpoint.appearance
  return .effect appearance :: (endpoint.brightness.toList.map .brightness ++
    if endpoint.emission = .dark then [.effect .off] else [])

end

end TransitionPlans
