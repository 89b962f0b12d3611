import Luminate.TransitionSteps

/-! # Steps of accepted transitions

What the preflight has checked for a plan, and which of its steps
`validate_target_state` then accepts. Dark endpoints are faded through their
colours; a period is the one value on the way that may leave its grid. -/
namespace TransitionValidity

open Checks DeviceModel TargetTopology DaemonModel Validation SceneApplication Interpolation
  TransitionPlans TransitionSteps

def encodingOf : Effect → Option ColourEncoding
  | .static colour => some colour.encoding
  | _ => none

structure Faded (effect dark : Effect) : Prop where
  capabilityId : dark.capabilityId = effect.capabilityId
  period : periodOf dark = periodOf effect
  encoding : encodingOf dark = encodingOf effect

theorem Faded.refl (ef : Effect) : Faded ef ef := ⟨rfl, rfl, rfl⟩

theorem typed_faded_valid (hv : validateEffect p s t eff = .ok ())
    (hid : dark.capabilityId = eff.capabilityId) (hp : typedParameters eff = some (count, period))
    (hp' : typedParameters dark = some (count, period)) : validateEffect p s t dark = .ok () :=
  (typed_step_valid_iff hid hp hp' hv).2 ((typed_step_valid_iff rfl hp hp hv).1 hv)

theorem hardware_faded_valid {id : HardwareEffectId}
    (hv : validateEffect p s t (.hardware id args) = .ok ()) (hsh : SameArguments others args)
    (hsp : others.speed = args.speed) (hdu : others.durationMs = args.durationMs)
    (hb : ∀ bits, (∃ v ∈ args.brightness, Fits bits v) → ∃ v ∈ others.brightness, Fits bits v) :
    validateEffect p s t (.hardware id others) = .ok () := by
  obtain ⟨caps, effects, desc, hc, he, hd, hs, hch⟩ := validateHardware_ok_iff.1 hv
  have hf := validateHardwareArguments_fit hch
  refine validateHardware_ok_iff.2 ⟨caps, effects, desc, hc, he,
    hd, hs, (validateHardwareArguments_ok_iff hch hsh).2 ⟨?_, ?_, ?_⟩⟩
  · rw [hsp]
    exact hf.speeds
  · rw [hdu]
    exact hf.durations
  · intro bits hbi
    exact hb bits (hf.brightness bits hbi)

theorem darkenEffect_valid (h : darkenEffect eff = .ok dark)
    (hv : validateEffect p s t eff = .ok ()) :
    Faded eff dark ∧ validateEffect p s t dark = .ok () := by
  cases eff with
  | off => cases h
  | spectrum period => cases h
  | rainbow period => cases h
  | static col =>
    obtain ⟨col', hd, h⟩ := bind_ok_iff.1 h
    cases h
    obtain ⟨he, -⟩ := darkenColour_encoding hd
    obtain ⟨caps, hc⟩ := exists_capabilities hv
    refine ⟨⟨rfl, rfl, congrArg some he⟩, ?_⟩
    rw [validateEffect_eq hc] at hv ⊢
    exact validateStatic_darken hd hv
  | hardware id args =>
    rw [darkenEffect] at h
    split at h
    · next hs =>
      cases h
      refine ⟨⟨rfl, rfl, rfl⟩, hardware_faded_valid hv ⟨rfl, rfl, rfl, rfl, rfl, hs.symm⟩
        rfl rfl ?_⟩
      rintro bits ⟨v, -, hf⟩
      exact ⟨0, rfl, hf.mono (Nat.zero_le v)⟩
    · split at h
      · cases h
        exact ⟨⟨rfl, rfl, rfl⟩, hardware_faded_valid hv
          ⟨rfl, rfl, List.length_replicate, rfl, rfl, rfl⟩ rfl rfl (fun _ h => h)⟩
      · cases h
  | morph colours period =>
    cases h
    have hco : typedParameters (.morph (List.replicate colours.length darkRgb) period) =
        some (some colours.length, period) := by
      rw [typedParameters, List.length_replicate]
    exact ⟨⟨rfl, rfl, rfl⟩, typed_faded_valid hv rfl rfl hco⟩
  | _ =>
    cases h
    exact ⟨⟨rfl, rfl, rfl⟩, typed_faded_valid hv rfl rfl rfl⟩

theorem logicalAppearance_valid (h : logicalAppearance endpoint = .ok eff)
    (hv : validateEffect p s t endpoint.appearance = .ok ()) :
    Faded endpoint.appearance eff ∧ validateEffect p s t eff = .ok () := by
  rw [logicalAppearance] at h
  split at h
  · cases h
    exact ⟨Faded.refl _, hv⟩
  · exact darkenEffect_valid h hv

theorem findSome_hueBits_none (h : ∀ cap, hueBits col cap = none) (caps : List ColourCapability) :
    caps.findSome? (hueBits col) =
      (caps.find? (capabilityMatchesColour · col)).bind (hueBits col) := by
  rw [List.findSome?_eq_none_iff.2 fun cap _ => h cap]
  cases caps.find? (capabilityMatchesColour · col) with
  | none => rfl
  | some cap => exact (h cap).symm

theorem findSome_hueBits (caps : List ColourCapability) : caps.findSome? (hueBits col) =
      (caps.find? (capabilityMatchesColour · col)).bind (hueBits col) := by
  cases col with
  | hsv hue saturation v =>
    induction caps with
    | nil => rfl
    | cons cap rest ih => cases cap <;> first | rfl | exact ih
  | hsl hue saturation lightness =>
    induction caps with
    | nil => rfl
    | cons cap rest ih => cases cap <;> first | rfl | exact ih
  | additive channels => exact findSome_hueBits_none (fun _ => rfl) caps
  | cct kelvin => exact findSome_hueBits_none (fun _ => rfl) caps
  | monochrome intensity => exact findSome_hueBits_none (fun _ => rfl) caps

theorem hueBound_of_hueMaximum (h : hueMaximum state endpoint = .ok mx)
    (hc : encodingOf endpoint.appearance =
      some col.encoding) (hca : capabilitiesForTarget state.topology endpoint.target = some caps)
    (hf : caps.colour.find? (capabilityMatchesColour · col) = some cap) : HueBound cap mx := by
  obtain ⟨original, ho⟩ : ∃ original, endpoint.appearance = .static original := by
    cases ha : endpoint.appearance <;> rw [ha] at hc <;>
      first | exact ⟨_, rfl⟩ | cases hc
  rw [ho, encodingOf, Option.some.injEq] at hc
  simp only [← capabilityMatchesColour_congr hc] at hf
  have hm := List.find?_some hf
  rw [hueMaximum, ho] at h
  simp only [hca, Option.bind_some, findSome_hueBits, hf] at h
  have hw : ∀ width, hueBits original cap = some width → maximumForBits width = some mx := by
    intro width hb
    simp only [hb] at h
    split at h
    · next bound hma => rw [hma, Except.ok.inj h]
    · cases h
  cases cap with
  | hsv width saturation v =>
    cases original <;> cases hm
    exact hw width rfl
  | hsl width saturation lightness =>
    cases original <;> cases hm
    exact hw width rfl
  | _ => trivial

structure Accepted (platform : Platform) (palette : Palette) (state : DaemonState)
    (direction : HueDirection) (plan : TargetPlan) : Prop where
  target : plan.finish.target = plan.start.target
  hue : hueMaximum state plan.start = .ok plan.hueMaximum
  mixes : ∃ start finish effect, logicalAppearance plan.start = .ok start ∧
    logicalAppearance plan.finish = .ok finish ∧
    interpolateEffect palette start finish 1 2 plan.hueMaximum (.encoded direction) = .ok effect
  validStart : validateEndpoint platform state plan.start = .ok ()
  validFinish : validateEndpoint platform state plan.finish = .ok ()

theorem accepted_of_checkPlan (ht : finish.target = start.target)
    (h : checkPlan p palette s (.encoded dir) start finish = .ok plan) :
    Accepted p palette s dir plan := by
  rw [checkPlan, bind_ok_iff] at h
  obtain ⟨mx, hm, h⟩ := h
  obtain ⟨interpolationStart, hs, h⟩ := bind_ok_iff.1 h
  obtain ⟨interpolationEnd, hf, h⟩ := bind_ok_iff.1 h
  obtain ⟨-, h⟩ := then_ok_iff.1 h
  obtain ⟨ef, he, h⟩ := bind_ok_iff.1 h
  obtain ⟨hv, h⟩ := then_ok_iff.1 h
  obtain ⟨hv', h⟩ := then_ok_iff.1 h
  cases h
  exact ⟨ht, hm, ⟨_, _, ef, hs, hf, orImpossible_ok_iff.1 he⟩,
    mapError_ok_iff.1 hv, mapError_ok_iff.1 hv'⟩

theorem target_of_complete (h : complete target sparse = .ok endpoint) :
    endpoint.target = target := by
  rw [complete] at h
  split at h <;> cases h
  rfl

theorem accepted_of_planTarget
    (h : planTarget p palette clock s (.encoded dir) sources destination =
      .ok plan) : Accepted p palette s dir plan := by
  rw [planTarget, then_ok_iff] at h
  obtain ⟨-, h⟩ := h
  obtain ⟨src, -, h⟩ := bind_ok_iff.1 h
  obtain ⟨start, hs, h⟩ := bind_ok_iff.1 h
  obtain ⟨finish, hf, h⟩ := bind_ok_iff.1 h
  refine accepted_of_checkPlan ?_ h
  rw [target_of_complete hf, target_of_complete hs]

theorem accepted_of_preflight (hm : request.options.colourInterpolation = .encoded dir)
    (h : preflight p palette clock s request = .ok (plans, sourceIsScene)) :
    ∀ plan ∈ plans, Accepted p palette s dir plan := by
  rw [preflight, bind_ok_iff, hm] at h
  obtain ⟨destinations, -, h⟩ := h
  split at h
  · simp [impossible] at h
  obtain ⟨sources, -, h⟩ := bind_ok_iff.1 h
  obtain ⟨planned, hp, h⟩ := bind_ok_iff.1 h
  cases h
  intro plan hpl
  rw [sortPlans, List.mem_insertionSort] at hpl
  obtain ⟨destination, -, hd⟩ := mapM_ok_source hp plan hpl
  exact accepted_of_planTarget hd

def Sendable (platform : Platform) (state : DaemonState) (endpoint : Endpoint) : Prop :=
  ∃ sent, sentStates state endpoint = .ok sent ∧
    ∀ targetState ∈ sent, validateTargetState platform state endpoint.target targetState = .ok ()

theorem validateBrightness_mono (h : validateBrightness s t v = .ok ()) (hle : smaller ≤ v) :
    validateBrightness s t smaller = .ok () := by
  rw [validateBrightness, bind_ok_iff] at h ⊢
  obtain ⟨caps, hc, h⟩ := h
  refine ⟨caps, hc, ?_⟩
  cases hb : caps.brightness with
  | none => simp [hb, unsupported] at h
  | independent bits mx scope =>
    simp only [hb, then_ok_iff] at h ⊢
    obtain ⟨hs, h⟩ := h
    refine ⟨hs, ?_⟩
    cases hm : maximumForBits bits with
    | none => simp [hm, unsupported] at h
    | some representable =>
      simp only [hm, then_ok_iff, ensure_ok_iff, decide_eq_true_eq] at h ⊢
      exact ⟨h.1, Nat.le_trans hle h.2⟩

theorem validateEndpoint_ok_iff : validateEndpoint p s ep = .ok () ↔
      validateEffect p s ep.target ep.appearance = .ok () ∧
      (∀ br ∈ ep.brightness, validateBrightness s ep.target br = .ok ()) ∧
      (ep.emission = .dark → validateEffect p s ep.target .off = .ok ()) := by
  simp only [validateEndpoint, then_ok_iff, checkAll_ok_iff, validateTargetState, Option.mem_toList]
  refine and_congr_right fun _ => and_congr_right fun _ => ?_
  cases ep.emission <;> simp

theorem sendable_iff : Sendable p s ep ↔
      (∃ snapped, snapHardwareEffect s ep.target ep.appearance = .ok snapped ∧
        validateEffect p s ep.target snapped = .ok ()) ∧
      (∀ br ∈ ep.brightness, validateBrightness s ep.target br = .ok ()) ∧
      (ep.emission = .dark → validateEffect p s ep.target .off = .ok ()) := by
  have hse : ∀ snapped, (∀ ts ∈ TargetState.effect snapped ::
      (ep.brightness.toList.map .brightness ++ if ep.emission = .dark then [.effect .off] else []),
      validateTargetState p s ep.target ts = .ok ()) ↔
      validateEffect p s ep.target snapped = .ok () ∧
      (∀ br ∈ ep.brightness, validateBrightness s ep.target br = .ok ()) ∧
      (ep.emission = .dark → validateEffect p s ep.target .off = .ok ()) := by
    intro snapped
    cases ep.emission <;> cases ep.brightness <;> simp [validateTargetState]
  constructor
  · rintro ⟨sent, h, ha⟩
    obtain ⟨snapped, hs, h⟩ := bind_ok_iff.1 h
    cases h
    obtain ⟨hv, hr⟩ := (hse snapped).1 ha
    exact ⟨⟨snapped, hs, hv⟩, hr⟩
  · rintro ⟨⟨snapped, hs, hv⟩, hr⟩
    refine ⟨_, ?_, (hse snapped).2 ⟨hv, hr⟩⟩
    rw [sentStates, hs]
    rfl

theorem snapOptional_self (h : ∀ r ∈ ranges, ∃ v ∈ argument, r.contains v = true) :
    snapOptional ranges argument = .ok argument := by
  cases argument with
  | none => rfl
  | some v =>
    have hv : ∀ r ∈ ranges, r.contains v = true := by
      intro r hr
      obtain ⟨_, hs, hc⟩ := h r hr
      cases hs
      exact hc
    rw [snapOptional, snapThrough_self hv]
    rfl

theorem snapHardwareEffect_self (h : validateEffect p s t ef = .ok ()) :
    snapHardwareEffect s t ef = .ok ef := by
  cases ef with
  | hardware id args =>
    obtain ⟨-, -, desc, -, -, hd, -, hc⟩ := validateHardware_ok_iff.1 h
    have hf := validateHardwareArguments_fit hc
    have hs : desc.parameters.foldlM snapArgument args = .ok args :=
      snapArguments_ok (snapOptional_self hf.speeds) (snapOptional_self hf.durations)
    simp only [snapHardwareEffect, hd, hs]
    rfl
  | _ => rfl

theorem sendable_of_validateEndpoint (h : validateEndpoint p s ep = .ok ()) : Sendable p s ep := by
  obtain ⟨ha, hr⟩ := validateEndpoint_ok_iff.1 h
  exact sendable_iff.2 ⟨⟨_, snapHardwareEffect_self ha, ha⟩, hr⟩

/-- The periods of a step, against every range advertised for the effect. -/
def PeriodsFit (state : DaemonState) (plan : TargetPlan) (n d : ℕ) : Prop :=
  ∀ period ∈ periodOf plan.start.appearance, ∀ period' ∈ periodOf plan.finish.appearance,
    ∀ range ∈ advertisedDurations state plan.start.target plan.start.appearance.capabilityId,
      range.contains (share n d period period') = true

theorem exists_le_of_logicalBrightness (h : br ∈ logicalBrightness endpoint) :
    ∃ v ∈ endpoint.brightness, br ≤ v := by
  obtain ⟨v, hv, hb⟩ := Option.map_eq_some_iff.1 h
  refine ⟨v, hv, ?_⟩
  rw [← hb]
  split
  · exact Nat.zero_le v
  · exact Nat.le_refl v

section

variable (h : Accepted p palette s dir plan)

include h

theorem brightness_step_valid (hq : Between q) :
    ∀ br ∈ Option.map₂ q (logicalBrightness plan.start) (logicalBrightness plan.finish),
      validateBrightness s plan.start.target br = .ok () := by
  intro br hbr
  obtain ⟨-, hs, -⟩ := validateEndpoint_ok_iff.1 h.validStart
  obtain ⟨-, hf, -⟩ := validateEndpoint_ok_iff.1 h.validFinish
  rw [h.target] at hf
  obtain ⟨a, b, ha, hb, rfl⟩ := Option.mem_map₂_iff.1 hbr
  obtain ⟨v, hv, hle⟩ := exists_le_of_logicalBrightness ha
  obtain ⟨v', hv', hle'⟩ := exists_le_of_logicalBrightness hb
  have hm := (hq a b).2
  rcases Nat.le_total a b with hab | hab
  · exact validateBrightness_mono (hf v' hv') (by omega)
  · exact validateBrightness_mono (hs v hv) (by omega)

theorem interpolatePlan_step (hmo : options.colourInterpolation = .encoded dir) (hn : n < d) :
    ∃ start finish, logicalAppearance plan.start = .ok start ∧
      logicalAppearance plan.finish = .ok finish ∧ SameStructure start finish ∧
      interpolatePlan palette options n d plan = .ok
        { target := plan.start.target
          appearance := mixEffect (share n d) (hueShare plan.hueMaximum n d dir) start finish
          brightness := Option.map₂ (share n d) (logicalBrightness plan.start)
            (logicalBrightness plan.finish)
          emission := if plan.start.emission = .emitting ∨ plan.finish.emission = .emitting
            then .emitting else .dark } := by
  have hd : 0 < d := by omega
  obtain ⟨start, finish, ef, hs, hf, hm⟩ := h.mixes
  obtain ⟨hst, hv⟩ := sameStructure_of_ok (by omega) hm
  refine ⟨start, finish, hs, hf, hst, ?_⟩
  rw [interpolatePlan, if_neg (by omega), hs, hf, hmo]
  simp only [ok_bind, interpolateEffect_eq hst hv hd, interpolateOptional_eq hd, orImpossible]
  rfl

theorem plan_step_iff (hk : KelvinBetween p)
    (hki : ∀ desc ∈ advertisedEffect s plan.start.target plan.start.appearance.capabilityId,
      DistinctKinds desc)
    (hm : options.colourInterpolation = .encoded dir) (hn : n < d) :
    (∃ endpoint, interpolatePlan palette options n d plan = .ok endpoint ∧
      Sendable p s endpoint) ↔ PeriodsFit s plan n d := by
  have hd : 0 < d := by omega
  obtain ⟨start, finish, hs, hfi, hst, hp⟩ := interpolatePlan_step h hm hn
  obtain ⟨ha, -, ho⟩ := validateEndpoint_ok_iff.1 h.validStart
  obtain ⟨ha', -, -⟩ := validateEndpoint_ok_iff.1 h.validFinish
  rw [h.target] at ha'
  obtain ⟨hf, hv⟩ := logicalAppearance_valid hs ha
  obtain ⟨hf', hv'⟩ := logicalAppearance_valid hfi ha'
  have he := effect_step_valid_iff hk (fun col hco caps hc cap hfo =>
      hueBound_of_hueMaximum h.hue (by rw [← hf.encoding, hco, encodingOf]) hc hfo)
    (hf.capabilityId ▸ hki) (hueShare_le n dir hd) hv hv' hst (between_share n hd)
  rw [hf.capabilityId, hf.period, hf'.period] at he
  rw [PeriodsFit, ← he, hp]
  simp only [Except.ok.injEq, exists_eq_left', sendable_iff]
  refine and_iff_left ⟨brightness_step_valid h (between_share n hd), ?_⟩
  intro hda
  apply ho
  cases hem : plan.start.emission with
  | dark => rfl
  | emitting => simp [hem] at hda

end

/-- The periods of the two endpoints lie on a grid that no fraction leaves: every
period is advertised, or the difference has a grid point for each fraction. -/
def PeriodsOnGrid (state : DaemonState) (plan : TargetPlan) : Prop :=
  ∀ period ∈ periodOf plan.start.appearance, ∀ period' ∈ periodOf plan.finish.appearance,
    ∀ range ∈ advertisedDurations state plan.start.target plan.start.appearance.capabilityId,
      range.step = 1 ∨ progressScale * range.step ∣ Nat.dist period period'

/-- The step at one elapsed time is interpolated, and all that is sent for it is
accepted. -/
def StepValid (platform : Platform) (palette : Palette) (state : DaemonState)
    (plans : List TargetPlan) (options : TransitionOptions) (elapsedMs : ℕ) : Prop :=
  ∃ endpoints, interpolatePlans palette plans elapsedMs options = .ok endpoints ∧
    ∀ endpoint ∈ endpoints, Sendable platform state endpoint

section

variable {platform : Platform} {palette : Palette} {clock : TargetId → ℕ} {state : DaemonState}
  {direction : HueDirection} {plan : TargetPlan}

theorem contains_period (hv : validateEffect platform state target ef = .ok ())
    (hpe : period ∈ periodOf ef) :
    ∀ r ∈ advertisedDurations state target ef.capabilityId, r.contains period = true := by
  obtain ⟨⟨count, _⟩, hp, rfl⟩ := Option.map_eq_some_iff.1 hpe
  exact (typed_step_valid_iff rfl hp hp hv).1 hv

theorem periods_advertised (h : Accepted platform palette state direction plan)
    (hp : period ∈ periodOf plan.start.appearance)
    (hp' : period' ∈ periodOf plan.finish.appearance) :
    ∀ r ∈ advertisedDurations state plan.start.target plan.start.appearance.capabilityId,
      r.contains period = true ∧ r.contains period' = true := by
  obtain ⟨start, finish, ef, hs, hfi, hm⟩ := h.mixes
  obtain ⟨ha, -, -⟩ := validateEndpoint_ok_iff.1 h.validStart
  obtain ⟨ha', -, -⟩ := validateEndpoint_ok_iff.1 h.validFinish
  rw [h.target] at ha'
  obtain ⟨hf, -⟩ := logicalAppearance_valid hs ha
  obtain ⟨hf', -⟩ := logicalAppearance_valid hfi ha'
  have hsa : plan.finish.appearance.capabilityId = plan.start.appearance.capabilityId := by
    rw [← hf.period] at hp
    rw [← hf.capabilityId, ← hf'.capabilityId]
    obtain ⟨hst, -⟩ := sameStructure_of_ok (by omega) hm
    cases hst <;> rfl
  intro r hr
  exact ⟨contains_period ha hp r hr, contains_period ha' hp' r (hsa ▸ hr)⟩

/-- A range has all the periods on the way exactly where they stay on its grid. -/
theorem path_contained_iff {r : DiscreteRange} (hd : 0 < d) (ha : r.contains a = true)
    (hb : r.contains b = true) : (∀ n < d, r.contains (share n d a b) = true) ↔
      r.step = 1 ∨ d * r.step ∣ Nat.dist a b := by
  obtain ⟨hs, hm, hma, hg⟩ := contains_iff.1 ha
  obtain ⟨-, hm', hma', -⟩ := contains_iff.1 hb
  have hp : ∀ n ≤ d, r.contains (share n d a b) = true ↔
      r.step ∣ RoundedPath.advance (Nat.dist a b) n d := by
    intro n hn
    obtain ⟨hl, hh⟩ := between_share n hd a b
    rw [share_of_le hn] at hl hh ⊢
    rw [← RoundedPath.dvd_path_sub_iff hd hn hm hm' hg, contains_iff]
    constructor
    · exact fun h => h.2.2.2
    · exact fun h => ⟨hs, by omega, by omega, h⟩
  rw [← RoundedPath.forall_dvd_advance_iff hd]
  constructor
  · intro h n hn
    rw [← hp n hn]
    rcases Nat.lt_or_eq_of_le hn with hlt | rfl
    · exact h n hlt
    -- The last fraction is the destination, which its own check accepted.
    · rw [share_of_le hn, RoundedPath.path_self hd]
      exact hb
  · intro h n hn
    exact (hp n (Nat.le_of_lt hn)).2 (h n (Nat.le_of_lt hn))

theorem periodsFit_iff (h : Accepted platform palette state direction plan) :
    (∀ n < progressScale, PeriodsFit state plan n progressScale) ↔ PeriodsOnGrid state plan := by
  have hs : 0 < progressScale := by decide
  constructor
  · intro hf period hp period' hp' r hr
    obtain ⟨hc, hc'⟩ := periods_advertised h hp hp' r hr
    rw [← path_contained_iff hs hc hc']
    exact fun n hn => hf n hn period hp period' hp' r hr
  · intro hg n hn period hp period' hp' r hr
    obtain ⟨hc, hc'⟩ := periods_advertised h hp hp' r hr
    exact (path_contained_iff hs hc hc').2 (hg period hp period' hp' r hr) n hn

theorem stepValid_iff
    (hp : easeProgress options.function elapsedMs options.durationMs = .ok (n, d)) :
    StepValid platform palette state plans options elapsedMs ↔
      ∀ plan ∈ plans, ∃ endpoint, interpolatePlan palette options n d plan = .ok endpoint ∧
        Sendable platform state endpoint := by
  rw [StepValid, interpolatePlans, hp, ← mapM_all_iff]
  rfl

/-- Every step of an accepted transition is accepted, whatever its easing
function and its duration, exactly where the periods of each plan stay on the
grid that the target advertises. -/
theorem accepted_steps_valid_iff {request : StartTransitionRequest} {plans : List TargetPlan}
    {sourceIsScene : Bool} (hkelvin : KelvinBetween platform)
    (hmode : request.options.colourInterpolation = .encoded direction)
    (hpreflight : preflight platform palette clock state request = .ok (plans, sourceIsScene))
    (hkinds : ∀ plan ∈ plans, ∀ descriptor ∈ advertisedEffect state plan.start.target
      plan.start.appearance.capabilityId, DistinctKinds descriptor) :
    (∀ function durationMs elapsedMs, 0 < durationMs → elapsedMs ≤ durationMs →
      StepValid platform palette state plans
        { request.options with function, durationMs } elapsedMs) ↔
      ∀ plan ∈ plans, PeriodsOnGrid state plan := by
  have ha := accepted_of_preflight hmode hpreflight
  constructor
  · intro hv plan hp
    rw [← periodsFit_iff (ha plan hp)]
    intro n hn
    have hs := hv .linear progressScale n (by decide) (Nat.le_of_lt hn)
    rw [stepValid_iff (easeProgress_linear (Nat.le_of_lt hn))] at hs
    exact (plan_step_iff (ha plan hp) hkelvin (hkinds plan hp) hmode hn).1 (hs plan hp)
  · intro hg function durationMs elapsedMs hd _
    obtain ⟨n, hn, hpr⟩ := easeProgress_ok hd
    rw [stepValid_iff hpr]
    intro plan hp
    rcases Nat.lt_or_eq_of_le hn with hlt | rfl
    · exact (plan_step_iff (ha plan hp) hkelvin (hkinds plan hp) hmode hlt).2
        ((periodsFit_iff (ha plan hp)).2 (hg plan hp) n hlt)
    · refine ⟨plan.finish, ?_, sendable_of_validateEndpoint (ha plan hp).validFinish⟩
      rw [interpolatePlan, if_pos (Nat.le_refl _)]

end

/-! ## A rainbow

The demonstration plugin advertises periods in steps of 100 ms, others every
millisecond. -/

namespace Strip

def rainbowWave (step : ℕ) : HardwareEffectDescriptor where
  id := "rainbow"
  parameters := [.duration ⟨100, 10000, step⟩]

def strip (step : ℕ) : Device where
  id := "strip"
  capabilities := { hardwareEffects := some ⟨[rainbowWave step], .device, false⟩ }

def rainbow (period : ℕ) : SceneTargetState where
  appearance := some (.rainbow period)
  emission := some .emitting

def evening : Scene where
  id := "evening"
  revision := 1
  name := "Evening"
  description := none
  owner := .uid 1000
  bindings := [.frozen (.device "strip") (rainbow 1000)]

def state (step : ℕ) : DaemonState :=
  { DaemonModel.fromDevices [strip step] with scenes := (∅ : Scenes).insert "evening" evening }

def request : StartTransitionRequest where
  source := .scene "evening"
  destination := .targetStates [(.device "strip", rainbow 2000)]
  options := { durationMs := 1000 }

def endpoint (period : ℕ) : Endpoint := ⟨.device "strip", .rainbow period, none, .emitting⟩

def plan : TargetPlan := ⟨endpoint 1000, endpoint 2000, u32Max⟩

def palette : Palette := fun start _ _ _ => start

def clock : TargetId → ℕ := fun _ => 0

end Strip

open Strip DesiredState.Sample in
/-- Both periods are advertised; the one after a third of the time is not. -/
theorem Counterexample.rainbow_step_refused :
    preflight platform palette clock (state 100) request = .ok ([plan], true) ∧
    interpolatePlans palette [plan] 330 request.options = .ok [endpoint 1330] ∧
    sentStates (state 100) (endpoint 1330) = .ok [.effect (.rainbow 1330)] ∧
    (validateTargetState platform (state 100) (.device "strip")
      (.effect (.rainbow 1330))).isOk = false := by
  refine ⟨rfl, rfl, rfl, rfl⟩

open Strip DesiredState.Sample in
theorem rainbow_steps_valid :
    preflight platform palette clock (state 1) request = .ok ([plan], true) ∧
    StepValid platform palette (state 1) [plan]
      { request.options with function := .easeInOut, durationMs := 1000 } 330 := by
  have hp : preflight platform palette clock (state 1) request = .ok ([plan], true) := rfl
  have ha : advertisedEffect (state 1) plan.start.target
      plan.start.appearance.capabilityId = some (rainbowWave 1) := rfl
  have hk : ∀ strip ∈ [plan], ∀ descriptor ∈ advertisedEffect (state 1) strip.start.target
      strip.start.appearance.capabilityId, DistinctKinds descriptor := by
    intro strip hs descriptor hd
    cases List.mem_singleton.1 hs
    rw [ha] at hd
    cases hd
    exact List.nodup_singleton 3
  have hg : ∀ strip ∈ [plan], PeriodsOnGrid (state 1) strip := by
    intro strip hs period _ period' _ range hr
    cases List.mem_singleton.1 hs
    rw [advertisedDurations, ha] at hr
    cases List.mem_singleton.1 hr
    exact .inl rfl
  exact ⟨hp, (accepted_steps_valid_iff (fun _ _ _ _ _ _ _ _ h _ => h) rfl hp
    hk).2 hg .easeInOut 1000 330 (by decide) (by decide)⟩

end TransitionValidity
