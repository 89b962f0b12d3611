import Luminate.PolicyEvaluation

/-! # What a policy document means

`evaluate` and `evaluate_session` against a reading of the document that knows no
worklist and no order: who holds a role, and which rules of these roles match. -/
namespace PolicyMeaning

open AccessPolicy Checks PolicyEvaluation List Std.ExtTreeMap Std

abbrev SystemTime := ℕ

structure AuthenticationLease where
  expiresAt : Option SystemTime

def AuthenticationLease.isValidAt (lease : AuthenticationLease) (now : SystemTime) : Bool :=
  lease.expiresAt.all (now < ·)

/-- A default scope has no grants, unlike one that was constructed. -/
structure AuthenticatedSession where
  subject : Principal
  lease : AuthenticationLease
  scope : List ScopeGrant

def AuthenticatedSession.isValidAt (session : AuthenticatedSession) (now : SystemTime) : Bool :=
  session.lease.isValidAt now

def scopeAllows (scope : List ScopeGrant) (operation : Operation) (resources : List Resource) :
    Bool :=
  scope.any fun grant => operation ∈ grant.operations && constraintsMatch grant.resources resources

def AuthorizationDecision.denied (revision : ℕ) (reason : String) : AuthorizationDecision where
  outcome := .deny
  reason := some reason
  auditRule := none
  cacheHint := none
  revision := revision

def evaluateSession (document : PolicyDocument) (session : AuthenticatedSession)
    (operation : Operation) (resources : List Resource) (now : SystemTime) :
    AuthorizationDecision :=
  if !session.isValidAt now then
    AuthorizationDecision.denied document.source.revision "authentication lease expired"
  else if !scopeAllows session.scope operation resources then
    AuthorizationDecision.denied document.source.revision "session scope denied access"
  else evaluate document session.subject operation resources

def Binds (binding : Binding) (principal : Principal) : Prop :=
  binding.authority = principal.id.authority ∧
    (principal.id.subject ∈ binding.subjects ∨
      ∃ group, group ∈ binding.groups ∧ group ∈ principal.groups)

def Inherits (source : PolicyDocumentSource) (child parent : String) : Prop :=
  ∃ role, source.roles[child]? = some role ∧ parent ∈ role.parents

/-- A bound role, or one it inherits from through any number of parents. -/
def Holds (source : PolicyDocumentSource) (principal : Principal) (name : String) : Prop :=
  ∃ binding ∈ source.bindings, Binds binding principal ∧
    ∃ bound, bound ∈ binding.roles ∧ Relation.ReflTransGen (Inherits source) bound name

def Matches (source : PolicyDocumentSource) (principal : Principal) (operation : Operation)
    (resources : List Resource) (effect : RuleEffect) : Prop :=
  ∃ name, Holds source principal name ∧ ∃ role, source.roles[name]? = some role ∧
    ∃ rule ∈ role.rules, rule.effect = effect ∧ ruleMatches rule operation resources = true

/-- The roles are written in another order, as are the rules of each role and the
bindings. -/
structure Reordered (left right : PolicyDocumentSource) : Prop where
  roles : ∃ written moved rewritten : List (String × Role), (written.map (·.1)).Nodup ∧
    left.roles = .ofList written ∧ right.roles = .ofList rewritten ∧ written.Perm moved ∧
    Forall₂ (fun a b => a.1 = b.1 ∧ a.2.parents = b.2.parents ∧ a.2.rules.Perm b.2.rules)
      moved rewritten
  bindings : left.bindings.Perm right.bindings

section

variable {α : Type} {cmp : α → α → Ordering} [TransCmp cmp]

def searchStep (p : α → Bool) (a : α) (_ : Option Bool × Unit) :
    Id (ForInStep (Option Bool × Unit)) :=
  if p a = true then pure (.done (some true, ())) else pure (.yield (none, ()))

theorem any_eq_any_toList (set : ExtTreeSet α cmp) (p : α → Bool) :
    set.any p = set.toList.any p := by
  have hl : set.any p = (Id.run (forIn set (none, ()) (searchStep p))).1.getD false := by
    obtain ⟨⟨⟨set⟩⟩⟩ := set
    induction set using Quotient.ind with
    | _ set =>
    change set.inner.any (fun a _ => p a) =
      (Id.run (forIn set.inner (none, ()) fun x s => searchStep p x.1 s)).1.getD false
    have hs : (fun (x : (_ : α) × Unit) s => searchStep p x.1 s) =
        fun (x : (_ : α) × Unit) _ => match x with
          | ⟨a, _⟩ => if p a = true then pure (.done (some true, ()))
            else pure (.yield (none, ())) := by
      funext ⟨a, _⟩ s
      rfl
    rw [hs]
    unfold DTreeMap.Internal.Impl.any
    simp only [Id.run_bind]
    split
    · next h => simp [h]
    · next h => simp [h]
  rw [hl, ExtTreeSet.forIn_eq_forIn_toList]
  induction set.toList with
  | nil => rfl
  | cons a rest ih =>
    rw [forIn_cons, any_cons]
    by_cases hp : p a = true
    · simp [searchStep, hp]
    · simp only [searchStep, hp] at ih ⊢
      simpa using ih

end

variable {who : Principal}

theorem bindingMatches_iff : bindingMatches b who = true ↔ Binds b who := by
  simp [bindingMatches, Binds, any_eq_any_toList]

theorem mem_effectiveRoles_iff : name ∈ effectiveRoles doc who ↔ Holds doc.source who name := by
  have hr : Worklist.Reaches (parentsOf doc.source.roles) =
      Relation.ReflTransGen (Inherits doc.source) := by
    unfold Worklist.Reaches
    congr 1
    funext child parent
    unfold parentsOf Inherits
    cases doc.source.roles[child]? <;> simp
  rw [mem_effectiveRoles, hr]
  simp only [mem_grantedRoles, bindingMatches_iff, Holds]
  constructor
  · rintro ⟨bound, ⟨b, hb, hbi, hbo⟩, hi⟩
    exact ⟨b, hb, hbi, bound, hbo, hi⟩
  · rintro ⟨b, hb, hbi, bound, hbo, hi⟩
    exact ⟨bound, ⟨b, hb, hbi, hbo⟩, hi⟩

theorem applies_iff : Applies doc who op eff rs ↔ Matches doc.source who op rs eff := by
  have hr : ∀ {name rule}, rule ∈ rulesOf doc name ↔
      ∃ role, doc.source.roles[name]? = some role ∧ rule ∈ role.rules := by
    intro name rule
    unfold rulesOf
    cases doc.source.roles[name]? <;> simp
  simp only [Applies, effectiveRules, mem_flatMap, ExtTreeSet.mem_toList,
    mem_effectiveRoles_iff, hr, Matches]
  constructor
  · rintro ⟨rule, ⟨name, hn, role, hro, hru⟩, hm⟩
    exact ⟨name, hn, role, hro, rule, hru, hm⟩
  · rintro ⟨name, hn, role, hro, rule, hru, hm⟩
    exact ⟨rule, ⟨name, hn, role, hro, hru⟩, hm⟩

theorem isAllowed_iff : (evaluate doc who op rs).isAllowed = true ↔
      Matches doc.source who op rs .allow ∧ ¬ Matches doc.source who op rs .deny := by
  rw [evaluate_isAllowed_iff, applies_iff, applies_iff]

theorem outcome_deny_iff {decision : AuthorizationDecision} :
    decision.outcome = .deny ↔ ¬ decision.isAllowed = true := by
  unfold AuthorizationDecision.isAllowed
  cases decision.outcome <;> simp

theorem evaluateSession_allowed (h : (evaluateSession doc session op rs now).isAllowed = true) :
    scopeAllows session.scope op rs = true ∧
      (evaluate doc session.subject op rs).isAllowed = true := by
  unfold evaluateSession at h
  split at h
  · cases h
  · split at h
    · cases h
    · next hs => exact ⟨by simpa using hs, h⟩

def RolesMatch (left right : PolicyDocumentSource) : Prop :=
  ∀ {name : String} {role : Role}, left.roles[name]? = some role →
    ∃ other, right.roles[name]? = some other ∧ role.parents = other.parents ∧
      role.rules.Perm other.rules

theorem getElem?_ofList_iff (hn : (written.map (·.1)).Nodup) {name : String} {role : Role} :
    (ExtTreeMap.ofList written compare)[name]? = some role ↔ (name, role) ∈ written := by
  have hd : written.Pairwise fun a b => ¬ compare a.1 b.1 = .eq :=
    (pairwise_map.1 hn).imp fun hne heq => hne (LawfulEqCmp.eq_of_compare heq)
  constructor
  · intro h
    have hl : name ∈ written.map (·.1) := by
      by_contra hno
      rw [getElem?_ofList_of_contains_eq_false (by simpa using hno)] at h
      cases h
    obtain ⟨⟨_, other⟩, ho, rfl⟩ := mem_map.1 hl
    rw [getElem?_ofList_of_mem ReflCmp.compare_self hd ho] at h
    rwa [← Option.some.inj h]
  · intro h
    exact getElem?_ofList_of_mem ReflCmp.compare_self hd h

theorem Reordered.rolesMatch {left right : PolicyDocumentSource} (h : Reordered left right) :
    RolesMatch left right ∧ RolesMatch right left := by
  obtain ⟨written, moved, rewritten, hn, hl, hri, hpe, hf⟩ := h.roles
  have hna : moved.map (·.1) = rewritten.map (·.1) := by
    refine forall₂_eq_eq_eq ▸ ?_
    exact forall₂_map_left_iff.2 (forall₂_map_right_iff.2 (hf.imp fun _ _ h => h.1))
  have hn' : (rewritten.map (·.1)).Nodup := hna ▸ (hpe.map _).nodup_iff.1 hn
  constructor
  · intro name role hro
    rw [hl, getElem?_ofList_iff hn, hpe.mem_iff] at hro
    obtain ⟨⟨_, other⟩, ho, rfl, hp, hr⟩ := exists_of_forall₂ hf hro
    exact ⟨other, hri ▸ (getElem?_ofList_iff hn').2 ho, hp, hr⟩
  · intro name role hro
    rw [hri, getElem?_ofList_iff hn'] at hro
    obtain ⟨⟨_, other⟩, ho, rfl, hp, hr⟩ := exists_of_forall₂ (Forall₂.flip hf) hro
    exact ⟨other, hl ▸ (getElem?_ofList_iff hn).2 (hpe.mem_iff.2 ho), hp.symm, hr.symm⟩

section

variable (hroles : RolesMatch left right)
include hroles

theorem Inherits.transfer (h : Inherits left child parent) : Inherits right child parent := by
  obtain ⟨role, hr, hpa⟩ := h
  obtain ⟨other, ho, hp, -⟩ := hroles hr
  exact ⟨other, ho, hp ▸ hpa⟩

theorem Matches.transfer (hb : left.bindings.Perm right.bindings) (h : Matches left who op rs eff) :
    Matches right who op rs eff := by
  obtain ⟨name, ⟨b, hbi, hbn, bound, hbo, hi⟩, role, hro, rule, hru, hm⟩ := h
  obtain ⟨other, ho, -, hr⟩ := hroles hro
  refine ⟨name, ⟨b, hb.mem_iff.1 hbi, hbn, bound, hbo, ?_⟩, other, ho, rule, hr.mem_iff.1 hru, hm⟩
  exact Relation.ReflTransGen.mono (fun _ _ => Inherits.transfer hroles) _ _ hi

end

theorem Reordered.matches_iff (h : Reordered left right) :
    Matches right who op rs eff ↔ Matches left who op rs eff :=
  ⟨Matches.transfer h.rolesMatch.2 h.bindings.symm, Matches.transfer h.rolesMatch.1 h.bindings⟩

section

variable (h : Reordered left right)
include h

theorem Reordered.parents_eq : left.roles.map (fun _ role => role.parents) =
    right.roles.map fun _ role => role.parents := by
  obtain ⟨hl, hr⟩ := h.rolesMatch
  ext1 name
  rw [ExtTreeMap.getElem?_map, ExtTreeMap.getElem?_map]
  cases hro : left.roles[name]? with
  | some role =>
    obtain ⟨other, ho, hp, -⟩ := hl hro
    rw [ho, Option.map_some, Option.map_some, hp]
  | none =>
    cases ho : right.roles[name]? with
    | none => rfl
    | some other =>
      obtain ⟨role, hr', -⟩ := hr ho
      rw [hro] at hr'
      cases hr'

theorem Reordered.keys_eq : left.roles.keys = right.roles.keys := by
  have hk := congrArg ExtTreeMap.keys h.parents_eq
  rwa [keys_map, keys_map] at hk

theorem Reordered.parentsOf_eq : parentsOf left.roles = parentsOf right.roles := by
  have hp : ∀ src : PolicyDocumentSource, parentsOf src.roles = fun name =>
        ((src.roles.map fun _ role => role.parents)[name]?.map (·.toList)).getD [] := by
    intro src
    funext name
    rw [ExtTreeMap.getElem?_map]
    unfold parentsOf
    cases src.roles[name]? <;> rfl
  rw [hp, hp, h.parents_eq]

theorem Reordered.contains_iff : left.roles.contains name = right.roles.contains name := by
  rw [Bool.eq_iff_iff, ExtTreeMap.contains_iff_mem, ExtTreeMap.contains_iff_mem,
    ← ExtTreeMap.mem_keys, ← ExtTreeMap.mem_keys, h.keys_eq]

theorem Reordered.ruleIds_perm : (ruleIds left.roles.toList).Perm (ruleIds right.roles.toList) := by
  have hk : ∀ src : PolicyDocumentSource, ruleIds src.roles.toList =
      src.roles.keys.flatMap fun name =>
        (src.roles[name]?.map fun role => role.rules.map Rule.id).getD [] := by
    intro src
    rw [← map_fst_toList_eq_keys, flatMap_map]
    apply flatMap_congr
    rintro ⟨name, role⟩ he
    rw [mem_toList_iff_getElem?_eq_some.1 he]
    rfl
  rw [hk, hk, h.keys_eq]
  refine Perm.flatMap_left _ fun name _ => ?_
  obtain ⟨hl, hr⟩ := h.rolesMatch
  cases hro : left.roles[name]? with
  | some role =>
    obtain ⟨other, ho, -, hru⟩ := hl hro
    rw [ho]
    exact hru.map _
  | none =>
    cases ho : right.roles[name]? with
    | none => exact .refl _
    | some other =>
      obtain ⟨role, hr', -⟩ := hr ho
      rw [hro] at hr'
      cases hr'

theorem Reordered.valid (hv : ValidDocument left) : ValidDocument right where
  roles := by
    rintro ⟨name, role⟩ he
    obtain ⟨other, ho, hp, hr⟩ := h.rolesMatch.2 (mem_toList_iff_getElem?_eq_some.1 he)
    have hro := hv.roles _ (mem_toList_iff_getElem?_eq_some.2 ho)
    refine ⟨hro.name, hp ▸ hro.parents, fun parent hpa => ?_, fun rule hru => ?_⟩
    · rw [← h.contains_iff]
      exact hro.parents_exist parent (hp ▸ hpa)
    · exact hro.rules rule (hr.mem_iff.1 hru)
  ruleIds_nodup := h.ruleIds_perm.nodup_iff.1 hv.ruleIds_nodup
  acyclic := by
    have hs : left.roles.size = right.roles.size := by rw [← length_keys, ← length_keys, h.keys_eq]
    have ha := hv.acyclic
    rwa [validateAcyclicRoles, h.keys_eq, h.parentsOf_eq, hs] at ha
  bindings := by
    intro b hb
    have hc := hv.bindings b (h.bindings.mem_iff.2 hb)
    simpa only [validateBinding, h.contains_iff] using hc

end

theorem roles_names_nodup (roles : TextMap Role) : (roles.toList.map (·.1)).Nodup := by
  rw [map_fst_toList_eq_keys]
  exact nodup_keys

theorem ofList_toList (roles : TextMap Role) : ExtTreeMap.ofList roles.toList compare = roles := by
  ext1 name
  ext role
  rw [getElem?_ofList_iff (roles_names_nodup roles), mem_toList_iff_getElem?_eq_some]

theorem reordered_canonical : Reordered src (canonical src) where
  roles := by
    refine ⟨src.roles.toList, src.roles.toList, (canonical src).roles.toList,
      roles_names_nodup _, (ofList_toList _).symm, (ofList_toList _).symm, .refl _, ?_⟩
    rw [canonical, toList_map, forall₂_map_right_iff]
    refine forall₂_same.2 fun entry _ => ⟨rfl, rfl, ?_⟩
    exact (perm_insertionSort _ _).symm
  bindings := (perm_insertionSort _ _).symm

/-- An accepted document allows what its source, as written, allows and does not deny. -/
theorem accepted_isAllowed_iff (h : PolicyDocument.new src = .ok doc) :
    (evaluate doc who op rs).isAllowed = true ↔ Matches src who op rs .allow ∧
        ¬ Matches src who op rs .deny := by
  have hs : doc.source = canonical src := by
    unfold PolicyDocument.new at h
    split at h
    · cases h
    · rw [← Except.ok.inj h]
  rw [isAllowed_iff, hs, reordered_canonical.matches_iff, reordered_canonical.matches_iff]

/-- The rules are not in the order in which the document keeps them. -/
def Sample.written : PolicyDocumentSource :=
  { Counterexample.source with
    roles := {("user", ⟨∅, [Counterexample.denyKeyboard, Counterexample.allowControl]⟩)} }

open Sample Counterexample in
/-- The keyboard is denied, the lamp is not. -/
theorem written_rules_decide : ∃ doc, PolicyDocument.new written = .ok doc ∧
    (evaluate doc principal .control [device "keyboard"]).isAllowed = false ∧
    Matches written principal .control [device "lamp"] .allow ∧
    ¬ Matches written principal .control [device "lamp"] .deny := by
  have hd : (PolicyDocument.new written).map (fun doc => ["keyboard", "lamp"].map fun id =>
      (evaluate doc principal .control [device id]).isAllowed) = .ok [false, true] := by
    decide +kernel
  cases hn : PolicyDocument.new written with
  | error e =>
    rw [hn] at hd
    cases hd
  | ok doc =>
    rw [hn] at hd
    have he := Except.ok.inj hd
    simp only [map_cons, map_nil, cons.injEq, and_true] at he
    exact ⟨doc, rfl, he.1, (accepted_isAllowed_iff hn).1 he.2⟩

/-- A document denies what a matching deny rule of a held role forbids, then allows what
an allow rule permits, and denies the rest. The roles held are the bound ones and all
they inherit from. Order has no influence, and a scope only takes away. -/
theorem evaluation_means_the_document (document : PolicyDocument) (principal : Principal)
    (operation : Operation) (resources : List Resource) :
    (∀ name, name ∈ effectiveRoles document principal ↔ Holds document.source principal name) ∧
    (Matches document.source principal operation resources .deny →
      (evaluate document principal operation resources).outcome = .deny) ∧
    (¬ Matches document.source principal operation resources .deny →
      Matches document.source principal operation resources .allow →
      (evaluate document principal operation resources).outcome = .allow) ∧
    (¬ Matches document.source principal operation resources .deny →
      ¬ Matches document.source principal operation resources .allow →
      (evaluate document principal operation resources).outcome = .deny) ∧
    (∀ source, Reordered document.source source → ∃ valid : ValidDocument source,
      (evaluate ⟨source, valid⟩ principal operation resources).isAllowed =
        (evaluate document principal operation resources).isAllowed) ∧
    (∀ (session : AuthenticatedSession) (now : SystemTime), session.subject = principal →
      (evaluateSession document session operation resources now).isAllowed = true →
      (evaluate document principal operation resources).isAllowed = true) := by
  refine ⟨fun _ => mem_effectiveRoles_iff, ?_, ?_, ?_, ?_, ?_⟩
  · intro hd
    rw [outcome_deny_iff, isAllowed_iff]
    exact fun h => h.2 hd
  · intro hd hal
    have ha : (evaluate document principal operation resources).isAllowed = true :=
      isAllowed_iff.2 ⟨hal, hd⟩
    simpa [AuthorizationDecision.isAllowed] using ha
  · intro _ hal
    rw [outcome_deny_iff, isAllowed_iff]
    exact fun h => hal h.1
  · intro source hr
    refine ⟨hr.valid document.valid, ?_⟩
    rw [Bool.eq_iff_iff, isAllowed_iff, isAllowed_iff, hr.matches_iff, hr.matches_iff]
  · rintro session now rfl ha
    exact (evaluateSession_allowed ha).2

end PolicyMeaning
