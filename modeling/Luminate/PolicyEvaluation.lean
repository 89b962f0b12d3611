import Luminate.AccessPolicy
import Luminate.Worklist

/-! # Policy evaluation

`PolicyDocument::evaluate`: the effective roles of a principal, the rules that
match a request, and the deny-overrides-allow decision over them. -/
namespace PolicyEvaluation

open AccessPolicy Std.ExtTreeMap List Std

def bindingMatches (binding : Binding) (principal : Principal) : Bool :=
  binding.authority == principal.id.authority &&
    (binding.subjects.contains principal.id.subject ||
      binding.groups.any fun group => principal.groups.contains group)

section

variable (document : PolicyDocument) (principal : Principal)

def grantedRoles : TextSet :=
  ExtTreeSet.ofList
    ((document.source.bindings.filter (bindingMatches · principal)).flatMap (·.roles.toList))

def effectiveRoles : TextSet :=
  let roles := grantedRoles document principal
  Worklist.drain (parentsOf document.source.roles) document.source.roles.size
    roles.toList.reverse roles

def constraintsAreEmpty (constraints : ResourceConstraints) : Bool :=
  constraints.deviceIds.isEmpty && constraints.providerInstances.isEmpty &&
    constraints.hostAttached.isNone && constraints.collections.isEmpty

def resourceMatches (constraints : ResourceConstraints) (resource : Resource) : Bool :=
  (constraints.deviceIds.isEmpty || constraints.deviceIds.contains resource.deviceId) &&
    (constraints.providerInstances.isEmpty ||
      resource.providerInstance.any constraints.providerInstances.contains) &&
    constraints.hostAttached.all (resource.hostAttached == ·) &&
    (constraints.collections.isEmpty || constraints.collections.any resource.collections.contains)

/-- A constrained rule needs at least one resource, and constrains every one. -/
def constraintsMatch (constraints : ResourceConstraints) (resources : List Resource) : Bool :=
  if constraintsAreEmpty constraints then true
  else !resources.isEmpty && resources.all (resourceMatches constraints)

def ruleMatches (rule : Rule) (operation : Operation) (resources : List Resource) : Bool :=
  operation ∈ rule.operations && constraintsMatch rule.resources resources

inductive DecisionOutcome where
  | allow | deny
  deriving DecidableEq

structure AuthorizationDecision where
  outcome : DecisionOutcome
  reason : Option String
  auditRule : Option RuleId
  cacheHint : Option Duration
  revision : ℕ
  deriving DecidableEq

def AuthorizationDecision.isAllowed (decision : AuthorizationDecision) : Bool :=
  decision.outcome = .allow

def RuleEffect.outcome : RuleEffect → DecisionOutcome
  | .allow => .allow
  | .deny => .deny

def ruleDecision (rule : Rule) (revision : ℕ) : AuthorizationDecision where
  outcome := RuleEffect.outcome rule.effect
  reason := rule.reason
  auditRule := some rule.id
  cacheHint := rule.cacheHint.map (min · maxCacheHint)
  revision := revision

/-- The candidate with the least rule identifier is kept. -/
def selectDecision (selected : Option AuthorizationDecision) (candidate : AuthorizationDecision) :
    Option AuthorizationDecision :=
  match selected with
  | none => some candidate
  | some current =>
    if compare (candidate.auditRule.map RuleId.value)
        (current.auditRule.map RuleId.value) = .lt then
      some candidate
    else some current

structure Candidates where
  allow : Option AuthorizationDecision := none
  deny : Option AuthorizationDecision := none

def consider (revision : ℕ) (operation : Operation) (resources : List Resource)
    (selected : Candidates) (rule : Rule) : Candidates :=
  if ruleMatches rule operation resources then
    match rule.effect with
    | .allow => { selected with
        allow := selectDecision selected.allow (ruleDecision rule revision) }
    | .deny => { selected with
        deny := selectDecision selected.deny (ruleDecision rule revision) }
  else selected

def rulesOf (name : String) : List Rule :=
  match document.source.roles[name]? with
  | some role => role.rules
  | none => []

def evaluate (operation : Operation) (resources : List Resource) : AuthorizationDecision :=
  let revision := document.source.revision
  let selected := (effectiveRoles document principal).toList.foldl
    (fun selected name =>
      (rulesOf document name).foldl (consider revision operation resources) selected)
    ({} : Candidates)
  (selected.deny.or selected.allow).getD
    { outcome := .deny, reason := some "access denied by default", auditRule := none,
      cacheHint := none, revision := revision }

end

theorem mem_grantedRoles : name ∈ grantedRoles document principal ↔ ∃ b ∈ document.source.bindings,
        bindingMatches b principal = true ∧ name ∈ b.roles := by
  simp [grantedRoles, ExtTreeSet.mem_ofList, and_assoc]

theorem granted_role_exists (h : name ∈ grantedRoles document principal) :
    name ∈ document.source.roles := by
  obtain ⟨b, hb, -, hn⟩ := mem_grantedRoles.1 h
  have hv := document.valid.bindings b hb
  simp only [validateBinding, Checks.then_ok_iff, Checks.checkAll_ok_iff,
    Checks.ensure_ok_iff] at hv
  obtain ⟨-, -, -, -, -, -, hr⟩ := hv
  exact contains_iff_mem.1 (hr name (ExtTreeSet.mem_toList.2 hn))

theorem parent_role_exists {document : PolicyDocument}
    (h : parent ∈ parentsOf document.source.roles name) : parent ∈ document.source.roles := by
  unfold parentsOf at h
  split at h
  · next role hr =>
    have he := mem_toList_iff_getElem?_eq_some.2 hr
    exact contains_iff_mem.1 ((document.valid.roles _ he).parents_exist parent h)
  · simp at h

/-- The worklist never runs out of fuel: the effective roles are exactly the
granted roles and the roles they inherit from, directly or not. -/
theorem mem_effectiveRoles {document : PolicyDocument} :
    name ∈ effectiveRoles document principal ↔ ∃ granted ∈ grantedRoles document principal,
        Worklist.Reaches (parentsOf document.source.roles) granted name := by
  have hk : ∀ a, a ∈ document.source.roles.keys.toFinset ↔ a ∈ document.source.roles := by simp
  have hg : ∀ a ∈ grantedRoles document principal, a ∈ document.source.roles.keys.toFinset :=
    fun a ha => (hk a).2 (granted_role_exists ha)
  have hp : ∀ a, a ∈ (grantedRoles document principal).toList.reverse ↔
      a ∈ grantedRoles document principal := by simp
  have hn : (grantedRoles document principal).toList.Nodup :=
    ExtTreeSet.distinct_toList.imp fun h he => h (by simp [he])
  refine Worklist.mem_drain ?_ hg (Worklist.Frontier.initial _ hp) ?_
  · intro a _ b hb
    exact (hk b).2 (parent_role_exists hb)
  · rw [Worklist.remaining_initial hg hp (nodup_reverse.2 hn),
      toFinset_card_of_nodup nodup_keys, length_keys]

def effectiveRules (document : PolicyDocument) (principal : Principal) : List Rule :=
  (effectiveRoles document principal).toList.flatMap (rulesOf document)

def Applies (document : PolicyDocument) (principal : Principal) (operation : Operation)
    (effect : RuleEffect) (resources : List Resource) : Prop :=
  ∃ rule ∈ effectiveRules document principal,
    rule.effect = effect ∧ ruleMatches rule operation resources = true

instance (document : PolicyDocument) (principal : Principal) (operation : Operation)
    (effect : RuleEffect) (resources : List Resource) :
    Decidable (Applies document principal operation effect resources) :=
  inferInstanceAs (Decidable (∃ rule ∈ effectiveRules document principal, _ ∧ _))

def Candidates.get (selected : Candidates) : RuleEffect → Option AuthorizationDecision
  | .allow => selected.allow
  | .deny => selected.deny

theorem consider_get : (consider revision op rs selected rule).get eff =
      if ruleMatches rule op rs = true ∧ rule.effect = eff then
        selectDecision (selected.get eff) (ruleDecision rule revision)
      else selected.get eff := by
  unfold consider
  by_cases hm : ruleMatches rule op rs = true
  · cases he : rule.effect <;> cases eff <;> simp [hm, Candidates.get]
  · simp [hm]

structure Scanned (operation : Operation) (resources : List Resource) (effect : RuleEffect)
    (rules : List Rule) (selected : Option AuthorizationDecision) : Prop where
  isSome_iff : selected.isSome = true ↔
    ∃ rule ∈ rules, rule.effect = effect ∧ ruleMatches rule operation resources = true
  outcome : ∀ decision ∈ selected, decision.outcome = RuleEffect.outcome effect

theorem selectDecision_isSome : (selectDecision selected cand).isSome = true := by
  unfold selectDecision
  split
  · rfl
  · split <;> rfl

theorem selectDecision_outcome (hs : ∀ decision ∈ selected, decision.outcome = outcome)
    (hc : cand.outcome = outcome) :
    ∀ decision ∈ selectDecision selected cand, decision.outcome = outcome := by
  intro decision hd
  unfold selectDecision at hd
  split at hd
  · simp_all
  · split at hd <;> simp_all

theorem scan_rules (revision : ℕ) (op : Operation) (rs : List Resource)
    (eff : RuleEffect) (rules : List Rule) : Scanned op rs eff rules
      ((rules.foldl (consider revision op rs) {}).get eff) := by
  induction rules using reverseRecOn with
  | nil => constructor <;> cases eff <;> simp [Candidates.get]
  | append_singleton rules rule ih =>
    rw [foldl_append, foldl_cons, foldl_nil, consider_get]
    split
    · next h =>
      refine ⟨?_, selectDecision_outcome ih.outcome (by simp [ruleDecision, h.2])⟩
      simp only [selectDecision_isSome, true_iff]
      exact ⟨rule, by simp, h.2, h.1⟩
    · next h =>
      refine ⟨?_, ih.outcome⟩
      rw [ih.isSome_iff]
      constructor
      · rintro ⟨r, hr, hm⟩
        exact ⟨r, mem_append_left _ hr, hm⟩
      · rintro ⟨r, hr, he, hm⟩
        rcases mem_append.1 hr with hr | hr
        · exact ⟨r, hr, he, hm⟩
        · rw [mem_singleton.1 hr] at he hm
          exact absurd ⟨hm, he⟩ h

section

variable (document : PolicyDocument) (principal : Principal) (operation : Operation)
  (resources : List Resource)

theorem evaluate_isAllowed_iff :
    (evaluate document principal op rs).isAllowed = true ↔ Applies document principal op .allow rs ∧
        ¬ Applies document principal op .deny rs := by
  have scanned := fun eff => scan_rules document.source.revision op rs eff
    (effectiveRules document principal)
  rw [Applies, ← (scanned .allow).isSome_iff, Applies, ← (scanned .deny).isSome_iff]
  have hal := (scanned .allow).outcome
  have hde := (scanned .deny).outcome
  simp only [Candidates.get] at hal hde ⊢
  rw [evaluate, ← foldl_flatMap, ← effectiveRules]
  generalize (effectiveRules document principal).foldl
    (consider document.source.revision op rs) {} = selected at *
  cases hd : selected.deny with
  | some decision => simp [AuthorizationDecision.isAllowed, hde decision hd, RuleEffect.outcome]
  | none =>
    cases ha : selected.allow with
    | some decision => simp [AuthorizationDecision.isAllowed, hal decision ha, RuleEffect.outcome]
    | none => simp [AuthorizationDecision.isAllowed]

theorem ruleMatches_member (h : ruleMatches rule op rs = true) (hr : r ∈ rs) :
    ruleMatches rule op [r] = true := by
  simp only [ruleMatches, constraintsMatch, Bool.and_eq_true] at h ⊢
  refine ⟨h.1, ?_⟩
  split
  · rfl
  · next hc =>
    rw [if_neg hc, Bool.and_eq_true, all_eq_true] at h
    simp [h.2.2 r hr]

/-- Whenever the whole request finds an allow rule and one of its devices on its
own finds a deny rule, the whole request finds a deny rule too. -/
def MemberDenialsApply : Prop :=
  Applies document principal operation .allow resources →
    (∃ resource ∈ resources, Applies document principal operation .deny [resource]) →
    Applies document principal operation .deny resources

/-- An allowed request has only allowed members exactly when every deny rule met
by a single member is matched by a deny rule for the whole request. -/
theorem allowed_members_iff :
    ((evaluate document principal operation resources).isAllowed = true → ∀ resource ∈ resources,
        (evaluate document principal operation [resource]).isAllowed = true) ↔
      MemberDenialsApply document principal operation resources := by
  simp only [evaluate_isAllowed_iff, MemberDenialsApply]
  constructor
  · intro h ha hde
    obtain ⟨resource, hr, hd⟩ := hde
    by_contra hn
    exact (h ⟨ha, hn⟩ resource hr).2 hd
  · rintro h ⟨ha, hn⟩ resource hr
    refine ⟨?_, fun hd => hn (h ha ⟨resource, hr, hd⟩)⟩
    obtain ⟨rule, hru, he, hm⟩ := ha
    exact ⟨rule, hru, he, ruleMatches_member hm hr⟩

end

namespace Counterexample

def principal : Principal where
  id := ⟨"oidc.example", "alice", by decide, by decide⟩
  groups := ∅
  groups_bounded := by decide
  groups_valid := by decide

def allowControl : Rule where
  id := ⟨"allow-control", by decide⟩
  effect := .allow
  operations := {.control}
  resources := {}
  reason := none
  cacheHint := none

def denyKeyboard : Rule where
  id := ⟨"deny-keyboard", by decide⟩
  effect := .deny
  operations := {.control}
  resources := { deviceIds := {"keyboard"} }
  reason := none
  cacheHint := none

def aliceIsUser : Binding where
  authority := "oidc.example"
  subjects := {"alice"}
  groups := ∅
  roles := {"user"}

def source : PolicyDocumentSource where
  revision := 1
  roles := {("user", { parents := ∅, rules := [allowControl, denyKeyboard] })}
  bindings := [aliceIsUser]

def document : PolicyDocument := ⟨source, validateDocument_ok_iff.1 (by decide +kernel)⟩

def device (id : String) : Resource where
  deviceId := id
  providerInstance := none
  hostAttached := true
  collections := ∅

/-- Adding a lamp to a request for the keyboard lifts the keyboard's denial. -/
theorem second_device_lifts_denial :
    (evaluate document principal .control [device "keyboard", device "lamp"]).isAllowed = true ∧
      (evaluate document principal .control [device "keyboard"]).isAllowed = false := by
  decide +kernel

end Counterexample

end PolicyEvaluation
