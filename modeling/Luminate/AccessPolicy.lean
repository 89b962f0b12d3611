import Luminate.Checks
import Luminate.DeviceModel
import Mathlib.Data.Finset.Basic
import Mathlib.Data.List.Sort
import Mathlib.Data.String.Basic

/-! # Access-policy documents

Roles, rules and bindings of `policy/document.rs` with the identity types of
`policy/identity.rs`. A `PolicyDocument` can only be built from a source that
validation accepted. -/
namespace AccessPolicy

open Checks List Std
open DeviceModel (DeviceId)

abbrev TextSet := ExtTreeSet String compare
abbrev TextMap (α : Type) := ExtTreeMap String α compare

def maxIdentityTextBytes : ℕ := 4096

def maxVerifiedGroups : ℕ := 256

def maxReasonBytes : ℕ := 512

/-- Durations in nanoseconds. -/
abbrev Duration := ℕ
def maxCacheHint : Duration := 300 * 1000000000

inductive ValidationError where
  | empty (kind : String)
  | tooLong (kind : String) (bytes : ℕ)
  | tooManyGroups (count : ℕ)
  | missingParent (role parent : String)
  | noOperations (rule : String)
  | duplicateRule (rule : String)
  | emptyReason (rule : String)
  | longReason (rule : String)
  | roleCycle (role : String)
  | noSelector
  | noRole
  | missingRole (role : String)
  deriving DecidableEq, Repr

/-- `debug` is the `{:?}` rendering of a string. -/
def ValidationError.message (debug : String → String) : ValidationError → String
  | .empty kind => kind ++ " must not be empty"
  | .tooLong kind bytes =>
    kind ++ " is " ++ toString bytes ++ " bytes; maximum is " ++ toString maxIdentityTextBytes
  | .tooManyGroups count =>
    "principal has " ++ toString count ++ " verified groups; maximum is " ++
      toString maxVerifiedGroups
  | .missingParent role parent =>
    "role " ++ debug role ++ " refers to missing parent " ++ debug parent
  | .noOperations rule => "rule " ++ debug rule ++ " matches no operations"
  | .duplicateRule rule => "duplicate rule ID " ++ debug rule
  | .emptyReason rule => "rule " ++ debug rule ++ " has an empty reason"
  | .longReason rule =>
    "rule " ++ debug rule ++ " reason exceeds " ++ toString maxReasonBytes ++ " bytes"
  | .roleCycle role => "role inheritance contains a cycle at " ++ debug role
  | .noSelector => "binding must contain at least one subject or group"
  | .noRole => "binding must grant at least one role"
  | .missingRole role => "binding refers to missing role " ++ debug role

def validateNonempty (kind value : String) : Except ValidationError Unit :=
  if value.isEmpty then .error (.empty kind)
  else if maxIdentityTextBytes < value.utf8ByteSize then
    .error (.tooLong kind value.utf8ByteSize)
  else .ok ()

def validateStrings (kind : String) (values : TextSet) : Except ValidationError Unit :=
  checkAll (validateNonempty kind) values.toList

inductive Operation where
  | observe | refresh | control | hardwareAdministration | daemonAdministration
  | managePlugins | createCollection | destroyCollection | modifyCollection
  | administerCollections | managePolicy | manageAuthentication | administerFrontend
  | createScene | modifyScene | destroyScene | administerScenes
  deriving DecidableEq, Repr

structure Resource where
  deviceId : DeviceId
  providerInstance : Option String
  hostAttached : Bool
  collections : TextSet

structure ResourceConstraints where
  deviceIds : TextSet := ∅
  providerInstances : TextSet := ∅
  hostAttached : Option Bool := none
  collections : TextSet := ∅

structure PrincipalId where
  authority : String
  subject : String
  authority_valid : validateNonempty "principal authority" authority = .ok ()
  subject_valid : validateNonempty "principal subject" subject = .ok ()
  deriving DecidableEq

structure Principal where
  id : PrincipalId
  groups : TextSet
  groups_bounded : groups.size ≤ maxVerifiedGroups
  groups_valid : validateStrings "principal group" groups = .ok ()

def PrincipalId.new (authority subject : String) : Except ValidationError PrincipalId :=
  match ha : validateNonempty "principal authority" authority with
  | .error error => .error error
  | .ok () =>
    match hs : validateNonempty "principal subject" subject with
    | .error error => .error error
    | .ok () => .ok ⟨authority, subject, ha, hs⟩

def Principal.new (authority subject : String) (groups : List String) :
    Except ValidationError Principal := do
  let id ← PrincipalId.new authority subject
  let verified : TextSet := .ofList groups
  if hb : verified.size ≤ maxVerifiedGroups then
    match hv : validateStrings "principal group" verified with
    | .error error => .error error
    | .ok () => .ok ⟨id, verified, hb, hv⟩
  else .error (.tooManyGroups verified.size)

structure ScopeGrant where
  operations : Finset Operation
  resources : ResourceConstraints

structure SessionScope where
  grants : List ScopeGrant
  nonempty : grants ≠ []
  operations_nonempty : ∀ grant ∈ grants, grant.operations ≠ ∅

structure RuleId where
  value : String
  valid : validateNonempty "rule ID" value = .ok ()
  deriving DecidableEq

inductive RuleEffect where
  | allow | deny
  deriving DecidableEq, Repr

structure Rule where
  id : RuleId
  effect : RuleEffect
  operations : Finset Operation
  resources : ResourceConstraints
  reason : Option String
  cacheHint : Option Duration

structure Role where
  parents : TextSet
  rules : List Rule

structure Binding where
  authority : String
  subjects : TextSet
  groups : TextSet
  roles : TextSet

structure PolicyDocumentSource where
  revision : ℕ
  roles : TextMap Role
  bindings : List Binding

/-- The checks `validate_document` makes on one rule; `ruleIds` holds the
identifiers met before it. -/
def validateRule (ruleIds : List RuleId) (rule : Rule) : Except ValidationError Unit := do
  validateNonempty "rule ID" rule.id.value
  ensure (rule.operations ≠ ∅) (.noOperations rule.id.value)
  ensure (rule.id ∉ ruleIds) (.duplicateRule rule.id.value)
  validateStrings "provider instance constraint" rule.resources.providerInstances
  ensure (rule.reason.all (!String.isEmpty ·)) (.emptyReason rule.id.value)
  ensure (rule.reason.all (·.utf8ByteSize ≤ maxReasonBytes)) (.longReason rule.id.value)

def validateRules (ruleIds : List RuleId) : List Rule → Except ValidationError (List RuleId)
  | [] => .ok ruleIds
  | rule :: rest => do
    validateRule ruleIds rule
    validateRules (rule.id :: ruleIds) rest

def validateRoles (roles : TextMap Role) (ruleIds : List RuleId) :
    List (String × Role) → Except ValidationError (List RuleId)
  | [] => .ok ruleIds
  | (name, role) :: rest => do
    validateNonempty "role name" name
    validateStrings "parent role name" role.parents
    checkAll (fun parent => ensure (roles.contains parent) (.missingParent name parent))
      role.parents.toList
    let ruleIds ← validateRules ruleIds role.rules
    validateRoles roles ruleIds rest

inductive Visit where
  | active | complete
  deriving DecidableEq, Repr

/-- The depth-first search of `validate_acyclic_roles`. The roles on the search
path are distinct, so `fuel` larger than the number of roles is never used up. -/
def visit (parents : String → List String) :
    ℕ → String → TextMap Visit → Except ValidationError (TextMap Visit)
  | 0, _, visits => .ok visits
  | fuel + 1, name, visits =>
    match visits[name]? with
    | some .active => .error (.roleCycle name)
    | some .complete => .ok visits
    | none => do
      let visits ← (parents name).foldlM (fun visits parent => visit parents fuel parent visits)
        (visits.insert name .active)
      return visits.insert name .complete

def parentsOf (roles : TextMap Role) (name : String) : List String :=
  match roles[name]? with
  | some role => role.parents.toList
  | none => []

def validateAcyclicRoles (roles : TextMap Role) : Except ValidationError Unit := do
  let _ ← roles.keys.foldlM
    (fun visits name => visit (parentsOf roles) (roles.size + 1) name visits) (∅ : TextMap Visit)
  return ()

def validateBinding (roles : TextMap Role) (binding : Binding) : Except ValidationError Unit := do
  validateNonempty "binding authority" binding.authority
  validateStrings "binding subject" binding.subjects
  validateStrings "binding group" binding.groups
  ensure (!(binding.subjects.isEmpty && binding.groups.isEmpty)) .noSelector
  ensure (!binding.roles.isEmpty) .noRole
  validateStrings "binding role" binding.roles
  checkAll (fun role => ensure (roles.contains role) (.missingRole role)) binding.roles.toList

def validateDocument (source : PolicyDocumentSource) : Except ValidationError Unit := do
  let _ ← validateRoles source.roles [] source.roles.toList
  validateAcyclicRoles source.roles
  checkAll (validateBinding source.roles) source.bindings

structure ValidRule (rule : Rule) : Prop where
  operations : rule.operations ≠ ∅
  providerInstances :
    validateStrings "provider instance constraint" rule.resources.providerInstances = .ok ()
  reason_nonempty : rule.reason.all (!String.isEmpty ·) = true
  reason_bounded : rule.reason.all (·.utf8ByteSize ≤ maxReasonBytes) = true

structure ValidRole (roles : TextMap Role) (name : String) (role : Role) : Prop where
  name : validateNonempty "role name" name = .ok ()
  parents : validateStrings "parent role name" role.parents = .ok ()
  parents_exist : ∀ parent ∈ role.parents.toList, roles.contains parent = true
  rules : ∀ rule ∈ role.rules, ValidRule rule

def ruleIds (roles : List (String × Role)) : List RuleId :=
  roles.flatMap fun entry => entry.2.rules.map Rule.id

structure ValidDocument (source : PolicyDocumentSource) : Prop where
  roles : ∀ entry ∈ source.roles.toList, ValidRole source.roles entry.1 entry.2
  ruleIds_nodup : (ruleIds source.roles.toList).Nodup
  acyclic : validateAcyclicRoles source.roles = .ok ()
  bindings : ∀ binding ∈ source.bindings, validateBinding source.roles binding = .ok ()

theorem validateRule_ok_iff :
    validateRule seen rule = .ok () ↔ ValidRule rule ∧ rule.id ∉ seen := by
  simp only [validateRule, then_ok_iff, ensure_ok_iff, rule.id.valid, decide_eq_true_eq, true_and]
  constructor
  · rintro ⟨ho, hn, hp, he, hl⟩
    exact ⟨⟨ho, hp, he, hl⟩, hn⟩
  · rintro ⟨h, hn⟩
    exact ⟨h.operations, hn, h.providerInstances, h.reason_nonempty, h.reason_bounded⟩

theorem validateRules_ok_iff : validateRules seen rules = .ok result ↔
      (∀ rule ∈ rules, ValidRule rule) ∧ (rules.map Rule.id).Nodup ∧
      (∀ rule ∈ rules, rule.id ∉ seen) ∧ (rules.map Rule.id).reverse ++ seen = result := by
  induction rules generalizing seen with
  | nil => simp [validateRules]
  | cons rule rest ih =>
    simp only [validateRules, then_ok_iff, validateRule_ok_iff, ih, forall_mem_cons,
      map_cons, nodup_cons, mem_map, not_exists, not_and, reverse_cons,
      append_assoc, singleton_append]
    have hs : (∀ r ∈ rest, r.id ∉ rule.id :: seen) ↔
        (∀ r ∈ rest, r.id ≠ rule.id) ∧ ∀ r ∈ rest, r.id ∉ seen := by
      simp [forall_and]
    tauto

theorem validateRoles_ok_iff : validateRoles roles seen entries = .ok result ↔
      (∀ entry ∈ entries, ValidRole roles entry.1 entry.2) ∧ (ruleIds entries).Nodup ∧
      (∀ id ∈ ruleIds entries, id ∉ seen) ∧ (ruleIds entries).reverse ++ seen = result := by
  induction entries generalizing seen with
  | nil => simp [validateRoles, ruleIds]
  | cons entry rest ih =>
    obtain ⟨name, role⟩ := entry
    have hi : ruleIds ((name, role) :: rest) = role.rules.map Rule.id ++ ruleIds rest := rfl
    have hse : ∀ l : List RuleId, (∀ id ∈ ruleIds rest, id ∉ l.reverse ++ seen) ↔
        (∀ a ∈ l, ∀ b ∈ ruleIds rest, a ≠ b) ∧ ∀ id ∈ ruleIds rest, id ∉ seen := by
      intro l
      simp only [mem_append, mem_reverse, not_or, forall_and]
      exact and_congr_left fun _ => ⟨fun h a ha b hb he => h b hb (he ▸ ha),
        fun h a ha hl => h a hl a ha rfl⟩
    simp only [validateRoles, then_ok_iff, checkAll_ok_iff, ensure_ok_iff]
    simp only [bind_ok_iff, validateRules_ok_iff, ih, hi, forall_mem_cons,
      nodup_append, forall_mem_append, reverse_append, append_assoc]
    constructor
    · rintro ⟨hn, hp, he, _, ⟨hr, hd, hs, rfl⟩, hro, hd', hs', hre⟩
      rw [hse] at hs'
      exact ⟨⟨⟨hn, hp, he, hr⟩, hro⟩, ⟨hd, hd', hs'.1⟩, ⟨by simpa using hs, hs'.2⟩, hre⟩
    · rintro ⟨⟨hrl, hro⟩, ⟨hd, hd', hdi⟩, ⟨hs, hs'⟩, hre⟩
      refine ⟨hrl.name, hrl.parents, hrl.parents_exist, _,
        ⟨hrl.rules, hd, by simpa using hs, rfl⟩, hro, hd', ?_, hre⟩
      exact (hse _).2 ⟨hdi, hs'⟩

theorem validateDocument_ok_iff : validateDocument src = .ok () ↔ ValidDocument src := by
  rw [validateDocument, bind_ok_iff]
  simp only [then_ok_iff, checkAll_ok_iff, validateRoles_ok_iff]
  constructor
  · rintro ⟨_, ⟨hr, hn, -, -⟩, ha, hb⟩
    exact ⟨hr, hn, ha, hb⟩
  · intro h
    exact ⟨_, ⟨h.roles, h.ruleIds_nodup, by simp, rfl⟩, h.acyclic, h.bindings⟩

structure PolicyDocument where
  source : PolicyDocumentSource
  valid : ValidDocument source

def bindingKey (binding : Binding) : List (List String) :=
  [[binding.authority], binding.subjects.toList, binding.groups.toList, binding.roles.toList]

def sortRules (role : Role) : Role :=
  { role with rules := role.rules.insertionSort fun left right => left.id.value ≤ right.id.value }

def canonical (source : PolicyDocumentSource) : PolicyDocumentSource :=
  { source with
    roles := source.roles.map fun _ role => sortRules role
    bindings := source.bindings.insertionSort fun left right =>
      bindingKey left ≤ bindingKey right }

theorem parentsOf_canonical : parentsOf (canonical src).roles = parentsOf src.roles := by
  funext name
  simp only [parentsOf, canonical, ExtTreeMap.getElem?_map]
  cases src.roles[name]? <;> simp [sortRules]

theorem ruleIds_canonical :
    (ruleIds (canonical src).roles.toList).Perm (ruleIds src.roles.toList) := by
  simp only [ruleIds, canonical, ExtTreeMap.toList_map, flatMap_map]
  refine List.Perm.flatMap_left _ fun entry _ => ?_
  exact (perm_insertionSort _ _).map _

theorem canonical_valid (h : ValidDocument src) : ValidDocument (canonical src) := by
  constructor
  · intro entry he
    simp only [canonical, ExtTreeMap.toList_map, mem_map] at he
    obtain ⟨original, hm, rfl⟩ := he
    have hr := h.roles original hm
    refine ⟨hr.name, hr.parents, ?_, ?_⟩
    · simpa [canonical, sortRules] using hr.parents_exist
    · intro rule hru
      exact hr.rules rule ((perm_insertionSort _ _).mem_iff.1 hru)
  · exact ruleIds_canonical.nodup_iff.2 h.ruleIds_nodup
  · have := h.acyclic
    unfold validateAcyclicRoles at this ⊢
    rw [parentsOf_canonical]
    simpa [canonical] using this
  · intro b hbi
    have hb := h.bindings b ((perm_insertionSort _ _).mem_iff.1 hbi)
    simpa [validateBinding, canonical] using hb

/-- Validation accepts exactly the sources that satisfy the document invariant,
and the canonical order of rules and bindings keeps it. -/
def PolicyDocument.new (source : PolicyDocumentSource) : Except ValidationError PolicyDocument :=
  match h : validateDocument source with
  | .error error => .error error
  | .ok () => .ok ⟨canonical source, canonical_valid (validateDocument_ok_iff.1 h)⟩

end AccessPolicy
