import Mathlib.Algebra.GroupWithZero.Nat
import Mathlib.Data.Set.Finite.Basic
import Mathlib.Order.Bounds.Basic

/-! # Nested membership

A registry gives the members of a collection: leaves, and nested collections. Where
everything below a collection exists and nothing contains itself, a value can be
computed for it from the values of its members, whatever is shared on the way. -/
namespace Membership

open List

universe u

variable {τ ι : Type*} {β : Type u}

abbrev Registry (τ ι : Type*) := ι → Option (List (τ ⊕ ι))

def Contains (registry : Registry τ ι) (id nested : ι) : Prop :=
  ∃ members, registry id = some members ∧ .inr nested ∈ members

/-- Everything below exists, and nothing below contains itself. -/
inductive Grounded (registry : Registry τ ι) : ι → Prop
  | intro {id : ι} {members : List (τ ⊕ ι)} (found : registry id = some members)
      (nested : ∀ nested, .inr nested ∈ members → Grounded registry nested) :
      Grounded registry id

variable {registry : Registry τ ι} {id nested : ι} {members : List (τ ⊕ ι)}

theorem Grounded.of_contains (h : Grounded registry id) (hc : Contains registry id nested) :
    Grounded registry nested := by
  obtain ⟨members, hm, hn⟩ := hc
  cases h with
  | intro fd below => exact below nested (Option.some.inj (fd.symm.trans hm) ▸ hn)

theorem Grounded.exists_members (h : Grounded registry id) :
    ∃ members, registry id = some members := by
  cases h with
  | intro fd _ => exact ⟨_, fd⟩

theorem Grounded.not_reaches_self (h : Grounded registry id) :
    ¬ Relation.TransGen (Contains registry) id id := by
  induction h with
  | @intro id members fd below ih =>
    intro hc
    -- The cycle also runs through the member of `id` it starts with.
    obtain ⟨nested, hf, hr⟩ := Relation.TransGen.head'_iff.1 hc
    obtain ⟨listed, hl, hn⟩ := hf
    rw [fd] at hl
    cases hl
    apply ih nested hn
    exact Relation.TransGen.tail' hr ⟨members, fd, hn⟩

theorem grounded_of_acyclic (ids : List ι) (his : ∀ id ∈ ids, ∃ members, registry id = some members)
    (hcl : ∀ id ∈ ids, ∀ nested, Contains registry id nested → nested ∈ ids)
    (ha : ∀ id ∈ ids, ¬ Relation.TransGen (Contains registry) id id) :
    ∀ id ∈ ids, Grounded registry id := by
  let below : {id // id ∈ ids} → {id // id ∈ ids} → Prop :=
    fun a b => Relation.TransGen (Contains registry) b.1 a.1
  have hi : Std.Irrefl below := ⟨fun a h => ha a.1 a.2 h⟩
  have hf : Finite {id // id ∈ ids} := finite_toSet ids
  have hwf := Finite.wellFounded_of_trans_of_irrefl below
  intro id hid
  suffices h : ∀ a : {id // id ∈ ids}, Grounded registry a.1 from h ⟨id, hid⟩
  intro a
  induction a using hwf.induction with
  | _ a ih =>
    obtain ⟨members, hm⟩ := his a.1 a.2
    refine .intro hm fun nested hn => ?_
    have hc : Contains registry a.1 nested := ⟨members, hm, hn⟩
    exact ih ⟨nested, hcl a.1 a.2 nested hc⟩ (.single hc)

theorem Grounded.congr (h : Grounded registry id)
    (hs : ∀ other, Relation.ReflTransGen (Contains registry) id other →
      ch other = registry other) : Grounded ch id := by
  induction h with
  | @intro id members fd _ ih =>
    refine .intro ((hs id .refl).trans fd) fun nested hn => ?_
    refine ih nested hn fun other hr => hs other ?_
    exact .head ⟨members, fd, hn⟩ hr

theorem Grounded.change (hid : Grounded ch id)
    (ho : ∀ other, other ≠ id → ch other = registry other) (h : Grounded registry other) :
    Grounded ch other := by
  induction h with
  | @intro other members fd _ ih =>
    by_cases heq : other = id
    · exact heq ▸ hid
    · exact .intro ((ho other heq).trans fd) ih

def Below (registry : Registry τ ι) (nested id : ι) : Prop :=
  Grounded registry id ∧ Contains registry id nested

theorem below_wellFounded : WellFounded (Below registry) := by
  refine ⟨fun id => ?_⟩
  by_cases h : Grounded registry id
  · induction h with
    | @intro id members fd _ ih =>
      refine ⟨_, fun nested ⟨_, listed, hl, hn⟩ => ?_⟩
      exact ih nested (Option.some.inj (fd.symm.trans hl) ▸ hn)
  · exact ⟨_, fun nested ⟨hg, _⟩ => absurd hg h⟩

def memberValue (leaf : τ → β) (members : List (τ ⊕ ι))
    (value : ∀ nested, .inr nested ∈ members → β) : ∀ member, member ∈ members → β
  | .inl target, _ => leaf target
  | .inr nested, h => value nested h

open Classical in
/-- The value of a collection, computed from those of its members. -/
noncomputable def eval (registry : Registry τ ι) (leaf : τ → β) (node : ι → List β → β)
    (missing : β) : ι → β :=
  below_wellFounded.fix fun id value =>
    if h : Grounded registry id then
      match hmembers : registry id with
      | none => missing
      | some members =>
        node id (members.pmap (memberValue leaf members fun nested hnested =>
          value nested ⟨h, members, hmembers, hnested⟩) fun _ hmember => hmember)
    else missing

variable {leaf : τ → β}

theorem eval_eq (h : Grounded registry id) (hm : registry id = some members) :
    eval registry leaf node missing id =
      node id (members.map (Sum.elim leaf (eval registry leaf node missing))) := by
  conv_lhs => rw [eval, WellFounded.fix_eq]
  rw [dif_pos h]
  split
  · next hn =>
    rw [hm] at hn
    cases hn
  · next listed hl =>
    cases hm.symm.trans hl
    apply congrArg _
    rw [← pmap_eq_map (p := fun m => m ∈ members) (fun _ hme => hme)]
    refine pmap_congr_left _ fun m _ hme _ => ?_
    cases m with
    | inl target => rfl
    | inr nested => rfl

def addAll [DecidableEq τ] (seen items : List τ) : List τ :=
  items.foldl (fun seen item => if item ∈ seen then seen else seen ++ [item]) seen

section

variable [DecidableEq τ] {seen is rest : List τ}

theorem addAll_append : addAll seen (is ++ rest) = addAll (addAll seen is) rest := foldl_append

theorem mem_addAll : it ∈ addAll seen is ↔ it ∈ seen ∨ it ∈ is := by
  induction is generalizing seen with
  | nil => simp [addAll]
  | cons first is ih =>
    rw [addAll, foldl_cons]
    apply ih.trans
    split
    · next hs =>
      rw [mem_cons]
      constructor
      · exact fun h => h.imp_right .inr
      · rintro (h | rfl | h)
        · exact .inl h
        · exact .inl hs
        · exact .inr h
    · rw [mem_append, mem_singleton, mem_cons, or_assoc]

theorem exists_addAll : ∃ new, addAll seen is = seen ++ new := by
  induction is generalizing seen with
  | nil => exact ⟨[], (append_nil _).symm⟩
  | cons first is ih =>
    rw [addAll, foldl_cons]
    split
    · exact ih
    · obtain ⟨new, hn⟩ := @ih (seen ++ [first])
      exact ⟨first :: new, hn.trans (append_assoc ..)⟩

theorem addAll_of_subset (h : is ⊆ seen) : addAll seen is = seen := by
  induction is with
  | nil => rfl
  | cons first is ih =>
    obtain ⟨hf, hr⟩ := cons_subset.1 h
    rw [addAll, foldl_cons, if_pos hf]
    exact ih hr

theorem nodup_addAll (h : seen.Nodup) : (addAll seen is).Nodup := by
  induction is generalizing seen with
  | nil => exact h
  | cons it is ih =>
    rw [addAll, foldl_cons]
    apply ih
    split
    · exact h
    · next hn => exact nodup_middle.2 (nodup_cons.2 ⟨by simpa using hn, by simpa using h⟩)

theorem addAll_filter (p : τ → Bool) :
    (addAll seen is).filter p = addAll (seen.filter p) (is.filter p) := by
  induction is generalizing seen with
  | nil => rfl
  | cons first is ih =>
    rw [← singleton_append, addAll_append, ih, singleton_append]
    by_cases hp : p first = true
    · rw [filter_cons_of_pos hp]
      by_cases hs : first ∈ seen
      · have hf : first ∈ seen.filter p := mem_filter.2 ⟨hs, hp⟩
        simp [addAll, hs, hf]
      · simp [addAll, hs, hp]
    · rw [filter_cons_of_neg hp]
      by_cases hs : first ∈ seen
      · simp [addAll, hs]
      · simp [addAll, hs, hp]

end

noncomputable def flatten (registry : Registry τ ι) : ι → List τ :=
  eval registry (fun target => [target]) (fun _ => List.flatten) []

theorem flatten_eq (h : Grounded registry id) (hm : registry id = some members) :
    flatten registry id = members.flatMap (Sum.elim (fun target => [target]) (flatten registry)) :=
  eval_eq h hm

/-- A leaf below a collection, reached through nested collections of one kind only. -/
inductive ReachedThrough (registry : Registry τ ι) (through : ι → Prop) : ι → τ → Prop
  | leaf {id : ι} {target : τ} {members : List (τ ⊕ ι)} (found : registry id = some members)
      (listed : .inl target ∈ members) : ReachedThrough registry through id target
  | nested {id nested : ι} {target : τ} {members : List (τ ⊕ ι)}
      (found : registry id = some members) (listed : .inr nested ∈ members)
      (passes : through nested) (below : ReachedThrough registry through nested target) :
      ReachedThrough registry through id target

theorem mem_flatten (h : Grounded registry id) :
    target ∈ flatten registry id ↔ ReachedThrough registry (fun _ => True) id target := by
  induction h with
  | @intro id members fd below ih =>
    rw [flatten_eq (.intro fd below) fd, mem_flatMap]
    constructor
    · rintro ⟨m, hm, ht⟩
      cases m with
      | inl leaf =>
        obtain rfl := mem_singleton.1 ht
        exact .leaf fd hm
      | inr nested => exact .nested fd hm trivial ((ih nested hm).1 ht)
    · intro hr
      cases hr with
      | leaf fd' listed =>
        cases fd.symm.trans fd'
        exact ⟨.inl target, listed, mem_singleton_self target⟩
      | @nested _ nested _ _ fd' listed _ hb =>
        cases fd.symm.trans fd'
        exact ⟨.inr nested, listed, (ih nested listed).2 hb⟩

theorem reachedThrough_iff : ReachedThrough registry (fun _ => True) id target ↔
      ∃ outer members, Relation.ReflTransGen (Contains registry) id outer ∧
        registry outer = some members ∧ .inl target ∈ members := by
  constructor
  · intro h
    induction h with
    | leaf fd listed => exact ⟨_, _, .refl, fd, listed⟩
    | nested fd listed _ _ ih =>
      obtain ⟨outer, members, hr, hm⟩ := ih
      exact ⟨outer, members, .head ⟨_, fd, listed⟩ hr, hm⟩
  · rintro ⟨outer, members, hr, fd, listed⟩
    induction hr using Relation.ReflTransGen.head_induction_on with
    | refl => exact .leaf fd listed
    | head hc _ ih =>
      obtain ⟨links, hl, hn⟩ := hc
      exact .nested hl hn trivial ih

theorem ReachedThrough.mono (h : ReachedThrough registry through id target)
    (hg : Grounded registry id) (hw : ∀ id, Grounded registry id → through id → wider id) :
    ReachedThrough registry wider id target := by
  induction h with
  | leaf fd listed => exact .leaf fd listed
  | nested fd listed passes _ ih =>
    have hn := hg.of_contains ⟨_, fd, listed⟩
    exact .nested fd listed (hw _ hn passes) (ih hn)

section

variable {ρ : Type u} {look : τ → Option ρ} {combine : ι → List (Option ρ) → Option ρ}

def Contributions (registry : Registry τ ι) (look : τ → Option ρ)
    (combine : ι → List (Option ρ) → Option ρ) (id : ι) : Set ρ :=
  {value | ∃ target, look target = some value ∧ ReachedThrough registry
    (fun nested => (eval registry look combine none nested).isSome = true) id target}

/-- A value that is least among the members' is least among all contributions. -/
theorem eval_least {measure : ρ → ℕ} (hc : ∀ id vs result, combine id vs = some result →
      IsLeast (measure '' {v | some v ∈ vs}) (measure result)) (h : Grounded registry id)
    (hre : eval registry look combine none id = some result) :
    IsLeast (measure '' Contributions registry look combine id) (measure result) := by
  induction h generalizing result with
  | @intro id members fd below ih =>
    rw [eval_eq (.intro fd below) fd] at hre
    obtain ⟨⟨attained, ha, heq⟩, hl⟩ := hc _ _ _ hre
    constructor
    · -- The member that attains the least measure is a leaf, or has a leaf that does.
      obtain ⟨m, hm, hv⟩ := mem_map.1 ha
      rw [← heq]
      cases m with
      | inl target => exact ⟨attained, ⟨target, hv, .leaf fd hm⟩, rfl⟩
      | inr nested =>
        obtain ⟨⟨v, ⟨target, hlo, hr⟩, hme⟩, _⟩ := ih nested hm hv
        have hk : (eval registry look combine none nested).isSome = true :=
          Option.isSome_iff_exists.2 ⟨attained, hv⟩
        exact ⟨v, ⟨target, hlo, .nested fd hm hk hr⟩, hme⟩
    · rintro _ ⟨v, ⟨target, hlo, hr⟩, rfl⟩
      cases hr with
      | leaf fd' listed =>
        cases fd.symm.trans fd'
        exact hl ⟨v, mem_map.2 ⟨.inl target, listed, hlo⟩, rfl⟩
      | @nested _ nested _ _ fd' listed passes hbe =>
        cases fd.symm.trans fd'
        obtain ⟨between, hb⟩ := Option.isSome_iff_exists.1 passes
        have hm := hl ⟨between, mem_map.2 ⟨.inr nested, listed, hb⟩, rfl⟩
        exact hm.trans ((ih nested listed hb).2 ⟨v, ⟨target, hlo, hbe⟩, rfl⟩)

end

/-- Related collections list the same leaves and related collections, in any order
and any number of times. -/
def Alike (left right : Registry τ ι) (related : ι → ι → Prop) : Prop :=
  ∀ a b, related a b → ∃ as bs, left a = some as ∧ right b = some bs ∧
    (∀ member ∈ as, ∃ other ∈ bs, Sum.LiftRel Eq related member other) ∧
    ∀ other ∈ bs, ∃ member ∈ as, Sum.LiftRel Eq related member other

theorem Alike.grounded (ha : Alike left right related) (h : Grounded left a)
    (hr : related a b) : Grounded right b := by
  induction h generalizing b with
  | @intro a as fd _ ih =>
    obtain ⟨listed, others, hl, ho, _, hb⟩ := ha a b hr
    cases fd.symm.trans hl
    refine .intro ho fun nested hn => ?_
    obtain ⟨m, hm, hli⟩ := hb (.inr nested) hn
    cases hli with
    | inr hn => exact ih _ hm hn

/-- The value depends on the set of members only. -/
theorem Alike.eval_eq (ha : Alike left right related)
    (hno : ∀ a b vs others, (∀ v, v ∈ vs ↔ v ∈ others) → node a vs = node b others)
    (h : Grounded left a) (hr : related a b) :
    eval left leaf node missing a = eval right leaf node missing b := by
  induction h generalizing b with
  | @intro a as fd below ih =>
    have hri : Grounded right b := ha.grounded (.intro fd below) hr
    obtain ⟨listed, others, hl, hot, hf, hb⟩ := ha a b hr
    cases fd.symm.trans hl
    rw [Membership.eval_eq (.intro fd below) fd, Membership.eval_eq hri hot]
    have hs : ∀ m other, m ∈ as → Sum.LiftRel Eq related m other →
        Sum.elim leaf (eval left leaf node missing) m =
          Sum.elim leaf (eval right leaf node missing) other := by
      intro m other hm hli
      cases hli with
      | inl heq => exact congrArg leaf heq
      | inr hn => exact ih _ hm hn
    refine hno a b _ _ fun v => ?_
    rw [mem_map, mem_map]
    constructor
    · rintro ⟨m, hm, rfl⟩
      obtain ⟨other, ho, hli⟩ := hf m hm
      exact ⟨other, ho, (hs m other hm hli).symm⟩
    · rintro ⟨other, ho, rfl⟩
      obtain ⟨m, hm, hli⟩ := hb other ho
      exact ⟨m, hm, hs m other hm hli⟩

section

variable (registry) (visible : τ → Bool) (empty : ι → Bool)

noncomputable def kept : ι → Bool :=
  eval registry visible (fun id values => values.any (·) || empty id) false

noncomputable def keeps : τ ⊕ ι → Bool := Sum.elim visible (kept registry visible empty)

/-- Only visible leaves, and only the collections in which something is left. -/
noncomputable def prune : Registry τ ι := fun id =>
  if kept registry visible empty id then
    (registry id).map (filter (keeps registry visible empty))
  else none

variable {registry visible empty}

theorem kept_eq (h : Grounded registry id) (hm : registry id = some members) :
    kept registry visible empty id = (members.any (keeps registry visible empty) || empty id) := by
  rw [kept, eval_eq h hm, any_map]
  rfl

theorem prune_eq (hm : registry id = some members) (hk : kept registry visible empty id = true) :
    prune registry visible empty id = some (members.filter (keeps registry visible empty)) := by
  rw [prune, if_pos hk, hm]
  rfl

theorem grounded_prune (h : Grounded registry id) (hke : kept registry visible empty id = true) :
    Grounded (prune registry visible empty) id := by
  induction h with
  | @intro id members fd _ ih =>
    refine .intro (prune_eq fd hke) fun nested hn => ?_
    obtain ⟨hm, hk⟩ := mem_filter.1 hn
    exact ih nested hm hk

theorem filter_flatMap_eq {α γ : Type*} (p : α → Bool) (f : α → List γ) (its : List α) :
    (its.filter p).flatMap f = its.flatMap fun it => if p it then f it else [] := by
  induction its with
  | nil => rfl
  | cons it its ih =>
    by_cases h : p it = true
    · simp [h, ih]
    · simp [h, ih]

variable (empty) in
/-- Pruning what is invisible leaves the visible leaves in order. -/
theorem flatten_filter (h : Grounded registry id) : (flatten registry id).filter visible =
      if kept registry visible empty id then flatten (prune registry visible empty) id else [] := by
  induction h with
  | @intro id members fd below ih =>
    have hg : Grounded registry id := .intro fd below
    have hm : ∀ m ∈ members,
        (Sum.elim (fun target => [target]) (flatten registry) m).filter visible =
          if keeps registry visible empty m then
            Sum.elim (fun target => [target]) (flatten (prune registry visible empty)) m
          else [] := by
      rintro (target | nested) hm
      · exact filter_cons
      · exact ih nested hm
    rw [flatten_eq hg fd, filter_flatMap]
    split
    · next hke =>
      rw [flatten_eq (grounded_prune hg hke) (prune_eq fd hke), filter_flatMap_eq]
      exact flatMap_congr hm
    · next hd =>
      rw [kept_eq hg fd, Bool.or_eq_true, not_or] at hd
      refine flatMap_eq_nil_iff.2 fun m hme => ?_
      have hh : ¬ keeps registry visible empty m = true :=
        fun hk => hd.1 (any_eq_true.2 ⟨m, hme, hk⟩)
      rw [hm m hme, if_neg hh]

end

def nestedIn (registry : Registry τ ι) (id : ι) : List ι :=
  ((registry id).getD []).filterMap Sum.getRight?

/-- The collections that a walk which remembers nothing expands, in order. -/
noncomputable def expansions (registry : Registry τ ι) : ι → List ι :=
  eval registry (fun _ => []) (fun id below => id :: below.flatten) []

theorem mem_nestedIn : nested ∈ nestedIn registry id ↔ Contains registry id nested := by
  cases h : registry id with
  | none => simp [nestedIn, Contains, h]
  | some members => simp [nestedIn, Contains, h, mem_filterMap, Sum.getRight?_eq_some_iff]

theorem flatten_map_elim (f : ι → List ι) : (members.map (Sum.elim (fun _ => []) f)).flatten =
      (members.filterMap Sum.getRight?).flatMap f := by
  induction members with
  | nil => rfl
  | cons m ms ih => cases m <;> simp [filterMap_cons, ih]

section

variable (h : Grounded registry id)

include h

theorem expansions_eq :
    expansions registry id = id :: (nestedIn registry id).flatMap (expansions registry) := by
  obtain ⟨members, hm⟩ := h.exists_members
  rw [expansions, eval_eq h hm, nestedIn, hm]
  exact congrArg _ (flatten_map_elim _)

theorem Grounded.rec_nested {motive : ι → Prop} (step : ∀ id, Grounded registry id →
      (∀ nested ∈ nestedIn registry id, motive nested) → motive id) : motive id := by
  induction h with
  | @intro id members fd below ih =>
    refine step id (.intro fd below) fun nested hn => ?_
    obtain ⟨listed, hl, hm⟩ := mem_nestedIn.1 hn
    cases fd.symm.trans hl
    exact ih nested hm

theorem reaches_of_mem_expansions (hm : nested ∈ expansions registry id) :
    Relation.ReflTransGen (Contains registry) id nested := by
  revert nested
  refine h.rec_nested (motive := fun id => ∀ {nested}, nested ∈ expansions registry id →
    Relation.ReflTransGen (Contains registry) id nested) fun id hg ih nested hm => ?_
  rw [expansions_eq hg, mem_cons, mem_flatMap] at hm
  rcases hm with rfl | ⟨m, hm, hn⟩
  · exact .refl
  · exact .head (mem_nestedIn.1 hm) (ih m hm hn)

/-- Every expansion but the first is due to a member of an expanded collection. -/
theorem length_expansions : (expansions registry id).length =
    1 + ((expansions registry id).map fun id => (nestedIn registry id).length).sum := by
  refine h.rec_nested (motive := fun id => (expansions registry id).length =
    1 + ((expansions registry id).map fun id => (nestedIn registry id).length).sum) ?_
  intro id hg ih
  have hs : ∀ ids ⊆ nestedIn registry id, (ids.flatMap (expansions registry)).length =
      ids.length +
        ((ids.flatMap (expansions registry)).map fun id => (nestedIn registry id).length).sum := by
    intro ids hi
    induction ids with
    | nil => rfl
    | cons m ms hms =>
      obtain ⟨hm, hr⟩ := cons_subset.1 hi
      simp only [flatMap_cons, length_append, map_append, sum_append, length_cons]
      rw [ih m hm, hms hr]
      omega
  rw [expansions_eq hg, length_cons, map_cons, sum_cons, hs _ (Subset.refl _)]
  omega

end

section

variable (hp : ∀ a b id, Contains registry a id → Contains registry b id →
  nestedIn registry id ≠ [] → a = b)

/-- Going up from one collection that nests others to what it is nested in. -/
def Up (registry : Registry τ ι) (id outer : ι) : Prop :=
  Contains registry outer id ∧ nestedIn registry id ≠ []

theorem nestedIn_ne_nil (h : Relation.ReflTransGen (Contains registry) id nested)
    (hn : nestedIn registry nested ≠ []) : nestedIn registry id ≠ [] := by
  rcases h.cases_head with rfl | ⟨c, hc, -⟩
  · exact hn
  · exact ne_nil_of_mem (mem_nestedIn.2 hc)

theorem up_of_reaches (h : Relation.ReflTransGen (Contains registry) id nested)
    (hn : nestedIn registry nested ≠ []) : Relation.ReflTransGen (Up registry) nested id := by
  induction h using Relation.ReflTransGen.head_induction_on with
  | refl => exact .refl
  | head hc hr ih =>
    exact ih.tail ⟨hc, nestedIn_ne_nil hr hn⟩

include hp

theorem not_up_sibling (hg : Grounded registry id) (ha : Contains registry id a)
    (hb : Contains registry id b) (hne : a ≠ b) : ¬ Relation.ReflTransGen (Up registry) a b := by
  intro h
  obtain ⟨c, hac, hcb⟩ := h.cases_head.resolve_left hne
  have hid : c = id := hp c id a hac.1 ha hac.2
  subst hid
  apply hg.not_reaches_self
  refine .head' hb (Relation.reflTransGen_swap.1 ?_)
  exact Relation.ReflTransGen.mono (fun _ _ (hu : Up registry _ _) => hu.1) c b hcb

/-- Where a collection that nests others is nested only once, it is expanded only once. -/
theorem nodup_expansions [DecidableEq ι] (ho : ∀ a id, nestedIn registry id ≠ [] →
      (nestedIn registry a).count id ≤ 1) (h : Grounded registry id) :
    ((expansions registry id).filter (nestedIn registry · ≠ [])).Nodup := by
  refine h.rec_nested (motive := fun id =>
    ((expansions registry id).filter (nestedIn registry · ≠ [])).Nodup) fun id hg ih => ?_
  by_cases hn : nestedIn registry id = []
  · simp [expansions_eq hg, hn]
  rw [expansions_eq hg, filter_cons_of_pos (by simpa using hn), nodup_cons, filter_flatMap,
    nodup_flatMap]
  refine ⟨fun hm => ?_, ih, pairwise_iff_forall_sublist.2 fun {a b} hs c hca hcb => ?_⟩
  · obtain ⟨m, hm, hmi⟩ := mem_flatMap.1 hm
    have hc := mem_nestedIn.1 hm
    have hr := reaches_of_mem_expansions (hg.of_contains hc) (mem_of_mem_filter hmi)
    exact hg.not_reaches_self (.head' hc hr)
  · obtain ⟨ha, hb⟩ : Contains registry id a ∧ Contains registry id b := by
      simpa [mem_nestedIn] using hs.subset
    have hc : nestedIn registry c ≠ [] := by simpa using (mem_filter.1 hca).2
    have hra := reaches_of_mem_expansions (hg.of_contains ha) (mem_of_mem_filter hca)
    have hrb := reaches_of_mem_expansions (hg.of_contains hb) (mem_of_mem_filter hcb)
    by_cases hab : a = b
    · subst hab
      have htw : 2 ≤ (nestedIn registry id).count a := replicate_sublist_iff.1 hs
      exact absurd (ho id a (nestedIn_ne_nil hra hc)) (by omega)
    · have hu : Relator.RightUnique (Up registry) := fun x y z hy hz => hp y z x hy.1 hz.1 hy.2
      rcases Relation.ReflTransGen.total_of_right_unique hu (up_of_reaches hra hc)
        (up_of_reaches hrb hc) with h | h
      · exact not_up_sibling hp hg ha hb hab h
      · exact not_up_sibling hp hg hb ha (Ne.symm hab) h

end

end Membership
