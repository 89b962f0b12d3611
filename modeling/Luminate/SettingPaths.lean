import Luminate.PluginSettings

/-! # Settings by their paths

What a nested table holds at the end of a path, and how inserting, clearing, flattening and
nesting settings look from there. -/
namespace SettingPaths

open Checks PluginSettings Segments List

variable {F : Type}

section

variable {tb : Table F} {key : String}

theorem get_insert : (tb.insert key v).get o = if key = o then some v else tb.get o := by
  fun_induction Table.insert key v tb with
  | case1 => rfl
  | case2 old rest =>
    simp only [Table.get]
    split <;> rfl
  | case3 k old rest hne hlt => rfl
  | case4 k old rest hne hlt ih =>
    simp only [Table.get]
    split
    · next hk =>
      subst hk
      rw [if_neg (Ne.symm hne)]
    · exact ih

theorem get_eq_none (h : key ∉ tb.keys) : tb.get key = none := by
  fun_induction Table.get key tb with
  | case1 => rfl
  | case2 first rest => exact absurd mem_cons_self h
  | case3 k first rest hk ih => exact ih fun hm => h (mem_cons_of_mem _ hm)

theorem not_mem_keys (h : (Table.cons key v rest).WellFormed) : key ∉ rest.keys := by
  intro hm
  exact lt_irrefl key (Table.all_key.1 h.2.1 key hm)

theorem get_remove (h : tb.WellFormed) : (tb.remove key).get o =
    if key = o then none else tb.get o := by
  fun_induction Table.remove key tb with
  | case1 => simp [Table.get]
  | case2 first rest =>
    split
    · next ho =>
      subst ho
      exact get_eq_none (not_mem_keys h)
    · next ho => rw [Table.get, if_neg ho]
  | case3 k first rest hne ih =>
    simp only [Table.get]
    rw [ih h.2.2.2]
    split
    · next hk =>
      subst hk
      rw [if_neg (Ne.symm hne)]
    · rfl

theorem remove_wellFormed (h : tb.WellFormed) : (tb.remove key).WellFormed := by
  fun_induction Table.remove key tb with
  | case1 => exact h
  | case2 first rest => exact h.2.2.2
  | case3 k first rest hne ih => exact ⟨h.1, h.2.1.remove key, h.2.2.1, ih h.2.2.2⟩

end

/-- The value at the end of a path, if there is one and it is not a table. -/
def leaf : List String → Table F → Option (Value F)
  | [], _ => none
  | part :: parts, table =>
    match table.get part with
    | some (.table nested) => leaf parts nested
    | some value => if parts.isEmpty then some value else none
    | none => none

@[simp] theorem leaf_nil (path : List String) : leaf path (Table.nil : Table F) = none := by
  cases path <;> rfl

theorem leaf_congr (h : tb.get part = other.get part) :
    leaf (part :: parts) tb = leaf (part :: parts) other := by
  rw [leaf, leaf, h]

theorem leaf_of_table (h : tb.get part = some (.table n)) :
    leaf (part :: parts) tb = leaf parts n := by
  rw [leaf, h]

theorem leaf_of_none (h : tb.get part = none) : leaf (part :: parts) tb = none := by
  rw [leaf, h]

theorem leaf_of_value (h : tb.get part = some val) (hv : isTable val = false) :
    leaf (part :: parts) tb = if parts.isEmpty then some val else none := by
  rw [leaf, h]
  cases val with
  | table entries => cases hv
  | string | integer | float | boolean | datetime | array => rfl

theorem leaf_of_nestedTable (h : nestedTable name (tb.get part) = .ok n) :
    leaf (part :: parts) tb = leaf parts n := by
  unfold nestedTable at h
  split at h
  · next hn =>
    cases h
    rw [leaf_of_none hn, leaf_nil]
  · next hs =>
    cases h
    exact leaf_of_table hs
  · cases h

theorem insertParts_leaf {next : Table F} (hv : isTable val = false)
    (h : insertParts key val parts tb = .ok next) :
    leaf path next = some fd ↔ (path = parts ∧ val = fd) ∨ leaf path tb = some fd := by
  fun_induction insertParts key val parts tb generalizing next path with
  | case1 => cases h
  | case2 part tb =>
    obtain ⟨hfr, h⟩ := then_ok_iff.1 h
    cases h
    have hno : tb.get part = none := Option.isNone_iff_eq_none.1 (ensure_ok_iff.1 hfr)
    cases path with
    | nil => simp [leaf]
    | cons first others =>
      by_cases hf : part = first
      · subst hf
        have hg : (tb.insert part val).get part = some val := by rw [get_insert, if_pos rfl]
        rw [leaf_of_value hg hv, leaf_of_none hno]
        cases others <;> simp
      · have hg : (tb.insert part val).get first = tb.get first := by rw [get_insert, if_neg hf]
        rw [leaf_congr hg]
        simp [Ne.symm hf]
  | case3 part parts tb hp ih =>
    obtain ⟨n, hn, h⟩ := bind_ok_iff.1 h
    obtain ⟨inner, hi, h⟩ := bind_ok_iff.1 h
    cases h
    cases path with
    | nil => simp [leaf]
    | cons first others =>
      by_cases hf : part = first
      · subst hf
        have hg : (tb.insert part (.table inner)).get part = some (.table inner) := by
          rw [get_insert, if_pos rfl]
        rw [leaf_of_table hg, leaf_of_nestedTable hn, ih n hi]
        simp
      · have hg : (tb.insert part (.table inner)).get first = tb.get first := by
          rw [get_insert, if_neg hf]
        rw [leaf_congr hg]
        simp [Ne.symm hf]

theorem leaf_remove (ht : tb.WellFormed) (head : String) : leaf (first :: others) (tb.remove head) =
      if head = first then none else leaf (first :: others) tb := by
  have hg : (tb.remove head).get first = if head = first then none else tb.get first :=
    get_remove ht
  split
  · next hf => exact leaf_of_none (hg.trans (if_pos hf))
  · next hf => exact leaf_congr (hg.trans (if_neg hf))

theorem clearParts_leaf (ht : tb.WellFormed) (hp : parts ≠ []) :
    leaf path (clearParts parts tb) = if parts <+: path then none else leaf path tb := by
  fun_induction clearParts parts tb generalizing path with
  | case1 => exact absurd rfl hp
  | case2 head tb =>
    cases path with
    | nil => simp [leaf]
    | cons first others =>
      rw [leaf_remove ht]
      simp
  | case3 head tail tb hta child hc he ih =>
    -- The child is left without settings: nothing of it was outside the cleared path.
    have hcl : clearParts tail child = .nil := by
      cases hn : clearParts tail child with
      | nil => rfl
      | cons k v rest => simp [hn, Table.isEmpty] at he
    cases path with
    | nil => simp [leaf]
    | cons first others =>
      rw [leaf_remove ht]
      by_cases hf : head = first
      · subst hf
        have hi : leaf others (clearParts tail child) =
            if tail <+: others then none else leaf others child := ih (ht.get hc) hta
        rw [hcl] at hi
        rw [if_pos rfl, leaf_of_table hc]
        simpa using hi
      · simp [hf]
  | case4 head tail tb hta child hc he ih =>
    cases path with
    | nil => simp [leaf]
    | cons first others =>
      by_cases hf : head = first
      · subst hf
        have hg : (tb.insert head (.table (clearParts tail child))).get head =
            some (.table (clearParts tail child)) := by rw [get_insert, if_pos rfl]
        rw [leaf_of_table hg, leaf_of_table hc, ih (ht.get hc) hta]
        simp
      · have hg : (tb.insert head (.table (clearParts tail child))).get first =
            tb.get first := by rw [get_insert, if_neg hf]
        rw [leaf_congr hg]
        simp [hf]
  | case5 head tail tb hta hot =>
    cases path with
    | nil => simp [leaf]
    | cons first others =>
      split
      · next hw =>
        obtain ⟨rfl, ht'⟩ := cons_prefix_cons.1 hw
        have ho : others ≠ [] := fun hn => hta (prefix_nil.1 (hn ▸ ht'))
        cases hg : tb.get head with
        | none => exact leaf_of_none hg
        | some val =>
          have hv : isTable val = false := by
            cases val with
            | table child => exact absurd hg (hot child)
            | string | integer | float | boolean | datetime | array => rfl
          rw [leaf_of_value hg hv]
          simp [ho]
      · rfl

theorem clearParts_wellFormed (ht : tb.WellFormed) (hd : ∀ part ∈ parts, '.' ∉ part.toList) :
    (clearParts parts tb).WellFormed := by
  fun_induction clearParts parts tb with
  | case1 => exact ht
  | case2 => exact remove_wellFormed ht
  | case3 => exact remove_wellFormed ht
  | case4 head tail tb hta child hc he ih =>
    obtain ⟨hh, ht'⟩ := forall_mem_cons.1 hd
    exact ht.insert hh (ih (ht.get hc) ht')
  | case5 => exact ht

theorem leaf_cons (h : (Table.cons key val rest).WellFormed) :
    leaf path (.cons key val rest) = some fd ↔
      (∃ parts, path = key :: parts ∧ leaf (key :: parts) (.cons key val .nil) = some fd) ∨
        leaf path rest = some fd := by
  cases path with
  | nil => simp [leaf]
  | cons first others =>
    by_cases hf : key = first
    · subst hf
      have hr : leaf (key :: others) rest = none := leaf_of_none (get_eq_none (not_mem_keys h))
      have hg : (Table.cons key val rest).get key = (Table.cons key val .nil).get key := by
        simp [Table.get]
      rw [leaf_congr hg, hr]
      simp
    · have hg : (Table.cons key val rest).get first = rest.get first := by rw [Table.get, if_neg hf]
      rw [leaf_congr hg]
      simp [Ne.symm hf]

section

variable {tb next : Table F} {name : String} {fd : Value F}

def pathParts : Option String → List String
  | none => []
  | some path => keyParts path

theorem keyParts_dotted (hk : '.' ∉ key.toList) :
    keyParts (dotted path key) = pathParts path ++ [key] := by
  cases path with
  | none => exact segments_of_not_mem hk
  | some path =>
    have hj : segments '.' (path ++ "." ++ key) = segments '.' path ++ segments '.' key :=
      segments_join (by simp)
    rw [segments_of_not_mem hk] at hj
    exact hj

theorem keyParts_inj : keyParts key = keyParts name ↔ key = name := segments_inj

theorem exists_leaf_cons (h : (Table.cons key v rest).WellFormed) :
    (∃ tail, whole = parts ++ tail ∧ leaf tail (.cons key v rest) = some fd) ↔
      (∃ tail, whole = parts ++ tail ∧ leaf tail rest = some fd) ∨
        ∃ tail, whole = parts ++ [key] ++ tail ∧
          leaf (key :: tail) (.cons key v .nil) = some fd := by
  constructor
  · rintro ⟨tail, hw, hl⟩
    rcases (leaf_cons h).1 hl with ⟨inner, rfl, hi⟩ | hr
    · exact .inr ⟨inner, by rw [hw]; simp, hi⟩
    · exact .inl ⟨tail, hw, hr⟩
  · rintro (⟨tail, hw, hr⟩ | ⟨inner, hw, hi⟩)
    · exact ⟨tail, hw, (leaf_cons h).2 (.inr hr)⟩
    · exact ⟨key :: inner, by rw [hw]; simp, (leaf_cons h).2 (.inl ⟨inner, rfl, hi⟩)⟩

theorem flattenSettings_leaf (ht : tb.WellFormed) (h : flattenSettings path tb flat = .ok vs) :
    vs[name]? = some fd ↔
      (∃ parts, keyParts name = pathParts path ++ parts ∧ leaf parts tb = some fd) ∨
        flat[name]? = some fd := by
  fun_induction flattenSettings path tb flat generalizing vs with
  | case1 =>
    cases h
    simp
  | case2 path key ns rest flat ihnested ihrest =>
    obtain ⟨between, hb, h⟩ := bind_ok_iff.1 h
    have hn : ∀ tail, leaf (key :: tail) (.cons key (.table ns) .nil) = leaf tail ns :=
      fun tail => leaf_of_table (by simp [Table.get])
    rw [ihrest between ht.2.2.2 h, ihnested ht.2.2.1 hb, exists_leaf_cons ht, or_assoc]
    simp only [pathParts, keyParts_dotted ht.1, hn]
  | case3 path key v rest flat hv ih =>
    obtain ⟨hnw, h⟩ := then_ok_iff.1 h
    have hs : isTable v = false := by
      cases v with
      | table ns => exact absurd rfl (hv ns)
      | string | integer | float | boolean | datetime | array => rfl
    have hl : ∀ tail, leaf (key :: tail) (.cons key v .nil) =
        if tail.isEmpty then some v else none := fun tail => leaf_of_value (by simp [Table.get]) hs
    have hh : (∃ tail, keyParts name = pathParts path ++ [key] ++ tail ∧
        leaf (key :: tail) (.cons key v .nil) = some fd) ↔ dotted path key = name ∧ v = fd := by
      simp only [hl, ← keyParts_dotted ht.1]
      constructor
      · rintro ⟨tail, hna, hf⟩
        obtain ⟨he, hf⟩ := Option.ite_none_right_eq_some.1 hf
        obtain rfl := isEmpty_iff.1 he
        rw [append_nil] at hna
        exact ⟨(keyParts_inj.1 hna).symm, Option.some.inj hf⟩
      · rintro ⟨rfl, rfl⟩
        exact ⟨[], (append_nil _).symm, rfl⟩
    rw [ih ht.2.2.2 h, exists_leaf_cons ht, hh, or_assoc, Std.ExtTreeMap.getElem?_insert]
    apply or_congr_right
    split
    · next hsa =>
      obtain rfl := compare_eq_iff_eq.1 hsa
      have hc : flat.contains (dotted path key) = false := by simpa using ensure_ok_iff.1 hnw
      have hfr : flat[dotted path key]? = none := by
        rw [Std.ExtTreeMap.getElem?_eq_none_of_contains_eq_false hc]
      simp [hfr]
    · next ho =>
      have hne : ¬ dotted path key = name := fun hsa => ho (compare_eq_iff_eq.2 hsa)
      simp [hne]

theorem flattenSettings_getElem? (ht : tb.WellFormed) (h : flattenSettings none tb ∅ = .ok vs)
    (name : String) : vs[name]? = leaf (keyParts name) tb := by
  ext fd
  rw [flattenSettings_leaf ht h]
  simp [pathParts]

theorem flattenSettings_of_wellFormed (ht : tb.WellFormed) :
    ∃ vs, flattenSettings none tb ∅ = .ok vs ∧
      ∀ name : String, vs[name]? = leaf (keyParts name) tb := by
  have hf : ∃ flat, flattenSettings none tb ∅ = .ok flat ∧ _ := flattenSettings_ok ht (by simp)
  obtain ⟨vs, hv, -⟩ := hf
  exact ⟨vs, hv, flattenSettings_getElem? ht hv⟩

theorem nestSettings_wellFormed (he : ∀ entry ∈ entries, isTable entry.2 = false)
    (ht : tb.WellFormed) (h : nestSettings entries tb = .ok next) : next.WellFormed := by
  induction entries generalizing tb with
  | nil =>
    cases h
    exact ht
  | cons entry rest ih =>
    obtain ⟨hf, hr⟩ := forall_mem_cons.1 he
    obtain ⟨between, hb, h⟩ := bind_ok_iff.1 h
    have hv := wellFormed_of_not_table hf
    exact ih hr (insertParts_wellFormed ht hv keyParts_dotFree hb) h

theorem nestSettings_leaf (he : ∀ entry ∈ entries, isTable entry.2 = false)
    (h : nestSettings entries tb = .ok next) : leaf (keyParts name) next = some fd ↔
      (name, fd) ∈ entries ∨ leaf (keyParts name) tb = some fd := by
  induction entries generalizing tb with
  | nil =>
    cases h
    simp
  | cons entry rest ih =>
    obtain ⟨hf, hr⟩ := forall_mem_cons.1 he
    obtain ⟨between, hb, h⟩ := bind_ok_iff.1 h
    have hen : name = entry.1 ∧ entry.2 = fd ↔ (name, fd) = entry := by
      rw [Prod.ext_iff]
      exact and_congr_right fun _ => eq_comm
    rw [ih hr h, insertParts_leaf hf hb, keyParts_inj, mem_cons, hen, or_left_comm, or_assoc]

end

end SettingPaths
