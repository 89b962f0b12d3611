import Mathlib.Data.List.Perm.Subperm
import Mathlib.Data.Nat.Basic
import Mathlib.Order.Basic

/-! # One-use stores

Items are issued under a key into a store of limited size and taken out of it when a user
is accepted. The log of issues and acceptances, newest first, is kept beside the store. -/
namespace OneUse

open Std.ExtTreeMap Std

section

variable {κ δ : Type} {cmp : κ → κ → Ordering} [TransCmp cmp] {m m' : ExtTreeMap κ δ cmp}
  {k : κ} {d : δ} {e : κ × δ}

theorem values_eq : m.values = m.toList.map (·.2) := by
  obtain ⟨⟨q⟩⟩ := m
  induction q using Quotient.ind with
  | _ t =>
    change t.inner.values = (DTreeMap.Internal.Impl.Const.toList t.inner).map (·.2)
    rw [DTreeMap.Internal.Impl.values_eq_map_snd,
      DTreeMap.Internal.Impl.Const.toList_eq_toListModel_map]
    simp

theorem mem_filter (h : e ∈ (m.filter p).toList) : e ∈ m.toList := by
  rw [toList_filter] at h
  exact (List.mem_filter.1 h).1

variable [LawfulEqCmp cmp]

theorem nodup_toList : m.toList.Nodup := ExtTreeMap.distinct_keys_toList.imp
  fun {e e'} hne (heq : e = e') => hne (heq ▸ ReflCmp.compare_self)

theorem countP_le (new : List (κ × δ)) (p : δ → Bool)
    (h : ∀ e ∈ m'.toList, e ∈ new ∨ e ∈ m.toList) :
    m'.values.countP p ≤ new.countP (fun e => p e.2) + m.values.countP p := by
  have hs : m'.toList ⊆ new ++ m.toList := fun e he => List.mem_append.2 (h e he)
  rw [values_eq, values_eq, List.countP_map, List.countP_map]
  exact ((nodup_toList.subperm hs).countP_le _).trans (List.countP_append ..).le

theorem mem_erase (h : e ∈ (m.erase k).toList) : k ≠ e.1 ∧ e ∈ m.toList := by
  rw [mem_toList_iff_getElem?_eq_some, getElem?_erase] at h
  split at h
  · cases h
  · next hne =>
    refine ⟨fun heq => hne (heq ▸ ReflCmp.compare_self), ?_⟩
    exact mem_toList_iff_getElem?_eq_some.2 h

theorem mem_insert (h : e ∈ (m.insert k d).toList) : e = (k, d) ∨ k ≠ e.1 ∧ e ∈ m.toList := by
  rw [mem_toList_iff_getElem?_eq_some, getElem?_insert] at h
  split at h
  · next heq => exact .inl (Prod.ext (LawfulEqCmp.eq_of_compare heq).symm (Option.some.inj h).symm)
  · next hne =>
    refine .inr ⟨fun heq => hne (heq ▸ ReflCmp.compare_self), ?_⟩
    exact mem_toList_iff_getElem?_eq_some.2 h

theorem insert_perm : (m.insert k d).toList.Perm ((k, d) :: (m.erase k).toList) := by
  have hk : (k, d) ∉ (m.erase k).toList := fun h => (mem_erase h).1 rfl
  rw [List.perm_ext_iff_of_nodup nodup_toList (List.nodup_cons.2 ⟨hk, nodup_toList⟩)]
  intro e
  rw [List.mem_cons, mem_toList_iff_getElem?_eq_some,
    mem_toList_iff_getElem?_eq_some, getElem?_insert, getElem?_erase]
  split
  · next h => simp [Prod.ext_iff, LawfulEqCmp.eq_of_compare h, eq_comm]
  · next h =>
    have hne : e ≠ (k, d) := fun he => h (he ▸ ReflCmp.compare_self)
    simp [hne]

theorem erase_of_none (h : m[k]? = none) : m.erase k = m := by
  refine ext_getElem? fun j => ?_
  rw [getElem?_erase]
  split
  · next hj => rw [← LawfulEqCmp.eq_of_compare hj, h]
  · rfl

theorem insert_of_some (h : m[k]? = some d) : m.insert k d = m := by
  refine ext_getElem? fun j => ?_
  rw [getElem?_insert]
  split
  · next hj => rw [← LawfulEqCmp.eq_of_compare hj, h]
  · rfl

end

inductive Event (κ δ υ : Type) where
  | issued (key : κ) (item : δ)
  | accepted (key : κ) (user : υ)

variable {κ δ υ ω : Type} [DecidableEq κ] [DecidableEq ω]

/-- The item that was issued under the key and has not been used. -/
def live : List (Event κ δ υ) → κ → Option δ
  | [], _ => none
  | .issued k d :: log, key => if k = key then some d else live log key
  | .accepted k _ :: log, key => if k = key then none else live log key

def issues (log : List (Event κ δ υ)) (key : κ) : ℕ :=
  log.countP fun | .issued k _ => k = key | .accepted _ _ => false

def accepts (log : List (Event κ δ υ)) (key : κ) : ℕ :=
  log.countP fun | .accepted k _ => k = key | .issued _ _ => false

def Sound (admits : δ → υ → Prop) : List (Event κ δ υ) → Prop
  | [] => True
  | .issued _ _ :: log => Sound admits log
  | .accepted k u :: log => (∃ d, live log k = some d ∧ admits d u) ∧ Sound admits log

/-- Every acceptance uses up an item that admits the user: one issued before it under the
same key, with no other acceptance of the key in between. -/
structure UsedOnce (admits : δ → υ → Prop) (log : List (Event κ δ υ)) : Prop where
  once : ∀ key, accepts log key ≤ issues log key
  admitted : ∀ later key user before, log = later ++ .accepted key user :: before →
    ∃ unused item older, before = unused ++ .issued key item :: older ∧ admits item user ∧
      ∀ u, .accepted key u ∉ unused

variable {admits : δ → υ → Prop} {log : List (Event κ δ υ)} {k : κ} {d : δ} {u : υ}

theorem issued_of_live (h : live log k = some d) : ∃ unused older,
    log = unused ++ .issued k d :: older ∧ ∀ u, .accepted k u ∉ unused := by
  induction log with
  | nil => cases h
  | cons e log ih =>
    cases e with
    | issued k' d' =>
      by_cases hk : k' = k
      · simp only [live, hk, if_true] at h
        cases h
        exact ⟨[], log, by rw [hk]; rfl, by simp⟩
      · simp only [live, hk, if_false] at h
        obtain ⟨unused, older, rfl, hu⟩ := ih h
        exact ⟨.issued k' d' :: unused, older, rfl, by simpa using hu⟩
    | accepted k' u' =>
      by_cases hk : k' = k
      · simp [live, hk] at h
      · simp only [live, hk, if_false] at h
        obtain ⟨unused, older, rfl, hu⟩ := ih h
        refine ⟨.accepted k' u' :: unused, older, rfl, fun u hm => ?_⟩
        rcases List.mem_cons.1 hm with heq | hm
        · exact hk (Event.accepted.inj heq).1.symm
        · exact hu u hm

theorem accepts_le (h : Sound admits log) :
    accepts log k + (live log k).toList.length ≤ issues log k := by
  induction log with
  | nil => simp [accepts, issues, live]
  | cons e log ih =>
    cases e with
    | issued k' d =>
      have := ih h
      by_cases hk : k' = k <;> simp_all [accepts, issues, live]
      omega
    | accepted k' u =>
      have := ih h.2
      obtain ⟨d, hd, -⟩ := h.1
      by_cases hk : k' = k <;> simp_all [accepts, issues, live]

theorem Sound.usedOnce (h : Sound admits log) : UsedOnce admits log where
  once k := Nat.le_of_add_right_le (accepts_le h)
  admitted := by
    rintro later k u pre rfl
    induction later with
    | nil =>
      obtain ⟨d, hl, hd⟩ := h.1
      obtain ⟨unused, older, hb, hu⟩ := issued_of_live hl
      exact ⟨unused, d, older, hb, hd, hu⟩
    | cons e later ih =>
      cases e with
      | issued => exact ih h
      | accepted => exact ih h.2

section

variable {cmp : κ → κ → Ordering} [TransCmp cmp]
  {m m' : ExtTreeMap κ δ cmp} {total share : ℕ} {owner : δ → ω}

/-- The store holds at most `total` items, `share` of each owner, and none that is used. -/
structure Kept (total share : ℕ) (owner : δ → ω) (admits : δ → υ → Prop)
    (m : ExtTreeMap κ δ cmp) (log : List (Event κ δ υ)) : Prop where
  size : m.size ≤ total
  shares : ∀ w, m.values.countP (owner · == w) ≤ share
  unused : ∀ e ∈ m.toList, live log e.1 = some e.2
  sound : Sound admits log

theorem Kept.empty :
    Kept total share owner admits (∅ : ExtTreeMap κ δ cmp) ([] : List (Event κ δ υ)) := by
  have hn : (∅ : ExtTreeMap κ δ cmp).toList = [] := toList_eq_nil_iff.2 rfl
  refine ⟨?_, fun w => ?_, ?_, trivial⟩
  · exact Nat.zero_le _
  · exact Nat.zero_le _
  · exact fun e he => absurd he List.not_mem_nil

variable [LawfulEqCmp cmp]

section

variable (h : Kept total share owner admits m log)

include h

theorem Kept.drop (hs : m'.size ≤ m.size)
    (hm : ∀ e ∈ m'.toList, e ∈ m.toList) : Kept total share owner admits m' log where
  size := hs.trans h.size
  shares w := by
    have hle := countP_le [] (owner · == w) fun e he => .inr (hm e he)
    rw [List.countP_nil, Nat.zero_add] at hle
    exact hle.trans (h.shares w)
  unused e he := h.unused e (hm e he)
  sound := h.sound

theorem Kept.retain (p : κ → δ → Bool) : Kept total share owner admits (m.filter p) log :=
  h.drop size_filter_le_size fun _ => mem_filter

theorem Kept.erase (k : κ) : Kept total share owner admits (m.erase k) log :=
  h.drop size_erase_le fun _ he => (mem_erase he).2

theorem Kept.issue (hs : m.size < total) (ho : m.values.countP (owner · == owner d) < share) :
    Kept total share owner admits (m.insert k d) (.issued k d :: log) where
  size := Nat.le_trans size_insert_le hs
  shares w := by
    have hle := countP_le [(k, d)] (owner · == w) fun e (he : e ∈ (m.insert k d).toList) =>
      (mem_insert he).imp List.mem_singleton.2 And.right
    by_cases hw : owner d = w
    · subst hw
      rw [List.countP_singleton, if_pos (beq_self_eq_true _)] at hle
      omega
    · rw [List.countP_singleton, if_neg (by simpa using hw), Nat.zero_add] at hle
      exact hle.trans (h.shares w)
  unused e he := by
    rcases mem_insert he with rfl | ⟨hne, he⟩
    · exact if_pos rfl
    · exact (if_neg hne).trans (h.unused e he)
  sound := h.sound

theorem Kept.accept (hk : m[k]? = some d)
    (hd : admits d u) : Kept total share owner admits (m.erase k) (.accepted k u :: log) where
  size := (h.erase k).size
  shares := (h.erase k).shares
  unused e he := (if_neg (mem_erase he).1).trans (h.unused e (mem_erase he).2)
  sound := ⟨⟨d, h.unused _ (mem_toList_iff_getElem?_eq_some.2 hk), hd⟩, h.sound⟩

end

end

end OneUse
