import Mathlib.Data.String.Basic

/-! # Text cut at a separator

The pieces of a text between separators, none of which contains one; the text is found
again by joining them. And what follows a known beginning of a text. -/
namespace Segments

open List

variable {separator : Char} {text : String}

theorem not_mem_of_mem_splitOn {chars piece : List Char} (h : piece ∈ chars.splitOn c) :
    c ∉ piece := by
  induction chars generalizing piece with
  | nil =>
    obtain rfl : piece = [] := by simpa using h
    exact not_mem_nil
  | cons x rest ih =>
    rw [splitOn, splitOnP_cons_eq_if_modifyHead] at h
    split at h
    · rcases mem_cons.1 h with rfl | h
      · exact not_mem_nil
      · exact ih h
    · next hx =>
      obtain ⟨first, others, hs⟩ := exists_cons_of_ne_nil (splitOn_ne_nil c rest)
      rw [← splitOn, hs] at h
      rcases mem_cons.1 h with rfl | h
      · have hne : x ≠ c := by simpa using hx
        have hf : c ∉ first := ih (hs ▸ mem_cons_self)
        exact not_mem_cons_of_ne_of_not_mem hne.symm hf
      · exact ih (hs ▸ mem_cons_of_mem _ h)

def segments (separator : Char) (text : String) : List String :=
  (text.toList.splitOn separator).map String.ofList

theorem not_mem_of_mem_segments (h : part ∈ segments separator text) : separator ∉ part.toList := by
  obtain ⟨chars, hc, rfl⟩ := mem_map.1 h
  rw [String.toList_ofList]
  exact not_mem_of_mem_splitOn hc

theorem segments_of_not_mem (h : separator ∉ text.toList) : segments separator text = [text] := by
  rw [segments, splitOn_eq_singleton h, map_singleton, String.ofList_toList]

theorem toList_eq_intercalate (separator : Char) (text : String) :
    text.toList = [separator].intercalate ((segments separator text).map String.toList) := by
  have hc : (segments separator text).map String.toList = text.toList.splitOn separator := by
    rw [segments, map_map]
    exact (map_congr_left fun chars _ => String.toList_ofList).trans (map_id' _)
  rw [hc, intercalate_splitOn]

theorem segments_inj : segments separator text = segments separator o ↔ text = o := by
  constructor
  · intro h
    have hc := toList_eq_intercalate separator text
    rw [h, ← toList_eq_intercalate] at hc
    exact String.ext_iff.2 hc
  · exact congrArg _

theorem segments_join {pre after : String}
    (h : text.toList = pre.toList ++ separator :: after.toList) :
    segments separator text = segments separator pre ++ segments separator after := by
  have hs : text.toList.splitOn separator =
      pre.toList.splitOn separator ++ after.toList.splitOn separator := by
    rw [h]
    exact splitOnP_append_cons _ _ (beq_self_eq_true separator)
  rw [segments, hs, map_append]
  rfl

theorem intercalate_append (h : pieces ≠ []) (h' : others ≠ []) :
    [separator].intercalate (pieces ++ others) =
      [separator].intercalate pieces ++ separator :: [separator].intercalate others := by
  induction pieces with
  | nil => exact absurd rfl h
  | cons piece rest ih =>
    cases rest with
    | nil =>
      rw [singleton_append, intercalate_cons_of_ne_nil h']
      simp
    | cons second rest =>
      rw [cons_append, intercalate_cons_of_ne_nil (by simp), ih (cons_ne_nil _ _),
        intercalate_cons_of_ne_nil (cons_ne_nil _ _)]
      simp

/-- The pieces of one text begin those of another where the other continues it after a
separator. -/
theorem segments_prefix_iff : segments separator text <+: segments separator o ↔
    text = o ∨ ∃ rest, o.toList = text.toList ++ separator :: rest := by
  constructor
  · rintro ⟨tail, ht⟩
    cases tail with
    | nil => exact .inl (segments_inj.1 (append_nil _ ▸ ht))
    | cons first others =>
      have hp : (segments separator text).map String.toList ≠ [] := by
        simp [segments, splitOn_ne_nil]
      have ho := toList_eq_intercalate separator o
      rw [← ht, map_append, intercalate_append hp (by simp), ← toList_eq_intercalate] at ho
      exact .inr ⟨_, ho⟩
  · rintro (rfl | ⟨rest, hr⟩)
    · exact prefix_rfl
    · have hj : segments separator o =
          segments separator text ++ segments separator (String.ofList rest) :=
        segments_join (by rw [hr, String.toList_ofList])
      exact ⟨_, hj.symm⟩

theorem flatMap_segments {parts : List String} (h : ∀ part ∈ parts, separator ∉ part.toList) :
    parts.flatMap (segments separator) = parts := by
  induction parts with
  | nil => rfl
  | cons part rest ih =>
    obtain ⟨hp, hr⟩ := forall_mem_cons.1 h
    rw [flatMap_cons, segments_of_not_mem hp, ih hr]
    rfl

/-! ## Codes

Where no word of a code begins like another, the text of a list of words determines the
list. -/

theorem flatMap_inj {α β : Type} {code : α → List β} (hw : ∀ a, code a ≠ [])
    (hc : ∀ {a b rest rest'}, code a ++ rest = code b ++ rest' → a = b) {xs ys : List α}
    (h : xs.flatMap code = ys.flatMap code) : xs = ys := by
  induction xs generalizing ys with
  | nil =>
    cases ys with
    | nil => rfl
    | cons y ys => exact absurd (append_eq_nil_iff.1 h.symm).1 (hw y)
  | cons x xs ih =>
    cases ys with
    | nil => exact absurd (append_eq_nil_iff.1 h).1 (hw x)
    | cons y ys =>
      obtain rfl := hc h
      rw [ih (append_cancel_left h)]

def startsWith (text start : String) : Bool := start.toList.isPrefixOf text.toList

def stripStart (text start : String) : Option String :=
  if startsWith text start then some (String.ofList (text.toList.drop start.toList.length))
  else none

theorem startsWith_iff : startsWith text start = true ↔ ∃ rest, text = start ++ rest := by
  rw [startsWith, isPrefixOf_iff_prefix]
  constructor
  · rintro ⟨rest, h⟩
    exact ⟨String.ofList rest, String.ext_iff.2 (by simpa using h.symm)⟩
  · rintro ⟨rest, rfl⟩
    rw [String.toList_append]
    exact prefix_append _ _

theorem stripStart_eq_some : stripStart text start = some rest ↔ text = start ++ rest := by
  constructor
  · intro h
    obtain ⟨hs, hr⟩ := Option.ite_none_right_eq_some.1 h
    obtain ⟨rest, rfl⟩ := startsWith_iff.1 hs
    cases hr
    rw [String.toList_append, drop_left, String.ofList_toList]
  · rintro rfl
    rw [stripStart, if_pos (startsWith_iff.2 ⟨rest, rfl⟩), String.toList_append, drop_left,
      String.ofList_toList]

end Segments
