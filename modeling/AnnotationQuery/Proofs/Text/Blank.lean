import AnnotationQuery.Text.Blank
import Mathlib.Data.List.DropRight

/-!
# Blanks around a text

Trimming takes away blanks only, at both ends, and all of them: what is trimmed
is put back by blanks (`exists_trimBlanks`), and there is nothing more to trim
(`trimBlanks_trimBlanks`).
-/

namespace AnnotationQuery.Text

theorem isBlankText_append_of_left {a : String} (h : isBlankText a = false) (b : String) :
    isBlankText (a ++ b) = false := by
  rw [isBlankText] at h
  rw [isBlankText, String.toList_append, List.all_append, h, Bool.false_and]

theorem trimBlanks_eq_rdropWhile (cs : List Char) :
    trimBlanks cs = (cs.dropWhile isBlank).rdropWhile isBlank := rfl

/-- A text is what is left of it when it is trimmed, with blanks around. -/
theorem exists_trimBlanks (cs : List Char) :
    ∃ before after, cs = before ++ (trimBlanks cs ++ after) ∧
      (∀ c ∈ before, isBlank c = true) ∧ ∀ c ∈ after, isBlank c = true := by
  refine ⟨cs.takeWhile isBlank, (cs.dropWhile isBlank).rtakeWhile isBlank, ?_, ?_, ?_⟩
  · rw [trimBlanks_eq_rdropWhile, List.rdropWhile_append_rtakeWhile,
      List.takeWhile_append_dropWhile]
  · exact fun c hc => List.mem_takeWhile_imp hc
  · exact fun c hc => List.mem_rtakeWhile_imp hc

/-- A front part of a text that does not start with a blank does not either. -/
theorem dropWhile_eq_self_of_front {cs ds : List Char} (h : ds <+: cs.dropWhile isBlank) :
    ds.dropWhile isBlank = ds := by
  cases ds with
  | nil => rfl
  | cons d ds =>
    obtain ⟨rest, hRest⟩ := h
    have hSame : (cs.dropWhile isBlank).dropWhile isBlank = cs.dropWhile isBlank :=
      List.dropWhile_idempotent isBlank cs
    rw [← hRest, List.cons_append, List.dropWhile_cons] at hSame
    by_cases hd : isBlank d = true
    · -- dropping `d` would make the text shorter
      rw [if_pos hd] at hSame
      have hLength := congrArg List.length hSame
      have hShorter := (List.dropWhile_suffix isBlank (l := ds ++ rest)).length_le
      simp only [List.length_cons] at hLength
      omega
    · rw [List.dropWhile_cons, if_neg hd]

theorem trimBlanks_trimBlanks (cs : List Char) : trimBlanks (trimBlanks cs) = trimBlanks cs := by
  have hFront : trimBlanks cs <+: cs.dropWhile isBlank := List.rdropWhile_prefix isBlank _
  rw [trimBlanks_eq_rdropWhile (trimBlanks cs), dropWhile_eq_self_of_front hFront,
    trimBlanks_eq_rdropWhile, List.rdropWhile_idempotent]

theorem trim_trim (s : String) : trim (trim s) = trim s := by
  rw [trim, trim, String.toList_ofList, trimBlanks_trimBlanks]

/-- Nothing is left of a text exactly if it is blank. -/
theorem trim_eq_empty_iff {s : String} : trim s = "" ↔ isBlankText s = true := by
  rw [trim, String.ofList_eq_empty_iff, isBlankText, List.all_eq_true]
  constructor
  · intro hTrim c hc
    obtain ⟨before, after, hText, hBefore, hAfter⟩ := exists_trimBlanks s.toList
    rw [hText, hTrim, List.nil_append, List.mem_append] at hc
    exact hc.elim (hBefore c) (hAfter c)
  · intro hBlank
    rw [trimBlanks_eq_rdropWhile, List.dropWhile_eq_nil_iff.mpr hBlank, List.rdropWhile_nil]

end AnnotationQuery.Text
