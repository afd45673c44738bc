import Mathlib.Data.List.TakeWhile

/-!
# Runs of characters

A name, a number and the space between two words are each read as the longest run of characters
that pass a test. How far a run goes is decided by what comes behind it. If the text that is put
behind another one does not go on with the run, neither the run nor what is left over is any
different for it.

Main results:

* `takeWhile_append_of_stops`, `dropWhile_append_of_stops` — a run with another text behind it.
* `takeWhile_run` — a whole run.
-/

namespace AnnotationQuery.Text

/-- The text is at its end or goes on with a character that fails the test. -/
def Stops (p : Char → Bool) (cs : List Char) : Prop :=
  ∀ c ∈ cs.head?, p c = false

variable {p q : Char → Bool} {run cs rest : List Char}

/-- Where a weaker test fails, a stronger one does. -/
theorem Stops.mono (h : Stops q rest) (hImp : ∀ c, p c = true → q c = true) : Stops p rest := by
  intro c hc
  rw [← Bool.not_eq_true]
  intro hp
  have hFails := h c hc
  rw [hImp c hp] at hFails
  cases hFails

/-- Nothing is taken from a text that does not go on with the run. -/
theorem takeWhile_of_stops (h : Stops p rest) : rest.takeWhile p = [] := by
  cases rest with
  | nil => rfl
  | cons c rest => exact List.takeWhile_cons_of_neg (Bool.eq_false_iff.mp (h c rfl))

/-- All of a text is left that does not go on with the run. -/
theorem dropWhile_of_stops (h : Stops p rest) : rest.dropWhile p = rest := by
  have hWhole := List.takeWhile_append_dropWhile (p := p) (l := rest)
  rwa [takeWhile_of_stops h] at hWhole

/-- The run of a text does not change when such a text is put behind it. -/
theorem takeWhile_append_of_stops (cs : List Char) (h : Stops p rest) :
    (cs ++ rest).takeWhile p = cs.takeWhile p := by
  rw [List.takeWhile_append, takeWhile_of_stops h]
  split
  · next hAll =>
    -- all of the first text is a run, so it is the run of that text
    have hFront : cs.takeWhile p <+: cs := List.takeWhile_prefix p
    rw [List.append_nil, hFront.eq_of_length hAll]
  · rfl

/-- What is left behind the run is what was left, and then the text that was put there. -/
theorem dropWhile_append_of_stops (cs : List Char) (h : Stops p rest) :
    (cs ++ rest).dropWhile p = cs.dropWhile p ++ rest := by
  rw [List.dropWhile_append, dropWhile_of_stops h]
  split
  · next hEmpty => rw [List.isEmpty_iff.mp hEmpty, List.nil_append]
  · rfl

/-- A run is taken whole. -/
theorem takeWhile_run (hRun : ∀ c ∈ run, p c = true) (hStop : Stops p rest) :
    (run ++ rest).takeWhile p = run := by
  rw [takeWhile_append_of_stops run hStop, List.takeWhile_eq_self_iff.mpr hRun]

/-- What is left behind a whole run is the text behind it. -/
theorem dropWhile_run (hRun : ∀ c ∈ run, p c = true) (hStop : Stops p rest) :
    (run ++ rest).dropWhile p = rest := by
  rw [dropWhile_append_of_stops run hStop, List.dropWhile_eq_nil_iff.mpr hRun, List.nil_append]

/-- What is left behind a run does not go on with it. -/
theorem stops_dropWhile (p : Char → Bool) (cs : List Char) : Stops p (cs.dropWhile p) := by
  intro c hc
  have hStop := List.head?_dropWhile_not p cs
  rw [Option.mem_def.mp hc] at hStop
  exact hStop

end AnnotationQuery.Text
