/-!
# Dictionaries

A dictionary holds values under keys that are texts. What is put in last under a key is what
is found there. Nothing else is asked of one: `find?_empty` and `find?_insert` say all that
there is to say, and how the entries are kept does not matter.
-/

namespace AnnotationQuery

/-- Values under keys. -/
structure Dictionary (α : Type) where
  /-- The latest entry comes first and hides earlier ones under its key. -/
  entries : List (String × α)
deriving DecidableEq, Repr

namespace Dictionary

variable {α : Type}

/-- The dictionary without any value. -/
def empty : Dictionary α :=
  ⟨[]⟩

/-- Puts a value under a key. -/
def insert (d : Dictionary α) (key : String) (value : α) : Dictionary α :=
  ⟨(key, value) :: d.entries⟩

/-- The value under a key. -/
def find? (d : Dictionary α) (key : String) : Option α :=
  d.entries.lookup key

/-- Whether there is a value under a key. -/
def contains (d : Dictionary α) (key : String) : Bool :=
  (d.find? key).isSome

@[simp]
theorem find?_empty (key : String) : (empty : Dictionary α).find? key = none := rfl

/-- Putting a value in changes what is found under its key, and under no other. -/
theorem find?_insert (d : Dictionary α) (key other : String) (value : α) :
    (d.insert key value).find? other = if other = key then some value else d.find? other := by
  unfold find? insert
  by_cases hSame : other = key
  · rw [if_pos hSame, hSame]
    exact List.lookup_cons_self
  · rw [if_neg hSame, List.lookup_cons, beq_false_of_ne hSame]

end Dictionary

end AnnotationQuery
