/-!
# Documents

What a structured document says, whatever format it is written in: scalars, lists
and records. A record keeps its entries in the order of the document, so a key
that is given twice stays visible. Integers are unbounded here; who needs a
bounded one checks. Other numbers are kept as written.
-/

namespace AnnotationQuery

/-- A part of a document. -/
inductive Node where
  | null
  | bool (value : Bool)
  | whole (value : Int)
  /-- A number that is not written as an integer. -/
  | real (written : String)
  | text (value : String)
  /-- Something well-formed that holds a text no reader can use: half of a surrogate pair. -/
  | broken
  | items (values : List Node)
  | fields (entries : List (String × Node))
deriving Repr

/-- Reads a value from the front of a text. -/
abbrev DocumentReader (α : Type) : Type :=
  StateT (List Char) Option α

namespace DocumentReader

/-- Reads exactly these characters. -/
def exactly (expected : List Char) : DocumentReader Unit := fun cs =>
  match expected, cs with
  | [], cs => some ((), cs)
  | e :: es, c :: cs => if e = c then exactly es cs else none
  | _ :: _, [] => none

/-- Reads the longest run of characters that pass a test. -/
def charsWhile (test : Char → Bool) : DocumentReader (List Char) := fun cs =>
  some (cs.takeWhile test, cs.dropWhile test)

/-- Reads one character or more that pass a test. -/
def someWhile (test : Char → Bool) : DocumentReader (List Char) := do
  let cs ← charsWhile test
  if cs.isEmpty then failure
  return cs

/-- The next character, which stays. -/
def peek : DocumentReader (Option Char) := do
  return (← get).head?

/-- Reads all of a text. -/
def readAll? {α : Type} (r : DocumentReader α) (source : String) : Option α := do
  let (a, rest) ← StateT.run r source.toList
  if rest.isEmpty then some a else none

end DocumentReader

/-- The value of a hexadecimal digit. -/
def hexDigit? (c : Char) : Option Nat :=
  if c.isDigit then some (c.toNat - '0'.toNat)
  else if 'a' ≤ c ∧ c ≤ 'f' then some (c.toNat - 'a'.toNat + 10)
  else if 'A' ≤ c ∧ c ≤ 'F' then some (c.toNat - 'A'.toNat + 10)
  else none

/-- The value of digits in a base, most significant first. -/
def ofDigits (base : Nat) (digits : List Nat) : Nat :=
  digits.foldl (fun n d => n * base + d) 0

/-- The value of hexadecimal digits. -/
def hexValue? (digits : List Char) : Option Nat := do
  return ofDigits 16 (← digits.mapM hexDigit?)

/-- The value of decimal digits. -/
def decimalValue (digits : List Char) : Nat :=
  ofDigits 10 (digits.map fun c => c.toNat - '0'.toNat)

/-- The character with this code point, if there is one. -/
def charOfCode? (n : Nat) : Option Char :=
  if n.isValidChar then some (Char.ofNat n) else none

end AnnotationQuery
