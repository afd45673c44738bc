import AnnotationQuery.Document.Record

/-!
# Reading JSON

The whole text must be one JSON value with blanks around it. `-0` is not an
integer. A string or key in which an escape names half of a surrogate pair is
well-formed but has no text: it reads as `broken`, and so does a record with such
a key.

Nesting is bounded by the length of the text, which no text exceeds.
-/

namespace AnnotationQuery.Json

open DocumentReader

/-- The blanks of JSON. -/
def isBlank (c : Char) : Bool :=
  c == ' ' || c == '\t' || c == '\n' || c == '\r'

/-- Skips blanks. -/
def blanks : DocumentReader Unit := do
  let _ ← charsWhile isBlank
  return ()

/-! ## Strings -/

/-- What a one-letter escape stands for. -/
def escape? : Char → Option Char
  | '"' => some '"'
  | '\\' => some '\\'
  | '/' => some '/'
  | 'b' => some '\x08'
  | 'f' => some '\x0c'
  | 'n' => some '\n'
  | 'r' => some '\r'
  | 't' => some '\t'
  | _ => none

/-- A unit of a string: a character, or a code unit given in hexadecimal. -/
inductive TextUnit where
  | char (c : Char)
  | code (n : Nat)

/-- The units of a string up to its closing quote. -/
def unitsFrom : List Char → Option (List TextUnit × List Char)
  | '"' :: cs => some ([], cs)
  | '\\' :: 'u' :: a :: b :: c :: d :: cs => do
    let n ← hexValue? [a, b, c, d]
    let (units, rest) ← unitsFrom cs
    return (.code n :: units, rest)
  | '\\' :: e :: cs => do
    let c ← escape? e
    let (units, rest) ← unitsFrom cs
    return (.char c :: units, rest)
  | c :: cs =>
    if c.toNat < 0x20 then none
    else do
      let (units, rest) ← unitsFrom cs
      return (.char c :: units, rest)
  | [] => none

/-- Whether a code unit is the first half of a surrogate pair. -/
def isHighSurrogate (n : Nat) : Bool :=
  0xD800 ≤ n && n < 0xDC00

/-- Whether a code unit is the second half of a surrogate pair. -/
def isLowSurrogate (n : Nat) : Bool :=
  0xDC00 ≤ n && n < 0xE000

/-- The characters of the units, unless half of a surrogate pair stands alone. -/
def textOfUnits? : List TextUnit → Option (List Char)
  | [] => some []
  | .char c :: us => (textOfUnits? us).map (c :: ·)
  | .code h :: .code l :: us =>
    if isHighSurrogate h && isLowSurrogate l then do
      let c ← charOfCode? (0x10000 + (h - 0xD800) * 0x400 + (l - 0xDC00))
      return c :: (← textOfUnits? us)
    else do
      let c ← charOfCode? h
      return c :: (← textOfUnits? (.code l :: us))
  | .code n :: us => do
    let c ← charOfCode? n
    return c :: (← textOfUnits? us)

/-- A string; `none` if it has no text. -/
def string : DocumentReader (Option String) := do
  exactly ['"']
  let units ← fun cs => unitsFrom cs
  return (textOfUnits? units).map String.ofList

/-! ## Numbers -/

/-- The digits before the point: no leading zero. -/
def wholePart : DocumentReader (List Char) := do
  match ← peek with
  | some '0' =>
    exactly ['0']
    return ['0']
  | _ => someWhile Char.isDigit

/-- The fraction with its point, or nothing. -/
def fraction : DocumentReader (List Char) := do
  match ← peek with
  | some '.' =>
    exactly ['.']
    return '.' :: (← someWhile Char.isDigit)
  | _ => return []

/-- The exponent with its mark, or nothing. -/
def exponent : DocumentReader (List Char) := do
  let mark ← charsWhile fun c => c == 'e' || c == 'E'
  match mark with
  | [] => return []
  | [m] =>
    let sign ← charsWhile fun c => c == '+' || c == '-'
    if 1 < sign.length then failure
    return m :: (sign ++ (← someWhile Char.isDigit))
  | _ => failure

/-- A number. -/
def number : DocumentReader Node := do
  let sign ← charsWhile (· == '-')
  if 1 < sign.length then failure
  let whole ← wholePart
  let rest := (← fraction) ++ (← exponent)
  if rest.isEmpty ∧ ¬(sign = ['-'] ∧ whole = ['0']) then
    let n : Int := decimalValue whole
    return .whole (if sign.isEmpty then n else -n)
  return .real (String.ofList (sign ++ whole ++ rest))

/-! ## Values -/

/-- At most `bound` things separated by commas, and the closing bracket. -/
def separatedUpTo {α : Type} (item : DocumentReader α) (close : Char) :
    (bound : Nat) → DocumentReader (List α)
  | 0 => failure
  | k + 1 => do
    let a ← item
    blanks
    match ← peek with
    | some ',' =>
      exactly [',']
      return a :: (← separatedUpTo item close k)
    | _ =>
      exactly [close]
      return [a]

/-- Things separated by commas up to a closing bracket. -/
def separated {α : Type} (item : DocumentReader α) (close : Char) : DocumentReader (List α) := do
  blanks
  if (← peek) = some close then
    exactly [close]
    return []
  separatedUpTo item close ((← get).length + 1)

/-- A key with its value. -/
def entry (value : DocumentReader Node) : DocumentReader (Option String × Node) := do
  blanks
  let key ← string
  blanks
  exactly [':']
  return (key, ← value)

/-- A record, unless one of its keys has no text. -/
def record (entries : List (Option String × Node)) : Node :=
  match entries.mapM fun (key, value) => key.map (·, value) with
  | some entries => .fields entries
  | none => .broken

/-- A value nested less than `bound` deep, with blanks before it. -/
def valueUpTo : (bound : Nat) → DocumentReader Node
  | 0 => failure
  | k + 1 => do
    blanks
    match ← peek with
    | some 'n' =>
      exactly "null".toList
      return .null
    | some 't' =>
      exactly "true".toList
      return .bool true
    | some 'f' =>
      exactly "false".toList
      return .bool false
    | some '"' =>
      match ← string with
      | some s => return .text s
      | none => return .broken
    | some '[' =>
      exactly ['[']
      return .items (← separated (valueUpTo k) ']')
    | some '\x7b' =>
      exactly ['\x7b']
      return record (← separated (entry (valueUpTo k)) '\x7d')
    | _ => number

/-- A value with blanks around it. -/
def document : DocumentReader Node := do
  let value ← valueUpTo ((← get).length + 1)
  blanks
  return value

/-- The value that a text is. -/
def parse? (source : String) : Option Node :=
  readAll? document source

/-- How records are found in JSON: no surplus items, anything may be ignored, and `null` says
nothing. -/
def format : Format where
  surplusItems := false
  ignorable _ := true
  isUnit
    | .null => true
    | _ => false

end AnnotationQuery.Json
