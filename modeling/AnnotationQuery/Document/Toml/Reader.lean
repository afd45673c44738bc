import AnnotationQuery.Document.Record
import AnnotationQuery.Document.Toml.Scalar
import AnnotationQuery.Document.Toml.Table
import AnnotationQuery.Document.Toml.Text

/-!
# Reading TOML

A document is read line by line into pairs and headers, which `assemble?` puts
together. Lists and inline tables may run over several lines, hold comments and end
with a comma; only a path of keys stays on its line. They nest at most eighty deep.
A byte order mark at the start of the document is skipped.
-/

namespace AnnotationQuery.Toml

open DocumentReader

/-! ## Between values -/

/-- What is left after blanks, line breaks and comments; `none` after a character that a comment
may not hold. -/
def afterTrivia (inComment : Bool) : List Char → Option (List Char)
  | [] => some []
  | c :: cs =>
    if startsBreak (c :: cs) then afterTrivia false cs
    else if inComment then if isPlain c then afterTrivia true cs else none
    else if isBlank c then afterTrivia false cs
    else if c = '#' then afterTrivia true cs
    else some (c :: cs)

/-- Skips blanks, line breaks and comments. -/
def trivia : DocumentReader Unit := fun cs =>
  (afterTrivia false cs).map ((), ·)

/-- The end of a line: blanks, an optional comment, and a line break or the end. -/
def lineEnd : DocumentReader Unit := do
  blanks
  if (← peek) = some '#' then
    let _ ← charsWhile isPlain
  let cs ← get
  unless cs.isEmpty || startsBreak cs do failure

/-! ## Values -/

/-- At most `bound` things separated by commas, and the closing bracket. -/
def separatedUpTo {α : Type} (item : DocumentReader α) (close : Char) :
    (bound : Nat) → DocumentReader (List α)
  | 0 => failure
  | k + 1 => do
    trivia
    if (← peek) = some close then
      exactly [close]
      return []
    let a ← item
    trivia
    if (← peek) = some ',' then
      exactly [',']
      return a :: (← separatedUpTo item close k)
    exactly [close]
    return [a]

/-- Things separated by commas up to a closing bracket; a comma may stand before that. -/
def separated {α : Type} (item : DocumentReader α) (close : Char) : DocumentReader (List α) := do
  separatedUpTo item close ((← get).length + 1)

/-- A path and what is given to it, with what may stand around the equals sign. -/
def pair (gap : DocumentReader Unit) (value : DocumentReader Node) : DocumentReader Pair := do
  let path ← keyPath
  gap
  exactly ['=']
  gap
  let node ← value
  match path.getLast? with
  | some key => return ⟨path.dropLast, key, node⟩
  | none => failure

/-- A value without brackets. -/
def plainValue : DocumentReader Node := do
  match ← peek with
  | some '"' | some '\'' => return .text (← string)
  | _ => scalar

/-- A value with brackets at most `depth` deep. -/
def valueUpTo : (depth : Nat) → DocumentReader Node
  | 0 => plainValue
  | k + 1 => do
    match ← peek with
    | some '[' =>
      exactly ['[']
      return .items (← separated (valueUpTo k) ']')
    | some '\x7b' =>
      exactly ['\x7b']
      let pairs ← separated (pair trivia (valueUpTo k)) '\x7d'
      match Table.insertAll [] pairs with
      | some t => return .fields (entryNodes t)
      | none => failure
    | _ => plainValue

/-- A value. -/
def value : DocumentReader Node :=
  valueUpTo 80

/-! ## Lines -/

/-- A header in single or double brackets. -/
def header : DocumentReader Header := do
  exactly ['[']
  let inList := (← peek) = some '['
  if inList then exactly ['[']
  blanks
  let path ← keyPath
  exactly [']']
  if inList then exactly [']']
  match path.getLast? with
  | some key => return ⟨path.dropLast, key, inList⟩
  | none => failure

/-- At most `bound` lines, up to the end of the text. -/
def linesUpTo : (bound : Nat) → DocumentReader (List Line)
  | 0 => failure
  | k + 1 => do
    trivia
    match ← peek with
    | none => return []
    | some '[' =>
      let h ← header
      lineEnd
      return .header h :: (← linesUpTo k)
    | some _ =>
      let p ← pair blanks value
      lineEnd
      return .pair p :: (← linesUpTo k)

/-- Skips a byte order mark. -/
def byteOrderMark : DocumentReader Unit := fun
  | '\uFEFF' :: cs => some ((), cs)
  | cs => some ((), cs)

/-- All lines of a text. -/
def lines : DocumentReader (List Line) := do
  byteOrderMark
  linesUpTo ((← get).length + 1)

/-- The record that a text is. -/
def parse? (source : String) : Option Node := do
  let lines ← readAll? lines source
  let table ← assemble? lines
  return .fields (entryNodes table)

/-! ## Records -/

mutual

/-- Whether all numbers of a part are within the format's limits. -/
def withinLimits : Node → Bool
  | .whole n => -(Nat.pow 2 127 : Int) ≤ n && n < Nat.pow 2 128
  | .real written => !overflows written.toList
  | .items values => itemsWithinLimits values
  | .fields entries => entriesWithinLimits entries
  | _ => true

/-- Whether all numbers of the items are within the format's limits. -/
def itemsWithinLimits : List Node → Bool
  | [] => true
  | v :: vs => withinLimits v && itemsWithinLimits vs

/-- Whether all numbers of the entries are within the format's limits. -/
def entriesWithinLimits : List (String × Node) → Bool
  | [] => true
  | (_, v) :: rest => withinLimits v && entriesWithinLimits rest

end

/-- How records are found in TOML: surplus items do no harm, ignored numbers must still be within
limits, and an empty list or table says nothing. -/
def format : Format where
  surplusItems := true
  ignorable := withinLimits
  isUnit
    | .items [] | .fields [] => true
    | _ => false

end AnnotationQuery.Toml
