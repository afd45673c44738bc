import AnnotationQuery.Document.Node

/-!
# Writing JSON

Two layouts of one value: in a line without blanks, and indented by two spaces
with one item or entry a line. Both escape the quote, the backslash and the
control characters below the blank, and nothing else. An empty list or record has
nothing between its brackets in either.
-/

namespace AnnotationQuery.Json

/-- The last two hexadecimal digits of a number. -/
def hexByte (n : Nat) : List Char :=
  [(n / 16 % 16).digitChar, (n % 16).digitChar]

/-- A character as it stands in a string. -/
def escapeChar (c : Char) : List Char :=
  match c with
  | '"' => ['\\', '"']
  | '\\' => ['\\', '\\']
  | '\n' => ['\\', 'n']
  | '\r' => ['\\', 'r']
  | '\t' => ['\\', 't']
  | '\x08' => ['\\', 'b']
  | '\x0c' => ['\\', 'f']
  | c => if c.toNat < 0x20 then "\\u00".toList ++ hexByte c.toNat else [c]

/-- A text between quotes. -/
def writeText (s : String) : String :=
  "\"" ++ String.ofList (s.toList.flatMap escapeChar) ++ "\""

/-- How the parts of a list or record are set apart. -/
structure Layout where
  /-- What stands before a part at a depth, and before the closing bracket at the one around it. -/
  lead : Nat → String
  /-- What stands between a key and its value. -/
  colon : String

/-- Everything in one line. -/
def compact : Layout := ⟨fun _ => "", ":"⟩

/-- Every part on a line of its own. -/
def indented : Layout := ⟨fun depth => "\n" ++ String.ofList (List.replicate (2 * depth) ' '), ": "⟩

/-- The parts of a list or record between its brackets, at a depth. -/
def bracketed (l : Layout) (depth : Nat) (opening closing : String) (parts : List String) :
    String :=
  if parts.isEmpty then opening ++ closing
  else
    opening ++ ",".intercalate (parts.map (l.lead (depth + 1) ++ ·)) ++ l.lead depth ++ closing

mutual

/-- A value at a depth. -/
def write (l : Layout) (depth : Nat) : Node → String
  | .null => "null"
  | .bool true => "true"
  | .bool false => "false"
  | .whole n => n.repr
  | .real written => written
  | .text s => writeText s
  | .broken => "\"\\ud800\""
  | .items values => bracketed l depth "[" "]" (writeItems l (depth + 1) values)
  | .fields entries => bracketed l depth "\x7b" "\x7d" (writeFields l (depth + 1) entries)

/-- The items of a list. -/
def writeItems (l : Layout) (depth : Nat) : List Node → List String
  | [] => []
  | v :: vs => write l depth v :: writeItems l depth vs

/-- The entries of a record. -/
def writeFields (l : Layout) (depth : Nat) : List (String × Node) → List String
  | [] => []
  | (key, v) :: rest => (writeText key ++ l.colon ++ write l depth v) :: writeFields l depth rest

end

/-- A value in one line. -/
def line (n : Node) : String :=
  write compact 0 n

/-- A value in indented lines. -/
def page (n : Node) : String :=
  write indented 0 n

end AnnotationQuery.Json
