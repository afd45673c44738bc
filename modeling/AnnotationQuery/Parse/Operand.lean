import AnnotationQuery.Operand
import AnnotationQuery.Parse.Basic

/-!
# Reading operands

An operand is one of seven forms, tried in this order: `my('L').label` or `.id`,
`list('L').length`, `labels('L')` with or without `.length`, `annotators('L')`,
`name.name`, a bare name, a literal. The function names are ordinary names, so
`my` alone is a bare name again.
-/

namespace AnnotationQuery.Parse

open AnnotationQuery.Parse.Parser

/-- The body of a double-quoted string with every `\"` read as `"`. -/
def unescapeDouble : List Char → List Char
  | '\\' :: '"' :: cs => '"' :: unescapeDouble cs
  | c :: cs => c :: unescapeDouble cs
  | [] => []

/-- The value of a string token. Single-quoted bodies keep their backslashes. -/
def stringValue? : Token → Option String
  | .single body => some body
  | .double body => some (String.ofList (unescapeDouble body.toList))
  | _ => none

/-- A string. -/
def string : Parser (Spanned String) :=
  accept stringValue?

/-- A number, as written. -/
def number : Parser (Spanned String) :=
  accept fun
    | .number written => some written
    | _ => none

/-- A name. -/
def name : Parser (Spanned String) :=
  accept fun
    | .ident name => some name
    | _ => none

/-- A layer id in parentheses. -/
def layerArgument : Parser (Spanned String) := do
  symbol .lparen
  let layerId ← string
  symbol .rparen
  return layerId

/-- `my('L').label` or `my('L').id`. -/
def myFunction : Parser Operand := do
  word "my"
  let layerId ← layerArgument
  symbol .dot
  let function ← (do word "label"; return .label) <|> (do word "id"; return .id)
  return .layer function layerId

/-- `list('L').length`. -/
def listFunction : Parser Operand := do
  word "list"
  let layerId ← layerArgument
  symbol .dot
  word "length"
  return .layer .count layerId

/-- `labels('L')`, or `labels('L').length` for their number. -/
def labelsFunction : Parser Operand := do
  word "labels"
  let layerId ← layerArgument
  let length ← optional do
    symbol .dot
    word "length"
  return .layer (if length.isSome then .count else .labels) layerId

/-- `annotators('L')`. -/
def annotatorsFunction : Parser Operand := do
  word "annotators"
  let layerId ← layerArgument
  return .layer .annotators layerId

/-- What `object.part` means: the label or id of a layer, or a part of something else. -/
def memberOf (object part : Spanned String) : Operand :=
  if part.value = "label" then .layer .label object
  else if part.value = "id" then .layer .id object
  else .member object part

/-- `name.name`. -/
def memberAccess : Parser Operand := do
  let object ← name
  symbol .dot
  let part ← name
  return memberOf object part

/-- What a bare name means. -/
def named (name : String) : Operand :=
  if name = "id" then .id
  else if name = "label" then .label
  else if name = "ordinal" then .ordinal
  else .identifier name

/-- A bare name. -/
def bareName : Parser Operand := do
  let n ← name
  return named n.value

/-- A string or a number. -/
def literal : Parser Operand :=
  (do let s ← string; return .literal (.string s.value)) <|>
  (do let n ← number; return .literal (.number n.value))

/-- An operand. -/
def operand : Parser (Spanned Operand) :=
  located <| myFunction <|> listFunction <|> labelsFunction <|> annotatorsFunction <|>
    memberAccess <|> bareName <|> literal

end AnnotationQuery.Parse
