import AnnotationQuery.Document.Node

/-!
# Numbers, truth values and moments in TOML

A scalar that is not a string is recognised as a whole from its characters. Digits
may be grouped by single underscores; a decimal integer has no leading zero, and
hexadecimal, octal and binary integers have no sign. Moments are dates, times or
both; their fields are checked against the calendar, and the seconds of a time may
be left out.

Nothing in this library looks into a moment, so it is read as a record whose one
key no record knows.
-/

namespace AnnotationQuery.Toml

/-! ## Numbers -/

/-- The digits of a group, without the underscores: single ones between digits. -/
def grouped? (isDigit : Char → Bool) : List Char → Option (List Char)
  | [] => none
  | [c] => if isDigit c then some [c] else none
  | c :: '_' :: cs => if isDigit c then (grouped? isDigit cs).map (c :: ·) else none
  | c :: cs => if isDigit c then (grouped? isDigit cs).map (c :: ·) else none

/-- Digits as in `grouped?`, of which more than one do not start with zero. -/
def decimal? (cs : List Char) : Option (List Char) := do
  let digits ← grouped? Char.isDigit cs
  match digits with
  | '0' :: _ :: _ => none
  | _ => some digits

/-- A sign, if there is one, and what follows. -/
def signed : List Char → List Char × List Char
  | '+' :: cs => (['+'], cs)
  | '-' :: cs => (['-'], cs)
  | cs => ([], cs)

/-- An integer in a base given by its mark. -/
def radix? (base : Nat) (isDigit : Char → Bool) (cs : List Char) : Option Int := do
  let digits ← grouped? isDigit cs
  return ofDigits base (← digits.mapM hexDigit?)

/-- An integer. -/
def integer? : List Char → Option Int
  | '0' :: 'x' :: cs => radix? 16 (fun c => (hexDigit? c).isSome) cs
  | '0' :: 'o' :: cs => radix? 8 (fun c => '0' ≤ c && c ≤ '7') cs
  | '0' :: 'b' :: cs => radix? 2 (fun c => c == '0' || c == '1') cs
  | cs => do
    let (sign, body) := signed cs
    let n : Int := decimalValue (← decimal? body)
    return if sign = ['-'] then -n else n

/-- An exponent: a sign, if any, and digits. -/
def exponent? (cs : List Char) : Option (List Char) := do
  let (sign, body) := signed cs
  return sign ++ (← grouped? Char.isDigit body)

/-- Whether a character marks an exponent. -/
def marksExponent (c : Char) : Bool :=
  c == 'e' || c == 'E'

/-- What follows the point or the exponent mark of a number, without the underscores. -/
def tail? : List Char → Option (List Char)
  | '.' :: cs => do
    let fraction ← grouped? Char.isDigit (cs.takeWhile fun c => !marksExponent c)
    match cs.dropWhile fun c => !marksExponent c with
    | [] => some ('.' :: fraction)
    | e :: cs => return '.' :: (fraction ++ e :: (← exponent? cs))
  | e :: cs => if marksExponent e then (exponent? cs).map (e :: ·) else none
  | [] => none

/-- A number with a fraction or an exponent, without the underscores. -/
def float? (cs : List Char) : Option (List Char) := do
  let (sign, body) := signed cs
  if body = "inf".toList ∨ body = "nan".toList then return cs
  let startsTail (c : Char) : Bool := c == '.' || marksExponent c
  let whole ← decimal? (body.takeWhile fun c => !startsTail c)
  return sign ++ whole ++ (← tail? (body.dropWhile fun c => !startsTail c))

/-- Whether a number without underscores is too large for a double. Half a unit above the largest
double is. -/
def overflows (written : List Char) : Bool :=
  let body := (signed written).2
  let mantissa := body.takeWhile fun c => !marksExponent c
  let exponentText := (body.dropWhile fun c => !marksExponent c).drop 1
  let digits := mantissa.filter Char.isDigit
  let fraction := ((mantissa.dropWhile (· ≠ '.')).drop 1).length
  let (sign, exponentDigits) := signed exponentText
  let exponent : Int :=
    (if sign = ['-'] then -(decimalValue exponentDigits : Int) else decimalValue exponentDigits) -
      fraction
  let n := decimalValue digits
  let magnitude : Int := ((digits.dropWhile (· == '0')).length : Int) + exponent
  let bound := Nat.pow 2 1024 - Nat.pow 2 970
  if n = 0 ∨ magnitude < 300 then false
  else if 320 < magnitude then true
  else if 0 ≤ exponent then bound ≤ n * Nat.pow 10 exponent.toNat
  else bound * Nat.pow 10 (-exponent).toNat ≤ n

/-! ## Moments -/

/-- The number of two digits. -/
def twoDigits? (a b : Char) : Option Nat :=
  if a.isDigit && b.isDigit then some (decimalValue [a, b]) else none

/-- The number of days in a month. -/
def daysIn (year month : Nat) : Nat :=
  if month = 2 then
    if year % 4 = 0 ∧ (year % 100 ≠ 0 ∨ year % 400 = 0) then 29 else 28
  else if month = 4 ∨ month = 6 ∨ month = 9 ∨ month = 11 then 30
  else 31

/-- Whether these are a date of the calendar, as in `1979-05-27`. -/
def isDate : List Char → Bool
  | [a, b, c, d, '-', e, f, '-', g, h] =>
    match twoDigits? a b, twoDigits? c d, twoDigits? e f, twoDigits? g h with
    | some century, some year, some month, some day =>
      1 ≤ month && month ≤ 12 && 1 ≤ day && day ≤ daysIn (100 * century + year) month
    | _, _, _, _ => false
  | _ => false

/-- Whether these are seconds with an optional fraction. A minute may have a leap second. -/
def isSeconds : List Char → Bool
  | [a, b] => (twoDigits? a b).any (· ≤ 60)
  | a :: b :: '.' :: cs => (twoDigits? a b).any (· ≤ 60) && !cs.isEmpty && cs.all Char.isDigit
  | _ => false

/-- Whether these are a time of the day, as in `07:32` or `07:32:00.5`. -/
def isTime : List Char → Bool
  | a :: b :: ':' :: c :: d :: cs =>
    (twoDigits? a b).any (· ≤ 23) && (twoDigits? c d).any (· ≤ 59) &&
      match cs with
      | [] => true
      | ':' :: cs => isSeconds cs
      | _ => false
  | _ => false

/-- Whether these are an offset from universal time. -/
def isOffset : List Char → Bool
  | ['Z'] | ['z'] => true
  | [s, a, b, ':', c, d] =>
    (s == '+' || s == '-') && (twoDigits? a b).any (· ≤ 23) && (twoDigits? c d).any (· ≤ 59)
  | _ => false

/-- Whether a character starts an offset. -/
def startsOffset (c : Char) : Bool :=
  c == 'Z' || c == 'z' || c == '+' || c == '-'

/-- Whether these are a time of the day with an optional offset. -/
def isOffsetTime (cs : List Char) : Bool :=
  let offset := cs.dropWhile fun c => !startsOffset c
  isTime (cs.takeWhile fun c => !startsOffset c) && (offset.isEmpty || isOffset offset)

/-- Whether these are a moment: a date, a time of the day, or both. -/
def isMoment (cs : List Char) : Bool :=
  isTime cs || isDate cs ||
    match cs.drop 10 with
    | s :: time => (s == 'T' || s == 't' || s == ' ') && isDate (cs.take 10) && isOffsetTime time
    | [] => false

/-- A moment as a record that no reader knows. -/
def moment (written : List Char) : Node :=
  .fields [("", .text (String.ofList written))]

/-! ## Scalars -/

/-- What the characters of a scalar mean. -/
def scalar? (cs : List Char) : Option Node :=
  if cs = "true".toList then some (.bool true)
  else if cs = "false".toList then some (.bool false)
  else
    match integer? cs, float? cs with
    | some n, _ => some (.whole n)
    | none, some written => some (.real (String.ofList written))
    | none, none => if isMoment cs then some (moment cs) else none

/-- The characters of a scalar that is not a string. -/
def isScalarChar (c : Char) : Bool :=
  c.isAlphanum || c == '+' || c == '-' || c == '_' || c == '.' || c == ':'

/-- Reads a scalar that is not a string. A date may be followed by a blank and a time. -/
def scalar : DocumentReader Node := do
  let first ← DocumentReader.someWhile isScalarChar
  let cs ← get
  match cs with
  | ' ' :: c :: _ =>
    if isDate first && c.isDigit then
      set (cs.drop 1)
      let time ← DocumentReader.someWhile isScalarChar
      scalar? (first ++ ' ' :: time)
    else scalar? first
  | _ => scalar? first

end AnnotationQuery.Toml
