import AnnotationQuery.Number.Shortest

/-!
# Numbers as text

A number that is written as a fraction always shows that it is one: it has a
point or an exponent. The point stands among or around the digits as long as the
number is below `10 ^ 16` and not below `10 ^ -5`; elsewhere there is an exponent
with its sign.
-/

namespace AnnotationQuery.Number

/-- The parts of a double: its sign and the two fields of its magnitude. -/
structure Fields where
  negative : Bool
  exponent : Nat
  fraction : Nat
deriving DecidableEq, Repr

/-- The parts of a double with these bits. -/
def Fields.ofBits (bits : Nat) : Fields :=
  { negative := bits / Nat.pow 2 63 % 2 = 1
    exponent := bits / Nat.pow 2 52 % Nat.pow 2 11
    fraction := bits % Nat.pow 2 52 }

/-- So many zeros. -/
def zeros (n : Nat) : String :=
  String.ofList (List.replicate n '0')

/-- An integer that always shows its sign. -/
def signed (n : Int) : String :=
  if n < 0 then n.repr else "+" ++ n.repr

/-- A decimal with a point or an exponent. -/
def Decimal.text (d : Decimal) : String :=
  let digits := d.digits.repr
  let size : Int := digits.length
  -- The place of the point, counted from before the first digit.
  let point := size + d.exponent
  if 0 ≤ d.exponent ∧ point ≤ 16 then digits ++ zeros d.exponent.toNat ++ ".0"
  else if 0 < point ∧ point ≤ 16 then
    String.ofList (digits.toList.take point.toNat ++ '.' :: digits.toList.drop point.toNat)
  else if -5 < point ∧ point ≤ 0 then "0." ++ zeros (-point).toNat ++ digits
  else
    let significand :=
      match digits.toList with
      | first :: second :: rest => String.ofList (first :: '.' :: second :: rest)
      | short => String.ofList short
    significand ++ "e" ++ signed (point - 1)

/-- A finite double as text. Infinities and what is not a number have none. -/
def Fields.text? (f : Fields) : Option String :=
  let sign := if f.negative then "-" else ""
  if f.exponent = 2047 then none
  else if f.exponent = 0 ∧ f.fraction = 0 then some (sign ++ "0.0")
  else some (sign ++ (shortest f.exponent f.fraction).text)

/-- A finite double as text. -/
def text? (x : Float) : Option String :=
  (Fields.ofBits x.toBits.toNat).text?

end AnnotationQuery.Number
