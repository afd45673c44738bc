/-!
# Tokens

The words of a query: keywords, identifiers, quoted strings, numbers and symbols.
A string token keeps its body as written, backslashes included; what the body
means is decided where it is used. `Token.text` writes a token back, with
keywords in capitals.
-/

namespace AnnotationQuery

/-- The reserved words. They are recognised in any mixture of ASCII case. -/
inductive Keyword where
  | and
  | or
  | not
  | isIn
  | matching
  | asc
  | desc
deriving DecidableEq, Repr

namespace Keyword

/-- All keywords. -/
def all : List Keyword :=
  [and, or, not, isIn, matching, asc, desc]

/-- The keyword in capitals. -/
def text : Keyword → String
  | and => "AND"
  | or => "OR"
  | not => "NOT"
  | isIn => "IN"
  | matching => "MATCHES"
  | asc => "ASC"
  | desc => "DESC"

/-- The keyword that a word spells, if it spells one. Only ASCII letters have two cases here. -/
def ofWord? (word : List Char) : Option Keyword :=
  all.find? fun k => k.text.toList == word.map Char.toUpper

end Keyword

/-- The marks that are not words. -/
inductive Symbol where
  | lparen
  | rparen
  | comma
  | dot
  | eq
  | ne
  | lt
  | gt
  | le
  | ge
deriving DecidableEq, Repr

/-- The symbol as written. -/
def Symbol.text : Symbol → String
  | lparen => "("
  | rparen => ")"
  | comma => ","
  | dot => "."
  | eq => "="
  | ne => "<>"
  | lt => "<"
  | gt => ">"
  | le => "<="
  | ge => ">="

/-- A word of a query. -/
inductive Token where
  | keyword (word : Keyword)
  | ident (name : String)
  /-- A string in single quotes. -/
  | single (body : String)
  /-- A string in double quotes. -/
  | double (body : String)
  | number (written : String)
  | symbol (mark : Symbol)
deriving DecidableEq, Repr

namespace Token

/-- The token as written, keywords in capitals. -/
def text : Token → String
  | keyword word => word.text
  | ident name => name
  | single body => "'" ++ body ++ "'"
  | double body => "\"" ++ body ++ "\""
  | number written => written
  | symbol mark => mark.text

/-- The token of a word: a keyword if it spells one, an identifier otherwise. -/
def ofWord (word : List Char) : Token :=
  match Keyword.ofWord? word with
  | some k => keyword k
  | none => ident (String.ofList word)

end Token

end AnnotationQuery
