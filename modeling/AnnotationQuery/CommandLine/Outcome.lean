import AnnotationQuery.Fault
import AnnotationQuery.Schema
import AnnotationQuery.Settings
import AnnotationQuery.Text.Position

/-!
# What a command line program says

A run ends by printing something, by refusing its arguments, by failing to load
its settings or its schema, or by rejecting the query. The exit code tells
success, failure and misuse apart.

The faults of a rejected query are reported one by one. A fault whose span runs
backwards has no text to point at; the run breaks off before it, with an exit
code of its own.
-/

namespace AnnotationQuery.CommandLine

/-- What could not be loaded, and why. -/
inductive LoadError where
  | config (e : SettingsError)
  /-- The path of the schema is configured but cannot be expanded. -/
  | schemaPath (e : SettingsError)
  | noSchema
  | schema (path : String) (e : SchemaError)
deriving DecidableEq, Repr

/-- The wording of an error. -/
def LoadError.message : LoadError → String
  | config e => "Error loading config: " ++ e.message
  | schemaPath e => "Error loading schema " ++ e.message
  | noSchema =>
    "Error loading schema no schema given; use --schema or set `schema` in " ++ Settings.localFile
  | schema path e => "Error loading schema '" ++ path ++ "': " ++ e.message

/-- A fault of a query as it is shown: with the clause and the position in its text. -/
structure Report where
  message : String
  clause : Clause
  position : Text.Position
deriving DecidableEq, Repr

namespace Report

/-- The report of one of the faults of a rejected query. -/
def ofFault (r : Rejection) (f : Fault) : Report :=
  ⟨f.message, f.clause, Text.positionAt (r.sourceOf f.clause) f.span.start⟩

/-- The place as `clause:line:column`. -/
def place (r : Report) : String :=
  r.clause.name ++ ":" ++ r.position.text

/-- The report as text. -/
def text (r : Report) : String :=
  "Error: " ++ r.message ++ "\n  at " ++ r.place

end Report

/-- How a run ends. -/
inductive Outcome where
  | printed (text : String)
  | misused
  | notLoaded (e : LoadError)
  | rejected (reports : List Report)
  /-- The next fault after these reports cannot be shown. -/
  | brokenOff (reports : List Report)
deriving DecidableEq, Repr

namespace Outcome

/-- The outcome of a rejected query. -/
def ofRejection (r : Rejection) : Outcome :=
  let shown := (r.faults.takeWhile (·.span.isForward)).map (Report.ofFault r)
  if r.faults.all (·.span.isForward) then .rejected shown else .brokenOff shown

/-- The exit code. -/
def exitCode : Outcome → Nat
  | printed _ => 0
  | notLoaded _ | rejected _ => 1
  | misused => 2
  | brokenOff _ => 101

/-- What is printed as the result. -/
def output : Outcome → String
  | printed text => text
  | _ => ""

/-- The reports on the query. -/
def reports : Outcome → List Report
  | rejected rs | brokenOff rs => rs
  | _ => []

/-- The last words of a run without a result. -/
def summary? : Outcome → Option String
  | printed _ | misused => none
  | notLoaded e => some e.message
  | rejected rs => some (rs.length.repr ++ " error(s) in AGQL expression")
  | brokenOff _ => some "A fault lies behind the end of its clause and cannot be shown"

end Outcome

end AnnotationQuery.CommandLine
