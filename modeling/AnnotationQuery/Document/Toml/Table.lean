import AnnotationQuery.Document.Node

/-!
# Tables in TOML

A TOML document is a list of lines that together define one table. Which lines may
follow which depends on how a table came about:

* a *header* table was opened by a line of its own and is complete with it;
* an *implied* table lies on the path of a header and may still be opened;
* a *dotted* table lies on the path of a key and may only grow by such keys, or by
  headers further down.

Values, inline tables included, never grow, and neither does a list that was
written as a value. A list of tables grows by one table for each header in double
brackets, and paths through it lead to its last table.
-/

namespace AnnotationQuery.Toml

/-- How a table came about. -/
inductive TableKind where
  | header
  | implied
  | dotted
deriving DecidableEq, Repr

/-- What a key of a table stands for. -/
inductive Entry where
  | value (node : Node)
  | table (kind : TableKind) (entries : List (String × Entry))
  | tables (elements : List (List (String × Entry)))

/-- The entries of a table. -/
abbrev Table := List (String × Entry)

/-- A key with its path and its value. -/
structure Pair where
  path : List String
  key : String
  value : Node

/-- A line that opens a table, or one more table of a list. -/
structure Header where
  path : List String
  key : String
  inList : Bool

/-- A line of a document. -/
inductive Line where
  | pair (p : Pair)
  | header (h : Header)

namespace Table

/-- The entry of a key. -/
def get? (t : Table) (key : String) : Option Entry :=
  (t.find? (·.1 == key)).map (·.2)

/-- With this entry for a key. -/
def put (t : Table) (key : String) (e : Entry) : Table :=
  t.filter (·.1 != key) ++ [(key, e)]

/-- Changes the table at the end of a path. Missing tables on the way come about as `fresh`; a path
of a dotted key does not lead through a header table. -/
def alter (fresh : TableKind) (change : TableKind → Table → Option Table) :
    (path : List String) → TableKind → Table → Option Table
  | [], kind, t => change kind t
  | key :: path, _, t =>
    match t.get? key with
    | none => do
      let inner ← alter fresh change path fresh []
      return t.put key (.table fresh inner)
    | some (.value _) => none
    | some (.table kind inner) =>
      if fresh = .dotted ∧ kind = .header then none
      else do
        let inner ← alter fresh change path kind inner
        return t.put key (.table kind inner)
    | some (.tables elements) => do
      let last ← elements.getLast?
      let last ← alter fresh change path .header last
      return t.put key (.tables (elements.dropLast ++ [last]))

/-- With one more pair. A key without a path goes into the table itself, one with a path into a
dotted table only, and no key is given twice. -/
def insert (t : Table) (p : Pair) : Option Table :=
  alter .dotted (fun kind inner =>
    if (kind = .dotted) = p.path.isEmpty ∨ (inner.get? p.key).isSome then none
    else some (inner.put p.key (.value p.value)))
    p.path .header t

/-- With more pairs. -/
def insertAll (t : Table) (ps : List Pair) : Option Table :=
  ps.foldlM insert t

/-- With one more section: a header and the pairs after it. -/
def addSection (t : Table) (s : Header × List Pair) : Option Table :=
  let (h, pairs) := s
  alter .implied (fun _ parent =>
    match parent.get? h.key, h.inList with
    | none, true => do
      return parent.put h.key (.tables [← insertAll [] pairs])
    | some (.tables elements), true => do
      return parent.put h.key (.tables (elements ++ [← insertAll [] pairs]))
    | none, false => do
      return parent.put h.key (.table .header (← insertAll [] pairs))
    | some (.table .implied inner), false => do
      return parent.put h.key (.table .header (← insertAll inner pairs))
    | _, _ => none)
    h.path .header t

end Table

/-- The pairs before the first header, and the sections after it. -/
def sections : List Line → List Pair × List (Header × List Pair)
  | [] => ([], [])
  | .pair p :: ls => (p :: (sections ls).1, (sections ls).2)
  | .header h :: ls => ([], (h, (sections ls).1) :: (sections ls).2)

/-- The table that the lines of a document define. -/
def assemble? (lines : List Line) : Option Table := do
  let (pairs, rest) := sections lines
  rest.foldlM Table.addSection (← Table.insertAll [] pairs)

mutual

/-- What an entry says. -/
def Entry.node : Entry → Node
  | .value node => node
  | .table _ entries => .fields (entryNodes entries)
  | .tables elements => .items (elementNodes elements)

/-- What the entries of a table say. -/
def entryNodes : List (String × Entry) → List (String × Node)
  | [] => []
  | (key, e) :: rest => (key, e.node) :: entryNodes rest

/-- What the tables of a list say. -/
def elementNodes : List (List (String × Entry)) → List Node
  | [] => []
  | t :: rest => .fields (entryNodes t) :: elementNodes rest

end

end AnnotationQuery.Toml
