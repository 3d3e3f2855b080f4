/-!
# Tables in TOML

A document is put together from its statements one by one. A table may be opened by a header once; a
table that only came about on the way to another one may still be opened, and dotted keys may add to
what dotted keys have made. Nothing can be added to an inline table or an array.
-/
namespace ClassAtlas.Toml

/-- How a table came about. -/
inductive Origin where
  | header
  /-- On the way to the table of a header. -/
  | implied
  /-- By a dotted key. -/
  | dotted
  | inline
  deriving DecidableEq, Repr

inductive Value where
  | string (text : String)
  | bool (value : Bool)
  /-- A number, a date or a time. -/
  | scalar
  | array (items : List Value)
  | table (origin : Origin) (entries : List (String × Value))
  /-- Tables that share a header in double brackets. -/
  | tables (elements : List (List (String × Value)))
  deriving Repr

abbrev Entries := List (String × Value)

/-- A key with the keys of the tables it is in. -/
structure Path where
  outer : List String
  key : String
  deriving DecidableEq, Repr

inductive Statement where
  /-- `[path]` -/
  | table (path : Path)
  /-- `[[path]]` -/
  | element (path : Path)
  /-- `path = value` -/
  | entry (path : Path) (value : Value)
  deriving Repr

/-- Sets the value of a key that is already there. -/
def replaceEntry (entries : Entries) (key : String) (value : Value) : Entries :=
  entries.map fun entry => if entry.1 == key then (key, value) else entry

/-- Changes the table at a path, making the tables on the way that are missing. -/
def changeAt (byDottedKey : Bool) (change : Origin → Entries → Option Entries) :
    List String → Origin → Entries → Option Entries
  | [], origin, entries => change origin entries
  | key :: path, _, entries =>
    match entries.lookup key with
    | none =>
      let origin := if byDottedKey then Origin.dotted else Origin.implied
      (changeAt byDottedKey change path origin []).map fun inner =>
        entries ++ [(key, .table origin inner)]
    | some (.table origin inner) =>
      if origin = .inline ∨ (byDottedKey = true ∧ origin = .header) then none
      else
        (changeAt byDottedKey change path origin inner).map fun inner =>
          replaceEntry entries key (.table origin inner)
    | some (.tables elements) =>
      match elements.getLast? with
      | none => none
      | some last =>
        (changeAt byDottedKey change path .header last).map fun last =>
          replaceEntry entries key (.tables (elements.dropLast ++ [last]))
    | some _ => none

/-- Adds an entry under a key that may be dotted. -/
def addEntry (path : Path) (value : Value) (origin : Origin) (entries : Entries) : Option Entries :=
  changeAt true (fun origin entries =>
    if (origin = .dotted) ↔ path.outer = [] then none
    else if (entries.lookup path.key).isSome then none
    else some (entries ++ [(path.key, value)])) path.outer origin entries

/-- Opens a table in the table around it. -/
def openTable (key : String) (entries : Entries) : Option Entries :=
  match entries.lookup key with
  | none => some (entries ++ [(key, .table .header [])])
  | some (.table .implied inner) => some (replaceEntry entries key (.table .header inner))
  | some _ => none

/-- Opens a further element of an array of tables in the table around it. -/
def openElement (key : String) (entries : Entries) : Option Entries :=
  match entries.lookup key with
  | none => some (entries ++ [(key, .tables [[]])])
  | some (.tables elements) => some (replaceEntry entries key (.tables (elements ++ [[]])))
  | some _ => none

/-- What a document says up to some point: its entries and the path of the open table. -/
structure Progress where
  root : Entries
  current : List String
  deriving Repr

/-- Takes one more statement. -/
def Progress.add (p : Progress) : Statement → Option Progress
  | .table path =>
    (changeAt false (fun _ entries => openTable path.key entries) path.outer .header p.root).map
      fun root => ⟨root, path.outer ++ [path.key]⟩
  | .element path =>
    (changeAt false (fun _ entries => openElement path.key entries) path.outer .header p.root).map
      fun root => ⟨root, path.outer ++ [path.key]⟩
  | .entry path value =>
    (changeAt false (addEntry path value) p.current .header p.root).map fun root => { p with root }

/-- The entries of a document, unless its statements contradict each other. -/
def assemble (statements : List Statement) : Option Entries :=
  (statements.foldlM Progress.add ⟨[], []⟩).map Progress.root

/-- The entries of an inline table. -/
def assembleInline (members : List (Path × Value)) : Option Entries :=
  members.foldlM (fun entries member => addEntry member.1 member.2 .inline entries) []

end ClassAtlas.Toml
