import PeerMesh.Toml.Moment

/-! Values of a TOML document, and how a document is put together from its assignments and
headers. A key may go through tables that nothing has named yet; what may be added to such a table
later depends on how it came to be. -/

namespace PeerMesh.Toml
set_option autoImplicit false

/-- How a table came to be. -/
inductive Origin
  /-- A header went through it. -/
  | implied
  /-- A dotted key went through it. -/
  | dotted
  /-- It has a header of its own, or is the document. -/
  | defined
  /-- It stands in braces, and nothing can be added to it. -/
  | inline
  deriving DecidableEq

/-- A value. Numbers with a fraction are not among them. -/
inductive Value
  | text (s : String)
  | integer (n : Int)
  | boolean (b : Bool)
  | moment (m : Moment)
  | array (items : List Value)
  | table (origin : Origin) (entries : List (String × Value))
  /-- The tables under headers in double brackets, newest first. -/
  | tables (rows : List Value)

structure Key where
  path : List String
  last : String
  deriving DecidableEq

namespace Value

def empty : Value := table .defined []

def replace (key : String) (value : Value) (entries : List (String × Value)) :
    List (String × Value) :=
  entries.map fun entry => if entry.1 = key then (key, value) else entry

/-- Whether a path of this origin goes through a table of the given one: a header goes through all
but inline tables, a dotted key only through tables without a header. -/
def passes (way : Origin) (table : Origin) : Bool :=
  match way with
  | .dotted => table = .implied || table = .dotted
  | _ => table ≠ .inline

/-- Edits the value at the end of a path. The tables on the way come into being as needed, and of
an array of tables the newest is meant. -/
def editAt (way : Origin) : List String → (Value → Option Value) → Value → Option Value
  | [], edit, v => edit v
  | key :: path, edit, table origin entries =>
    match entries.lookup key with
    | none => do
      let child ← editAt way path edit (table way [])
      return table origin (entries ++ [(key, child)])
    | some (table inner more) => do
      if !passes way inner then none
      let child ← editAt way path edit (table inner more)
      return table origin (replace key child entries)
    | some (tables (newest :: older)) => do
      let child ← editAt way path edit newest
      return table origin (replace key (tables (child :: older)) entries)
    | some _ => none
  | _ :: _, _, _ => none

/-- Gives a table a new entry. A dotted key adds only to a table that dotted keys made. -/
def add (isDotted : Bool) (key : String) (value : Value) : Value → Option Value
  | table origin entries =>
    if (entries.lookup key).isSome || decide (origin = .dotted) != isDotted then none
    else some (table origin (entries ++ [(key, value)]))
  | _ => none

def assign (key : Key) (value : Value) : Value → Option Value :=
  editAt .dotted key.path (add (!key.path.isEmpty) key.last value)

/-- Opens the table of a header. Only a table that was merely implied so far may be there. -/
def openTable (key : String) : Value → Option Value
  | table origin entries =>
    match entries.lookup key with
    | none => some (table origin (entries ++ [(key, empty)]))
    | some (table .implied more) => some (table origin (replace key (table .defined more) entries))
    | some _ => none
  | _ => none

def openRow (key : String) : Value → Option Value
  | table origin entries =>
    match entries.lookup key with
    | none => some (table origin (entries ++ [(key, tables [empty])]))
    | some (tables rows) => some (table origin (replace key (tables (empty :: rows)) entries))
    | some _ => none
  | _ => none

def ofPairs? (pairs : List (Key × Value)) : Option Value := do
  match ← pairs.foldlM (fun t (key, value) => assign key value t) empty with
  | table _ entries => some (table .inline entries)
  | _ => none

end Value

inductive Statement
  | assign (key : Key) (value : Value)
  /-- A header: the assignments that follow are counted from its table. -/
  | header (key : Key)
  /-- A header in double brackets. -/
  | row (key : Key)

structure Draft where
  root : Value
  /-- Where assignments are counted from. -/
  here : List String

namespace Draft

def add (d : Draft) : Statement → Option Draft
  | .assign key value => do
    return { d with root := ← d.root.editAt .implied d.here (Value.assign key value) }
  | .header key => do
    return ⟨← d.root.editAt .implied key.path (Value.openTable key.last), key.path ++ [key.last]⟩
  | .row key => do
    return ⟨← d.root.editAt .implied key.path (Value.openRow key.last), key.path ++ [key.last]⟩

def ofStatements? (statements : List Statement) : Option Value :=
  (statements.foldlM add ⟨.empty, []⟩).map (·.root)

end Draft
end PeerMesh.Toml
