-- TOML values, and the rules on which tables a document may open again.
import Purity.Double

namespace Purity.Toml

/-- How a table came to be. This decides who may add to it later. -/
inductive Origin
  /-- Opened by a header of its own. -/
  | header
  /-- Named on the way to another table in a header. -/
  | implied
  /-- Named on the way in a dotted key. -/
  | dotted
  /-- Written out in braces. -/
  | inline
  deriving DecidableEq, Repr

/-- A TOML value. -/
inductive Value
  | string (value : String)
  | integer (value : Int)
  /-- A number; `none` stands for those that are not finite. -/
  | float (value : Option Double)
  /-- What has the form of a number but no value: it is beyond all ranges, or its digits are
  wrong. It does no harm where nobody reads it. -/
  | illegible
  | bool (value : Bool)
  | date
  /-- An array; headers may add to an array of tables that headers made. -/
  | array (ofTables : Bool) (items : List Value)
  | table (origin : Origin) (entries : List (String × Value))
  deriving Inhabited

/-- A table: how it came to be, and its entries. -/
structure Table where
  origin : Origin
  entries : List (String × Value)

namespace Table

/-- A table without entries. -/
def new (origin : Origin) : Table := ⟨origin, []⟩

/-- The table as a value. -/
def value (t : Table) : Value := .table t.origin t.entries

/-- The value under a key. -/
def get? (t : Table) (key : String) : Option Value := t.entries.lookup key

/-- Puts a value under a key, in place of one that is there. -/
def set (t : Table) (key : String) (v : Value) : Table :=
  { t with entries := (key, v) :: t.entries.filter (·.1 ≠ key) }

/-- Changes the table at the end of a path, making tables on the way. A dotted key may not enter a
table that has a header of its own; nobody may enter a table in braces or a value that is no
table. -/
def update (dotted : Bool) (change : Table → Option Table) : List String → Table → Option Table
  | [], t => change t
  | key :: path, t => do
    match t.get? key with
    | none =>
      let inner ← update dotted change path (new (if dotted then .dotted else .implied))
      some (t.set key inner.value)
    | some (.table origin entries) =>
      if origin = .inline || (dotted && origin = .header) then none
      else
        let inner ← update dotted change path ⟨origin, entries⟩
        some (t.set key inner.value)
    | some (.array true items) =>
      match items.getLast? with
      | some (.table origin entries) =>
        let inner ← update dotted change path ⟨origin, entries⟩
        some (t.set key (.array true (items.dropLast ++ [inner.value])))
      | _ => none
    | some _ => none

/-- Adds the entry of a dotted key. A key is given once, and a table that was opened by a header
takes entries only there. -/
def addEntry (t : Table) (path : List String) (key : String) (v : Value) : Option Table :=
  let dotted := !path.isEmpty
  update dotted (fun parent =>
    if (parent.origin = .dotted) ≠ dotted then none
    else if (parent.get? key).isSome then none
    else some (parent.set key v)) path t

end Table

/-- A table that a header has opened, with the path up to its last key. -/
structure Open where
  path : List String
  key : String
  isArray : Bool
  table : Table

/-- A document on the way: the tables that are done, and the one that entries go to. -/
structure Draft where
  root : Table
  current : Option Open

namespace Draft

/-- The empty document. -/
def empty : Draft := ⟨.new .header, none⟩

/-- Puts the open table in its place. -/
def close (d : Draft) : Option Table :=
  match d.current with
  | none => some d.root
  | some o =>
    d.root.update false (fun parent =>
      if o.isArray then
        match parent.get? o.key with
        | none => some (parent.set o.key (.array true [o.table.value]))
        | some (.array true items) => some (parent.set o.key (.array true (items ++ [o.table.value])))
        | some _ => none
      else some (parent.set o.key o.table.value)) o.path

/-- The value at a path below a table, entering arrays of tables at their last item. -/
def valueAt : List String → Value → Option Value
  | [], v => some v
  | key :: path, .table _ entries => (entries.lookup key).bind (valueAt path)
  | key :: path, .array true items =>
    match items.getLast? with
    | some (.table _ entries) => (entries.lookup key).bind (valueAt path)
    | _ => none
  | _, _ => none

/-- Opens the table of a header. Only a table that was named on the way to another one is opened
again. -/
def openTable (d : Draft) (path : List String) (key : String) (isArray : Bool) : Option Draft := do
  let root ← d.close
  let _ ← root.update false some path
  if isArray then some ⟨root, some ⟨path, key, true, .new .header⟩⟩
  else
    match valueAt (path ++ [key]) root.value with
    | none => some ⟨root, some ⟨path, key, false, .new .header⟩⟩
    | some (.table .implied entries) => some ⟨root, some ⟨path, key, false, ⟨.header, entries⟩⟩⟩
    | some _ => none

/-- Adds an entry to the open table. -/
def addEntry (d : Draft) (path : List String) (key : String) (v : Value) : Option Draft :=
  match d.current with
  | none => (d.root.addEntry path key v).map fun root => { d with root }
  | some o => (o.table.addEntry path key v).map fun table => { d with current := some { o with table } }

end Draft

end Purity.Toml
