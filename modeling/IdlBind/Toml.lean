set_option autoImplicit false

/-! # TOML documents

A document is a table of named values. Tables are built up statement by statement; how a table came
about decides how it may still grow. -/

namespace IdlBind.Toml

/-- A value on the right of an equals sign. Floats and times are kept as they are written. -/
inductive Value where
  | string (text : String)
  | integer (value : Int)
  | float (text : String)
  | boolean (value : Bool)
  | time (text : String)
  | array (items : List Value)
  | table (members : List (String × Value))
  deriving Repr, Inhabited

/-- How a table came about: by its own header or as the document itself; on the way to a header
    behind it; or on the way to a value with a dotted key. -/
inductive Origin where
  | header
  | implied
  | dotted
  deriving DecidableEq, Repr

mutual

/-- What a key names. The tables of an array are held latest first. -/
inductive Item where
  | value (v : Value)
  | table (t : Table)
  | tables (latest : Table) (others : List Table)

/-- A table that can still grow. -/
inductive Table where
  | mk (origin : Origin) (members : List (String × Item))

end

namespace Table

/-- How the table came about. -/
def origin : Table → Origin
  | .mk o _ => o

/-- The members of a table in order. -/
def members : Table → List (String × Item)
  | .mk _ ms => ms

/-- A document without statements. -/
def empty : Table := .mk .header []

/-- What a key names. -/
def get? (t : Table) (key : String) : Option Item := (t.members.find? (·.1 = key)).map (·.2)

/-- The table with another item under a key: in the place of the old one, or at the end. -/
def put (t : Table) (key : String) (item : Item) : Table :=
  if (t.get? key).isSome then
    .mk t.origin (t.members.map fun m => if m.1 = key then (key, item) else m)
  else .mk t.origin (t.members ++ [(key, item)])

/-- Changes the table at the end of a path. Tables that are missing on the way come about as `made`;
    of an array of tables the latest counts. A dotted key may not pass a table with a header of its
    own, and nothing passes a value. -/
def changeAt (made : Origin) (change : Table → Option Table) : List String → Table → Option Table
  | [], t => change t
  | key :: path, t =>
    match t.get? key with
    | none => do
      let inner ← changeAt made change path (.mk made [])
      pure (t.put key (.table inner))
    | some (.value _) => none
    | some (.table inner) =>
      if made = .dotted && inner.origin = .header then none
      else do
        let inner ← changeAt made change path inner
        pure (t.put key (.table inner))
    | some (.tables latest others) => do
      let latest ← changeAt made change path latest
      pure (t.put key (.tables latest others))

/-- Adds a value under a key, which must be new. -/
def add (key : String) (v : Value) (t : Table) : Option Table :=
  if (t.get? key).isSome then none else some (t.put key (.value v))

/-- Adds a value under a dotted key. Only tables that dotted keys have made take a value this way,
    and they take none in another. -/
def addDotted (path : List String) (key : String) (v : Value) (t : Table) : Option Table :=
  changeAt .dotted (fun inner =>
    if (inner.origin = .dotted) = path.isEmpty then none else add key v inner) path t

/-- Opens the table that a header names. It must be new, or known only on the way to others. -/
def openTable (key : String) (t : Table) : Option Table :=
  match t.get? key with
  | none => some (t.put key (.table (.mk .header [])))
  | some (.table inner) =>
    if inner.origin = .implied then some (t.put key (.table (.mk .header inner.members))) else none
  | some _ => none

/-- Opens another table in the array that a header names. -/
def openElement (key : String) (t : Table) : Option Table :=
  match t.get? key with
  | none => some (t.put key (.tables (.mk .header []) []))
  | some (.tables latest others) => some (t.put key (.tables (.mk .header []) (latest :: others)))
  | some _ => none

end Table

/-! ## Statements -/

/-- A statement: a value under a dotted key, given as path and last key; or the header of a table or
    of an element of an array of tables. -/
inductive Statement where
  | value (path : List String) (key : String) (v : Value)
  | table (path : List String) (key : String)
  | element (path : List String) (key : String)
  deriving Repr

/-- A document while its statements are applied, with the path of the table that is open. -/
structure Building where
  root : Table
  opened : List String

/-- Applies one statement. -/
def Building.apply (b : Building) : Statement → Option Building
  | .value path key v => do
    let root ← b.root.changeAt .implied (Table.addDotted path key v) b.opened
    pure ⟨root, b.opened⟩
  | .table path key => do
    let root ← b.root.changeAt .implied (Table.openTable key) path
    pure ⟨root, path ++ [key]⟩
  | .element path key => do
    let root ← b.root.changeAt .implied (Table.openElement key) path
    pure ⟨root, path ++ [key]⟩

/-- The document that statements describe, unless two of them clash. -/
def build (statements : List Statement) : Option Table :=
  (statements.foldlM Building.apply ⟨.empty, []⟩).map Building.root

/-- Adds a value under a dotted key to the members of an inline table. -/
def addInline (t : Table) (member : List String × String × Value) : Option Table :=
  Table.addDotted member.1 member.2.1 member.2.2 t

mutual

/-- The value of an item. -/
def Item.toValue : Item → Value
  | .value v => v
  | .table t => t.toValue
  | .tables latest others => .array ((latest.toValue :: Table.listToValues others).reverse)

/-- The value of a table. -/
def Table.toValue : Table → Value
  | .mk _ members => .table (Item.membersToValues members)

/-- The values of tables. -/
def Table.listToValues : List Table → List Value
  | [] => []
  | t :: ts => t.toValue :: Table.listToValues ts

/-- The values of members. -/
def Item.membersToValues : List (String × Item) → List (String × Value)
  | [] => []
  | (key, item) :: members => (key, item.toValue) :: Item.membersToValues members

end

end IdlBind.Toml
