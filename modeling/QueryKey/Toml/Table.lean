import QueryKey.Number.Binary

/-! Values and tables of TOML, with the rules by which tables are defined piece by piece. A table
may be opened by one header only; one that exists merely because something inside it was
defined is implicit and may still be opened, unless dotted keys made it.
-/

namespace QueryKey.Toml

mutual
/-- A value. Of a date or time it is only known that it is one. -/
inductive Value where
  | string (text : String)
  | integer (value : Int)
  | float (value : Number.Double)
  | boolean (value : Bool)
  | moment
  | array (items : List Value)
  | inline (table : Table)

/-- What a key stands for; of the tables of an array the last one is open. -/
inductive Item where
  | value (v : Value)
  | table (t : Table)
  | tables (earlier : List Table) (last : Table)

inductive Table where
  | mk (implicit dotted : Bool) (items : List (String × Item))
end

namespace Table

/-- A table with a header or brackets of its own. -/
def empty : Table :=
  mk false false []

def isImplicit : Table → Bool
  | mk implicit _ _ => implicit

def isDotted : Table → Bool
  | mk _ dotted _ => dotted

def items : Table → List (String × Item)
  | mk _ _ items => items

def find? (t : Table) (key : String) : Option Item :=
  t.items.lookup key

def putItem (key : String) (item : Item) : List (String × Item) → List (String × Item)
  | [] => [(key, item)]
  | (other, present) :: rest =>
      if other = key then (key, item) :: rest else (other, present) :: putItem key item rest

def put (t : Table) (key : String) (item : Item) : Table :=
  mk t.isImplicit t.isDotted (putItem key item t.items)

/-- Changes the table at the end of a path, making the tables on the way that do not exist.
Dotted keys do not lead into tables with a header of their own.
-/
def alter (dotted : Bool) (change : Table → Option Table) : List String → Table → Option Table
  | [], t => change t
  | key :: rest, t =>
      match t.find? key with
      | none =>
          (alter dotted change rest (mk true dotted [])).map fun c => t.put key (.table c)
      | some (.table c) =>
          if dotted && !c.isImplicit then none
          else (alter dotted change rest c).map fun c => t.put key (.table c)
      | some (.tables earlier last) =>
          (alter dotted change rest last).map fun c => t.put key (.tables earlier c)
      | some (.value _) => none

/-- Defines a key once. Dotted keys define it in tables that dotted keys made. -/
def assign (path : List String) (key : String) (value : Value) (t : Table) : Option Table :=
  alter true
    (fun t =>
      if t.isDotted == path.isEmpty || (t.find? key).isSome then none
      else some (t.put key (.value value)))
    path t

/-- Opens a table by a header. -/
def openTable (path : List String) (key : String) (t : Table) : Option Table :=
  alter false
    (fun parent =>
      match parent.find? key with
      | none => some (parent.put key (.table empty))
      | some (.table t) =>
          if t.isImplicit && !t.isDotted then
            some (parent.put key (.table (mk false false t.items)))
          else
            none
      | some _ => none)
    path t

/-- Opens one more table of an array by a header. -/
def openNext (path : List String) (key : String) (t : Table) : Option Table :=
  alter false
    (fun parent =>
      match parent.find? key with
      | none => some (parent.put key (.tables [] empty))
      | some (.tables earlier last) =>
          some (parent.put key (.tables (earlier ++ [last]) empty))
      | some _ => none)
    path t

end Table

/-- A line of a document: a key with its value, or a header. The last key of a path stands
by itself.
-/
inductive Statement where
  | assign (path : List String) (key : String) (value : Value)
  | table (path : List String) (key : String)
  | next (path : List String) (key : String)

/-- The tables so far, and the path of the one that is open. -/
structure Definitions where
  root : Table := .empty
  current : List String := []

namespace Definitions

def apply (d : Definitions) : Statement → Option Definitions
  | .assign path key value =>
      (d.root.alter false (Table.assign path key value) d.current).map fun root =>
        { d with root := root }
  | .table path key => (d.root.openTable path key).map fun root => ⟨root, path ++ [key]⟩
  | .next path key => (d.root.openNext path key).map fun root => ⟨root, path ++ [key]⟩

end Definitions

/-- The root table that statements define. -/
def Table.ofStatements? (statements : List Statement) : Option Table :=
  (statements.foldlM Definitions.apply {}).map Definitions.root

end QueryKey.Toml
