import AppHost.Data

/-!
# Tables under construction

A document defines tables piece by piece: headers open them, dotted keys make them on the way, and
an array of tables grows by one at each of its headers. How a table came about says what may still
be added to it: a header may open a table that was only passed through so far, but never one that
has had its header or that dotted keys have made; and dotted keys add to their own tables only.
-/

namespace AppHost.Toml

/-- How a table came about. -/
inductive TableKind where
  /-- It has had its own header, or is written inline. -/
  | explicit
  /-- A longer header has passed through it. -/
  | passed
  /-- A dotted key has made it. -/
  | dotted
  deriving DecidableEq, Repr

inductive Item where
  | value (d : Data)
  | table (kind : TableKind) (items : List (String × Item))
  /-- An array of tables: those that are complete, and the last one. -/
  | tables (earlier : List (List (String × Item))) (last : List (String × Item))

abbrev Items := List (String × Item)

namespace Items

def set (items : Items) (name : String) (item : Item) : Items :=
  items.map fun e => if e.1 = name then (name, item) else e

/-- Change the table that `path` leads to. Tables that are not there yet are made on the way; a
path of a dotted key stops at tables that are complete. -/
def change (dotted : Bool) (f : TableKind → Items → Option Items) :
    List String → TableKind → Items → Option Items
  | [], kind, items => f kind items
  | name :: path, _, items =>
    let new := if dotted then TableKind.dotted else .passed
    match items.lookup name with
    | none =>
      (change dotted f path new []).map fun sub => items ++ [(name, .table new sub)]
    | some (.value _) => none
    | some (.tables earlier last) =>
      (change dotted f path .explicit last).map fun last =>
        items.set name (.tables earlier last)
    | some (.table kind sub) =>
      if dotted && kind = .explicit then none
      else (change dotted f path kind sub).map fun sub => items.set name (.table kind sub)

/-- Add a value that has no name yet. Behind a dotted key the table has to be one that dotted keys
have made. -/
def addValue (isDotted : Bool) (name : String) (d : Data) (kind : TableKind) (items : Items) :
    Option Items :=
  if isDotted && kind ≠ .dotted then none
  else if (items.lookup name).isSome then none
  else some (items ++ [(name, .value d)])

/-- Define the value of a key, given by its parts. -/
def define (key : List String) (d : Data) (kind : TableKind) (items : Items) : Option Items :=
  let path := key.dropLast
  match key.getLast? with
  | none => none
  | some name => change true (addValue (!path.isEmpty) name d) path kind items

/-- Open the table `name`, which must be new or only passed through. -/
def openTable (name : String) (_ : TableKind) (items : Items) : Option Items :=
  match items.lookup name with
  | none => some (items ++ [(name, .table .explicit [])])
  | some (.table .passed sub) => some (items.set name (.table .explicit sub))
  | some _ => none

/-- Begin the next table of the array `name`, which may be new. -/
def openElement (name : String) (_ : TableKind) (items : Items) : Option Items :=
  match items.lookup name with
  | none => some (items ++ [(name, .tables [] [])])
  | some (.tables earlier last) => some (items.set name (.tables (earlier ++ [last]) []))
  | some _ => none

end Items

mutual

/-- The finished value. -/
def Item.toData : Item → Data
  | .value d => d
  | .table _ items => .record (recordOf items)
  | .tables earlier last => .list (recordsOf earlier ++ [.record (recordOf last)])

def recordOf : List (String × Item) → List (String × Data)
  | [] => []
  | (name, item) :: items => (name, item.toData) :: recordOf items

def recordsOf : List (List (String × Item)) → List Data
  | [] => []
  | items :: rest => .record (recordOf items) :: recordsOf rest

end

end AppHost.Toml
