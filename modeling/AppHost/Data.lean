/-!
# Structured data

What configuration files and status reports are made of: plain values, lists of values, and
records of named values.
-/

namespace AppHost

inductive Data where
  | null
  | bool (b : Bool)
  | int (n : Int)
  /-- A number that is not written as an integer. -/
  | real (literal : String)
  | text (s : String)
  /-- A date, a time of day, or both, as it is written. -/
  | moment (literal : String)
  | list (items : List Data)
  | record (fields : List (String × Data))
  deriving Repr

namespace Data

/-- A value that may be missing. -/
def ofOption {α : Type} (f : α → Data) (x : Option α) : Data := x.elim null f

end Data

end AppHost
