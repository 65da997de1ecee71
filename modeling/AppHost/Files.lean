import AppHost.Http.Header
import AppHost.IoError

/-!
# Files

A read-only view of a file system: which absolute paths are directories and what the files hold.
A path is followed name by name; `.` stays and `..` goes up.
-/

namespace AppHost

structure Files where
  directories : List (List String) := [[]]
  contents : List (List String × Bytes) := []

namespace Files

/-- What a path leads to. -/
inductive Node where
  | directory
  | file (bytes : Bytes)
  deriving DecidableEq, Repr

def node? (fs : Files) (at_ : List String) : Option Node :=
  match fs.contents.lookup at_ with
  | some bytes => some (.file bytes)
  | none => if fs.directories.contains at_ then some .directory else none

/-- Follow `names` from the place `at_`. -/
def walk (fs : Files) (at_ : List String) : List String → Except IoError Node
  | [] => match fs.node? at_ with
    | some n => .ok n
    | none => .error .noSuchFile
  | name :: names =>
    match fs.node? at_ with
    | none => .error .noSuchFile
    | some (.file _) => .error .notADirectory
    | some .directory =>
      if name = "" ∨ name = "." then walk fs at_ names
      else if name = ".." then walk fs at_.dropLast names
      else if 255 < name.utf8ByteSize then .error .nameTooLong
      else walk fs (at_ ++ [name]) names

/-- The place that the path `p` names, seen from the directory `here`. -/
def find (fs : Files) (here : List String) (p : String) : Except IoError Node :=
  let cs := p.toList
  if cs.contains '\x00' then .error .nulInName
  else if cs = [] then .error .noSuchFile
  else if 4095 < p.utf8ByteSize then .error .nameTooLong
  else
    let names := (Text.splitAt '/' cs).map String.ofList
    fs.walk (if cs.head? = some '/' then [] else here) names

def isFile (fs : Files) (here : List String) (p : String) : Bool :=
  match fs.find here p with
  | .ok (.file _) => true
  | _ => false

def read (fs : Files) (here : List String) (p : String) : Except IoError Bytes :=
  match fs.find here p with
  | .ok (.file bytes) => .ok bytes
  | .ok .directory => .error .isADirectory
  | .error e => .error e

/-- The file as text, which it has to be. -/
def readText (fs : Files) (here : List String) (p : String) : Except IoError String := do
  match Text.ofBytes? (← fs.read here p) with
  | some s => return s
  | none => throw .notUtf8

end Files

end AppHost
