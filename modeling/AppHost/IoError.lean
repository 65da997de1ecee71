import AppHost.Text.Quoted

/-!
# Input and output errors

What the operating system refuses, by its number, and the few refusals that the host makes on its
behalf before asking it.
-/

namespace AppHost

inductive IoError where
  /-- A refusal by the operating system. -/
  | os (code : Nat)
  /-- A name with a NUL in it, which no file or host has. -/
  | nulInName
  | notUtf8
  | other (text : String)
  deriving DecidableEq, Repr

namespace IoError

def notPermitted : IoError := .os 1
def noSuchFile : IoError := .os 2
def permissionDenied : IoError := .os 13
def notADirectory : IoError := .os 20
def isADirectory : IoError := .os 21
def nameTooLong : IoError := .os 36
def addressInUse : IoError := .os 98
def networkUnreachable : IoError := .os 101

/-- The kind and the text of a refusal by the operating system. -/
def osText : Nat → String × String
  | 1 => ("PermissionDenied", "Operation not permitted")
  | 2 => ("NotFound", "No such file or directory")
  | 5 => ("Uncategorized", "Input/output error")
  | 13 => ("PermissionDenied", "Permission denied")
  | 20 => ("NotADirectory", "Not a directory")
  | 21 => ("IsADirectory", "Is a directory")
  | 22 => ("InvalidInput", "Invalid argument")
  | 36 => ("InvalidFilename", "File name too long")
  | 38 => ("Unsupported", "Function not implemented")
  | 40 => ("FilesystemLoop", "Too many levels of symbolic links")
  | 97 => ("Uncategorized", "Address family not supported by protocol")
  | 98 => ("AddrInUse", "Address already in use")
  | 99 => ("AddrNotAvailable", "Cannot assign requested address")
  | 101 => ("NetworkUnreachable", "Network is unreachable")
  | 111 => ("ConnectionRefused", "Connection refused")
  | n => ("Uncategorized", s!"Unknown error {n}")

def message : IoError → String
  | os code => s!"{(osText code).2} (os error {code})"
  | nulInName => "file name contained an unexpected NUL byte"
  | notUtf8 => "stream did not contain valid UTF-8"
  | other text => text

/-- The error with its kind spelled out. -/
def inspect : IoError → String
  | os code =>
    let (kind, text) := osText code
    s!"Os \x7b code: {code}, kind: {kind}, message: {Text.quote text} \x7d"
  | nulInName =>
    s!"Error \x7b kind: InvalidInput, message: {Text.quote nulInName.message} \x7d"
  | notUtf8 => s!"Error \x7b kind: InvalidData, message: {Text.quote notUtf8.message} \x7d"
  | other text => s!"Custom \x7b kind: Other, error: {Text.quote text} \x7d"

end IoError

end AppHost
