import PipeGuard.Disk.Basic
import PipeGuard.Encoding
import PipeGuard.Json.Fault

/-! What can go wrong at the edges. Filtering a text never fails; reading names, files and records
may. -/
namespace PipeGuard

inductive Failure
  /-- No encoding has this name. -/
  | encoding (name : String)
  /-- Flags were to be saved with no file to save them in. -/
  | saveWithoutFile
  /-- Calls were looked for by an empty name. -/
  | emptyName
  /-- A file that was named is not there. -/
  | missingFile (path : String)
  /-- A line of a chat holds no message. -/
  | record (line : Nat) (fault : Json.Fault)
  /-- A settings file holds a value that is no object. -/
  | settings (path : String)
  | disk (fault : DiskFault)
  | json (fault : Json.Fault)
  deriving DecidableEq, Repr

namespace Failure

def message : Failure → String
  | encoding name => "Invalid conversion \n= Invalid encoding \"" ++ name ++ "\""
  | saveWithoutFile => "Invalid command option\n= Save option needs a settings file"
  | emptyName => "Invalid macro name\n= Macro name cannot be empty"
  | missingFile path => "File,\"" ++ path ++ "\", does not exist"
  | record line fault => "Invalid chat record at line " ++ toString line ++ "\n= " ++ fault.message
  | settings path => "Invalid settings\n= \"" ++ path ++ "\" is not a json object"
  | disk fault => "Standard IO error\n= " ++ fault.message
  | json fault => "Failed json operation\n= " ++ fault.message

end Failure

/-- An encoding by name. -/
def Encoding.ofName (name : String) : Except Failure Encoding :=
  match Encoding.ofName? name with
  | some encoding => .ok encoding
  | none => .error (.encoding name)

end PipeGuard
