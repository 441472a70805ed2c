import PipeGuard.Disk.Path
import PipeGuard.Failure
import PipeGuard.Log.Line
import PipeGuard.Settings.Codec
import PipeGuard.Text.Blank

/-! Where flags are kept. A store is a value in memory or a JSON file whose object holds one member
for every module of the host; only this module's member is read and written. A file that cannot be
read as an object is never written over. -/
namespace PipeGuard

/-- The member that holds this module's flags. -/
def moduleName : String := "third-party/SillyTavern-Fix-Setvar-Macro"

inductive Store
  | memory (value : Option Json)
  | file (path : String)
  deriving Repr

namespace Store

/-- The object that a settings file holds; a missing or blank file holds none. -/
def readRoot (path : String) (disk : Disk) : Except Failure (Option Members) :=
  if disk.exists? path = false then .ok none
  else
    match disk.readText path with
    | .error fault => .error (.disk fault)
    | .ok text =>
      if Text.allBlank text.toList then .ok none
      else
        match Json.ofText text with
        | .error fault => .error (.json fault)
        | .ok (.object members) => .ok (some members)
        | .ok _ => .error (.settings path)

/-- The value that was kept last, if any. -/
def load (store : Store) (disk : Disk) : Except Failure (Option Json) :=
  match store with
  | memory value => .ok value
  | file path => (readRoot path disk).map fun root => root.bind (Members.get? moduleName)

/-- The text of a settings file that keeps `settings` among other members. -/
def fileText (root : Members) (settings : Settings) : String :=
  (Json.object (root.put moduleName settings.toJson)).toPretty

/-- Keeps flags. -/
def save (store : Store) (settings : Settings) (disk : Disk) : Except Failure (Store × Disk) :=
  match store with
  | memory _ => .ok (.memory (some settings.toJson), disk)
  | file path =>
    match readRoot path disk with
    | .error failure => .error failure
    | .ok root =>
      match disk.writeText path (fileText (root.getD []) settings) with
      | .error fault => .error (.disk fault)
      | .ok disk => .ok (.file path, disk)

/-- The flags that a store holds, on top of the defaults, and what to log about them. A store that
fails gives the defaults. -/
def loadSettings (store : Store) (disk : Disk) : Settings × Line :=
  match store.load disk with
  | .ok (some value) =>
    (Settings.merge {} value,
      .debug ("[Settings] Merged " ++ toString (Settings.mergeCount value) ++ " persisted key(s)"))
  | .ok none => ({}, .debug "[Settings] Nothing persisted, using defaults")
  | .error failure =>
    ({}, .warning ("[Settings] Failed to load, using defaults: " ++ failure.message))

end Store

end PipeGuard
