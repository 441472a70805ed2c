import PipeGuard.Json.Printer
import PipeGuard.Json.Skip
import PipeGuard.Json.Value
import PipeGuard.Settings.Basic

/-! Flags as JSON. They are read strictly from a text, as an object or as an array in the order of
the fields, and leniently from a value: a flag that is missing keeps its value in both, and one that
is no boolean is a fault in the first and is passed by in the second. -/
namespace PipeGuard.Settings

open Json (Cursor Fault Read)

/-! ### Strictly, from a text -/

/-- The flags mentioned so far. -/
structure Given where
  enabled : Option Bool := none
  debug : Option Bool := none
  deriving DecidableEq, Repr

/-- Flags that were not mentioned have their default. -/
def Given.settings (given : Given) : Settings :=
  ⟨given.enabled.getD true, given.debug.getD false⟩

/-- Reads the value of a flag that is mentioned for the first time. -/
def readFlag (name : String) (known : Option Bool) (c : Cursor) : Read Bool :=
  match known with
  | some _ => .error (Json.Read.repeated name c)
  | none =>
    match Json.Read.colon c with
    | .error fault => .error fault
    | .ok c => Json.Read.boolean c

/-- Reads on from the end of a key. -/
def readMember (given : Given) (key : String) (c : Cursor) : Read Given :=
  if key = "enabled" then
    (readFlag key given.enabled c).map fun (b, c) => ({ given with enabled := some b }, c)
  else if key = "debug" then
    (readFlag key given.debug c).map fun (b, c) => ({ given with debug := some b }, c)
  else
    match Json.Read.colon c with
    | .error fault => .error fault
    | .ok c => (Json.Skip.value c).map fun c => (given, c)

/-- Reads a flag of an array, if the array goes on. -/
def readItem (first : Bool) (c : Cursor) : Read (Option Bool) :=
  match Json.Read.nextItem first c with
  | .error fault => .error fault
  | .ok (false, c) => .ok (none, c)
  | .ok (true, c) => (Json.Read.boolean c).map fun (b, c) => (some b, c)

/-- Reads an array of at most two flags, after its bracket. -/
def readArray (c : Cursor) : Except Fault (Given × Cursor) :=
  match readItem true c with
  | .error fault => .error fault
  | .ok (none, c) => (Json.Read.closeArray c).map fun c => ({}, c)
  | .ok (some enabled, c) =>
    match readItem false c with
    | .error fault => .error fault
    | .ok (debug, c) => (Json.Read.closeArray c).map fun c => (⟨some enabled, debug⟩, c)

def read (c : Cursor) : Read Settings :=
  let c := c.skipGap
  match c.rest with
  | '[' :: _ => (readArray c.next).map fun (given, c) => (given.settings, c)
  | '\x7b' :: _ =>
    (Json.Read.members readMember {} c.next).map fun (given, c) => (given.settings, c)
  | _ => .error (Json.Read.mismatch .settings c)

/-- The flags that a text holds. -/
def ofText (text : String) : Except Fault Settings := Json.readAll read text

/-! ### Leniently, from a value -/

/-- A flag that a value sets. -/
def flag? (value : Json) (key : String) : Option Bool :=
  (value.members?.bind (Members.get? key)).bind Json.asBool?

/-- The settings with the flags that a value sets. -/
def merge (settings : Settings) (value : Json) : Settings :=
  ⟨(flag? value "enabled").getD settings.enabled, (flag? value "debug").getD settings.debug⟩

/-- How many flags a value sets. -/
def mergeCount (value : Json) : Nat :=
  (flag? value "enabled").toList.length + (flag? value "debug").toList.length

/-! ### As a value -/

def toJson (settings : Settings) : Json :=
  .object [("enabled", .boolean settings.enabled), ("debug", .boolean settings.debug)]

theorem merge_toJson (settings other : Settings) : other.merge settings.toJson = settings := rfl

end PipeGuard.Settings
