import PipeGuard.Pipe
import PipeGuard.Text.Slice

/-! Arguments edited in their bytes. A scan goes over the bytes once, counts the backslashes right
before the current one, and drafts the new arguments from slices of the old. A backslash and a pipe
are one byte each, and no byte of any other character looks like them. -/
namespace PipeGuard.Pipe

/-- What is done about the pipes of a text. -/
structure Handling where
  /-- Pipes are handled after a run of backslashes of this parity. -/
  parity : Nat
  /-- What is spliced for the pipe at a byte, if there is enough before it. -/
  splice? : Nat → Option Text.Splice

namespace Handling

/-- Writes the token for a pipe. -/
def escaping (encoding : Encoding) : Handling :=
  ⟨0, fun index => some ⟨index, index + 1, String.ofList encoding.token⟩⟩

/-- Leaves out the byte before a pipe. -/
def unescaping : Handling :=
  ⟨1, fun
    | 0 => none
    | index + 1 => some ⟨index, index + 1, ""⟩⟩

end Handling

structure Scan where
  draft : Text.Draft := {}
  /-- The length of the run of backslashes that ends here. -/
  backslashes : Nat := 0
  /-- How many pipes were handled. -/
  pipes : Nat := 0

/-- One byte further. There is no further if a slice cannot be taken. -/
def Scan.next? (handling : Handling) (args : String) (scan : Scan) (index : Nat) (byte : UInt8) :
    Option Scan :=
  if byte = '\\'.toUInt8 then some { scan with backslashes := scan.backslashes + 1 }
  else if byte = '|'.toUInt8 ∧ scan.backslashes % 2 = handling.parity then
    match handling.splice? index with
    | none => none
    | some splice => (scan.draft.splice? args splice).map fun draft => ⟨draft, 0, scan.pipes + 1⟩
  else some { scan with backslashes := 0 }

/-- Scans bytes, the first of which stands at `index`. -/
def scanFrom (handling : Handling) (args : String) : Nat → List UInt8 → Scan → Option Scan
  | _, [], scan => some scan
  | index, byte :: rest, scan =>
    match scan.next? handling args index byte with
    | none => none
    | some scan => scanFrom handling args (index + 1) rest scan

/-- Edits arguments in their bytes. The edit is `none` when there is nothing to do; there is no edit
if a slice could not be taken on the way. -/
def editBytes (handling : Handling) (args : String) : Option (Option Edited) :=
  match scanFrom handling args 0 args.toByteArray.data.toList {} with
  | none => none
  | some scan =>
    (scan.draft.finish? args).map fun text? => text?.map fun text => ⟨text.toList, scan.pipes⟩

end PipeGuard.Pipe
