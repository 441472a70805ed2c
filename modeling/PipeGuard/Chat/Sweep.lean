import PipeGuard.Chat.Message
import PipeGuard.Escape

/-! Fixing stored messages in place. Nothing restores a stored body later, so a sweep always writes
backslashes. It touches bodies and swipes only, and reports which messages it changed. -/
namespace PipeGuard

/-- What a sweep did. -/
structure SweepReport where
  /-- Messages looked at. -/
  messages : Nat := 0
  /-- The messages changed, by their index. -/
  changed : List Nat := []
  /-- Bodies and swipes changed. -/
  fields : Nat := 0
  deriving DecidableEq, Repr

/-- A value after a sweep, how many of its texts changed, and what to log. -/
structure Swept (α : Type) where
  value : α
  fields : Nat
  lines : List Line

namespace Swept

def ofText (settings : Settings) (s : String) : Swept String :=
  let outcome := escape .backslash settings s.toList
  if outcome.changed then ⟨String.ofList outcome.text, 1, outcome.lines⟩
  else ⟨s, 0, outcome.lines⟩

def ofBody (settings : Settings) (index : Nat) : Option String → Swept (Option String)
  | some s =>
    let swept := ofText settings s
    ⟨some swept.value, swept.fields, swept.lines⟩
  | none =>
    ⟨none, 0, [.debug ("[Scan] Message " ++ toString index ++ " has no text, skipping")]⟩

def ofTexts (settings : Settings) (texts : List String) : Swept (List String) :=
  let swept := texts.map (ofText settings)
  ⟨swept.map (·.value), (swept.map (·.fields)).foldr (· + ·) 0, swept.flatMap (·.lines)⟩

def ofSwipes (settings : Settings) : Option (List String) → Swept (Option (List String))
  | some texts =>
    let swept := ofTexts settings texts
    ⟨some swept.value, swept.fields, swept.lines⟩
  | none => ⟨none, 0, []⟩

def ofMessage (settings : Settings) (index : Nat) (message : Message) : Swept Message :=
  let body := ofBody settings index message.body
  let swipes := ofSwipes settings message.swipes
  ⟨{ message with body := body.value, swipes := swipes.value }, body.fields + swipes.fields,
    body.lines ++ swipes.lines⟩

/-- The messages of a chat, the first one having the given index. -/
def ofChat (settings : Settings) (index : Nat) : List Message → List (Swept Message)
  | [] => []
  | message :: rest => ofMessage settings index message :: ofChat settings (index + 1) rest

end Swept

/-- The indices of the messages that changed. -/
def changedFrom (index : Nat) : List (Swept Message) → List Nat
  | [] => []
  | swept :: rest =>
    if swept.fields = 0 then changedFrom (index + 1) rest
    else index :: changedFrom (index + 1) rest

def reportOf (swept : List (Swept Message)) : SweepReport :=
  ⟨swept.length, changedFrom 0 swept, (swept.map (·.fields)).foldr (· + ·) 0⟩

/-- The line that closes a sweep. -/
def SweepReport.line (report : SweepReport) : Line :=
  if report.fields = 0 then .debug "[Scan] Nothing to fix"
  else .timing ("[Scan] Fixed " ++ toString report.fields ++ " field(s) in " ++
    toString report.changed.length ++ " message(s) in ")

/-- A chat after a sweep. -/
structure Sweep where
  chat : List Message
  report : SweepReport
  lines : List Line

def sweep (settings : Settings) (chat : List Message) : Sweep :=
  if settings.enabled then
    let swept := Swept.ofChat settings 0 chat
    let report := reportOf swept
    ⟨swept.map (·.value), report, swept.flatMap (·.lines) ++ [report.line]⟩
  else ⟨chat, {}, [.debug "[Scan] Disabled, skipping"]⟩

end PipeGuard
