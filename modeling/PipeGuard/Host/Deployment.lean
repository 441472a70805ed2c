import PipeGuard.Host.Event
import PipeGuard.Host.Pipeline

/-! The two ways the guard is put into a host. As a hook it adds a pair of processors to the
pipeline; as a watch it subscribes to events and fixes stored messages. A collaborator that is
missing or busy is not an error: the step is skipped with a warning and may be tried again. -/
namespace PipeGuard

/-- The handles of a registered pair. -/
structure Registration where
  pre : Nat
  post : Nat
  deriving DecidableEq, Repr

structure Hook where
  /-- The host has a pipeline to register with. -/
  connected : Bool
  encoding : Encoding
  registration : Option Registration := none
  deriving DecidableEq, Repr

structure Watch where
  /-- The host has events to subscribe to. -/
  connected : Bool
  attached : Bool := false
  deriving DecidableEq, Repr

inductive Deployment
  | hook (hook : Hook)
  | watch (watch : Watch)
  deriving DecidableEq, Repr

namespace Hook

/-- A hook and the pipeline after a step, and what to log. -/
structure Result where
  hook : Hook
  pipeline : Pipeline
  lines : List Line

/-- Adds the pair, unless it is registered. -/
def register (hook : Hook) (free : Bool) (pipeline : Pipeline) : Result :=
  match hook.registration, hook.connected, free with
  | some _, _, _ => ⟨hook, pipeline, [.debug "[PreProcessor] Already registered, skipping"]⟩
  | none, false, _ =>
    ⟨hook, pipeline, [.warning "[PreProcessor] MacroEngine not available, cannot register"]⟩
  | none, true, false =>
    ⟨hook, pipeline, [.warning "[PreProcessor] MacroEngine busy, cannot register"]⟩
  | none, true, true =>
    let withPre := pipeline.add .pre hook.encoding
    let withBoth := withPre.add .post hook.encoding
    ⟨{ hook with registration := some ⟨pipeline.nextHandle, withPre.nextHandle⟩ }, withBoth,
      [.info ("[PreProcessor] Registered with MacroEngine (priority=" ++
          toString Phase.pre.priority ++ ")"),
       .info ("[PostProcessor] Registered with MacroEngine (priority=" ++
          toString Phase.post.priority ++ ")")]⟩

/-- The line about removing one processor. -/
def removalLine (label : String) (held : Bool) : Line :=
  if held then .info ("[" ++ label ++ "] Unregistered from MacroEngine")
  else .warning ("[" ++ label ++ "] Failed to unregister (not found in MacroEngine)")

/-- Removes the pair. The handles are forgotten even if the host had dropped the processors, but
kept if the pipeline could not be reached. -/
def unregister (hook : Hook) (free : Bool) (pipeline : Pipeline) : Result :=
  match hook.registration, hook.connected, free with
  | none, _, _ => ⟨hook, pipeline, [.debug "[PreProcessor] Not registered, skipping"]⟩
  | some _, false, _ =>
    ⟨hook, pipeline, [.warning "[PreProcessor] MacroEngine not available, cannot unregister"]⟩
  | some _, true, false =>
    ⟨hook, pipeline, [.warning "[PreProcessor] MacroEngine busy, cannot unregister"]⟩
  | some registration, true, true =>
    ⟨{ hook with registration := none },
      (pipeline.remove .pre registration.pre).remove .post registration.post,
      [removalLine "PreProcessor" (pipeline.holds .pre registration.pre),
       removalLine "PostProcessor" (pipeline.holds .post registration.post)]⟩

end Hook

namespace Watch

/-- A watch and the subscriptions after a step, and what to log. -/
structure Result where
  watch : Watch
  subscriptions : List Event
  lines : List Line

/-- Subscribes to every event, once. -/
def attach (watch : Watch) (free : Bool) (subscriptions : List Event) : Result :=
  match watch.attached, watch.connected, free with
  | true, _, _ => ⟨watch, subscriptions, [.debug "[Scan] Already subscribed, skipping"]⟩
  | false, false, _ =>
    ⟨watch, subscriptions, [.warning "[Scan] Event bus not available, cannot subscribe"]⟩
  | false, true, false =>
    ⟨watch, subscriptions, [.warning "[Scan] Event bus busy, cannot subscribe"]⟩
  | false, true, true =>
    ⟨{ watch with attached := true }, subscriptions ++ Event.all,
      [.info "[Scan] Subscribed to chat events"]⟩

end Watch

namespace Deployment

def isInstalled : Deployment → Bool
  | hook h => h.registration.isSome
  | watch w => w.attached

/-- The encoding in use. A watch always writes backslashes. -/
def encoding : Deployment → Encoding
  | hook h => h.encoding
  | watch _ => .backslash

def readyMessage : Deployment → String
  | hook _ => "Extension ready! Using MacroEngine PreProcessor hook."
  | watch _ => "Extension ready! Using chat event scan."

end Deployment

end PipeGuard
