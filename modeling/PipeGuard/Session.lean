import PipeGuard.Chat.Sweep
import PipeGuard.Host.Deployment
import PipeGuard.Log.Logger

/-! A guard at work in a host. The guard has its settings, a logger, a store and a deployment; the
host has a pipeline, subscriptions, a chat and files. `step` is one thing that the user or the host
does, with possibly one part of the host busy while it is done. -/
namespace PipeGuard

structure Guard where
  settings : Settings := {}
  logger : Logger := {}
  store : Store := .memory none
  /-- The encoding for the next hook. -/
  encoding : Encoding := .marker
  deployment : Deployment := .hook ⟨false, .marker, none⟩

structure Host where
  pipeline : Pipeline := {}
  subscriptions : List Event := []
  chat : Option (List Message) := none
  /-- The chat can be got at. -/
  reachable : Bool := true
  disk : Disk := {}

structure Session where
  guard : Guard := {}
  host : Host := {}

/-- A part of the host that somebody else may be using. -/
inductive Part
  | pipeline
  | bus
  | chat
  deriving DecidableEq, Repr

inductive Action
  | useEncoding (encoding : Encoding)
  | useStore (store : Store)
  | logTo (sink : Sink)
  | useHook (connected : Bool)
  | useWatch (connected : Bool)
  | startup
  | loadSettings
  | setEnabled (enabled : Bool)
  | setDebug (debug : Bool)
  | escape (text : List Char)
  | restore (text : List Char)
  | sweep (chat : List Message)
  | onEvent (event : Event)
  | fire (event : Event)
  | run (text : List Char)
  | runPost (text : List Char)
  | forget (phase : Phase)
  | setChat (chat : Option (List Message))
  | push (messages : List Message)
  | setReachable (reachable : Bool)
  /-- Puts something at a path, or removes what is there. -/
  | setFile (path : String) (node : Option Node)

/-- What a step gives back. -/
inductive Answer
  | nothing
  | text (text : List Char) (changed : Bool)
  | piped (mid out : List Char)
  | posted (out : List Char)
  | swept (report : SweepReport) (chat : List Message)
  | reported (report : Option SweepReport)

namespace Session

/-! ### Parts of steps -/

def log (s : Session) (lines : List Line) : Session :=
  { s with guard := { s.guard with logger := s.guard.logger.writeAll lines } }

def deploy (s : Session) (deployment : Deployment) : Session :=
  { s with guard := { s.guard with deployment } }

/-- Takes new settings into effect. -/
def apply (s : Session) (settings : Settings) : Session :=
  { s with guard := { s.guard with settings, logger := s.guard.logger.setDebug settings.debug } }

/-- Keeps the settings. A store that fails is only warned about. -/
def persist (s : Session) : Session :=
  match s.guard.store.save s.guard.settings s.host.disk with
  | .ok (store, disk) =>
    { guard := { s.guard with store }, host := { s.host with disk } }
  | .error failure => s.log [.warning ("[Settings] Failed to save settings: " ++ failure.message)]

def install (s : Session) (busy : Option Part) : Session :=
  match s.guard.deployment with
  | .hook hook =>
    let r := hook.register (busy ≠ some .pipeline) s.host.pipeline
    ({ s with host := { s.host with pipeline := r.pipeline } }.deploy (.hook r.hook)).log r.lines
  | .watch watch =>
    let r := watch.attach (busy ≠ some .bus) s.host.subscriptions
    ({ s with host := { s.host with subscriptions := r.subscriptions } }.deploy
      (.watch r.watch)).log r.lines

/-- Takes a hook out of the pipeline. Subscriptions stay: their handlers look at the settings. -/
def uninstall (s : Session) (busy : Option Part) : Session :=
  match s.guard.deployment with
  | .hook hook =>
    let r := hook.unregister (busy ≠ some .pipeline) s.host.pipeline
    ({ s with host := { s.host with pipeline := r.pipeline } }.deploy (.hook r.hook)).log r.lines
  | .watch _ => s

/-- What to look for in a console. -/
def filterHint : String := "Filter console with: \"FSM:DEBUG\""

/-- The guarded names as a list. -/
def describeNames (names : List (List Char)) : String :=
  "[" ++ String.intercalate ", " (names.map fun name => String.ofList (Text.quoted name)) ++ "]"

def loadSettings (s : Session) : Session :=
  let loaded := s.guard.store.loadSettings s.host.disk
  ((s.log [loaded.2]).apply loaded.1).log
    [.debug ("[Settings] Loaded: " ++ loaded.1.describe)]

def startup (s : Session) (busy : Option Part) : Session :=
  let s := (s.log [.info "Extension loading..."]).loadSettings
  let s := if s.guard.settings.enabled then s.install busy else s
  s.log (.info s.guard.deployment.readyMessage ::
    Line.banner ["Debug mode is active", filterHint])

def setEnabled (s : Session) (busy : Option Part) (enabled : Bool) : Session :=
  let s := (s.apply { s.guard.settings with enabled }).persist
  if enabled then (s.install busy).log [.info "Extension enabled"]
  else (s.uninstall busy).log [.info "Extension disabled"]

def setDebug (s : Session) (debug : Bool) : Session :=
  let s := (s.apply { s.guard.settings with debug }).persist
  s.log (.info ("Debug mode " ++ if debug then "enabled" else "disabled") ::
    Line.banner
      ["Debug mode activated!", filterHint, "Current settings: " ++ s.guard.settings.describe,
       "Supported macros: " ++ describeNames writeNames])

/-- A handler of an event: fixes the chat, if the guard is on and the chat can be had. -/
def handle (s : Session) (busy : Option Part) (event : Event) : Session × Option SweepReport :=
  if s.guard.settings.enabled = false then
    (s.log [.debug ("[Scan] Disabled, ignoring " ++ event.name)], none)
  else if s.host.reachable = false then
    (s.log [.warning ("[Scan] No context available on " ++ event.name)], none)
  else if busy = some .chat then
    (s.log [.warning ("[Scan] Host context busy on " ++ event.name ++ ", skipping")], none)
  else
    match s.host.chat with
    | none => (s.log [.warning ("[Scan] No chat loaded on " ++ event.name)], none)
    | some chat =>
      let swept := PipeGuard.sweep s.guard.settings chat
      ({ s with host := { s.host with chat := some swept.chat } }.log
        (.debug ("[Scan] " ++ event.name ++ " triggered, " ++ toString chat.length ++
          " message(s)") :: swept.lines), some swept.report)

/-- Runs every handler subscribed to an event. -/
def fire (s : Session) (busy : Option Part) (event : Event) : Session :=
  (s.host.subscriptions.filter (· = event)).foldl (fun s event => (s.handle busy event).1) s

/-- Gives an outcome's text back, and logs its lines. -/
def give (s : Session) (outcome : Outcome) : Session × Answer :=
  (s.log outcome.lines, .text outcome.text outcome.changed)

/-! ### Steps -/

def step (s : Session) (action : Action) (busy : Option Part) : Session × Answer :=
  let settings := s.guard.settings
  let encoding := s.guard.deployment.encoding
  match action with
  | .useEncoding encoding =>
    let s := { s with guard := { s.guard with encoding } }
    match s.guard.deployment with
    | .hook hook => (s.deploy (.hook { hook with encoding }), .nothing)
    | .watch _ => (s, .nothing)
  | .useStore store => ({ s with guard := { s.guard with store } }, .nothing)
  | .logTo sink =>
    ({ s with guard := { s.guard with logger := s.guard.logger.redirect sink } }, .nothing)
  | .useHook connected => (s.deploy (.hook ⟨connected, s.guard.encoding, none⟩), .nothing)
  | .useWatch connected => (s.deploy (.watch ⟨connected, false⟩), .nothing)
  | .startup => (s.startup busy, .nothing)
  | .loadSettings => (s.loadSettings, .nothing)
  | .setEnabled enabled => (s.setEnabled busy enabled, .nothing)
  | .setDebug debug => (s.setDebug debug, .nothing)
  | .escape text => s.give (PipeGuard.escape encoding settings text)
  | .restore text => s.give (PipeGuard.restore encoding settings text)
  | .sweep chat =>
    let swept := PipeGuard.sweep settings chat
    (s.log swept.lines, .swept swept.report swept.chat)
  | .onEvent event =>
    match s.guard.deployment with
    | .hook _ =>
      (s.log [.debug ("[Scan] Hook mode ignores " ++ event.name)], .reported none)
    | .watch _ =>
      let handled := s.handle busy event
      (handled.1, .reported handled.2)
  | .fire event => (s.fire busy event, .nothing)
  | .run text =>
    let mid := runAll settings .pre s.host.pipeline.pre text
    let out := runAll settings .post s.host.pipeline.post mid.1
    (s.log (mid.2 ++ out.2), .piped mid.1 out.1)
  | .runPost text =>
    let out := runAll settings .post s.host.pipeline.post text
    (s.log out.2, .posted out.1)
  | .forget phase =>
    ({ s with host := { s.host with pipeline := s.host.pipeline.forget phase } }, .nothing)
  | .setChat chat => ({ s with host := { s.host with chat } }, .nothing)
  | .push messages =>
    ({ s with host := { s.host with chat := s.host.chat.map (· ++ messages) } }, .nothing)
  | .setReachable reachable => ({ s with host := { s.host with reachable } }, .nothing)
  | .setFile path node =>
    ({ s with host := { s.host with disk := s.host.disk.setAt path node } }, .nothing)

/-- Forgets what was captured of the log. -/
def clearLog (s : Session) : Session :=
  { s with guard := { s.guard with logger := s.guard.logger.clear } }

end Session

end PipeGuard
