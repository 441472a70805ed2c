import PipeGuard.Chat.Transcript
import PipeGuard.Command.Argument
import PipeGuard.Log.Logger
import PipeGuard.Restore
import PipeGuard.Settings.Store

/-! What a command line does, as a function from the files and the standard input it finds to the
files it leaves and the text it prints. Output is written once, at the end, so a run that fails has
printed nothing; settings are saved before anything else. -/
namespace PipeGuard.Command

def aboutText : String :=
  "Fsv escapes pipes inside setvar style macro calls so macro engines don't split variable values."

def usageText : String :=
  "Usage: fsv <FILE> -o <OUT_FILE>\n" ++
  "    echo <STDIN_TEXT> | fsv --encoding backslash\n" ++
  "    echo <STDIN_TEXT> | fsv --restore\n" ++
  "    fsv --chat <CHAT.jsonl> --settings <SETTINGS.json>"

def helpText : String :=
  aboutText ++ "\n\n" ++ usageText ++ "\n\n" ++
  "Arguments:\n" ++
  "  [INPUT]...  INPUT source to execute processing\n" ++
  "\n" ++
  "Options:\n" ++
  "  -L, --literal              Don't interpret input source as file\n" ++
  "  -r, --restore              Restore pipes instead of escaping them\n" ++
  "      --encoding <ENCODING>  Pipe encoding (backslash|marker) [default: marker]\n" ++
  "      --chat <FILE>          Fix every message of a jsonl chat file in place\n" ++
  "  -o, --out <FILE>           Save processed output to the file\n" ++
  "      --settings <FILE>      Read flags from a json settings file\n" ++
  "      --save                 Write resulting flags back into the settings file\n" ++
  "      --disable              Disable the filter, inputs pass through untouched\n" ++
  "  -d, --debug                Print debug diagnostics\n" ++
  "  -s, --silent               Suppress every log\n" ++
  "  -h, --help                 Print help\n" ++
  "  -V, --version              Print version\n"

def versionText : String := "fsv 0.1.0\n"

/-! ### The world of a run -/

/-- What a run can see and change. -/
structure World where
  disk : Disk := {}
  /-- All of the standard input. -/
  stdin : Content := .text ""
  stdout : String := ""
  logger : Logger := {}

namespace World

def log (w : World) (lines : List Line) : World := { w with logger := w.logger.writeAll lines }

end World

/-- A step of a run: the world it leaves, and the failure that ended it, if one did. -/
abbrev Act (α : Type) := World → Except Failure α × World

/-! ### Settings -/

/-- The settings that the options ask for, on top of the ones read. -/
def override (request : Request) (settings : Settings) : Settings :=
  ⟨settings.enabled && !request.has .disable, settings.debug || request.has .debug⟩

/-- Reads the settings file. One that is about to be written over must be sound. -/
def readSettings (request : Request) : Act Settings := fun w =>
  match request.settings with
  | none => (.ok {}, w)
  | some path =>
    let loaded := Store.loadSettings (.file path) w.disk
    let done : Except Failure Settings × World := (.ok loaded.1, w.log [loaded.2])
    if request.has .save then
      match Store.load (.file path) w.disk with
      | .error failure => (.error failure, w)
      | .ok _ => done
    else done

/-- Saves the settings, if that was asked for. -/
def saveSettings (request : Request) (settings : Settings) : Act Unit := fun w =>
  if request.has .save then
    match request.settings with
    | none => (.error .saveWithoutFile, w)
    | some path =>
      match Store.save (.file path) settings w.disk with
      | .error failure => (.error failure, w)
      | .ok (_, disk) => (.ok (), { w with disk })
  else (.ok (), w)

/-! ### Output -/

/-- Writes the output to its file, or prints it. -/
def writeOutput (request : Request) (output : String) : Act Unit := fun w =>
  match request.out with
  | none => (.ok (), { w with stdout := w.stdout ++ output })
  | some path =>
    match w.disk.writeText path output with
    | .error fault => (.error (.disk fault), w)
    | .ok disk => (.ok (), { w with disk })

/-! ### Filtering texts -/

/-- Reads an input that names a file. -/
def readFile (disk : Disk) (path : String) : Except Failure String :=
  if disk.exists? path then
    match disk.readText path with
    | .ok text => .ok text
    | .error fault => .error (.disk fault)
  else .error (.missingFile path)

def transform (request : Request) (encoding : Encoding) (settings : Settings) (text : String) :
    Outcome :=
  if request.has .restore then restore encoding settings text.toList
  else escape encoding settings text.toList

/-- Filters the inputs in order, until one cannot be read; gives their texts put together. -/
def filterInputs (request : Request) (encoding : Encoding) (settings : Settings) :
    List String → Act String
  | [], w => (.ok "", w)
  | input :: rest, w =>
    match if request.has .literal then .ok input else readFile w.disk input with
    | .error failure => (.error failure, w)
    | .ok text =>
      let outcome := transform request encoding settings text
      let (output, w) := filterInputs request encoding settings rest (w.log outcome.lines)
      (output.map (String.ofList outcome.text ++ ·), w)

/-- Filters the standard input. -/
def filterStdin (request : Request) (encoding : Encoding) (settings : Settings) : Act String :=
  fun w =>
    match w.stdin.asText with
    | .error fault => (.error (.disk fault), w)
    | .ok text =>
      let outcome := transform request encoding settings text
      (.ok (String.ofList outcome.text), w.log outcome.lines)

def filter (request : Request) (settings : Settings) : Act Unit := fun w =>
  match Encoding.ofName (request.encoding.getD "marker") with
  | .error failure => (.error failure, w)
  | .ok encoding =>
    let filtered :=
      if request.has .input then filterInputs request encoding settings request.inputs w
      else filterStdin request encoding settings w
    match filtered with
    | (.error failure, w) => (.error failure, w)
    | (.ok output, w) => writeOutput request output w

/-! ### Fixing a chat -/

/-- Puts a fixed chat where it belongs. In place, a chat with nothing to fix is not written. -/
def writeChat (request : Request) (path : String) (report : SweepReport) (output : String) :
    Act Unit := fun w =>
  match request.out with
  | some _ => writeOutput request output w
  | none =>
    if report.changed.isEmpty then (.ok (), w)
    else
      match w.disk.writeText path output with
      | .error fault => (.error (.disk fault), w)
      | .ok disk => (.ok (), { w with disk })

def fixChat (request : Request) (path : String) (settings : Settings) : Act Unit := fun w =>
  match readFile w.disk path with
  | .error failure => (.error failure, w)
  | .ok content =>
    match Transcript.parse content with
    | .error failure => (.error failure, w)
    | .ok parsed =>
      let swept := sweep settings parsed.chat
      let w := w.log (swept.lines ++ [.info ("Scanned " ++ toString swept.report.messages ++
        " message(s), fixed " ++ toString swept.report.fields ++ " field(s)")])
      match parsed.text swept with
      | .error failure => (.error failure, w)
      | .ok output => writeChat request path swept.report output w

/-! ### All of it -/

def perform (request : Request) : Act Unit := fun w =>
  let w := if request.has .silent then { w with logger := w.logger.redirect .discard } else w
  match readSettings request w with
  | (.error failure, w) => (.error failure, w)
  | (.ok settings, w) =>
    let settings := override request settings
    match saveSettings request settings w with
    | (.error failure, w) => (.error failure, w)
    | (.ok (), w) =>
      let w := { w with logger := w.logger.setDebug settings.debug }
      match request.chat with
      | some path => fixChat request path settings w
      | none => filter request settings w

/-- How a run ended. -/
structure Result where
  exitCode : Nat
  /-- Why the arguments were refused. -/
  refusal : Option Refusal := none
  world : World

/-- Everything a run prints beside its output. `elapsed` is how long its work took. -/
def Result.errorText (result : Result) (elapsed : String) : String :=
  match result.refusal with
  | some refusal =>
    "error: " ++ refusal.message ++ "\n\n" ++ usageText ++
      "\n\nFor more information, try '--help'.\n"
  | none => renderLines elapsed result.world.logger.terminal

/-- Runs a command line. -/
def run (arguments : List String) (w : World) : Result :=
  match parse arguments with
  | .help => ⟨0, none, { w with stdout := helpText }⟩
  | .version => ⟨0, none, { w with stdout := versionText }⟩
  | .refused refusal => ⟨2, some refusal, w⟩
  | .request request =>
    match perform request w with
    | (.ok (), w) => ⟨0, none, w⟩
    | (.error failure, w) => ⟨1, none, w.log [.error failure.message]⟩

/-- The value of an environment variable that switches something on. -/
def isTruthy (value : String) : Bool :=
  let word := String.ofList (Text.lowercase (Text.trim value.toList))
  word = "1" ∨ word = "true" ∨ word = "yes" ∨ word = "on"

/-! ### What a run needs to be shown -/

/-- The files that a request may read or write. -/
def Request.files (request : Request) : List String :=
  (if request.has .literal then [] else request.inputs) ++ request.settings.toList ++
    request.chat.toList ++ request.out.toList

def Request.readsStdin (request : Request) : Bool := !request.has .input && !request.has .chat

/-- The files of a request that a run left different, with the texts they have now. -/
def Request.changes (request : Request) (before after : Disk) : List (String × String) :=
  request.files.eraseDups.filterMap fun path =>
    match (after.readText path).toOption with
    | some text => if (before.readText path).toOption = some text then none else some (path, text)
    | none => none

/-- A time in milliseconds, to two places. -/
def elapsedText (nanoseconds : Nat) : String :=
  let hundredths := (nanoseconds + 5000) / 10000
  let places := hundredths % 100
  toString (hundredths / 100) ++ (if places < 10 then ".0" else ".") ++ toString places ++ "ms"

end PipeGuard.Command
