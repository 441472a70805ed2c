import PipeGuard.Text.Plain

/-! The arguments of the command line. They are taken one at a time from the left. An option whose
value is an argument of its own is pending until the argument after that: only then is it noticed
that the value is missing or that the option came before. Options that exclude each other are
looked at last. -/
namespace PipeGuard.Command

/-- Everything the command line can mention. -/
inductive Item
  | input
  | literal
  | restore
  | encoding
  | chat
  | out
  | settings
  | save
  | disable
  | debug
  | silent
  | help
  | version
  deriving DecidableEq, Repr

namespace Item

/-- How the item is shown in a refusal. -/
def shown : Item → String
  | input => "[INPUT]..."
  | literal => "--literal"
  | restore => "--restore"
  | encoding => "--encoding <ENCODING>"
  | chat => "--chat <FILE>"
  | out => "--out <FILE>"
  | settings => "--settings <FILE>"
  | save => "--save"
  | disable => "--disable"
  | debug => "--debug"
  | silent => "--silent"
  | help => "--help"
  | version => "--version"

def takesValue : Item → Bool
  | encoding | chat | out | settings => true
  | _ => false

def ofLong? : String → Option Item
  | "literal" => some literal
  | "restore" => some restore
  | "encoding" => some encoding
  | "chat" => some chat
  | "out" => some out
  | "settings" => some settings
  | "save" => some save
  | "disable" => some disable
  | "debug" => some debug
  | "silent" => some silent
  | "help" => some help
  | "version" => some version
  | _ => none

def ofShort? : Char → Option Item
  | 'L' => some literal
  | 'r' => some restore
  | 'o' => some out
  | 'd' => some debug
  | 's' => some silent
  | 'h' => some help
  | 'V' => some version
  | _ => none

/-- The items that an item rules out. -/
def excludes : Item → List Item
  | chat => [input, restore, literal]
  | silent => [debug]
  | _ => []

def conflict (a b : Item) : Bool := (excludes a).contains b || (excludes b).contains a

end Item

/-- Why a command line is not run. -/
inductive Refusal
  | unexpected (argument : String)
  | noValue (item : Item)
  | unwantedValue (item : Item) (value : String)
  | repeated (item : Item)
  | conflict (item : Item) (others : List Item)
  deriving DecidableEq, Repr

def Refusal.message : Refusal → String
  | unexpected argument => "unexpected argument '" ++ Text.plain argument ++ "' found"
  | noValue item => "a value is required for '" ++ item.shown ++ "' but none was supplied"
  | unwantedValue item value =>
    "unexpected value '" ++ Text.plain value ++ "' for '" ++ item.shown ++
      "' found; no more were expected"
  | repeated item => "the argument '" ++ item.shown ++ "' cannot be used multiple times"
  | conflict item others =>
    "the argument '" ++ item.shown ++ "' cannot be used with" ++
      match others with
      | [other] => " '" ++ other.shown ++ "'"
      | others => ":" ++ String.join (others.map fun other => "\n  " ++ other.shown)

/-- What the arguments ask for. -/
structure Request where
  inputs : List String := []
  encoding : Option String := none
  chat : Option String := none
  out : Option String := none
  settings : Option String := none
  /-- The items mentioned, in the order of their first mention. -/
  items : List Item := []
  deriving DecidableEq, Repr

namespace Request

def has (request : Request) (item : Item) : Bool := request.items.contains item

def mention (request : Request) (item : Item) : Request :=
  if request.has item then request else { request with items := request.items ++ [item] }

def addInput (request : Request) (value : String) : Request :=
  { request.mention .input with inputs := request.inputs ++ [value] }

/-- Sets the value of an option; an item without a value is only mentioned. -/
def set (request : Request) (item : Item) (value : String) : Request :=
  let request := request.mention item
  match item with
  | .encoding => { request with encoding := some value }
  | .chat => { request with chat := some value }
  | .out => { request with out := some value }
  | .settings => { request with settings := some value }
  | _ => request

/-- Takes an item that may come only once. -/
def take (request : Request) (item : Item) (value : String) : Except Refusal Request :=
  if request.has item then .error (.repeated item) else .ok (request.set item value)

/-- The first item that conflicts with others, and those. -/
def conflictFrom (all : List Item) : List Item → Option Refusal
  | [] => none
  | item :: rest =>
    match all.filter fun other => other ≠ item && item.conflict other with
    | [] => conflictFrom all rest
    | others => some (.conflict item others)

end Request

/-! ### Reading arguments -/

/-- An option that was named without a value attached, and its value once it is there. -/
structure Pending where
  item : Item
  value : Option String := none
  deriving DecidableEq, Repr

structure Reading where
  request : Request := {}
  pending : Option Pending := none
  /-- Everything from here on is an input. -/
  inputsOnly : Bool := false
  deriving DecidableEq, Repr

/-- What becomes of reading an argument. -/
inductive Step
  | go (reading : Reading)
  | refuse (refusal : Refusal)
  | help
  | version
  deriving DecidableEq, Repr

namespace Reading

/-- Settles a pending option. -/
def settle (r : Reading) : Except Refusal Reading :=
  match r.pending with
  | none => .ok r
  | some ⟨item, none⟩ => .error (.noValue item)
  | some ⟨item, some value⟩ =>
    (r.request.take item value).map fun request => { r with request, pending := none }

/-- Takes an item with no value, or with one attached to it. -/
def take (r : Reading) (item : Item) (value : String) : Step :=
  match r.settle with
  | .error refusal => .refuse refusal
  | .ok r =>
    match item with
    | .help => .help
    | .version => .version
    | item =>
      match r.request.take item value with
      | .error refusal => .refuse refusal
      | .ok request => .go { r with request }

/-- Waits for the value of an option. -/
def await (r : Reading) (item : Item) : Step :=
  match r.settle with
  | .error refusal => .refuse refusal
  | .ok r => .go { r with pending := some ⟨item, none⟩ }

def input (r : Reading) (value : String) : Step :=
  match r.settle with
  | .error refusal => .refuse refusal
  | .ok r => .go { r with request := r.request.addInput value }

/-- An argument of two dashes, a name and perhaps a value after an equals sign. -/
def long (r : Reading) (body : List Char) : Step :=
  let name := String.ofList (body.takeWhile (· ≠ '='))
  let value? := (body.dropWhile (· ≠ '=')).tail?.map String.ofList
  match Item.ofLong? name, value? with
  | none, _ => .refuse (.unexpected ("--" ++ name))
  | some item, some value =>
    if item.takesValue then r.take item value else .refuse (.unwantedValue item value)
  | some item, none => if item.takesValue then r.await item else r.take item ""

/-- The letters after one dash. The first option with a value takes the rest. -/
def letters (r : Reading) : List Char → Step
  | [] => .go r
  | c :: rest =>
    match Item.ofShort? c with
    | none => .refuse (.unexpected (String.ofList ['-', c]))
    | some item =>
      if item.takesValue then
        match rest with
        | [] => r.await item
        | '=' :: value => r.take item (String.ofList value)
        | value => r.take item (String.ofList value)
      else
        match r.take item "" with
        | .go r => letters r rest
        | other => other

/-- One argument. -/
def next (r : Reading) (argument : String) : Step :=
  if r.inputsOnly then r.input argument
  else
    match argument.toList with
    | ['-', '-'] => .go { r with inputsOnly := true }
    | '-' :: '-' :: body => r.long body
    | '-' :: c :: rest => r.letters (c :: rest)
    | _ =>
      match r.pending with
      | some ⟨item, none⟩ => .go { r with pending := some ⟨item, some argument⟩ }
      | _ => r.input argument

/-- All arguments, and the end of them. -/
def run (r : Reading) : List String → Step
  | [] =>
    match r.settle with
    | .error refusal => .refuse refusal
    | .ok r =>
      match Request.conflictFrom r.request.items r.request.items with
      | some refusal => .refuse refusal
      | none => .go r
  | argument :: rest =>
    match r.next argument with
    | .go r => run r rest
    | other => other

end Reading

/-- What a command line asks for. -/
inductive Parsed
  | request (request : Request)
  | refused (refusal : Refusal)
  | help
  | version
  deriving DecidableEq, Repr

def parse (arguments : List String) : Parsed :=
  match Reading.run {} arguments with
  | .go r => .request r.request
  | .refuse refusal => .refused refusal
  | .help => .help
  | .version => .version

end PipeGuard.Command
