import PipeGuard.Disk.Basic

/-! Paths, and the files they lead to. A path is followed name by name, and every name but the last
has to be that of a directory. -/
namespace PipeGuard

/-- Where a name leads to from a directory. -/
def Place.enter (place : Place) (name : String) : Place :=
  if name = "" ∨ name = "." then place
  else if name = ".." then place.dropLast
  else place ++ [name]

namespace Disk

/-! ### Names -/

/-- The names of a path. Slashes that follow each other have an empty name between them. -/
def names (path : String) : List String :=
  let rec go (name : List Char) : List Char → List String
    | [] => [String.ofList name.reverse]
    | c :: rest => if c = '/' then String.ofList name.reverse :: go [] rest else go (c :: name) rest
  go [] path.toList

def isAbsolute (path : String) : Bool := path.toList.head? = some '/'

def endsInSlash (path : String) : Bool := path.toList.getLast? = some '/'

/-- Where the first name of a path is looked up. -/
def startPlace (disk : Disk) (path : String) : Place := if isAbsolute path then [] else disk.start

/-- Where a path leads to, whatever lies on the way. -/
def placeOf (disk : Disk) (path : String) : Place :=
  (names path).foldl Place.enter (disk.startPlace path)

/-- A path cut off after each of its names in turn. -/
def leads (path : String) : List String :=
  let names := names path
  (List.range names.length).map fun n => "/".intercalate (names.take (n + 1))

/-! ### Following a path -/

/-- The longest name, and the longest path, in bytes. -/
def longestName : Nat := 255
def longestPath : Nat := 4095

/-- One name of a path, from a place that has to be a directory. -/
def step (disk : Disk) (place : Place) (name : String) : Except DiskFault Place :=
  match disk.node? place with
  | none => .error .notFound
  | some (.file _) => .error .notDirectory
  | some .directory =>
    if longestName < name.utf8ByteSize then .error .nameTooLong else .ok (place.enter name)

/-- A path that cannot be followed at all. -/
def pathFault? (path : String) : Option DiskFault :=
  if path.toList.contains '\x00' then some .nulInName
  else if path = "" then some .notFound
  else if longestPath < path.utf8ByteSize then some .nameTooLong
  else none

/-- Follows some of the names of a path. Nothing need be at the place they lead to. -/
def follow (disk : Disk) (path : String) (names : List String) : Except DiskFault Place :=
  match pathFault? path with
  | some fault => .error fault
  | none => names.foldlM disk.step (disk.startPlace path)

def resolve (disk : Disk) (path : String) : Except DiskFault Place :=
  disk.follow path (names path)

/-! ### Files -/

def exists? (disk : Disk) (path : String) : Bool :=
  match disk.resolve path with
  | .ok place => (disk.node? place).isSome
  | .error _ => false

/-- What the file at a path holds. -/
def content (disk : Disk) (path : String) : Except DiskFault Content :=
  match disk.resolve path with
  | .error fault => .error fault
  | .ok place =>
    match disk.node? place with
    | none => .error .notFound
    | some .directory => .error .isDirectory
    | some (.file content) => .ok content

def readText (disk : Disk) (path : String) : Except DiskFault String :=
  match disk.content path with
  | .error fault => .error fault
  | .ok content => content.asText

/-- What is wrong with writing a file at a path that ends in a slash and so names a directory. The
names before the last still have to lead to one; the last is not looked up unless it has to be. -/
def slashFault (disk : Disk) (path : String) : DiskFault :=
  let names := ((names path).reverse.dropWhile (· = "")).reverse
  match disk.follow path names.dropLast with
  | .error fault => fault
  | .ok above =>
    match disk.node? above with
    | none => .notFound
    | some (.file _) => .notDirectory
    | some .directory => .isDirectory

/-- The place that a file to be written goes to. -/
def target (disk : Disk) (path : String) : Except DiskFault Place :=
  if endsInSlash path then .error (disk.slashFault path)
  else
    match disk.resolve path with
    | .error fault => .error fault
    | .ok place => if disk.node? place = some .directory then .error .isDirectory else .ok place

/-- Writes a file, over what it held. -/
def writeText (disk : Disk) (path text : String) : Except DiskFault Disk :=
  match disk.target path with
  | .error fault => .error fault
  | .ok place => .ok (disk.put place (.file (.text text)))

/-! ### Setting a tree up -/

/-- The places above a place, from the root down. -/
def above (place : Place) : List Place := (List.range place.length).map fun n => place.take n

/-- Puts a node at a path, with the directories that lead to it. -/
def install (disk : Disk) (path : String) (node : Node) : Disk :=
  let place := disk.placeOf path
  let lead (disk : Disk) (above : Place) : Disk :=
    if (disk.node? above).isSome then disk else disk.put above .directory
  ((above place).foldl lead disk).put place node

/-- Puts a node at a path, or removes what is there. -/
def setAt (disk : Disk) (path : String) : Option Node → Disk
  | some node => disk.install path node
  | none => disk.remove (disk.placeOf path)

theorem not_prefix_of_target {disk : Disk} {path : String} {place : Place}
    (h : disk.target path = .ok place) : ¬ place <+: disk.start := by
  intro hp
  have hnode : disk.node? place = some .directory := by simp [node?, hp]
  unfold target at h
  split at h
  · simp at h
  · cases hr : disk.resolve path with
    | error fault => simp [hr] at h
    | ok found =>
      simp only [hr] at h
      split at h
      · simp at h
      · rename_i hno
        injection h with h
        subst h
        exact hno hnode

end Disk

end PipeGuard
