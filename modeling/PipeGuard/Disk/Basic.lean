/-! A small file tree: what lies where. A place is the list of names that lead to it from the root, and
a run starts in some directory. Directories have to exist before anything is put into them. -/
namespace PipeGuard

/-- What a file holds: a text, or bytes that are not the UTF-8 form of one. -/
inductive Content
  | text (s : String)
  | bytes (bs : List UInt8)
  deriving DecidableEq, Repr, Inhabited

def Content.ofBytes (bs : ByteArray) : Content :=
  match String.fromUTF8? bs with
  | some s => .text s
  | none => .bytes bs.toList

inductive Node
  | file (content : Content)
  | directory
  deriving DecidableEq, Repr

/-- Why a file cannot be read or written. -/
inductive DiskFault
  | notFound
  | notDirectory
  | isDirectory
  | nameTooLong
  | nulInName
  | notUtf8
  deriving DecidableEq, Repr

def DiskFault.message : DiskFault → String
  | notFound => "No such file or directory (os error 2)"
  | notDirectory => "Not a directory (os error 20)"
  | isDirectory => "Is a directory (os error 21)"
  | nameTooLong => "File name too long (os error 36)"
  | nulInName => "file name contained an unexpected NUL byte"
  | notUtf8 => "stream did not contain valid UTF-8"

/-- The text of a content, if it is one. -/
def Content.asText : Content → Except DiskFault String
  | text s => .ok s
  | bytes _ => .error .notUtf8

/-- The names from the root on. -/
abbrev Place := List String

structure Disk where
  /-- The directory that paths without a leading slash start in. -/
  start : Place := []
  nodes : List (Place × Node) := []
  deriving DecidableEq, Repr

namespace Disk

/-- What lies at a place. The starting directory and those above it are always there. -/
def node? (disk : Disk) (place : Place) : Option Node :=
  if place <+: disk.start then some .directory else disk.nodes.lookup place

/-- Puts a node at a place, over what is there. -/
def put (disk : Disk) (place : Place) (node : Node) : Disk :=
  let rec go : List (Place × Node) → List (Place × Node)
    | [] => [(place, node)]
    | entry :: rest => if entry.1 = place then (place, node) :: rest else entry :: go rest
  { disk with nodes := go disk.nodes }

def remove (disk : Disk) (place : Place) : Disk :=
  { disk with nodes := disk.nodes.filter fun entry => entry.1 ≠ place }

theorem lookup_put_go (place other : Place) (node : Node) (nodes : List (Place × Node)) :
    (put.go place node nodes).lookup other =
      if other = place then some node else nodes.lookup other := by
  induction nodes with
  | nil =>
    by_cases h : other = place
    · simp [put.go, h]
    · have : (other == place) = false := by simpa using h
      simp [put.go, h, List.lookup_cons, this]
  | cons entry rest ih =>
    obtain ⟨p, n⟩ := entry
    by_cases he : p = place
    · subst he
      by_cases h : other = p
      · simp [put.go, h]
      · have : (other == p) = false := by simpa using h
        simp [put.go, h, List.lookup_cons, this]
    · by_cases h : other = p
      · subst h
        simp [put.go, he]
      · have : (other == p) = false := by simpa using h
        simp [put.go, he, List.lookup_cons, this, ih]

theorem node?_put (disk : Disk) (place other : Place) (node : Node)
    (h : ¬ place <+: disk.start) :
    (disk.put place node).node? other = if other = place then some node else disk.node? other := by
  unfold node?
  have hstart : (disk.put place node).start = disk.start := rfl
  have hnodes : (disk.put place node).nodes = put.go place node disk.nodes := rfl
  rw [hstart, hnodes, lookup_put_go]
  by_cases ho : other = place
  · subst ho
    simp [h]
  · simp [ho]

end Disk

end PipeGuard
