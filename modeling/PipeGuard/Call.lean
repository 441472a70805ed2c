/-! Calls, and where they stand in a text. A call is two braces, a name, two colons, arguments and
two closing braces; the arguments end at the first pair of closing braces, so calls do not nest.
A name is matched up to the case of its ASCII letters.

`pieces` cuts a text into the calls of one name, taken from the left, and the single characters
between them. `join_pieces`: the pieces put together are the text. -/
namespace PipeGuard

structure Call where
  /-- The name as it is spelled in the text. -/
  name : List Char
  args : List Char
  deriving DecidableEq, Repr

namespace Call

/-- The call up to its arguments. -/
def opening (call : Call) : List Char := '{' :: '{' :: call.name ++ [':', ':']

def closing : List Char := ['}', '}']

/-- The text of the call. -/
def whole (call : Call) : List Char := call.opening ++ call.args ++ closing

def withArgs (call : Call) (args : List Char) : Call := { call with args }

end Call

/-! ### One call -/

/-- Equal up to the case of an ASCII letter. -/
def sameLetter (a b : Char) : Bool := a.toLower == b.toLower

/-- Splits off a spelling of `name`. -/
def spelled? : List Char → List Char → Option (List Char × List Char)
  | [], text => some ([], text)
  | n :: name, c :: text =>
    if sameLetter n c then (spelled? name text).map fun split => (c :: split.1, split.2) else none
  | _ :: _, [] => none

/-- Splits a text at its first pair of closing braces. -/
def closed? : List Char → Option (List Char × List Char)
  | '}' :: '}' :: rest => some ([], rest)
  | c :: rest => (closed? rest).map fun split => (c :: split.1, split.2)
  | [] => none

/-- Splits off the opening of a call of `name`, and gives the spelling of the name. -/
def opened? (name : List Char) : List Char → Option (List Char × List Char)
  | '{' :: '{' :: rest =>
    match spelled? name rest with
    | some (spelling, ':' :: ':' :: rest) => some (spelling, rest)
    | _ => none
  | _ => none

/-- The call of `name` at the start of a text. -/
def call? (name text : List Char) : Option Call :=
  match opened? name text with
  | none => none
  | some (spelling, rest) => (closed? rest).map fun split => ⟨spelling, split.1⟩

/-! ### All calls of a text -/

inductive Piece
  | plain (c : Char)
  | call (call : Call)
  deriving DecidableEq, Repr

def Piece.text : Piece → List Char
  | plain c => [c]
  | call k => k.whole

/-- The pieces of a text whose first `skip` characters belong to a call already found. -/
def piecesFrom (name : List Char) : Nat → List Char → List Piece
  | _, [] => []
  | skip + 1, _ :: rest => piecesFrom name skip rest
  | 0, c :: rest =>
    match call? name (c :: rest) with
    | some k => .call k :: piecesFrom name (k.whole.length - 1) rest
    | none => .plain c :: piecesFrom name 0 rest

/-- The calls of `name` from left to right, each found as early as possible after the last. -/
def pieces (name text : List Char) : List Piece := piecesFrom name 0 text

def join (ps : List Piece) : List Char := ps.flatMap Piece.text

/-! ### Where calls stand -/

/-- The length of a text in UTF-8 bytes. -/
def byteSize : List Char → Nat
  | [] => 0
  | c :: rest => c.utf8Size + byteSize rest

/-- A call and the byte at which it starts. -/
structure Found where
  start : Nat
  call : Call
  deriving DecidableEq, Repr

namespace Found

def argsStart (found : Found) : Nat := found.start + byteSize found.call.opening
def argsEnd (found : Found) : Nat := found.argsStart + byteSize found.call.args
def stop (found : Found) : Nat := found.argsEnd + byteSize Call.closing

end Found

/-- The calls among pieces that start at byte `start`. -/
def locate (start : Nat) : List Piece → List Found
  | [] => []
  | .plain c :: rest => locate (start + c.utf8Size) rest
  | .call k :: rest => ⟨start, k⟩ :: locate (start + byteSize k.whole) rest

def findCalls (name text : List Char) : List Found := locate 0 (pieces name text)

def hasCall (name text : List Char) : Bool := !(findCalls name text).isEmpty

/-! ### Nothing is lost -/

theorem spelled?_eq_append {name text spelling rest : List Char}
    (h : spelled? name text = some (spelling, rest)) : text = spelling ++ rest := by
  induction name generalizing text spelling with
  | nil =>
    simp only [spelled?, Option.some.injEq, Prod.mk.injEq] at h
    obtain ⟨rfl, rfl⟩ := h
    rfl
  | cons n name ih =>
    cases text with
    | nil => simp [spelled?] at h
    | cons c text =>
      simp only [spelled?] at h
      split at h
      · obtain ⟨split, hsplit, heq⟩ := Option.map_eq_some_iff.1 h
        simp only [Prod.mk.injEq] at heq
        obtain ⟨rfl, rfl⟩ := heq
        simp [ih hsplit]
      · simp at h

theorem closed?_eq_append {text args rest : List Char} (h : closed? text = some (args, rest)) :
    text = args ++ Call.closing ++ rest := by
  fun_induction closed? text generalizing args with
  | case1 rest' =>
    simp only [Option.some.injEq, Prod.mk.injEq] at h
    obtain ⟨rfl, rfl⟩ := h
    rfl
  | case2 c rest' _ ih =>
    obtain ⟨split, hsplit, heq⟩ := Option.map_eq_some_iff.1 h
    simp only [Prod.mk.injEq] at heq
    obtain ⟨rfl, rfl⟩ := heq
    simpa using ih hsplit
  | case3 => simp at h

theorem opened?_eq_append {name text spelling rest : List Char}
    (h : opened? name text = some (spelling, rest)) :
    text = '{' :: '{' :: spelling ++ [':', ':'] ++ rest := by
  simp only [opened?] at h
  split at h
  · split at h
    · rename_i hs
      simp only [Option.some.injEq, Prod.mk.injEq] at h
      obtain ⟨rfl, rfl⟩ := h
      simp [spelled?_eq_append hs]
    · simp at h
  · simp at h

/-- A call found at the start of a text is written there. -/
theorem call?_eq_append {name text : List Char} {k : Call} (h : call? name text = some k) :
    ∃ rest, text = k.whole ++ rest := by
  simp only [call?] at h
  split at h
  · simp at h
  · rename_i hopen
    obtain ⟨split, hclose, rfl⟩ := Option.map_eq_some_iff.1 h
    exact ⟨split.2, by
      rw [opened?_eq_append hopen, closed?_eq_append hclose]
      simp [Call.whole, Call.opening]⟩

theorem Call.whole_length_pos (k : Call) : 0 < k.whole.length := by
  simp [Call.whole, Call.opening]

theorem join_piecesFrom (name : List Char) (skip : Nat) (text : List Char) :
    join (piecesFrom name skip text) = text.drop skip := by
  fun_induction piecesFrom name skip text with
  | case1 => simp [join]
  | case2 skip c rest ih => simpa using ih
  | case3 c rest k hk ih =>
    obtain ⟨after, hafter⟩ := call?_eq_append hk
    have hpos := k.whole_length_pos
    obtain ⟨n, hn⟩ : ∃ n, k.whole.length = n + 1 := ⟨k.whole.length - 1, by omega⟩
    have hdrop : rest.drop n = after := by
      have := congrArg (List.drop (n + 1)) hafter
      rw [List.drop_succ_cons, ← hn, List.drop_left] at this
      exact this
    rw [hn, Nat.add_sub_cancel] at ih
    simp only [join, List.flatMap_cons, Piece.text] at ih ⊢
    rw [hn, Nat.add_sub_cancel, ih, hdrop, List.drop_zero, hafter]
  | case4 c rest _ ih =>
    simp only [join, List.flatMap_cons, Piece.text] at ih ⊢
    rw [ih]
    simp

theorem join_pieces (name text : List Char) : join (pieces name text) = text := by
  simp [pieces, join_piecesFrom]

end PipeGuard
