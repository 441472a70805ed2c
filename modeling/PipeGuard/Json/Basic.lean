import PipeGuard.Json.Double

/-! JSON values. An object is a list of members in the order of their first mention, each key once:
`Members.put` gives a known key a new value where it stands and adds an unknown one at the end. -/
namespace PipeGuard

/-- Whole numbers of up to 64 bits are kept exactly; any other number is a double. -/
inductive Number
  | natural (n : Nat)
  /-- The number `-n`, for a positive `n`. -/
  | negative (n : Nat)
  | real (x : Double)
  deriving DecidableEq, Repr

inductive Json
  | null
  | boolean (b : Bool)
  | number (n : Number)
  | string (s : String)
  | array (items : List Json)
  | object (members : List (String × Json))
  deriving Repr, Inhabited

abbrev Members := List (String × Json)

namespace Members

def get? (key : String) : Members → Option Json
  | [] => none
  | member :: rest => if member.1 = key then some member.2 else get? key rest

def put (key : String) (value : Json) : Members → Members
  | [] => [(key, value)]
  | member :: rest =>
    if member.1 = key then (key, value) :: rest else member :: put key value rest

def keys (members : Members) : List String := members.map Prod.fst

theorem get?_put_self (key : String) (value : Json) (members : Members) :
    (members.put key value).get? key = some value := by
  induction members with
  | nil => simp [put, get?]
  | cons member rest ih => by_cases h : member.1 = key <;> simp [put, get?, h, ih]

theorem get?_put_of_ne {key other : String} (h : other ≠ key) (value : Json) (members : Members) :
    (members.put key value).get? other = members.get? other := by
  induction members with
  | nil => simp [put, get?, Ne.symm h]
  | cons member rest ih =>
    by_cases hk : member.1 = key
    · simp [put, get?, hk, Ne.symm h]
    · rw [put, if_neg hk, get?, get?, ih]

/-- A known key keeps its place and an unknown one goes last. -/
theorem keys_put (key : String) (value : Json) (members : Members) :
    (members.put key value).keys =
      if key ∈ members.keys then members.keys else members.keys ++ [key] := by
  induction members with
  | nil => simp [put, keys]
  | cons member rest ih =>
    simp only [keys] at ih
    by_cases h : member.1 = key
    · simp [put, keys, h]
    · have h' : ¬key = member.1 := fun he => h he.symm
      simp only [put, h, if_false, keys, List.map_cons, List.mem_cons, h', false_or, ih]
      split <;> simp [*]

end Members

namespace Json

def asBool? : Json → Option Bool
  | boolean b => some b
  | _ => none

def members? : Json → Option Members
  | object members => some members
  | _ => none

end Json

end PipeGuard
