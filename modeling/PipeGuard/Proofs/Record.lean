import Mathlib.Data.List.Forall2
import PipeGuard.Chat.Transcript

/-! One record, read twice.

A record is read for its three fields and, when it is to be written again, as a value.
Both readings go over the text alike: a reader of one kind of value stops where the
reader of any value stops (`Narrow`), and a loop over members keeps two accounts of
what it read in step (`membersFrom_simulates`).

`object_of_message`: what reads as a message reads as an object, whose members hold the
fields of the message under their keys, and besides them what the message carries along
(`Message.Within`). -/
namespace PipeGuard

theorem map_eq_ok {ε α β : Type} {f : α → β} {x : Except ε α} {b : β}
    (h : x.map f = .ok b) : ∃ a, x = .ok a ∧ f a = b := by
  cases x with
  | error => cases h
  | ok a => exact ⟨a, rfl, Except.ok.inj h⟩

namespace Json

theorem gapFrom_gapFrom (text : List Char) (position : Position) :
    gapFrom (gapFrom text position).rest (gapFrom text position).position =
      gapFrom text position := by
  induction text generalizing position with
  | nil => rfl
  | cons c rest ih =>
    by_cases hc : isGap c = true
    · rw [gapFrom, if_pos hc, ih]
    · rw [gapFrom, if_neg hc]
      show gapFrom (c :: rest) position = _
      rw [gapFrom, if_neg hc]

/-- A text is read if it is read to its end. -/
theorem readAll_eq_ok {α : Type} {read : Cursor → Read α} {text : String} {x : α} :
    readAll read text = .ok x ↔ ∃ c, read (.start text) = .ok (x, c) ∧ c.finish = .ok () := by
  rw [readAll]
  constructor
  · intro h
    split at h
    · cases h
    · case _ y c hread =>
      obtain ⟨⟨⟩, hfinish, rfl⟩ := map_eq_ok h
      exact ⟨c, hread, hfinish⟩
  · intro h
    obtain ⟨c, hread, hfinish⟩ := h
    simp only [hread, hfinish]
    rfl

theorem skipGap_skipGap (c : Cursor) : c.skipGap.skipGap = c.skipGap :=
  gapFrom_gapFrom c.rest c.position

namespace Read

/-! ### Values by their first character -/

section
variable {c c' : Cursor} {rest : List Char} {depth : Nat}

theorem value_skipGap (depth : Nat) (c : Cursor) : value depth c.skipGap = value depth c := by
  cases depth <;> rw [value, value, skipGap_skipGap]

theorem value_null (h : c.skipGap.rest = 'n' :: rest) :
    value depth c = (c.skipGap.next.word ['u', 'l', 'l']).map fun c => (.null, c) := by
  unfold value
  simp only [h]

theorem value_true (h : c.skipGap.rest = 't' :: rest) :
    value depth c = (c.skipGap.next.word ['r', 'u', 'e']).map fun c => (.boolean true, c) := by
  unfold value
  simp only [h]

theorem value_false (h : c.skipGap.rest = 'f' :: rest) :
    value depth c =
      (c.skipGap.next.word ['a', 'l', 's', 'e']).map fun c => (.boolean false, c) := by
  unfold value
  simp only [h]

theorem value_string (h : c.skipGap.rest = '"' :: rest) :
    value depth c = (string c.skipGap.next).map fun (s, c) => (.string s, c) := by
  unfold value
  simp only [h]

theorem value_minus (h : c.skipGap.rest = '-' :: rest) :
    value depth c = (number true c.skipGap.next).map fun (n, c) => (.number n, c) := by
  unfold value
  simp only [h]

theorem value_digit {d : Char} (h : c.skipGap.rest = d :: rest) (hd : d.isDigit = true) :
    value depth c = (number false c.skipGap).map fun (n, c) => (.number n, c) := by
  have hmark : ∀ mark : Char, mark.isDigit = false → d ≠ mark := by
    rintro mark hmark rfl
    rw [hmark] at hd
    cases hd
  unfold value
  simp only [h]
  split
  · case _ heq => cases heq
  iterate 7 · case _ heq => exact absurd (List.cons.inj heq).1 (hmark _ (by decide))
  · case _ heq =>
    obtain ⟨rfl, -⟩ := List.cons.inj heq
    rw [if_pos hd]

theorem value_array (h : c.skipGap.rest = '[' :: rest) :
    value (depth + 1) c = (items (value depth) c.skipGap.next).map fun (xs, c) => (.array xs, c) := by
  rw [value]
  simp only [h]

/-- Reads on from the end of a key of an object. -/
def valueMember (depth : Nat) (done : Members) (key : String) (c : Cursor) : Read Members :=
  match colon c with
  | .error fault => .error fault
  | .ok c => (value depth c).map fun (x, c) => (done.put key x, c)

theorem value_object (h : c.skipGap.rest = '\x7b' :: rest) :
    value (depth + 1) c =
      (members (valueMember depth) [] c.skipGap.next).map fun (ms, c) => (.object ms, c) := by
  rw [value]
  simp only [h]
  rfl

/-- What a value of each kind was read from. -/
def ReadAs (depth : Nat) (c c' : Cursor) : Json → Prop
  | .null => (∃ rest, c.skipGap.rest = 'n' :: rest) ∧
    c.skipGap.next.word ['u', 'l', 'l'] = .ok c'
  | .boolean true => (∃ rest, c.skipGap.rest = 't' :: rest) ∧
    c.skipGap.next.word ['r', 'u', 'e'] = .ok c'
  | .boolean false => (∃ rest, c.skipGap.rest = 'f' :: rest) ∧
    c.skipGap.next.word ['a', 'l', 's', 'e'] = .ok c'
  | .number n =>
    (∃ rest, c.skipGap.rest = '-' :: rest) ∧ number true c.skipGap.next = .ok (n, c') ∨
      (∃ d rest, c.skipGap.rest = d :: rest ∧ d.isDigit = true) ∧
        number false c.skipGap = .ok (n, c')
  | .string s => (∃ rest, c.skipGap.rest = '"' :: rest) ∧ string c.skipGap.next = .ok (s, c')
  | .array xs => ∃ inner, depth = inner + 1 ∧ (∃ rest, c.skipGap.rest = '[' :: rest) ∧
    items (value inner) c.skipGap.next = .ok (xs, c')
  | .object ms => ∃ inner, depth = inner + 1 ∧ (∃ rest, c.skipGap.rest = '\x7b' :: rest) ∧
    members (valueMember inner) [] c.skipGap.next = .ok (ms, c')

/-- A value was read as its first character says. -/
theorem value_eq_ok {x : Json} (h : value depth c = .ok (x, c')) : ReadAs depth c c' x := by
  unfold value at h
  simp only at h
  split at h
  · cases h
  · case _ hrest =>
    obtain ⟨_, hread, heq⟩ := map_eq_ok h
    cases heq
    exact ⟨⟨_, hrest⟩, hread⟩
  · case _ hrest =>
    obtain ⟨_, hread, heq⟩ := map_eq_ok h
    cases heq
    exact ⟨⟨_, hrest⟩, hread⟩
  · case _ hrest =>
    obtain ⟨_, hread, heq⟩ := map_eq_ok h
    cases heq
    exact ⟨⟨_, hrest⟩, hread⟩
  · case _ hrest =>
    obtain ⟨_, hread, heq⟩ := map_eq_ok h
    cases heq
    exact ⟨⟨_, hrest⟩, hread⟩
  · case _ hrest =>
    cases depth with
    | zero => cases h
    | succ inner =>
      obtain ⟨_, hread, heq⟩ := map_eq_ok h
      cases heq
      exact ⟨inner, rfl, ⟨_, hrest⟩, hread⟩
  · case _ hrest =>
    cases depth with
    | zero => cases h
    | succ inner =>
      obtain ⟨_, hread, heq⟩ := map_eq_ok h
      cases heq
      exact ⟨inner, rfl, ⟨_, hrest⟩, hread⟩
  · case _ hrest =>
    obtain ⟨_, hread, heq⟩ := map_eq_ok h
    cases heq
    exact .inl ⟨⟨_, hrest⟩, hread⟩
  · case _ d _ _ _ _ _ _ _ _ hrest =>
    split at h
    · case _ hd =>
      obtain ⟨_, hread, heq⟩ := map_eq_ok h
      cases heq
      exact .inr ⟨⟨d, _, hrest, hd⟩, hread⟩
    · cases h

end

/-! ### Loops over items -/

/-- Two loops over the same items read them side by side. -/
theorem itemsFrom_simulates {α β : Type} {Agree : α → β → Prop} {item : Cursor → Read α}
    {item' : Cursor → Read β}
    (hitem : ∀ {c x c₁}, item c = .ok (x, c₁) → ∃ y, item' c = .ok (y, c₁) ∧ Agree x y)
    {bound : List Char} {first : Bool} {seen xs : List α} {seen' : List β} {c c₁ : Cursor}
    (hseen : List.Forall₂ Agree seen seen')
    (h : itemsFrom item bound first seen c = .ok (xs, c₁)) :
    ∃ ys, itemsFrom item' bound first seen' c = .ok (ys, c₁) ∧ List.Forall₂ Agree xs ys := by
  induction bound generalizing first seen seen' c with
  | nil => cases h
  | cons _ bound ih =>
    rw [itemsFrom] at h ⊢
    cases hnext : nextItem first c with
    | error fault => rw [hnext] at h; cases h
    | ok next =>
      obtain ⟨more, c₂⟩ := next
      rw [hnext] at h
      cases more with
      | false =>
        obtain ⟨c₃, hclose, heq⟩ := map_eq_ok h
        cases heq
        refine ⟨seen'.reverse, ?_, List.rel_reverse hseen⟩
        simp only [hclose]
        rfl
      | true =>
        simp only at h ⊢
        cases hread : item c₂ with
        | error fault => rw [hread] at h; cases h
        | ok read =>
          obtain ⟨x, c₃⟩ := read
          rw [hread] at h
          obtain ⟨y, hread', hagree⟩ := hitem hread
          rw [hread']
          exact ih (.cons hagree hseen) h

/-! ### Readers of one kind -/

/-- What `item` reads, is read as a value too, and written so by `write`. -/
def Narrow {α : Type} (item : Cursor → Read α) (write : α → Json) (depth : Nat) : Prop :=
  ∀ c x c', item c = .ok (x, c') → value depth c = .ok (write x, c')

theorem narrow_boolean (depth : Nat) : Narrow Read.boolean Json.boolean depth := by
  intro c b c' h
  unfold Read.boolean at h
  simp only at h
  split at h
  · case _ hrest =>
    obtain ⟨c₁, hword, heq⟩ := map_eq_ok h
    cases heq
    rw [value_true hrest, hword]
    rfl
  · case _ hrest =>
    obtain ⟨c₁, hword, heq⟩ := map_eq_ok h
    cases heq
    rw [value_false hrest, hword]
    rfl
  · cases h

theorem narrow_textValue (depth : Nat) : Narrow textValue Json.string depth := by
  intro c s c' h
  unfold textValue at h
  simp only at h
  split at h
  · case _ hrest =>
    rw [value_string hrest, h]
    rfl
  · cases h

/-- How a value that may be null is written. -/
def nullable {α : Type} (write : α → Json) : Option α → Json
  | none => .null
  | some x => write x

theorem Narrow.optional {α : Type} {item : Cursor → Read α} {write : α → Json} {depth : Nat}
    (hitem : Narrow item write depth) : Narrow (optional item) (nullable write) depth := by
  intro c x c' h
  unfold Read.optional at h
  simp only at h
  split at h
  · case _ hrest =>
    obtain ⟨c₁, hword, heq⟩ := map_eq_ok h
    cases heq
    rw [value_null hrest, hword]
    rfl
  · obtain ⟨⟨y, c₁⟩, hread, heq⟩ := map_eq_ok h
    cases heq
    rw [← value_skipGap]
    exact hitem _ _ _ hread

theorem Narrow.itemsFrom {α : Type} {item : Cursor → Read α} {write : α → Json} {depth : Nat}
    (hitem : Narrow item write depth) {bound : List Char} {first : Bool} {seen xs : List α}
    {c c' : Cursor} (h : itemsFrom item bound first seen c = .ok (xs, c')) :
    itemsFrom (value depth) bound first (seen.map write) c = .ok (xs.map write, c') := by
  have hseen : List.Forall₂ (fun x y => write x = y) seen (seen.map write) :=
    List.forall₂_map_right_iff.mpr (List.forall₂_same.mpr fun _ _ => rfl)
  obtain ⟨ys, hread, hall⟩ := @itemsFrom_simulates _ _ (fun x y => write x = y) item (value depth)
    (fun hread => ⟨_, hitem _ _ _ hread, rfl⟩) _ _ _ _ _ _ _ hseen h
  have hxs : xs.map write = ys := by
    rw [← List.forall₂_eq_eq_eq]
    exact List.forall₂_map_left_iff.mpr hall
  rwa [hxs]

theorem Narrow.sequence {α : Type} {item : Cursor → Read α} {write : α → Json} {depth : Nat}
    (hitem : Narrow item write depth) :
    Narrow (sequence item) (fun xs => .array (xs.map write)) (depth + 1) := by
  intro c xs c' h
  unfold Read.sequence at h
  simp only at h
  split at h
  · case _ hrest =>
    rw [value_array hrest]
    unfold items at h ⊢
    rw [show ([] : List Json) = ([] : List α).map write from rfl, hitem.itemsFrom h]
    rfl
  · cases h

/-! ### Loops over members -/

/-- Two loops over the same members keep in step what their turns keep in step. -/
theorem membersFrom_simulates {α β : Type} {Agree : α → β → Prop}
    {member : α → String → Cursor → Read α} {member' : β → String → Cursor → Read β}
    (hmember : ∀ {x y key c x₁ c₁}, Agree x y → member x key c = .ok (x₁, c₁) →
      ∃ y₁, member' y key c = .ok (y₁, c₁) ∧ Agree x₁ y₁)
    {bound : List Char} {first : Bool} {x x₁ : α} {y : β} {c c₁ : Cursor} (hagree : Agree x y)
    (h : membersFrom member bound first x c = .ok (x₁, c₁)) :
    ∃ y₁, membersFrom member' bound first y c = .ok (y₁, c₁) ∧ Agree x₁ y₁ := by
  induction bound generalizing first x y c with
  | nil => cases h
  | cons _ bound ih =>
    rw [membersFrom] at h ⊢
    cases hnext : nextKey first c with
    | error fault => rw [hnext] at h; cases h
    | ok next =>
      obtain ⟨key?, c₂⟩ := next
      rw [hnext] at h
      cases key? with
      | none =>
        obtain ⟨c₃, hclose, heq⟩ := map_eq_ok h
        cases heq
        refine ⟨y, ?_, hagree⟩
        simp only [hclose]
        rfl
      | some key =>
        simp only at h ⊢
        cases hread : member x key c₂ with
        | error fault => rw [hread] at h; cases h
        | ok read =>
          obtain ⟨x₂, c₃⟩ := read
          rw [hread] at h
          obtain ⟨y₂, hread', hagree'⟩ := hmember hagree hread
          rw [hread']
          exact ih hagree' h

end Read

end Json

/-! ### Members -/

namespace Members

variable {key : String} {value : Json} {members : Members}

theorem mem_keys_of_get? (h : members.get? key = some value) : key ∈ members.keys := by
  induction members with
  | nil => cases h
  | cons member rest ih =>
    rw [get?] at h
    split at h
    · case _ hkey => exact hkey ▸ List.mem_cons_self
    · exact List.mem_cons_of_mem _ (ih h)

theorem put_get? (h : members.get? key = some value) : members.put key value = members := by
  induction members with
  | nil => cases h
  | cons member rest ih =>
    rw [get?] at h
    rw [put]
    split at h
    · case _ hkey =>
      rw [if_pos hkey, ← Option.some.inj h, ← hkey]
    · case _ hkey => rw [if_neg hkey, ih h]

theorem put_of_not_mem (h : key ∉ members.keys) :
    members.put key value = members ++ [(key, value)] := by
  induction members with
  | nil => rfl
  | cons member rest ih =>
    obtain ⟨hfirst, hrest⟩ := not_or.mp (mt List.mem_cons.mpr h)
    rw [put, if_neg (Ne.symm hfirst), ih hrest, List.cons_append]

theorem mem_put {member : String × Json} (h : member ∈ members.put key value) :
    member ∈ members ∨ member = (key, value) := by
  induction members with
  | nil => exact .inr (List.mem_singleton.mp h)
  | cons first rest ih =>
    rw [put] at h
    split at h
    · rcases List.mem_cons.mp h with rfl | h
      · exact .inr rfl
      · exact .inl (List.mem_cons_of_mem _ h)
    · rcases List.mem_cons.mp h with rfl | h
      · exact .inl List.mem_cons_self
      · exact (ih h).imp_left (List.mem_cons_of_mem _)

theorem nodup_put (h : members.keys.Nodup) : (members.put key value).keys.Nodup := by
  rw [keys_put]
  split
  · exact h
  · case _ hnew =>
    exact List.nodup_append.mpr ⟨h, List.pairwise_singleton _ key, fun a ha b hb hab =>
      hnew (List.mem_singleton.mp hb ▸ hab ▸ ha)⟩

theorem get?_eq_none_of_not_mem (h : key ∉ members.keys) : members.get? key = none := by
  cases hget : members.get? key with
  | none => rfl
  | some value => exact absurd (mem_keys_of_get? hget) h

section
variable {member : String × Json} {seen left : Members}

/-- Where keys stand once, a member is not among those before it. -/
theorem not_mem_keys_split (h : Members.keys (seen ++ member :: left) |>.Nodup) :
    member.1 ∉ seen.keys := by
  unfold keys at h ⊢
  rw [List.map_append] at h
  exact fun hmem => (List.nodup_append.mp h).2.2 _ hmem _ List.mem_cons_self rfl

theorem get?_append_left (h : seen.get? key = none) : get? key (seen ++ left) = left.get? key := by
  induction seen with
  | nil => rfl
  | cons first seen ih =>
    rw [get?] at h
    rw [List.cons_append, get?]
    split at h
    · cases h
    · case _ hne => rw [if_neg hne, ih h]

theorem get?_append_of_some (h : seen.get? key = some value) :
    get? key (seen ++ left) = some value := by
  induction seen with
  | nil => cases h
  | cons first seen ih =>
    rw [get?] at h
    rw [List.cons_append, get?]
    split at h
    · case _ hkey => rw [if_pos hkey, h]
    · case _ hne => rw [if_neg hne, ih h]

/-- There it is found by its key. -/
theorem get?_split (h : Members.keys (seen ++ member :: left) |>.Nodup) :
    seen.get? member.1 = none ∧ get? member.1 (seen ++ member :: left) = some member.2 := by
  have hnone := get?_eq_none_of_not_mem (not_mem_keys_split h)
  refine ⟨hnone, ?_⟩
  rw [get?_append_left hnone, get?, if_pos rfl]

end

/-- Members with the value of a key changed. -/
def change (key : String) (f : Json → Json) (members : Members) : Members :=
  members.map fun member => if member.1 = key then (key, f member.2) else member

theorem keys_change (key : String) (f : Json → Json) (members : Members) :
    (members.change key f).keys = members.keys := by
  unfold change keys
  rw [List.map_map]
  refine List.map_congr_left fun member _ => ?_
  show (if member.1 = key then (key, f member.2) else member).1 = member.1
  split
  · case _ hkey => exact hkey.symm
  · rfl

theorem get?_change_of_ne {key other : String} (h : other ≠ key) (f : Json → Json)
    (members : Members) : (members.change key f).get? other = members.get? other := by
  induction members with
  | nil => rfl
  | cons member rest ih =>
    show get? other ((if member.1 = key then (key, f member.2) else member) :: change key f rest) = _
    rw [get?, get?, ih]
    split
    · case _ hkey => rw [hkey, if_neg (Ne.symm h), if_neg (Ne.symm h)]
    · rfl

theorem get?_change_self (key : String) (f : Json → Json) (members : Members) :
    (members.change key f).get? key = (members.get? key).map f := by
  induction members with
  | nil => rfl
  | cons member rest ih =>
    show get? key ((if member.1 = key then (key, f member.2) else member) :: change key f rest) = _
    rw [get?, get?, ih]
    split
    · rw [if_pos rfl]
      rfl
    · rfl

theorem change_of_get?_eq_none (f : Json → Json) (h : members.get? key = none) :
    members.change key f = members := by
  induction members with
  | nil => rfl
  | cons member rest ih =>
    rw [get?] at h
    split at h
    · cases h
    · case _ hkey =>
      show (if member.1 = key then _ else _) :: change key f rest = _
      rw [if_neg hkey, ih h]

/-- A key that stands once is changed by putting in its new value. -/
theorem change_of_get? (hkeys : members.keys.Nodup) (f : Json → Json)
    (h : members.get? key = some value) : members.change key f = members.put key (f value) := by
  induction members with
  | nil => cases h
  | cons member rest ih =>
    obtain ⟨hfirst, hrest⟩ := List.nodup_cons.mp hkeys
    rw [get?] at h
    rw [put]
    show (if member.1 = key then _ else _) :: change key f rest = _
    split at h
    · case _ hkey =>
      rw [if_pos hkey, if_pos hkey, Option.some.inj h,
        change_of_get?_eq_none f (get?_eq_none_of_not_mem (hkey ▸ hfirst))]
    · case _ hkey => rw [if_neg hkey, if_neg hkey, ih hrest h]

/-- A change with nothing to do. -/
theorem change_eq_self (hkeys : members.keys.Nodup) {f : Json → Json}
    (h : ∀ value, members.get? key = some value → f value = value) :
    members.change key f = members := by
  cases hget : members.get? key with
  | none => exact change_of_get?_eq_none f hget
  | some value => rw [change_of_get? hkeys f hget, h value hget, put_get? hget]

/-- The keys that a message understands. -/
def fieldKeys : List String := ["is_user", "mes", "swipes"]

/-- The members that are carried along. -/
def others (members : Members) : Members :=
  members.filter fun member => member.1 ∉ fieldKeys

theorem others_cons (member : String × Json) (members : Members) :
    others (member :: members) =
      if member.1 ∈ fieldKeys then members.others else member :: members.others := by
  unfold others
  rw [List.filter_cons]
  by_cases h : member.1 ∈ fieldKeys <;> simp [h]

theorem others_put (key : String) (value : Json) (members : Members) :
    (members.put key value).others =
      if key ∈ fieldKeys then members.others else members.others.put key value := by
  induction members with
  | nil =>
    rw [put, others_cons]
    rfl
  | cons member rest ih =>
    rw [put]
    by_cases hkey : member.1 = key
    · subst hkey
      rw [if_pos rfl, others_cons, others_cons]
      split
      · rfl
      · rw [put, if_pos rfl]
    · rw [if_neg hkey, others_cons, others_cons, ih]
      by_cases hfield : member.1 ∈ fieldKeys
      · rw [if_pos hfield, if_pos hfield]
      · rw [if_neg hfield, if_neg hfield, put, if_neg hkey]
        split <;> rfl

theorem others_change {key : String} (hfield : key ∈ fieldKeys) (f : Json → Json)
    (members : Members) : (members.change key f).others = members.others := by
  induction members with
  | nil => rfl
  | cons member rest ih =>
    show others ((if member.1 = key then (key, f member.2) else member) :: change key f rest) = _
    rw [others_cons, others_cons, ih]
    split
    · case _ hkey =>
      have hfirst : member.1 ∈ fieldKeys := hkey ▸ hfield
      rw [if_pos hfirst]
    · rfl

end Members

/-! ### The message of a record -/

namespace Message

open Json (Cursor Read)
open Json.Read (nullable valueMember)

/-- What of a record was read as fields stands in what was read as members. -/
structure Given.Within (given : Given) (members : Members) : Prop where
  keys : members.keys.Nodup
  isUser : members.get? "is_user" = given.isUser.map .boolean
  body : members.get? "mes" = given.body.map (nullable .string)
  swipes : members.get? "swipes" =
    given.swipes.map (nullable fun ss => .array (ss.map .string))
  extra : members.others = given.extra

theorem readField_narrow {α : Type} {name : String} {known : Option α}
    {item : Cursor → Read α} {write : α → Json} {depth : Nat} (hitem : Json.Read.Narrow item write depth)
    {c c' : Cursor} {x : α} (h : readField name known item c = .ok (x, c')) (members : Members) :
    known = none ∧ valueMember depth members name c = .ok (members.put name (write x), c') := by
  unfold readField at h
  cases known with
  | some known => cases h
  | none =>
    simp only at h
    unfold valueMember
    cases hcolon : Json.Read.colon c with
    | error fault => rw [hcolon] at h; cases h
    | ok c₁ =>
      rw [hcolon] at h
      refine ⟨rfl, ?_⟩
      simp only [hitem _ _ _ h]
      rfl

/-- One more member, read as a field and as a member. -/
theorem readMember_within {given given' : Given} {members : Members} {key : String}
    {c c' : Cursor} (hwithin : given.Within members)
    (h : readMember given key c = .ok (given', c')) :
    ∃ members', valueMember (Json.depthLimit - 1) members key c = .ok (members', c') ∧
      given'.Within members' := by
  unfold readMember at h
  split at h
  · case _ hkey =>
    obtain ⟨⟨b, c₁⟩, hfield, heq⟩ := map_eq_ok h
    cases heq
    obtain ⟨-, hread⟩ := readField_narrow (Json.Read.narrow_boolean _) hfield members
    refine ⟨_, hread, Members.nodup_put hwithin.keys, ?_, ?_, ?_, ?_⟩
    · rw [hkey, Members.get?_put_self]
      rfl
    · rw [Members.get?_put_of_ne (by rw [hkey]; decide), hwithin.body]
    · rw [Members.get?_put_of_ne (by rw [hkey]; decide), hwithin.swipes]
    · rw [Members.others_put, if_pos (by rw [hkey]; decide), hwithin.extra]
  · split at h
    · case _ hkey =>
      obtain ⟨⟨s, c₁⟩, hfield, heq⟩ := map_eq_ok h
      cases heq
      obtain ⟨-, hread⟩ := readField_narrow (Json.Read.narrow_textValue _).optional hfield members
      refine ⟨_, hread, Members.nodup_put hwithin.keys, ?_, ?_, ?_, ?_⟩
      · rw [Members.get?_put_of_ne (by rw [hkey]; decide), hwithin.isUser]
      · rw [hkey, Members.get?_put_self]
        rfl
      · rw [Members.get?_put_of_ne (by rw [hkey]; decide), hwithin.swipes]
      · rw [Members.others_put, if_pos (by rw [hkey]; decide), hwithin.extra]
    · split at h
      · case _ hkey =>
        obtain ⟨⟨ss, c₁⟩, hfield, heq⟩ := map_eq_ok h
        cases heq
        obtain ⟨-, hread⟩ :=
          readField_narrow (Json.Read.narrow_textValue 125).sequence.optional hfield members
        refine ⟨_, hread, Members.nodup_put hwithin.keys, ?_, ?_, ?_, ?_⟩
        · rw [Members.get?_put_of_ne (by rw [hkey]; decide), hwithin.isUser]
        · rw [Members.get?_put_of_ne (by rw [hkey]; decide), hwithin.body]
        · rw [hkey, Members.get?_put_self]
          rfl
        · rw [Members.others_put, if_pos (by rw [hkey]; decide), hwithin.extra]
      · case _ huser hmes hswipes =>
        cases hcolon : Json.Read.colon c with
        | error fault => rw [hcolon] at h; cases h
        | ok c₁ =>
          rw [hcolon] at h
          obtain ⟨⟨x, c₂⟩, hvalue, heq⟩ := map_eq_ok h
          cases heq
          refine ⟨members.put key x, ?_, Members.nodup_put hwithin.keys, ?_, ?_, ?_, ?_⟩
          · unfold valueMember
            simp only [hcolon, hvalue]
            rfl
          · rw [Members.get?_put_of_ne (Ne.symm huser), hwithin.isUser]
          · rw [Members.get?_put_of_ne (Ne.symm hmes), hwithin.body]
          · rw [Members.get?_put_of_ne (Ne.symm hswipes), hwithin.swipes]
          · rw [Members.others_put, if_neg (by simp [Members.fieldKeys, huser, hmes, hswipes]),
              hwithin.extra]

/-- A field of a record that may be null or missing. -/
def Field (value : Option Json) : Option Json → Prop
  | some x => value = some x
  | none => value = none ∨ value = some .null

/-- The members of a record have each key once, and hold a message. -/
structure Within (message : Message) (members : Members) : Prop where
  keys : members.keys.Nodup
  isUser : (members.get? "is_user").getD (.boolean false) = .boolean message.isUser
  body : Field (members.get? "mes") (message.body.map .string)
  swipes : Field (members.get? "swipes") (message.swipes.map fun ss => .array (ss.map .string))
  extra : members.others = message.extra

theorem field_nullable {α : Type} (write : α → Json) (given : Option (Option α)) :
    Field (given.map (nullable write)) ((given.getD none).map write) := by
  match given with
  | none => exact .inl rfl
  | some none => exact .inr rfl
  | some (some x) => exact rfl

theorem Given.Within.message {given : Given} {members : Members} (h : given.Within members) :
    given.message.Within members where
  keys := h.keys
  isUser := by
    rw [h.isUser]
    show _ = Json.boolean (given.isUser.getD false)
    cases given.isUser <;> rfl
  body := by
    rw [h.body]
    exact field_nullable _ _
  swipes := by
    rw [h.swipes]
    exact field_nullable _ _
  extra := h.extra

/-- A message is read from the members of an object. -/
theorem read_eq_ok {c c' : Cursor} {message : Message} :
    read c = .ok (message, c') ↔ ∃ rest given, c.skipGap.rest = '\x7b' :: rest ∧
      Json.Read.members readMember {} c.skipGap.next = .ok (given, c') ∧ given.message = message := by
  simp only [read]
  constructor
  · intro h
    split at h
    · case _ rest hrest =>
      obtain ⟨⟨given, c₁⟩, hmembers, heq⟩ := map_eq_ok h
      cases heq
      exact ⟨rest, given, hrest, hmembers, rfl⟩
    · cases h
  · intro h
    obtain ⟨rest, given, hrest, hmembers, rfl⟩ := h
    simp only [hrest, hmembers]
    rfl

/-- **What reads as a message reads as an object that holds it.** -/
theorem object_of_message {text : String} {message : Message} (h : ofText text = .ok message) :
    ∃ members, Json.ofText text = .ok (.object members) ∧ message.Within members := by
  obtain ⟨c, hread, hfinish⟩ := Json.readAll_eq_ok.1 h
  obtain ⟨rest, given, hrest, hmembers, rfl⟩ := read_eq_ok.1 hread
  have hnone : Given.Within {} [] := ⟨List.Pairwise.nil, rfl, rfl, rfl, rfl⟩
  obtain ⟨members, hmembers', hwithin⟩ :=
    Json.Read.membersFrom_simulates readMember_within hnone hmembers
  have hvalue : Json.Read.value (126 + 1) (.start text) = .ok (.object members, c) :=
    (Json.Read.value_object hrest).trans (congrArg (Except.map _) hmembers')
  exact ⟨members, Json.readAll_eq_ok.2 ⟨c, hvalue, hfinish⟩, hwithin.message⟩

end Message

end PipeGuard
