import PipeGuard.Proofs.Literals
import PipeGuard.Proofs.Reading

/-! Numbers at their places.

A place in a value is a way down to it, by keys and by indices. A text is read once more for the
literal of the number at a place (`Read.literalAt`), along with the reader of values, so the literal
reads as the number that stands there (`literalAt_read`). In the text of a value it is what that
number is written as (`literalAt_laid`).

`literal?_copied`: a number that stands at one place of two values, the one read and the other
written, is copied from the one text to the other. -/
namespace PipeGuard.Json

/-- A step down in a value: to a member of an object, or to an item of an array. -/
inductive Step
  | key (key : String)
  | index (i : Nat)
  deriving DecidableEq, Repr

/-- The number at a place in a value. -/
def numberAt? : List Step → Json → Option Number
  | [], .number n => some n
  | .key key :: place, .object ms => (Members.get? key ms).bind (numberAt? place)
  | .index i :: place, .array xs => xs[i]?.bind (numberAt? place)
  | _, _ => none

/-- What the number at a place is written as. -/
def writtenAt? (place : List Step) (x : Json) : Option (List Char) :=
  (x.numberAt? place).map Number.render

/-- The text from one cursor to a later one. -/
def Cursor.upTo (c c' : Cursor) : List Char := c.rest.take (c.rest.length - c'.rest.length)

theorem Cursor.upTo_eq {c c' : Cursor} {text : List Char} (h : c.rest = text ++ c'.rest) :
    c.upTo c' = text := by
  unfold upTo
  rw [h, List.length_append, Nat.add_sub_cancel_right, List.take_left]

namespace Read

/-- What a value was read from, if it is a number. -/
def spelled (c c' : Cursor) : Json → Option (List Char)
  | .number _ => some (c.upTo c')
  | _ => none

/-- Passes a value. -/
def passed {α : Type} (depth : Nat) (found : α) (c : Cursor) : Read α :=
  (value depth c).map fun (_, c) => (found, c)

/-- Reads on from the end of a key, and looks into the member if it is the right one. If the key
comes again, what was found before is forgotten. -/
def soughtMember {α : Type} (key : String) (depth : Nat) (seek : Cursor → Read α) (found : α)
    (name : String) (c : Cursor) : Read α :=
  match colon c with
  | .error fault => .error fault
  | .ok c => if name = key then seek c else passed depth found c

/-- Reads a value, and keeps the literal of the number at a place in it. -/
def literalAt : List Step → Nat → Cursor → Read (Option (List Char))
  | [], depth, c =>
    let c := c.skipGap
    (value depth c).map fun (x, c') => (spelled c c' x, c')
  | .key key :: place, depth, c =>
    let c := c.skipGap
    match depth, c.rest with
    | inner + 1, '\x7b' :: _ =>
      members (soughtMember key inner (literalAt place inner)) none c.next
    | depth, _ => passed depth none c
  | .index i :: place, depth, c =>
    let c := c.skipGap
    match depth, c.rest with
    | inner + 1, '[' :: _ =>
      (items (literalAt place inner) c.next).map fun (found, c) => (found[i]?.join, c)
    | depth, _ => passed depth none c

/-! ### Beside the reader of values -/

section
variable {c c' : Cursor} {rest : List Char} {depth : Nat} {x : Json} {place : List Step}

theorem literalAt_skipGap (place : List Step) (depth : Nat) (c : Cursor) :
    literalAt place depth c.skipGap = literalAt place depth c := by
  cases place with
  | nil => rw [literalAt, literalAt, skipGap_skipGap]
  | cons step place =>
    cases step <;>
    · unfold literalAt
      rw [skipGap_skipGap]

theorem literalAt_key (key : String) (place : List Step) (h : c.skipGap.rest = '\x7b' :: rest) :
    literalAt (.key key :: place) (depth + 1) c =
      members (soughtMember key depth (literalAt place depth)) none c.skipGap.next := by
  unfold literalAt
  simp only [h]

theorem literalAt_index (i : Nat) (place : List Step) (h : c.skipGap.rest = '[' :: rest) :
    literalAt (.index i :: place) (depth + 1) c =
      (items (literalAt place depth) c.skipGap.next).map fun (found, c) => (found[i]?.join, c) := by
  unfold literalAt
  simp only [h]

theorem passed_read {α : Type} (found : α) (h : value depth c = .ok (x, c')) :
    passed depth found c = .ok (found, c') := by
  unfold passed
  rw [h]
  rfl

theorem passed_gap {α : Type} (found : α) (h : value depth c = .ok (x, c')) :
    passed depth found c.skipGap = .ok (found, c') :=
  passed_read found ((value_skipGap depth c).trans h)

/-- Only objects have keys. -/
theorem literalAt_no_object {key : String} (h : value depth c = .ok (x, c'))
    (hx : ∀ ms, x ≠ .object ms) : literalAt (.key key :: place) depth c = .ok (none, c') := by
  unfold literalAt
  simp only
  split
  · case _ hrest =>
    rw [value_object hrest] at h
    obtain ⟨_, -, heq⟩ := map_eq_ok h
    exact absurd (Prod.mk.inj heq).1.symm (hx _)
  · exact passed_gap none h

/-- Only arrays have items. -/
theorem literalAt_no_array {i : Nat} (h : value depth c = .ok (x, c')) (hx : ∀ xs, x ≠ .array xs) :
    literalAt (.index i :: place) depth c = .ok (none, c') := by
  unfold literalAt
  simp only
  split
  · case _ hrest =>
    rw [value_array hrest] at h
    obtain ⟨_, -, heq⟩ := map_eq_ok h
    exact absurd (Prod.mk.inj heq).1.symm (hx _)
  · exact passed_gap none h

end

/-- A literal that a number was read from. -/
structure Spells (l : List Char) (n : Number) : Prop where
  reads : (Literal.ofChars l).ReadAs n
  kept : n.Kept

theorem spells_number {depth : Nat} {c c' : Cursor} {n : Number}
    (h : value depth c = .ok (.number n, c')) :
    ∃ l, c.skipGap.rest = l ++ c'.rest ∧ Spells l n := by
  obtain ⟨⟨rest, hrest⟩, hread⟩ | ⟨-, hread⟩ := value_eq_ok h
  · obtain ⟨text, htext, hreads⟩ := Literal.number_literal hread
    rw [Cursor.rest_next, hrest] at htext
    refine ⟨'-' :: text, ?_, hreads, number_kept hread⟩
    rw [hrest]
    exact congrArg ('-' :: ·) htext
  · obtain ⟨text, htext, hreads⟩ := Literal.number_literal hread
    exact ⟨text, htext, hreads, number_kept hread⟩

/-- What was found at a place goes with what stands there. -/
abbrev Finds (found : Option (List Char)) (number : Option Number) : Prop :=
  Option.Rel Spells found number

/-- One more member, read as a value and for what is sought. -/
theorem soughtMember_read {key : String} {place : List Step} {depth : Nat}
    (hseek : ∀ {c c' x}, value depth c = .ok (x, c') →
      ∃ found, literalAt place depth c = .ok (found, c') ∧ Finds found (x.numberAt? place))
    {done done' : Members} {found : Option (List Char)} {name : String} {c c' : Cursor}
    (hfound : Finds found ((done.get? key).bind (numberAt? place)))
    (h : valueMember depth done name c = .ok (done', c')) :
    ∃ found', soughtMember key depth (literalAt place depth) found name c = .ok (found', c') ∧
      Finds found' ((done'.get? key).bind (numberAt? place)) := by
  unfold valueMember at h
  unfold soughtMember
  cases hcolon : colon c with
  | error fault => rw [hcolon] at h; cases h
  | ok c₁ =>
    rw [hcolon] at h
    obtain ⟨⟨x, c₂⟩, hread, heq⟩ := map_eq_ok h
    cases heq
    simp only
    by_cases hname : name = key
    · obtain ⟨found', hread', hfound'⟩ := hseek hread
      refine ⟨found', by rw [if_pos hname, hread'], ?_⟩
      rw [hname, Members.get?_put_self]
      exact hfound'
    · refine ⟨found, by rw [if_neg hname, passed_read found hread], ?_⟩
      rwa [Members.get?_put_of_ne (Ne.symm hname)]

/-- **The literal at a place reads as the number that stands there.** -/
theorem literalAt_read {place : List Step} {depth : Nat} {c c' : Cursor} {x : Json}
    (h : value depth c = .ok (x, c')) :
    ∃ found, literalAt place depth c = .ok (found, c') ∧ Finds found (x.numberAt? place) := by
  induction place generalizing depth c c' x with
  | nil =>
    refine ⟨spelled c.skipGap c' x, by rw [literalAt, value_skipGap, h]; rfl, ?_⟩
    cases x with
    | number n =>
      obtain ⟨l, hrest, hspells⟩ := spells_number h
      show Finds (some (c.skipGap.upTo c')) (some n)
      rw [Cursor.upTo_eq hrest]
      exact .some hspells
    | _ => exact .none
  | cons step place ih =>
    cases step with
    | key key =>
      cases x with
      | object ms =>
        obtain ⟨inner, rfl, ⟨rest, hrest⟩, hread⟩ := value_eq_ok h
        have hnone : Finds none ((Members.get? key []).bind (numberAt? place)) := .none
        obtain ⟨found, hfound, hfinds⟩ := @membersFrom_simulates _ _
          (fun ms found => Finds found ((Members.get? key ms).bind (numberAt? place)))
          (valueMember inner) (soughtMember key inner (literalAt place inner))
          (fun hfinds hmember => soughtMember_read ih hfinds hmember) _ _ _ _ _ _ _ hnone hread
        exact ⟨found, (literalAt_key key place hrest).trans hfound, hfinds⟩
      | _ => exact ⟨none, literalAt_no_object h (fun _ heq => nomatch heq), .none⟩
    | index i =>
      cases x with
      | array xs =>
        obtain ⟨inner, rfl, ⟨rest, hrest⟩, hread⟩ := value_eq_ok h
        obtain ⟨found, hfound, hall⟩ := @itemsFrom_simulates _ _
          (fun x found => Finds found (x.numberAt? place)) (value inner) (literalAt place inner) ih
          _ _ _ _ _ _ _ .nil hread
        refine ⟨found[i]?.join, ?_, ?_⟩
        · rw [literalAt_index i place hrest]
          unfold items
          rw [hfound]
          rfl
        · have hlength := hall.length_eq
          show Finds _ (xs[i]?.bind (numberAt? place))
          rcases lt_or_ge i xs.length with hi | hi
          · rw [List.getElem?_eq_getElem hi, List.getElem?_eq_getElem (hlength ▸ hi)]
            exact hall.get hi (hlength ▸ hi)
          · rw [List.getElem?_eq_none hi, List.getElem?_eq_none (hlength ▸ hi)]
            exact .none
      | _ => exact ⟨none, literalAt_no_array h (fun _ heq => nomatch heq), .none⟩

/-! ### In a text that was written -/

theorem upTo_append (text rest : List Char) (position position' : Position) :
    Cursor.upTo ⟨text ++ rest, position⟩ ⟨rest, position'⟩ = text := Cursor.upTo_eq rfl

section
variable {depth : Nat} {text : List Char} {x : Json} {place : List Step}
  (h : Takes (value depth) text x)
include h

theorem Takes.no_object {key : String} (hx : ∀ ms, x ≠ .object ms) :
    Takes (literalAt (.key key :: place) depth) text none := by
  intro rest position hrest
  obtain ⟨position', hread⟩ := h rest position hrest
  exact ⟨position', literalAt_no_object hread hx⟩

theorem Takes.no_array {i : Nat} (hx : ∀ xs, x ≠ .array xs) :
    Takes (literalAt (.index i :: place) depth) text none := by
  intro rest position hrest
  obtain ⟨position', hread⟩ := h rest position hrest
  exact ⟨position', literalAt_no_array hread hx⟩

end

/-- Reads back a member of an object after its key, for what is sought. -/
theorem soughtMember_written {α : Type} {key name : String} {depth : Nat} {seek : Cursor → Read α}
    {text : List Char} {x : Json} {y found : α} (hvalue : Takes (value depth) text x)
    (hseek : Takes seek text y) :
    Takes (soughtMember key depth seek found name) (':' :: text)
      (if name = key then y else found) := by
  intro rest position hrest
  show ∃ position', (if name = key then seek ⟨text ++ rest, position.after ':'⟩
    else passed depth found ⟨text ++ rest, position.after ':'⟩) = _
  by_cases hname : name = key
  · rw [if_pos hname, if_pos hname]
    exact hseek rest (position.after ':') hrest
  · obtain ⟨position', hread⟩ := hvalue rest (position.after ':') hrest
    refine ⟨position', ?_⟩
    rw [if_neg hname, if_neg hname]
    exact passed_read found hread

/-- Some first members of an object were passed, with what was found so far, and `left` is left. -/
def FoundUpTo (key : String) (place : List Step) (ms : Members) (found : Option (List Char))
    (left : Members) : Prop :=
  ∃ seen : Members, seen ++ left = ms ∧ found = (seen.get? key).bind (writtenAt? place)

namespace FoundUpTo

variable {key : String} {place : List Step} {ms left : Members} {found : Option (List Char)}
  {m : String × Json}

theorem start (key : String) (place : List Step) (ms : Members) : FoundUpTo key place ms none ms :=
  ⟨[], List.nil_append ms, rfl⟩

theorem mem (h : FoundUpTo key place ms found (m :: left)) : m ∈ ms := by
  obtain ⟨seen, hsplit, -⟩ := h
  exact hsplit ▸ List.mem_append_right _ List.mem_cons_self

/-- One more member was passed. -/
theorem next (h : FoundUpTo key place ms found (m :: left)) (hkeys : ms.keys.Nodup) :
    FoundUpTo key place ms (if m.1 = key then m.2.writtenAt? place else found) left := by
  obtain ⟨seen, hsplit, rfl⟩ := h
  refine ⟨seen ++ [m], by rw [List.append_assoc]; exact hsplit, ?_⟩
  have hnone := (Members.get?_split (hsplit ▸ hkeys)).1
  by_cases hkey : m.1 = key
  · rw [if_pos hkey, ← hkey, Members.get?_append_left hnone, Members.get?, if_pos rfl,
      Option.bind_some]
  · rw [if_neg hkey]
    cases hseen : seen.get? key with
    | none =>
      rw [Members.get?_append_left hseen, Members.get?, if_neg hkey]
      rfl
    | some x => rw [Members.get?_append_of_some hseen]

theorem all (h : FoundUpTo key place ms found []) :
    found = (object ms).writtenAt? (.key key :: place) := by
  obtain ⟨seen, hsplit, rfl⟩ := h
  rw [List.append_nil] at hsplit
  rw [hsplit, writtenAt?, numberAt?, Option.map_bind]
  rfl

end FoundUpTo

/-- What is sound is read back in some way. -/
theorem takes_laid (l : Layout) {depth : Nat} {x : Json} (h : Sound depth x) (d : Nat) :
    Begins (laid l d x) ∧ ∃ f, Takes (value depth) (laid l d x) (x.withNumbers f) := by
  obtain ⟨f, hf⟩ := h.legible
  exact ⟨begins_laid fun n hn => (hf n hn).begins, f, value_laid l h hf d⟩

/-- **The literal at a place of a value is what the number there is written as.** -/
theorem literalAt_laid (l : Layout) {place : List Step} {depth : Nat} {x : Json}
    (h : Sound depth x) (d : Nat) :
    Takes (literalAt place depth) (laid l d x) (x.writtenAt? place) := by
  obtain ⟨hbegins, f, hvalue⟩ := takes_laid l h d
  induction place generalizing depth x d f with
  | nil =>
    intro rest position hrest
    obtain ⟨position', hread⟩ := hvalue rest position hrest
    refine ⟨position', ?_⟩
    rw [literalAt, hbegins.skipGap rest position, hread]
    cases x with
    | number n =>
      rw [laid, withNumbers]
      show Except.ok (some (Cursor.upTo _ _), _) = _
      rw [upTo_append]
      rfl
    | _ =>
      rw [withNumbers]
      rfl
  | cons step place ih =>
    cases step with
    | key key =>
      cases x with
      | object ms =>
        cases h with
        | @object inner _ hkeys hall =>
        intro rest position _
        have hmember : ∀ (found : Option (List Char)) (m : String × Json) (left : Members),
            FoundUpTo key place ms found (m :: left) → ∃ found', FoundUpTo key place ms found' left ∧
              Takes (soughtMember key inner (literalAt place inner) found m.1)
                (':' :: (l.space ++ laid l (d + 1) m.2)) found' := by
          intro found m left hfound
          have hm := hall m hfound.mem
          obtain ⟨hbegins, f, hvalue⟩ := takes_laid l hm (d + 1)
          have hseek := ih hm (d + 1) hbegins f hvalue
          exact ⟨_, hfound.next hkeys, soughtMember_written
            (hvalue.gap (value_skipGap inner) l.gap_space hbegins)
            (hseek.gap (literalAt_skipGap place inner) l.gap_space hbegins)⟩
        obtain ⟨tail, htail, found, position', hfound, hread⟩ :=
          @members_laid l d _ _ _ hmember ms none (.start key place ms) rest (position.after '\x7b')
        refine ⟨position', ?_⟩
        rw [htail, literalAt_key key place rfl]
        show members _ none ⟨tail ++ rest, position.after '\x7b'⟩ = _
        rw [hread, hfound.all]
      | _ =>
        rw [withNumbers] at hvalue
        exact hvalue.no_object fun _ heq => nomatch heq
    | index i =>
      cases x with
      | array xs =>
        cases h with
        | @array inner _ hall =>
        intro rest position _
        have hitem : ∀ x ∈ xs, Begins (laid l (d + 1) x) ∧
            Takes (literalAt place inner) (laid l (d + 1) x) (x.writtenAt? place) := by
          intro x hx
          obtain ⟨hbegins, f, hvalue⟩ := takes_laid l (hall x hx) (d + 1)
          exact ⟨hbegins, ih (hall x hx) (d + 1) hbegins f hvalue⟩
        obtain ⟨tail, htail, position', hread⟩ := @items_laid _ _ _ id _ l d xs
          (fun x hx => (hitem x hx).1) (fun x hx => (hitem x hx).2) rest (position.after '[')
        refine ⟨position', ?_⟩
        rw [List.map_id] at htail
        rw [htail, literalAt_index i place rfl]
        show (items _ ⟨tail ++ rest, position.after '['⟩).map _ = _
        rw [hread, writtenAt?, numberAt?]
        refine congrArg (fun found => Except.ok (found, _)) ?_
        rw [List.getElem?_map]
        cases xs[i]? <;> rfl
      | _ =>
        rw [withNumbers] at hvalue
        exact hvalue.no_array fun _ heq => nomatch heq

end Read

/-! ### Whole texts -/

/-- The literal at a place of a text. -/
def literal? (text : String) (place : List Step) : Option (List Char) :=
  (readAll (Read.literalAt place depthLimit) text).toOption.join

section
variable {text : String} {x y : Json} {place : List Step}

/-- **The literal at a place of a text reads as the number that stands there.** -/
theorem literal?_read (h : ofText text = .ok x) :
    Read.Finds (literal? text place) (x.numberAt? place) := by
  obtain ⟨c, hread, hfinish⟩ := readAll_eq_ok.1 h
  obtain ⟨found, hfound, hfinds⟩ := @Read.literalAt_read place _ _ _ _ hread
  unfold literal?
  rw [readAll_eq_ok.2 ⟨c, hfound, hfinish⟩]
  exact hfinds

theorem literal?_laid (l : Layout) (h : Sound depthLimit x) :
    literal? (String.ofList (laid l 0 x)) place = x.writtenAt? place := by
  obtain ⟨position, hread⟩ := @Read.literalAt_laid l place _ _ h 0 [] {} stops_nil
  rw [List.append_nil] at hread
  have hstart : Read.literalAt place depthLimit (.start (String.ofList (laid l 0 x))) =
      .ok (x.writtenAt? place, ⟨[], position⟩) := by
    rw [Cursor.start, String.toList_ofList]
    exact hread
  unfold literal?
  rw [readAll_eq_ok.2 ⟨_, hstart, rfl⟩]
  rfl

/-- **A number is copied** from the text that was read to the text that is written, if it stands at
one place of both values. -/
theorem literal?_copied (h : ofText text = .ok x) (l : Layout) (hsound : Sound depthLimit y)
    (hsame : y.numberAt? place = x.numberAt? place) :
    Option.Rel Literal.Copied (literal? text place)
      (literal? (String.ofList (laid l 0 y)) place) := by
  have hfinds := @literal?_read _ _ place h
  rw [literal?_laid l hsound, writtenAt?, hsame]
  generalize literal? text place = found, x.numberAt? place = number at hfinds ⊢
  cases hfinds with
  | some hspells => exact .some (Literal.copied_of_readAs hspells.reads hspells.kept)
  | none => exact .none

end

end PipeGuard.Json
