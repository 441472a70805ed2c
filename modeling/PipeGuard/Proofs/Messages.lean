import PipeGuard.Proofs.Reading
import PipeGuard.Proofs.Rewriting

/-! Messages read back from the records that a sweep leaves.

The members of a record determine its message (`Within.unique`), and a record with whole
numbers, written on one line, is read as that message again (`ofText_written`). A sweep
changes the texts of a record as it changes those of its message (`Within.escaped`), so
what it leaves on a line is the message it had in mind (`messageOf_rewritten`), and the
text it leaves is the chat (`parse_rewritten`). -/
namespace PipeGuard

open Json (Cursor Read compact)
open Json.Read (Takes nullable valueMember)

/-! ### Values of one kind -/

namespace Json.Read

theorem boolean_written (b : Bool) : Takes Read.boolean (compact (.boolean b)) b := by
  intro rest position _
  cases b <;> exact ⟨_, rfl⟩

theorem textValue_written (s : String) : Takes textValue (compact (.string s)) s := by
  intro rest position _
  obtain ⟨position', hread⟩ := string_written s rest position
  exact ⟨position', hread⟩

theorem texts_written (ss : List String) :
    Takes (sequence textValue) (compact (.array (ss.map .string))) ss := by
  intro rest position _
  obtain ⟨tail, htail, position', hread⟩ := items_written
    (fun s _ => begins_compact fun n hn => absurd hn List.not_mem_nil)
    (fun s _ => textValue_written s) rest (position.after '[')
  refine ⟨position', ?_⟩
  rw [htail]
  exact hread

/-- A value that is not null, where one may be null. -/
theorem optional_written {α : Type} {item : Cursor → Read α} {c : Char} {tail : List Char} {x : α}
    (h : Takes item (c :: tail) x) (hgap : isGap c = false) (hnull : c ≠ 'n') :
    Takes (optional item) (c :: tail) (some x) := by
  intro rest position hrest
  obtain ⟨position', hread⟩ := h rest position hrest
  refine ⟨position', ?_⟩
  unfold optional
  rw [List.cons_append] at hread ⊢
  simp only [skipGap_cons hgap]
  split
  · case _ heq => exact absurd (List.cons.inj heq).1 hnull
  · rw [hread]
    rfl

theorem nullable_written {α : Type} {item : Cursor → Read α} {write : α → Json}
    (h : ∀ x, ∃ c tail, compact (write x) = c :: tail ∧ isGap c = false ∧ c ≠ 'n' ∧
      Takes item (c :: tail) x) (x : Option α) :
    Takes (optional item) (compact (nullable write x)) x := by
  cases x with
  | none => exact fun _ _ _ => ⟨_, rfl⟩
  | some x =>
    obtain ⟨c, tail, hcompact, hgap, hnull, hitem⟩ := h x
    show Takes _ (compact (write x)) _
    rw [hcompact]
    exact optional_written hitem hgap hnull

/-- The first quote of a string is no blank, and no null. -/
theorem body_written (body : Option String) :
    Takes (optional textValue) (compact (nullable .string body)) body :=
  nullable_written (fun s => ⟨'"', _, rfl, by decide, by decide, textValue_written s⟩) body

theorem swipes_written (swipes : Option (List String)) :
    Takes (optional (sequence textValue))
      (compact (nullable (fun ss => .array (ss.map .string)) swipes)) swipes := by
  refine nullable_written (fun ss => ?_) swipes
  have hwritten := texts_written ss
  obtain ⟨tail, htail⟩ : ∃ tail, compact (.array (ss.map .string)) = '[' :: tail := by
    cases ss <;> exact ⟨_, rfl⟩
  exact ⟨'[', tail, htail, by decide, by decide, htail ▸ hwritten⟩

end Json.Read

/-! ### The message of a record -/

namespace Message

/-! A field that holds a value. -/

section
variable {α : Type} {write : α → Json} {value : Json} {x : Option α}

theorem eq_nullable (h : Field (some value) (x.map write)) : value = nullable write x := by
  cases x with
  | none => exact Option.some.inj (h.resolve_left (Option.some_ne_none value))
  | some x => exact Option.some.inj h

theorem ne_some_write (hnull : ∀ x, write x ≠ .null) {found : Option Json} {y : α}
    (h : Field found none) : found ≠ some (write y) := by
  rintro rfl
  rcases h with h | h
  · cases h
  · exact hnull y (Option.some.inj h)

theorem Field.unique (hinj : Function.Injective write) (hnull : ∀ x, write x ≠ .null)
    {found : Option Json} {y : Option α} (hx : Field found (x.map write))
    (hy : Field found (y.map write)) : x = y := by
  cases x with
  | none =>
    cases y with
    | none => rfl
    | some y => exact absurd hy (ne_some_write hnull hx)
  | some x =>
    cases y with
    | none => exact absurd hx (ne_some_write hnull hy)
    | some y => exact congrArg some (hinj (Option.some.inj (hx.symm.trans hy)))

end

theorem texts_injective :
    Function.Injective fun ss : List String => Json.array (ss.map .string) := fun _ _ h =>
  List.map_injective_iff.mpr (fun _ _ h => Json.string.inj h) (Json.array.inj h)

/-- **The members of a record determine its message.** -/
theorem Within.unique {message other : Message} {members : Members} (h : message.Within members)
    (hother : other.Within members) : message = other := by
  have huser : message.isUser = other.isUser :=
    Json.boolean.inj (h.isUser.symm.trans hother.isUser)
  have hbody : message.body = other.body :=
    h.body.unique (fun _ _ h => Json.string.inj h) (fun _ h => nomatch h) hother.body
  have hswipes : message.swipes = other.swipes :=
    h.swipes.unique texts_injective (fun _ h => nomatch h) hother.swipes
  have hextra : message.extra = other.extra := h.extra.symm.trans hother.extra
  cases message
  cases other
  cases huser
  cases hbody
  cases hswipes
  cases hextra
  rfl

theorem readField_written {α : Type} (name : String) {item : Cursor → Read α} {text : List Char}
    {x : α} (h : Takes item text x) : Takes (readField name none item) (':' :: text) x := by
  intro rest position hrest
  obtain ⟨position', hread⟩ := h rest (position.after ':') hrest
  exact ⟨position', hread⟩

/-- One more member of a record, read as a field or carried along. -/
theorem readMember_written {message : Message} {given : Given} {seen left : Members}
    {m : String × Json} (h : message.Within (seen ++ m :: left)) (hgiven : given.Within seen)
    (hsound : Json.Sound (Json.depthLimit - 1) m.2) (hwhole : m.2.IsWhole) :
    ∃ given', Takes (readMember given m.1) (':' :: compact m.2) given' := by
  obtain ⟨key, value⟩ := m
  obtain ⟨hnew, hget⟩ := Members.get?_split h.keys
  simp only at hnew hget hsound hwhole ⊢
  by_cases huser : key = "is_user"
  · subst huser
    have hvalue : value = .boolean message.isUser := by
      have hgot := h.isUser
      rw [hget] at hgot
      exact hgot
    have hnone : given.isUser = none :=
      Option.map_eq_none_iff.mp (hgiven.isUser.symm.trans hnew)
    rw [hvalue]
    exact ⟨_, (readField_written _ (Json.Read.boolean_written _)).map
      (fun b => { given with isUser := some b }) fun c => by rw [readMember, if_pos rfl, hnone]⟩
  · by_cases hmes : key = "mes"
    · subst hmes
      have hvalue : value = nullable .string message.body := eq_nullable (hget ▸ h.body)
      have hnone : given.body = none := Option.map_eq_none_iff.mp (hgiven.body.symm.trans hnew)
      rw [hvalue]
      exact ⟨_, (readField_written _ (Json.Read.body_written _)).map
        (fun s => { given with body := some s }) fun c => by
          rw [readMember, if_neg huser, if_pos rfl, hnone]⟩
    · by_cases hswipes : key = "swipes"
      · subst hswipes
        have hvalue : value = nullable (fun ss => .array (ss.map .string)) message.swipes :=
          eq_nullable (hget ▸ h.swipes)
        have hnone : given.swipes = none :=
          Option.map_eq_none_iff.mp (hgiven.swipes.symm.trans hnew)
        rw [hvalue]
        exact ⟨_, (readField_written _ (Json.Read.swipes_written _)).map
          (fun ss => { given with swipes := some ss }) fun c => by
            rw [readMember, if_neg huser, if_neg hmes, if_pos rfl, hnone]⟩
      · refine ⟨_, (readField_written key (Json.Read.value_written hsound hwhole)).map
          (fun x => { given with extra := given.extra.put key x }) fun c => ?_⟩
        rw [readMember, if_neg huser, if_neg hmes, if_neg hswipes]
        unfold readField
        cases Json.Read.colon c <;> rfl

/-- One more member, read twice and noted down alike. -/
theorem readMember_step {message : Message} {members : Members} (h : message.Within members)
    (hsound : ∀ m ∈ members, Json.Sound (Json.depthLimit - 1) m.2)
    (hwhole : (Json.object members).IsWhole) {given : Given} {m : String × Json} {left : Members}
    (hgiven : ∃ seen : Members, given.Within seen ∧ seen ++ m :: left = members) :
    ∃ given', (∃ seen : Members, given'.Within seen ∧ seen ++ left = members) ∧
      Takes (readMember given m.1) (':' :: compact m.2) given' := by
  obtain ⟨seen, hseen, rfl⟩ := hgiven
  have hm : m ∈ seen ++ m :: left := List.mem_append_right _ List.mem_cons_self
  obtain ⟨given', hread⟩ := readMember_written h hseen (hsound m hm) (hwhole.member hm)
  refine ⟨given', ⟨seen ++ [m], ?_, List.append_assoc _ _ _⟩, hread⟩
  -- as a value the member goes behind those before it
  obtain ⟨position, hfield⟩ := hread [] {} Json.stops_nil
  obtain ⟨members', hmember, hwithin⟩ := readMember_within hseen hfield
  obtain ⟨position', hvalue⟩ := Json.Read.valueMember_written
    (Json.Read.value_written (hsound m hm) (hwhole.member hm)) seen m.1 [] {} Json.stops_nil
  have hmembers : members' = seen ++ [m] := by
    rw [hmember] at hvalue
    rw [← Members.put_of_not_mem (Members.not_mem_keys_split h.keys)]
    exact (Prod.mk.inj (Except.ok.inj hvalue)).1
  rw [← hmembers]
  exact hwithin

/-- **A record written on one line is read as its message.** -/
theorem ofText_written {message : Message} {members : Members} (h : message.Within members)
    (hsound : Json.Sound Json.depthLimit (.object members))
    (hwhole : (Json.object members).IsWhole) :
    ofText (Json.object members).toCompact = .ok message := by
  have hinner : ∀ m ∈ members, Json.Sound (Json.depthLimit - 1) m.2 := by
    cases hsound with
    | object _ hinner => exact hinner
  have hempty : ∃ seen : Members, Given.Within {} seen ∧ seen ++ members = members :=
    ⟨[], ⟨List.Pairwise.nil, rfl, rfl, rfl, rfl⟩, rfl⟩
  obtain ⟨tail, htail, given, position, ⟨seen, hgiven, hall⟩, hread⟩ :=
    @Json.Read.members_written Given readMember
      (fun given left => ∃ seen : Members, given.Within seen ∧ seen ++ left = members)
      (fun _ _ _ hgiven => readMember_step h hinner hwhole hgiven) _ _ hempty []
      (Json.Position.after {} '\x7b')
  rw [List.append_nil] at hread hall
  have hmessage : given.message = message := (hall ▸ hgiven.message).unique h
  have hrecord : read ⟨'\x7b' :: tail, {}⟩ = .ok (message, ⟨[], position⟩) :=
    read_eq_ok.2 ⟨tail, given, rfl, hread, hmessage⟩
  refine Json.readAll_eq_ok.2 ⟨⟨[], position⟩, ?_, rfl⟩
  rw [Cursor.start, Json.toCompact, String.toList_ofList, htail]
  exact hrecord

end Message

/-! ### What a sweep leaves -/

namespace Json

variable (settings : Settings)

theorem numbers_escaped (x : Json) : (x.escaped settings).numbers = x.numbers := by
  cases x <;> rfl

theorem numbers_escapedItems (x : Json) : (x.escapedItems settings).numbers = x.numbers := by
  cases x with
  | array items =>
    show numbers (.array (items.map (Json.escaped settings))) = _
    rw [numbers, numbers, itemNumbers_eq, itemNumbers_eq, List.flatMap_map]
    exact List.flatMap_congr fun x _ => numbers_escaped settings x
  | _ => rfl

theorem Sound.escaped {depth : Nat} {x : Json} (h : Sound depth x) :
    Sound depth (x.escaped settings) := by
  cases h with
  | number h => exact .number h
  | string s => exact .string _
  | array h => exact .array h
  | object hkeys h => exact .object hkeys h
  | _ => constructor

theorem Sound.escapedItems {depth : Nat} {x : Json} (h : Sound depth x) :
    Sound depth (x.escapedItems settings) := by
  cases h with
  | number h => exact .number h
  | array h =>
    refine .array fun x hx => ?_
    obtain ⟨y, hy, rfl⟩ := List.mem_map.mp hx
    exact (h y hy).escaped settings
  | object hkeys h => exact .object hkeys h
  | _ => constructor

theorem numbers_change {f : Json → Json} (hf : ∀ x, (f x).numbers = x.numbers) (key : String)
    (members : Members) : numbers (.object (members.change key f)) = numbers (.object members) := by
  rw [numbers, numbers, memberNumbers_eq, memberNumbers_eq, Members.change, List.flatMap_map]
  refine List.flatMap_congr fun m _ => ?_
  split
  · exact hf m.2
  · rfl

theorem Sound.change {f : Json → Json} (hf : ∀ {depth x}, Sound depth x → Sound depth (f x))
    (key : String) {depth : Nat} {members : Members} (h : Sound depth (.object members)) :
    Sound depth (.object (members.change key f)) := by
  cases h with
  | object hkeys hall =>
    refine .object (Members.keys_change key f members ▸ hkeys) fun m hm => ?_
    obtain ⟨m', hm', rfl⟩ := List.mem_map.mp hm
    split
    · exact hf (hall m' hm')
    · exact hall m' hm'

theorem Sound.escapedMembers {depth : Nat} {members : Members}
    (h : Sound depth (.object members)) : Sound depth (.object (members.escaped settings)) :=
  (h.change (Sound.escaped settings) "mes").change (Sound.escapedItems settings) "swipes"

theorem IsWhole.escapedMembers {members : Members} (h : (object members).IsWhole) :
    (object (members.escaped settings)).IsWhole := by
  unfold IsWhole Members.escaped
  rw [numbers_change (numbers_escapedItems settings), numbers_change (numbers_escaped settings)]
  exact h

end Json

namespace Message

theorem Field.change {α : Type} {write : α → Json} {g : α → α} {f : Json → Json}
    (hwrite : ∀ x, f (write x) = write (g x)) (hnull : f .null = .null) {found : Option Json}
    {x : Option α} (h : Field found (x.map write)) :
    Field (found.map f) ((x.map g).map write) := by
  cases x with
  | none =>
    rcases h with rfl | rfl
    · exact .inl rfl
    · exact .inr (congrArg some hnull)
  | some x =>
    obtain rfl : found = some (write x) := h
    exact congrArg some (hwrite x)

/-- A sweep does to a record what it does to its message. -/
theorem Within.escaped (settings : Settings) {message : Message} {members : Members}
    (h : message.Within members) : (message.escaped settings).Within (members.escaped settings) where
  keys := members.keys_escaped settings ▸ h.keys
  isUser := by
    rw [Members.escaped, Members.get?_change_of_ne (by decide),
      Members.get?_change_of_ne (by decide)]
    exact h.isUser
  body := by
    rw [Members.escaped, Members.get?_change_of_ne (by decide), Members.get?_change_self]
    have hstring : ∀ s, Json.escaped settings (.string s) = .string (settings.escaped s) :=
      fun _ => rfl
    exact h.body.change hstring rfl
  swipes := by
    rw [Members.escaped, Members.get?_change_self, Members.get?_change_of_ne (by decide)]
    exact h.swipes.change (Transcript.escapedItems_texts settings) rfl
  extra := by
    rw [Members.escaped, Members.others_change (by decide), Members.others_change (by decide)]
    exact h.extra

end Message

namespace Transcript

variable {settings : Settings}

/-- A record is not blank. -/
theorem allBlank_object (members : Members) :
    Text.allBlank (Json.object members).toCompact.toList = false := by
  unfold Json.toCompact
  rw [String.toList_ofList]
  cases members <;> rfl

/-- **What a sweep leaves on a line is its message, swept.** -/
theorem messageOf_rewritten {row row' : Row} (h : Rewritten settings row row') {message : Message}
    (hmessage : messageOf row = .ok message)
    (hwhole : ∀ value, Json.ofText row.text = .ok value → value.IsWhole) :
    messageOf row' = .ok (message.escaped settings) := by
  by_cases ht : message.Touched settings
  · obtain ⟨members, hvalue, htext, -⟩ := h.touched message hmessage ht
    obtain ⟨members', hvalue', hwithin⟩ := record_of_touched hmessage ht
    obtain rfl : members = members' := Json.object.inj (Except.ok.inj (hvalue.symm.trans hvalue'))
    have hread := Message.ofText_written (hwithin.escaped settings)
      ((Json.ofText_sound hvalue).escapedMembers settings)
      ((hwhole _ hvalue).escapedMembers settings)
    unfold messageOf
    rw [htext, allBlank_object, if_neg Bool.false_ne_true]
    exact hread
  · have hsame : message.escaped settings = message := not_not.mp (mt Message.touched_iff.mpr ht)
    have htext : row'.text = row.text := h.kept message hmessage ht
    unfold messageOf at hmessage ⊢
    rw [htext, hsame]
    exact hmessage

/-- A line that reads as a message can be written again, whatever its message has become. -/
theorem patch_record {text : String} {message : Message} (h : Message.ofText text = .ok message)
    (other : Message) : ∃ patched, patch text other = .ok patched := by
  obtain ⟨members, hvalue, -⟩ := Message.object_of_message h
  unfold patch
  rw [hvalue]
  exact ⟨_, rfl⟩

/-! ### All lines -/

theorem messagesFrom_eq_ok {lines : List Row} {messages : List Message} {number : Nat} :
    messagesFrom number lines = .ok messages ↔
      List.Forall₂ (fun row message => messageOf row = .ok message) lines messages := by
  constructor
  · intro h
    induction lines generalizing messages number with
    | nil =>
      cases h
      exact .nil
    | cons row lines ih =>
      rw [messagesFrom] at h
      split at h
      · cases h
      · case _ hmessage =>
        obtain ⟨later, hlater, rfl⟩ := map_eq_ok h
        exact .cons hmessage (ih hlater)
  · intro h
    induction h generalizing number with
    | nil => rfl
    | cons hmessage _ ih =>
      rw [messagesFrom, hmessage]
      simp only [ih]
      rfl

theorem parse_eq_ok {content : String} {parsed : Parsed} :
    parse content = .ok parsed ↔ parsed.rows = rows content ∧
      List.Forall₂ (fun row message => messageOf row = .ok message) (rows content) parsed.chat := by
  rw [← @messagesFrom_eq_ok _ _ 1]
  unfold parse
  constructor
  · intro h
    obtain ⟨chat, hchat, rfl⟩ := map_eq_ok h
    exact ⟨rfl, hchat⟩
  · rintro ⟨hrows, hchat⟩
    simp only [hchat]
    cases parsed
    cases hrows
    rfl

/-- A text that can be parsed has only blank lines and records. -/
theorem readable_of_parse {content : String} {parsed : Parsed} (h : parse content = .ok parsed) :
    Readable content := by
  have hall := (parse_eq_ok.mp h).2
  unfold Readable
  generalize rows content = lines, parsed.chat = messages at hall
  induction hall with
  | nil => exact fun _ hrow => absurd hrow List.not_mem_nil
  | @cons row message lines messages hmessage _ ih =>
    refine List.forall_mem_cons.mpr ⟨?_, ih⟩
    unfold messageOf at hmessage
    split at hmessage
    · case _ hblank => exact .inl hblank
    · exact .inr ⟨message, hmessage⟩

/-- All numbers of the records of a text are whole. -/
def WholeNumbers (content : String) : Prop :=
  ∀ row ∈ rows content, ∀ value, Json.ofText row.text = .ok value → value.IsWhole

instance (text : String) : Decidable (∀ value, Json.ofText text = .ok value → value.IsWhole) :=
  match Json.ofText text with
  | .error _ => .isTrue fun _ h => nomatch h
  | .ok value => decidable_of_iff value.IsWhole
    ⟨fun h _ hvalue => Except.ok.inj hvalue ▸ h, fun h => h value rfl⟩

instance (content : String) : Decidable (WholeNumbers content) :=
  List.decidableBAll _ (rows content)

theorem messages_rewritten {lines lines' : List Row} {messages : List Message}
    (hmessages : List.Forall₂ (fun row message => messageOf row = .ok message) lines messages)
    (h : List.Forall₂ (Rewritten settings) lines lines')
    (hwhole : ∀ row ∈ lines, ∀ value, Json.ofText row.text = .ok value → value.IsWhole) :
    List.Forall₂ (fun row message => messageOf row = .ok message) lines'
      (messages.map (·.escaped settings)) := by
  induction hmessages generalizing lines' with
  | nil =>
    cases h
    exact .nil
  | cons hmessage _ ih =>
    cases h with
    | cons hrewritten h =>
      obtain ⟨hfirst, hlater⟩ := List.forall_mem_cons.mp hwhole
      exact .cons (messageOf_rewritten hrewritten hmessage hfirst) (ih h hlater)

/-- **What a sweep leaves of a text is its chat, swept.** -/
theorem parse_rewritten {content output : String} {parsed : Parsed}
    (hparse : parse content = .ok parsed) (hwhole : WholeNumbers content)
    (h : List.Forall₂ (Rewritten settings) (rows content) (rows output)) :
    parse output = .ok ⟨rows output, (sweep settings parsed.chat).chat⟩ := by
  rw [parse_eq_ok, sweep_chat]
  exact ⟨rfl, messages_rewritten (parse_eq_ok.mp hparse).2 h hwhole⟩

end Transcript

end PipeGuard
