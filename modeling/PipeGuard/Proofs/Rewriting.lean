import PipeGuard.Proofs.Compact
import PipeGuard.Proofs.Lines
import PipeGuard.Proofs.Record
import PipeGuard.Proofs.Sweeping

/-! What becomes of the text of a chat.

Of a record that a sweep touches the values of two keys are escaped and written anew, on
one line with the rest of it (`Members.escaped`). Every line of a text is either kept or
is rewritten so (`Row.Rewritten`).

`text_rewritten`: the lines that come out are those of the text that is written, in the
same number and with the same ends; a text with nothing to touch comes out as it was. -/
namespace PipeGuard

/-! ### One record -/

/-- A body, with its text escaped. -/
def Json.escaped (settings : Settings) : Json → Json
  | .string s => .string (settings.escaped s)
  | value => value

/-- Swipes, with their texts escaped. -/
def Json.escapedItems (settings : Settings) : Json → Json
  | .array items => .array (items.map (Json.escaped settings))
  | value => value

namespace Members

/-- A record with its texts escaped. All keys stay, in their order. -/
def escaped (settings : Settings) (members : Members) : Members :=
  (members.change "mes" (Json.escaped settings)).change "swipes" (Json.escapedItems settings)

theorem keys_escaped (settings : Settings) (members : Members) :
    (members.escaped settings).keys = members.keys := by
  unfold escaped
  rw [keys_change, keys_change]

end Members

namespace Transcript

open Message (Field)

/-- The members of a record with a field put in, if it has a value. -/
def putField {α : Type} (write : α → Json) (key : String) (members : Members) : Option α → Members
  | some x => members.put key (write x)
  | none => members

/-- Putting in the new value of a field is changing the value that is there. -/
theorem putField_map {α : Type} {write : α → Json} {g : α → α} {f : Json → Json}
    (hwrite : ∀ x, f (write x) = write (g x)) (hnull : f .null = .null) {key : String}
    {members : Members} (hkeys : members.keys.Nodup) {x : Option α}
    (hfield : Field (members.get? key) (x.map write)) :
    putField write key members (x.map g) = members.change key f := by
  cases x with
  | some x =>
    show members.put key (write (g x)) = _
    rw [Members.change_of_get? hkeys f hfield, hwrite]
  | none =>
    refine (Members.change_eq_self hkeys fun value hvalue => ?_).symm
    obtain hmissing | hthere := hfield
    · rw [hmissing] at hvalue
      cases hvalue
    · rw [hthere] at hvalue
      cases hvalue
      exact hnull

theorem patchMembers_eq (message : Message) (members : Members) :
    patchMembers message members =
      putField (fun ss => .array (ss.map .string)) "swipes"
        (putField .string "mes" members message.body) message.swipes := by
  unfold patchMembers
  cases message.body <;> cases message.swipes <;> rfl

theorem escapedItems_texts (settings : Settings) (texts : List String) :
    Json.escapedItems settings (.array (texts.map .string)) =
      .array ((texts.map settings.escaped).map .string) := by
  show Json.array ((texts.map Json.string).map (Json.escaped settings)) = _
  rw [List.map_map, List.map_map]
  rfl

theorem patchMembers_escaped {settings : Settings} {message : Message} {members : Members}
    (h : message.Within members) :
    patchMembers (message.escaped settings) members = members.escaped settings := by
  have hkeys : (members.change "mes" (Json.escaped settings)).keys.Nodup := by
    rw [Members.keys_change]
    exact h.keys
  have hswipes : Field ((members.change "mes" (Json.escaped settings)).get? "swipes")
      (message.swipes.map fun ss => .array (ss.map .string)) := by
    rw [Members.get?_change_of_ne (by decide)]
    exact h.swipes
  have hstring : ∀ s, Json.escaped settings (.string s) = .string (settings.escaped s) :=
    fun _ => rfl
  have hbody : putField .string "mes" members (message.body.map settings.escaped) =
      members.change "mes" (Json.escaped settings) :=
    putField_map hstring rfl h.keys h.body
  rw [patchMembers_eq]
  show putField _ _ (putField _ _ _ (message.body.map settings.escaped))
    (message.swipes.map (List.map settings.escaped)) = _
  rw [hbody]
  exact putField_map (escapedItems_texts settings) rfl hkeys hswipes

/-! ### One line -/

/-- A line that was written again: its text is kept, unless escaping changes its body or one of its
swipes; then it is that of the line's record with just those texts changed. -/
structure Rewritten (settings : Settings) (row row' : Row) : Prop where
  ending : row'.ending = row.ending
  kept : ∀ message, messageOf row = .ok message → ¬ message.Touched settings →
    row'.text = row.text
  touched : ∀ message, messageOf row = .ok message → message.Touched settings →
    ∃ members : Members, Json.ofText row.text = .ok (.object members) ∧
      row'.text = (Json.object (members.escaped settings)).toCompact ∧
      (members.escaped settings).keys = members.keys

/-- A blank line has no texts, so a touched message comes from a record. -/
theorem record_of_touched {settings : Settings} {row : Row} {message : Message}
    (h : messageOf row = .ok message) (ht : message.Touched settings) :
    ∃ members : Members, Json.ofText row.text = .ok (.object members) ∧ message.Within members := by
  unfold messageOf at h
  split at h
  · cases h
    exact absurd ht (by simp [Message.Touched])
  · exact Message.object_of_message h

theorem not_lineEnd_of_printable {c : Char} (h : 0x20 ≤ c.toNat) : isLineEnd c = false := by
  have hreturn : c ≠ '\r' := by
    rintro rfl
    exact absurd h (by decide)
  have hfeed : c ≠ '\n' := by
    rintro rfl
    exact absurd h (by decide)
  simp [isLineEnd, hreturn, hfeed]

/-- A record written on one line has no line ends, and is not empty. -/
theorem retext_compact (row : Row) (members : Members) :
    row.Retext ⟨(Json.object members).toCompact, row.ending⟩ := by
  have hchars : (Json.object members).toCompact.toList = Json.compact (.object members) :=
    String.toList_ofList
  refine .inr ⟨rfl, fun hempty => ?_, fun c hc => ?_⟩
  · have hnil : Json.compact (.object members) = [] :=
      hchars ▸ String.toList_eq_nil_iff.mpr hempty
    cases members <;> cases hnil
  · exact not_lineEnd_of_printable (Json.printable_compact _ c (hchars ▸ hc))

/-- The line that comes out for a line with a message. -/
def newRow (settings : Settings) (row : Row) (message : Message) : Except Failure Row :=
  (if message.Touched settings then patch row.text (message.escaped settings)
    else .ok row.text).map fun text => ⟨text, row.ending⟩

theorem newRow_eq (settings : Settings) {row : Row} {message : Message}
    (h : messageOf row = .ok message) :
    ∃ row', newRow settings row message = .ok row' ∧ Rewritten settings row row' ∧
      row.Retext row' := by
  have hsame : ∀ other, messageOf row = .ok other → other = message := fun other hother =>
    Except.ok.inj (hother.symm.trans h)
  by_cases ht : message.Touched settings
  · obtain ⟨members, hvalue, hwithin⟩ := record_of_touched h ht
    refine ⟨⟨(Json.object (members.escaped settings)).toCompact, row.ending⟩, ?_, ⟨rfl, ?_, ?_⟩,
      retext_compact row _⟩
    · unfold newRow patch
      rw [if_pos ht, hvalue, ← patchMembers_escaped hwithin]
      rfl
    · exact fun other hother hnot => absurd (hsame other hother ▸ ht) hnot
    · exact fun _ _ _ => ⟨members, hvalue, rfl, members.keys_escaped settings⟩
  · refine ⟨row, by unfold newRow; rw [if_neg ht]; rfl, ⟨rfl, fun _ _ _ => rfl, ?_⟩, .inl rfl⟩
    exact fun other hother htouched => absurd (hsame other hother ▸ htouched) ht

/-! ### All lines -/

theorem messagesFrom_eq {lines : List Row} (h : ∀ row ∈ lines, ∃ message, messageOf row = .ok message)
    (number : Nat) :
    ∃ messages, messagesFrom number lines = .ok messages ∧
      List.Forall₂ (fun row message => messageOf row = .ok message) lines messages := by
  induction lines generalizing number with
  | nil => exact ⟨[], rfl, .nil⟩
  | cons row lines ih =>
    obtain ⟨message, hmessage⟩ := h row List.mem_cons_self
    obtain ⟨messages, hmessages, hall⟩ :=
      ih (fun row hrow => h row (List.mem_cons_of_mem _ hrow)) (number + 1)
    refine ⟨message :: messages, ?_, .cons hmessage hall⟩
    rw [messagesFrom, hmessage]
    simp only [hmessages]
    rfl

/-- The lines are put together one by one, each as its message asks. -/
theorem joinFrom_eq {settings : Settings} {lines : List Row} {messages : List Message}
    (hall : List.Forall₂ (fun row message => messageOf row = .ok message) lines messages)
    {changed : List Nat} {index : Nat}
    (hchanged : ∀ k, index + k ∈ changed ↔
      ∃ message, messages[k]? = some message ∧ message.Touched settings) :
    ∃ lines' output, List.Forall₂ (Rewritten settings) lines lines' ∧
      List.Forall₂ Row.Retext lines lines' ∧ lines'.flatMap Row.whole = output.toList ∧
      joinFrom changed index lines (messages.map (·.escaped settings)) = .ok output := by
  induction hall generalizing index with
  | nil => exact ⟨[], "", .nil, .nil, rfl, rfl⟩
  | @cons row message lines messages hmessage _ ih =>
    obtain ⟨row', hrow, hrewritten, hretext⟩ := newRow_eq settings hmessage
    obtain ⟨text, htext, rfl⟩ := map_eq_ok hrow
    have hfirst : index ∈ changed ↔ message.Touched settings := by
      have hzero := hchanged 0
      rw [Nat.add_zero, List.getElem?_cons_zero] at hzero
      rw [hzero]
      exact ⟨fun ⟨_, hsome, ht⟩ => Option.some.inj hsome ▸ ht, fun ht => ⟨message, rfl, ht⟩⟩
    have hrest : ∀ k, index + 1 + k ∈ changed ↔
        ∃ message, messages[k]? = some message ∧ message.Touched settings := by
      intro k
      have hsucc := hchanged (k + 1)
      rw [List.getElem?_cons_succ] at hsucc
      rw [← hsucc, show index + 1 + k = index + (k + 1) by omega]
    obtain ⟨lines', output, hall', hretexts, hwhole, hjoin⟩ := ih hrest
    refine ⟨⟨text, row.ending⟩ :: lines', text ++ row.ending ++ output, .cons hrewritten hall',
      .cons hretext hretexts, ?_, ?_⟩
    · rw [List.flatMap_cons, hwhole, String.toList_append, String.toList_append]
      rfl
    · rw [List.map_cons, joinFrom, if_congr hfirst rfl rfl, htext]
      simp only [hjoin]
      rfl

/-! ### A text -/

/-- Every line is blank or a record. -/
def Readable (content : String) : Prop :=
  ∀ row ∈ rows content, Text.allBlank row.text.toList = true ∨
    ∃ message, Message.ofText row.text = .ok message

/-- Escaping changes a text of some line. -/
def Touched (settings : Settings) (content : String) : Prop :=
  ∃ row ∈ rows content, ∃ message, messageOf row = .ok message ∧ message.Touched settings

theorem messageOf_readable {content : String} (h : Readable content) :
    ∀ row ∈ rows content, ∃ message, messageOf row = .ok message := by
  intro row hrow
  unfold messageOf
  split
  · exact ⟨{}, rfl⟩
  · case _ hblank => exact (h row hrow).resolve_left hblank

/-- Messages are touched where their lines are. -/
theorem exists_touched {settings : Settings} {lines : List Row} {messages : List Message}
    (hall : List.Forall₂ (fun row message => messageOf row = .ok message) lines messages) :
    (∃ row ∈ lines, ∃ message, messageOf row = .ok message ∧ message.Touched settings) ↔
      ∃ message ∈ messages, message.Touched settings := by
  induction hall with
  | nil => simp
  | @cons row message lines messages hmessage _ ih =>
    rw [List.exists_mem_cons_iff, List.exists_mem_cons_iff, ih, hmessage]
    simp

theorem lines_untouched {settings : Settings} {lines lines' : List Row}
    (hall : List.Forall₂ (Rewritten settings) lines lines')
    (hmessages : ∀ row ∈ lines, ∃ message, messageOf row = .ok message)
    (h : ¬ ∃ row ∈ lines, ∃ message, messageOf row = .ok message ∧ message.Touched settings) :
    lines' = lines := by
  induction hall with
  | nil => rfl
  | @cons row row' lines lines' hrewritten _ ih =>
    obtain ⟨message, hmessage⟩ := hmessages row List.mem_cons_self
    rw [List.exists_mem_cons_iff, not_or] at h
    have htext := hrewritten.kept message hmessage fun ht => h.1 ⟨message, hmessage, ht⟩
    have hrow : row' = row := by
      cases row'
      cases row
      cases htext
      cases hrewritten.ending
      rfl
    rw [hrow, ih (fun row hrow => hmessages row (List.mem_cons_of_mem _ hrow)) h.2]

/-- **The text of a chat is rewritten line by line.** -/
theorem text_rewritten (settings : Settings) {content : String} (h : Readable content) :
    ∃ parsed output, parse content = .ok parsed ∧
      parsed.text (sweep settings parsed.chat) = .ok output ∧
      List.Forall₂ (Rewritten settings) (rows content) (rows output) ∧
      (¬ Touched settings content → output = content) ∧
      ((sweep settings parsed.chat).report.changed = [] ↔ ¬ Touched settings content) := by
  obtain ⟨messages, hmessages, hall⟩ := messagesFrom_eq (messageOf_readable h) 1
  have hchanged := mem_changed_sweep settings messages
  obtain ⟨lines, output, hrewritten, hretext, hwhole, hjoin⟩ :=
    @joinFrom_eq settings _ _ hall (sweep settings messages).report.changed 0 fun k => by
      rw [Nat.zero_add]
      exact hchanged k
  refine ⟨⟨rows content, messages⟩, output, ?_, ?_, ?_, fun huntouched => ?_, ?_⟩
  · unfold parse
    simp only [hmessages]
    rfl
  · unfold Parsed.text
    rw [sweep_chat]
    exact hjoin
  · rw [rows_retexted hretext hwhole]
    exact hrewritten
  · rw [lines_untouched hrewritten (messageOf_readable h) huntouched, (ruled_rows content).2] at hwhole
    exact String.toList_inj.mp hwhole.symm
  · rw [Touched, exists_touched hall, List.eq_nil_iff_forall_not_mem]
    constructor
    · rintro hnone ⟨message, hmem, ht⟩
      obtain ⟨i, hi⟩ := List.mem_iff_getElem?.mp hmem
      exact hnone i ((hchanged i).mpr ⟨message, hi, ht⟩)
    · intro hnone i hi
      obtain ⟨message, hsome, ht⟩ := (hchanged i).mp hi
      exact hnone ⟨message, List.mem_of_getElem? hsome, ht⟩

end Transcript

end PipeGuard
