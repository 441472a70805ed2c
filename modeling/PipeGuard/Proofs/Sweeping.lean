import PipeGuard.Chat.Sweep
import PipeGuard.Proofs.Escaping

/-! What a sweep does to a chat.

Every body and every swipe is escaped with backslashes, wherever it stands
(`Message.escaped`), and a message is reported when one of its texts changed by that
(`Message.Touched`). A sweep that is switched off is one that changes no text, so
neither needs to know the switch: `sweep_chat` and `mem_changed_sweep`. -/
namespace PipeGuard

/-- A stored text after a sweep. -/
def Settings.escaped (settings : Settings) (s : String) : String :=
  String.ofList (escape .backslash settings s.toList).text

/-- A message after a sweep. -/
def Message.escaped (settings : Settings) (message : Message) : Message :=
  { message with
    body := message.body.map settings.escaped
    swipes := message.swipes.map (List.map settings.escaped) }

/-- Escaping changes the body or a swipe. -/
def Message.Touched (settings : Settings) (message : Message) : Prop :=
  message.body.map settings.escaped ≠ message.body ∨
    message.swipes.map (List.map settings.escaped) ≠ message.swipes

instance (settings : Settings) (message : Message) : Decidable (message.Touched settings) :=
  inferInstanceAs (Decidable (_ ∨ _))

theorem escaped_disabled {settings : Settings} (h : settings.enabled = false) (s : String) :
    settings.escaped s = s := by
  unfold Settings.escaped escape
  rw [h]
  exact String.ofList_toList

theorem not_touched_disabled {settings : Settings} (h : settings.enabled = false)
    (message : Message) : ¬ message.Touched settings := by
  have hid : settings.escaped = id := funext (escaped_disabled h)
  unfold Message.Touched
  rw [hid]
  simp

/-- A text that a sweep left is one that a sweep leaves alone. -/
theorem escaped_escaped {settings : Settings} (h : settings.enabled = true) (other : Settings)
    (s : String) : other.escaped (settings.escaped s) = settings.escaped s := by
  unfold Settings.escaped
  rw [String.toList_ofList, escape_escape h]

/-- So is a message. -/
theorem Message.escaped_escaped {settings : Settings} (h : settings.enabled = true)
    (other : Settings) (message : Message) :
    (message.escaped settings).escaped other = message.escaped settings := by
  have hagain : other.escaped ∘ settings.escaped = settings.escaped :=
    funext (PipeGuard.escaped_escaped h other)
  unfold Message.escaped
  simp only [Option.map_map, hagain, List.map_comp_map]

theorem Message.escaped_disabled {settings : Settings} (h : settings.enabled = false)
    (message : Message) : message.escaped settings = message := by
  have hid : settings.escaped = id := funext (PipeGuard.escaped_disabled h)
  unfold Message.escaped
  rw [hid, Option.map_id, List.map_id_fun, Option.map_id]
  rfl

/-- A message is touched if it does not come out as it was. -/
theorem Message.touched_iff {settings : Settings} {message : Message} :
    message.Touched settings ↔ message.escaped settings ≠ message := by
  cases message
  simp only [Touched, escaped, ne_eq, mk.injEq, true_and, and_true, not_and_or]

/-! ### Texts and messages -/

namespace Swept

/-- A sweep turns one value into another, and counts changes if and only if they differ. -/
structure Turns {α : Type} (swept : Swept α) (before after : α) : Prop where
  value : swept.value = after
  fields : swept.fields = 0 ↔ after = before

variable (settings : Settings)

theorem turns_text (s : String) : (ofText settings s).Turns s (settings.escaped s) := by
  have hsame : settings.escaped s = s ↔ (escape .backslash settings s.toList).text = s.toList := by
    rw [← String.toList_inj, Settings.escaped, String.toList_ofList]
  unfold ofText
  by_cases hchanged : (escape .backslash settings s.toList).changed = true
  · have hdiffers := (escape_changed .backslash settings s.toList).mp hchanged
    rw [if_pos hchanged]
    exact ⟨rfl, fun hzero => absurd hzero Nat.one_ne_zero, fun h => absurd (hsame.mp h) hdiffers⟩
  · have hkept : settings.escaped s = s :=
      hsame.mpr (not_not.mp (mt (escape_changed .backslash settings s.toList).mpr hchanged))
    rw [if_neg hchanged]
    exact ⟨hkept.symm, fun _ => hkept, fun _ => rfl⟩

theorem turns_body (index : Nat) (body : Option String) :
    (ofBody settings index body).Turns body (body.map settings.escaped) := by
  cases body with
  | none => exact ⟨rfl, fun _ => rfl, fun _ => rfl⟩
  | some s =>
    obtain ⟨hvalue, hfields⟩ := turns_text settings s
    exact ⟨congrArg some hvalue, hfields.trans (Option.some_inj).symm⟩

theorem turns_texts (texts : List String) :
    (ofTexts settings texts).Turns texts (texts.map settings.escaped) := by
  induction texts with
  | nil => exact ⟨rfl, fun _ => rfl, fun _ => rfl⟩
  | cons s texts ih =>
    obtain ⟨hvalue, hfields⟩ := turns_text settings s
    have hsum : (ofTexts settings (s :: texts)).fields =
        (ofText settings s).fields + (ofTexts settings texts).fields := rfl
    constructor
    · show (ofText settings s).value :: (ofTexts settings texts).value = _
      rw [hvalue, ih.value, List.map_cons]
    · rw [hsum, Nat.add_eq_zero_iff, hfields, ih.fields, List.map_cons, List.cons.injEq]

theorem turns_swipes (swipes : Option (List String)) :
    (ofSwipes settings swipes).Turns swipes (swipes.map (List.map settings.escaped)) := by
  cases swipes with
  | none => exact ⟨rfl, fun _ => rfl, fun _ => rfl⟩
  | some texts =>
    obtain ⟨hvalue, hfields⟩ := turns_texts settings texts
    exact ⟨congrArg some hvalue, hfields.trans (Option.some_inj).symm⟩

theorem ofMessage_eq (index : Nat) (message : Message) :
    (ofMessage settings index message).value = message.escaped settings ∧
      ((ofMessage settings index message).fields ≠ 0 ↔ message.Touched settings) := by
  obtain ⟨hbody, hbodyFields⟩ := turns_body settings index message.body
  obtain ⟨hswipes, hswipesFields⟩ := turns_swipes settings message.swipes
  constructor
  · show { message with
      body := (ofBody settings index message.body).value
      swipes := (ofSwipes settings message.swipes).value } = _
    rw [hbody, hswipes]
    rfl
  · show (ofBody settings index message.body).fields + (ofSwipes settings message.swipes).fields ≠ 0 ↔
      (_ ∨ _)
    rw [Ne, Nat.add_eq_zero_iff, hbodyFields, hswipesFields, not_and_or]

/-! ### The chat -/

theorem value_ofChat (index : Nat) (chat : List Message) :
    (ofChat settings index chat).map (·.value) = chat.map (·.escaped settings) := by
  induction chat generalizing index with
  | nil => rfl
  | cons message chat ih =>
    show (ofMessage settings index message).value :: (ofChat settings (index + 1) chat).map _ = _
    rw [ih, (ofMessage_eq settings index message).1, List.map_cons]

end Swept

theorem le_of_mem_changedFrom {index i : Nat} {swept : List (Swept Message)}
    (h : i ∈ changedFrom index swept) : index ≤ i := by
  induction swept generalizing index with
  | nil => cases h
  | cons first swept ih =>
    rw [changedFrom] at h
    split at h
    · exact Nat.le_of_succ_le (ih h)
    · rcases List.mem_cons.mp h with rfl | h
      · exact Nat.le_refl _
      · exact Nat.le_of_succ_le (ih h)

theorem mem_changedFrom (settings : Settings) (index k : Nat) (chat : List Message) :
    index + k ∈ changedFrom index (Swept.ofChat settings index chat) ↔
      ∃ message, chat[k]? = some message ∧ message.Touched settings := by
  induction chat generalizing index k with
  | nil => simp [Swept.ofChat, changedFrom]
  | cons first chat ih =>
    have htouched := (Swept.ofMessage_eq settings index first).2
    rw [Swept.ofChat, changedFrom]
    cases k with
    | zero =>
      have hlater : index ∉ changedFrom (index + 1) (Swept.ofChat settings (index + 1) chat) :=
        fun hmem => Nat.not_succ_le_self index (le_of_mem_changedFrom hmem)
      rw [Nat.add_zero]
      split
      · case _ hzero =>
        have hnot : ¬ first.Touched settings := fun ht => htouched.mpr ht hzero
        simp [hlater, hnot]
      · case _ hsome => simp [htouched.mp hsome]
    | succ k =>
      have hnext := ih (index + 1) k
      rw [show index + 1 + k = index + (k + 1) by omega] at hnext
      rw [List.getElem?_cons_succ, ← hnext]
      split
      · exact Iff.rfl
      · rw [List.mem_cons]
        exact or_iff_right (by omega)

/-- **A sweep escapes every text of a chat.** -/
theorem sweep_chat (settings : Settings) (chat : List Message) :
    (sweep settings chat).chat = chat.map (·.escaped settings) := by
  unfold sweep
  by_cases h : settings.enabled = true
  · rw [if_pos h]
    exact Swept.value_ofChat settings 0 chat
  · have hid : settings.escaped = id := funext (escaped_disabled (Bool.not_eq_true _ ▸ h))
    rw [if_neg h]
    unfold Message.escaped
    rw [hid]
    simp

/-- It reports the messages that it changed, and no others. -/
theorem mem_changed_sweep (settings : Settings) (chat : List Message) (i : Nat) :
    i ∈ (sweep settings chat).report.changed ↔
      ∃ message, chat[i]? = some message ∧ message.Touched settings := by
  unfold sweep
  by_cases h : settings.enabled = true
  · rw [if_pos h]
    have hmem := mem_changedFrom settings 0 i chat
    rw [Nat.zero_add] at hmem
    exact hmem
  · rw [if_neg h]
    refine ⟨fun hmem => absurd hmem List.not_mem_nil, ?_⟩
    rintro ⟨message, -, ht⟩
    exact absurd ht (not_touched_disabled (Bool.not_eq_true _ ▸ h) message)

end PipeGuard
