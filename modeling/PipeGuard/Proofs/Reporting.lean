import PipeGuard.Proofs.Markers
import PipeGuard.Proofs.Sweeping

/-! What a sweep says that it did.

The report of a sweep is read off the texts before and after it: how many of them differ
(`differing`), and in which messages. That the sweep counts by what escaping says of
itself makes no difference, because escaping says that it changed a text if and only if
it did.

`sweep_reported`: a sweep escapes every text and touches nothing else, reports exactly
that, has nothing left to do a second time, and brings in no marker. -/
namespace PipeGuard

/-- The texts of a message, its body first. -/
def Message.texts (message : Message) : List String :=
  message.body.toList ++ message.swipes.getD []

theorem Message.texts_escaped (settings : Settings) (message : Message) :
    (message.escaped settings).texts = message.texts.map settings.escaped := by
  unfold texts escaped
  cases message.body <;> cases message.swipes <;> simp

theorem texts_chat (settings : Settings) (chat : List Message) :
    (chat.map (·.escaped settings)).flatMap Message.texts =
      (chat.flatMap Message.texts).map settings.escaped := by
  rw [List.flatMap_map, List.map_flatMap]
  exact List.flatMap_congr fun message _ => message.texts_escaped settings

/-- How many texts differ from the ones that stood in their places. -/
def differing (before after : List String) : Nat :=
  (before.zip after).countP fun pair => pair.2 ≠ pair.1

theorem differing_map (f : String → String) (texts : List String) :
    differing texts (texts.map f) = texts.countP fun s => f s ≠ s := by
  unfold differing
  rw [← List.map_prod_left_eq_zip, List.countP_map]
  rfl

theorem differing_self (texts : List String) : differing texts texts = 0 := by
  have hid := differing_map id texts
  rw [List.map_id] at hid
  rw [hid, List.countP_eq_zero]
  exact fun s _ => by simp

/-! ### Counting -/

namespace Swept

variable (settings : Settings)

theorem fields_text (s : String) :
    (ofText settings s).fields = [s].countP fun s => settings.escaped s ≠ s := by
  have hturns := turns_text settings s
  have hone : (ofText settings s).fields = 0 ∨ (ofText settings s).fields = 1 := by
    unfold ofText
    simp only
    split
    · exact .inr rfl
    · exact .inl rfl
  by_cases hsame : settings.escaped s = s
  · rw [hturns.fields.mpr hsame]
    simp [hsame]
  · rw [hone.resolve_left (mt hturns.fields.mp hsame)]
    simp [hsame]

theorem fields_texts (texts : List String) :
    (ofTexts settings texts).fields = texts.countP fun s => settings.escaped s ≠ s := by
  induction texts with
  | nil => rfl
  | cons s texts ih =>
    show (ofText settings s).fields + (ofTexts settings texts).fields = _
    rw [fields_text, ih, ← List.countP_append, List.singleton_append]

theorem fields_message (index : Nat) (message : Message) :
    (ofMessage settings index message).fields =
      message.texts.countP fun s => settings.escaped s ≠ s := by
  have hbody : (ofBody settings index message.body).fields =
      message.body.toList.countP fun s => settings.escaped s ≠ s := by
    cases message.body with
    | none => rfl
    | some s => exact fields_text settings s
  have hswipes : (ofSwipes settings message.swipes).fields =
      (message.swipes.getD []).countP fun s => settings.escaped s ≠ s := by
    cases message.swipes with
    | none => rfl
    | some texts => exact fields_texts settings texts
  show (ofBody settings index message.body).fields + (ofSwipes settings message.swipes).fields = _
  rw [hbody, hswipes, ← List.countP_append]
  rfl

theorem fields_chat (index : Nat) (chat : List Message) :
    ((ofChat settings index chat).map (·.fields)).foldr (· + ·) 0 =
      (chat.flatMap Message.texts).countP fun s => settings.escaped s ≠ s := by
  induction chat generalizing index with
  | nil => rfl
  | cons message chat ih =>
    show (ofMessage settings index message).fields +
      ((ofChat settings (index + 1) chat).map (·.fields)).foldr (· + ·) 0 = _
    rw [fields_message, ih, ← List.countP_append, List.flatMap_cons]

theorem length_ofChat (index : Nat) (chat : List Message) :
    (ofChat settings index chat).length = chat.length := by
  induction chat generalizing index with
  | nil => rfl
  | cons message chat ih => exact congrArg (· + 1) (ih (index + 1))

end Swept

theorem changedFrom_pairwise (index : Nat) (swept : List (Swept Message)) :
    (changedFrom index swept).Pairwise (· < ·) := by
  induction swept generalizing index with
  | nil => exact .nil
  | cons first swept ih =>
    rw [changedFrom]
    split
    · exact ih (index + 1)
    · exact .cons (fun _ hi => Nat.lt_of_succ_le (le_of_mem_changedFrom hi)) (ih (index + 1))

/-! ### The report -/

variable (settings : Settings) (chat : List Message)

theorem messages_sweep :
    (sweep settings chat).report.messages = if settings.enabled then chat.length else 0 := by
  unfold sweep
  split
  · exact Swept.length_ofChat settings 0 chat
  · rfl

theorem changed_sweep_pairwise : (sweep settings chat).report.changed.Pairwise (· < ·) := by
  unfold sweep
  split
  · exact changedFrom_pairwise 0 _
  · exact .nil

/-- The messages reported are those that come out different. -/
theorem mem_changed_sweep_iff (i : Nat) :
    i ∈ (sweep settings chat).report.changed ↔ (sweep settings chat).chat[i]? ≠ chat[i]? := by
  rw [mem_changed_sweep, sweep_chat, List.getElem?_map]
  cases chat[i]? with
  | none => simp
  | some message => simp [Message.touched_iff]

theorem fields_sweep :
    (sweep settings chat).report.fields =
      differing (chat.flatMap Message.texts)
        ((sweep settings chat).chat.flatMap Message.texts) := by
  rw [sweep_chat, texts_chat, differing_map]
  unfold sweep
  by_cases h : settings.enabled = true
  · rw [if_pos h]
    exact Swept.fields_chat settings 0 chat
  · rw [if_neg h]
    have hid : settings.escaped = id := funext (escaped_disabled (Bool.not_eq_true _ ▸ h))
    simp [hid]

/-- A sweep leaves nothing for the next one. -/
theorem sweep_again :
    (sweep settings (sweep settings chat).chat).chat = (sweep settings chat).chat := by
  rw [sweep_chat, sweep_chat, List.map_map]
  refine List.map_congr_left fun message _ => ?_
  by_cases h : settings.enabled = true
  · exact Message.escaped_escaped h settings message
  · have hdisabled : settings.enabled = false := Bool.not_eq_true _ ▸ h
    exact Message.escaped_disabled hdisabled _

/-- A sweep that changes nothing reports nothing. -/
theorem report_of_chat_eq (h : (sweep settings chat).chat = chat) :
    (sweep settings chat).report.changed = [] ∧ (sweep settings chat).report.fields = 0 := by
  constructor
  · rw [List.eq_nil_iff_forall_not_mem]
    intro i hi
    exact (mem_changed_sweep_iff settings chat i).mp hi (by rw [h])
  · rw [fields_sweep, h, differing_self]

/-- **A sweep escapes every text, changes nothing else, and says so.** -/
theorem sweep_reported :
    (sweep settings chat).chat = chat.map (·.escaped settings) ∧
      (sweep settings chat).report.messages = (if settings.enabled then chat.length else 0) ∧
      (sweep settings chat).report.changed.Pairwise (· < ·) ∧
      (∀ i, i ∈ (sweep settings chat).report.changed ↔
        (sweep settings chat).chat[i]? ≠ chat[i]?) ∧
      (sweep settings chat).report.fields =
        differing (chat.flatMap Message.texts)
          ((sweep settings chat).chat.flatMap Message.texts) ∧
      -- once more
      (sweep settings (sweep settings chat).chat).chat = (sweep settings chat).chat ∧
      (sweep settings (sweep settings chat).chat).report.changed = [] ∧
      (sweep settings (sweep settings chat).chat).report.fields = 0 ∧
      -- text by text
      ((sweep settings chat).chat.flatMap Message.texts).map (fun s => markersFrom 0 s.toList) =
        (chat.flatMap Message.texts).map (fun s => markersFrom 0 s.toList) := by
  have hagain := sweep_again settings chat
  obtain ⟨hchanged, hfields⟩ := report_of_chat_eq settings (sweep settings chat).chat hagain
  refine ⟨sweep_chat settings chat, messages_sweep settings chat,
    changed_sweep_pairwise settings chat, mem_changed_sweep_iff settings chat,
    fields_sweep settings chat, hagain, hchanged, hfields, ?_⟩
  rw [sweep_chat, texts_chat, List.map_map]
  refine List.map_congr_left fun s _ => ?_
  show markersFrom 0 (settings.escaped s).toList = _
  rw [Settings.escaped, String.toList_ofList, markers_escape]

end PipeGuard
