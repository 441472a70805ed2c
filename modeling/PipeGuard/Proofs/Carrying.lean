import PipeGuard.Proofs.Messages

/-! Messages written and read again.

A message carries along what it does not understand: members of which none has the key of a field,
each key once, with values that can be read (`Carries`). Written, such a message is a record that
holds it, and so it is read back (`ofText_render`).

A record may have a key many times. What was written (`Json.entries`) and what was read differ in
that a key stands where it came first, with the value that came last (`gathered`). -/
namespace PipeGuard

open Json (Cursor Read)
open Json.Read (valueMember)

/-! ### A record as it is written -/

namespace Members

/-- The members that are left when each is put in after those before it. -/
def gathered (written : Members) : Members :=
  written.foldl (fun done member => done.put member.1 member.2) []

theorem gathered_concat (written : Members) (member : String × Json) :
    gathered (written ++ [member]) = (gathered written).put member.1 member.2 := by
  rw [gathered, List.foldl_append]
  rfl

/-- A key stands where it came first. -/
theorem keys_gathered (written : Members) :
    keys (gathered written) = (keys written).eraseDups := by
  induction written using List.reverseRecOn with
  | nil => rfl
  | append_singleton written member ih =>
    have hkeys : keys (written ++ [member]) = keys written ++ [member.1] := List.map_append
    rw [gathered_concat, keys_put, ih, hkeys, List.eraseDups_append]
    by_cases hmem : member.1 ∈ keys written
    · simp [hmem, List.removeAll]
    · simp [hmem, List.removeAll, List.eraseDups_cons]

/-- Its value is the one that came last. -/
theorem get?_gathered (key : String) (written : Members) :
    (gathered written).get? key = get? key written.reverse := by
  induction written using List.reverseRecOn with
  | nil => rfl
  | append_singleton written member ih =>
    rw [gathered_concat, List.reverse_append, List.reverse_singleton, List.singleton_append, get?]
    by_cases hkey : member.1 = key
    · rw [if_pos hkey, ← hkey, get?_put_self]
    · rw [if_neg hkey, get?_put_of_ne (Ne.symm hkey), ih]

theorem keys_others (members : Members) :
    keys members.others = (keys members).filter (· ∉ fieldKeys) := by
  rw [keys, keys, others, List.filter_map]
  rfl

theorem get?_others {key : String} (h : key ∉ fieldKeys) (members : Members) :
    members.others.get? key = members.get? key := by
  induction members with
  | nil => rfl
  | cons member rest ih =>
    rw [others_cons, get?]
    by_cases hkey : member.1 = key
    · rw [if_neg (hkey ▸ h), if_pos hkey, get?, if_pos hkey]
    · rw [if_neg hkey]
      split
      · exact ih
      · rw [get?, if_neg hkey, ih]

end Members

namespace Json

namespace Read

/-- Reads on from the end of a key, and keeps every member. -/
def entry (depth : Nat) (written : Members) (key : String) (c : Cursor) : Read Members :=
  match colon c with
  | .error fault => .error fault
  | .ok c => (value depth c).map fun (x, c) => (written ++ [(key, x)], c)

/-- Reads the members of a record as they are written. -/
def entries (c : Cursor) : Read Members :=
  let c := c.skipGap
  match c.rest with
  | '\x7b' :: _ => members (entry (depthLimit - 1)) [] c.next
  | _ => .error (mismatch .message c)

/-- One more member, put in and written down. -/
theorem entry_gathered {depth : Nat} {done done' written : Members} {key : String} {c c' : Cursor}
    (hdone : done = written.gathered) (h : valueMember depth done key c = .ok (done', c')) :
    ∃ written', entry depth written key c = .ok (written', c') ∧ done' = written'.gathered := by
  rw [valueMember] at h
  rw [entry]
  cases hcolon : colon c with
  | error fault => rw [hcolon] at h; cases h
  | ok c₁ =>
    rw [hcolon] at h
    obtain ⟨⟨x, c₂⟩, hvalue, heq⟩ := map_eq_ok h
    cases heq
    refine ⟨written ++ [(key, x)], ?_, ?_⟩
    · simp only [hvalue]
      rfl
    · rw [Members.gathered_concat, hdone]

end Read

/-- The members of the record that a text holds, as they are written. -/
def entries (text : String) : Except Fault Members := readAll Read.entries text

end Json

namespace Message

/-! ### What is carried along -/

/-- A member of a record, read for its message and written down. -/
theorem readMember_entry {given given' : Given} {written : Members} {key : String} {c c' : Cursor}
    (hwithin : given.Within written.gathered) (h : readMember given key c = .ok (given', c')) :
    ∃ written', Json.Read.entry (Json.depthLimit - 1) written key c = .ok (written', c') ∧
      given'.Within written'.gathered := by
  obtain ⟨members, hmember, hwithin'⟩ := readMember_within hwithin h
  obtain ⟨written', hentry, rfl⟩ := Json.Read.entry_gathered rfl hmember
  exact ⟨written', hentry, hwithin'⟩

/-- **What was read is gathered from what was written.** -/
theorem entries_of_message {text : String} {message : Message} (h : ofText text = .ok message) :
    ∃ written, Json.entries text = .ok written ∧ message.Within written.gathered := by
  obtain ⟨c, hread, hfinish⟩ := Json.readAll_eq_ok.1 h
  obtain ⟨rest, given, hrest, hmembers, rfl⟩ := read_eq_ok.1 hread
  have hnone : Given.Within {} (Members.gathered []) := ⟨List.Pairwise.nil, rfl, rfl, rfl, rfl⟩
  obtain ⟨written, hwritten, hwithin⟩ := @Json.Read.membersFrom_simulates _ _
    (fun given written => given.Within (Members.gathered written)) _ _ readMember_entry
    _ _ _ _ _ _ _ hnone hmembers
  have hentries : Json.Read.entries (.start text) = .ok (written, c) := by
    simp only [Json.Read.entries, hrest]
    exact hwritten
  exact ⟨written, Json.readAll_eq_ok.2 ⟨c, hentries, hfinish⟩, hwithin.message⟩

/-- The members that a message carries along can be written beside its fields, and read again. -/
structure Carries (extra : Members) : Prop where
  keys : extra.keys.Nodup
  others : ∀ key ∈ Members.keys extra, key ∉ Members.fieldKeys
  sound : ∀ member ∈ extra, Json.Sound (Json.depthLimit - 1) member.2

theorem carries_nil : Carries [] :=
  ⟨List.Pairwise.nil, fun _ h => absurd h List.not_mem_nil, fun _ h => absurd h List.not_mem_nil⟩

/-- What is carried along was read. -/
theorem carries_of_ofText {text : String} {message : Message} (h : ofText text = .ok message) :
    Carries message.extra := by
  obtain ⟨members, hvalue, hwithin⟩ := object_of_message h
  have hsound : ∀ member ∈ members, Json.Sound (Json.depthLimit - 1) member.2 := by
    cases Json.ofText_sound hvalue with
    | object _ hsound => exact hsound
  rw [← hwithin.extra]
  refine ⟨?_, ?_, ?_⟩
  · exact hwithin.keys.sublist (List.filter_sublist.map Prod.fst)
  · intro key hkey
    obtain ⟨member, hmember, rfl⟩ := List.mem_map.1 hkey
    simpa using (List.mem_filter.1 hmember).2
  · intro member hmember
    exact hsound member (List.mem_filter.1 hmember).1

/-! ### Written and read -/

/-- The members of the record that is written for a message. -/
def written (message : Message) : Members :=
  [("is_user", .boolean message.isUser)] ++
    (message.body.map fun s => ("mes", Json.string s)).toList ++
    (message.swipes.map fun ss => ("swipes", Json.array (ss.map .string))).toList ++
    message.extra

section
variable {message : Message} (h : Carries message.extra)
include h

theorem get?_extra {key : String} (hkey : key ∈ Members.fieldKeys) :
    message.extra.get? key = none :=
  Members.get?_eq_none_of_not_mem fun hmem => h.others key hmem hkey

theorem others_extra : Members.others message.extra = message.extra := by
  refine List.filter_eq_self.2 fun member hmember => ?_
  simpa using h.others member.1 (List.mem_map_of_mem hmember)

/-- A message stands in the record that is written for it. -/
theorem within_written : message.Within message.written := by
  have hkey : ∀ key ∈ Members.fieldKeys, key ∉ Members.keys message.extra :=
    fun key hfield hmem => h.others key hmem hfield
  have huser := hkey "is_user" (by decide)
  have hmes := hkey "mes" (by decide)
  have hswipes := hkey "swipes" (by decide)
  have hnoMes := @get?_extra _ h "mes" (by decide)
  have hnoSwipes := @get?_extra _ h "swipes" (by decide)
  refine ⟨?_, rfl, ?_, ?_, ?_⟩
  · have hextra : (message.extra.map Prod.fst).Nodup := h.keys
    simp only [Members.keys] at huser hmes hswipes
    cases hbody : message.body <;> cases hall : message.swipes <;>
      simp [written, Members.keys, hbody, hall, hextra, huser, hmes, hswipes]
  · cases hbody : message.body <;> cases hall : message.swipes <;>
      simp [written, Members.get?, Field, hbody, hall, hnoMes]
  · cases hbody : message.body <;> cases hall : message.swipes <;>
      simp [written, Members.get?, Field, hbody, hall, hnoSwipes]
  · cases hbody : message.body <;> cases hall : message.swipes <;>
      simp [written, Members.others_cons, Members.fieldKeys, hbody, hall, others_extra h]

theorem sound_written : Json.Sound Json.depthLimit (.object message.written) := by
  refine .object (within_written h).keys fun member hmember => ?_
  simp only [written, List.mem_append, List.mem_singleton, Option.mem_toList,
    Option.map_eq_some_iff] at hmember
  rcases hmember with ((rfl | hbody) | hswipes) | hextra
  · exact .boolean _
  · obtain ⟨s, -, rfl⟩ := hbody
    exact .string s
  · obtain ⟨ss, -, rfl⟩ := hswipes
    refine .array fun x hx => ?_
    obtain ⟨s, -, rfl⟩ := List.mem_map.1 hx
    exact .string s
  · exact h.sound member hextra

omit h in
/-- The fields of a message have no numbers. -/
theorem numbers_written :
    (Json.object message.written).numbers = (Json.object message.extra).numbers := by
  have htexts : ∀ ss : List String, Json.itemNumbers (ss.map .string) = [] := by
    intro ss
    rw [Json.itemNumbers_eq, List.flatMap_map]
    simp [Json.numbers]
  rw [Json.numbers, Json.memberNumbers_eq, Json.numbers, Json.memberNumbers_eq]
  cases hbody : message.body <;> cases hall : message.swipes <;>
    simp [written, Json.numbers, hbody, hall, htexts]

/-- **A message is read back from the record that is written for it**, if the numbers it carries
along are whole. -/
theorem ofText_render (hwhole : (Json.object message.extra).IsWhole) :
    ofText message.render = .ok message := by
  have hnumbers : (Json.object message.written).IsWhole := by
    rw [Json.IsWhole, numbers_written]
    exact hwhole
  exact ofText_written (within_written h) (sound_written h) hnumbers

end

/-- Messages that are built, not read. -/
inductive Built : Message → Prop
  | ofBody (isUser : Bool) (body : String) : Built (ofBody isUser body)
  | withSwipes {message : Message} (swipes : List String) :
    Built message → Built (message.withSwipes swipes)

/-- They carry nothing along. -/
theorem Built.extra {message : Message} (h : Built message) : message.extra = [] := by
  induction h with
  | ofBody => rfl
  | withSwipes _ _ ih => exact ih

/-- **Messages come back as they were.** A message that was read, with whole numbers, is written as a
record that reads as the same message, and so is written alike again. What it carries along are the
other keys of its record, where each came first and with the value that came last, and never a
field. A message that was built comes back as well. -/
theorem read_render :
    (∀ text message, ofText text = .ok message →
      (∀ key ∈ Members.keys message.extra, key ∉ Members.fieldKeys) ∧
        (∃ written, Json.entries text = .ok written ∧
          Members.keys message.extra =
            (Members.keys written).eraseDups.filter (· ∉ Members.fieldKeys) ∧
          ∀ key ∉ Members.fieldKeys,
            message.extra.get? key = Members.get? key written.reverse) ∧
        ((Json.object message.extra).IsWhole →
          ofText message.render = .ok message ∧
            (ofText message.render).map render = .ok message.render)) ∧
      ∀ message, Built message →
        ofText message.render = .ok message ∧
          (ofText message.render).map render = .ok message.render := by
  have hagain : ∀ {message}, ofText (render message) = .ok message →
      (ofText message.render).map render = .ok message.render := by
    intro message h
    rw [h]
    rfl
  refine ⟨fun text message h => ?_, fun message h => ?_⟩
  · have hcarries := carries_of_ofText h
    refine ⟨hcarries.others, ?_, fun hwhole => ?_⟩
    · obtain ⟨written, hentries, hwithin⟩ := entries_of_message h
      refine ⟨written, hentries, ?_, fun key hkey => ?_⟩
      · rw [← hwithin.extra, Members.keys_others, Members.keys_gathered]
      · rw [← hwithin.extra, Members.get?_others hkey, Members.get?_gathered]
    · have hread := ofText_render hcarries hwhole
      exact ⟨hread, hagain hread⟩
  · have hread := @ofText_render message (h.extra ▸ carries_nil) (by
      rw [h.extra]
      exact fun _ hn => absurd hn List.not_mem_nil)
    exact ⟨hread, hagain hread⟩

/-- A record with a body of null and one key three times, once in another spelling. -/
def repeatedKey : String :=
  "\x7b\"a\":1, \"mes\":null, \"b\":\x7b\"mes\":[-2]\x7d, \"a\":\"c\", \"is_user\":true, \"\\u0061\":3\x7d"

/-- The key stays first, with its last value. -/
theorem read_render_repeated :
    ∃ message, ofText repeatedKey = .ok message ∧ (Json.object message.extra).IsWhole ∧
      message.render = "\x7b\"is_user\":true,\"a\":3,\"b\":\x7b\"mes\":[-2]\x7d\x7d" ∧
      ofText message.render = .ok message := by
  have hread : (ofText repeatedKey).toOption.map
      (fun message => (message.render, decide (Json.object message.extra).IsWhole)) =
        some ("\x7b\"is_user\":true,\"a\":3,\"b\":\x7b\"mes\":[-2]\x7d\x7d", true) := by
    decide +kernel
  obtain ⟨message, hmessage, heq⟩ := Option.map_eq_some_iff.1 hread
  obtain ⟨hrender, hwhole⟩ := Prod.mk.inj heq
  have hok : ofText repeatedKey = .ok message := by
    cases hresult : ofText repeatedKey with
    | error fault =>
      rw [hresult] at hmessage
      cases hmessage
    | ok other =>
      rw [hresult] at hmessage
      exact congrArg Except.ok (Option.some.inj hmessage)
  have hagain := ((read_render.1 _ _ hok).2.2 (of_decide_eq_true hwhole)).1
  exact ⟨message, hok, of_decide_eq_true hwhole, hrender, hagain⟩

end Message

end PipeGuard
