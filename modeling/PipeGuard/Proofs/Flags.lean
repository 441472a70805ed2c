import PipeGuard.Proofs.Carrying
import PipeGuard.Proofs.Skipping
import PipeGuard.Settings.Codec

/-! Flags read twice.

The flags that a text holds are read strictly from the text, or leniently from the value that the
text holds. A strict reading takes the members one by one and keeps two flags (`Given.take`), where
the value keeps what came last for each key (`gathered`). Each flag is followed on its own
(`mention`): it is taken as long as its key comes once, and with a boolean (`mentions`).

`flags_agree`: a strict reading that succeeds gives what a lenient one gives on top of the defaults,
and it succeeds if each flag is written once at most, as a boolean. -/
namespace PipeGuard

theorem toOption_cases {ε α : Type} {x : Except ε α} {found : Option α} (h : x.toOption = found) :
    (found = none ∧ ∃ fault, x = .error fault) ∨ ∃ a, found = some a ∧ x = .ok a := by
  subst h
  cases x with
  | error fault => exact .inl ⟨rfl, fault, rfl⟩
  | ok a => exact .inr ⟨a, rfl, rfl⟩

theorem toOption_eq_some {ε α : Type} {x : Except ε α} {a : α} :
    x.toOption = some a ↔ x = .ok a := by
  cases x with
  | error fault => exact ⟨(nomatch ·), (nomatch ·)⟩
  | ok _ => exact ⟨fun h => congrArg _ (Option.some.inj h), fun h => congrArg _ (Except.ok.inj h)⟩

namespace Members

theorem mem_of_get? {key : String} {value : Json} {members : Members}
    (h : members.get? key = some value) : (key, value) ∈ members := by
  induction members with
  | nil => cases h
  | cons member rest ih =>
    rw [get?] at h
    split at h
    · case _ hkey =>
      obtain rfl := hkey
      obtain rfl := Option.some.inj h
      exact List.mem_cons_self
    · exact List.mem_cons_of_mem _ (ih h)

/-- The keys are those that are found. -/
theorem isSome_get? {key : String} {members : Members} :
    (members.get? key).isSome ↔ key ∈ members.keys := by
  constructor
  · intro h
    obtain ⟨value, hvalue⟩ := Option.isSome_iff_exists.mp h
    exact mem_keys_of_get? hvalue
  · intro h
    induction members with
    | nil => cases h
    | cons member rest ih =>
      rw [get?]
      split
      · rfl
      · case _ hkey => exact ih ((List.mem_cons.mp h).resolve_left (Ne.symm hkey))

end Members

namespace Json

namespace Read

/-- Of a value that is no boolean, no boolean is read. -/
theorem boolean_of_value {depth : Nat} {c c' : Cursor} {x : Json}
    (h : value depth c = .ok (x, c')) :
    (boolean c).toOption = x.asBool?.map fun b => (b, c') := by
  cases hread : boolean c with
  | ok found =>
    obtain ⟨b, c₁⟩ := found
    have hvalue := narrow_boolean depth c b c₁ hread
    rw [h] at hvalue
    cases hvalue
    rfl
  | error fault =>
    cases x with
    | boolean b =>
      unfold Read.boolean at hread
      cases b <;>
      · obtain ⟨⟨_, hrest⟩, hword⟩ := value_eq_ok h
        simp only [hrest, hword] at hread
        cases hread
    | _ => rfl

/-- One more member is written down. -/
theorem entry_eq_ok {depth : Nat} {written written' : Members} {key : String} {c c' : Cursor}
    (h : entry depth written key c = .ok (written', c')) :
    ∃ x c₁, colon c = .ok c₁ ∧ value depth c₁ = .ok (x, c') ∧
      written' = written ++ [(key, x)] := by
  unfold entry at h
  split at h
  · cases h
  · case _ c₁ hcolon =>
    obtain ⟨⟨x, c₂⟩, hvalue, heq⟩ := map_eq_ok h
    cases heq
    exact ⟨x, c₁, hcolon, hvalue, rfl⟩

end Read

/-- The members of an object are gathered from those that are written. -/
theorem entries_of_object {text : String} {members : Members}
    (h : ofText text = .ok (.object members)) :
    ∃ written, entries text = .ok written ∧ members = written.gathered := by
  obtain ⟨c, hread, hfinish⟩ := readAll_eq_ok.1 h
  obtain ⟨inner, hinner, ⟨rest, hrest⟩, hmembers⟩ := Read.value_eq_ok hread
  obtain rfl : depthLimit - 1 = inner := congrArg (· - 1) hinner
  obtain ⟨written, hwritten, hgathered⟩ := @Read.membersFrom_simulates _ _
    (fun done written => done = Members.gathered written) _ (Read.entry (depthLimit - 1))
    Read.entry_gathered _ _ _ _ [] _ _ rfl hmembers
  have hentries : Read.entries (.start text) = .ok (written, c) := by
    simp only [Read.entries, hrest]
    exact hwritten
  exact ⟨written, readAll_eq_ok.2 ⟨c, hentries, hfinish⟩, hgathered⟩

end Json

namespace Settings

open Json (Cursor Read)

/-- The keys of the flags. -/
def flagKeys : List String := ["enabled", "debug"]

/-! ### One flag -/

/-- What is known of a flag after one more member; `none` when its key comes again, or with
something that is no boolean. -/
def mention (name : String) (known : Option Bool) (member : String × Json) :
    Option (Option Bool) :=
  if member.1 = name then if known.isSome then none else member.2.asBool?.map some
  else some known

theorem mention_eq_some {name : String} {known known' : Option Bool} {member : String × Json} :
    mention name known member = some known' ↔
      (member.1 = name → known = none ∧ ∃ b, member.2 = .boolean b) ∧
        known' = if member.1 = name then member.2.asBool? else known := by
  unfold mention
  by_cases hname : member.1 = name
  · rw [if_pos hname, if_pos hname]
    cases known with
    | some b => simp [hname]
    | none => cases hvalue : member.2 <;> simp [hname, Json.asBool?, eq_comm]
  · rw [if_neg hname, if_neg hname]
    simp [hname, eq_comm]

/-- A key comes once at most among members as they are written, and only with a boolean. -/
structure Single (name : String) (written : Members) : Prop where
  once : (Members.keys written).count name ≤ 1
  boolean : ∀ value, (name, value) ∈ written → ∃ b, value = .boolean b

theorem single_nil (name : String) : Single name [] :=
  ⟨Nat.zero_le 1, fun _ h => absurd h List.not_mem_nil⟩

/-- One member more. -/
theorem single_concat (name : String) (written : Members) (member : String × Json) :
    Single name (written ++ [member]) ↔ Single name written ∧
      (member.1 = name → name ∉ Members.keys written ∧ ∃ b, member.2 = .boolean b) := by
  have hkeys : Members.keys (written ++ [member]) = Members.keys written ++ [member.1] :=
    List.map_append
  constructor
  · intro h
    have honce := h.once
    rw [hkeys, List.count_append] at honce
    refine ⟨⟨by omega, fun value hvalue => h.boolean value (List.mem_append_left _ hvalue)⟩, ?_⟩
    rintro rfl
    rw [List.count_singleton_self] at honce
    exact ⟨List.count_eq_zero.mp (by omega),
      h.boolean member.2 (List.mem_append_right _ List.mem_cons_self)⟩
  · rintro ⟨h, hmember⟩
    refine ⟨?_, fun value hvalue => ?_⟩
    · rw [hkeys, List.count_append]
      by_cases hname : member.1 = name
      · rw [hname, List.count_singleton_self, List.count_eq_zero.mpr (hmember hname).1]
      · rw [List.count_singleton, if_neg (by simpa using hname)]
        exact h.once
    · rcases List.mem_append.mp hvalue with hold | hnew
      · exact h.boolean value hold
      · obtain rfl := List.mem_singleton.mp hnew
        exact (hmember rfl).2

/-- A flag that comes at all comes with a boolean. -/
theorem flag?_eq_none {name : String} {written : Members} (h : Single name written) :
    flag? (.object written.gathered) name = none ↔ name ∉ Members.keys written := by
  rw [← List.mem_eraseDups, ← Members.keys_gathered, ← Members.isSome_get?]
  show ((Members.gathered written).get? name).bind Json.asBool? = none ↔ _
  cases hget : (Members.gathered written).get? name with
  | none => simp
  | some value =>
    rw [Members.get?_gathered] at hget
    obtain ⟨b, rfl⟩ := h.boolean value (List.mem_reverse.mp (Members.mem_of_get? hget))
    simp [Json.asBool?]

theorem flag?_concat (name : String) (written : Members) (member : String × Json) :
    flag? (.object (Members.gathered (written ++ [member]))) name =
      if member.1 = name then member.2.asBool? else flag? (.object (Members.gathered written)) name := by
  show ((Members.gathered (written ++ [member])).get? name).bind Json.asBool? = _
  rw [Members.gathered_concat]
  split
  · case _ hname => rw [hname, Members.get?_put_self, Option.bind_some]
  · case _ hname =>
    rw [Members.get?_put_of_ne (Ne.symm hname)]
    rfl

/-- **A flag can be followed if it comes once at most, as a boolean**, and then it is the one that
the value holds. -/
theorem mentions {name : String} {written : Members} {known : Option Bool} :
    written.foldlM (mention name) none = some known ↔
      Single name written ∧ known = flag? (.object written.gathered) name := by
  induction written using List.reverseRecOn generalizing known with
  | nil =>
    exact ⟨fun h => ⟨single_nil name, (Option.some.inj h).symm⟩, fun h => congrArg some h.2.symm⟩
  | append_singleton written member ih =>
    have hlast : (written ++ [member]).foldlM (mention name) none = some known ↔
        ∃ earlier, written.foldlM (mention name) none = some earlier ∧
          mention name earlier member = some known := by
      simp [List.foldlM_append, Option.bind_eq_some_iff]
    rw [hlast, single_concat, flag?_concat]
    constructor
    · rintro ⟨_, hearlier, hmember⟩
      obtain ⟨hsingle, rfl⟩ := ih.mp hearlier
      obtain ⟨hname, hknown⟩ := mention_eq_some.mp hmember
      exact ⟨⟨hsingle, fun h => (hname h).imp_left (flag?_eq_none hsingle).mp⟩, hknown⟩
    · rintro ⟨⟨hsingle, hname⟩, hknown⟩
      exact ⟨_, ih.mpr ⟨hsingle, rfl⟩, mention_eq_some.mpr
        ⟨fun h => (hname h).imp_left (flag?_eq_none hsingle).mpr, hknown⟩⟩

/-! ### Both flags -/

/-- The flags that are known after one more member. -/
def Given.take (given : Given) (member : String × Json) : Option Given :=
  (mention "enabled" given.enabled member).bind fun enabled =>
    (mention "debug" given.debug member).map fun debug => ⟨enabled, debug⟩

theorem takes_iff {given taken : Given} {written : Members} :
    written.foldlM Given.take given = some taken ↔
      written.foldlM (mention "enabled") given.enabled = some taken.enabled ∧
        written.foldlM (mention "debug") given.debug = some taken.debug := by
  induction written generalizing given with
  | nil =>
    obtain ⟨enabled, debug⟩ := given
    obtain ⟨enabled', debug'⟩ := taken
    simp [pure]
  | cons member written ih =>
    simp only [List.foldlM_cons, Option.bind_eq_bind, Given.take]
    cases mention "enabled" given.enabled member <;> cases mention "debug" given.debug member <;>
      simp [ih]

/-- A flag is read if it can be followed. -/
theorem readFlag_of_value {depth : Nat} {name : String} {known : Option Bool} {x : Json}
    {c c₁ c' : Cursor} (hcolon : Json.Read.colon c = .ok c₁)
    (h : Json.Read.value depth c₁ = .ok (x, c')) :
    (readFlag name known c).toOption =
      (if known.isSome then none else x.asBool?).map fun b => (b, c') := by
  unfold readFlag
  cases known with
  | some b => rfl
  | none =>
    simp only [hcolon]
    exact Json.Read.boolean_of_value h

/-- One member of an object, read for the flags. -/
theorem readMember_entry {depth : Nat} {written written' : Members} {key : String} {c c' : Cursor}
    (h : Json.Read.entry depth written key c = .ok (written', c')) :
    ∃ member, written' = written ++ [member] ∧ ∀ given : Given,
      (readMember given key c).toOption = (given.take member).map fun given => (given, c') := by
  obtain ⟨x, c₁, hcolon, hvalue, rfl⟩ := Json.Read.entry_eq_ok h
  refine ⟨(key, x), rfl, fun given => ?_⟩
  have hflag : ∀ known, (readFlag key known c).toOption =
      (if known.isSome then none else x.asBool?).map fun b => (b, c') :=
    fun known => readFlag_of_value hcolon hvalue
  have hmap : ∀ (known : Option Bool) (f : Bool × Cursor → Given × Cursor),
      ((readFlag key known c).map f).toOption = (readFlag key known c).toOption.map f := by
    intro known f
    cases readFlag key known c <;> rfl
  unfold readMember Given.take mention
  by_cases henabled : key = "enabled"
  · subst henabled
    rw [if_pos rfl, hmap, hflag]
    cases given.enabled <;> cases x.asBool? <;> simp
  · by_cases hdebug : key = "debug"
    · subst hdebug
      rw [if_neg henabled, if_pos rfl, hmap, hflag]
      cases given.debug <;> cases x.asBool? <;> simp
    · rw [if_neg henabled, if_neg hdebug, hcolon]
      simp only [Json.Skip.value_of_read hvalue, if_neg henabled, if_neg hdebug]
      rfl

/-- The members of an object, read for the flags. -/
theorem membersFrom_entry {depth : Nat} {bound : List Char} {first : Bool}
    {written written' : Members} {c c' : Cursor}
    (h : Json.Read.membersFrom (Json.Read.entry depth) bound first written c = .ok (written', c')) :
    ∃ more, written' = written ++ more ∧ ∀ given : Given,
      (Json.Read.membersFrom readMember bound first given c).toOption =
        (more.foldlM Given.take given).map fun given => (given, c') := by
  induction bound generalizing first written c with
  | nil => cases h
  | cons _ bound ih =>
    simp only [Json.Read.membersFrom] at h ⊢
    cases hnext : Json.Read.nextKey first c with
    | error fault =>
      rw [hnext] at h
      cases h
    | ok next =>
      obtain ⟨key?, c₁⟩ := next
      rw [hnext] at h
      cases key? with
      | none =>
        obtain ⟨c₂, hclose, heq⟩ := map_eq_ok h
        cases heq
        refine ⟨[], (List.append_nil _).symm, fun given => ?_⟩
        simp only [hclose]
        rfl
      | some key =>
        simp only at h ⊢
        cases hentry : Json.Read.entry depth written key c₁ with
        | error fault =>
          rw [hentry] at h
          cases h
        | ok found =>
          obtain ⟨written₁, c₂⟩ := found
          rw [hentry] at h
          obtain ⟨member, rfl, hmember⟩ := readMember_entry hentry
          obtain ⟨more, rfl, hmore⟩ := ih h
          refine ⟨member :: more, List.append_assoc _ _ _, fun given => ?_⟩
          rw [List.foldlM_cons]
          obtain ⟨hnone, fault, hread⟩ | ⟨found, hsome, hread⟩ := toOption_cases (hmember given)
          · rw [hread, Option.map_eq_none_iff.mp hnone]
            rfl
          · obtain ⟨taken, htake, rfl⟩ := Option.map_eq_some_iff.mp hsome
            rw [hread, htake]
            exact hmore taken

/-! ### A text -/

/-- The flags that an object's text holds are those that can be taken from its members. -/
theorem ofText_entries {text : String} {written : Members} (h : Json.entries text = .ok written) :
    (ofText text).toOption = (written.foldlM Given.take {}).map Given.settings := by
  obtain ⟨c, hread, hfinish⟩ := Json.readAll_eq_ok.1 h
  unfold Json.Read.entries at hread
  simp only at hread
  split at hread
  · case _ hrest =>
    obtain ⟨_, rfl, htakes⟩ := membersFrom_entry hread
    have hmembers : read (.start text) =
        (Json.Read.members readMember {} (Cursor.start text).skipGap.next).map
          fun found => (found.1.settings, found.2) := by
      unfold read
      simp only [hrest]
    unfold ofText Json.readAll
    rw [hmembers]
    obtain ⟨hnone, fault, hfound⟩ | ⟨found, hsome, hfound⟩ := toOption_cases (htakes {})
    · unfold Json.Read.members
      rw [hfound, Option.map_eq_none_iff.mp hnone]
      rfl
    · obtain ⟨given, htake, rfl⟩ := Option.map_eq_some_iff.mp hsome
      unfold Json.Read.members
      rw [hfound, htake]
      simp only [Except.map, hfinish]
      rfl
  · cases hread

/-- **A strict reading succeeds where each flag can be followed**, and gives what a lenient one
gives on top of the defaults. -/
theorem ofText_eq_ok {text : String} {written : Members} (h : Json.entries text = .ok written)
    {settings : Settings} :
    ofText text = .ok settings ↔ (∀ key ∈ flagKeys, Single key written) ∧
      settings = merge {} (.object written.gathered) := by
  rw [← toOption_eq_some, ofText_entries h, Option.map_eq_some_iff]
  unfold flagKeys
  simp only [List.forall_mem_cons, List.not_mem_nil, false_implies, implies_true, and_true]
  constructor
  · rintro ⟨given, htake, rfl⟩
    obtain ⟨henabled, hdebug⟩ := takes_iff.mp htake
    obtain ⟨hsingle, heq⟩ := mentions.mp henabled
    obtain ⟨hsingle', heq'⟩ := mentions.mp hdebug
    refine ⟨⟨hsingle, hsingle'⟩, ?_⟩
    unfold Given.settings merge
    rw [heq, heq']
  · rintro ⟨⟨hsingle, hsingle'⟩, rfl⟩
    exact ⟨⟨_, _⟩, takes_iff.mpr ⟨mentions.mpr ⟨hsingle, rfl⟩, mentions.mpr ⟨hsingle', rfl⟩⟩, rfl⟩

/-! ### A value -/

/-- An object holds a boolean under a key. -/
def Sets (value : Json) (key : String) (b : Bool) : Prop :=
  ∃ members : Members, value = .object members ∧ members.get? key = some (.boolean b)

theorem flag?_eq_some {value : Json} {key : String} {b : Bool} :
    flag? value key = some b ↔ Sets value key b := by
  unfold flag? Sets
  rw [Option.bind_eq_some_iff]
  constructor
  · rintro ⟨x, hx, hb⟩
    obtain ⟨members, hmembers, hget⟩ := Option.bind_eq_some_iff.mp hx
    cases value <;> cases hmembers
    cases x <;> cases hb
    exact ⟨_, rfl, hget⟩
  · rintro ⟨members, rfl, hget⟩
    exact ⟨.boolean b, hget, rfl⟩

instance (value : Json) (key : String) : Decidable (∃ b, Sets value key b) :=
  decidable_of_iff ((flag? value key).isSome = true) (by
    rw [Option.isSome_iff_exists]
    exact exists_congr fun b => flag?_eq_some)

/-- A flag is the boolean that a value sets, and otherwise what it was. -/
theorem getD_flag? (value : Json) (key : String) (old : Bool) :
    (∀ b, Sets value key b → (flag? value key).getD old = b) ∧
      ((¬∃ b, Sets value key b) → (flag? value key).getD old = old) := by
  refine ⟨fun b hb => by rw [flag?_eq_some.mpr hb]; rfl, fun hnone => ?_⟩
  cases hflag : flag? value key with
  | none => rfl
  | some b => exact absurd ⟨b, flag?_eq_some.mp hflag⟩ hnone

theorem mergeCount_eq (value : Json) :
    mergeCount value = flagKeys.countP fun key => ∃ b, Sets value key b := by
  have hone : ∀ key, (flag? value key).toList.length =
      if decide (∃ b, Sets value key b) = true then 1 else 0 := by
    intro key
    cases hflag : flag? value key with
    | none =>
      rw [if_neg]
      · rfl
      · rw [decide_eq_true_eq]
        rintro ⟨b, hb⟩
        rw [flag?_eq_some.mpr hb] at hflag
        cases hflag
    | some b =>
      rw [if_pos (decide_eq_true ⟨b, flag?_eq_some.mp hflag⟩)]
      rfl
  unfold mergeCount flagKeys
  rw [hone, hone, List.countP_cons, List.countP_singleton, Nat.add_comm]

/-- **Both ways of reading flags agree.** Of an object's text, a strict reading gives nothing but
what the object sets on top of the defaults. It succeeds if and only if the key of each flag is
written once at most, and with a boolean, whatever else is written. An object sets the flags that it
holds as booleans and no others, and as many are counted. -/
theorem flags_agree :
    (∀ text members, Json.ofText text = .ok (.object members) →
      (∀ settings, ofText text = .ok settings → settings = merge {} (.object members)) ∧
        ∃ written, Json.entries text = .ok written ∧ members = written.gathered ∧
          ((∃ settings, ofText text = .ok settings) ↔ ∀ key ∈ flagKeys, Single key written)) ∧
      ∀ settings value,
        ((∀ b, Sets value "enabled" b → (merge settings value).enabled = b) ∧
          ((¬∃ b, Sets value "enabled" b) → (merge settings value).enabled = settings.enabled)) ∧
        ((∀ b, Sets value "debug" b → (merge settings value).debug = b) ∧
          ((¬∃ b, Sets value "debug" b) → (merge settings value).debug = settings.debug)) ∧
        mergeCount value = flagKeys.countP fun key => ∃ b, Sets value key b := by
  refine ⟨fun text members h => ?_, fun settings value => ?_⟩
  · obtain ⟨written, hentries, rfl⟩ := Json.entries_of_object h
    refine ⟨fun settings hread => ((ofText_eq_ok hentries).mp hread).2, written, hentries, rfl, ?_⟩
    exact ⟨fun ⟨_, hread⟩ => ((ofText_eq_ok hentries).mp hread).1,
      fun hsingle => ⟨_, (ofText_eq_ok hentries).mpr ⟨hsingle, rfl⟩⟩⟩
  · exact ⟨getD_flag? value "enabled" settings.enabled, getD_flag? value "debug" settings.debug,
      mergeCount_eq value⟩

/-- An object with one flag, its key in another spelling, among other members. -/
def spelledFlag : String :=
  "\x7b\"x\":[\x7b\"debug\":1\x7d],\"\\u0065nabled\":false,\"x\":1e3\x7d"

/-- The flag is read both ways. -/
theorem flags_agree_spelled :
    ∃ members written, Json.ofText spelledFlag = .ok (.object members) ∧
      Json.entries spelledFlag = .ok written ∧ (∀ key ∈ flagKeys, Single key written) ∧
      ofText spelledFlag = .ok ⟨false, false⟩ ∧ merge {} (.object members) = ⟨false, false⟩ ∧
      mergeCount (.object members) = 1 := by
  have hstrict : (ofText spelledFlag).toOption = some ⟨false, false⟩ := by decide +kernel
  have hobject : (Json.ofText spelledFlag).toOption.map
      (fun value => (value.members?.isSome, mergeCount value)) = some (true, 1) := by decide +kernel
  obtain ⟨value, hvalue, hpair⟩ := Option.map_eq_some_iff.mp hobject
  obtain ⟨hsome, hcount⟩ := Prod.mk.inj hpair
  have hread := toOption_eq_some.mp hstrict
  cases value with
  | object members =>
    have hparse := toOption_eq_some.mp hvalue
    obtain ⟨hagree, written, hentries, -, hexact⟩ := flags_agree.1 _ _ hparse
    exact ⟨members, written, hparse, hentries, hexact.mp ⟨_, hread⟩, hread,
      (hagree _ hread).symm, hcount⟩
  | _ => cases hsome

end Settings

end PipeGuard
