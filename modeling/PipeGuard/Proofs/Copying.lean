import PipeGuard.Proofs.Keeping
import PipeGuard.Proofs.Places
import PipeGuard.Proofs.Rerun

/-! Numbers of others, in files that are written again.

A record of a chat is written again with its texts escaped, and a settings file with the flags put
in. Neither changes the number at any other place of the value (`numberAt?_escaped`,
`numberAt?_put`), so every number literal of the old text is copied to one at the same place of the
new text (`numbers_copied`).

A copy need not say the same. Whole numbers of 64 bits do, and so do literals of fifteen digits with
a small power of ten; any other one is written as the shortest decimal of a double
(`number_altered`). -/
namespace PipeGuard

open Json (Cursor Read Step numberAt? literal?)
open Literal (Copied denoted)

/-! ### Values with something else changed -/

namespace Json

variable {f : Json → Json} {place : List Step}

theorem numberAt?_string (place : List Step) (s : String) : (string s).numberAt? place = none := by
  cases place with
  | nil => rfl
  | cons step place => cases step <;> rfl

/-- Texts hold no numbers. -/
theorem numberAt?_escapedText (settings : Settings) (place : List Step) (x : Json) :
    (x.escaped settings).numberAt? place = x.numberAt? place := by
  cases x with
  | string s => exact (numberAt?_string place _).trans (numberAt?_string place s).symm
  | _ => rfl

theorem numberAt?_escapedItems (settings : Settings) (place : List Step) (x : Json) :
    (x.escapedItems settings).numberAt? place = x.numberAt? place := by
  cases x with
  | array xs =>
    show numberAt? place (.array (xs.map (Json.escaped settings))) = _
    cases place with
    | nil => rfl
    | cons step place =>
      cases step with
      | key key => rfl
      | index i =>
        rw [numberAt?, numberAt?, List.getElem?_map, Option.bind_map]
        exact Option.bind_congr fun x _ => numberAt?_escapedText settings place x
  | _ => rfl

theorem numberAt?_change (hf : ∀ place x, (f x).numberAt? place = x.numberAt? place) (key : String)
    (members : Members) (place : List Step) :
    (object (members.change key f)).numberAt? place = (object members).numberAt? place := by
  cases place with
  | nil => rfl
  | cons step place =>
    cases step with
    | index i => rfl
    | key other =>
      rw [numberAt?, numberAt?]
      by_cases hkey : other = key
      · rw [hkey, Members.get?_change_self, Option.bind_map]
        exact Option.bind_congr fun x _ => hf place x
      · rw [Members.get?_change_of_ne hkey]

/-- **Escaping the texts of a record changes none of its numbers.** -/
theorem numberAt?_escaped (settings : Settings) (members : Members) (place : List Step) :
    (object (members.escaped settings)).numberAt? place = (object members).numberAt? place := by
  unfold Members.escaped
  rw [numberAt?_change (numberAt?_escapedItems settings),
    numberAt?_change (numberAt?_escapedText settings)]

/-- Another value under a key changes none of the numbers outside of it. -/
theorem numberAt?_put {key : String} (value : Json) (members : Members)
    (h : place.head? ≠ some (.key key)) :
    (object (members.put key value)).numberAt? place = (object members).numberAt? place := by
  cases place with
  | nil => rfl
  | cons step place =>
    cases step with
    | index i => rfl
    | key other =>
      have hother : other ≠ key := fun heq => h (congrArg (some ∘ Step.key) heq)
      rw [numberAt?, numberAt?, Members.get?_put_of_ne hother]

theorem literalAt_blank {c : Cursor} (h : Text.allBlank c.rest = true) (place : List Step)
    (depth : Nat) {found : Option (List Char) × Cursor} :
    Read.literalAt place depth c ≠ .ok found := by
  have hvalue : ∀ {x : Json × Cursor}, Read.value depth c.skipGap ≠ .ok x := by
    intro x
    rw [Read.value_skipGap]
    exact value_blank h
  intro hread
  cases place with
  | nil =>
    obtain ⟨_, hread, -⟩ := map_eq_ok hread
    exact hvalue hread
  | cons step place =>
    cases step <;>
    · unfold Read.literalAt at hread
      simp only at hread
      split at hread
      · case _ hx => exact absurd (isBlank_skipGap h hx) (by decide)
      · obtain ⟨_, hread, -⟩ := map_eq_ok hread
        exact hvalue hread

/-- There are no numbers in a blank text. -/
theorem literal?_blank {text : String} (h : Text.allBlank text.toList = true) (place : List Step) :
    literal? text place = none := by
  have hstart : ∀ {found}, readAll (Read.literalAt place depthLimit) text ≠ .ok found := by
    intro found hread
    obtain ⟨c, hread, -⟩ := readAll_eq_ok.1 hread
    exact literalAt_blank h place depthLimit hread
  unfold literal?
  cases hread : readAll (Read.literalAt place depthLimit) text with
  | error fault => rfl
  | ok found => exact absurd hread hstart

end Json

/-! ### A chat -/

namespace Transcript

/-- A line that is kept, or is written again with its numbers copied. -/
def Carried (settings : Settings) (row row' : Row) : Prop :=
  ∃ message, messageOf row = .ok message ∧ (¬ message.Touched settings → row' = row) ∧
    (message.Touched settings →
      ∀ place, Option.Rel Copied (literal? row.text place) (literal? row'.text place))

theorem carried_of_rewritten {settings : Settings} {row row' : Row} {message : Message}
    (hmessage : messageOf row = .ok message) (h : Rewritten settings row row') :
    Carried settings row row' := by
  refine ⟨message, hmessage, fun huntouched => ?_, fun htouched place => ?_⟩
  · have htext := h.kept message hmessage huntouched
    have hending := h.ending
    cases row
    cases row'
    exact Row.mk.injEq .. ▸ ⟨htext, hending⟩
  · obtain ⟨members, hvalue, htext, -⟩ := h.touched message hmessage htouched
    rw [htext]
    unfold Json.toCompact
    rw [← Json.laid_tight 0]
    exact Json.literal?_copied hvalue Json.tight
      ((Json.ofText_sound hvalue).escapedMembers settings)
      (Json.numberAt?_escaped settings members place)

end Transcript

/-! ### A settings file -/

namespace Store

variable {path text : String} {disk : Disk} {root : Option Members}

/-- What a settings file holds is read from its text, if that is not blank. -/
theorem root_of_readText (h : disk.readText path = .ok text) (hholds : Holds path disk root) :
    (Text.allBlank text.toList = true ∧ root = none) ∨
      ∃ members, Json.ofText text = .ok (.object members) ∧ root = some members := by
  cases hholds with
  | missing htarget hnode =>
    have hthere := Disk.exists_of_readText h
    unfold Disk.exists? at hthere
    rw [(Disk.resolve_of_target htarget).1] at hthere
    simp only [hnode] at hthere
    cases hthere
  | blank hread hblank =>
    obtain rfl := Except.ok.inj (hread.symm.trans h)
    exact .inl ⟨hblank, rfl⟩
  | object hread hobject =>
    obtain rfl := Except.ok.inj (hread.symm.trans h)
    exact .inr ⟨_, hobject, rfl⟩

/-- The numbers beside the flags are copied from a settings file to the next. -/
theorem literal?_fileText (h : disk.readText path = .ok text) (hholds : Holds path disk root)
    (settings : Settings) {place : List Step} (hplace : place.head? ≠ some (.key moduleName)) :
    Option.Rel Copied (literal? text place)
      (literal? (fileText (root.getD []) settings) place) := by
  have hsound : Json.Sound Json.depthLimit
      (.object ((root.getD []).put moduleName settings.toJson)) :=
    hholds.sound.put (Json.sound_toJson settings)
  have hnumber := Json.numberAt?_put settings.toJson (root.getD []) hplace
  unfold fileText Json.toPretty
  rw [← Json.laid_indented 0]
  obtain ⟨hblank, rfl⟩ | ⟨members, hobject, rfl⟩ := root_of_readText h hholds
  · rw [Json.literal?_blank hblank, Json.literal?_laid Json.indented hsound, Json.writtenAt?, hnumber]
    have hnone : (Json.object []).numberAt? place = none := by
      cases place with
      | nil => rfl
      | cons step place => cases step <;> rfl
    rw [Option.getD_none, hnone]
    exact .none
  · exact Json.literal?_copied hobject Json.indented hsound hnumber

end Store

/-! ### Both -/

open Command (Request World parse run effective)
open Transcript (Carried rows)

/-- **Numbers of others are copied.** A run that fixes a chat leaves every line as it was or, if it
changes a text in it, with its numbers copied. Saving flags in a file copies every number in it that
is not under the key of the flags. -/
theorem numbers_copied {path content : String} {w : World}
    (hread : w.disk.readText path = .ok content) :
    (∀ (arguments : List String) (request : Request), parse arguments = .request request →
      request.chat = some path → (run arguments w).exitCode = 0 →
        ∃ output,
          (run arguments w).world.disk.readText (request.out.getD path) = .ok output ∧
          List.Forall₂ (Carried (effective request w.disk)) (rows content) (rows output)) ∧
      ∀ (settings : Settings) (saved : Store × Disk),
        Store.save (.file path) settings w.disk = .ok saved →
          ∃ content', saved.2.readText path = .ok content' ∧
            ∀ place : List Step, place.head? ≠ some (.key moduleName) →
              Option.Rel Copied (literal? content place) (literal? content' place) := by
  refine ⟨fun arguments request hparse hchat hsuccess => ?_, fun settings saved hsave => ?_⟩
  · obtain ⟨w₁, hdisk, hfix⟩ := Command.perform_chat hchat (Command.run_success hparse hsuccess)
    obtain ⟨parsed, output, hparsed, hrewritten, hplace⟩ :=
      Command.readText_fixed (Command.readText_settled hread hdisk hfix) hfix
    have hmessages := Transcript.messageOf_readable (Transcript.readable_of_parse hparsed)
    refine ⟨output, hplace, ((List.forall₂_and_left _ _).mpr ⟨hmessages, hrewritten⟩).imp ?_⟩
    rintro row row' ⟨⟨message, hmessage⟩, hrow⟩
    exact Transcript.carried_of_rewritten hmessage hrow
  · obtain ⟨root, hholds⟩ := Store.holds_of_save hsave
    obtain ⟨f, hf⟩ := hholds.legible
    obtain ⟨disk', hsave', hwrite, -⟩ := Store.save_holds hholds hf settings
    obtain rfl := Except.ok.inj (hsave'.symm.trans hsave)
    exact ⟨_, Disk.readText_written hwrite,
      fun place hplace => Store.literal?_fileText hread hholds settings hplace⟩

/-- A record with a call and a number. -/
def numberedChat (body number : String) : String :=
  "\x7b\"mes\":\"\x7b\x7bsetvar::a::" ++ body ++ "\x7d\x7d\",\"n\":[" ++ number ++ "]\x7d"

/-- A number of a record that is written again, and one of a settings file. -/
theorem numbers_copied_few :
    let w : World :=
      { disk := { nodes := [(["chat"], .file (.text (numberedChat "b|c" "-2e-3")))] } }
    let w' : World :=
      { disk := { nodes :=
        [(["flags"], .file (.text "\x7b\"size\":-9223372036854775808\x7d"))] } }
    (run ["--chat", "chat"] w).exitCode = 0 ∧
      (run ["--chat", "chat"] w).world.disk.readText "chat" =
        .ok (numberedChat "b\\\\|c" "-0.002") ∧
      denoted "-0.002".toList = denoted "-2e-3".toList ∧
      ∃ saved text after, Store.save (.file "flags") {} w'.disk = .ok saved ∧
        saved.2.readText "flags" = .ok text ∧ literal? text [.key "size"] = some after ∧
        denoted after = denoted "-9223372036854775808".toList := by
  intro w w'
  have hparse : parse ["--chat", "chat"] = .request { chat := some "chat", items := [.chat] } := by
    decide +kernel
  have hsuccess : (run ["--chat", "chat"] w).exitCode = 0 := by decide +kernel
  have hwritten : (run ["--chat", "chat"] w).world.disk.readText "chat" =
      .ok (numberedChat "b\\\\|c" "-0.002") := by decide +kernel
  refine ⟨hsuccess, hwritten, ?_, ?_⟩
  · obtain ⟨output, houtput, hrows⟩ :=
      (numbers_copied (show w.disk.readText "chat" = .ok (numberedChat "b|c" "-2e-3") from rfl)).1
        _ _ hparse rfl hsuccess
    obtain rfl : numberedChat "b\\\\|c" "-0.002" = output :=
      Except.ok.inj (hwritten.symm.trans houtput)
    have hbefore : rows (numberedChat "b|c" "-2e-3") = [⟨numberedChat "b|c" "-2e-3", ""⟩] := by
      decide +kernel
    have hafter : rows (numberedChat "b\\\\|c" "-0.002") =
        [⟨numberedChat "b\\\\|c" "-0.002", ""⟩] := by decide +kernel
    rw [hbefore, hafter] at hrows
    obtain ⟨⟨message, -, hkept, hcopied⟩, -⟩ := List.forall₂_cons.mp hrows
    have htouched : message.Touched
        (effective { chat := some "chat", items := [.chat] } w.disk) := by
      by_contra hnot
      exact absurd (hkept hnot) (by decide +kernel)
    have hplace := hcopied htouched [.key "n", .index 0]
    have hold : literal? (numberedChat "b|c" "-2e-3") [.key "n", .index 0] =
        some "-2e-3".toList := by decide +kernel
    have hnew : literal? (numberedChat "b\\\\|c" "-0.002") [.key "n", .index 0] =
        some "-0.002".toList := by decide +kernel
    rw [hold, hnew] at hplace
    cases hplace with
    | some hcopy => exact hcopy.few (by decide) (by decide)
  · cases hsave : Store.save (.file "flags") {} w'.disk with
    | error failure =>
      have hsaved : (Store.save (.file "flags") {} w'.disk).toOption.isSome = true := by
        decide +kernel
      rw [hsave] at hsaved
      cases hsaved
    | ok saved =>
      obtain ⟨text, htext, hcopied⟩ :=
        (numbers_copied (show w'.disk.readText "flags" = .ok "\x7b\"size\":-9223372036854775808\x7d"
          from rfl)).2 {} saved hsave
      have hplace := hcopied [.key "size"] (by decide)
      have hold : literal? "\x7b\"size\":-9223372036854775808\x7d" [.key "size"] =
          some "-9223372036854775808".toList := by decide +kernel
      rw [hold] at hplace
      cases hnew : literal? text [.key "size"] with
      | none =>
        rw [hnew] at hplace
        cases hplace
      | some after =>
        rw [hnew] at hplace
        cases hplace with
        | some hcopy =>
          have hrange : (Literal.ofChars "-9223372036854775808".toList).InRange :=
            ⟨by decide +kernel, by decide +kernel⟩
          exact ⟨saved, text, after, rfl, htext, hnew, hcopy.whole hrange⟩

/-- A whole number of more than 64 bits does not stay what it was. -/
theorem number_altered :
    let w : World := { disk := { nodes :=
      [(["c.jsonl"], .file (.text (numberedChat "b|c" "20000000000000000001")))] } }
    (run ["--chat", "c.jsonl"] w).exitCode = 0 ∧ ∃ before after,
      (run ["--chat", "c.jsonl"] w).world.disk.readText "c.jsonl" =
        .ok (numberedChat "b\\\\|c" "2e+19") ∧
      literal? (numberedChat "b|c" "20000000000000000001") [.key "n", .index 0] = some before ∧
      literal? (numberedChat "b\\\\|c" "2e+19") [.key "n", .index 0] = some after ∧
      denoted after ≠ denoted before := by
  intro w
  refine ⟨by decide +kernel, "20000000000000000001".toList, "2e+19".toList, by decide +kernel,
    by decide +kernel, by decide +kernel, ?_⟩
  have hbefore : Literal.ofChars "20000000000000000001".toList =
      ⟨false, "20000000000000000001".toList, [], none⟩ := by decide +kernel
  have hafter : Literal.ofChars "2e+19".toList = ⟨false, ['2'], [], some 19⟩ := by decide +kernel
  have hlong : Literal.significand ⟨false, "20000000000000000001".toList, [], none⟩ =
      20000000000000000001 := by decide +kernel
  have hshort : Literal.significand ⟨false, ['2'], [], some 19⟩ = 2 := by decide
  have hscale : Literal.scale ⟨false, ['2'], [], some 19⟩ = 19 := by decide
  have hnone : Literal.scale ⟨false, "20000000000000000001".toList, [], none⟩ = 0 := by decide
  unfold denoted Literal.value
  rw [hbefore, hafter, hlong, hshort, hscale, hnone]
  norm_num

end PipeGuard
