import PipeGuard.Proofs.Files
import PipeGuard.Proofs.Reading
import PipeGuard.Settings.Store

/-! Flags kept in a settings file.

A file can keep flags if there is none yet where one can be made, if it is blank, or if it
holds an object (`Store.Holds`). Then flags are saved, and the file holds an object again,
with the members it had and the flags at their place among them (`save_holds`). Whatever
the file was, flags that were saved are the flags that are loaded (`load_saved`).

`saveAll_holds`: so it is after any number of saves. -/
namespace PipeGuard

open Json (Cursor Read)

/-! ### Members -/

theorem Members.put_put (key : String) (old new : Json) (members : Members) :
    (members.put key old).put key new = members.put key new := by
  induction members with
  | nil => simp [put]
  | cons member rest ih =>
    by_cases h : member.1 = key
    · simp [put, h]
    · simp [put, h, ih]

/-! ### Blank texts -/

namespace Json

theorem isDigit_blank {c : Char} (h : Text.isBlank c = true) : c.isDigit = false := by
  refine Bool.eq_false_iff.mpr fun hdigit => ?_
  obtain ⟨hlow, hhigh⟩ := Char.isDigit_iff_toNat.mp hdigit
  have hzero : '0'.toNat = 48 := rfl
  have hnine : '9'.toNat = 57 := rfl
  obtain ⟨range, hrange, hle, hge⟩ := Text.within_iff.mp h
  have hapart : ∀ range ∈ Text.blankRanges, range.2 < 48 ∨ 57 < range.1 := by decide
  have := hapart range hrange
  omega

theorem isBlank_skipGap {c : Cursor} (h : Text.allBlank c.rest = true) {x : Char} {rest : List Char}
    (hx : c.skipGap.rest = x :: rest) : Text.isBlank x = true := by
  refine List.all_eq_true.mp h x (List.dropWhile_subset isGap ?_)
  rw [← Cursor.rest_skipGap, hx]
  exact List.mem_cons_self

/-- No value begins with a blank. -/
theorem value_blank {depth : Nat} {c : Cursor} (h : Text.allBlank c.rest = true)
    {found : Json × Cursor} : Read.value depth c ≠ .ok found := by
  intro hvalue
  unfold Read.value at hvalue
  simp only at hvalue
  split at hvalue
  · cases hvalue
  iterate 7 · case _ hx => exact absurd (isBlank_skipGap h hx) (by decide)
  · case _ hx =>
    rw [isDigit_blank (isBlank_skipGap h hx)] at hvalue
    cases hvalue

/-- A text that no value is read from is no value. -/
theorem ofText_ne_ok {text : String}
    (h : ∀ found, Read.value depthLimit (.start text) ≠ .ok found) (x : Json) :
    ofText text ≠ .ok x := by
  intro hread
  obtain ⟨c, hvalue, -⟩ := readAll_eq_ok.1 hread
  exact h _ hvalue

theorem ofText_ofList_ne_ok {chars : List Char}
    (h : (Read.value depthLimit ⟨chars, {}⟩).toOption.isNone = true) (x : Json) :
    ofText (String.ofList chars) ≠ .ok x := by
  refine ofText_ne_ok (fun found hfound => ?_) x
  unfold Cursor.start at hfound
  rw [String.toList_ofList] at hfound
  rw [hfound] at h
  cases h

theorem ofText_blank {text : String} (h : Text.allBlank text.toList = true) (x : Json) :
    ofText text ≠ .ok x :=
  ofText_ne_ok (fun _ => value_blank h) x

theorem sound_toJson (settings : Settings) {depth : Nat} : Sound (depth + 1) settings.toJson :=
  .object (show ["enabled", "debug"].Nodup by decide)
    (List.forall_mem_cons.mpr ⟨.boolean _, List.forall_mem_singleton.mpr (.boolean _)⟩)

theorem sound_empty : Sound depthLimit (.object []) :=
  .object List.Pairwise.nil fun _ hm => absurd hm List.not_mem_nil

theorem Sound.put {depth : Nat} {members : Members} {key : String} {value : Json}
    (h : Sound (depth + 1) (.object members)) (hvalue : Sound depth value) :
    Sound (depth + 1) (.object (members.put key value)) := by
  cases h with
  | object hkeys hall =>
    refine .object (Members.nodup_put hkeys) fun m hm => ?_
    obtain hm | rfl := Members.mem_put hm
    · exact hall m hm
    · exact hvalue

theorem numbers_put {members : Members} {key : String} {value : Json} {n : Number}
    (h : n ∈ (object (members.put key value)).numbers) :
    n ∈ (object members).numbers ∨ n ∈ value.numbers := by
  rw [numbers, memberNumbers_eq] at h
  obtain ⟨m, hm, hn⟩ := List.mem_flatMap.mp h
  obtain hm | rfl := Members.mem_put hm
  · exact .inl (mem_numbers_member hm hn)
  · exact .inr hn

theorem membersWithNumbers_put (f : Number → Number) (key : String) (value : Json)
    (members : Members) : membersWithNumbers f (members.put key value) =
      Members.put key (value.withNumbers f) (membersWithNumbers f members) := by
  induction members with
  | nil => simp [Members.put, membersWithNumbers]
  | cons m members ih =>
    by_cases h : m.1 = key
    · simp [Members.put, membersWithNumbers, h]
    · simp [Members.put, membersWithNumbers, h, ih]

theorem get?_membersWithNumbers (f : Number → Number) (key : String) (members : Members) :
    Members.get? key (membersWithNumbers f members) = (members.get? key).map (withNumbers f) := by
  induction members with
  | nil => rfl
  | cons m members ih =>
    rw [membersWithNumbers, Members.get?, Members.get?, ih]
    split <;> rfl

end Json

namespace Store

variable {path : String} {disk : Disk} {root : Option Members}

/-! ### What a settings file holds -/

/-- A file that can keep flags: there is none yet where one can be made, or a blank one, or one
that holds an object, `root`. -/
inductive Holds (path : String) (disk : Disk) : Option Members → Prop
  | missing {place : Place} :
    disk.target path = .ok place → disk.node? place = none → Holds path disk none
  | blank {text : String} :
    disk.readText path = .ok text → Text.allBlank text.toList = true → Holds path disk none
  | object {text : String} {members : Members} :
    disk.readText path = .ok text → Json.ofText text = .ok (.object members) →
      Holds path disk (some members)

theorem Holds.readRoot (h : Holds path disk root) : readRoot path disk = .ok root := by
  unfold Store.readRoot
  cases h with
  | missing htarget hnode =>
    have hmissing : disk.exists? path = false := by
      unfold Disk.exists?
      rw [(Disk.resolve_of_target htarget).1]
      simp only [hnode]
      rfl
    rw [if_pos hmissing]
  | blank hread hblank =>
    rw [if_neg (by rw [Disk.exists_of_readText hread]; decide), hread]
    exact if_pos hblank
  | @object text members hread hobject =>
    have hblank : ¬ Text.allBlank text.toList = true :=
      fun hblank => Json.ofText_blank hblank _ hobject
    rw [if_neg (by rw [Disk.exists_of_readText hread]; decide), hread]
    simp only [if_neg hblank, hobject]

theorem Holds.target (h : Holds path disk root) : ∃ place, disk.target path = .ok place := by
  cases h with
  | missing htarget _ => exact ⟨_, htarget⟩
  | blank hread _ => exact Disk.target_of_readText hread
  | object hread _ => exact Disk.target_of_readText hread

/-- What was read as an object, if the file can be written. -/
theorem holds_of_readRoot (hroot : Store.readRoot path disk = .ok root) {place : Place}
    (htarget : disk.target path = .ok place) : Holds path disk root := by
  unfold Store.readRoot at hroot
  split at hroot
  · case _ hmissing =>
    cases hroot
    refine .missing htarget ?_
    unfold Disk.exists? at hmissing
    rw [(Disk.resolve_of_target htarget).1] at hmissing
    exact Option.isSome_eq_false_iff.mp hmissing |> Option.isNone_iff_eq_none.mp
  · split at hroot
    · cases hroot
    · case _ hread =>
      split at hroot
      · case _ hblank =>
        cases hroot
        exact .blank hread hblank
      · split at hroot
        · cases hroot
        · case _ hobject =>
          cases hroot
          exact .object hread hobject
        · cases hroot

theorem readRoot_alike {disk' : Disk} (h : disk.Alike disk' path) :
    Store.readRoot path disk' = Store.readRoot path disk := by
  unfold Store.readRoot
  rw [h.exists_eq, h.readText_eq]

theorem loadSettings_alike {disk' : Disk} (h : disk.Alike disk' path) :
    loadSettings (.file path) disk' = loadSettings (.file path) disk := by
  unfold loadSettings load
  simp only [readRoot_alike h]

theorem Holds.alike {disk' : Disk} (h : Holds path disk root) (halike : disk.Alike disk' path) :
    Holds path disk' root := by
  obtain ⟨place, htarget⟩ := h.target
  exact holds_of_readRoot ((readRoot_alike halike).trans h.readRoot) (halike.target htarget)

/-- The members of the file can be written, and read again as with `f` for numbers. -/
def Legible (root : Option Members) (f : Number → Number) : Prop :=
  ∀ members ∈ root, ∀ n ∈ (Json.object members).numbers, n.ReadsAs (f n)

/-- What is read of a file is sound; a file that holds nothing is as good as an empty object. -/
theorem sound_of_readRoot (h : Store.readRoot path disk = .ok root) :
    Json.Sound Json.depthLimit (.object (root.getD [])) := by
  unfold Store.readRoot at h
  split at h
  · cases h
    exact Json.sound_empty
  · split at h
    · cases h
    · split at h
      · cases h
        exact Json.sound_empty
      · split at h
        · cases h
        · case _ hobject =>
          cases h
          exact Json.ofText_sound hobject
        · cases h

theorem Holds.sound (h : Holds path disk root) :
    Json.Sound Json.depthLimit (.object (root.getD [])) :=
  sound_of_readRoot h.readRoot

theorem Legible.numbers {f : Number → Number} (h : Legible root f) :
    ∀ n ∈ (Json.object (root.getD [])).numbers, n.ReadsAs (f n) := by
  cases root with
  | none => exact fun n hn => absurd hn List.not_mem_nil
  | some members => exact h members rfl

/-- All that is read from a file is legible. -/
theorem Holds.legible (h : Holds path disk root) : ∃ f, Legible root f := by
  obtain ⟨f, hf⟩ := h.sound.legible
  refine ⟨f, fun members hmembers => ?_⟩
  rw [Option.mem_def.mp hmembers] at hf
  exact hf

/-! ### One save -/

/-- The members once flags were put among them. -/
def kept (root : Option Members) (settings : Settings) : Members :=
  (root.getD []).put moduleName settings.toJson

theorem kept_kept (root : Option Members) (old new : Settings) :
    kept (some (kept root old)) new = kept root new := Members.put_put _ _ _ _

/-- Flags that were there before leave no trace. -/
theorem fileText_put (members : Members) (old new : Settings) :
    fileText (members.put moduleName old.toJson) new = fileText members new :=
  congrArg (fun members => (Json.object members).toPretty) (Members.put_put _ _ _ _)

/-- A settings file is read again, whatever the flags in it. -/
theorem ofText_fileText {members : Members}
    (h : Json.Sound Json.depthLimit (.object members)) {f : Number → Number}
    (hf : ∀ n ∈ (Json.object members).numbers, n.ReadsAs (f n)) (settings : Settings) :
    Json.ofText (fileText members settings) =
      .ok (.object (Json.membersWithNumbers f (members.put moduleName settings.toJson))) := by
  refine Json.ofText_toPretty (h.put (Json.sound_toJson settings)) fun n hn => ?_
  rcases Json.numbers_put hn with hn | hn
  · exact hf n hn
  · exact absurd hn List.not_mem_nil

/-- **Flags are saved, and what the file held is kept.** -/
theorem save_holds (h : Holds path disk root) {f : Number → Number} (hf : Legible root f)
    (settings : Settings) :
    ∃ disk', save (.file path) settings disk = .ok (.file path, disk') ∧
      disk.writeText path (fileText (root.getD []) settings) = .ok disk' ∧
      Holds path disk' (some (Json.membersWithNumbers f (kept root settings))) := by
  obtain ⟨place, htarget⟩ := h.target
  have hwrite : disk.writeText path (fileText (root.getD []) settings) =
      .ok (disk.put place (.file (.text (fileText (root.getD []) settings)))) := by
    unfold Disk.writeText
    rw [htarget]
  refine ⟨_, ?_, hwrite, .object (Disk.readText_written hwrite)
    (ofText_fileText h.sound hf.numbers settings)⟩
  unfold save
  simp only [h.readRoot, hwrite]

theorem store_of_save {settings : Settings} {store : Store} {disk' : Disk}
    (h : save (.file path) settings disk = .ok (store, disk')) : store = .file path := by
  unfold save at h
  simp only at h
  split at h
  · cases h
  · split at h
    · cases h
    · exact (congrArg Prod.fst (Except.ok.inj h)).symm

/-- A save that succeeds found a file that can keep flags. -/
theorem holds_of_save {settings : Settings} {saved : Store × Disk}
    (h : save (.file path) settings disk = .ok saved) : ∃ root, Holds path disk root := by
  unfold save at h
  simp only at h
  cases hroot : Store.readRoot path disk with
  | error failure => rw [hroot] at h; cases h
  | ok root =>
    rw [hroot] at h
    simp only at h
    split at h
    · cases h
    · case _ hwrite =>
      obtain ⟨place, htarget, -⟩ := Disk.writeText_eq hwrite
      exact ⟨root, holds_of_readRoot hroot htarget⟩

/-- A file that flags were saved in can keep flags. -/
theorem holds_saved {settings : Settings} {store : Store} {disk' : Disk}
    (h : save (.file path) settings disk = .ok (store, disk')) : ∃ root, Holds path disk' root := by
  obtain ⟨root, hholds⟩ := holds_of_save h
  obtain ⟨f, hf⟩ := hholds.legible
  obtain ⟨disk₁, hsave, -, hkept⟩ := save_holds hholds hf settings
  cases h.symm.trans hsave
  exact ⟨_, hkept⟩

/-- **What was saved is what is loaded.** -/
theorem load_saved {store store' : Store} {settings : Settings} {disk disk' : Disk}
    (h : store.save settings disk = .ok (store', disk')) :
    store'.load disk' = .ok (some settings.toJson) := by
  cases store with
  | memory value =>
    cases h
    rfl
  | file path =>
    obtain ⟨root, hholds⟩ := holds_of_save h
    obtain ⟨f, hf⟩ := hholds.legible
    obtain ⟨disk₁, hsave, -, hkept⟩ := save_holds hholds hf settings
    cases h.symm.trans hsave
    unfold load
    simp only [hkept.readRoot]
    show Except.ok (Members.get? moduleName (Json.membersWithNumbers f (kept root settings))) = _
    rw [Json.get?_membersWithNumbers, kept, Members.get?_put_self]
    -- flags hold no numbers
    rfl

theorem loadSettings_saved {store store' : Store} {settings : Settings} {disk disk' : Disk}
    (h : store.save settings disk = .ok (store', disk')) :
    (store'.loadSettings disk').1 = settings := by
  unfold loadSettings
  rw [load_saved h]
  exact Settings.merge_toJson settings {}

/-- Flags that were just saved can be saved again, and nothing changes. -/
theorem save_again {settings : Settings} {disk' : Disk}
    (h : disk.writeText path (fileText (root.getD []) settings) = .ok disk')
    (hkept : Holds path disk' (some (kept root settings))) :
    save (.file path) settings disk' = .ok (.file path, disk') := by
  have htext : fileText (kept root settings) settings = fileText (root.getD []) settings :=
    fileText_put _ settings settings
  unfold save
  simp only [hkept.readRoot, Option.getD_some, htext, Disk.writeText_again h]

/-! ### Any number of saves -/

/-- Saves flags one after another. -/
def saveAll (store : Store) (disk : Disk) (all : List Settings) : Except Failure (Store × Disk) :=
  all.foldlM (fun (store, disk) settings => store.save settings disk) (store, disk)

/-- Whole numbers are written again as they were read. -/
theorem save_whole (h : Holds path disk root)
    (hwhole : ∀ members ∈ root, (Json.object members).IsWhole) (settings : Settings) :
    ∃ disk', save (.file path) settings disk = .ok (.file path, disk') ∧
      disk.writeText path (fileText (root.getD []) settings) = .ok disk' ∧
      Holds path disk' (some (kept root settings)) ∧
      (Json.object (kept root settings)).IsWhole := by
  have hlegible : Legible root id := fun members hmembers n hn =>
    (hwhole members hmembers n hn).readsAs
  obtain ⟨disk', hsave, hwrite, hkept⟩ := save_holds h hlegible settings
  rw [Json.membersWithNumbers_id] at hkept
  refine ⟨disk', hsave, hwrite, hkept, fun n hn => ?_⟩
  rcases Json.numbers_put hn with hn | hn
  · cases root with
    | none => exact absurd hn List.not_mem_nil
    | some members => exact hwhole members rfl n hn
  · exact absurd hn List.not_mem_nil

/-- Only the last flags that were saved are left. -/
theorem saveAll_holds (h : Holds path disk root)
    (hwhole : ∀ members ∈ root, (Json.object members).IsWhole) (earlier : List Settings)
    (settings : Settings) :
    ∃ before disk', saveAll (.file path) disk (earlier ++ [settings]) = .ok (.file path, disk') ∧
      save (.file path) settings before = .ok (.file path, disk') ∧
      before.writeText path (fileText (root.getD []) settings) = .ok disk' ∧
      Holds path disk' (some (kept root settings)) := by
  induction earlier generalizing disk root with
  | nil =>
    obtain ⟨disk', hsave, hwrite, hkept, -⟩ := save_whole h hwhole settings
    refine ⟨disk, disk', ?_, hsave, hwrite, hkept⟩
    rw [List.nil_append, saveAll, List.foldlM_cons]
    show (save (.file path) settings disk >>= _) = _
    rw [hsave]
    rfl
  | cons first earlier ih =>
    obtain ⟨disk₁, hsave₁, -, hkept₁, hwhole₁⟩ := save_whole h hwhole first
    obtain ⟨before, disk', hall, hsave, hwrite, hkept⟩ :=
      ih hkept₁ fun members hmembers => Option.mem_some.mp hmembers ▸ hwhole₁
    have htext : fileText ((some (kept root first)).getD []) settings =
        fileText (root.getD []) settings := fileText_put _ first settings
    rw [htext] at hwrite
    rw [kept_kept] at hkept
    refine ⟨before, disk', ?_, hsave, hwrite, hkept⟩
    rw [List.cons_append, saveAll, List.foldlM_cons]
    show (save (.file path) first disk >>= _) = _
    rw [hsave₁]
    exact hall

/-- **Flags are kept beside what else a settings file holds.** -/
theorem flags_kept {path : String} {disk : Disk} {root : Option Members}
    (h : Holds path disk root) (hwhole : ∀ members ∈ root, (Json.object members).IsWhole)
    (earlier : List Settings) (settings : Settings) :
    ∃ (disk' : Disk) (text : String) (members : Members),
      saveAll (.file path) disk (earlier ++ [settings]) = .ok (.file path, disk') ∧
      load (.file path) disk' = .ok (some settings.toJson) ∧
      (loadSettings (.file path) disk').1 = settings ∧
      -- the file as a whole
      disk'.readText path = .ok text ∧ Json.ofText text = .ok (.object members) ∧
      (∀ key, key ≠ moduleName → members.get? key = (root.getD []).get? key) ∧
      members.keys = (if moduleName ∈ (root.getD []).keys then (root.getD []).keys
        else (root.getD []).keys ++ [moduleName]) ∧
      -- once more
      save (.file path) settings disk' = .ok (.file path, disk') := by
  obtain ⟨before, disk', hall, hsave, hwrite, hkept⟩ := saveAll_holds h hwhole earlier settings
  have hread := Disk.readText_written hwrite
  refine ⟨disk', _, kept root settings, hall, load_saved hsave, loadSettings_saved hsave, hread, ?_,
    fun key hkey => Members.get?_put_of_ne hkey _ _, Members.keys_put _ _ _,
    save_again hwrite hkept⟩
  cases hkept with
  | object hread' hobject =>
    rw [Except.ok.inj (hread.symm.trans hread')]
    exact hobject

/-- Members of others, around an entry that is no object. -/
def mixedMembers : Members :=
  [("b", .array [.number (.natural 18446744073709551615), .number (.negative 1)]),
    (moduleName, .number (.natural 0)), ("a", .object [("b", .string "\x07")])]

theorem isWhole_mixedMembers : (Json.object mixedMembers).IsWhole := by decide +kernel

theorem sound_mixedMembers : Json.Sound Json.depthLimit (.object mixedMembers) := by
  have hnumber : ∀ {depth : Nat} {n : Number}, n.IsWhole → Json.Sound depth (.number n) :=
    fun h => .number h.kept
  refine .object (by decide +kernel) (List.forall_mem_cons.mpr ⟨.array ?_, ?_⟩)
  · exact List.forall_mem_cons.mpr ⟨hnumber (by decide +kernel),
      List.forall_mem_singleton.mpr (hnumber (by decide +kernel))⟩
  · exact List.forall_mem_cons.mpr ⟨hnumber (by decide +kernel), List.forall_mem_singleton.mpr
      (.object (by decide +kernel) (List.forall_mem_singleton.mpr (.string _)))⟩

theorem flags_kept_mixed :
    let disk : Disk :=
      { nodes := [(["flags"], .file (.text (Json.object mixedMembers).toCompact))] }
    ∃ (disk' : Disk) (members : Members),
      saveAll (.file "flags") disk [⟨false, false⟩, ⟨false, true⟩] = .ok (.file "flags", disk') ∧
      readRoot "flags" disk' = .ok (some members) ∧
      members.get? "a" = some (.object [("b", .string "\x07")]) ∧
      members.keys = ["b", moduleName, "a"] := by
  intro disk
  have hholds : Holds "flags" disk (some mixedMembers) := .object rfl
    (Json.ofText_of_takes (Json.Read.value_written sound_mixedMembers isWhole_mixedMembers))
  obtain ⟨disk', text, members, hall, -, -, hread, hobject, hothers, hkeys, -⟩ :=
    flags_kept hholds (fun _ h => Option.some.inj h ▸ isWhole_mixedMembers) [⟨false, false⟩]
      ⟨false, true⟩
  exact ⟨disk', members, hall, (Holds.object hread hobject).readRoot,
    hothers "a" (by decide +kernel), hkeys.trans (by decide +kernel)⟩

/-- Where there is no directory for it, no file is made. -/
theorem save_no_directory :
    Disk.exists? {} "gone/flags.json" = false ∧
      ∀ saved, save (.file "gone/flags.json") {} {} ≠ .ok saved := by
  refine ⟨by decide +kernel, fun saved h => ?_⟩
  obtain ⟨root, hholds⟩ := holds_of_save h
  obtain ⟨place, htarget⟩ := hholds.target
  have hfault : Disk.target {} "gone/flags.json" = .error .notFound := by decide +kernel
  cases hfault.symm.trans htarget

end Store

end PipeGuard
