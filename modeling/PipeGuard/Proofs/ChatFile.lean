import PipeGuard.Proofs.Files
import PipeGuard.Proofs.Rewriting
import PipeGuard.Proofs.Settling

/-! Fixing a chat file from the command line.

A run first settles its settings, which may write a settings file, and only then looks at
the chat. A chat that was written over by settings is none any more
(`parse_fileText`), so a run that succeeds has read what was there at the start.

`chat_rewritten`: where the output belongs, a successful run leaves the chat's text
rewritten line by line, and it writes nothing over a chat with nothing to fix. -/
namespace PipeGuard.Command

open Transcript (Readable Rewritten Touched rows)

/-! ### Settings -/

/-- The first line of a settings file is no record. -/
theorem parse_fileText (root : Members) (settings : Settings) :
    ∃ failure, Transcript.parse (Store.fileText root settings) = .error failure := by
  obtain ⟨rest, hchars⟩ : ∃ rest, (Store.fileText root settings).toList = ['\x7b'] ++ '\n' :: rest := by
    unfold Store.fileText Json.toPretty
    rw [String.toList_ofList]
    cases root with
    | nil => exact ⟨_, rfl⟩
    | cons member root =>
      rw [Members.put]
      split <;> exact ⟨_, rfl⟩
  obtain ⟨fault, hfault⟩ : ∃ fault, Transcript.messageOf ⟨"\x7b", "\n"⟩ = .error fault := ⟨_, rfl⟩
  have hrows : rows (Store.fileText root settings) =
      ⟨"\x7b", "\n"⟩ :: (Transcript.cutFrom [] rest).map Transcript.rowOf := by
    unfold rows
    rw [hchars, cutFrom_closed (by decide)]
    rfl
  refine ⟨.record 1 fault, ?_⟩
  unfold Transcript.parse
  simp only
  rw [hrows, Transcript.messagesFrom, hfault]
  rfl

/-- A run on a chat settles its settings and then fixes the chat. -/
theorem perform_chat {request : Request} {path : String} {w w' : World}
    (hchat : request.chat = some path) (h : perform request w = (.ok (), w')) :
    ∃ w₁ : World, w₁.disk = settled request w.disk ∧
      fixChat request path (effective request w.disk) w₁ = (.ok (), w') := by
  obtain ⟨-, w₁, hsettled, hperform⟩ := runsWith_of_done h
  refine ⟨w₁, hsettled.disk, ?_⟩
  unfold deliver at hperform
  rw [hchat] at hperform
  exact hperform.symm.trans h

/-! ### The chat -/

theorem readFile_of_readText {disk : Disk} {path content : String}
    (h : disk.readText path = .ok content) : readFile disk path = .ok content := by
  unfold readFile
  rw [if_pos (Disk.exists_of_readText h), h]

theorem readText_of_readFile {disk : Disk} {path content : String}
    (h : readFile disk path = .ok content) : disk.readText path = .ok content := by
  unfold readFile at h
  split at h
  · split at h
    · case _ hread =>
      obtain rfl := Except.ok.inj h
      exact hread
    · cases h
  · cases h

/-- A chat that was read is fixed, and only writing it can fail. -/
theorem fixChat_eq {request : Request} {path content : String} {settings : Settings} {w : World}
    (hread : w.disk.readText path = .ok content) {parsed : Transcript.Parsed} {output : String}
    (hparse : Transcript.parse content = .ok parsed)
    (houtput : parsed.text (sweep settings parsed.chat) = .ok output) :
    ∃ w₁ : World, w₁.disk = w.disk ∧ fixChat request path settings w =
      writeChat request path (sweep settings parsed.chat).report output w₁ := by
  unfold fixChat
  simp only [readFile_of_readText hread, hparse, houtput]
  refine ⟨w.log _, ?_, rfl⟩
  rfl

theorem writeChat_out {request : Request} {path out output : String} {report : SweepReport}
    {w w' : World} (hout : request.out = some out)
    (h : writeChat request path report output w = (.ok (), w')) :
    w.disk.writeText out output = .ok w'.disk := by
  unfold writeChat writeOutput at h
  simp only [hout] at h
  split at h
  · cases h
  · case _ hwrite =>
    cases h
    exact hwrite

theorem writeChat_inPlace {request : Request} {path output : String} {report : SweepReport}
    {w w' : World} (hout : request.out = none)
    (h : writeChat request path report output w = (.ok (), w')) :
    (report.changed = [] → w'.disk = w.disk) ∧
      (report.changed ≠ [] → w.disk.writeText path output = .ok w'.disk) := by
  unfold writeChat at h
  simp only [hout] at h
  split at h
  · case _ hempty =>
    cases h
    exact ⟨fun _ => rfl, fun hne => absurd (List.isEmpty_iff.mp hempty) hne⟩
  · case _ hempty =>
    refine ⟨fun hnil => absurd (List.isEmpty_iff.mpr hnil) hempty, fun _ => ?_⟩
    split at h
    · cases h
    · case _ hwrite =>
      cases h
      exact hwrite

/-- A chat that a successful run reads is the one that was there at the start. -/
theorem readText_settled {request : Request} {path content : String} {settings : Settings}
    {disk : Disk} {w w' : World} (hread : disk.readText path = .ok content)
    (hdisk : w.disk = settled request disk)
    (h : fixChat request path settings w = (.ok (), w')) :
    w.disk.readText path = .ok content := by
  obtain hsame | ⟨file, root, kept, hwrite⟩ := settled_cases request disk
  · rw [hdisk, hsame]
    exact hread
  · obtain hother | hover := Disk.readText_writeText hwrite hread
    · rw [hdisk]
      exact hother
    · obtain ⟨failure, hfailure⟩ := parse_fileText root kept
      rw [← hdisk] at hover
      unfold fixChat at h
      simp only [readFile_of_readText hover, hfailure] at h
      cases h

/-- **A chat file is rewritten line by line.** -/
theorem chat_rewritten {arguments : List String} {request : Request} {path content : String}
    {w : World} (hparse : parse arguments = .request request) (hchat : request.chat = some path)
    (hread : w.disk.readText path = .ok content) (hreadable : Readable content)
    (hsuccess : (run arguments w).exitCode = 0) :
    ∃ output,
      List.Forall₂ (Rewritten (effective request w.disk)) (rows content) (rows output) ∧
      -- where the output belongs
      (∀ out, request.out = some out → (run arguments w).world.disk.readText out = .ok output) ∧
      (request.out = none → (run arguments w).world.disk.readText path = .ok output) ∧
      -- with nothing to fix
      ((effective request w.disk).enabled = false ∨ ¬ Touched (effective request w.disk) content →
        output = content ∧
          (request.out = none → (run arguments w).world.disk = settled request w.disk)) := by
  obtain ⟨w₁, hdisk₁, hfix⟩ := perform_chat hchat (run_success hparse hsuccess)
  have hread₁ := readText_settled hread hdisk₁ hfix
  obtain ⟨parsed, output, hparsed, houtput, hrewritten, hkept, hchanged⟩ :=
    Transcript.text_rewritten (effective request w.disk) hreadable
  obtain ⟨w₂, hdisk₂, heq⟩ := @fixChat_eq request _ _ _ _ hread₁ _ _ hparsed houtput
  rw [heq] at hfix
  have hinPlace := fun hout => @writeChat_inPlace request _ _ _ _ _ hout hfix
  refine ⟨output, hrewritten, ?_, ?_, ?_⟩
  · intro out hout
    exact Disk.readText_written (writeChat_out hout hfix)
  · intro hout
    by_cases hnone : (sweep (effective request w.disk) parsed.chat).report.changed = []
    · rw [(hinPlace hout).1 hnone, hdisk₂, hkept (hchanged.mp hnone)]
      exact hread₁
    · exact Disk.readText_written ((hinPlace hout).2 hnone)
  · intro hnothing
    have huntouched : ¬ Touched (effective request w.disk) content := by
      rcases hnothing with hdisabled | huntouched
      · rintro ⟨row, -, message, -, ht⟩
        exact not_touched_disabled hdisabled message ht
      · exact huntouched
    refine ⟨hkept huntouched, fun hout => ?_⟩
    rw [(hinPlace hout).1 (hchanged.mpr huntouched), hdisk₂, hdisk₁]

/-- Two records with a blank line between them. The first one sets a variable to `value`. -/
def mixedChat (value : String) : String :=
  "\x7b\"mes\":\"\x7b\x7bsetvar::a::" ++ value ++ "\x7d\x7d\",\"swipes\":null\x7d\x0d\n" ++
    " \n" ++ "\x7b\"mes\":\"d|e\"\x7d"

theorem readable_mixedChat : Readable (mixedChat "b|c") := by
  have hrows : rows (mixedChat "b|c") =
      [⟨"\x7b\"mes\":\"\x7b\x7bsetvar::a::b|c\x7d\x7d\",\"swipes\":null\x7d", "\x0d\n"⟩, ⟨" ", "\n"⟩,
        ⟨"\x7b\"mes\":\"d|e\"\x7d", ""⟩] := by decide +kernel
  unfold Readable
  rw [hrows]
  simp only [List.forall_mem_cons]
  exact ⟨.inr ⟨_, rfl⟩, .inl (by decide), .inr ⟨_, rfl⟩, fun _ h => absurd h List.not_mem_nil⟩

/-- Only the first record is written anew, in place. -/
theorem chat_rewritten_mixed :
    let w : World := { disk := { nodes := [(["chat"], .file (.text (mixedChat "b|c")))] } }
    (run ["--chat", "chat"] w).exitCode = 0 ∧
      (run ["--chat", "chat"] w).world.disk.readText "chat" = .ok (mixedChat "b\\\\|c") ∧
      List.Forall₂ (Rewritten {}) (rows (mixedChat "b|c")) (rows (mixedChat "b\\\\|c")) := by
  intro w
  have hparse : parse ["--chat", "chat"] = .request { chat := some "chat", items := [.chat] } := by
    decide +kernel
  have hsuccess : (run ["--chat", "chat"] w).exitCode = 0 := by decide +kernel
  have hplace : (run ["--chat", "chat"] w).world.disk.readText "chat" =
      .ok (mixedChat "b\\\\|c") := by decide +kernel
  obtain ⟨output, hrewritten, -, hinPlace, -⟩ :=
    chat_rewritten hparse rfl (show w.disk.readText "chat" = .ok (mixedChat "b|c") from rfl)
      readable_mixedChat hsuccess
  obtain rfl : mixedChat "b\\\\|c" = output := Except.ok.inj (hplace.symm.trans (hinPlace rfl))
  exact ⟨hsuccess, hplace, hrewritten⟩

end PipeGuard.Command
