import PipeGuard.Proofs.ChatFile
import PipeGuard.Proofs.Messages
import PipeGuard.Proofs.Reporting

/-! Fixing a chat file a second time.

What a run leaves in a chat file is the chat that its sweep had in mind
(`readText_fixed`), and no sweep with the same settings has anything to do there. So a
second run finds its chat readable, reports that it fixed nothing, and writes nothing
(`fixChat_settled`).

`chat_settled`: where the numbers of the records are whole, one run settles a chat file
for good. -/
namespace PipeGuard

/-! ### The last line of the log -/

namespace Logger

/-- A line that is not for debugging is shown whatever the settings. -/
theorem getLast?_terminal {logger : Logger} (h : logger.sink = .terminal) (lines : List Line)
    (message : String) :
    (logger.writeAll (lines ++ [.info message])).terminal.getLast? = some (.info message) := by
  unfold writeAll
  rw [List.foldl_append]
  show ((logger.writeAll lines).write (.info message)).terminal.getLast? = _
  have hsink := sink_writeAll h lines
  unfold write keep
  rw [if_neg (fun hdebug => nomatch hdebug.1), hsink]
  exact List.getLast?_append_cons _ _ _

end Logger

namespace Command

open Transcript (Rewritten WholeNumbers rows)

/-! ### The first run -/

/-- Where the output belongs, a chat that was fixed is rewritten line by line. -/
theorem readText_fixed {request : Request} {path content : String} {settings : Settings}
    {w w' : World} (hread : w.disk.readText path = .ok content)
    (h : fixChat request path settings w = (.ok (), w')) :
    ∃ parsed output, Transcript.parse content = .ok parsed ∧
      List.Forall₂ (Rewritten settings) (rows content) (rows output) ∧
      w'.disk.readText (request.out.getD path) = .ok output := by
  obtain ⟨parsed, hparsed⟩ : ∃ parsed, Transcript.parse content = .ok parsed := by
    unfold fixChat at h
    simp only [readFile_of_readText hread] at h
    split at h
    · cases h
    · case _ hparsed => exact ⟨_, hparsed⟩
  obtain ⟨parsed', output, hparsed', houtput, hrewritten, hkept, hchanged⟩ :=
    Transcript.text_rewritten settings (Transcript.readable_of_parse hparsed)
  obtain rfl : parsed' = parsed := Except.ok.inj (hparsed'.symm.trans hparsed)
  obtain ⟨w₁, hdisk, heq⟩ := @fixChat_eq request _ _ _ _ hread _ _ hparsed houtput
  rw [heq] at h
  refine ⟨parsed', output, hparsed, hrewritten, ?_⟩
  cases hout : request.out with
  | some out => exact Disk.readText_written (writeChat_out hout h)
  | none =>
    obtain ⟨hnone, hsome⟩ := writeChat_inPlace hout h
    by_cases hempty : (sweep settings parsed'.chat).report.changed = []
    · rw [hnone hempty, hdisk, hkept (hchanged.mp hempty)]
      exact hread
    · exact Disk.readText_written (hsome hempty)

/-! ### The second run -/

/-- A run that saves no settings comes to its chat. -/
theorem perform_unsaved {request : Request} {path : String} (hchat : request.chat = some path)
    (hsave : request.has .save = false) (w : World) :
    ∃ w₁ : World, w₁.disk = w.disk ∧
      (request.has .silent = false → w.logger.sink = .terminal → w₁.logger.sink = .terminal) ∧
      perform request w = fixChat request path (effective request w.disk) w₁ := by
  have hunsaved : ¬ request.has .save = true := by rw [hsave]; exact Bool.false_ne_true
  obtain ⟨w₁, hsettled, hperform⟩ := runsWith_of_settles fun h => absurd h hunsaved
  refine ⟨w₁, hsettled.disk.trans (settled_unsaved hsave w.disk), hsettled.terminal,
    hperform.trans ?_⟩
  unfold deliver
  rw [hchat]

/-- Without a settings file the files make no difference to the settings. -/
theorem effective_of_none {request : Request} (h : request.settings = none) (disk disk' : Disk) :
    effective request disk = effective request disk' := by
  unfold effective
  rw [h]

/-- A chat with nothing to fix is left alone, and that is what is reported. -/
theorem fixChat_settled {request : Request} {path content : String} {settings : Settings}
    {w : World} (hout : request.out = none) (hread : w.disk.readText path = .ok content)
    {parsed : Transcript.Parsed} (hparsed : Transcript.parse content = .ok parsed)
    (hsettled : (sweep settings parsed.chat).chat = parsed.chat) :
    ∃ w', fixChat request path settings w = (.ok (), w') ∧ w'.disk = w.disk ∧
      (w.logger.sink = .terminal → w'.logger.terminal.getLast? = some (.info
        ("Scanned " ++ toString (sweep settings parsed.chat).report.messages ++
          " message(s), fixed 0 field(s)"))) := by
  obtain ⟨hchanged, hfields⟩ := report_of_chat_eq settings parsed.chat hsettled
  obtain ⟨parsed', output, hparsed', houtput, -⟩ :=
    Transcript.text_rewritten settings (Transcript.readable_of_parse hparsed)
  obtain rfl : parsed' = parsed := Except.ok.inj (hparsed'.symm.trans hparsed)
  have hzero : " message(s), fixed " ++ (toString 0 ++ " field(s)") =
      " message(s), fixed 0 field(s)" := by decide
  unfold fixChat writeChat
  simp only [readFile_of_readText hread, hparsed, houtput, hout, hchanged, hfields]
  refine ⟨_, rfl, rfl, fun hsink => ?_⟩
  rw [← hzero, ← String.append_assoc, ← String.append_assoc]
  exact Logger.getLast?_terminal hsink _ _

/-- **A chat file is fixed once and for all.** -/
theorem chat_settled {arguments : List String} {request : Request} {path content : String}
    {w : World} (hparse : parse arguments = .request request) (hchat : request.chat = some path)
    (hout : request.out = none) (hread : w.disk.readText path = .ok content)
    (hwhole : WholeNumbers content) (hsuccess : (run arguments w).exitCode = 0) :
    ∃ parsed output, Transcript.parse content = .ok parsed ∧
      (run arguments w).world.disk.readText path = .ok output ∧
      Transcript.parse output =
        .ok ⟨rows output, (sweep (effective request w.disk) parsed.chat).chat⟩ ∧
      -- a second run with the same settings
      (∀ arguments' request' w', parse arguments' = .request request' →
        request'.chat = some path → request'.out = none → request'.has .save = false →
        w'.disk = (run arguments w).world.disk →
        effective request' w'.disk = effective request w.disk →
          (run arguments' w').exitCode = 0 ∧ (run arguments' w').world.disk = w'.disk ∧
            (request'.has .silent = false → w'.logger.sink = .terminal →
              (run arguments' w').world.logger.terminal.getLast? = some (.info ("Scanned " ++
                toString (if (effective request w.disk).enabled then parsed.chat.length else 0) ++
                " message(s), fixed 0 field(s)")))) ∧
      -- any record can be written again
      ∀ text message other, Message.ofText text = .ok message →
        ∃ patched, Transcript.patch text other = .ok patched := by
  obtain ⟨w₁, hdisk₁, hfix⟩ := perform_chat hchat (run_success hparse hsuccess)
  obtain ⟨parsed, output, hparsed, hrewritten, hplace⟩ :=
    readText_fixed (readText_settled hread hdisk₁ hfix) hfix
  rw [hout, Option.getD_none] at hplace
  have hagain := Transcript.parse_rewritten hparsed hwhole hrewritten
  refine ⟨parsed, output, hparsed, hplace, hagain, ?_, fun _ _ other h =>
    Transcript.patch_record h other⟩
  intro arguments' request' w' hparse' hchat' hout' hsave hdisk hsame
  obtain ⟨w₂, hdisk₂, hterminal, hperform⟩ := perform_unsaved hchat' hsave w'
  obtain ⟨w₃, hfix', hdisk₃, hlast⟩ := @fixChat_settled request' path output
    (effective request w.disk) w₂ hout' (by rw [hdisk₂, hdisk, hplace]) _ hagain
    (sweep_again (effective request w.disk) parsed.chat)
  have hrun : run arguments' w' = ⟨0, none, w₃⟩ := by
    unfold run
    rw [hparse']
    simp only [hperform, hsame, hfix']
  rw [hrun]
  refine ⟨rfl, hdisk₃.trans hdisk₂, fun hloud hsink => ?_⟩
  rw [hlast (hterminal hloud hsink), messages_sweep, sweep_chat, List.length_map]

/-- A record with numbers and a call, and a blank line. -/
def countedChat : String :=
  "\x7b\"n\":[1,-2,-0],\"mes\":\"\x7b\x7bsetvar::a::b|c\x7d\x7d\"\x7d\n \n"

/-- The first run writes the record anew, and the second one leaves it. -/
theorem chat_settled_counted :
    let w : World := { disk := { nodes := [(["chat"], .file (.text countedChat))] } }
    let w' := (run ["--chat", "chat"] w).world
    (run ["--chat", "chat"] w).exitCode = 0 ∧ w'.disk ≠ w.disk ∧
      (run ["--chat", "chat"] w').exitCode = 0 ∧ (run ["--chat", "chat"] w').world.disk = w'.disk := by
  intro w w'
  have hparse : parse ["--chat", "chat"] = .request { chat := some "chat", items := [.chat] } := by
    decide +kernel
  have hsuccess : (run ["--chat", "chat"] w).exitCode = 0 := by decide +kernel
  have hchanged : w'.disk ≠ w.disk := by decide +kernel
  have hwhole : WholeNumbers countedChat := by decide +kernel
  have hread : w.disk.readText "chat" = .ok countedChat := rfl
  obtain ⟨parsed, output, -, -, -, hsecond, -⟩ :=
    chat_settled hparse rfl rfl hread hwhole hsuccess
  obtain ⟨hagain, hkept, -⟩ :=
    hsecond _ _ w' hparse rfl rfl rfl rfl (effective_of_none rfl w'.disk w.disk)
  exact ⟨hsuccess, hchanged, hagain, hkept⟩

end Command

end PipeGuard
