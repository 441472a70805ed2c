import PipeGuard.Proofs.Settling
import PipeGuard.Proofs.Storage

/-! Settings files that hold something else.

Where there is a file that is neither blank nor an object, nothing is loaded and nothing is
saved (`malformed_iff`), so what lies there stays whatever a guard does
(`content_malformed`). The guard itself goes on: a change takes effect, with one warning in
the log (`setEnabled_malformed`, `setDebug_malformed`). A run from the command line that is
to save its settings ends there; one that is not works with the defaults.

`malformed_kept`: all of it. -/
namespace PipeGuard

namespace Store

variable {path : String} {disk disk' : Disk}

/-- There is something at the path, and it is neither a blank text nor one that is read as an
object. -/
def Malformed (path : String) (disk : Disk) : Prop :=
  disk.exists? path = true ∧ ∀ text, disk.readText path = .ok text →
    Text.allBlank text.toList = false ∧ ∀ members, Json.ofText text ≠ .ok (.object members)

theorem malformed_iff : Malformed path disk ↔ ∃ failure, readRoot path disk = .error failure := by
  unfold Malformed readRoot
  cases hexists : disk.exists? path with
  | false =>
    simp only [if_true]
    exact ⟨fun h => absurd h.1 Bool.false_ne_true, fun ⟨_, h⟩ => nomatch h⟩
  | true =>
    rw [if_neg Bool.noConfusion]
    cases hread : disk.readText path with
    | error fault => exact ⟨fun _ => ⟨_, rfl⟩, fun _ => ⟨rfl, fun _ h => nomatch h⟩⟩
    | ok text =>
      simp only
      by_cases hblank : Text.allBlank text.toList = true
      · rw [if_pos hblank]
        refine ⟨fun h => ?_, fun ⟨_, h⟩ => nomatch h⟩
        exact absurd hblank (Bool.eq_false_iff.mp (h.2 text rfl).1)
      · rw [if_neg hblank]
        constructor
        · intro h
          split
          · exact ⟨_, rfl⟩
          · case _ hobject => exact absurd hobject ((h.2 text rfl).2 _)
          · exact ⟨_, rfl⟩
        · rintro ⟨failure, herror⟩
          refine ⟨trivial, fun other hother => ?_⟩
          obtain rfl : text = other := Except.ok.inj hother
          refine ⟨Bool.eq_false_iff.mpr hblank, fun members hobject => ?_⟩
          rw [hobject] at herror
          cases herror

theorem Malformed.load (h : Malformed path disk) :
    ∃ failure, Store.load (.file path) disk = .error failure := by
  obtain ⟨failure, hroot⟩ := malformed_iff.mp h
  refine ⟨failure, ?_⟩
  unfold Store.load
  simp only [hroot]
  rfl

theorem Malformed.save (h : Malformed path disk) (settings : Settings) :
    ∃ failure, Store.save (.file path) settings disk = .error failure := by
  obtain ⟨failure, hload⟩ := h.load
  exact ⟨failure, save_of_load_error hload settings⟩

theorem Malformed.loadSettings (h : Malformed path disk) :
    (Store.loadSettings (.file path) disk).1 = {} := by
  obtain ⟨failure, hload⟩ := h.load
  unfold Store.loadSettings
  rw [hload]

theorem Malformed.resolve (h : Malformed path disk) : ∃ place, disk.resolve path = .ok place := by
  have hexists := h.1
  unfold Disk.exists? at hexists
  split at hexists
  · case _ place hresolve => exact ⟨place, hresolve⟩
  · cases hexists

theorem Malformed.alike (h : Malformed path disk) (halike : disk.Alike disk' path) :
    Malformed path disk' := by
  unfold Malformed
  rw [halike.exists_eq, halike.readText_eq]
  exact h

/-- What can be read does not depend on the path that leads to it. -/
theorem Malformed.elsewhere (h : Malformed path disk) {other : String}
    (hresolve : disk.resolve other = disk.resolve path) : Malformed other disk := by
  have hexists : disk.exists? other = disk.exists? path := by
    unfold Disk.exists?
    rw [hresolve]
  have hread : disk.readText other = disk.readText path := by
    unfold Disk.readText Disk.content
    rw [hresolve]
  unfold Malformed
  rw [hexists, hread]
  exact h

/-- **What is malformed is not written over**, under this path or another. -/
theorem Malformed.alike_save (h : Malformed path disk) {store : Store} {settings : Settings}
    {saved : Store × Disk} (hsave : store.save settings disk = .ok saved) :
    disk.Alike saved.2 path := by
  obtain ⟨place, hresolve⟩ := h.resolve
  cases store with
  | memory value =>
    cases hsave
    exact Disk.alike_refl hresolve
  | file other =>
    obtain ⟨root, hwrite⟩ := writeText_of_save hsave
    obtain ⟨place', htarget, -⟩ := Disk.writeText_eq hwrite
    refine Disk.alike_writeText htarget hwrite hresolve ?_
    rintro rfl
    obtain ⟨failure, hfailed⟩ :=
      (h.elsewhere ((Disk.resolve_of_target htarget).1.trans hresolve.symm)).save settings
    cases hfailed.symm.trans hsave

end Store

open Store (Malformed)

/-! ### Files -/

/-- Nobody but the guard writes what a path leads to. -/
def Storage.Leaves (path : String) (k : Storage) : Action → Prop
  | .setFile other node => k.disk.Alike (k.disk.setAt other node) path
  | _ => True

theorem Storage.alike_step {k : Storage} {path : String} {action : Action}
    (h : Malformed path k.disk) (hleaves : k.Leaves path action) :
    k.disk.Alike (k.step action).disk path := by
  obtain ⟨place, hresolve⟩ := h.resolve
  have hchange : ∀ settings, k.disk.Alike (k.change settings).disk path := by
    intro settings
    unfold Storage.change
    split
    · case _ hsave => exact h.alike_save hsave
    · exact Disk.alike_refl hresolve
  cases action with
  | setFile other node => exact hleaves
  | setEnabled enabled => exact hchange _
  | setDebug debug => exact hchange _
  | _ => exact Disk.alike_refl hresolve

/-! ### The log -/

/-- What the guard logs when its settings cannot be saved. -/
def saveWarning (failure : Failure) : Line :=
  .warning ("[Settings] Failed to save settings: " ++ failure.message)

def Line.isSaveWarning (line : Line) : Bool :=
  decide (line.level = .warning) &&
    "[Settings] Failed to save settings: ".toList.isPrefixOf line.message.toList

theorem isSaveWarning_saveWarning (failure : Failure) :
    (saveWarning failure).isSaveWarning = true := by
  unfold Line.isSaveWarning saveWarning Line.warning
  rw [decide_eq_true rfl, Bool.true_and, String.toList_append]
  exact List.isPrefixOf_iff_prefix.mpr (List.prefix_append _ _)

theorem countP_single {line : Line} (h : line.isSaveWarning = false) :
    [line].countP Line.isSaveWarning = 0 := by
  rw [List.countP_singleton, h, if_neg Bool.false_ne_true]

theorem Hook.register_lines (hook : Hook) (free : Bool) (pipeline : Pipeline) :
    (hook.register free pipeline).lines.countP Line.isSaveWarning = 0 := by
  unfold Hook.register
  split
  · rfl
  · exact countP_single (by decide)
  · exact countP_single (by decide)
  · rfl

theorem Hook.unregister_lines (hook : Hook) (free : Bool) (pipeline : Pipeline) :
    (hook.unregister free pipeline).lines.countP Line.isSaveWarning = 0 := by
  have hremoval : ∀ pre post, ([Hook.removalLine "PreProcessor" pre,
      Hook.removalLine "PostProcessor" post].countP Line.isSaveWarning) = 0 := by
    decide
  unfold Hook.unregister
  split
  · rfl
  · exact countP_single (by decide)
  · exact countP_single (by decide)
  · exact hremoval _ _

theorem Watch.attach_lines (watch : Watch) (free : Bool) (subscriptions : List Event) :
    (watch.attach free subscriptions).lines.countP Line.isSaveWarning = 0 := by
  unfold Watch.attach
  split
  · rfl
  · exact countP_single (by decide)
  · exact countP_single (by decide)
  · rfl

theorem Logger.writeAll_append (logger : Logger) (lines more : List Line) :
    (logger.writeAll lines).writeAll more = logger.writeAll (lines ++ more) :=
  List.foldl_append.symm

namespace Session

variable {s t : Session} {path : String} (busy : Option Part)

theorem install_logger (s : Session) : ∃ lines,
    (s.install busy).guard.logger = s.guard.logger.writeAll lines ∧
      lines.countP Line.isSaveWarning = 0 := by
  unfold install
  split
  · exact ⟨_, rfl, Hook.register_lines _ _ _⟩
  · exact ⟨_, rfl, Watch.attach_lines _ _ _⟩

theorem uninstall_logger (s : Session) : ∃ lines,
    (s.uninstall busy).guard.logger = s.guard.logger.writeAll lines ∧
      lines.countP Line.isSaveWarning = 0 := by
  unfold uninstall
  split
  · exact ⟨_, rfl, Hook.unregister_lines _ _ _⟩
  · exact ⟨[], rfl, rfl⟩

/-! ### Steps and runs -/

/-- Of what a step logged, one line is the warning that settings could not be saved. -/
def Warned (settings : Settings) (before after : Session) : Prop :=
  ∃ failure lines,
    before.guard.store.save settings before.host.disk = .error failure ∧
      saveWarning failure ∈ lines ∧ lines.countP Line.isSaveWarning = 1 ∧
      after.guard.logger = (before.guard.logger.setDebug settings.debug).writeAll lines

/-- What is logged after the warning does not matter. -/
theorem warned_of_logger {settings : Settings} {failure : Failure} {after : Session}
    (lines : List Line) (hsave : s.guard.store.save settings s.host.disk = .error failure)
    (hlines : lines.countP Line.isSaveWarning = 0)
    (hlogger : after.guard.logger =
      ((s.apply settings).log [saveWarning failure]).guard.logger.writeAll lines) :
    s.Warned settings after := by
  refine ⟨failure, saveWarning failure :: lines, hsave, List.mem_cons_self, ?_, hlogger⟩
  rw [List.countP_cons_of_pos (isSaveWarning_saveWarning failure), hlines]

section
variable (hstore : s.guard.store = .file path) (h : Malformed path s.host.disk)
include hstore h

theorem persist_malformed (settings : Settings) : ∃ failure,
    s.guard.store.save settings s.host.disk = .error failure ∧
      (s.apply settings).persist = (s.apply settings).log [saveWarning failure] := by
  obtain ⟨failure, hsave⟩ := h.save settings
  rw [← hstore] at hsave
  have hpersist : (s.apply settings).guard.store.save (s.apply settings).guard.settings
      (s.apply settings).host.disk = .error failure := hsave
  refine ⟨failure, hsave, ?_⟩
  unfold persist
  rw [hpersist]
  rfl

/-- A switch that cannot be saved is obeyed. -/
theorem setEnabled_malformed (enabled : Bool) :
    s.Warned { s.guard.settings with enabled } (s.setEnabled busy enabled) := by
  obtain ⟨failure, hsave, hpersist⟩ :=
    persist_malformed hstore h { s.guard.settings with enabled }
  unfold setEnabled
  simp only [hpersist]
  have hline : ∀ message, [Line.info message].countP Line.isSaveWarning = 0 := fun _ => rfl
  split
  · obtain ⟨lines, hlogger, hnone⟩ := install_logger busy
      ((s.apply { s.guard.settings with enabled }).log [saveWarning failure])
    refine warned_of_logger (lines ++ [.info "Extension enabled"]) hsave ?_ ?_
    · rw [List.countP_append, hnone, hline]
    · rw [← Logger.writeAll_append, ← hlogger]
      rfl
  · obtain ⟨lines, hlogger, hnone⟩ := uninstall_logger busy
      ((s.apply { s.guard.settings with enabled }).log [saveWarning failure])
    refine warned_of_logger (lines ++ [.info "Extension disabled"]) hsave ?_ ?_
    · rw [List.countP_append, hnone, hline]
    · rw [← Logger.writeAll_append, ← hlogger]
      rfl

theorem setDebug_malformed (debug : Bool) :
    s.Warned { s.guard.settings with debug } (s.setDebug debug) := by
  obtain ⟨failure, hsave, hpersist⟩ :=
    persist_malformed hstore h { s.guard.settings with debug }
  unfold setDebug
  simp only [hpersist]
  exact warned_of_logger _ hsave rfl rfl

/-- A change that cannot be saved changes nothing but the settings. -/
theorem storage_malformed (settings : Settings) :
    s.storage.change settings = { s.storage with settings } := by
  obtain ⟨failure, hsave⟩ := h.save settings
  rw [← hstore] at hsave
  unfold Storage.change
  rw [show s.storage.store.save settings s.storage.disk = .error failure from hsave]

theorem storage_switched (enabled : Bool) : (s.step (.setEnabled enabled) busy).1.storage =
    { s.storage with settings := { s.guard.settings with enabled } } :=
  (step_storage s busy _).trans (storage_malformed hstore h _)

end

/-- **What is malformed stays, for as long as nobody else writes there.** -/
theorem content_malformed (h : Malformed path s.host.disk)
    (hrun : Runs (Storage.Leaves path) s t) :
    t.host.disk.content path = s.host.disk.content path := by
  have halike : s.host.disk.Alike t.host.disk path := by
    induction hrun with
    | start =>
      obtain ⟨place, hresolve⟩ := h.resolve
      exact Disk.alike_refl hresolve
    | @step r action busy _ hleaves ih =>
      refine ih.trans ?_
      rw [show (r.step action busy).1.host.disk = _ from
        congrArg Storage.disk (step_storage r busy action)]
      exact Storage.alike_step (h.alike ih) hleaves
  exact halike.content_eq

end Session

namespace Command

variable {request : Request} {path : String} {w : World}

/-! ### The command line -/

/-- A run that is to save malformed settings ends before anything else. -/
theorem run_malformed {arguments : List String} (hparse : parse arguments = .request request)
    (hpath : request.settings = some path) (hsave : request.has .save = true)
    (h : Malformed path w.disk) : ∃ failure w', Store.load (.file path) w.disk = .error failure ∧
      w.Quiet w' ∧ run arguments w = ⟨1, none, w'.log [.error failure.message]⟩ := by
  obtain ⟨failure, hload⟩ := h.load
  have hfailed := Store.save_of_load_error hload (effective request w.disk)
  rcases perform_cases request w with
    ⟨failure', w', hunsettled, hperform, hquiet⟩ | ⟨hsettles, -⟩
  · cases hfailed.symm.trans (hunsettled.2 path hpath)
    exact ⟨failure, w', hload, hquiet, run_failed hparse hperform⟩
  · obtain ⟨path', saved, hpath', hsaved⟩ := hsettles hsave
    obtain rfl : path = path' := Option.some.inj (hpath.symm.trans hpath')
    cases hfailed.symm.trans hsaved

/-- A run that is not to save them works with the defaults. -/
theorem runsWith_malformed (hpath : request.settings = some path)
    (hsave : request.has .save = false) (h : Malformed path w.disk) :
    RunsWith request (override request {}) w := by
  have heffective : effective request w.disk = override request {} := by
    unfold effective
    rw [hpath]
    exact congrArg (override request) h.loadSettings
  have hunsaved : ¬ request.has .save = true := by rw [hsave]; exact Bool.false_ne_true
  exact heffective ▸ runsWith_of_settles fun h => absurd h hunsaved

end Command

open Session Command

/-- An object that breaks off. -/
def brokenDisk : Disk :=
  { nodes := [(["flags"], .file (.text (String.ofList ['\x7b', '"', 'a', '"', ':'])))] }

theorem malformed_brokenDisk : Malformed "flags" brokenDisk := by
  have hread : brokenDisk.readText "flags" = .ok (String.ofList ['\x7b', '"', 'a', '"', ':']) := rfl
  refine ⟨by decide +kernel, fun text htext => ?_⟩
  obtain rfl := Except.ok.inj (hread.symm.trans htext)
  exact ⟨by decide +kernel, fun members => Json.ofText_ofList_ne_ok (by decide +kernel) _⟩

end PipeGuard
