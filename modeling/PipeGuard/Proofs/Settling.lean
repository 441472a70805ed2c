import PipeGuard.Command.Run

/-! How a run from the command line settles its settings.

The settings of a run are the ones in its settings file under the ones that its options ask
for (`effective`). They are saved before anything else is done, if that was asked for
(`settled`). Either they cannot be saved, and then the run is over and nothing has happened
(`Unsettled`), or it goes on to its work with them (`RunsWith`): `perform_cases`. -/
namespace PipeGuard

/-! ### The terminal -/

namespace Logger

theorem sink_write {logger : Logger} (h : logger.sink = .terminal) (line : Line) :
    (logger.write line).sink = .terminal := by
  unfold write keep
  split
  · exact h
  · rw [h]

theorem sink_writeAll {logger : Logger} (h : logger.sink = .terminal) (lines : List Line) :
    (logger.writeAll lines).sink = .terminal := by
  induction lines generalizing logger with
  | nil => exact h
  | cons line lines ih => exact ih (sink_write h line)

end Logger

/-! ### Saving -/

namespace Store

variable {path : String} {disk : Disk}

/-- Saving settings writes their file. -/
theorem writeText_of_save {settings : Settings} {saved : Store × Disk}
    (h : save (.file path) settings disk = .ok saved) :
    ∃ root, disk.writeText path (fileText root settings) = .ok saved.2 := by
  unfold save at h
  simp only at h
  cases hroot : readRoot path disk with
  | error failure => rw [hroot] at h; cases h
  | ok root =>
    simp only [hroot] at h
    refine ⟨root.getD [], ?_⟩
    split at h
    · cases h
    · case _ hwrite =>
      cases h
      exact hwrite

/-- Settings that cannot be loaded cannot be saved. -/
theorem save_of_load_error {failure : Failure} (h : load (.file path) disk = .error failure)
    (settings : Settings) : save (.file path) settings disk = .error failure := by
  unfold load at h
  unfold save
  simp only at h ⊢
  cases hroot : readRoot path disk with
  | ok root => rw [hroot] at h; cases h
  | error failure' =>
    rw [hroot] at h
    cases h
    rfl

end Store

namespace Command

/-! ### Settings -/

/-- The settings that a request works with. -/
def effective (request : Request) (disk : Disk) : Settings :=
  override request <|
    match request.settings with
    | none => {}
    | some path => (Store.loadSettings (.file path) disk).1

/-- The files once a request has saved its settings, if it asks for that. -/
def settled (request : Request) (disk : Disk) : Disk :=
  if request.has .save then
    match request.settings with
    | none => disk
    | some path =>
      match Store.save (.file path) (effective request disk) disk with
      | .error _ => disk
      | .ok saved => saved.2
  else disk

/-- The settings of a request can be settled: they are not to be saved, or can be. -/
def Settles (request : Request) (disk : Disk) : Prop :=
  request.has .save = true → ∃ path saved, request.settings = some path ∧
    Store.save (.file path) (effective request disk) disk = .ok saved

/-- The settings of a request are to be saved and cannot be. If there is a file for them, the
failure is what saving them gives. -/
def Unsettled (request : Request) (disk : Disk) (failure : Failure) : Prop :=
  request.has .save = true ∧ ∀ path, request.settings = some path →
    Store.save (.file path) (effective request disk) disk = .error failure

theorem settled_cases (request : Request) (disk : Disk) :
    settled request disk = disk ∨ ∃ path root settings,
      disk.writeText path (Store.fileText root settings) = .ok (settled request disk) := by
  unfold settled
  split
  · cases request.settings with
    | none => exact .inl rfl
    | some path =>
      simp only
      cases hsave : Store.save (.file path) (effective request disk) disk with
      | error failure => exact .inl rfl
      | ok saved =>
        obtain ⟨root, hwrite⟩ := Store.writeText_of_save hsave
        exact .inr ⟨path, root, _, hwrite⟩
  · exact .inl rfl

theorem settled_unsaved {request : Request} (h : request.has .save = false) (disk : Disk) :
    settled request disk = disk := by
  unfold settled
  rw [h, if_neg Bool.false_ne_true]

/-! ### What a run does first -/

/-- A step of a run that changed the log at most. -/
structure World.Quiet (w w' : World) : Prop where
  disk : w'.disk = w.disk
  stdin : w'.stdin = w.stdin
  stdout : w'.stdout = w.stdout

variable {request : Request} {w w' : World}

theorem World.quiet_self (w : World) : w.Quiet w := ⟨rfl, rfl, rfl⟩

theorem World.quiet_log (w : World) (lines : List Line) : w.Quiet (w.log lines) := ⟨rfl, rfl, rfl⟩

theorem World.Quiet.trans {w₁ w₂ w₃ : World} (h : w₁.Quiet w₂) (h' : w₂.Quiet w₃) : w₁.Quiet w₃ :=
  ⟨h'.disk.trans h.disk, h'.stdin.trans h.stdin, h'.stdout.trans h.stdout⟩

theorem readSettings_cases (request : Request) (w : World) :
    (∃ failure, Unsettled request w.disk failure ∧
      readSettings request w = (.error failure, w)) ∨
    ∃ settings lines, override request settings = effective request w.disk ∧
      readSettings request w = (.ok settings, w.log lines) := by
  unfold readSettings Unsettled effective
  cases request.settings with
  | none => exact .inr ⟨_, [], rfl, rfl⟩
  | some path =>
    simp only
    split
    · case _ hsave =>
      split
      · case _ failure hload =>
        refine .inl ⟨failure, ⟨hsave, fun path' hpath => ?_⟩, rfl⟩
        obtain rfl : path = path' := Option.some.inj hpath
        exact Store.save_of_load_error hload _
      · exact .inr ⟨_, _, rfl, rfl⟩
    · exact .inr ⟨_, _, rfl, rfl⟩

theorem saveSettings_cases (request : Request) (w : World) :
    (∃ failure, Unsettled request w.disk failure ∧
      saveSettings request (effective request w.disk) w = (.error failure, w)) ∨
    (Settles request w.disk ∧ saveSettings request (effective request w.disk) w =
      (.ok (), { w with disk := settled request w.disk })) := by
  unfold saveSettings Settles Unsettled settled
  split
  · case _ hsave =>
    cases request.settings with
    | none => exact .inl ⟨_, ⟨hsave, fun _ hpath => nomatch hpath⟩, rfl⟩
    | some path =>
      simp only
      cases hsaved : Store.save (.file path) (effective request w.disk) w.disk with
      | error failure =>
        refine .inl ⟨failure, ⟨hsave, fun path' hpath => ?_⟩, rfl⟩
        obtain rfl : path = path' := Option.some.inj hpath
        exact hsaved
      | ok saved => exact .inr ⟨fun _ => ⟨path, saved, rfl, hsaved⟩, rfl⟩
  · case _ hsave => exact .inr ⟨fun h => absurd h hsave, rfl⟩

/-! ### The run -/

/-- What a run does once its settings are settled. -/
def deliver (request : Request) (settings : Settings) : Act Unit := fun w =>
  match request.chat with
  | some path => fixChat request path settings w
  | none => filter request settings w

/-- The world of a run whose settings are settled. -/
structure World.Settled (request : Request) (settings : Settings) (w w₁ : World) : Prop where
  disk : w₁.disk = settled request w.disk
  stdin : w₁.stdin = w.stdin
  stdout : w₁.stdout = w.stdout
  debug : w₁.logger.debug = settings.debug
  terminal : request.has .silent = false → w.logger.sink = .terminal →
    w₁.logger.sink = .terminal

theorem World.Settled.quiet {settings : Settings} {w₁ : World}
    (h : World.Settled request settings w w₁) :
    World.Quiet { w with disk := settled request w.disk } w₁ :=
  ⟨h.disk, h.stdin, h.stdout⟩

/-- A run works with some settings once they are settled. -/
def RunsWith (request : Request) (settings : Settings) (w : World) : Prop :=
  ∃ w₁, World.Settled request settings w w₁ ∧ perform request w = deliver request settings w₁

/-- **A run settles its settings and delivers.** If it cannot settle them, that is all. -/
theorem perform_cases (request : Request) (w : World) :
    (∃ failure w', Unsettled request w.disk failure ∧
      perform request w = (.error failure, w') ∧ w.Quiet w') ∨
    (Settles request w.disk ∧ RunsWith request (effective request w.disk) w) := by
  obtain ⟨start, hstart, hquiet, hsink⟩ : ∃ start : World, start = (if request.has .silent then
      { w with logger := w.logger.redirect .discard } else w) ∧ w.Quiet start ∧
      (request.has .silent = false → start.logger = w.logger) := by
    refine ⟨_, rfl, ?_, fun hloud => ?_⟩
    · split <;> exact ⟨rfl, rfl, rfl⟩
    · rw [hloud, if_neg Bool.false_ne_true]
  unfold RunsWith perform
  simp only [← hstart]
  have hread := readSettings_cases request start
  rw [hquiet.disk] at hread
  rcases hread with ⟨failure, hunsettled, hread⟩ | ⟨settings, lines, hsettings, hread⟩
  · exact .inl ⟨failure, start, hunsettled, by rw [hread], hquiet⟩
  rw [hread]
  simp only [hsettings]
  have hsave := saveSettings_cases request (start.log lines)
  rw [show (start.log lines).disk = w.disk from hquiet.disk] at hsave
  rcases hsave with ⟨failure, hunsettled, hsave⟩ | ⟨hsettles, hsave⟩
  · exact .inl ⟨failure, start.log lines, hunsettled, by rw [hsave],
      hquiet.trans (start.quiet_log lines)⟩
  · refine .inr ⟨hsettles, { start.log lines with
      disk := settled request w.disk
      logger := (start.log lines).logger.setDebug (effective request w.disk).debug },
      ⟨rfl, hquiet.stdin, hquiet.stdout, rfl, fun hloud hterminal => ?_⟩, ?_⟩
    · exact Logger.sink_writeAll ((hsink hloud).symm ▸ hterminal) lines
    · rw [hsave]
      unfold deliver
      cases request.chat <;> rfl

section
variable {arguments : List String} (hparse : parse arguments = .request request)
include hparse

theorem run_done (h : perform request w = (.ok (), w')) : run arguments w = ⟨0, none, w'⟩ := by
  unfold run
  simp only [hparse, h]

theorem run_failed {failure : Failure} (h : perform request w = (.error failure, w')) :
    run arguments w = ⟨1, none, w'.log [.error failure.message]⟩ := by
  unfold run
  simp only [hparse, h]

theorem run_success (h : (run arguments w).exitCode = 0) :
    perform request w = (.ok (), (run arguments w).world) := by
  cases hperform : perform request w with
  | mk result w' =>
    cases result with
    | error failure =>
      rw [run_failed hparse hperform] at h
      cases h
    | ok done => rw [run_done hparse hperform]

end

/-- The settings of a run that succeeds were settled. -/
theorem runsWith_of_done (h : perform request w = (.ok (), w')) :
    Settles request w.disk ∧ RunsWith request (effective request w.disk) w := by
  rcases perform_cases request w with ⟨failure, w₁, -, hfailed, -⟩ | hsettled
  · cases hfailed.symm.trans h
  · exact hsettled

/-- Settings that need not be saved, or can be, are settled. -/
theorem runsWith_of_settles (h : Settles request w.disk) :
    RunsWith request (effective request w.disk) w := by
  rcases perform_cases request w with ⟨failure, w₁, ⟨hsave, hfailed⟩, -⟩ | ⟨-, hruns⟩
  · obtain ⟨path, saved, hpath, hsaved⟩ := h hsave
    cases (hfailed path hpath).symm.trans hsaved
  · exact hruns

end Command

end PipeGuard
