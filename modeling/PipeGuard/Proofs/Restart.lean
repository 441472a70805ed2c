import PipeGuard.Proofs.Delivery
import PipeGuard.Proofs.Malformed

/-! Flags that outlive what set them.

A guard that is made anew on the store of another starts with the flags that the other one
had (`Session.undisturbed_settled`). A run from the command line that saves its settings
leaves them to the runs that come later, if it does not write its output over them
(`run_leaves`).

`flags_survive`: both. Where flags cannot be saved, they do not survive (`flags_lost`). -/
namespace PipeGuard

namespace Command

variable {request : Request} {w w' : World}

/-! ### Where output goes -/

/-- The paths that a request's output may go to. -/
def Request.outputs (request : Request) : List String :=
  request.out.toList ++ request.chat.toList

/-- A file was written, or nothing. -/
def WroteTo (paths : List String) (before after : Disk) : Prop :=
  after = before ∨ ∃ path ∈ paths, ∃ text, before.writeText path text = .ok after

theorem writeOutput_wrote {output : String} (h : writeOutput request output w = (.ok (), w')) :
    WroteTo request.out.toList w.disk w'.disk := by
  have hdelivered := writeOutput_done h
  unfold Delivered at hdelivered
  cases hout : request.out with
  | none =>
    rw [hout] at hdelivered
    exact .inl hdelivered.1
  | some path =>
    rw [hout] at hdelivered
    exact .inr ⟨path, List.mem_singleton_self path, output, hdelivered.1⟩

theorem writeChat_wrote {path output : String} {report : SweepReport}
    (h : writeChat request path report output w = (.ok (), w')) :
    WroteTo (request.out.toList ++ [path]) w.disk w'.disk := by
  cases hout : request.out with
  | none =>
    obtain ⟨hnone, hsome⟩ := writeChat_inPlace hout h
    by_cases hchanged : report.changed = []
    · exact .inl (hnone hchanged)
    · exact .inr ⟨path, List.mem_singleton_self path, output, hsome hchanged⟩
  | some out => exact .inr ⟨out, List.mem_cons_self, output, writeChat_out hout h⟩

/-- A run writes at most one of the files that it was given for its output. -/
theorem deliver_wrote (hconsistent : request.Consistent) {settings : Settings}
    (h : deliver request settings w = (.ok (), w')) :
    WroteTo request.outputs w.disk w'.disk := by
  unfold deliver at h
  unfold Request.outputs
  cases hchat : request.chat with
  | some path =>
    rw [hchat] at h
    rcases fixChat_cases request path settings w with
      ⟨failure, w₁, hfailed, -⟩ | ⟨report, output, w₁, hquiet, hwrite⟩
    · cases hfailed.symm.trans h
    · exact hquiet.disk ▸ writeChat_wrote (hwrite.symm.trans h)
  | none =>
    rw [hchat] at h
    rcases filter_cases hconsistent settings w with
      ⟨failure, w₁, hfailed, -⟩ | ⟨encoding, texts, w₁, -, -, hquiet, hwrite⟩
    · cases hfailed.symm.trans h
    · rw [Option.toList_none, List.append_nil]
      exact hquiet.disk ▸ writeOutput_wrote (hwrite.symm.trans h)

/-! ### A later run -/

theorem override_plain {settings : Settings} (hdisable : request.has .disable = false)
    (hdebug : request.has .debug = false) : override request settings = settings := by
  unfold override
  rw [hdisable, hdebug, Bool.not_false, Bool.and_true, Bool.or_false]

/-- Settings that a run saved are still there when it is over. -/
theorem alike_of_success {arguments : List String} {path : String}
    (hparse : parse arguments = .request request) (hpath : request.settings = some path)
    (hsave : request.has .save = true)
    (hapart : ∀ other ∈ request.outputs, w.disk.resolve other ≠ w.disk.resolve path)
    (hsuccess : (run arguments w).exitCode = 0) :
    RunsWith request (effective request w.disk) w ∧
      Store.save (.file path) (effective request w.disk) w.disk =
        .ok (.file path, settled request w.disk) ∧
      (settled request w.disk).Alike (run arguments w).world.disk path := by
  have hperform := run_success hparse hsuccess
  obtain ⟨hsettles, hruns⟩ := runsWith_of_done hperform
  refine ⟨hruns, ?_⟩
  obtain ⟨w₁, hsettled, hdeliver⟩ := hruns
  obtain ⟨-, path', place, hpath', hsaved, -, htarget, -⟩ := settled_saved hsettles hsave
  obtain rfl : path = path' := Option.some.inj (hpath.symm.trans hpath')
  refine ⟨hsaved, ?_⟩
  obtain ⟨root, hwrite⟩ := Store.writeText_of_save hsaved
  obtain ⟨place', htarget', hput⟩ := Disk.writeText_eq hwrite
  obtain rfl : place' = place := Except.ok.inj (htarget'.symm.trans htarget)
  replace hput : settled request w.disk = _ := hput
  have hplace := (Disk.resolve_of_target htarget).1
  have hplace₁ : (settled request w.disk).resolve path = .ok place' :=
    hput ▸ Disk.resolve_put htarget _ hplace
  have hwrote := deliver_wrote (consistent_of_parse hparse) (hdeliver.symm.trans hperform)
  rw [hsettled.disk] at hwrote
  rcases hwrote with hsame | ⟨other, hother, text, hwrote⟩
  · rw [hsame]
    exact Disk.alike_refl hplace₁
  · obtain ⟨place, htarget₁, -⟩ := Disk.writeText_eq hwrote
    refine Disk.alike_writeText htarget₁ hwrote hplace₁ ?_
    -- no new places, so the output had been apart from the settings all along
    rintro rfl
    have hother₁ := (Disk.resolve_of_target htarget₁).1
    rw [hput] at hother₁
    exact hapart other hother ((Disk.resolve_of_put htarget hother₁).trans hplace.symm)

/-- **A run that saves its settings leaves them to later runs.** -/
theorem run_leaves {arguments : List String} {path : String}
    (hparse : parse arguments = .request request) (hpath : request.settings = some path)
    (hsave : request.has .save = true)
    (hapart : ∀ other ∈ request.outputs, w.disk.resolve other ≠ w.disk.resolve path)
    (hsuccess : (run arguments w).exitCode = 0)
    {later : Request} (hlater : later.settings = some path)
    (hdisable : later.has .disable = false) (hdebug : later.has .debug = false) {v : World}
    (halike : (run arguments w).world.disk.Alike v.disk path) :
    RunsWith request (effective request w.disk) w ∧
      RunsWith later (effective request w.disk) v := by
  obtain ⟨hruns, hsaved, halike₁⟩ := alike_of_success hparse hpath hsave hapart hsuccess
  have halike₂ := halike₁.trans halike
  have heffective : effective later v.disk = effective request w.disk := by
    unfold effective
    rw [hlater]
    show override later (Store.loadSettings (.file path) v.disk).1 = _
    rw [override_plain hdisable hdebug, Store.loadSettings_alike halike₂,
      Store.loadSettings_saved hsaved]
    rfl
  have hsettles : Settles later v.disk := by
    intro _
    obtain ⟨root, hholds⟩ := Store.holds_saved hsaved
    obtain ⟨f, hf⟩ := (hholds.alike halike₂).legible
    obtain ⟨disk, hagain, -, -⟩ :=
      Store.save_holds (hholds.alike halike₂) hf (effective later v.disk)
    exact ⟨path, _, hlater, hagain⟩
  exact ⟨hruns, heffective ▸ runsWith_of_settles hsettles⟩

end Command

open Command Session
open Store (Malformed)

/-- **Flags survive a restart.** -/
theorem flags_survive :
    -- of a guard whose store can keep flags, from the first load or change on
    (∀ (start s t : Session) (action : Action) (busy : Option Part), start.storage.Keeps →
      Undisturbed start s → action.Settles → Undisturbed (s.step action busy).1 t →
        (t.guard.store.loadSettings t.host.disk).1 = t.guard.settings ∧
        ∀ fresh : Session, fresh.guard.store = t.guard.store → fresh.host.disk = t.host.disk →
          ∀ busy, (fresh.step .startup busy).1.guard.settings = t.guard.settings) ∧
    -- of a run that saves its settings, and does not write its output over them
    (∀ (arguments : List String) (request later : Request) (path : String) (w v : World),
      parse arguments = .request request → request.settings = some path →
      request.has .save = true →
      (∀ other ∈ request.outputs, w.disk.resolve other ≠ w.disk.resolve path) →
      (run arguments w).exitCode = 0 →
      later.settings = some path → later.has .disable = false → later.has .debug = false →
      (run arguments w).world.disk.Alike v.disk path →
        RunsWith request (effective request w.disk) w ∧
        RunsWith later (effective request w.disk) v) := by
  refine ⟨fun start s t action busy hkeeps hbefore haction hafter => ?_,
    fun arguments request later path w v hparse hpath hsave hapart hsuccess hlater hdisable hdebug
      halike => run_leaves hparse hpath hsave hapart hsuccess hlater hdisable hdebug halike⟩
  have hsettled : (t.guard.store.loadSettings t.host.disk).1 = t.guard.settings :=
    undisturbed_settled hkeeps hbefore haction busy hafter
  refine ⟨hsettled, fun fresh hstore hdisk busy' => ?_⟩
  have hfresh : (fresh.step .startup busy').1.guard.settings =
      (fresh.guard.store.loadSettings fresh.host.disk).1 :=
    congrArg Storage.settings (step_storage fresh busy' .startup)
  rw [hfresh, hstore, hdisk, hsettled]

/-- A change while the pipeline is busy, and one more; and a run that switches the guard off. -/
theorem flags_survive_disabled :
    let start : Session := { guard := { store := .file "flags" } }
    let s := (start.step (.setEnabled false) (some .pipeline)).1
    let t := (s.step (.setDebug true) none).1
    let v := (run ["--settings", "flags", "--save", "--disable", "-L", "x"] {}).world
    (t.guard.store.loadSettings t.host.disk).1 = t.guard.settings ∧
      t.guard.settings = ⟨false, true⟩ ∧
      RunsWith { settings := some "flags", items := [.settings] } ⟨false, false⟩ v := by
  intro start s t v
  have htarget : start.host.disk.target "flags" = .ok ["flags"] := rfl
  have hkeeps : start.storage.Keeps := fun path hstore => by
    cases hstore
    exact ⟨none, .missing htarget rfl⟩
  have hafter : Undisturbed s t := .step (.setDebug true) none .start trivial
  obtain ⟨hsettled, -⟩ := flags_survive.1 start start t (.setEnabled false) (some .pipeline)
    hkeeps .start trivial hafter
  have hparse : parse ["--settings", "flags", "--save", "--disable", "-L", "x"] =
      .request { inputs := ["x"], settings := some "flags",
                 items := [.settings, .save, .disable, .literal, .input] } := by
    decide +kernel
  have hsuccess : (run ["--settings", "flags", "--save", "--disable", "-L", "x"] {}).exitCode = 0 :=
    by decide +kernel
  have hplace : v.disk.resolve "flags" = .ok ["flags"] := by decide +kernel
  obtain ⟨-, hruns⟩ := flags_survive.2 _ _ { settings := some "flags", items := [.settings] }
    "flags" {} v hparse rfl rfl (fun _ hother => nomatch hother) hsuccess rfl rfl rfl
    (Disk.alike_refl hplace)
  exact ⟨hsettled, by decide +kernel, hruns⟩

/-- With a malformed file, a new guard is not switched off. -/
theorem forgotten_malformed {s : Session} {path : String} (hstore : s.guard.store = .file path)
    (h : Malformed path s.host.disk) (busy : Option Part) :
    let after := (s.step (.setEnabled false) busy).1
    (after.guard.store.loadSettings after.host.disk).1 ≠ after.guard.settings := by
  intro after
  have hstorage := storage_switched busy hstore h false
  rw [show after.guard.store = _ from congrArg Storage.store hstorage,
    show after.host.disk = _ from congrArg Storage.disk hstorage,
    show after.guard.settings = _ from congrArg Storage.settings hstorage]
  show (s.guard.store.loadSettings s.host.disk).1 ≠ { s.guard.settings with enabled := false }
  rw [hstore, h.loadSettings]
  exact fun hsame => Bool.noConfusion (congrArg Settings.enabled hsame)

/-- An object with a number that is greater than all doubles. -/
def hugeObject : List Char :=
  ['\x7b', '"', 'a', '"', ':', '1'] ++ List.replicate 309 '0' ++ ['\x7d']

def hugeDisk : Disk := { nodes := [(["flags"], .file (.text (String.ofList hugeObject)))] }

/-- The object is not read. -/
theorem malformed_hugeDisk : Malformed "flags" hugeDisk := by
  have hread : hugeDisk.readText "flags" = .ok (String.ofList hugeObject) := rfl
  refine ⟨by decide +kernel, fun text htext => ?_⟩
  obtain rfl : String.ofList hugeObject = text := Except.ok.inj (hread.symm.trans htext)
  have hblank : Text.allBlank hugeObject = false := by decide +kernel
  exact ⟨(congrArg Text.allBlank String.toList_ofList).trans hblank,
    fun members => Json.ofText_ofList_ne_ok (by decide +kernel) _⟩

/-- A change that cannot be saved is lost: where there is no directory for the file, and where
its object is not read. -/
theorem flags_lost :
    let missing : Session := { guard := { store := .file "gone/flags" } }
    let huge : Session := { guard := { store := .file "flags" }, host := { disk := hugeDisk } }
    let missed := (missing.step (.setEnabled false) none).1
    let after := (huge.step (.setEnabled false) none).1
    missing.host.disk.exists? "gone/flags" = false ∧
      (missed.guard.store.loadSettings missed.host.disk).1 ≠ missed.guard.settings ∧
      (after.guard.store.loadSettings after.host.disk).1 ≠ after.guard.settings := by
  intro missing huge missed after
  exact ⟨by decide +kernel, by decide +kernel,
    @forgotten_malformed huge "flags" rfl malformed_hugeDisk none⟩

end PipeGuard
