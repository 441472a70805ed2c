import PipeGuard.Proofs.Keeping
import PipeGuard.Proofs.Steps

/-! What a step does to the settings and to where they are kept.

A step reaches the store and the files of the host in two ways: it loads the settings, or it
changes them and saves what they are then. All else that a step does leaves them alone, or
is not the guard's own work on them (`step_storage`).

If the store can keep flags, it can do so after any step that spares it (`Keeps`), and from
the first load or change on what it holds is what the guard works with (`Settled`):
`undisturbed_settled`. -/
namespace PipeGuard

/-- The settings, and what they are kept in. -/
structure Storage where
  settings : Settings
  store : Store
  disk : Disk

/-- Loads the settings, or changes and saves them. -/
def Action.Settles : Action → Prop
  | .startup | .loadSettings | .setEnabled _ | .setDebug _ => True
  | _ => False

namespace Storage

def load (k : Storage) : Storage :=
  { k with settings := (k.store.loadSettings k.disk).1 }

/-- Takes settings into effect and saves them, if they can be saved. -/
def change (k : Storage) (settings : Settings) : Storage :=
  match k.store.save settings k.disk with
  | .ok (store, disk) => ⟨settings, store, disk⟩
  | .error _ => { k with settings }

def step (k : Storage) : Action → Storage
  | .startup | .loadSettings => k.load
  | .setEnabled enabled => k.change { k.settings with enabled }
  | .setDebug debug => k.change { k.settings with debug }
  | .useStore store => { k with store }
  | .setFile path node => { k with disk := k.disk.setAt path node }
  | _ => k

end Storage

namespace Session

def storage (s : Session) : Storage := ⟨s.guard.settings, s.guard.store, s.host.disk⟩

/-! ### Parts of steps -/

section
variable (s : Session) (busy : Option Part)

theorem storage_log (lines : List Line) : (s.log lines).storage = s.storage := rfl

theorem storage_install : (s.install busy).storage = s.storage := by
  unfold install
  cases s.guard.deployment <;> rfl

theorem storage_uninstall : (s.uninstall busy).storage = s.storage := by
  unfold uninstall
  cases hdeployment : s.guard.deployment <;> rfl

theorem storage_loadSettings : s.loadSettings.storage = s.storage.load := rfl

theorem storage_change (settings : Settings) :
    ((s.apply settings).persist).storage = s.storage.change settings := by
  have hpersist : (s.apply settings).guard.store.save (s.apply settings).guard.settings
      (s.apply settings).host.disk = s.guard.store.save settings s.host.disk := rfl
  have hchange : s.storage.store.save settings s.storage.disk =
      s.guard.store.save settings s.host.disk := rfl
  unfold persist Storage.change
  rw [hpersist, hchange]
  cases s.guard.store.save settings s.host.disk <;> rfl

theorem storage_handle (event : Event) : (s.handle busy event).1.storage = s.storage := by
  obtain ⟨logger, chat, hframe⟩ := handle_frame s busy event
  rw [hframe]
  rfl

theorem storage_handleAll (events : List Event) :
    (events.foldl (fun s event => (s.handle busy event).1) s).storage = s.storage := by
  obtain ⟨logger, chat, hframe⟩ := handleAll_frame s busy events
  rw [hframe]
  rfl

/-! ### Steps -/

theorem storage_startup : (s.startup busy).storage = s.storage.load := by
  unfold startup
  simp only [storage_log]
  split
  · rw [storage_install, storage_loadSettings, storage_log]
  · rfl

theorem storage_setEnabled (enabled : Bool) :
    (s.setEnabled busy enabled).storage = s.storage.change { s.guard.settings with enabled } := by
  cases enabled with
  | true =>
    show (((s.apply _).persist).install busy).storage = _
    rw [storage_install, storage_change]
  | false =>
    show (((s.apply _).persist).uninstall busy).storage = _
    rw [storage_uninstall, storage_change]

theorem storage_setDebug (debug : Bool) :
    (s.setDebug debug).storage = s.storage.change { s.guard.settings with debug } :=
  storage_change s _

/-- **A step loads the settings, changes them, or leaves them alone.** -/
theorem step_storage (action : Action) :
    (s.step action busy).1.storage = s.storage.step action := by
  cases action with
  | startup => exact storage_startup s busy
  | setEnabled enabled => exact storage_setEnabled s busy enabled
  | setDebug debug => exact storage_setDebug s debug
  | useEncoding encoding =>
    obtain ⟨⟨_, _, _, _, deployment⟩, _⟩ := s
    cases deployment <;> rfl
  | onEvent event =>
    unfold step
    cases s.guard.deployment with
    | hook hook => exact storage_log s _
    | watch watch => exact storage_handle s busy event
  | fire event => exact storage_handleAll s busy _
  | _ => rfl

end

end Session

namespace Storage

variable {k : Storage}

/-! ### Stores that keep flags -/

/-- The store can keep flags. One in memory always can. -/
def Keeps (k : Storage) : Prop :=
  ∀ path, k.store = .file path → ∃ root, Store.Holds path k.disk root

/-- What the store holds is what the guard works with. -/
def Settled (k : Storage) : Prop := (k.store.loadSettings k.disk).1 = k.settings

/-- The store, and the file it is in, are left to the guard. -/
def Spares (k : Storage) : Action → Prop
  | .useStore _ => False
  | .setFile other node =>
    ∀ path, k.store = .file path → k.disk.Alike (k.disk.setAt other node) path
  | _ => True

theorem Keeps.change (h : k.Keeps) (settings : Settings) :
    (k.change settings).Keeps ∧ (k.change settings).Settled := by
  obtain ⟨store, disk, hsave, hkept⟩ : ∃ store disk,
      k.store.save settings k.disk = .ok (store, disk) ∧ Keeps ⟨settings, store, disk⟩ := by
    cases hstore : k.store with
    | memory value => exact ⟨_, _, rfl, fun path hfile => nomatch hfile⟩
    | file path =>
      obtain ⟨root, hholds⟩ := h path hstore
      obtain ⟨f, hf⟩ := hholds.legible
      obtain ⟨disk, hsave, -, hkept⟩ := Store.save_holds hholds hf settings
      refine ⟨_, disk, hsave, fun path' hfile => ?_⟩
      cases hfile
      exact ⟨_, hkept⟩
  have hchange : k.change settings = ⟨settings, store, disk⟩ := by
    unfold Storage.change
    rw [hsave]
  rw [hchange]
  exact ⟨hkept, Store.loadSettings_saved hsave⟩

theorem settled_load (k : Storage) : k.load.Settled := rfl

/-- New settings are in effect whether they could be saved or not. -/
theorem settings_change (k : Storage) (settings : Settings) :
    (k.change settings).settings = settings := by
  unfold change
  split <;> rfl

theorem Keeps.step (h : k.Keeps) {action : Action} (hspares : k.Spares action) :
    (k.step action).Keeps := by
  cases action with
  | useStore store => exact absurd hspares id
  | setFile other node =>
    intro path hstore
    obtain ⟨root, hholds⟩ := h path hstore
    exact ⟨root, hholds.alike (hspares path hstore)⟩
  | setEnabled enabled => exact (h.change _).1
  | setDebug debug => exact (h.change _).1
  | _ => exact h

theorem Keeps.settles (h : k.Keeps) {action : Action} (haction : action.Settles) :
    (k.step action).Settled := by
  cases action with
  | startup | loadSettings => exact settled_load k
  | setEnabled enabled => exact (h.change _).2
  | setDebug debug => exact (h.change _).2
  | _ => exact absurd haction id

theorem Settled.step (h : k.Settled) (hkeeps : k.Keeps) {action : Action}
    (hspares : k.Spares action) : (k.step action).Settled := by
  cases action with
  | useStore store => exact absurd hspares id
  | setFile other node =>
    refine Eq.trans ?_ h
    show (k.store.loadSettings (k.disk.setAt other node)).1 = (k.store.loadSettings k.disk).1
    cases hstore : k.store with
    | memory value => rfl
    | file path => rw [Store.loadSettings_alike (hspares path hstore)]
  | startup | loadSettings | setEnabled _ | setDebug _ => exact hkeeps.settles trivial
  | _ => exact h

end Storage

namespace Session

/-! ### Runs -/

/-- A session after steps, each of which was allowed where it was taken. -/
inductive Runs (allowed : Storage → Action → Prop) (start : Session) : Session → Prop
  | start : Runs allowed start start
  | step {s : Session} (action : Action) (busy : Option Part) :
    Runs allowed start s → allowed s.storage action → Runs allowed start (s.step action busy).1

/-- A run that takes the store away in no step, and in which only the guard writes its file. -/
abbrev Undisturbed (start : Session) : Session → Prop := Runs Storage.Spares start

variable {start s t : Session}

theorem undisturbed_keeps (hstart : start.storage.Keeps) (hrun : Undisturbed start s) :
    s.storage.Keeps := by
  induction hrun with
  | start => exact hstart
  | step action busy _ hspares ih =>
    rw [step_storage]
    exact ih.step hspares

/-- **From the first load or change on, the store holds the settings.** -/
theorem undisturbed_settled (hstart : start.storage.Keeps) (hbefore : Undisturbed start s)
    {action : Action} (haction : action.Settles) (busy : Option Part)
    (hafter : Undisturbed (s.step action busy).1 t) : t.storage.Settled := by
  have hkeeps := undisturbed_keeps hstart hbefore
  have hspares : s.storage.Spares action := by
    cases action <;> first | exact trivial | exact absurd haction id
  have hkeeps₁ := undisturbed_keeps hstart (hbefore.step action busy hspares)
  induction hafter with
  | start =>
    rw [step_storage]
    exact hkeeps.settles haction
  | step later busy' hrun hlater ih =>
    rw [step_storage]
    exact ih.step (undisturbed_keeps hkeeps₁ hrun) hlater

end Session

end PipeGuard
