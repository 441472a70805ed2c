import PipeGuard.Proofs.Twins

/-! What the log is told makes no difference to anything else.

A guard is told where its lines go, and whether it writes debug lines. The second is a
flag beside the one that switches the guard on: it is saved with it, loaded with it, and
handed to every processor with it. So two runs that are told different things
(`Tandem`) go through different states, with different logs and different settings files.

`diagnostics_harmless`: they are the same in all that can be seen of the guard but its
log, at every step, and what they keep is the same up to the debug flag (`Session.Twins`). -/
namespace PipeGuard

/-! ### Texts -/

section
variable {settings settings' : Settings} (h : settings.enabled = settings'.enabled)
include h

theorem escape_enabled (encoding : Encoding) (text : List Char) :
    escape encoding settings text = escape encoding settings' text := by
  unfold escape
  rw [h]

theorem restore_enabled (encoding : Encoding) (text : List Char) :
    restore encoding settings text = restore encoding settings' text := by
  unfold restore
  rw [h]

theorem runAll_enabled (phase : Phase) (processors : List Processor) (text : List Char) :
    runAll settings phase processors text = runAll settings' phase processors text := by
  induction processors generalizing text with
  | nil => rfl
  | cons processor rest ih =>
    have hrun : processor.run settings phase text = processor.run settings' phase text := by
      cases phase with
      | pre => exact escape_enabled h processor.encoding text
      | post => exact restore_enabled h processor.encoding text
    rw [runAll, runAll, hrun, ih]

theorem ofText_enabled : Swept.ofText settings = Swept.ofText settings' := by
  funext s
  unfold Swept.ofText
  rw [escape_enabled h]

theorem ofMessage_enabled : Swept.ofMessage settings = Swept.ofMessage settings' := by
  funext index message
  unfold Swept.ofMessage Swept.ofBody Swept.ofSwipes Swept.ofTexts
  rw [ofText_enabled h]

theorem ofChat_enabled (index : Nat) (chat : List Message) :
    Swept.ofChat settings index chat = Swept.ofChat settings' index chat := by
  induction chat generalizing index with
  | nil => rfl
  | cons message rest ih => rw [Swept.ofChat, Swept.ofChat, ofMessage_enabled h, ih]

theorem sweep_enabled (chat : List Message) : sweep settings chat = sweep settings' chat := by
  unfold sweep
  rw [h, ofChat_enabled h]

end

/-! ### Sessions -/

/-- What else a step looks at: the encoding for the next hook, and the chat. -/
structure Scene where
  encoding : Encoding
  chat : Option (List Message)
  reachable : Bool

namespace Session

def scene (s : Session) : Scene := ⟨s.guard.encoding, s.host.chat, s.host.reachable⟩

section
variable (s : Session) (busy : Option Part)

theorem scene_persist : s.persist.scene = s.scene := by
  unfold persist
  split <;> rfl

theorem scene_install : (s.install busy).scene = s.scene := by
  unfold install
  split <;> rfl

theorem scene_uninstall : (s.uninstall busy).scene = s.scene := by
  unfold uninstall
  split <;> rfl

theorem step_useEncoding (encoding : Encoding) :
    (s.step (.useEncoding encoding) busy).1.scene = { s.scene with encoding } ∧
      (s.step (.useEncoding encoding) busy).2 = .nothing := by
  obtain ⟨⟨_, _, _, _, deployment⟩, _⟩ := s
  cases deployment <;> exact ⟨rfl, rfl⟩

end

/-- The same but for the log, and up to the debug flag in what is kept. -/
structure Twins (s t : Session) : Prop where
  placement : s.placement = t.placement
  storage : s.storage.Twins t.storage
  scene : s.scene = t.scene

namespace Twins

variable {s t : Session} (h : s.Twins t)
include h

theorem deployment : s.guard.deployment = t.guard.deployment :=
  congrArg Placement.deployment h.placement

theorem pipeline : s.host.pipeline = t.host.pipeline := congrArg Placement.pipeline h.placement

theorem subscriptions : s.host.subscriptions = t.host.subscriptions :=
  congrArg Placement.subscriptions h.placement

theorem encoding : s.guard.encoding = t.guard.encoding := congrArg Scene.encoding h.scene

theorem chat : s.host.chat = t.host.chat := congrArg Scene.chat h.scene

theorem reachable : s.host.reachable = t.host.reachable := congrArg Scene.reachable h.scene

theorem enabled : s.guard.settings.enabled = t.guard.settings.enabled := h.storage.enabled

/-! ### Parts of steps -/

theorem log (lines lines' : List Line) : (s.log lines).Twins (t.log lines') :=
  ⟨h.placement, h.storage, h.scene⟩

theorem deploy (deployment : Deployment) : (s.deploy deployment).Twins (t.deploy deployment) := by
  refine ⟨?_, h.storage, h.scene⟩
  show (⟨deployment, s.host.pipeline, s.host.subscriptions⟩ : Placement) = _
  rw [h.pipeline, h.subscriptions]
  rfl

theorem install (busy : Option Part) : (s.install busy).Twins (t.install busy) := by
  constructor
  case placement => rw [placement_install, placement_install, h.placement]
  case storage =>
    rw [storage_install, storage_install]
    exact h.storage
  case scene => rw [scene_install, scene_install, h.scene]

theorem uninstall (busy : Option Part) : (s.uninstall busy).Twins (t.uninstall busy) := by
  constructor
  case placement => rw [placement_uninstall, placement_uninstall, h.placement]
  case storage =>
    rw [storage_uninstall, storage_uninstall]
    exact h.storage
  case scene => rw [scene_uninstall, scene_uninstall, h.scene]

theorem loadSettings : s.loadSettings.Twins t.loadSettings :=
  ⟨h.placement, h.storage.load, h.scene⟩

theorem change (settings settings' : Settings) (hsettings : settings.enabled = settings'.enabled) :
    ((s.apply settings).persist).Twins ((t.apply settings').persist) := by
  constructor
  case placement =>
    rw [placement_persist, placement_persist]
    exact h.placement
  case storage =>
    rw [storage_change, storage_change]
    exact h.storage.change hsettings
  case scene =>
    rw [scene_persist, scene_persist]
    exact h.scene

theorem startup (busy : Option Part) : (s.startup busy).Twins (t.startup busy) := by
  have hloaded := (h.log [.info "Extension loading..."] [.info "Extension loading..."]).loadSettings
  unfold Session.startup
  refine log ?_ _ _
  show Twins (if (s.log _).loadSettings.guard.settings.enabled then _ else _)
    (if (t.log _).loadSettings.guard.settings.enabled then _ else _)
  rw [hloaded.enabled]
  split
  · exact hloaded.install busy
  · exact hloaded

theorem setEnabled (busy : Option Part) (enabled : Bool) :
    (s.setEnabled busy enabled).Twins (t.setEnabled busy enabled) := by
  have hchanged := h.change { s.guard.settings with enabled } { t.guard.settings with enabled } rfl
  cases enabled with
  | true => exact (hchanged.install busy).log _ _
  | false => exact (hchanged.uninstall busy).log _ _

theorem setDebug (debug debug' : Bool) : (s.setDebug debug).Twins (t.setDebug debug') := by
  have hchanged := h.change { s.guard.settings with debug }
    { t.guard.settings with debug := debug' } h.enabled
  exact hchanged.log _ _

/-- The same becomes of the chats, which are the same. -/
theorem setChat (chat : Option (List Message)) :
    Session.Twins { s with host := { s.host with chat } }
      { t with host := { t.host with chat } } := by
  refine ⟨h.placement, h.storage, ?_⟩
  show (⟨s.guard.encoding, chat, s.host.reachable⟩ : Scene) = ⟨t.guard.encoding, chat, _⟩
  rw [h.encoding, h.reachable]

theorem handle (busy : Option Part) (event : Event) :
    (s.handle busy event).1.Twins (t.handle busy event).1 ∧
      (s.handle busy event).2 = (t.handle busy event).2 := by
  unfold Session.handle
  rw [h.enabled, h.reachable, h.chat]
  split
  · exact ⟨h.log _ _, rfl⟩
  · split
    · exact ⟨h.log _ _, rfl⟩
    · split
      · exact ⟨h.log _ _, rfl⟩
      · cases t.host.chat with
        | none => exact ⟨h.log _ _, rfl⟩
        | some chat =>
          dsimp only
          rw [sweep_enabled h.enabled]
          exact ⟨(h.setChat _).log _ _, rfl⟩

theorem handleAll (busy : Option Part) (events : List Event) :
    Session.Twins (events.foldl (fun s event => (s.handle busy event).1) s)
      (events.foldl (fun t event => (t.handle busy event).1) t) := by
  induction events generalizing s t with
  | nil => exact h
  | cons event events ih => exact ih (h.handle busy event).1

/-! ### Steps -/

theorem give {outcome outcome' : Outcome} (houtcome : outcome = outcome') :
    (s.give outcome).1.Twins (t.give outcome').1 ∧ (s.give outcome).2 = (t.give outcome').2 := by
  subst houtcome
  exact ⟨h.log _ _, rfl⟩

theorem useEncoding (encoding : Encoding) (busy : Option Part) :
    (s.step (.useEncoding encoding) busy).1.Twins (t.step (.useEncoding encoding) busy).1 ∧
      (s.step (.useEncoding encoding) busy).2 = (t.step (.useEncoding encoding) busy).2 := by
  obtain ⟨hscene, hanswer⟩ := step_useEncoding s busy encoding
  obtain ⟨hscene', hanswer'⟩ := step_useEncoding t busy encoding
  refine ⟨⟨?_, ?_, ?_⟩, hanswer.trans hanswer'.symm⟩
  · rw [placement_useEncoding, placement_useEncoding, h.placement]
  · rw [step_storage, step_storage]
    exact h.storage.step (.same _)
  · rw [hscene, hscene', h.scene]

theorem onEvent (event : Event) (busy : Option Part) :
    (s.step (.onEvent event) busy).1.Twins (t.step (.onEvent event) busy).1 ∧
      (s.step (.onEvent event) busy).2 = (t.step (.onEvent event) busy).2 := by
  unfold Session.step
  rw [h.deployment]
  cases t.guard.deployment with
  | hook hook => exact ⟨h.log _ _, rfl⟩
  | watch watch =>
    obtain ⟨htwins, hreport⟩ := h.handle busy event
    exact ⟨htwins, congrArg Answer.reported hreport⟩

theorem fire (event : Event) (busy : Option Part) :
    (s.fire busy event).Twins (t.fire busy event) := by
  unfold Session.fire
  rw [h.subscriptions]
  exact h.handleAll busy _

theorem forget (phase : Phase) :
    Session.Twins { s with host := { s.host with pipeline := s.host.pipeline.forget phase } }
      { t with host := { t.host with pipeline := t.host.pipeline.forget phase } } := by
  refine ⟨?_, h.storage, h.scene⟩
  show (⟨s.guard.deployment, s.host.pipeline.forget phase, s.host.subscriptions⟩ : Placement) = _
  rw [h.deployment, h.pipeline, h.subscriptions]
  rfl

theorem setReachable (reachable : Bool) :
    Session.Twins { s with host := { s.host with reachable } }
      { t with host := { t.host with reachable } } := by
  refine ⟨h.placement, h.storage, ?_⟩
  show (⟨s.guard.encoding, s.host.chat, reachable⟩ : Scene) = ⟨t.guard.encoding, t.host.chat, _⟩
  rw [h.encoding, h.chat]

/-- **A step of the two gives the same, and leaves the same.** -/
theorem step {action action' : Action} (haction : action.Twins action') (busy : Option Part) :
    (s.step action busy).1.Twins (t.step action' busy).1 ∧
      (s.step action busy).2 = (t.step action' busy).2 := by
  cases haction with
  | logTo sink sink' => exact ⟨⟨h.placement, h.storage, h.scene⟩, rfl⟩
  | setDebug debug debug' => exact ⟨h.setDebug debug debug', rfl⟩
  -- the same action: what it reads of the settings is the switch, which is equal in both
  | same =>
    cases action with
    | useEncoding encoding => exact h.useEncoding encoding busy
    | useStore store =>
      exact ⟨⟨h.placement, h.storage.step (.same (.useStore store)), h.scene⟩, rfl⟩
    | logTo sink => exact ⟨⟨h.placement, h.storage, h.scene⟩, rfl⟩
    | useHook connected =>
      show (s.deploy (.hook ⟨connected, s.guard.encoding, none⟩)).Twins
        (t.deploy (.hook ⟨connected, t.guard.encoding, none⟩)) ∧ _
      rw [h.encoding]
      exact ⟨h.deploy _, rfl⟩
    | useWatch connected => exact ⟨h.deploy _, rfl⟩
    | startup => exact ⟨h.startup busy, rfl⟩
    | loadSettings => exact ⟨h.loadSettings, rfl⟩
    | setEnabled enabled => exact ⟨h.setEnabled busy enabled, rfl⟩
    | setDebug debug => exact ⟨h.setDebug debug debug, rfl⟩
    | escape text =>
      refine h.give ?_
      rw [h.deployment, escape_enabled h.enabled]
    | restore text =>
      refine h.give ?_
      rw [h.deployment, restore_enabled h.enabled]
    | sweep chat =>
      refine ⟨h.log _ _, ?_⟩
      show Answer.swept (PipeGuard.sweep s.guard.settings chat).report
        (PipeGuard.sweep s.guard.settings chat).chat = _
      rw [sweep_enabled h.enabled]
      rfl
    | onEvent event => exact h.onEvent event busy
    | fire event => exact ⟨h.fire event busy, rfl⟩
    | run text =>
      refine ⟨h.log _ _, ?_⟩
      show Answer.piped (runAll s.guard.settings .pre s.host.pipeline.pre text).1
        (runAll s.guard.settings .post s.host.pipeline.post
          (runAll s.guard.settings .pre s.host.pipeline.pre text).1).1 = _
      rw [h.pipeline, runAll_enabled h.enabled .pre, runAll_enabled h.enabled .post]
      rfl
    | runPost text =>
      refine ⟨h.log _ _, ?_⟩
      show Answer.posted (runAll s.guard.settings .post s.host.pipeline.post text).1 = _
      rw [h.pipeline, runAll_enabled h.enabled]
      rfl
    | forget phase => exact ⟨h.forget phase, rfl⟩
    | setChat chat => exact ⟨h.setChat chat, rfl⟩
    | push messages =>
      show Session.Twins { s with host := { s.host with chat := s.host.chat.map (· ++ messages) } }
        { t with host := { t.host with chat := t.host.chat.map (· ++ messages) } } ∧ _
      rw [h.chat]
      exact ⟨h.setChat _, rfl⟩
    | setReachable reachable => exact ⟨h.setReachable reachable, rfl⟩
    | setFile path node =>
      exact ⟨⟨h.placement, h.storage.step (.same (.setFile path node)), h.scene⟩, rfl⟩

end Twins

/-! ### Runs -/

/-- Two sessions that went through the same from one start, up to what they were told about the
log: each had its logger, its sinks, and its choices about debugging. -/
inductive Tandem (start : Session) : Session → Session → Prop
  | start (logger : Logger) :
    Tandem start start { start with guard := { start.guard with logger } }
  | step {s t : Session} {action action' : Action} (busy : Option Part) :
    Tandem start s t → action.Twins action' →
    Tandem start (s.step action busy).1 (t.step action' busy).1

variable {start s t : Session}

theorem twins_tandem (h : start.Tandem s t) : s.Twins t := by
  induction h with
  | start logger => exact ⟨rfl, ⟨rfl, .same _, .refl _⟩, rfl⟩
  | step busy _ haction ih => exact (ih.step haction busy).1

/-- **What the guard is told about its log changes its log, and the flag that tells it.** -/
theorem diagnostics_harmless (h : start.Tandem s t) :
    -- what a step gives back
    (∀ action action' busy, action.Twins action' →
      (s.step action busy).2 = (t.step action' busy).2) ∧
    -- where the guard is put: its mode, whether it is installed and the encoding in use
    s.guard.deployment = t.guard.deployment ∧ s.host.pipeline = t.host.pipeline ∧
    s.host.subscriptions = t.host.subscriptions ∧
    -- what else there is to see
    s.host.chat = t.host.chat ∧ s.guard.settings.enabled = t.guard.settings.enabled ∧
    -- what is kept
    s.guard.store.Twins t.guard.store ∧ s.host.disk.Twins t.host.disk ∧
    UpToDebug (fun settings => .ok (some settings.toJson)) (s.guard.store.load s.host.disk)
      (t.guard.store.load t.host.disk) := by
  have htwins := twins_tandem h
  refine ⟨fun action action' busy haction => (htwins.step haction busy).2, htwins.deployment,
    htwins.pipeline, htwins.subscriptions, htwins.chat, htwins.enabled, htwins.storage.store,
    htwins.storage.disk, htwins.storage.disk.load htwins.storage.store⟩

/-- One guard debugs into a captured log, the other one discards its lines. Their settings files
differ; texts go through the pipeline alike. -/
theorem diagnostics_harmless_told :
    let text := "\x7b\x7bsetvar::a::b|c\x7d\x7d".toList
    let talk (sink : Sink) (debug : Bool) : Session :=
      let opened :=
        ((({} : Session).step (.logTo sink) none).1.step (.useStore (.file "flags")) none).1
      let hooked := (opened.step (.useHook true) none).1
      ((hooked.step (.setDebug debug) none).1.step .startup none).1
    let told := talk (.capture "" []) true
    let quiet := talk .discard false
    told.guard.settings = ⟨true, true⟩ ∧ quiet.guard.settings = ⟨true, false⟩ ∧
      told.host.disk.readText "flags" ≠ quiet.host.disk.readText "flags" ∧
      told.host.disk.Twins quiet.host.disk ∧ told.host.pipeline = quiet.host.pipeline ∧
      ∀ busy, (told.step (.run text) busy).2 = (quiet.step (.run text) busy).2 := by
  intro text talk told quiet
  have hrun : ({} : Session).Tandem told quiet :=
    .step none (.step none (.step none (.step none (.step none (.start {})
      (.logTo (.capture "" []) .discard)) (.same (.useStore (.file "flags"))))
      (.same (.useHook true))) (.setDebug true false)) (.same .startup)
  obtain ⟨hanswer, -, hpipeline, -, -, -, -, hdisk, -⟩ := diagnostics_harmless hrun
  refine ⟨by decide +kernel, by decide +kernel, by decide +kernel, hdisk, hpipeline,
    fun busy => hanswer (.run text) (.run text) busy (.same _)⟩

end Session

end PipeGuard
