import PipeGuard.Session

/-! What a step does to where the guard is put.

A step reaches the pipeline and the subscriptions of the host through the
deployment only. The rest of a session (settings, log, store, chat and files) may
change in any step; these three (`Placement`) change in three ways.

`step_placement`: a step leaves the placement alone, installs or uninstalls,
unless it is one that chooses a deployment or the host forgets processors. -/
namespace PipeGuard

/-- The deployment, and the parts of the host that it puts things into. -/
structure Placement where
  deployment : Deployment
  pipeline : Pipeline
  subscriptions : List Event

namespace Placement

def install (p : Placement) (busy : Option Part) : Placement :=
  match p.deployment with
  | .hook hook =>
    let r := hook.register (busy ≠ some .pipeline) p.pipeline
    { p with deployment := .hook r.hook, pipeline := r.pipeline }
  | .watch watch =>
    let r := watch.attach (busy ≠ some .bus) p.subscriptions
    { p with deployment := .watch r.watch, subscriptions := r.subscriptions }

def uninstall (p : Placement) (busy : Option Part) : Placement :=
  match p.deployment with
  | .hook hook =>
    let r := hook.unregister (busy ≠ some .pipeline) p.pipeline
    { p with deployment := .hook r.hook, pipeline := r.pipeline }
  | .watch _ => p

end Placement

/-- Neither chooses a deployment nor is the host's own work on its pipeline. -/
def Action.Running : Action → Prop
  | .useEncoding _ | .useHook _ | .useWatch _ | .forget _ => False
  | _ => True

/-- The deployment with another encoding. A watch has none of its own. -/
def Deployment.useEncoding (encoding : Encoding) : Deployment → Deployment
  | hook h => .hook { h with encoding }
  | watch w => .watch w

namespace Session

def placement (s : Session) : Placement :=
  ⟨s.guard.deployment, s.host.pipeline, s.host.subscriptions⟩

/-! ### Parts of steps -/

section
variable (s : Session) (busy : Option Part)

theorem placement_log (lines : List Line) : (s.log lines).placement = s.placement := rfl

theorem placement_apply (settings : Settings) : (s.apply settings).placement = s.placement := rfl

theorem placement_persist : s.persist.placement = s.placement := by
  unfold persist
  split
  · rfl
  · exact placement_log s _

theorem placement_loadSettings : s.loadSettings.placement = s.placement := rfl

theorem placement_install : (s.install busy).placement = s.placement.install busy := by
  unfold install Placement.install
  show _ = match s.guard.deployment with | .hook _ => _ | .watch _ => _
  cases s.guard.deployment <;> rfl

theorem placement_uninstall : (s.uninstall busy).placement = s.placement.uninstall busy := by
  unfold uninstall Placement.uninstall
  show _ = match s.guard.deployment with | .hook _ => _ | .watch _ => _
  cases hdeployment : s.guard.deployment with
  | hook hook => rfl
  | watch watch => rfl

/-- Handling an event changes the chat and the log at most. -/
theorem handle_frame (event : Event) : ∃ logger chat, (s.handle busy event).1 =
    { guard := { s.guard with logger }, host := { s.host with chat } } := by
  unfold handle
  split
  · exact ⟨_, _, rfl⟩
  · split
    · exact ⟨_, _, rfl⟩
    · split
      · exact ⟨_, _, rfl⟩
      · split <;> exact ⟨_, _, rfl⟩

theorem handleAll_frame (events : List Event) : ∃ logger chat,
    events.foldl (fun s event => (s.handle busy event).1) s =
      { guard := { s.guard with logger }, host := { s.host with chat } } := by
  induction events generalizing s with
  | nil => exact ⟨_, _, rfl⟩
  | cons event rest ih =>
    obtain ⟨logger₁, chat₁, hfirst⟩ := handle_frame s busy event
    obtain ⟨logger, chat, hrest⟩ := ih (s.handle busy event).1
    refine ⟨logger, chat, hrest.trans ?_⟩
    rw [hfirst]

theorem placement_handle (event : Event) : (s.handle busy event).1.placement = s.placement := by
  obtain ⟨logger, chat, hframe⟩ := handle_frame s busy event
  rw [hframe]
  rfl

theorem placement_handleAll (events : List Event) :
    (events.foldl (fun s event => (s.handle busy event).1) s).placement = s.placement := by
  obtain ⟨logger, chat, hframe⟩ := handleAll_frame s busy events
  rw [hframe]
  rfl

/-! ### Steps -/

theorem placement_startup :
    (s.startup busy).placement = s.placement ∨
      (s.startup busy).placement = s.placement.install busy := by
  unfold startup
  simp only [placement_log]
  split
  · refine .inr ?_
    rw [placement_install, placement_loadSettings, placement_log]
  · exact .inl rfl

theorem placement_enable : (s.setEnabled busy true).placement = s.placement.install busy := by
  show (((s.apply _).persist).install busy).placement = _
  rw [placement_install, placement_persist, placement_apply]

theorem placement_disable : (s.setEnabled busy false).placement = s.placement.uninstall busy := by
  show (((s.apply _).persist).uninstall busy).placement = _
  rw [placement_uninstall, placement_persist, placement_apply]

theorem placement_setDebug (debug : Bool) : (s.setDebug debug).placement = s.placement := by
  show ((s.apply _).persist).placement = _
  rw [placement_persist, placement_apply]

/-- **A step leaves the placement alone, installs or uninstalls.** -/
theorem step_placement {action : Action} (h : action.Running) :
    (s.step action busy).1.placement = s.placement ∨
      (s.step action busy).1.placement = s.placement.install busy ∨
      (s.step action busy).1.placement = s.placement.uninstall busy := by
  cases action with
  | useEncoding _ | useHook _ | useWatch _ | forget _ => exact absurd h id
  | startup => exact (placement_startup s busy).imp_right .inl
  | setEnabled enabled =>
    cases enabled with
    | true => exact .inr (.inl (placement_enable s busy))
    | false => exact .inr (.inr (placement_disable s busy))
  | setDebug debug => exact .inl (placement_setDebug s debug)
  | onEvent event =>
    refine .inl ?_
    unfold step
    cases s.guard.deployment with
    | hook hook => exact placement_log s _
    | watch watch => exact placement_handle s busy event
  | fire event => exact .inl (placement_handleAll s busy _)
  | _ => exact .inl rfl

theorem placement_useEncoding (encoding : Encoding) :
    (s.step (.useEncoding encoding) busy).1.placement =
      { s.placement with deployment := s.placement.deployment.useEncoding encoding } := by
  obtain ⟨⟨_, _, _, _, deployment⟩, _⟩ := s
  cases deployment <;> rfl

theorem deployment_useEncoding (encoding : Encoding) :
    (s.step (.useEncoding encoding) busy).1.guard.deployment =
      s.guard.deployment.useEncoding encoding :=
  congrArg Placement.deployment (placement_useEncoding s busy encoding)

end

/-! ### Runs -/

/-- A session after steps, each with or without a part of the host busy. -/
inductive Reaches (allowed : Action → Prop) (start : Session) : Session → Prop
  | start : Reaches allowed start start
  | step {s : Session} (action : Action) (busy : Option Part) :
    Reaches allowed start s → allowed action → Reaches allowed start (s.step action busy).1

end Session

end PipeGuard
