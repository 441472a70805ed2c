import Mathlib.Data.List.Basic
import PipeGuard.Proofs.Steps

/-! A hook keeps account of what it has in the pipeline.

A hook remembers the handles of the pair it added, and nothing else tells it what
became of the two: the host may drop one, may be busy when they are to be removed, or
busy when they are to be added. `Attended` is a session that is stepped through all of
that, with the handles that the host has dropped on the side; `Tracked` is what the hook
knows at any point of it.

`registration_attended`: there is never more than one processor of the hook in a phase,
and it is the remembered one; it is there unless the host dropped it. A step that cannot
reach the pipeline changes nothing. Switching the guard off leaves nothing behind, and
switching it on adds one processor to each phase. -/
namespace PipeGuard

namespace Pipeline

/-- The processors of a phase that this module added. -/
def own (pipeline : Pipeline) (phase : Phase) : List Processor :=
  (pipeline.processors phase).filter fun p => p.source = moduleName

/-- What a host may do to its pipeline by itself: drop processors of this module, and whatever it
likes with those of others. It gives no handle out again. -/
structure Tended (before after : Pipeline) : Prop where
  issued : before.issued ≤ after.issued
  own (phase : Phase) : (after.own phase).Sublist (before.own phase)

/-- This module's processor of that handle was in one pipeline, and is not in the other. -/
def Dropped (before after : Pipeline) (phase : Phase) (handle : Nat) : Prop :=
  (∃ p ∈ before.own phase, p.handle = handle) ∧ ∀ p ∈ after.own phase, p.handle ≠ handle

section
variable (pipeline : Pipeline) (phase : Phase)

theorem processors_set (processors : List Processor) (other : Phase) :
    (pipeline.setProcessors processors other).processors phase =
      if phase = other then processors else pipeline.processors phase := by
  cases phase <;> cases other <;> rfl

theorem issued_set (processors : List Processor) :
    (pipeline.setProcessors processors phase).issued = pipeline.issued := by
  cases phase <;> rfl

theorem processors_add (encoding : Encoding) (other : Phase) :
    (pipeline.add other encoding).processors phase =
      if phase = other then
        pipeline.processors other ++ [⟨pipeline.nextHandle, other.priority, moduleName, encoding⟩]
      else pipeline.processors phase := by
  rw [← processors_set]
  cases phase <;> rfl

/-- Dropping all the processors of a phase is something a host may do. -/
theorem tended_forget : pipeline.Tended (pipeline.forget phase) := by
  refine ⟨Nat.le_of_eq (issued_set pipeline phase []).symm, fun other => ?_⟩
  unfold own forget
  rw [processors_set]
  split
  · exact List.nil_sublist _
  · exact List.Sublist.refl _

end

end Pipeline

/-- The remembered handle of a phase. -/
def Registration.handle (r : Registration) : Phase → Nat
  | .pre => r.pre
  | .post => r.post

namespace Hook

/-- What a hook puts into a phase. -/
def processor (hook : Hook) (r : Registration) (phase : Phase) : Processor :=
  ⟨r.handle phase, phase.priority, moduleName, hook.encoding⟩

/-! ### Registering and unregistering -/

section
variable (hook : Hook) (pipeline : Pipeline)

theorem register_keeps (free : Bool) :
    (hook.register free pipeline).hook.connected = hook.connected ∧
      (hook.register free pipeline).hook.encoding = hook.encoding := by
  unfold register
  split <;> exact ⟨rfl, rfl⟩

theorem unregister_keeps (free : Bool) :
    (hook.unregister free pipeline).hook.connected = hook.connected ∧
      (hook.unregister free pipeline).hook.encoding = hook.encoding := by
  unfold unregister
  split <;> exact ⟨rfl, rfl⟩

/-- Without a pipeline at hand there is nothing to register with. -/
theorem register_unreached {free : Bool} (h : ¬ (hook.connected = true ∧ free = true)) :
    (hook.register free pipeline).hook = hook ∧
      (hook.register free pipeline).pipeline = pipeline := by
  unfold register
  split
  · exact ⟨rfl, rfl⟩
  · exact ⟨rfl, rfl⟩
  · exact ⟨rfl, rfl⟩
  · case _ hc => exact absurd ⟨hc, rfl⟩ h

theorem register_again {free : Bool} {r : Registration} (h : hook.registration = some r) :
    (hook.register free pipeline).hook = hook ∧
      (hook.register free pipeline).pipeline = pipeline := by
  unfold register
  rw [h]
  exact ⟨rfl, rfl⟩

/-- The handles of a pair added now. -/
def fresh (pipeline : Pipeline) : Registration :=
  ⟨pipeline.issued + 1, pipeline.issued + 2⟩

theorem register_free (hc : hook.connected = true) (hn : hook.registration = none) :
    (hook.register true pipeline).hook = { hook with registration := some (fresh pipeline) } ∧
      (hook.register true pipeline).pipeline.issued = pipeline.issued + 2 ∧
      ∀ phase, (hook.register true pipeline).pipeline.processors phase =
        pipeline.processors phase ++ [hook.processor (fresh pipeline) phase] := by
  unfold register
  rw [hc, hn]
  refine ⟨rfl, rfl, fun phase => ?_⟩
  show ((pipeline.add .pre hook.encoding).add .post hook.encoding).processors phase = _
  cases phase <;> simp only [Pipeline.processors_add, reduceCtorEq, if_true, if_false] <;> rfl

theorem unregister_unreached {free : Bool} (h : ¬ (hook.connected = true ∧ free = true)) :
    (hook.unregister free pipeline).hook = hook ∧
      (hook.unregister free pipeline).pipeline = pipeline := by
  unfold unregister
  split
  · exact ⟨rfl, rfl⟩
  · exact ⟨rfl, rfl⟩
  · exact ⟨rfl, rfl⟩
  · case _ hc => exact absurd ⟨hc, rfl⟩ h

theorem unregister_again {free : Bool} (h : hook.registration = none) :
    (hook.unregister free pipeline).hook = hook ∧
      (hook.unregister free pipeline).pipeline = pipeline := by
  unfold unregister
  rw [h]
  exact ⟨rfl, rfl⟩

/-- The handles are forgotten, and their processors are gone if they had not been before. -/
theorem unregister_free {r : Registration} (hc : hook.connected = true)
    (hr : hook.registration = some r) :
    (hook.unregister true pipeline).hook = { hook with registration := none } ∧
      (hook.unregister true pipeline).pipeline.issued = pipeline.issued ∧
      ∀ phase, (hook.unregister true pipeline).pipeline.processors phase =
        (pipeline.processors phase).filter fun p => p.handle ≠ r.handle phase := by
  unfold unregister
  rw [hc, hr]
  refine ⟨rfl, rfl, fun phase => ?_⟩
  show ((pipeline.remove .pre r.pre).remove .post r.post).processors phase = _
  cases phase <;> rfl

/-- With the pipeline at hand, no handles are left. -/
theorem registration_unregister (hc : hook.connected = true) :
    (hook.unregister true pipeline).hook.registration = none := by
  cases hr : hook.registration with
  | none => rw [(hook.unregister_again pipeline hr).1, hr]
  | some r => rw [(hook.unregister_free pipeline hc hr).1]

theorem own_register (hc : hook.connected = true) (hn : hook.registration = none)
    (phase : Phase) : (hook.register true pipeline).pipeline.own phase =
      pipeline.own phase ++ [hook.processor (fresh pipeline) phase] := by
  obtain ⟨-, -, hprocessors⟩ := hook.register_free pipeline hc hn
  unfold Pipeline.own
  rw [hprocessors, List.filter_append]
  rfl

theorem own_unregister {r : Registration} (hc : hook.connected = true)
    (hr : hook.registration = some r) (phase : Phase) :
    (hook.unregister true pipeline).pipeline.own phase =
      (pipeline.own phase).filter fun p => p.handle ≠ r.handle phase := by
  obtain ⟨-, -, hprocessors⟩ := hook.unregister_free pipeline hc hr
  unfold Pipeline.own
  rw [hprocessors, List.filter_comm]

end

end Hook

/-! ### What a hook knows -/

/-- What a hook's memory says of the pipeline, given the handles that the host has dropped. -/
structure Tracked (gone : Phase → Nat → Prop) (hook : Hook) (pipeline : Pipeline) : Prop where
  absent : hook.registration = none → ∀ phase, pipeline.own phase = []
  present : ∀ r, hook.registration = some r → ∀ phase, ¬ gone phase (r.handle phase) →
    pipeline.own phase = [hook.processor r phase]
  dropped : ∀ r, hook.registration = some r → ∀ phase, gone phase (r.handle phase) →
    pipeline.own phase = []
  /-- Handles to come were neither remembered nor dropped. -/
  issued : ∀ r, hook.registration = some r → ∀ phase, r.handle phase ≤ pipeline.issued
  past : ∀ phase handle, gone phase handle → handle ≤ pipeline.issued

namespace Tracked

variable {gone : Phase → Nat → Prop} {hook : Hook} {pipeline : Pipeline}

/-- What is there of the module is the remembered processor. -/
theorem own_eq (h : Tracked gone hook pipeline) (phase : Phase) :
    pipeline.own phase = [] ∨
      ∃ r, hook.registration = some r ∧ pipeline.own phase = [hook.processor r phase] := by
  cases hr : hook.registration with
  | none => exact .inl (h.absent hr phase)
  | some r =>
    by_cases hgone : gone phase (r.handle phase)
    · exact .inl (h.dropped r hr phase hgone)
    · exact .inr ⟨r, rfl, h.present r hr phase hgone⟩

theorem single (h : Tracked gone hook pipeline) (phase : Phase) :
    (pipeline.own phase).length ≤ 1 := by
  obtain hown | ⟨r, -, hown⟩ := h.own_eq phase
  · rw [hown]
    exact Nat.zero_le _
  · rw [hown]
    exact Nat.le_refl _

theorem handle_of_mem (h : Tracked gone hook pipeline) {r : Registration}
    (hr : hook.registration = some r) {phase : Phase} {p : Processor}
    (hp : p ∈ pipeline.own phase) : p.handle = r.handle phase := by
  obtain hown | ⟨r', hr', hown⟩ := h.own_eq phase
  · rw [hown] at hp
    exact absurd hp List.not_mem_nil
  · rw [hown, List.mem_singleton] at hp
    rw [hp, Option.some.inj (hr.symm.trans hr')]
    rfl

/-- A pair is added to a pipeline that holds none, under handles that nothing was dropped by. -/
theorem registered (h : Tracked gone hook pipeline) (hc : hook.connected = true)
    (hn : hook.registration = none) :
    Tracked gone (hook.register true pipeline).hook (hook.register true pipeline).pipeline := by
  obtain ⟨hhook, hissued, -⟩ := hook.register_free pipeline hc hn
  have hfresh : ∀ phase, pipeline.issued < (Hook.fresh pipeline).handle phase ∧
      (Hook.fresh pipeline).handle phase ≤ pipeline.issued + 2 := by
    intro phase
    cases phase <;> simp only [Hook.fresh, Registration.handle] <;> omega
  have hown : ∀ phase, (hook.register true pipeline).pipeline.own phase =
      [hook.processor (Hook.fresh pipeline) phase] := by
    intro phase
    rw [hook.own_register pipeline hc hn, h.absent hn phase, List.nil_append]
  rw [hhook]
  constructor
  case absent => exact fun hnone => absurd hnone (by simp)
  case present =>
    rintro r ⟨⟩ phase -
    exact hown phase
  case dropped =>
    rintro r ⟨⟩ phase hgone
    have := h.past phase _ hgone
    have := (hfresh phase).1
    omega
  case issued =>
    rintro r ⟨⟩ phase
    rw [hissued]
    exact (hfresh phase).2
  case past =>
    intro phase handle hgone
    rw [hissued]
    exact Nat.le_add_right_of_le (h.past phase handle hgone)

/-- Removing the remembered handles removes all that the module has, dropped or not. -/
theorem unregistered (h : Tracked gone hook pipeline) {r : Registration}
    (hc : hook.connected = true) (hr : hook.registration = some r) :
    Tracked gone (hook.unregister true pipeline).hook (hook.unregister true pipeline).pipeline := by
  obtain ⟨hhook, hissued, -⟩ := hook.unregister_free pipeline hc hr
  have hown : ∀ phase, (hook.unregister true pipeline).pipeline.own phase = [] := by
    intro phase
    rw [hook.own_unregister pipeline hc hr, List.filter_eq_nil_iff]
    intro p hp hother
    exact of_decide_eq_true hother (h.handle_of_mem hr hp)
  rw [hhook]
  constructor
  case absent => exact fun _ => hown
  case present => exact fun r' hr' => absurd hr' (by simp)
  case dropped => exact fun r' hr' => absurd hr' (by simp)
  case issued => exact fun r' hr' => absurd hr' (by simp)
  case past =>
    intro phase handle hgone
    rw [hissued]
    exact h.past phase handle hgone

/-- The host's own moves take the remembered processor of a phase away, or leave it. -/
theorem tended (h : Tracked gone hook pipeline) {after : Pipeline} (ht : pipeline.Tended after) :
    Tracked (fun phase handle => gone phase handle ∨ pipeline.Dropped after phase handle)
      hook after := by
  -- one processor at most was there: the rest of the proof is about whether it stayed
  have hstay : ∀ r, hook.registration = some r → ∀ phase,
      pipeline.own phase = [hook.processor r phase] →
      after.own phase = [hook.processor r phase] ∨ after.own phase = [] := by
    intro r _ phase hown
    have hsub := ht.own phase
    rw [hown] at hsub
    exact (List.sublist_singleton.mp hsub).symm
  constructor
  case absent =>
    intro hn phase
    have hsub := ht.own phase
    rw [h.absent hn phase] at hsub
    exact List.sublist_nil.mp hsub
  case present =>
    intro r hr phase hkept
    rw [not_or] at hkept
    have hown := h.present r hr phase hkept.1
    obtain hthere | hempty := hstay r hr phase hown
    · exact hthere
    · refine absurd ⟨⟨hook.processor r phase, ?_, rfl⟩, ?_⟩ hkept.2
      · rw [hown]
        exact List.mem_singleton_self _
      · rw [hempty]
        exact fun p hp => absurd hp List.not_mem_nil
  case dropped =>
    intro r hr phase hgone
    by_cases hbefore : gone phase (r.handle phase)
    · have hsub := ht.own phase
      rw [h.dropped r hr phase hbefore] at hsub
      exact List.sublist_nil.mp hsub
    · obtain hthere | hempty := hstay r hr phase (h.present r hr phase hbefore)
      · have hnone := (hgone.resolve_left hbefore).2 (hook.processor r phase)
        rw [hthere] at hnone
        exact absurd rfl (hnone (List.mem_singleton_self _))
      · exact hempty
  case issued =>
    intro r hr phase
    exact Nat.le_trans (h.issued r hr phase) ht.issued
  case past =>
    rintro phase handle (hgone | ⟨⟨p, hp, rfl⟩, -⟩)
    · exact Nat.le_trans (h.past phase handle hgone) ht.issued
    · cases hr : hook.registration with
      | none =>
        rw [h.absent hr phase] at hp
        exact absurd hp List.not_mem_nil
      | some r =>
        rw [h.handle_of_mem hr hp]
        exact Nat.le_trans (h.issued r hr phase) ht.issued

theorem register (h : Tracked gone hook pipeline) (free : Bool) :
    Tracked gone (hook.register free pipeline).hook (hook.register free pipeline).pipeline := by
  cases hr : hook.registration with
  | some r =>
    obtain ⟨hhook, hpipeline⟩ := hook.register_again pipeline hr
    rw [hhook, hpipeline]
    exact h
  | none =>
    by_cases hreached : hook.connected = true ∧ free = true
    · obtain ⟨hc, rfl⟩ := hreached
      exact h.registered hc hr
    · obtain ⟨hhook, hpipeline⟩ := hook.register_unreached pipeline hreached
      rw [hhook, hpipeline]
      exact h

theorem unregister (h : Tracked gone hook pipeline) (free : Bool) :
    Tracked gone (hook.unregister free pipeline).hook
      (hook.unregister free pipeline).pipeline := by
  cases hr : hook.registration with
  | none =>
    obtain ⟨hhook, hpipeline⟩ := hook.unregister_again pipeline hr
    rw [hhook, hpipeline]
    exact h
  | some r =>
    by_cases hreached : hook.connected = true ∧ free = true
    · obtain ⟨hc, rfl⟩ := hreached
      exact h.unregistered hc hr
    · obtain ⟨hhook, hpipeline⟩ := hook.unregister_unreached pipeline hreached
      rw [hhook, hpipeline]
      exact h

end Tracked

/-! ### Along a run -/

/-- The hook can get at the pipeline while `busy` is in use by somebody else. -/
def Hook.Reaches (hook : Hook) (busy : Option Part) : Prop :=
  hook.connected = true ∧ busy ≠ some .pipeline

namespace Placement

section
variable {p : Placement} {hook : Hook} {busy : Option Part}

theorem install_hook (h : p.deployment = .hook hook) (busy : Option Part) :
    p.install busy =
      { p with
        deployment := .hook (hook.register (busy ≠ some .pipeline) p.pipeline).hook
        pipeline := (hook.register (busy ≠ some .pipeline) p.pipeline).pipeline } := by
  unfold install
  rw [h]

theorem uninstall_hook (h : p.deployment = .hook hook) (busy : Option Part) :
    p.uninstall busy =
      { p with
        deployment := .hook (hook.unregister (busy ≠ some .pipeline) p.pipeline).hook
        pipeline := (hook.unregister (busy ≠ some .pipeline) p.pipeline).pipeline } := by
  unfold uninstall
  rw [h]

theorem install_unreached (h : p.deployment = .hook hook) (hb : ¬ hook.Reaches busy) :
    p.install busy = p := by
  obtain ⟨hhook, hpipeline⟩ := @Hook.register_unreached hook p.pipeline
    (decide (busy ≠ some .pipeline)) fun hreached => hb ⟨hreached.1, of_decide_eq_true hreached.2⟩
  rw [install_hook h, hhook, hpipeline, ← h]

theorem uninstall_unreached (h : p.deployment = .hook hook) (hb : ¬ hook.Reaches busy) :
    p.uninstall busy = p := by
  obtain ⟨hhook, hpipeline⟩ := @Hook.unregister_unreached hook p.pipeline
    (decide (busy ≠ some .pipeline)) fun hreached => hb ⟨hreached.1, of_decide_eq_true hreached.2⟩
  rw [uninstall_hook h, hhook, hpipeline, ← h]

end

/-- Hook mode, still with the connection and encoding it was configured with, and nothing in the
pipeline that the hook does not know of. -/
structure Hooked (connected : Bool) (encoding : Encoding) (gone : Phase → Nat → Prop)
    (hook : Hook) (p : Placement) : Prop where
  deployment : p.deployment = .hook hook
  connected : hook.connected = connected
  encoding : hook.encoding = encoding
  tracked : Tracked gone hook p.pipeline

section
variable {connected : Bool} {encoding : Encoding} {gone : Phase → Nat → Prop} {hook : Hook}
  {p : Placement}

theorem Hooked.install (h : Hooked connected encoding gone hook p) (busy : Option Part) :
    ∃ hook', Hooked connected encoding gone hook' (p.install busy) := by
  rw [install_hook h.deployment]
  obtain ⟨hconnected, hencoding⟩ :=
    hook.register_keeps p.pipeline (decide (busy ≠ some .pipeline))
  exact ⟨_, rfl, hconnected.trans h.connected, hencoding.trans h.encoding, h.tracked.register _⟩

theorem Hooked.uninstall (h : Hooked connected encoding gone hook p) (busy : Option Part) :
    ∃ hook', Hooked connected encoding gone hook' (p.uninstall busy) := by
  rw [uninstall_hook h.deployment]
  obtain ⟨hconnected, hencoding⟩ :=
    hook.unregister_keeps p.pipeline (decide (busy ≠ some .pipeline))
  exact ⟨_, rfl, hconnected.trans h.connected, hencoding.trans h.encoding, h.tracked.unregister _⟩

end

end Placement

namespace Session

/-- The host puts its pipeline into another state. -/
def tend (s : Session) (pipeline : Pipeline) : Session :=
  { s with host := { s.host with pipeline } }

/-- Hook mode, not registered yet, and nothing of this module in the pipeline. -/
structure Configured (start : Session) (connected : Bool) (encoding : Encoding) : Prop where
  deployment : start.guard.deployment = .hook ⟨connected, encoding, none⟩
  clear (phase : Phase) : start.host.pipeline.own phase = []

/-- A session after steps, each with or without a part of the host busy, and after what the host
did to its pipeline between them; with the handles that the host dropped. -/
inductive Attended (start : Session) : (Phase → Nat → Prop) → Session → Prop
  | start : Attended start (fun _ _ => False) start
  | step {gone : Phase → Nat → Prop} {s : Session} (action : Action) (busy : Option Part) :
    Attended start gone s → action.Running → Attended start gone (s.step action busy).1
  | host {gone : Phase → Nat → Prop} {s : Session} (pipeline : Pipeline) :
    Attended start gone s → s.host.pipeline.Tended pipeline →
    Attended start
      (fun phase handle => gone phase handle ∨ s.host.pipeline.Dropped pipeline phase handle)
      (s.tend pipeline)

section
variable {connected : Bool} {encoding : Encoding} {gone : Phase → Nat → Prop} {hook : Hook}
  {start s : Session}

theorem hooked_start (h : start.Configured connected encoding) :
    start.placement.Hooked connected encoding (fun _ _ => False) ⟨connected, encoding, none⟩ where
  deployment := h.deployment
  connected := rfl
  encoding := rfl
  tracked := {
    absent := fun _ => h.clear
    present := fun _ hr => nomatch hr
    dropped := fun _ hr => nomatch hr
    issued := fun _ hr => nomatch hr
    past := fun _ _ hgone => hgone.elim }

theorem hooked_step (h : s.placement.Hooked connected encoding gone hook) {action : Action}
    (haction : action.Running) (busy : Option Part) :
    ∃ hook', (s.step action busy).1.placement.Hooked connected encoding gone hook' := by
  obtain hsame | hinstall | huninstall := step_placement s busy haction
  · rw [hsame]
    exact ⟨hook, h⟩
  · rw [hinstall]
    exact h.install busy
  · rw [huninstall]
    exact h.uninstall busy

/-- A hook tracks the pipeline all along a run. -/
theorem hooked_attended (hstart : start.Configured connected encoding)
    (h : start.Attended gone s) : ∃ hook, s.placement.Hooked connected encoding gone hook := by
  induction h with
  | start => exact ⟨_, hooked_start hstart⟩
  | step action busy _ haction ih =>
    obtain ⟨hook, hhooked⟩ := ih
    exact hooked_step hhooked haction busy
  | host pipeline _ htended ih =>
    obtain ⟨hook, hhooked⟩ := ih
    exact ⟨hook, hhooked.deployment, hhooked.connected, hhooked.encoding,
      hhooked.tracked.tended htended⟩

theorem not_installed (hdeployment : s.guard.deployment = .hook hook) :
    s.guard.deployment.isInstalled = false ↔ hook.registration = none := by
  rw [hdeployment]
  exact Option.isSome_eq_false_iff.trans Option.isNone_iff_eq_none

/-- A step that cannot reach the pipeline leaves the hook and the pipeline alone. -/
theorem step_unreached (hdeployment : s.guard.deployment = .hook hook) {action : Action}
    (haction : action.Running) {busy : Option Part} (hb : ¬ hook.Reaches busy) :
    (s.step action busy).1.placement = s.placement := by
  obtain hsame | hinstall | huninstall := step_placement s busy haction
  · exact hsame
  · rw [hinstall]
    exact Placement.install_unreached hdeployment hb
  · rw [huninstall]
    exact Placement.uninstall_unreached hdeployment hb

/-- Switching the guard off takes out all that is there of it. -/
theorem disable_reached (h : s.placement.Hooked connected encoding gone hook)
    {busy : Option Part} (hb : hook.Reaches busy) :
    (s.step (.setEnabled false) busy).1.guard.deployment.isInstalled = false ∧
      ∀ phase, (s.step (.setEnabled false) busy).1.host.pipeline.own phase = [] := by
  obtain ⟨hc, hbusy⟩ := hb
  have hplacement : (s.step (.setEnabled false) busy).1.placement = s.placement.uninstall busy :=
    placement_disable s busy
  rw [Placement.uninstall_hook h.deployment, decide_eq_true hbusy] at hplacement
  have hnone := hook.registration_unregister s.placement.pipeline hc
  have htracked := h.tracked.unregister true
  refine ⟨(not_installed (congrArg Placement.deployment hplacement)).mpr hnone, fun phase => ?_⟩
  have hpipeline := congrArg Placement.pipeline hplacement
  show Pipeline.own (Placement.pipeline (placement _)) phase = []
  rw [hpipeline]
  exact htracked.absent hnone phase

/-- Switching the guard on adds a processor to each phase, if none was remembered. -/
theorem enable_reached (h : s.placement.Hooked connected encoding gone hook)
    {busy : Option Part} (hb : hook.Reaches busy) (hn : hook.registration = none) :
    ∃ r, (s.step (.setEnabled true) busy).1.guard.deployment =
        .hook { hook with registration := some r } ∧
      ∀ phase, (s.step (.setEnabled true) busy).1.host.pipeline.processors phase =
        s.host.pipeline.processors phase ++ [hook.processor r phase] := by
  obtain ⟨hc, hbusy⟩ := hb
  have hplacement : (s.step (.setEnabled true) busy).1.placement = s.placement.install busy :=
    placement_enable s busy
  rw [Placement.install_hook h.deployment, decide_eq_true hbusy] at hplacement
  obtain ⟨hhook, -, hprocessors⟩ := hook.register_free s.placement.pipeline hc hn
  refine ⟨Hook.fresh s.host.pipeline, ?_, fun phase => ?_⟩
  · exact (congrArg Placement.deployment hplacement).trans (congrArg Deployment.hook hhook)
  · exact (congrArg (fun p => p.pipeline.processors phase) hplacement).trans (hprocessors phase)

/-- **A hook knows what it has in the pipeline, whatever the host does.** -/
theorem registration_attended (hstart : start.Configured connected encoding)
    (h : start.Attended gone s) :
    ∃ hook, s.guard.deployment = .hook hook ∧ hook.connected = connected ∧
      hook.encoding = encoding ∧
      -- one processor of the hook in a phase at most, and which one
      (∀ phase, (s.host.pipeline.own phase).length ≤ 1) ∧
      (s.guard.deployment.isInstalled = false → ∀ phase, s.host.pipeline.own phase = []) ∧
      (s.guard.deployment.isInstalled = true → ∃ r, hook.registration = some r ∧ ∀ phase,
        (¬ gone phase (r.handle phase) → s.host.pipeline.own phase = [hook.processor r phase]) ∧
        (gone phase (r.handle phase) → s.host.pipeline.own phase = [])) ∧
      -- a pipeline that is missing or busy
      (∀ action busy, action.Running → ¬ hook.Reaches busy →
        (s.step action busy).1.guard.deployment = .hook hook ∧
          (s.step action busy).1.host.pipeline = s.host.pipeline) ∧
      -- one that is free
      (∀ busy, hook.Reaches busy →
        (s.step (.setEnabled false) busy).1.guard.deployment.isInstalled = false ∧
          ∀ phase, (s.step (.setEnabled false) busy).1.host.pipeline.own phase = []) ∧
      (∀ busy, hook.Reaches busy → s.guard.deployment.isInstalled = false →
        ∃ r, (s.step (.setEnabled true) busy).1.guard.deployment =
            .hook { hook with registration := some r } ∧
          ∀ phase, (s.step (.setEnabled true) busy).1.host.pipeline.processors phase =
            s.host.pipeline.processors phase ++ [hook.processor r phase]) := by
  obtain ⟨hook, hhooked⟩ := hooked_attended hstart h
  have hdeployment : s.guard.deployment = .hook hook := hhooked.deployment
  have htracked : Tracked gone hook s.host.pipeline := hhooked.tracked
  refine ⟨hook, hdeployment, hhooked.connected, hhooked.encoding, htracked.single, ?_, ?_, ?_, ?_,
    ?_⟩
  · intro hout
    exact htracked.absent ((not_installed hdeployment).mp hout)
  · intro hin
    rw [hdeployment] at hin
    obtain ⟨r, hr⟩ := Option.isSome_iff_exists.mp hin
    exact ⟨r, hr, fun phase => ⟨htracked.present r hr phase, htracked.dropped r hr phase⟩⟩
  · intro action busy haction hb
    have hsame := step_unreached hdeployment haction hb
    exact ⟨(congrArg Placement.deployment hsame).trans hdeployment,
      congrArg Placement.pipeline hsame⟩
  · intro busy hb
    exact disable_reached hhooked hb
  · intro busy hb hout
    exact enable_reached hhooked hb ((not_installed hdeployment).mp hout)

/-- The host drops one of the pair, and switching off while the pipeline is busy takes out nothing:
the other one goes when the pipeline is free again. -/
theorem registration_attended_half :
    let start : Session := { guard := { deployment := .hook ⟨true, .marker, none⟩ } }
    let on := (start.step (.setEnabled true) none).1
    let halved := on.tend (on.host.pipeline.forget .pre)
    let s := (halved.step (.setEnabled false) (some .pipeline)).1
    s.guard.deployment.isInstalled = true ∧ s.host.pipeline.own .post ≠ [] ∧
      (s.step (.setEnabled false) none).1.guard.deployment.isInstalled = false ∧
      ∀ phase, (s.step (.setEnabled false) none).1.host.pipeline.own phase = [] := by
  intro start on halved s
  have hstart : start.Configured true .marker := ⟨rfl, fun phase => by cases phase <;> rfl⟩
  have hrun : start.Attended _ s :=
    .step (.setEnabled false) (some .pipeline)
      (.host _ (.step (.setEnabled true) none .start trivial) (on.host.pipeline.tended_forget .pre))
      trivial
  obtain ⟨hook, -, hconnected, -, -, -, -, -, hoff, -⟩ := registration_attended hstart hrun
  exact ⟨rfl, by decide, hoff none ⟨hconnected, by decide⟩⟩

end

end Session

end PipeGuard
