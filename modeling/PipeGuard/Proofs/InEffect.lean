import PipeGuard.Proofs.Storage
import PipeGuard.Proofs.Switching

/-! The encoding that a registered pair works with, and the one that is in use.

A pair keeps the encoding it was registered with, and the deployment reports the one that
was chosen last. They are the same until another encoding is chosen while the pair is in
the pipeline, for choosing does not reach into what was registered.

`encoding_in_effect`: a processor of the remembered pair does what the guard does when
asked itself, for every text, exactly if the encoding in use is that of the registration
(`agrees_iff`). Nothing but the choice of another one makes the two differ, and registering
anew makes them equal again. So the encoding that a guard reports while it is installed
and switched on need not be the one in effect (`encoding_not_in_effect`). -/
namespace PipeGuard

/-- The guard itself is asked to do what the processors of a phase do. -/
def Phase.asks : Phase → List Char → Action
  | pre => .escape
  | post => .restore

/-- A text that the encodings treat differently. -/
def Phase.telling : Phase → List Char
  | pre => "\x7b\x7bsetvar::a|b\x7d\x7d".toList
  | post => pipeMarker

theorem run_telling (debug : Bool) (phase : Phase) {p q : Processor} (hp : p.encoding = .marker)
    (hq : q.encoding = .backslash) :
    (p.run ⟨true, debug⟩ phase phase.telling).text ≠
      (q.run ⟨true, debug⟩ phase phase.telling).text := by
  cases phase with
  | pre =>
    show (escape p.encoding _ _).text ≠ (escape q.encoding _ _).text
    rw [hp, hq]
    cases debug <;> decide +kernel
  | post =>
    show (restore p.encoding _ _).text ≠ (restore q.encoding _ _).text
    rw [hp, hq]
    cases debug <;> decide +kernel

/-- Processors that do the same to every text have one encoding. -/
theorem encoding_of_run {settings : Settings} (hon : settings.enabled = true) (phase : Phase)
    {p q : Processor}
    (h : ∀ text, (p.run settings phase text).text = (q.run settings phase text).text) :
    p.encoding = q.encoding := by
  obtain ⟨enabled, debug⟩ := settings
  obtain rfl : enabled = true := hon
  cases hp : p.encoding <;> cases hq : q.encoding
  · rfl
  · exact absurd (h phase.telling).symm (run_telling debug phase hq hp)
  · exact absurd (h phase.telling) (run_telling debug phase hp hq)
  · rfl

namespace Placement

theorem encoding_install (p : Placement) (busy : Option Part) :
    (p.install busy).deployment.encoding = p.deployment.encoding := by
  cases hdeployment : p.deployment with
  | hook hook =>
    rw [install_hook hdeployment]
    exact (hook.register_keeps p.pipeline _).2
  | watch watch =>
    rw [install_watch hdeployment]
    rfl

theorem encoding_uninstall (p : Placement) (busy : Option Part) :
    (p.uninstall busy).deployment.encoding = p.deployment.encoding := by
  cases hdeployment : p.deployment with
  | hook hook =>
    rw [uninstall_hook hdeployment]
    exact (hook.unregister_keeps p.pipeline _).2
  | watch watch =>
    unfold uninstall
    rw [hdeployment, hdeployment]

end Placement

namespace Session

/-- The processor gives what the guard itself gives when asked, for every text. -/
def Agrees (s : Session) (phase : Phase) (p : Processor) : Prop :=
  ∀ text busy, ∃ changed,
    (s.step (phase.asks text) busy).2 = .text (p.run s.guard.settings phase text).text changed

section
variable {s : Session}

/-- What the guard answers is what a processor with the encoding in use would give. -/
theorem answer_asks (phase : Phase) (p : Processor)
    (hp : p.encoding = s.guard.deployment.encoding) (text : List Char) (busy : Option Part) :
    (s.step (phase.asks text) busy).2 =
      .text (p.run s.guard.settings phase text).text
        (p.run s.guard.settings phase text).changed := by
  cases phase with
  | pre =>
    show _ = Answer.text (escape p.encoding _ text).text (escape p.encoding _ text).changed
    rw [hp]
    rfl
  | post =>
    show _ = Answer.text (restore p.encoding _ text).text (restore p.encoding _ text).changed
    rw [hp]
    rfl

theorem agrees_iff (hon : s.guard.settings.enabled = true) (phase : Phase) (p : Processor) :
    s.Agrees phase p ↔ p.encoding = s.guard.deployment.encoding := by
  constructor
  · intro h
    refine encoding_of_run hon phase (q := { p with encoding := s.guard.deployment.encoding })
      fun text => ?_
    obtain ⟨changed, hanswer⟩ := h text none
    rw [answer_asks phase { p with encoding := s.guard.deployment.encoding } rfl] at hanswer
    injection hanswer with htext
    exact htext.symm
  · intro h text busy
    exact ⟨_, answer_asks phase p h text busy⟩

/-- While a pair stays registered, the encoding in use changes by choice only. -/
theorem encoding_step {r : Registration} {action : Action} {busy : Option Part}
    (hr : (s.step action busy).1.guard.deployment.registration? = some r)
    (haction : ∀ encoding, action ≠ .useEncoding encoding) :
    (s.step action busy).1.guard.deployment.encoding = s.guard.deployment.encoding := by
  by_cases hrunning : action.Running
  · show (s.step action busy).1.placement.deployment.encoding = s.placement.deployment.encoding
    obtain hsame | hinstall | huninstall := step_placement s busy hrunning
    · rw [hsame]
    · rw [hinstall, Placement.encoding_install]
    · rw [huninstall, Placement.encoding_uninstall]
  · cases action with
    | useEncoding encoding => exact absurd rfl (haction encoding)
    | useHook connected => exact absurd hr (by simp [step, deploy, Deployment.registration?])
    | useWatch connected => exact absurd hr (by simp [step, deploy, Deployment.registration?])
    | forget phase => rfl
    | _ => exact absurd trivial hrunning

end

variable {pairs : Registration → Encoding → Prop} {start s : Session}

/-- The remembered pair was registered on the way. -/
theorem remembered_switched (hout : start.guard.deployment.registration? = none)
    (h : start.Switched pairs s) {r : Registration}
    (hr : s.guard.deployment.registration? = some r) : ∃ e, pairs r e := by
  induction h generalizing r with
  | start => exact absurd (hout.symm.trans hr) (by simp)
  | @step pairs s action busy _ ih =>
    cases hbefore : s.guard.deployment.registration? with
    | none => exact ⟨_, .inr ⟨hbefore, hr, rfl⟩⟩
    | some r' =>
      obtain ⟨hook, hdeployment, hnone, -⟩ | ⟨hkept, -⟩ := step_moves s action busy
      · rw [show s.guard.deployment = .hook hook from hdeployment] at hbefore
        exact absurd (hnone.symm.trans hbefore) (by simp)
      · obtain ⟨e, hpair⟩ := ih (hkept r hr)
        exact ⟨e, .inl hpair⟩
  | host pipeline _ _ ih => exact ih hr

/-- Switched off and on again with the pipeline at hand, the guard registers another pair. -/
theorem registers_again {hook : Hook} (hdeployment : s.guard.deployment = .hook hook)
    (hc : hook.connected = true) :
    let off := (s.step (.setEnabled false) none).1
    let again := (off.step (.setEnabled true) none).1
    ∃ r, off.Registers again r hook.encoding ∧
      again.guard.deployment.encoding = hook.encoding := by
  intro off again
  have hoff : off.placement = s.placement.uninstall none := placement_disable s none
  have hagain : again.placement = off.placement.install none := placement_enable off none
  rw [Placement.uninstall_hook hdeployment] at hoff
  have houtside : off.guard.deployment =
    .hook (hook.unregister true s.host.pipeline).hook := congrArg Placement.deployment hoff
  have hnone := hook.registration_unregister s.host.pipeline hc
  obtain ⟨hconnected, hencoding⟩ := hook.unregister_keeps s.host.pipeline true
  rw [Placement.install_hook houtside] at hagain
  obtain ⟨hhook, -, -⟩ := Hook.register_free _ off.host.pipeline (hconnected.trans hc) hnone
  have hinside : again.guard.deployment = _ :=
    (congrArg Placement.deployment hagain).trans (congrArg Deployment.hook hhook)
  refine ⟨Hook.fresh off.host.pipeline, ⟨?_, ?_, ?_⟩, ?_⟩
  · rw [houtside]
    exact hnone
  · rw [hinside]
    rfl
  · rw [houtside]
    exact hencoding
  · rw [hinside]
    exact hencoding

theorem enabled_setEnabled (s : Session) (enabled : Bool) (busy : Option Part) :
    (s.step (.setEnabled enabled) busy).1.guard.settings.enabled = enabled := by
  have hstorage : (s.step (.setEnabled enabled) busy).1.storage = s.storage.change _ :=
    storage_setEnabled s busy enabled
  have hsettings := congrArg Storage.settings hstorage
  rw [Storage.settings_change] at hsettings
  exact congrArg Settings.enabled hsettings

/-- **What is registered does what the guard does, as long as no other encoding is chosen.** -/
theorem encoding_in_effect (hstart : ∀ phase, start.host.pipeline.processors phase = [])
    (hout : start.guard.deployment.registration? = none) (h : start.Switched pairs s)
    {r : Registration} (hr : s.guard.deployment.registration? = some r)
    (hon : s.guard.settings.enabled = true) :
    ∃ e, pairs r e ∧
      -- what the remembered processors do
      (∀ phase, ∀ p ∈ s.host.pipeline.processors phase, p.handle = r.handle phase →
        (s.Agrees phase p ↔ s.guard.deployment.encoding = e)) ∧
      -- steps that keep the pair
      (∀ action busy, (s.step action busy).1.guard.deployment.registration? = some r →
        (∀ encoding, action ≠ .useEncoding encoding) →
        (s.step action busy).1.guard.deployment.encoding = s.guard.deployment.encoding) ∧
      (∀ encoding busy,
        (s.step (.useEncoding encoding) busy).1.guard.deployment.registration? = some r ∧
          (s.step (.useEncoding encoding) busy).1.guard.deployment.encoding = encoding) ∧
      -- another pair
      (∀ hook, s.guard.deployment = .hook hook → hook.connected = true →
        let again := ((s.step (.setEnabled false) none).1.step (.setEnabled true) none).1
        ∃ r', again.guard.deployment.registration? = some r' ∧
          ∀ phase, ∀ p ∈ again.host.pipeline.processors phase, p.handle = r'.handle phase →
            again.Agrees phase p) := by
  obtain ⟨e, hpair⟩ := remembered_switched hout h hr
  refine ⟨e, hpair, ?_, ?_, ?_, ?_⟩
  · intro phase p hp hhandle
    rw [agrees_iff hon, (paired_switched hstart h).encoding r e hpair phase p hp hhandle]
    exact eq_comm
  · intro action busy hstill haction
    exact encoding_step hstill haction
  · intro encoding busy
    rw [deployment_useEncoding]
    cases hdeployment : s.guard.deployment with
    | watch watch =>
      rw [hdeployment] at hr
      cases hr
    | hook hook =>
      rw [hdeployment] at hr
      exact ⟨hr, rfl⟩
  · intro hook hdeployment hc again
    obtain ⟨r', hregisters, hencoding⟩ := registers_again hdeployment hc
    refine ⟨r', hregisters.registered, fun phase p hp hhandle => ?_⟩
    have hpaired := paired_switched hstart
      ((h.step (.setEnabled false) none).step (.setEnabled true) none)
    rw [agrees_iff (enabled_setEnabled _ true none), hencoding]
    exact hpaired.encoding r' hook.encoding (.inr hregisters) phase p hp hhandle

/-- A pair that was registered with the marker; backslashes are chosen; and the pair is registered
again. -/
theorem encoding_in_effect_turned :
    let on := ((({} : Session).step (.useHook true) none).1.step .startup none).1
    let turned := (on.step (.useEncoding .backslash) none).1
    let again := ((turned.step (.setEnabled false) none).1.step (.setEnabled true) none).1
    turned.guard.deployment.encoding = .backslash ∧
      (∃ p ∈ turned.host.pipeline.pre, ¬ turned.Agrees .pre p) ∧
      (∃ p ∈ turned.host.pipeline.post, ¬ turned.Agrees .post p) ∧
      ∃ r, again.guard.deployment.registration? = some r ∧
        ∀ phase, ∀ p ∈ again.host.pipeline.processors phase, p.handle = r.handle phase →
          again.Agrees phase p := by
  intro on turned again
  have hstart : ∀ phase, ({} : Session).host.pipeline.processors phase = [] := fun phase => by
    cases phase <;> rfl
  have hturned : ({} : Session).Switched _ turned :=
    .step (.useEncoding .backslash) none
      (.step .startup none (.step (.useHook true) none .start))
  obtain ⟨e, hpair, hagrees, -, -, hagain⟩ :=
    @encoding_in_effect _ _ _ hstart rfl hturned ⟨1, 2⟩ rfl rfl
  have he : e = .marker := by
    obtain ((hnone | hhook) | hon) | hchosen := hpair
    · exact hnone.elim
    · exact absurd hhook.registered (by decide)
    · exact hon.inUse.symm
    · exact absurd hchosen.unregistered (by decide)
  subst he
  refine ⟨rfl, ⟨_, List.mem_singleton_self _, fun h => ?_⟩,
    ⟨_, List.mem_singleton_self _, fun h => ?_⟩,
    hagain ⟨true, .backslash, some ⟨1, 2⟩⟩ rfl rfl⟩
  · exact absurd ((hagrees .pre _ (List.mem_singleton_self _) rfl).mp h) (by decide)
  · exact absurd ((hagrees .post _ (List.mem_singleton_self _) rfl).mp h) (by decide)

/-- The encoding that is reported need not be the one that the registered processors work with. -/
theorem encoding_not_in_effect :
    ¬ ∀ s, Session.Reaches (fun _ => True) {} s → s.guard.settings.enabled = true →
      ∀ r, s.guard.deployment.registration? = some r →
        ∀ phase, ∀ p ∈ s.host.pipeline.processors phase, p.handle = r.handle phase →
          s.Agrees phase p := by
  intro h
  have hrun : Session.Reaches (fun _ => True) {} _ :=
    .step (.useEncoding .backslash) none (.step .startup none (.step (.useHook true) none .start
      trivial) trivial) trivial
  have hagrees := h _ hrun rfl ⟨1, 2⟩ rfl .pre _ (List.mem_singleton_self _) rfl
  exact absurd ((agrees_iff rfl .pre _).mp hagrees) (by decide)

end Session

end PipeGuard
