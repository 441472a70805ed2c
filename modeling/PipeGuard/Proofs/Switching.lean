import PipeGuard.Proofs.Registration
import PipeGuard.Proofs.Watching

/-! The switch, and what was put into the host before it was thrown.

Processors and handlers stay in the host for as long as it keeps them: the pipeline may be
busy when they are to be taken out, and a guard that is deployed anew forgets the handles
of its last hook. None of them carries settings of its own, so that does not matter to the
switch (`runAll_disabled`, `host_handle_disabled`). What a processor does carry is an
encoding, which is the one that was in use when its pair was registered (`Paired`).

`switch_obeyed`: whatever was deployed before, a guard that is switched off changes no
text and no chat; and the two processors of a pair work with one encoding, whatever was
chosen since. -/
namespace PipeGuard

/-! ### Switched off -/

section
variable {settings : Settings} (h : settings.enabled = false)
include h

theorem escape_disabled (encoding : Encoding) (text : List Char) :
    escape encoding settings text = .untouched text := by
  rw [escape, h, if_neg Bool.false_ne_true]

theorem restore_disabled (encoding : Encoding) (text : List Char) :
    restore encoding settings text = .untouched text := by
  unfold restore
  rw [h, if_neg Bool.false_ne_true]

/-- No processor does anything to a text. -/
theorem runAll_disabled (phase : Phase) (processors : List Processor) (text : List Char) :
    runAll settings phase processors text = (text, []) := by
  induction processors with
  | nil => rfl
  | cons processor rest ih =>
    have hrun : processor.run settings phase text = .untouched text := by
      cases phase with
      | pre => exact escape_disabled h processor.encoding text
      | post => exact restore_disabled h processor.encoding text
    rw [runAll, hrun]
    simp only [Outcome.untouched, ih, List.nil_append]

end

namespace Session

section
variable {s : Session} (h : s.guard.settings.enabled = false)
include h

/-- A handler changes nothing in the host. -/
theorem host_handle_disabled (busy : Option Part) (event : Event) :
    (s.handle busy event).1.host = s.host := by
  have hnot : ¬ s.Attentive busy := fun hattentive => by
    rw [hattentive.1] at h
    cases h
  rw [host_handle, if_neg hnot]

theorem settings_handle (busy : Option Part) (event : Event) :
    (s.handle busy event).1.guard.settings = s.guard.settings := by
  unfold handle
  rw [if_pos h]
  rfl

/-- Nor do all of them. -/
theorem host_fire_disabled (event : Event) (busy : Option Part) :
    (s.step (.fire event) busy).1.host = s.host := by
  show ((s.host.subscriptions.filter (· = event)).foldl
    (fun s event => (s.handle busy event).1) s).host = s.host
  generalize s.host.subscriptions.filter (· = event) = events
  induction events generalizing s with
  | nil => rfl
  | cons first events ih =>
    have hstill : (s.handle busy first).1.guard.settings.enabled = false := by
      rw [settings_handle h, h]
    exact (ih hstill).trans (host_handle_disabled h busy first)

theorem onEvent_disabled (event : Event) (busy : Option Part) :
    (s.step (.onEvent event) busy).2 = .reported none ∧
      (s.step (.onEvent event) busy).1.host = s.host := by
  have hanswer : (s.handle busy event).2 = none := by
    unfold handle
    rw [if_pos h]
  have hhost := host_handle_disabled h busy event
  unfold step
  cases s.guard.deployment with
  | hook hook => exact ⟨rfl, rfl⟩
  | watch watch =>
    refine ⟨?_, hhost⟩
    show Answer.reported (s.handle busy event).2 = _
    rw [hanswer]

end

end Session

/-! ### Pairs -/

/-- The remembered handles, if there are any. -/
def Deployment.registration? : Deployment → Option Registration
  | hook h => h.registration
  | watch _ => none

namespace Pipeline

/-- Nothing was added, and no handle will be given out again. -/
structure Thinned (before after : Pipeline) : Prop where
  issued : before.issued ≤ after.issued
  processors (phase : Phase) : (after.processors phase).Sublist (before.processors phase)

theorem thinned_self (pipeline : Pipeline) : pipeline.Thinned pipeline :=
  ⟨Nat.le_refl _, fun _ => List.Sublist.refl _⟩

theorem thinned_forget (pipeline : Pipeline) (phase : Phase) :
    pipeline.Thinned (pipeline.forget phase) := by
  refine ⟨Nat.le_of_eq (issued_set pipeline phase []).symm, fun other => ?_⟩
  unfold forget
  rw [processors_set]
  split
  · exact List.nil_sublist _
  · exact List.Sublist.refl _

/-- Every processor belongs to a pair that was registered, and works with the encoding of it. -/
structure Paired (pairs : Registration → Encoding → Prop) (pipeline : Pipeline) : Prop where
  issued : ∀ r e, pairs r e → ∀ phase, r.handle phase ≤ pipeline.issued
  encoding : ∀ r e, pairs r e → ∀ phase, ∀ p ∈ pipeline.processors phase,
    p.handle = r.handle phase → p.encoding = e
  known : ∀ phase, ∀ p ∈ pipeline.processors phase, ∃ r e, pairs r e ∧ p.handle = r.handle phase

section
variable {pairs : Registration → Encoding → Prop} {pipeline pipeline' : Pipeline}

theorem Paired.thinned (h : pipeline.Paired pairs) (hthin : pipeline.Thinned pipeline') :
    pipeline'.Paired pairs where
  issued r e hpair phase := Nat.le_trans (h.issued r e hpair phase) hthin.issued
  encoding r e hpair phase p hp := h.encoding r e hpair phase p ((hthin.processors phase).subset hp)
  known phase p hp := h.known phase p ((hthin.processors phase).subset hp)

theorem issued_lt_fresh (pipeline : Pipeline) (phase : Phase) :
    pipeline.issued < (Hook.fresh pipeline).handle phase ∧
      (Hook.fresh pipeline).handle phase ≤ pipeline.issued + 2 := by
  cases phase <;> simp only [Hook.fresh, Registration.handle] <;> omega

/-- A pair that is added has handles that no pair had before. -/
theorem Paired.registered (h : pipeline.Paired pairs) (hook : Hook)
    (hissued : pipeline'.issued = pipeline.issued + 2)
    (hprocessors : ∀ phase, pipeline'.processors phase =
      pipeline.processors phase ++ [hook.processor (Hook.fresh pipeline) phase]) :
    pipeline'.Paired fun r e => pairs r e ∨ r = Hook.fresh pipeline ∧ e = hook.encoding := by
  have hold : ∀ phase, ∀ p ∈ pipeline.processors phase, p.handle ≤ pipeline.issued := by
    intro phase p hp
    obtain ⟨r, e, hpair, hhandle⟩ := h.known phase p hp
    rw [hhandle]
    exact h.issued r e hpair phase
  constructor
  case issued =>
    rintro r e (hpair | ⟨rfl, rfl⟩) phase
    · have := h.issued r e hpair phase
      omega
    · rw [hissued]
      exact (issued_lt_fresh pipeline phase).2
  case encoding =>
    rintro r e hpair phase p hp hhandle
    rw [hprocessors, List.mem_append, List.mem_singleton] at hp
    have hfresh := (issued_lt_fresh pipeline phase).1
    rcases hp with hp | rfl <;> rcases hpair with hpair | ⟨rfl, rfl⟩
    · exact h.encoding r e hpair phase p hp hhandle
    · have := hold phase p hp
      omega
    · have hhandle : (Hook.fresh pipeline).handle phase = r.handle phase := hhandle
      have := h.issued r e hpair phase
      omega
    · rfl
  case known =>
    intro phase p hp
    rw [hprocessors, List.mem_append, List.mem_singleton] at hp
    rcases hp with hp | rfl
    · obtain ⟨r, e, hpair, hhandle⟩ := h.known phase p hp
      exact ⟨r, e, .inl hpair, hhandle⟩
    · exact ⟨_, _, .inr ⟨rfl, rfl⟩, rfl⟩

end

end Pipeline

/-- What may become of the placement in one step: a hook registers a pair, or nothing is added. -/
inductive Placement.Moves (p p' : Placement) : Prop
  | registers (hook : Hook) : p.deployment = .hook hook → hook.registration = none →
    p'.deployment = .hook { hook with registration := some (Hook.fresh p.pipeline) } →
    p'.pipeline.issued = p.pipeline.issued + 2 →
    (∀ phase, p'.pipeline.processors phase =
      p.pipeline.processors phase ++ [hook.processor (Hook.fresh p.pipeline) phase]) →
    Moves p p'
  | thins : (∀ r, p'.deployment.registration? = some r → p.deployment.registration? = some r) →
    p.pipeline.Thinned p'.pipeline → Moves p p'

namespace Placement

theorem moves_self (p : Placement) : p.Moves p := .thins (fun _ hr => hr) p.pipeline.thinned_self

/-- Installing registers the pair of a hook, subscribes a watch, or does nothing. -/
theorem install_cases (p : Placement) (busy : Option Part) :
    p.install busy = p ∨
      (∃ hook, p.deployment = .hook hook ∧ hook.connected = true ∧ hook.registration = none ∧
        p.install busy =
          { p with
            deployment := .hook (hook.register true p.pipeline).hook
            pipeline := (hook.register true p.pipeline).pipeline }) ∨
      ∃ watch, p.deployment = .watch watch ∧ watch.attached = false ∧
        p.install busy =
          { p with
            deployment := .watch { watch with attached := true }
            subscriptions := p.subscriptions ++ Event.all } := by
  cases hdeployment : p.deployment with
  | hook hook =>
    by_cases hreached : hook.Reaches busy
    · obtain ⟨hconnected, hbusy⟩ := hreached
      have hinstall := install_hook hdeployment busy
      cases hr : hook.registration with
      | some r =>
        obtain ⟨hhook, hpipeline⟩ := @Hook.register_again hook p.pipeline
          (decide (busy ≠ some .pipeline)) r hr
        rw [hhook, hpipeline, ← hdeployment] at hinstall
        exact .inl hinstall
      | none =>
        rw [decide_eq_true hbusy] at hinstall
        exact .inr (.inl ⟨hook, rfl, hconnected, hr, hinstall⟩)
    · exact .inl (install_unreached hdeployment hreached)
  | watch watch =>
    have hinstall := install_watch hdeployment busy
    obtain ⟨hwatch, hsame⟩ | ⟨hnot, hwatch, hadded⟩ :=
      watch.attach_cases (decide (busy ≠ some .bus)) p.subscriptions
    · rw [hwatch, hsame, ← hdeployment] at hinstall
      exact .inl hinstall
    · rw [hwatch, hadded] at hinstall
      exact .inr (.inr ⟨watch, rfl, hnot, hinstall⟩)

/-- Uninstalling takes out the pair of a hook, or does nothing. -/
theorem uninstall_cases (p : Placement) (busy : Option Part) :
    p.uninstall busy = p ∨
      ∃ hook r, p.deployment = .hook hook ∧ hook.connected = true ∧ hook.registration = some r ∧
        p.uninstall busy =
          { p with
            deployment := .hook (hook.unregister true p.pipeline).hook
            pipeline := (hook.unregister true p.pipeline).pipeline } := by
  cases hdeployment : p.deployment with
  | hook hook =>
    by_cases hreached : hook.Reaches busy
    · obtain ⟨hconnected, hbusy⟩ := hreached
      have huninstall := uninstall_hook hdeployment busy
      cases hr : hook.registration with
      | none =>
        obtain ⟨hhook, hpipeline⟩ := @Hook.unregister_again hook p.pipeline
          (decide (busy ≠ some .pipeline)) hr
        rw [hhook, hpipeline, ← hdeployment] at huninstall
        exact .inl huninstall
      | some r =>
        rw [decide_eq_true hbusy] at huninstall
        exact .inr ⟨hook, r, rfl, hconnected, hr, huninstall⟩
    · exact .inl (uninstall_unreached hdeployment hreached)
  | watch watch =>
    refine .inl ?_
    unfold uninstall
    rw [hdeployment]

theorem moves_install (p : Placement) (busy : Option Part) : p.Moves (p.install busy) := by
  obtain hsame | ⟨hook, hdeployment, hc, hn, hinstall⟩ | ⟨watch, -, -, hinstall⟩ :=
    p.install_cases busy
  · rw [hsame]
    exact p.moves_self
  · obtain ⟨hhook, hissued, hprocessors⟩ := hook.register_free p.pipeline hc hn
    rw [hinstall]
    exact .registers hook hdeployment hn (congrArg Deployment.hook hhook) hissued hprocessors
  · rw [hinstall]
    exact .thins (fun _ hr => nomatch hr) p.pipeline.thinned_self

theorem moves_uninstall (p : Placement) (busy : Option Part) : p.Moves (p.uninstall busy) := by
  obtain hsame | ⟨hook, r, -, hc, hr, huninstall⟩ := p.uninstall_cases busy
  · rw [hsame]
    exact p.moves_self
  · obtain ⟨-, hissued, hprocessors⟩ := hook.unregister_free p.pipeline hc hr
    rw [huninstall]
    refine .thins (fun r' hr' => ?_) ⟨Nat.le_of_eq hissued.symm, fun phase => ?_⟩
    · exact absurd ((hook.registration_unregister p.pipeline hc).symm.trans hr') (by simp)
    · show ((hook.unregister true p.pipeline).pipeline.processors phase).Sublist _
      rw [hprocessors]
      exact List.filter_sublist

end Placement

namespace Session

theorem step_moves (s : Session) (action : Action) (busy : Option Part) :
    s.placement.Moves (s.step action busy).1.placement := by
  by_cases hrunning : action.Running
  · obtain hsame | hinstall | huninstall := step_placement s busy hrunning
    · rw [hsame]
      exact s.placement.moves_self
    · rw [hinstall]
      exact s.placement.moves_install busy
    · rw [huninstall]
      exact s.placement.moves_uninstall busy
  · cases action with
    | useEncoding encoding =>
      rw [placement_useEncoding]
      refine .thins (fun r hr => ?_) s.placement.pipeline.thinned_self
      rw [← hr]
      cases s.placement.deployment <;> rfl
    | useHook connected => exact .thins (fun _ hr => nomatch hr) s.placement.pipeline.thinned_self
    | useWatch connected => exact .thins (fun _ hr => nomatch hr) s.placement.pipeline.thinned_self
    | forget phase => exact .thins (fun _ hr => hr) (s.placement.pipeline.thinned_forget phase)
    | _ => exact absurd trivial hrunning

/-! ### Along a run -/

/-- Between two states a pair was registered, while an encoding was in use. -/
structure Registers (before after : Session) (r : Registration) (encoding : Encoding) : Prop where
  unregistered : before.guard.deployment.registration? = none
  registered : after.guard.deployment.registration? = some r
  inUse : before.guard.deployment.encoding = encoding

/-- A session after steps of any kind, and after what the host dropped from its pipeline between
them; with the pairs that were registered on the way and the encodings that were in use then. -/
inductive Switched (start : Session) : (Registration → Encoding → Prop) → Session → Prop
  | start : Switched start (fun _ _ => False) start
  | step {pairs : Registration → Encoding → Prop} {s : Session} (action : Action)
      (busy : Option Part) : Switched start pairs s →
    Switched start (fun r e => pairs r e ∨ s.Registers (s.step action busy).1 r e)
      (s.step action busy).1
  | host {pairs : Registration → Encoding → Prop} {s : Session} (pipeline : Pipeline) :
    Switched start pairs s → s.host.pipeline.Thinned pipeline →
    Switched start pairs (s.tend pipeline)

variable {pairs : Registration → Encoding → Prop} {start s s' : Session}

theorem paired_moves (h : s.host.pipeline.Paired pairs) (hmoves : s.placement.Moves s'.placement) :
    s'.host.pipeline.Paired fun r e => pairs r e ∨ s.Registers s' r e := by
  cases hmoves with
  | registers hook hdeployment hnone hregistered hissued hprocessors =>
    have hbefore : s.guard.deployment = .hook hook := hdeployment
    have hafter : s'.guard.deployment =
        .hook { hook with registration := some (Hook.fresh s.host.pipeline) } := hregistered
    have hregisters : ∀ r e, s.Registers s' r e ↔
        r = Hook.fresh s.host.pipeline ∧ e = hook.encoding := by
      intro r e
      constructor
      · rintro ⟨-, hr, he⟩
        rw [hafter] at hr
        rw [hbefore] at he
        exact ⟨(Option.some.inj hr).symm, he.symm⟩
      · rintro ⟨rfl, rfl⟩
        exact ⟨hbefore ▸ hnone, by rw [hafter]; rfl, by rw [hbefore]; rfl⟩
    simp only [hregisters]
    exact h.registered hook hissued hprocessors
  | thins hkept hthin =>
    have hnone : ∀ r e, ¬ s.Registers s' r e := fun r e hregisters =>
      absurd (hregisters.unregistered.symm.trans (hkept r hregisters.registered)) (by simp)
    simp only [hnone, or_false]
    exact h.thinned hthin

theorem paired_switched (hstart : ∀ phase, start.host.pipeline.processors phase = [])
    (h : start.Switched pairs s) : s.host.pipeline.Paired pairs := by
  induction h with
  | start =>
    refine ⟨fun _ _ hpair => hpair.elim, fun _ _ hpair => hpair.elim, fun phase p hp => ?_⟩
    rw [hstart] at hp
    exact absurd hp List.not_mem_nil
  | step action busy _ ih => exact paired_moves ih (step_moves _ action busy)
  | host pipeline _ hthin ih => exact ih.thinned hthin

/-- **Switched off, nothing is changed by anything that was ever installed; and a pair works with
one encoding.** -/
theorem switch_obeyed (hstart : ∀ phase, start.host.pipeline.processors phase = [])
    (h : start.Switched pairs s) :
    -- switched off
    (s.guard.settings.enabled = false →
      (∀ phase processors text, (runAll s.guard.settings phase processors text).1 = text) ∧
      (∀ text busy, (s.step (.run text) busy).2 = .piped text text) ∧
      (∀ text busy, (s.step (.runPost text) busy).2 = .posted text) ∧
      (∀ event busy, (s.handle busy event).1.host = s.host) ∧
      (∀ event busy, (s.step (.fire event) busy).1.host = s.host) ∧
      (∀ text busy, (s.step (.escape text) busy).2 = .text text false) ∧
      (∀ text busy, (s.step (.restore text) busy).2 = .text text false) ∧
      (∀ chat busy, (s.step (.sweep chat) busy).2 = .swept {} chat) ∧
      (∀ event busy, (s.step (.onEvent event) busy).2 = .reported none ∧
        (s.step (.onEvent event) busy).1.host = s.host)) ∧
    -- the pairs
    (∀ phase, ∀ p ∈ s.host.pipeline.processors phase, ∃ r e, pairs r e ∧
      p.handle = r.handle phase) ∧
    (∀ r e, pairs r e → ∀ p ∈ s.host.pipeline.pre, ∀ q ∈ s.host.pipeline.post,
      p.handle = r.pre → q.handle = r.post →
      p.encoding = e ∧ q.encoding = e ∧
        -- in a host that is left with this pair
        ∀ text busy,
          ((s.tend { s.host.pipeline with pre := [p], post := [q] }).step (.run text) busy).2 =
            .piped (escape e s.guard.settings text).text
              (restore e s.guard.settings (escape e s.guard.settings text).text).text) := by
  have hpaired := paired_switched hstart h
  refine ⟨fun hoff => ⟨?_, ?_, ?_, ?_, ?_, ?_, ?_, ?_, ?_⟩, hpaired.known, ?_⟩
  · intro phase processors text
    rw [runAll_disabled hoff]
  · intro text busy
    show Answer.piped (runAll _ .pre _ text).1 (runAll _ .post _ (runAll _ .pre _ text).1).1 = _
    rw [runAll_disabled hoff, runAll_disabled hoff]
  · intro text busy
    show Answer.posted (runAll _ .post _ text).1 = _
    rw [runAll_disabled hoff]
  · intro event busy
    exact host_handle_disabled hoff busy event
  · exact host_fire_disabled hoff
  · intro text busy
    show Answer.text (escape _ s.guard.settings text).text _ = _
    rw [escape_disabled hoff]
    rfl
  · intro text busy
    show Answer.text (restore _ s.guard.settings text).text _ = _
    rw [restore_disabled hoff]
    rfl
  · intro chat busy
    show Answer.swept (sweep s.guard.settings chat).report (sweep s.guard.settings chat).chat = _
    unfold sweep
    rw [hoff]
    rfl
  · exact onEvent_disabled hoff
  · intro r e hpair p hp q hq hpre hpost
    obtain rfl : p.encoding = e := hpaired.encoding r e hpair .pre p hp hpre
    have hq : q.encoding = p.encoding := hpaired.encoding r _ hpair .post q hq hpost
    refine ⟨rfl, hq, fun text busy => ?_⟩
    show Answer.piped (escape p.encoding _ text).text (restore q.encoding _ _).text = _
    rw [hq]
    rfl

/-- A pair goes on with its encoding when another one is chosen; it is left behind when the guard
is deployed as a watch, and does nothing once the guard is off. -/
theorem switch_obeyed_left :
    let text := "\x7b\x7bsetvar::a::b|c\x7d\x7d".toList
    let on := ((({} : Session).step (.useHook true) none).1.step (.setEnabled true) none).1
    let turned := (on.step (.useEncoding .backslash) none).1
    let off := ((turned.step (.useWatch true) none).1.step (.setEnabled false) none).1
    turned.guard.deployment.encoding = .backslash ∧
      (turned.step (.run text) none).2 =
        .piped (escape .marker turned.guard.settings text).text
          (restore .marker turned.guard.settings
            (escape .marker turned.guard.settings text).text).text ∧
      off.host.pipeline = turned.host.pipeline ∧
      (off.step (.run text) none).2 = .piped text text := by
  intro text on turned off
  have hstart : ∀ phase, ({} : Session).host.pipeline.processors phase = [] := fun phase => by
    cases phase <;> rfl
  have hturned : ({} : Session).Switched _ turned :=
    .step (.useEncoding .backslash) none
      (.step (.setEnabled true) none (.step (.useHook true) none .start))
  have hoff : ({} : Session).Switched _ off :=
    .step (.setEnabled false) none (.step (.useWatch true) none hturned)
  obtain ⟨-, -, hpair⟩ := switch_obeyed hstart hturned
  obtain ⟨hdisabled, -⟩ := switch_obeyed hstart hoff
  obtain ⟨-, hrun, -⟩ := hdisabled rfl
  obtain ⟨-, -, hpiped⟩ := hpair ⟨1, 2⟩ .marker (.inl (.inr ⟨rfl, rfl, rfl⟩))
    _ (List.mem_singleton_self _) _ (List.mem_singleton_self _) rfl rfl
  exact ⟨rfl, hpiped text none, rfl, hrun text none⟩

end Session

end PipeGuard
