import PipeGuard.Proofs.Switching

/-! Deploying a guard anew.

A deployment that is replaced is not taken out of the host first. What it has there is
remembered by the deployment alone, so a guard that is deployed anew can neither remove
its old processors nor tell that it is still subscribed. As long as it is deployed anew
only when nothing of it is in the host (`Careful`), what is there is what the current
deployment remembers (`Sole`), and that is one deployment at most.

`deployed_alone`: along such a run one deployment is live at a time, and the condition
cannot be weakened: once something is left in the host, choosing the other kind of
deployment or switching a new one on makes two of them live (`not_always_alone`). -/
namespace PipeGuard

/-- Subscribed to the events, as far as the deployment knows. -/
def Deployment.subscribed : Deployment → Bool
  | hook _ => false
  | watch w => w.attached

namespace Placement

/-- Nothing of this module is in the host. -/
structure Clear (p : Placement) : Prop where
  processors (phase : Phase) : p.pipeline.own phase = []
  subscriptions : p.subscriptions = []

/-- What this module has in the host is what the deployment remembers. -/
structure Sole (p : Placement) : Prop where
  single (phase : Phase) : (p.pipeline.own phase).length ≤ 1
  remembered (phase : Phase) : ∀ q ∈ p.pipeline.own phase,
    ∃ r, p.deployment.registration? = some r ∧ q.handle = r.handle phase
  subscriptions : p.subscriptions = if p.deployment.subscribed then Event.all else []

variable {p : Placement}

theorem Clear.sole (h : p.Clear) (hsubscribed : p.deployment.subscribed = false) : p.Sole where
  single phase := by
    rw [h.processors]
    exact Nat.zero_le 1
  remembered phase q hq := by
    rw [h.processors] at hq
    exact absurd hq List.not_mem_nil
  subscriptions := by
    rw [hsubscribed]
    exact h.subscriptions

namespace Sole

/-- Where no handles are remembered there are no processors. -/
theorem unregistered (h : p.Sole) (hnone : p.deployment.registration? = none) (phase : Phase) :
    p.pipeline.own phase = [] := by
  refine List.eq_nil_iff_forall_not_mem.mpr fun q hq => ?_
  obtain ⟨r, hr, -⟩ := h.remembered phase q hq
  rw [hnone] at hr
  cases hr

theorem clear (h : p.Sole) (hout : p.deployment.isInstalled = false) : p.Clear := by
  cases hdeployment : p.deployment with
  | hook hook =>
    rw [hdeployment] at hout
    refine ⟨h.unregistered ?_, ?_⟩
    · rw [hdeployment]
      exact Option.isNone_iff_eq_none.mp (Option.isSome_eq_false_iff.mp hout)
    · rw [h.subscriptions, hdeployment]
      rfl
  | watch watch =>
    rw [hdeployment] at hout
    refine ⟨h.unregistered ?_, ?_⟩
    · rw [hdeployment]
      rfl
    · rw [h.subscriptions, hdeployment]
      exact if_neg (Bool.not_eq_true _ ▸ hout)

/-- The host may drop what it likes. -/
theorem tended (h : p.Sole) {pipeline : Pipeline} (ht : p.pipeline.Tended pipeline) :
    { p with pipeline }.Sole where
  single phase := Nat.le_trans (ht.own phase).length_le (h.single phase)
  remembered phase q hq := h.remembered phase q ((ht.own phase).subset hq)
  subscriptions := h.subscriptions

theorem useEncoding (h : p.Sole) (encoding : Encoding) :
    { p with deployment := p.deployment.useEncoding encoding }.Sole where
  single := h.single
  remembered phase q hq := by
    obtain ⟨r, hr, hhandle⟩ := h.remembered phase q hq
    refine ⟨r, ?_, hhandle⟩
    rw [← hr]
    cases p.deployment <;> rfl
  subscriptions := by
    rw [h.subscriptions]
    cases p.deployment <;> rfl

/-- A pair is added to a pipeline that holds none. -/
theorem registered (h : p.Sole) {hook : Hook} (hdeployment : p.deployment = .hook hook)
    (hc : hook.connected = true) (hn : hook.registration = none) :
    { p with
      deployment := .hook (hook.register true p.pipeline).hook
      pipeline := (hook.register true p.pipeline).pipeline }.Sole := by
  obtain ⟨hhook, -, -⟩ := hook.register_free p.pipeline hc hn
  -- no handles are remembered, so there is nothing that the pair would come on top of
  have hempty := h.unregistered (by rw [hdeployment]; exact hn)
  have hown : ∀ phase, (hook.register true p.pipeline).pipeline.own phase =
      [hook.processor (Hook.fresh p.pipeline) phase] := by
    intro phase
    rw [hook.own_register p.pipeline hc hn, hempty, List.nil_append]
  constructor
  case single =>
    intro phase
    rw [hown]
    exact Nat.le_refl 1
  case remembered =>
    intro phase q hq
    rw [hown, List.mem_singleton] at hq
    refine ⟨Hook.fresh p.pipeline, ?_, by rw [hq]; rfl⟩
    rw [hhook]
    rfl
  case subscriptions =>
    have hsubscriptions := h.subscriptions
    rw [hdeployment] at hsubscriptions
    exact hsubscriptions

/-- All that is there is of the remembered pair, and goes with it. -/
theorem removed (h : p.Sole) {hook : Hook} (hdeployment : p.deployment = .hook hook)
    (hc : hook.connected = true) {r : Registration} (hr : hook.registration = some r) :
    { p with
      deployment := .hook (hook.unregister true p.pipeline).hook
      pipeline := (hook.unregister true p.pipeline).pipeline }.Sole := by
  refine Clear.sole ⟨fun phase => ?_, ?_⟩ rfl
  · show (hook.unregister true p.pipeline).pipeline.own phase = []
    rw [hook.own_unregister p.pipeline hc hr, List.filter_eq_nil_iff]
    intro q hq hother
    obtain ⟨r', hr', hhandle⟩ := h.remembered phase q hq
    rw [hdeployment] at hr'
    obtain rfl : r = r' := Option.some.inj (hr.symm.trans hr')
    exact of_decide_eq_true hother hhandle
  · have hsubscriptions := h.subscriptions
    rw [hdeployment] at hsubscriptions
    exact hsubscriptions

/-- All events are subscribed to where none was. -/
theorem subscribed (h : p.Sole) {watch : Watch} (hdeployment : p.deployment = .watch watch)
    (hnot : watch.attached = false) :
    { p with
      deployment := .watch { watch with attached := true }
      subscriptions := p.subscriptions ++ Event.all }.Sole where
  single := h.single
  remembered phase q hq := by
    have hempty := h.unregistered (by rw [hdeployment]; rfl) phase
    rw [show p.pipeline.own phase = [] from hempty] at hq
    exact absurd hq List.not_mem_nil
  subscriptions := by
    have hsubscriptions := h.subscriptions
    rw [hdeployment, show (Deployment.watch watch).subscribed = false from hnot] at hsubscriptions
    show p.subscriptions ++ Event.all = Event.all
    rw [hsubscriptions]
    rfl

theorem install (h : p.Sole) (busy : Option Part) : (p.install busy).Sole := by
  obtain hsame | ⟨hook, hdeployment, hc, hn, hinstall⟩ | ⟨watch, hdeployment, hnot, hinstall⟩ :=
    p.install_cases busy
  · rw [hsame]
    exact h
  · rw [hinstall]
    exact h.registered hdeployment hc hn
  · rw [hinstall]
    exact h.subscribed hdeployment hnot

theorem uninstall (h : p.Sole) (busy : Option Part) : (p.uninstall busy).Sole := by
  obtain hsame | ⟨hook, r, hdeployment, hc, hr, huninstall⟩ := p.uninstall_cases busy
  · rw [hsame]
    exact h
  · rw [huninstall]
    exact h.removed hdeployment hc hr

end Sole

/-- One deployment is live at most, and it is the current one. -/
structure OneLive (p : Placement) : Prop where
  single (phase : Phase) : (p.pipeline.own phase).length ≤ 1
  unhooked : ∀ watch, p.deployment = .watch watch → ∀ phase, p.pipeline.own phase = []
  subscriptions : p.subscriptions = [] ∨ p.subscriptions = Event.all
  unwatched : ∀ hook, p.deployment = .hook hook → p.subscriptions = []

theorem Sole.oneLive (h : p.Sole) : p.OneLive where
  single := h.single
  unhooked watch hwatch := h.unregistered (by rw [hwatch]; rfl)
  subscriptions := by
    rw [h.subscriptions]
    split
    · exact .inr rfl
    · exact .inl rfl
  unwatched hook hhook := by
    rw [h.subscriptions, hhook]
    rfl

/-! ### What a new deployment finds -/

section
variable {deployment : Deployment}

theorem Clear.deployed (h : p.Clear) (hsubscribed : deployment.subscribed = false) :
    { p with deployment }.Sole :=
  Clear.sole ⟨h.processors, h.subscriptions⟩ hsubscribed

/-- A new hook adds a pair to whatever is there. -/
theorem oneLive_new_hook (p : Placement) (encoding : Encoding) :
    ({ p with deployment := .hook ⟨true, encoding, none⟩ }.install none).OneLive ↔ p.Clear := by
  constructor
  · rw [install_hook rfl]
    intro h
    refine ⟨fun phase => ?_, h.unwatched _ rfl⟩
    have hsingle : (((⟨true, encoding, none⟩ : Hook).register true p.pipeline).pipeline.own
      phase).length ≤ 1 := h.single phase
    rw [Hook.own_register _ _ rfl rfl, List.length_append, List.length_singleton] at hsingle
    exact List.length_eq_zero_iff.mp (Nat.le_zero.mp (Nat.le_of_succ_le_succ hsingle))
  · exact fun h => ((h.deployed rfl).install none).oneLive

/-- A new watch adds its subscriptions to whatever is there. -/
theorem oneLive_new_watch (p : Placement) :
    ({ p with deployment := .watch ⟨true, false⟩ }.install none).OneLive ↔ p.Clear := by
  constructor
  · rw [install_watch rfl]
    intro h
    refine ⟨h.unhooked _ rfl, ?_⟩
    have hsubscriptions : p.subscriptions ++ Event.all = [] ∨
      p.subscriptions ++ Event.all = Event.all := h.subscriptions
    obtain hnone | hall := hsubscriptions
    · exact (List.append_eq_nil_iff.mp hnone).1
    · exact List.append_left_eq_self.mp hall
  · exact fun h => ((h.deployed rfl).install none).oneLive

/-- The old deployment is replaced, not taken out. -/
theorem OneLive.hooked_iff (h : p.OneLive) (hook : Hook) :
    { p with deployment := .hook hook }.OneLive ↔ p.subscriptions = [] :=
  ⟨fun hnew => hnew.unwatched hook rfl,
    fun hnone => ⟨h.single, fun _ hwatch => (nomatch hwatch), h.subscriptions, fun _ _ => hnone⟩⟩

theorem OneLive.watched_iff (h : p.OneLive) (watch : Watch) :
    { p with deployment := .watch watch }.OneLive ↔ ∀ phase, p.pipeline.own phase = [] :=
  ⟨fun hnew => hnew.unhooked watch rfl,
    fun hempty => ⟨h.single, fun _ _ => hempty, h.subscriptions, fun _ hhook => nomatch hhook⟩⟩

end

end Placement

namespace Session

/-- A session after steps of any kind, and after what the host did to its pipeline between them,
where the guard is deployed anew only when nothing of it is in the host. -/
inductive Careful (start : Session) : Session → Prop
  | start : Careful start start
  | step {s : Session} (action : Action) (busy : Option Part) :
    Careful start s → action.Staying ∨ s.placement.Clear →
    Careful start (s.step action busy).1
  | host {s : Session} (pipeline : Pipeline) :
    Careful start s → s.host.pipeline.Tended pipeline → Careful start (s.tend pipeline)

variable {start s : Session}

theorem sole_step (h : s.placement.Sole) {action : Action}
    (haction : action.Staying ∨ s.placement.Clear) (busy : Option Part) :
    (s.step action busy).1.placement.Sole := by
  by_cases hrunning : action.Running
  · obtain hsame | hinstall | huninstall := step_placement s busy hrunning
    · rw [hsame]
      exact h
    · rw [hinstall]
      exact h.install busy
    · rw [huninstall]
      exact h.uninstall busy
  · cases action with
    | useHook connected => exact (haction.resolve_left id).deployed rfl
    | useWatch connected => exact (haction.resolve_left id).deployed rfl
    | useEncoding encoding =>
      rw [placement_useEncoding]
      exact h.useEncoding encoding
    | forget phase => exact h.tended (s.host.pipeline.tended_forget phase)
    | _ => exact absurd trivial hrunning

theorem sole_careful (hstart : start.placement.Sole) (h : start.Careful s) :
    s.placement.Sole := by
  induction h with
  | start => exact hstart
  | step action busy _ haction ih => exact sole_step ih haction busy
  | host pipeline _ htended ih => exact ih.tended htended

/-- **One deployment is live at a time, as long as no live one is replaced.** -/
theorem deployed_alone (hclear : start.placement.Clear)
    (hout : start.guard.deployment.isInstalled = false) (h : start.Careful s) :
    s.placement.OneLive ∧
    -- what is not installed has left nothing behind, and may be replaced
    (s.guard.deployment.isInstalled = false → s.placement.Clear) ∧
    -- a live one that is replaced by one of the other kind
    (∀ connected busy, (s.step (.useHook connected) busy).1.placement.OneLive ↔
      s.host.subscriptions = []) ∧
    (∀ connected busy, (s.step (.useWatch connected) busy).1.placement.OneLive ↔
      ∀ phase, s.host.pipeline.own phase = []) ∧
    -- by one of any kind that is then switched on
    (∀ busy, ((s.step (.useHook true) busy).1.step (.setEnabled true) none).1.placement.OneLive ↔
      s.placement.Clear) ∧
    (∀ busy, ((s.step (.useWatch true) busy).1.step (.setEnabled true) none).1.placement.OneLive ↔
      s.placement.Clear) := by
  have hsubscribed : start.placement.deployment.subscribed = false := by
    show start.guard.deployment.subscribed = false
    cases hdeployment : start.guard.deployment with
    | hook hook => rfl
    | watch watch =>
      rw [hdeployment] at hout
      exact hout
  have hsole := sole_careful (hclear.sole hsubscribed) h
  refine ⟨hsole.oneLive, hsole.clear, ?_, ?_, ?_, ?_⟩
  · intro connected busy
    exact hsole.oneLive.hooked_iff ⟨connected, s.guard.encoding, none⟩
  · intro connected busy
    exact hsole.oneLive.watched_iff ⟨connected, false⟩
  · intro busy
    show (((s.step (.useHook true) busy).1).setEnabled none true).placement.OneLive ↔ _
    rw [placement_enable]
    exact s.placement.oneLive_new_hook s.guard.encoding
  · intro busy
    show (((s.step (.useWatch true) busy).1).setEnabled none true).placement.OneLive ↔ _
    rw [placement_enable]
    exact s.placement.oneLive_new_watch

/-- A hook is switched off while the pipeline is busy, and taken out when it is free again. Then a
watch takes its place, and a hook that were to take the place of the watch would not be alone. -/
theorem deployed_alone_turns :
    let on := ((({} : Session).step (.useHook true) none).1.step .startup none).1
    let late := (on.step (.setEnabled false) (some .pipeline)).1
    let off := (late.step (.setEnabled false) none).1
    let s := ((off.step (.useWatch true) none).1.step (.setEnabled true) none).1
    ¬ late.placement.Clear ∧ off.placement.Clear ∧ s.placement.OneLive ∧
      s.host.subscriptions = Event.all ∧
      ¬ (s.step (.useHook true) none).1.placement.OneLive := by
  intro on late off s
  have hclear : ({} : Session).placement.Clear := ⟨fun phase => by cases phase <;> rfl, rfl⟩
  have hoff : ({} : Session).Careful off :=
    .step _ none (.step _ (some .pipeline) (.step _ none (.step _ none .start (.inr hclear))
      (.inl trivial)) (.inl trivial)) (.inl trivial)
  obtain ⟨-, hfree, -⟩ := deployed_alone hclear rfl hoff
  have hs : ({} : Session).Careful s :=
    .step _ none (.step _ none hoff (.inr (hfree rfl))) (.inl trivial)
  obtain ⟨halone, -, hhook, -⟩ := deployed_alone hclear rfl hs
  refine ⟨fun hlate => ?_, hfree rfl, halone, rfl, fun hboth => ?_⟩
  · exact absurd (hlate.processors .pre) (by decide)
  · exact absurd ((hhook true none).mp hboth) (by decide)

/-- A hook that is live stays so when a watch is chosen. -/
theorem not_always_alone :
    ¬ ∀ s, Session.Reaches (fun _ => True) {} s → s.placement.OneLive := by
  intro h
  have hrun : Session.Reaches (fun _ => True) {} _ :=
    .step (.useWatch true) none (.step .startup none (.step (.useHook true) none .start trivial)
      trivial) trivial
  exact absurd ((h _ hrun).unhooked _ rfl .pre) (by decide)

end Session

end PipeGuard
