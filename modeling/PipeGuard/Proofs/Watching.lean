import PipeGuard.Proofs.Steps
import PipeGuard.Proofs.Sweeping

/-! A watch over the events of a chat.

A watch subscribes to all events or to none, and never twice: the attempt can fail, and
is made again whenever the guard is switched on or started. Nothing takes a subscription
back, so a guard that is switched off still hears of every event, and it is the handler
that looks at the settings, and at the chat as it is by then (`chat_handle`).

`watch_fired`: whatever happens, there is one subscription to every event or there is
none; a fired event escapes the chat that is loaded if it can be got at and the guard is
on, and leaves it alone otherwise; and a chat that was escaped is left alone for good. -/
namespace PipeGuard

/-- Leaves the guard deployed as it is. -/
def Action.Staying : Action → Prop
  | .useHook _ | .useWatch _ => False
  | _ => True

/-! ### Subscriptions -/

/-- Attaching does nothing, or subscribes a watch that was not attached to every event. -/
theorem Watch.attach_cases (watch : Watch) (free : Bool) (subscriptions : List Event) :
    ((watch.attach free subscriptions).watch = watch ∧
        (watch.attach free subscriptions).subscriptions = subscriptions) ∨
      watch.attached = false ∧
        (watch.attach free subscriptions).watch = { watch with attached := true } ∧
        (watch.attach free subscriptions).subscriptions = subscriptions ++ Event.all := by
  unfold attach
  split
  · exact .inl ⟨rfl, rfl⟩
  · exact .inl ⟨rfl, rfl⟩
  · exact .inl ⟨rfl, rfl⟩
  · case _ hattached _ => exact .inr ⟨hattached, rfl, rfl⟩

namespace Placement

/-- A watch, subscribed to every event or to none. -/
structure Watching (connected attached : Bool) (p : Placement) : Prop where
  deployment : p.deployment = .watch ⟨connected, attached⟩
  subscriptions : p.subscriptions = if attached then Event.all else []

variable {connected attached : Bool} {p : Placement}

theorem install_watch {watch : Watch} (h : p.deployment = .watch watch) (busy : Option Part) :
    p.install busy =
      { p with
        deployment := .watch (watch.attach (busy ≠ some .bus) p.subscriptions).watch
        subscriptions := (watch.attach (busy ≠ some .bus) p.subscriptions).subscriptions } := by
  unfold install
  rw [h]

/-- Subscribing is done once, and not undone. -/
theorem Watching.install (h : p.Watching connected attached) (busy : Option Part) :
    ∃ attached', (p.install busy).Watching connected attached' ∧
      (attached = true → attached' = true) := by
  rw [install_watch h.deployment]
  obtain ⟨hwatch, hsame⟩ | ⟨hnot, hwatch, hadded⟩ :=
    Watch.attach_cases ⟨connected, attached⟩ (busy ≠ some .bus) p.subscriptions
  · exact ⟨attached, ⟨congrArg _ hwatch, hsame.trans h.subscriptions⟩, id⟩
  · obtain rfl : attached = false := hnot
    refine ⟨true, ⟨congrArg _ hwatch, hadded.trans ?_⟩, fun _ => rfl⟩
    rw [h.subscriptions]
    rfl

theorem Watching.uninstall (h : p.Watching connected attached) (busy : Option Part) :
    p.uninstall busy = p := by
  unfold Placement.uninstall
  rw [h.deployment]

end Placement

namespace Session

variable {connected attached : Bool} {start s : Session}

/-- A step takes no subscription back. -/
theorem watching_step (h : s.placement.Watching connected attached) {action : Action}
    (haction : action.Staying) (busy : Option Part) :
    ∃ attached', (s.step action busy).1.placement.Watching connected attached' ∧
      (attached = true → attached' = true) := by
  by_cases hrunning : action.Running
  · obtain hsame | hinstall | huninstall := step_placement s busy hrunning
    · rw [hsame]
      exact ⟨attached, h, id⟩
    · rw [hinstall]
      exact h.install busy
    · rw [huninstall, h.uninstall busy]
      exact ⟨attached, h, id⟩
  · cases action with
    | useHook _ | useWatch _ => exact absurd haction id
    | useEncoding encoding =>
      refine ⟨attached, ?_, id⟩
      rw [placement_useEncoding]
      refine ⟨?_, h.subscriptions⟩
      show s.placement.deployment.useEncoding encoding = _
      rw [h.deployment]
      rfl
    | forget phase => exact ⟨attached, ⟨h.deployment, h.subscriptions⟩, id⟩
    | _ => exact absurd trivial hrunning

theorem watching_reaches (hstart : start.placement.Watching connected attached)
    (h : start.Reaches Action.Staying s) :
    ∃ attached', s.placement.Watching connected attached' ∧
      (attached = true → attached' = true) := by
  induction h with
  | start => exact ⟨attached, hstart, id⟩
  | step action busy _ haction ih =>
    obtain ⟨before, hbefore, hkept⟩ := ih
    obtain ⟨after, hafter, hkept'⟩ := watching_step hbefore haction busy
    exact ⟨after, hafter, hkept' ∘ hkept⟩

theorem installed_of_watching (h : s.placement.Watching connected attached) :
    s.guard.deployment.isInstalled = attached := by
  rw [show s.guard.deployment = .watch ⟨connected, attached⟩ from h.deployment]
  rfl

/-! ### Events -/

/-- A handler would look at the chat, and can. -/
def Attentive (s : Session) (busy : Option Part) : Prop :=
  s.guard.settings.enabled = true ∧ s.host.reachable = true ∧ busy ≠ some .chat

instance (s : Session) (busy : Option Part) : Decidable (s.Attentive busy) :=
  inferInstanceAs (Decidable (_ ∧ _ ∧ _))

/-- A handler escapes the chat, if it can, and changes nothing else of the host. -/
theorem host_handle (s : Session) (busy : Option Part) (event : Event) :
    (s.handle busy event).1.host =
      { s.host with
        chat := if s.Attentive busy then s.host.chat.map (List.map (·.escaped s.guard.settings))
          else s.host.chat } := by
  by_cases hattentive : s.Attentive busy
  · rw [if_pos hattentive]
    obtain ⟨henabled, hreachable, hbusy⟩ := hattentive
    unfold handle
    rw [henabled, if_neg (by decide), hreachable, if_neg (by decide), if_neg hbusy]
    cases hchat : s.host.chat with
    | none =>
      show s.host = _
      rw [Option.map_none, ← hchat]
    | some chat =>
      show ({ s.host with chat := some (sweep s.guard.settings chat).chat } : Host) = _
      rw [sweep_chat]
      rfl
  · rw [if_neg hattentive]
    unfold handle
    split
    · rfl
    · case _ henabled =>
      split
      · rfl
      · case _ hreachable =>
        split
        · rfl
        · case _ hbusy =>
          exact absurd ⟨by simpa using henabled, by simpa using hreachable, hbusy⟩ hattentive

/-- An event is handled once by every handler that is subscribed to it. -/
theorem chat_fire_settled {chat : Option (List Message)}
    (hsettled : ∀ settings : Settings, chat.map (List.map (·.escaped settings)) = chat)
    (hchat : s.host.chat = chat) (event : Event) (busy : Option Part) :
    (s.step (.fire event) busy).1.host.chat = chat := by
  show ((s.host.subscriptions.filter (· = event)).foldl
    (fun s event => (s.handle busy event).1) s).host.chat = chat
  generalize s.host.subscriptions.filter (· = event) = events
  induction events generalizing s with
  | nil => exact hchat
  | cons first events ih =>
    refine ih ?_
    rw [host_handle]
    show (if s.Attentive busy then s.host.chat.map _ else s.host.chat) = chat
    rw [hchat, hsettled, ite_self]

theorem filter_all (event : Event) : Event.all.filter (· = event) = [event] := by
  cases event <;> decide

theorem count_all (event : Event) : Event.all.count event = 1 := by
  cases event <;> decide

/-- **A watch hears of every event or of none, and escapes the chat when it hears of one.** -/
theorem watch_fired (hdeployment : start.guard.deployment = .watch ⟨true, false⟩)
    (hsubscriptions : start.host.subscriptions = []) (h : start.Reaches Action.Staying s) :
    -- none, or one to every event
    (s.guard.deployment.isInstalled = false ∧ s.host.subscriptions = [] ∨
      s.guard.deployment.isInstalled = true ∧ s.host.subscriptions = Event.all ∧
        ∀ event, s.host.subscriptions.count event = 1) ∧
    -- which they stay
    (s.guard.deployment.isInstalled = true → ∀ later, s.Reaches Action.Staying later →
      later.guard.deployment.isInstalled = true ∧ later.host.subscriptions = Event.all) ∧
    -- an event with everything at hand
    (∀ event busy chat, s.guard.deployment.isInstalled = true → s.Attentive busy →
      s.host.chat = some chat →
      (s.step (.fire event) busy).1.host.chat =
          some (chat.map (·.escaped s.guard.settings)) ∧
        ∀ later : Session, later.host.chat = (s.step (.fire event) busy).1.host.chat →
          ∀ event busy, (later.step (.fire event) busy).1.host.chat = later.host.chat) ∧
    -- an event without
    (∀ event busy,
      ¬ (s.guard.deployment.isInstalled = true ∧ s.Attentive busy ∧ s.host.chat.isSome = true) →
      (s.step (.fire event) busy).1.host.chat = s.host.chat) := by
  have hstart : start.placement.Watching true false := ⟨hdeployment, hsubscriptions⟩
  obtain ⟨attached, hwatching, -⟩ := watching_reaches hstart h
  have hinstalled := installed_of_watching hwatching
  have hfire : ∀ event busy, (s.step (.fire event) busy).1.host.chat =
      if attached = true ∧ s.Attentive busy then
        s.host.chat.map (List.map (·.escaped s.guard.settings))
      else s.host.chat := by
    intro event busy
    show ((s.host.subscriptions.filter (· = event)).foldl
      (fun s event => (s.handle busy event).1) s).host.chat = _
    rw [show s.host.subscriptions = if attached then Event.all else []
      from hwatching.subscriptions]
    cases attached with
    | false =>
      rw [if_neg (by simp)]
      rfl
    | true =>
      rw [if_pos rfl, filter_all]
      show (s.handle busy event).1.host.chat = _
      rw [host_handle]
      simp only [true_and]
  rw [hinstalled]
  refine ⟨?_, ?_, ?_, ?_⟩
  · cases attached with
    | false => exact .inl ⟨rfl, hwatching.subscriptions⟩
    | true =>
      have hall : s.host.subscriptions = Event.all := hwatching.subscriptions
      exact .inr ⟨rfl, hall, fun event => hall ▸ count_all event⟩
  · rintro rfl later hlater
    obtain ⟨after, hafter, hkept⟩ := watching_reaches hwatching hlater
    obtain rfl : after = true := hkept rfl
    exact ⟨installed_of_watching hafter, hafter.subscriptions⟩
  · intro event busy chat hattached hattentive hchat
    have hescaped : (s.step (.fire event) busy).1.host.chat =
        some (chat.map (·.escaped s.guard.settings)) := by
      rw [hfire, if_pos ⟨hattached, hattentive⟩, hchat]
      rfl
    refine ⟨hescaped, fun later hlater event busy => ?_⟩
    refine chat_fire_settled (fun settings => ?_) rfl event busy
    rw [hlater, hescaped, Option.map_some, List.map_map]
    refine congrArg some (List.map_congr_left fun message _ => ?_)
    exact Message.escaped_escaped hattentive.1 settings message
  · intro event busy hnot
    rw [hfire]
    split
    · case _ hboth =>
      cases hchat : s.host.chat with
      | none => rfl
      | some chat => exact absurd ⟨hboth.1, hboth.2, by rw [hchat]; rfl⟩ hnot
    · rfl

/-- The bus is busy at first; a start subscribes the watch, and the next event escapes the chat. -/
theorem watch_fired_retry :
    let start : Session := { guard := { deployment := .watch ⟨true, false⟩ } }
    let tried := (start.step (.setEnabled true) (some .bus)).1
    let chat : List Message := [{ body := some "\x7b\x7bsetvar::a::b|c\x7d\x7d" }]
    let s := ((tried.step .startup none).1.step (.setChat (some chat)) none).1
    let fired := (s.step (.fire .messageReceived) none).1
    tried.host.subscriptions = [] ∧ s.host.subscriptions = Event.all ∧
      fired.host.chat = some (chat.map (·.escaped s.guard.settings)) ∧
      (fired.step (.fire .chatChanged) none).1.host.chat = fired.host.chat ∧
      (chat.map (·.escaped s.guard.settings)).map (·.body) =
        [some "\x7b\x7bsetvar::a::b\\|c\x7d\x7d"] := by
  intro start tried chat s fired
  have hrun : start.Reaches Action.Staying s :=
    .step _ none (.step _ none (.step _ (some .bus) .start trivial) trivial) trivial
  obtain ⟨-, -, hfired, -⟩ := watch_fired rfl rfl hrun
  obtain ⟨hescaped, hagain⟩ :=
    hfired .messageReceived none chat rfl ⟨rfl, rfl, by decide⟩ rfl
  exact ⟨rfl, rfl, hescaped, hagain fired rfl .chatChanged none, by decide +kernel⟩

end Session

end PipeGuard
