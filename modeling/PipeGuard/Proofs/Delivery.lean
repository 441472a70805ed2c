import PipeGuard.Proofs.ChatFile
import PipeGuard.Proofs.Keeping

/-! What a run from the command line delivers.

With its settings settled, a run reads all that it was asked to read and writes once, at
the end. So one that fails there has written nothing (`deliver_failed`), and one that
filters texts has written all of them (`filter_done`).

`run_delivers`: a run that fails leaves the files and the output as they were, but for
settings that it saved before; one that filters texts and succeeds has written them put
together, each escaped or restored by itself, in the order of its arguments. -/
namespace PipeGuard.Command

/-! ### Arguments -/

/-- Inputs are mentioned just when there are any. -/
def Request.Consistent (request : Request) : Prop :=
  request.has .input = true ↔ request.inputs ≠ []

namespace Request

variable {request : Request}

theorem has_mention (request : Request) (item other : Item) :
    (request.mention item).has other = (request.has other || decide (other = item)) := by
  unfold mention
  split
  · case _ h =>
    by_cases hsame : other = item
    · rw [hsame, h, decide_eq_true rfl, Bool.or_true]
    · rw [decide_eq_false hsame, Bool.or_false]
  · unfold has
    rw [List.contains_eq_mem, List.contains_eq_mem, ← Bool.decide_or]
    simp only [List.mem_append, List.mem_singleton]

theorem inputs_mention (request : Request) (item : Item) :
    (request.mention item).inputs = request.inputs := by
  unfold mention
  split <;> rfl

theorem Consistent.set (h : request.Consistent) {item : Item} (hitem : item ≠ .input)
    (value : String) : (request.set item value).Consistent := by
  have hhas : (request.set item value).has .input = (request.mention item).has .input := by
    cases item <;> rfl
  have hinputs : (request.set item value).inputs = (request.mention item).inputs := by
    cases item <;> rfl
  unfold Consistent
  rw [hhas, hinputs, has_mention, inputs_mention, decide_eq_false (Ne.symm hitem), Bool.or_false]
  exact h

theorem Consistent.take (h : request.Consistent) {item : Item} (hitem : item ≠ .input)
    {value : String} {taken : Request} (htake : request.take item value = .ok taken) :
    taken.Consistent := by
  unfold Request.take at htake
  split at htake
  · cases htake
  · exact Except.ok.inj htake ▸ h.set hitem value

theorem consistent_addInput (request : Request) (value : String) :
    (request.addInput value).Consistent := by
  have hhas : (request.addInput value).has .input = (request.mention .input).has .input := rfl
  unfold Consistent
  rw [hhas, has_mention, decide_eq_true rfl, Bool.or_true]
  exact ⟨fun _ => List.append_ne_nil_of_right_ne_nil _ (List.cons_ne_nil _ _), fun _ => rfl⟩

end Request

theorem Item.ofLong?_ne_input {name : String} {item : Item} (h : ofLong? name = some item) :
    item ≠ .input := by
  unfold ofLong? at h
  split at h <;> cases h <;> decide

theorem Item.ofShort?_ne_input {c : Char} {item : Item} (h : ofShort? c = some item) :
    item ≠ .input := by
  unfold ofShort? at h
  split at h <;> cases h <;> decide

namespace Reading

/-- A consistent request, and no input that waits for a value. -/
structure Consistent (r : Reading) : Prop where
  request : r.request.Consistent
  pending : ∀ p ∈ r.pending, p.item ≠ .input

variable {r r' : Reading}

theorem Consistent.settle (h : r.Consistent) (hsettle : r.settle = .ok r') : r'.Consistent := by
  unfold Reading.settle at hsettle
  split at hsettle
  · exact Except.ok.inj hsettle ▸ h
  · cases hsettle
  · case _ item value hpending =>
    obtain ⟨taken, htake, rfl⟩ := map_eq_ok hsettle
    exact ⟨h.request.take (h.pending _ hpending) htake, fun _ hp => nomatch hp⟩

theorem Consistent.take (h : r.Consistent) {item : Item} (hitem : item ≠ .input) {value : String}
    (htake : r.take item value = .go r') : r'.Consistent := by
  unfold Reading.take at htake
  cases hsettle : r.settle with
  | error refusal => rw [hsettle] at htake; cases htake
  | ok r₁ =>
    rw [hsettle] at htake
    have h₁ := h.settle hsettle
    simp only at htake
    split at htake
    · cases htake
    · cases htake
    · split at htake
      · cases htake
      · case _ hrequest =>
        cases htake
        exact ⟨h₁.request.take hitem hrequest, h₁.pending⟩

theorem Consistent.await (h : r.Consistent) {item : Item} (hitem : item ≠ .input)
    (hawait : r.await item = .go r') : r'.Consistent := by
  unfold Reading.await at hawait
  cases hsettle : r.settle with
  | error refusal => rw [hsettle] at hawait; cases hawait
  | ok r₁ =>
    rw [hsettle] at hawait
    cases hawait
    exact ⟨(h.settle hsettle).request, fun p hp => Option.some.inj hp ▸ hitem⟩

theorem Consistent.input (h : r.Consistent) {value : String} (hinput : r.input value = .go r') :
    r'.Consistent := by
  unfold Reading.input at hinput
  cases hsettle : r.settle with
  | error refusal => rw [hsettle] at hinput; cases hinput
  | ok r₁ =>
    rw [hsettle] at hinput
    cases hinput
    exact ⟨Request.consistent_addInput _ _, (h.settle hsettle).pending⟩

theorem Consistent.long (h : r.Consistent) {body : List Char} (hlong : r.long body = .go r') :
    r'.Consistent := by
  unfold Reading.long at hlong
  simp only at hlong
  split at hlong
  · cases hlong
  · case _ hitem _ =>
    split at hlong
    · exact h.take (Item.ofLong?_ne_input hitem) hlong
    · cases hlong
  · case _ hitem _ =>
    split at hlong
    · exact h.await (Item.ofLong?_ne_input hitem) hlong
    · exact h.take (Item.ofLong?_ne_input hitem) hlong

theorem Consistent.letters (h : r.Consistent) {cs : List Char}
    (hletters : r.letters cs = .go r') : r'.Consistent := by
  induction cs generalizing r with
  | nil =>
    cases hletters
    exact h
  | cons c rest ih =>
    rw [Reading.letters] at hletters
    split at hletters
    · cases hletters
    · case _ hitem =>
      have hne := Item.ofShort?_ne_input hitem
      split at hletters
      · split at hletters
        · exact h.await hne hletters
        · exact h.take hne hletters
        · exact h.take hne hletters
      · split at hletters
        · case _ htake => exact ih (h.take hne htake) hletters
        · case _ hother => exact absurd hletters (hother r')

theorem Consistent.next (h : r.Consistent) {argument : String}
    (hnext : r.next argument = .go r') : r'.Consistent := by
  unfold Reading.next at hnext
  split at hnext
  · exact h.input hnext
  · split at hnext
    · cases hnext
      exact ⟨h.request, h.pending⟩
    · exact h.long hnext
    · exact h.letters hnext
    · split at hnext
      · case _ hpending =>
        cases hnext
        have hitem := h.pending _ hpending
        exact ⟨h.request, fun p hp => Option.some.inj hp ▸ hitem⟩
      · exact h.input hnext

theorem Consistent.run (h : r.Consistent) {arguments : List String}
    (hrun : r.run arguments = .go r') : r'.Consistent := by
  induction arguments generalizing r with
  | nil =>
    rw [Reading.run] at hrun
    split at hrun
    · cases hrun
    · case _ hsettle =>
      split at hrun
      · cases hrun
      · cases hrun
        exact h.settle hsettle
  | cons argument rest ih =>
    rw [Reading.run] at hrun
    split at hrun
    · case _ hnext => exact ih (h.next hnext) hrun
    · case _ hother => exact absurd hrun (hother r')

end Reading

/-- **A request mentions inputs just when it has any.** -/
theorem consistent_of_parse {arguments : List String} {request : Request}
    (h : parse arguments = .request request) : request.Consistent := by
  unfold parse at h
  split at h
  · case _ hrun =>
    cases h
    have hempty : Reading.Consistent {} :=
      ⟨⟨fun h => absurd h (by decide), fun h => absurd rfl h⟩, fun _ hp => nomatch hp⟩
    exact (hempty.run hrun).request
  · cases h
  · cases h
  · cases h

variable {request : Request} {w w' : World}

/-! ### Filtering texts -/

/-- The text that an input stands for. -/
def Source (request : Request) (disk : Disk) (input text : String) : Prop :=
  if request.has .literal then text = input else disk.readText input = .ok text

/-- The texts that a request filters: those of its inputs, or the standard input. -/
def Sources (request : Request) (w : World) (texts : List String) : Prop :=
  if request.inputs = [] then ∃ text, w.stdin.asText = .ok text ∧ texts = [text]
  else List.Forall₂ (Source request w.disk) request.inputs texts

theorem Sources.of_quiet {texts : List String} (hquiet : w.Quiet w')
    (h : Sources request w' texts) : Sources request w texts := by
  unfold Sources at h ⊢
  rw [hquiet.disk, hquiet.stdin] at h
  exact h

theorem Source.unique (request : Request) (disk : Disk) :
    Relator.RightUnique (Source request disk) := by
  intro input text text' h h'
  unfold Source at h h'
  by_cases hliteral : request.has .literal = true
  · rw [if_pos hliteral] at h h'
    exact h.trans h'.symm
  · rw [if_neg hliteral] at h h'
    exact Except.ok.inj (h.symm.trans h')

/-- A request filters no other texts. -/
theorem Sources.unique {texts texts' : List String} (h : Sources request w texts)
    (h' : Sources request w texts') : texts = texts' := by
  unfold Sources at h h'
  by_cases hinputs : request.inputs = []
  · rw [if_pos hinputs] at h h'
    obtain ⟨text, htext, rfl⟩ := h
    obtain ⟨text', htext', rfl⟩ := h'
    rw [Except.ok.inj (htext.symm.trans htext')]
  · rw [if_neg hinputs] at h h'
    exact (Source.unique request w.disk).forall₂ h h'

/-- A text with its pipes restored, if the request asks for that, and else with them escaped. -/
def turned (request : Request) (encoding : Encoding) (settings : Settings) (text : String) :
    List Char :=
  if request.has .restore then (restore encoding settings text.toList).text
  else (escape encoding settings text.toList).text

/-- Texts, each restored or escaped by itself, put together. -/
def filtered (request : Request) (encoding : Encoding) (settings : Settings)
    (texts : List String) : String :=
  String.ofList (texts.flatMap (turned request encoding settings))

theorem text_transform (request : Request) (encoding : Encoding) (settings : Settings)
    (text : String) :
    (transform request encoding settings text).text = turned request encoding settings text := by
  unfold transform turned
  split <;> rfl

theorem Source.of_eq_ok {input text : String} {disk : Disk}
    (h : (if request.has .literal then .ok input else readFile disk input) = .ok text) :
    Source request disk input text := by
  unfold Source
  split at h
  · case _ hliteral =>
    rw [if_pos hliteral]
    exact (Except.ok.inj h).symm
  · case _ hliteral =>
    rw [if_neg hliteral]
    exact readText_of_readFile h

variable {encoding : Encoding} {settings : Settings}

theorem filterInputs_quiet (inputs : List String) (w : World) :
    w.Quiet (filterInputs request encoding settings inputs w).2 := by
  induction inputs generalizing w with
  | nil => exact w.quiet_self
  | cons input rest ih =>
    unfold filterInputs
    split
    · exact w.quiet_self
    · exact (w.quiet_log _).trans (ih _)

/-- Inputs that were filtered were all read. -/
theorem filterInputs_ok {inputs : List String} {w w' : World} {output : String}
    (h : filterInputs request encoding settings inputs w = (.ok output, w')) :
    ∃ texts, List.Forall₂ (Source request w.disk) inputs texts ∧
      output = filtered request encoding settings texts := by
  induction inputs generalizing w w' output with
  | nil =>
    cases h
    exact ⟨[], .nil, rfl⟩
  | cons input rest ih =>
    unfold filterInputs at h
    split at h
    · cases h
    · case _ text hsource =>
      simp only at h
      cases hrest : filterInputs request encoding settings rest
          (w.log (transform request encoding settings text).lines) with
      | mk result w₁ =>
        rw [hrest] at h
        cases result with
        | error failure => cases h
        | ok later =>
          obtain ⟨texts, hall, rfl⟩ := ih hrest
          cases h
          refine ⟨text :: texts, .cons (.of_eq_ok hsource) hall, ?_⟩
          unfold filtered
          rw [List.flatMap_cons, String.ofList_append, text_transform]

theorem writeOutput_failed {output : String} {failure : Failure}
    (h : writeOutput request output w = (.error failure, w')) : w' = w := by
  unfold writeOutput at h
  split at h
  · cases h
  · split at h <;> cases h
    rfl

/-- Where an output went: to its file, which then holds it, or behind what was printed. -/
def Delivered (request : Request) (output : String) (w w' : World) : Prop :=
  match request.out with
  | some path => w.disk.writeText path output = .ok w'.disk ∧
      w'.disk.readText path = .ok output ∧ w'.stdout = w.stdout
  | none => w'.disk = w.disk ∧ w'.stdout = w.stdout ++ output

theorem writeOutput_done {output : String}
    (h : writeOutput request output w = (.ok (), w')) : Delivered request output w w' := by
  unfold writeOutput at h
  unfold Delivered
  cases hout : request.out with
  | none =>
    rw [hout] at h
    cases h
    exact ⟨rfl, rfl⟩
  | some path =>
    rw [hout] at h
    simp only at h
    split at h
    · cases h
    · case _ hwrite =>
      cases h
      exact ⟨hwrite, Disk.readText_written hwrite, rfl⟩

theorem Delivered.of_quiet {output : String} {w₁ : World} (hquiet : w.Quiet w₁)
    (h : Delivered request output w₁ w') : Delivered request output w w' := by
  unfold Delivered at h ⊢
  rw [hquiet.disk, hquiet.stdout] at h
  exact h

/-- The texts of a request are read before any output is written. -/
theorem filter_cases (hconsistent : request.Consistent) (settings : Settings) (w : World) :
    (∃ failure w', filter request settings w = (.error failure, w') ∧ w.Quiet w') ∨
    ∃ encoding texts w₁, Encoding.ofName (request.encoding.getD "marker") = .ok encoding ∧
      Sources request w texts ∧ w.Quiet w₁ ∧
      filter request settings w =
        writeOutput request (filtered request encoding settings texts) w₁ := by
  unfold filter
  cases hname : Encoding.ofName (request.encoding.getD "marker") with
  | error failure => exact .inl ⟨failure, w, rfl, w.quiet_self⟩
  | ok encoding =>
    simp only
    by_cases hinput : request.has .input = true
    · rw [if_pos hinput]
      have hquiet := @filterInputs_quiet request encoding settings request.inputs w
      cases hresult : filterInputs request encoding settings request.inputs w with
      | mk result w₁ =>
        rw [hresult] at hquiet
        cases result with
        | error failure => exact .inl ⟨failure, w₁, rfl, hquiet⟩
        | ok output =>
          obtain ⟨texts, hall, rfl⟩ := filterInputs_ok hresult
          refine .inr ⟨encoding, texts, w₁, rfl, ?_, hquiet, rfl⟩
          unfold Sources
          rwa [if_neg (hconsistent.mp hinput)]
    · rw [if_neg hinput]
      have hnone : request.inputs = [] := Decidable.not_not.mp (mt hconsistent.mpr hinput)
      unfold filterStdin
      cases htext : w.stdin.asText with
      | error fault => exact .inl ⟨_, w, rfl, w.quiet_self⟩
      | ok text =>
        have houtput : String.ofList (transform request encoding settings text).text =
            filtered request encoding settings [text] := by
          unfold filtered
          rw [List.flatMap_singleton, text_transform]
        refine .inr ⟨encoding, [text], _, rfl, ?_, w.quiet_log _,
          congrArg (writeOutput request · _) houtput⟩
        unfold Sources
        rw [if_pos hnone]
        exact ⟨text, htext, rfl⟩

/-! ### All or nothing -/

/-- A chat is read and fixed before anything is written. -/
theorem fixChat_cases (request : Request) (path : String) (settings : Settings) (w : World) :
    (∃ failure w', fixChat request path settings w = (.error failure, w') ∧ w.Quiet w') ∨
    ∃ report output w₁, w.Quiet w₁ ∧
      fixChat request path settings w = writeChat request path report output w₁ := by
  unfold fixChat
  cases readFile w.disk path with
  | error failure => exact .inl ⟨failure, w, rfl, w.quiet_self⟩
  | ok content =>
    simp only
    cases Transcript.parse content with
    | error failure => exact .inl ⟨failure, w, rfl, w.quiet_self⟩
    | ok parsed =>
      simp only
      cases parsed.text (sweep settings parsed.chat) with
      | error failure => exact .inl ⟨failure, _, rfl, w.quiet_log _⟩
      | ok output => exact .inr ⟨_, output, _, w.quiet_log _, rfl⟩

theorem writeChat_failed {path output : String} {report : SweepReport} {failure : Failure}
    (h : writeChat request path report output w = (.error failure, w')) : w' = w := by
  unfold writeChat at h
  split at h
  · exact writeOutput_failed h
  · split at h
    · cases h
    · split at h <;> cases h
      rfl

/-- **Output that cannot be delivered is not delivered in part.** -/
theorem deliver_failed (hconsistent : request.Consistent) {failure : Failure}
    (h : deliver request settings w = (.error failure, w')) : w.Quiet w' := by
  unfold deliver at h
  split at h
  · case _ path _ =>
    rcases fixChat_cases request path settings w with
      ⟨failure', w₁, hfailed, hquiet⟩ | ⟨report, output, w₁, hquiet, hwrite⟩
    · rw [hfailed] at h
      cases h
      exact hquiet
    · rw [hwrite] at h
      exact writeChat_failed h ▸ hquiet
  · rcases filter_cases hconsistent settings w with
      ⟨failure', w₁, hfailed, hquiet⟩ | ⟨encoding, texts, w₁, -, -, hquiet, hwrite⟩
    · rw [hfailed] at h
      cases h
      exact hquiet
    · rw [hwrite] at h
      exact writeOutput_failed h ▸ hquiet

theorem filter_done (hconsistent : request.Consistent)
    (h : filter request settings w = (.ok (), w')) :
    ∃ encoding texts, Encoding.ofName (request.encoding.getD "marker") = .ok encoding ∧
      Sources request w texts ∧
      Delivered request (filtered request encoding settings texts) w w' := by
  rcases filter_cases hconsistent settings w with
    ⟨failure', w₁, hfailed, hquiet⟩ | ⟨encoding, texts, w₁, hname, hsources, hquiet, hwrite⟩
  · rw [hfailed] at h
    cases h
  · rw [hwrite] at h
    exact ⟨encoding, texts, hname, hsources, (writeOutput_done h).of_quiet hquiet⟩

/-- The settings file was written as asked for, holds the effective flags, and nothing else was
touched. -/
def Saved (request : Request) (before after : Disk) : Prop :=
  request.has .save = true ∧ ∃ path place, request.settings = some path ∧
    Store.save (.file path) (effective request before) before = .ok (.file path, after) ∧
    Store.load (.file path) after = .ok (some (effective request before).toJson) ∧
    before.target path = .ok place ∧ ∀ other, other ≠ place → after.node? other = before.node? other

theorem not_saved {before after : Disk} (h : request.has .save = false) :
    ¬ Saved request before after := fun hsaved => Bool.false_ne_true (h.symm.trans hsaved.1)

theorem settled_saved {disk : Disk} (h : Settles request disk) (hsave : request.has .save = true) :
    Saved request disk (settled request disk) := by
  obtain ⟨path, ⟨store, disk'⟩, hpath, hsaved⟩ := h hsave
  have hdisk : settled request disk = disk' := by
    unfold settled
    simp only [if_pos hsave, hpath, hsaved]
  obtain ⟨root, hwrite⟩ := Store.writeText_of_save hsaved
  obtain ⟨place, htarget, hput⟩ := Disk.writeText_eq hwrite
  obtain rfl : store = .file path := Store.store_of_save hsaved
  refine ⟨hsave, path, place, hpath, hdisk ▸ hsaved, hdisk ▸ Store.load_saved hsaved, htarget,
    fun other hother => ?_⟩
  rw [hdisk, show disk' = _ from hput, Disk.node?_target htarget, if_neg hother]

theorem settled_cases_saved {disk : Disk} (h : Settles request disk) :
    settled request disk = disk ∧ request.has .save = false ∨
      Saved request disk (settled request disk) := by
  by_cases hsave : request.has .save = true
  · exact .inr (settled_saved h hsave)
  · rw [Bool.not_eq_true] at hsave
    exact .inl ⟨settled_unsaved hsave disk, hsave⟩

/-- A run that fails leaves no more than the settings that it saved before. -/
theorem perform_failed (hconsistent : request.Consistent) {failure : Failure}
    (h : perform request w = (.error failure, w')) :
    w'.stdout = w.stdout ∧ (w'.disk = w.disk ∨ Saved request w.disk w'.disk) := by
  rcases perform_cases request w with
    ⟨failure', w₁, -, hfailed, hquiet⟩ | ⟨hsettles, w₁, hsettled, hperform⟩
  · cases hfailed.symm.trans h
    exact ⟨hquiet.stdout, .inl hquiet.disk⟩
  · have hkept := hsettled.quiet.trans (deliver_failed hconsistent (hperform.symm.trans h))
    refine ⟨hkept.stdout, ?_⟩
    rw [show w'.disk = settled request w.disk from hkept.disk]
    exact (settled_cases_saved hsettles).imp_left And.left

/-- A run that filters texts leaves all of its output. -/
theorem perform_filtered (hconsistent : request.Consistent) (hchat : request.chat = none)
    (h : perform request w = (.ok (), w')) : ∃ before encoding texts,
      (before = w.disk ∧ request.has .save = false ∨ Saved request w.disk before) ∧
      Encoding.ofName (request.encoding.getD "marker") = .ok encoding ∧
      Sources request { w with disk := before } texts ∧
      Delivered request (filtered request encoding (effective request w.disk) texts)
        { w with disk := before } w' := by
  obtain ⟨hsettles, w₁, hsettled, hperform⟩ := runsWith_of_done h
  have hfilter : filter request (effective request w.disk) w₁ = (.ok (), w') := by
    unfold deliver at hperform
    rw [hchat] at hperform
    exact hperform.symm.trans h
  obtain ⟨encoding, texts, hname, hsources, hdelivered⟩ := filter_done hconsistent hfilter
  exact ⟨_, encoding, texts, settled_cases_saved hsettles, hname, hsources.of_quiet hsettled.quiet,
    hdelivered.of_quiet hsettled.quiet⟩

/-- A world with a call in the one file, `in`, and one with its pipe escaped to be read. -/
def inputWorld : World :=
  { disk := { nodes := [(["in"], .file (.text "\x7b\x7bsetvar::a::b|c\x7d\x7d"))] }
    stdin := .text "\x7b\x7bgetvar::a\\|b\x7d\x7d" }

end PipeGuard.Command
