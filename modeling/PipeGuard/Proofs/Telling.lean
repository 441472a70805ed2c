import PipeGuard.Escape
import PipeGuard.Log.Logger
import PipeGuard.Proofs.Passes
import PipeGuard.Proofs.Slicing

/-! What the log tells of an escape.

A pass tells of each call that it rewrites, in a block of lines: where the call stands, what it was
and what it has become. Taken as a script, the blocks make the pass's text from the text before it
(`Script`), and so do the arguments alone, which is what the pass itself puts in. Both are splices
that write, within a call, what the edit of its arguments does (`Writes`), and such splices follow
the pieces of the text (`splices_pieces`).

`escape_tells`: the log of an escape is the scripts of its passes, each on the text the last one
left, and one line more. -/
namespace PipeGuard

/-! ### Splicing -/

/-- The source with splices, each behind the one before. -/
def Text.spliceAll? (source : String) (splices : List Text.Splice) : Option String :=
  (splices.foldlM (Text.Draft.splice? source) {}).bind fun draft =>
    (draft.finish? source).map fun text? => text?.getD source

/-- A splice for a call whose arguments were edited. It may leave out the ends of the call, where
nothing changes. -/
def Writes (splice : Found → Edited → Text.Splice) : Prop :=
  ∀ f edited, ∃ lead cut tail word,
    f.call.whole = lead ++ cut ++ tail ∧
      (f.call.withArgs edited.args).whole = lead ++ word ++ tail ∧
      splice f edited =
        ⟨f.start + byteSize lead, f.start + byteSize (lead ++ cut), String.ofList word⟩

def splicesOf (edit : Edit) (splice : Found → Edited → Text.Splice) (found : List Found) :
    List Text.Splice :=
  found.filterMap fun f => (edit f.call.args).map (splice f)

/-- Puts the whole call as it is after the edit. -/
def wholeSplice (f : Found) (edited : Edited) : Text.Splice :=
  ⟨f.start, f.stop, String.ofList (f.call.withArgs edited.args).whole⟩

/-- Puts the new arguments only. -/
def argsSplice (f : Found) (edited : Edited) : Text.Splice :=
  ⟨f.argsStart, f.argsEnd, String.ofList edited.args⟩

theorem writes_wholeSplice : Writes wholeSplice := by
  intro f edited
  refine ⟨[], f.call.whole, [], (f.call.withArgs edited.args).whole, by simp, by simp, ?_⟩
  rw [wholeSplice, f.stop_eq]
  rfl

theorem writes_argsSplice : Writes argsSplice := by
  intro f edited
  refine ⟨f.call.opening, f.call.args, Call.closing, edited.args, rfl, rfl, ?_⟩
  rw [argsSplice, Found.argsEnd, Found.argsStart, byteSize_append, Nat.add_assoc]

section
variable {source : String} {edit : Edit} {splice : Found → Edited → Text.Splice}

theorem splicesOf_cons_none {f : Found} (h : edit f.call.args = none) (found : List Found) :
    splicesOf edit splice (f :: found) = splicesOf edit splice found := by
  simp [splicesOf, h]

theorem splicesOf_cons_some {f : Found} {edited : Edited} (h : edit f.call.args = some edited)
    (found : List Found) :
    splicesOf edit splice (f :: found) = splice f edited :: splicesOf edit splice found := by
  simp [splicesOf, h]

/-- **Splices follow the pieces of a text.** The draft has come to the end of `done`, and what is
pending is copied with the next splice. -/
theorem splices_pieces (hwrites : Writes splice) {ps : List Piece} {draft : Text.Draft}
    {done pending written : List Char} (hstands : draft.Stands done written)
    (hstarted : draft.text = none → done = [])
    (hsource : source.toList = done ++ pending ++ join ps) :
    ∃ draft' done' pending' written',
      (splicesOf edit splice (locate (byteSize (done ++ pending)) ps)).foldlM
          (Text.Draft.splice? source) draft = some draft' ∧
        draft'.Stands done' written' ∧ (draft'.text = none → done' = []) ∧
        source.toList = done' ++ pending' ∧
        written' ++ pending' = written ++ pending ++ ps.flatMap (Piece.edit edit) := by
  induction ps generalizing draft done pending written with
  | nil =>
    have hsource' : source.toList = done ++ pending := by simpa [join] using hsource
    exact ⟨draft, done, pending, written, rfl, hstands, hstarted, hsource', by simp⟩
  | cons p ps ih =>
    cases p with
    | plain c =>
      have hsource' : source.toList = done ++ (pending ++ [c]) ++ join ps := by
        rw [hsource]
        simp [join, Piece.text]
      have hrest := ih hstands hstarted hsource'
      rw [← List.append_assoc, byteSize_append, byteSize, byteSize, Nat.add_zero] at hrest
      simpa [locate, Piece.edit] using hrest
    | call k =>
      have hcall : join (.call k :: ps) = k.whole ++ join ps := rfl
      have hend : byteSize (done ++ pending) + byteSize k.whole =
          byteSize (done ++ pending ++ k.whole) := (byteSize_append _ _).symm
      rw [hcall] at hsource
      rw [locate, hend, List.flatMap_cons]
      cases hedit : edit k.args with
      | none =>
        have hrest := @ih draft done (pending ++ k.whole) written hstands hstarted
          (by rw [hsource]; simp)
        have hpiece : Piece.edit edit (.call k) = k.whole := by simp only [Piece.edit, hedit]
        rw [splicesOf_cons_none hedit, hpiece]
        simpa using hrest
      | some edited =>
        obtain ⟨lead, cut, tail, word, (hwhole : k.whole = _),
          (hresult : (k.withArgs edited.args).whole = _), hsplice⟩ :=
          hwrites ⟨byteSize (done ++ pending), k⟩ edited
        have hpiece : Piece.edit edit (.call k) = lead ++ word ++ tail := by
          simp only [Piece.edit, hedit, hresult]
        have hplace : splice ⟨byteSize (done ++ pending), k⟩ edited =
            ⟨byteSize (done ++ (pending ++ lead)), byteSize (done ++ (pending ++ lead) ++ cut),
              String.ofList word⟩ := by
          rw [hsplice]
          simp only [← byteSize_append, List.append_assoc]
        have hsource' : source.toList = done ++ (pending ++ lead) ++ cut ++ (tail ++ join ps) := by
          rw [hsource, hwhole]
          simp
        obtain ⟨draft', hdraft', hsome, hstands'⟩ := hstands.splice hsource' word
        have hstarted' : draft'.text = none → done ++ (pending ++ lead) ++ cut = [] := by
          intro hnone
          rw [hnone] at hsome
          exact absurd hsome (by simp)
        have hrest := @ih draft' _ tail _ hstands' hstarted' (by rw [hsource']; simp)
        rw [splicesOf_cons_some hedit, hplace, List.foldlM_cons, hdraft', hpiece, hwhole]
        simpa using hrest

/-- Such splices make the text of a pass. -/
theorem spliceAll?_revise (hwrites : Writes splice) (name : List Char) (source : String) :
    Text.spliceAll? source (splicesOf edit splice (findCalls name source.toList)) =
      some (String.ofList (revise edit name source.toList).text) := by
  have hjoin : source.toList = [] ++ [] ++ join (pieces name source.toList) :=
    (join_pieces name source.toList).symm
  obtain ⟨draft, done, pending, written, hdraft, hstands, hstarted, hsource, hwritten⟩ :=
    @splices_pieces source edit splice hwrites _ {} [] [] [] Text.Draft.stands_start (fun _ => rfl)
      hjoin
  have hfinish := hstands.finish hsource
  rw [hwritten] at hfinish
  have hfold : (splicesOf edit splice (findCalls name source.toList)).foldlM
      (Text.Draft.splice? source) {} = some draft := hdraft
  have htext : draft.text = none → source = String.ofList (revise edit name source.toList).text := by
    intro hnone
    have hnothing : written = [] := by
      have hempty := hstands.text
      rw [hnone] at hempty
      exact (String.ofList_eq_empty_iff.1 hempty.symm)
    rw [hstarted hnone, List.nil_append] at hsource
    rw [hnothing, List.nil_append, ← hsource] at hwritten
    exact String.ofList_toList.symm.trans (congrArg String.ofList hwritten)
  rw [Text.spliceAll?, hfold, Option.bind_some, hfinish, Option.map_some]
  cases hdrafted : draft.text with
  | none => exact congrArg some (htext hdrafted)
  | some text => rfl

end

/-! ### Blocks -/

/-- What the log tells of one rewritten call. -/
structure Block where
  name : String
  position : Nat
  original : String
  fixed : String
  pipes : Nat

namespace Block

def lines (block : Block) : List Line :=
  [.debug ("[PreProcessor] Fixed " ++ block.name ++ " at position " ++ toString block.position),
   .debug ("  Original: " ++ block.original),
   .debug ("  Fixed:    " ++ block.fixed),
   .debug ("  Pipes escaped: " ++ toString block.pipes)]

/-- The byte behind the original. -/
def stop (block : Block) : Nat := block.position + block.original.utf8ByteSize

/-- Puts what is fixed for what was there. -/
def splice (block : Block) : Text.Splice := ⟨block.position, block.stop, block.fixed⟩

end Block

/-- What is told of a fix. -/
def Fix.block (fix : Fix) : Block :=
  ⟨String.ofList fix.call.name, fix.start, String.ofList fix.call.whole,
    String.ofList fix.result.whole, fix.edited.pipes⟩

theorem Fix.lines_block (fix : Fix) : fix.block.lines = fix.lines := rfl

/-- The blocks of a pass. -/
def blocksOf (edit : Edit) (found : List Found) : List Block :=
  found.filterMap fun f => (edit f.call.args).map fun edited => Fix.block ⟨f.start, f.call, edited⟩

theorem map_block_fixesOf (edit : Edit) (found : List Found) :
    (fixesOf edit found).map Fix.block = blocksOf edit found := by
  rw [fixesOf, List.map_filterMap]
  simp only [Option.map_map]
  rfl

theorem stop_block (f : Found) (edited : Edited) :
    (Fix.block ⟨f.start, f.call, edited⟩).stop = f.stop := by
  rw [f.stop_eq, ← Text.utf8ByteSize_ofList]
  rfl

/-- As a splice a block puts the whole call. -/
theorem map_splice_blocksOf (edit : Edit) (found : List Found) :
    (blocksOf edit found).map Block.splice = splicesOf edit wholeSplice found := by
  rw [blocksOf, List.map_filterMap, splicesOf]
  refine List.filterMap_congr fun f _ => ?_
  rw [Option.map_map]
  refine congrArg (Option.map · (edit f.call.args)) (funext fun edited => ?_)
  show (⟨_, (Fix.block ⟨f.start, f.call, edited⟩).stop, _⟩ : Text.Splice) = _
  rw [stop_block]
  rfl

/-- What a block tells of a call in the source: its name as it is written, where it stands, all of
it, and the same with the new arguments between what stands around the old ones. -/
structure Tells (edit : Edit) (source : String) (f : Found) (block : Block) : Prop where
  name : block.name = String.ofList f.call.name
  position : block.position = f.start
  original : Text.slice? source f.start f.stop = some block.original
  fixed : ∃ edited opening closing, edit f.call.args = some edited ∧
    Text.slice? source f.start f.argsStart = some opening ∧
    Text.slice? source f.argsEnd f.stop = some closing ∧
    block.fixed = opening ++ String.ofList edited.args ++ closing ∧ block.pipes = edited.pipes

section
variable {edit : Edit} {name : List Char} {source : String}

theorem tells_block {f : Found} (hf : f ∈ findCalls name source.toList) {edited : Edited}
    (h : edit f.call.args = some edited) :
    Tells edit source f (Fix.block ⟨f.start, f.call, edited⟩) := by
  obtain ⟨-, before, after, hsource, hstart⟩ := (cut_pieces name source.toList).mem hf
  rw [Nat.zero_add] at hstart
  have hwhole : source.toList = before ++ f.call.whole ++ after := hsource
  have hopening : source.toList =
      before ++ f.call.opening ++ (f.call.args ++ Call.closing ++ after) := by
    rw [hsource, Call.whole]
    simp
  have hclosing : source.toList =
      before ++ f.call.opening ++ f.call.args ++ Call.closing ++ after := by
    rw [hsource, Call.whole]
    simp
  have hstop : f.stop = byteSize (before ++ f.call.whole) := by
    rw [f.stop_eq, hstart, byteSize_append]
  have hargsStart : f.argsStart = byteSize (before ++ f.call.opening) := by
    rw [Found.argsStart, hstart, byteSize_append]
  have hargsEnd : f.argsEnd = byteSize (before ++ f.call.opening ++ f.call.args) := by
    rw [Found.argsEnd, hargsStart, byteSize_append _ f.call.args]
  refine ⟨rfl, rfl, ?_, edited, String.ofList f.call.opening, String.ofList Call.closing, h, ?_, ?_,
    ?_, rfl⟩
  · rw [hstart, hstop]
    exact Text.slice?_between hwhole
  · rw [hstart, hargsStart]
    exact Text.slice?_between hopening
  · have hend : f.stop = byteSize (before ++ f.call.opening ++ f.call.args ++ Call.closing) := by
      rw [hstop, Call.whole]
      simp
    rw [hargsEnd, hend]
    exact Text.slice?_between hclosing
  · rw [← String.ofList_append, ← String.ofList_append]
    rfl

/-- There is a block for each call that the edit rewrites, in the order of the calls. -/
theorem forall₂_tells {found : List Found} (h : ∀ f ∈ found, f ∈ findCalls name source.toList) :
    List.Forall₂ (Tells edit source) (found.filter fun f => (edit f.call.args).isSome)
      (blocksOf edit found) := by
  induction found with
  | nil => exact .nil
  | cons f found ih =>
    obtain ⟨hf, hfound⟩ := List.forall_mem_cons.1 h
    have hrest := ih hfound
    cases hedit : edit f.call.args with
    | none => simpa [hedit, blocksOf] using hrest
    | some edited =>
      have htells := tells_block hf hedit
      simpa [hedit, blocksOf] using ⟨htells, hrest⟩

/-- The script of a pass: blocks that tell of the calls it rewrites, one behind the other, each where
its original stands, and that make the text after the pass from the one before it. The pass itself
puts in the arguments only. -/
structure Script (edit : Edit) (name : List Char) (input : String) (blocks : List Block)
    (output : String) : Prop where
  tells : List.Forall₂ (Tells edit input)
    ((findCalls name input.toList).filter fun f => (edit f.call.args).isSome) blocks
  increasing : blocks.Pairwise fun b b' => b.position < b'.position
  disjoint : blocks.Pairwise fun b b' => b.stop ≤ b'.position
  stands : ∀ b ∈ blocks, Text.slice? input b.position b.stop = some b.original
  replaces : Text.spliceAll? input (blocks.map Block.splice) = some output
  writes : Text.spliceAll? input (splicesOf edit argsSplice (findCalls name input.toList)) =
    some output
  pass : (revise edit name input.toList).text = output.toList

/-- A block stands where its call stands. -/
theorem block_of_mem {f : Found} {block : Block}
    (h : ((edit f.call.args).map fun edited => Fix.block ⟨f.start, f.call, edited⟩) = some block) :
    ∃ edited, edit f.call.args = some edited ∧ block = Fix.block ⟨f.start, f.call, edited⟩ ∧
      block.position = f.start ∧ block.stop = f.stop := by
  obtain ⟨edited, hedit, rfl⟩ := Option.map_eq_some_iff.1 h
  exact ⟨edited, hedit, rfl, rfl, stop_block f edited⟩

/-- **A pass tells its own script.** -/
theorem script_revise (edit : Edit) (name : List Char) (input : String) :
    Script edit name input (blocksOf edit (findCalls name input.toList))
      (String.ofList (revise edit name input.toList).text) where
  tells := forall₂_tells fun _ hf => hf
  increasing := by
    refine List.pairwise_filterMap.2 ((locate_pairwise 0 _).imp fun {f g} hle b hb b' hb' => ?_)
    obtain ⟨-, -, -, hposition, -⟩ := block_of_mem hb
    obtain ⟨-, -, -, hposition', -⟩ := block_of_mem hb'
    rw [hposition, hposition']
    exact Nat.lt_of_lt_of_le f.start_lt_stop hle
  disjoint := by
    refine List.pairwise_filterMap.2 ((locate_pairwise 0 _).imp fun {f g} hle b hb b' hb' => ?_)
    obtain ⟨-, -, -, -, hstop⟩ := block_of_mem hb
    obtain ⟨-, -, -, hposition, -⟩ := block_of_mem hb'
    rw [hstop, hposition]
    exact hle
  stands block hblock := by
    obtain ⟨f, hf, hmap⟩ := List.mem_filterMap.1 hblock
    obtain ⟨edited, hedit, rfl, hposition, hstop⟩ := block_of_mem hmap
    rw [hposition, hstop]
    exact (tells_block hf hedit).original
  replaces := by
    rw [map_splice_blocksOf]
    exact spliceAll?_revise writes_wholeSplice name input
  writes := spliceAll?_revise writes_argsSplice name input
  pass := String.toList_ofList.symm

end

/-! ### All passes -/

/-- The scripts of passes, each on the text that the last one left. -/
inductive Scripts (edit : Edit) : List (List Char) → String → List (List Block) → String → Prop where
  | nil {text} : Scripts edit [] text [] text
  | cons {name names input blocks between scripts output} :
      Script edit name input blocks between → Scripts edit names between scripts output →
      Scripts edit (name :: names) input (blocks :: scripts) output

theorem scripts_reviseAll (edit : Edit) (names : List (List Char)) (text : String) :
    ∃ scripts, Scripts edit names text scripts (String.ofList (reviseAll edit names text.toList).text) ∧
      scripts.flatten = (reviseAll edit names text.toList).fixes.map Fix.block := by
  induction names generalizing text with
  | nil =>
    refine ⟨[], ?_, rfl⟩
    rw [reviseAll, String.ofList_toList]
    exact .nil
  | cons name names ih =>
    obtain ⟨scripts, hscripts, hblocks⟩ := ih (String.ofList (revise edit name text.toList).text)
    rw [String.toList_ofList] at hscripts hblocks
    refine ⟨_, .cons (script_revise edit name text) hscripts, ?_⟩
    rw [List.flatten_cons, hblocks, reviseAll, List.map_append, ← map_block_fixesOf]
    rfl

/-! ### The log -/

namespace Logger

variable {lines : List Line}

theorem writeAll_silent {logger : Logger} (h : logger.isDebug = false)
    (hlines : ∀ line ∈ lines, line.level = .debug) : logger.writeAll lines = logger := by
  induction lines with
  | nil => rfl
  | cons line lines ih =>
    obtain ⟨hline, hrest⟩ := List.forall_mem_cons.1 hlines
    have hwrite : logger.write line = logger := by rw [write, if_pos ⟨hline, h⟩]
    rw [writeAll, List.foldl_cons, hwrite]
    exact ih hrest

theorem writeAll_debug {logger : Logger} (h : logger.isDebug = true) (lines : List Line) :
    logger.writeAll lines = lines.foldl keep logger := by
  induction lines generalizing logger with
  | nil => rfl
  | cons line lines ih =>
    have hwrite : logger.write line = logger.keep line := by
      rw [write, if_neg]
      rw [h]
      simp
    have hkept : (logger.keep line).isDebug = true := by
      rw [← hwrite, isDebug_write, h]
    rw [writeAll, List.foldl_cons, List.foldl_cons, hwrite]
    exact ih hkept

end Logger

theorem level_of_mem_escapeLines {r : Revision} : ∀ line ∈ escapeLines r, line.level = .debug := by
  intro line hline
  rw [escapeLines] at hline
  split at hline
  · simp at hline
  · rcases List.mem_append.1 hline with hfix | hsummary
    · obtain ⟨fix, -, hmem⟩ := List.mem_flatMap.1 hfix
      simp only [Fix.lines, List.mem_cons, List.not_mem_nil, or_false] at hmem
      rcases hmem with rfl | rfl | rfl | rfl <;> rfl
    · rw [List.mem_singleton.1 hsummary]
      rfl

/-- The line that closes the log of an escape. -/
def summary (calls : Nat) : Line :=
  .timing ("[PreProcessor] Fixed " ++ toString calls ++ " macro(s) in ")

theorem escapeLines_eq (r : Revision) :
    escapeLines r =
      if r.fixes.map Fix.block = [] then []
      else (r.fixes.map Fix.block).flatMap Block.lines ++ [summary r.calls] := by
  have hlines : (r.fixes.map Fix.block).flatMap Block.lines = r.fixes.flatMap Fix.lines := by
    rw [List.flatMap_map]
    exact List.flatMap_congr fun fix _ => fix.lines_block
  rw [escapeLines, hlines]
  cases r.fixes <;> rfl

/-- The names whose calls are rewritten, in the order of their passes. -/
def passes (settings : Settings) : List (List Char) := if settings.enabled then writeNames else []

theorem escape_passes (encoding : Encoding) (settings : Settings) (text : List Char) :
    let r := reviseAll (Pipe.escapeArgs encoding) (passes settings) text
    (escape encoding settings text).text = r.text ∧
      (escape encoding settings text).calls = r.calls ∧
      (escape encoding settings text).pipes = r.pipes ∧
      (escape encoding settings text).lines = escapeLines r := by
  by_cases h : settings.enabled = true
  · rw [escape, passes, if_pos h, if_pos h]
    exact ⟨rfl, rfl, rfl, rfl⟩
  · rw [escape, passes, if_neg h, if_neg h]
    exact ⟨rfl, rfl, rfl, rfl⟩

/-- The pass of the outer name reads what the pass of the inner one left. -/
example :
    let inner := "\x7b\x7bSetVar::b|c\x7d\x7d"
    let fixed := "\x7b\x7bSetVar::b\\|c\x7d\x7d"
    (escape .backslash ⟨true, true⟩ ("\x7b\x7baddvar::a|" ++ inner).toList).lines =
      Block.lines ⟨"SetVar", 12, inner, fixed, 1⟩ ++
        Block.lines ⟨"addvar", 0, "\x7b\x7baddvar::a|" ++ fixed, "\x7b\x7baddvar::a\\|" ++ fixed, 1⟩ ++
        [summary 2] := by
  decide +kernel

end PipeGuard
