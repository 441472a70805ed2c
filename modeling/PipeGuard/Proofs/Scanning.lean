import PipeGuard.Pipe.Scan
import PipeGuard.Proofs.Loose
import PipeGuard.Proofs.Slicing

/-! Editing arguments byte by byte, and place by place.

A pipe is handled at a place or not, by the run of backslashes before it (`pipeAt`). Escaping puts
the token for the pipes it handles, unescaping nothing for the characters right before them
(`putAt`).

A scan stands at a character. What it has read is what its draft has come to and a rest that is
pending; the rest holds the current run of backslashes, so that a splice which reaches back over the
last one still starts behind the draft (`Reads`). One character leads from there to the next
one, whatever its bytes are. -/
namespace PipeGuard.Pipe

/-! ### Places -/

/-- At `i` stands a pipe after a run of backslashes of this parity. -/
def pipeAt (parity : Nat) (args : List Char) (i : Nat) : Bool :=
  decide (args[i]? = some '|' ∧ backslashes (args.take i) % 2 = parity)

/-- How many such pipes there are. -/
def pipesOf (parity : Nat) (args : List Char) : Nat :=
  (List.range args.length).countP (pipeAt parity args)

/-- The text with a word for each of the characters at some places. -/
def putAt (word : List Char) (places : Nat → Bool) (args : List Char) : List Char :=
  (args.mapIdx fun i c => if places i then word else [c]).flatten

def escapedAt (encoding : Encoding) (args : List Char) : List Char :=
  putAt encoding.token (pipeAt 0 args) args

/-- What goes stands right before a pipe. -/
def unescapedAt (args : List Char) : List Char :=
  putAt [] (fun i => pipeAt 1 args (i + 1)) args

/-- The edit with this text, if it handles a pipe. -/
def reported (args : List Char) (pipes : Nat) : Option Edited :=
  if pipes = 0 then none else some ⟨args, pipes⟩

section
variable (parity : Nat) (args : List Char) (c : Char)

theorem pipeAt_concat_of_lt {i : Nat} (h : i < args.length) :
    pipeAt parity (args ++ [c]) i = pipeAt parity args i := by
  rw [pipeAt, List.getElem?_append_left h, List.take_append_of_le_length (Nat.le_of_lt h), pipeAt]

theorem pipeAt_concat_length :
    pipeAt parity (args ++ [c]) args.length = decide (c = '|' ∧ backslashes args % 2 = parity) := by
  simp [pipeAt]

theorem pipeAt_of_length_le {i : Nat} (h : args.length ≤ i) : pipeAt parity args i = false := by
  simp [pipeAt, List.getElem?_eq_none h]

/-- A character that is not handled adds no place. -/
theorem pipeAt_concat_of_not (h : ¬ (c = '|' ∧ backslashes args % 2 = parity)) :
    pipeAt parity (args ++ [c]) = pipeAt parity args := by
  funext i
  rcases Nat.lt_trichotomy i args.length with hlt | rfl | hgt
  · exact pipeAt_concat_of_lt parity args c hlt
  · rw [pipeAt_concat_length, pipeAt_of_length_le parity args (Nat.le_refl _), decide_eq_false h]
  · rw [pipeAt_of_length_le parity args (Nat.le_of_lt hgt), pipeAt_of_length_le]
    simpa using hgt

theorem pipesOf_concat :
    pipesOf parity (args ++ [c]) =
      pipesOf parity args + if c = '|' ∧ backslashes args % 2 = parity then 1 else 0 := by
  have hsame : (List.range args.length).countP (pipeAt parity (args ++ [c])) =
      pipesOf parity args :=
    List.countP_congr fun i hi => by rw [pipeAt_concat_of_lt _ _ _ (List.mem_range.1 hi)]
  rw [pipesOf, List.length_append, List.length_singleton, List.range_succ, List.countP_append, hsame]
  simp [pipeAt_concat_length]

end

theorem putAt_append (word : List Char) (places : Nat → Bool) (a b : List Char) :
    putAt word places (a ++ b) =
      putAt word places a ++ putAt word (fun i => places (i + a.length)) b := by
  rw [putAt, List.mapIdx_append, List.flatten_append]
  rfl

theorem putAt_singleton (word : List Char) (places : Nat → Bool) (c : Char) :
    putAt word places [c] = if places 0 then word else [c] := by
  simp [putAt]

theorem putAt_congr (word : List Char) {places places' : Nat → Bool} {args : List Char}
    (h : ∀ i < args.length, places i = places' i) :
    putAt word places args = putAt word places' args := by
  refine congrArg List.flatten (List.mapIdx_eq_mapIdx_iff.2 fun i hi => ?_)
  rw [h i hi]

theorem escapedAt_concat (encoding : Encoding) (args : List Char) (c : Char) :
    escapedAt encoding (args ++ [c]) =
      escapedAt encoding args ++
        if c = '|' ∧ backslashes args % 2 = 0 then encoding.token else [c] := by
  have hsame := @putAt_congr encoding.token _ _ args fun i hi => pipeAt_concat_of_lt 0 args c hi
  rw [escapedAt, putAt_append, hsame, putAt_singleton, Nat.zero_add, pipeAt_concat_length]
  simp [escapedAt]

/-- A run that is not empty ends in a backslash. -/
theorem exists_concat_of_backslashes_pos {args : List Char} (h : 0 < backslashes args) :
    ∃ lead, args = lead ++ ['\\'] := by
  rcases List.eq_nil_or_concat args with rfl | ⟨lead, c, rfl⟩
  · simp [backslashes] at h
  · rw [List.concat_eq_append] at h ⊢
    by_cases hc : c = '\\'
    · exact ⟨lead, by rw [hc]⟩
    · rw [backslashes_concat_of_ne lead hc] at h
      exact absurd h (Nat.lt_irrefl 0)

theorem unescapedAt_concat_of_not (args : List Char) {c : Char}
    (h : ¬ (c = '|' ∧ backslashes args % 2 = 1)) :
    unescapedAt (args ++ [c]) = unescapedAt args ++ [c] := by
  have hend : pipeAt 1 args (0 + args.length + 1) = false :=
    pipeAt_of_length_le 1 args (by omega)
  rw [unescapedAt, pipeAt_concat_of_not 1 args c h, putAt_append, putAt_singleton, hend]
  rfl

theorem unescapedAt_concat_pipe (lead : List Char) (h : backslashes (lead ++ ['\\']) % 2 = 1) :
    unescapedAt (lead ++ ['\\'] ++ ['|']) = unescapedAt lead ++ ['|'] := by
  have hlength : (lead ++ ['\\']).length = lead.length + 1 := by simp
  have hplace : pipeAt 1 (lead ++ ['\\'] ++ ['|']) (lead.length + 1) = true := by
    rw [← hlength, pipeAt_concat_length]
    exact decide_eq_true ⟨rfl, h⟩
  have hend : pipeAt 1 (lead ++ ['\\'] ++ ['|']) (lead.length + 1 + 1) = false :=
    pipeAt_of_length_le 1 _ (by simp)
  have hsame : ∀ i < lead.length,
      pipeAt 1 (lead ++ ['\\'] ++ ['|']) (i + 1) = pipeAt 1 lead (i + 1) := by
    intro i hi
    have hlead := pipeAt_concat_of_not 1 lead '\\' fun hpipe => absurd hpipe.1 (by decide)
    rw [pipeAt_concat_of_lt 1 _ '|' (by rw [hlength]; omega), hlead]
  rw [unescapedAt, putAt_append, putAt_append, putAt_congr [] hsame, putAt_singleton,
    putAt_singleton, Nat.zero_add, Nat.zero_add, hlength, hplace, hend]
  simp [unescapedAt]

/-! ### Bytes -/

theorem toNat_toUInt8 {c : Char} (h : c.toNat < 128) : c.toUInt8.toNat = c.toNat := by
  show c.val.toUInt8.toNat = c.toNat
  rw [UInt32.toNat_toUInt8, Char.toNat_val]
  omega

/-- Every byte of a longer form has its first bit set. -/
theorem le_toNat_of_mem_utf8EncodeChar {c : Char} (h : ¬ c.val.toNat ≤ 127) :
    ∀ byte ∈ String.utf8EncodeChar c, 128 ≤ byte.toNat := by
  rw [String.utf8EncodeChar, if_neg h]
  split <;> [skip; split] <;>
    simp only [List.forall_mem_cons, UInt8.toNat_ofNat', List.not_mem_nil, false_implies,
      implies_true, and_true] <;> omega

/-- No byte of another character looks like an ASCII one. -/
theorem ne_of_mem_utf8EncodeChar {c ascii : Char} (hascii : ascii.toNat < 128) (hne : c ≠ ascii)
    {byte : UInt8} (h : byte ∈ String.utf8EncodeChar c) : byte ≠ ascii.toUInt8 := by
  have hnat : c.toNat ≠ ascii.toNat := fun heq => hne (Char.toNat_inj.1 heq)
  intro hbyte
  have hvalue : byte.toNat = ascii.toNat := by rw [hbyte, toNat_toUInt8 hascii]
  by_cases hsize : c.val.toNat ≤ 127
  · rw [String.utf8EncodeChar, if_pos hsize, List.mem_singleton] at h
    rw [h, UInt8.toNat_ofNat', Char.toNat_val] at hvalue
    rw [Char.toNat_val] at hsize
    omega
  · have := le_toNat_of_mem_utf8EncodeChar hsize byte h
    omega

/-- The bytes of a text, one character after the other. -/
theorem toList_data_toByteArray (args : String) :
    args.toByteArray.data.toList = args.toList.flatMap String.utf8EncodeChar := by
  rw [← String.ofList_toList (s := args), String.toByteArray_ofList, String.toList_ofList,
    List.utf8Encode, List.toList_data_toByteArray]

/-! ### One character -/

section
variable {handling : Handling} {args : String}

theorem scanFrom_append (a b : List UInt8) (index : Nat) (scan : Scan) :
    scanFrom handling args index (a ++ b) scan =
      (scanFrom handling args index a scan).bind
        (scanFrom handling args (index + a.length) b) := by
  induction a generalizing index scan with
  | nil => simp [scanFrom]
  | cons byte a ih =>
    rw [List.cons_append, scanFrom, scanFrom]
    cases scan.next? handling args index byte with
    | none => rfl
    | some next =>
      simp only [ih, List.length_cons, Nat.add_assoc, Nat.add_comm 1]

/-- A byte that is neither a backslash nor a pipe to handle ends the run. -/
theorem next?_other {byte : UInt8} (scan : Scan) (index : Nat) (hback : byte ≠ '\\'.toUInt8)
    (hpipe : ¬ (byte = '|'.toUInt8 ∧ scan.backslashes % 2 = handling.parity)) :
    scan.next? handling args index byte = some { scan with backslashes := 0 } := by
  rw [Scan.next?, if_neg hback, if_neg hpipe]

theorem scanFrom_others {bytes : List UInt8}
    (h : ∀ byte ∈ bytes, byte ≠ '\\'.toUInt8 ∧ byte ≠ '|'.toUInt8) (hne : bytes ≠ [])
    (index : Nat) (scan : Scan) :
    scanFrom handling args index bytes scan = some { scan with backslashes := 0 } := by
  induction bytes generalizing index scan with
  | nil => exact absurd rfl hne
  | cons byte bytes ih =>
    obtain ⟨⟨hback, hpipe⟩, hrest⟩ := List.forall_mem_cons.1 h
    rw [scanFrom, next?_other scan index hback fun hbyte => hpipe hbyte.1]
    by_cases hbytes : bytes = []
    · rw [hbytes]
      rfl
    · exact ih hrest hbytes _ _

/-- A character that is neither a backslash nor a pipe to handle ends the run. -/
theorem scanFrom_other {c : Char} (scan : Scan) (index : Nat) (hback : c ≠ '\\')
    (hpipe : ¬ (c = '|' ∧ scan.backslashes % 2 = handling.parity)) :
    scanFrom handling args index (String.utf8EncodeChar c) scan =
      some { scan with backslashes := 0 } := by
  by_cases hc : c = '|'
  · subst hc
    show scanFrom handling args index ['|'.toUInt8] scan = _
    rw [scanFrom, next?_other scan index (by decide) fun hbyte => hpipe ⟨rfl, hbyte.2⟩]
    rfl
  · refine scanFrom_others (fun byte hbyte => ?_) ?_ index scan
    · exact ⟨ne_of_mem_utf8EncodeChar (by decide) hback hbyte,
        ne_of_mem_utf8EncodeChar (by decide) hc hbyte⟩
    · exact List.ne_nil_of_length_pos (by rw [String.length_utf8EncodeChar]; exact c.utf8Size_pos)

end

/-! ### What a handling makes -/

/-- How the pipe after `done` is handled. The splice cuts out `cut`, a part of the pipe and the run
before it, and leaves `tail` to be read. -/
structure Handling.Handles (handling : Handling) (spelled : List Char → List Char)
    (done kept run cut tail word : List Char) : Prop where
  split : done = kept ++ run
  runs : run.length ≤ backslashes done
  cuts : run ++ ['|'] = cut ++ tail
  splice : handling.splice? (byteSize done) =
    some ⟨byteSize kept, byteSize (kept ++ cut), String.ofList word⟩
  before : spelled done = spelled kept ++ run
  after : spelled (done ++ ['|']) = spelled kept ++ word ++ tail

/-- What a handling makes of a text, from the left. -/
structure Handling.Makes (handling : Handling) (spelled : List Char → List Char) : Prop where
  nil : spelled [] = []
  keep : ∀ done c, ¬ (c = '|' ∧ backslashes done % 2 = handling.parity) →
    spelled (done ++ [c]) = spelled done ++ [c]
  handle : ∀ done, backslashes done % 2 = handling.parity →
    ∃ kept run cut tail word, handling.Handles spelled done kept run cut tail word

theorem makes_escaping (encoding : Encoding) :
    (Handling.escaping encoding).Makes (escapedAt encoding) where
  nil := rfl
  keep done c hc := by
    have hkept : ¬ (c = '|' ∧ backslashes done % 2 = 0) := hc
    rw [escapedAt_concat, if_neg hkept]
  handle done hparity := by
    refine ⟨done, [], ['|'], [], encoding.token, (List.append_nil done).symm, Nat.zero_le _, rfl, ?_,
      (List.append_nil _).symm, ?_⟩
    · rw [byteSize_append]
      rfl
    · rw [escapedAt_concat, if_pos ⟨rfl, hparity⟩, List.append_nil]

theorem makes_unescaping : Handling.unescaping.Makes unescapedAt where
  nil := rfl
  keep done c hc := unescapedAt_concat_of_not done hc
  handle done hparity := by
    have hodd : backslashes done % 2 = 1 := hparity
    obtain ⟨lead, rfl⟩ := @exists_concat_of_backslashes_pos done (by omega)
    refine ⟨lead, ['\\'], ['\\'], ['|'], [], rfl, ?_, rfl, ?_, ?_, ?_⟩
    · rw [backslashes_concat_backslash]
      exact Nat.le_add_left _ _
    · have hsize : byteSize (lead ++ ['\\']) = byteSize lead + 1 := by
        rw [byteSize_append]
        rfl
      rw [hsize]
      rfl
    · exact unescapedAt_concat_of_not lead fun hpipe => absurd hpipe.1 (by decide)
    · rw [unescapedAt_concat_pipe lead hodd, List.append_nil]

/-! ### The scan -/

/-- The scan has read `done ++ pending`, and its draft has come to the end of `done`. -/
structure Reads (handling : Handling) (spelled : List Char → List Char) (scan : Scan)
    (done pending written : List Char) : Prop where
  counted : scan.backslashes = backslashes (done ++ pending)
  /-- The run is pending. -/
  runs : backslashes (done ++ pending) ≤ pending.length
  pipes : scan.pipes = pipesOf handling.parity (done ++ pending)
  /-- There is a draft once a pipe was handled. -/
  drafted : scan.draft.text.isSome = true ↔ scan.pipes ≠ 0
  stands : scan.draft.Stands done written
  made : written ++ pending = spelled (done ++ pending)

section
variable {handling : Handling} {spelled : List Char → List Char} {args : String} {scan : Scan}
  {done pending written rest : List Char}

theorem reads_start (h : handling.Makes spelled) : Reads handling spelled {} [] [] [] where
  counted := rfl
  runs := Nat.le_refl _
  pipes := rfl
  drafted := by simp
  stands := Text.Draft.stands_start
  made := h.nil.symm

/-- A character that is kept is pending. -/
theorem Reads.keep (hreads : Reads handling spelled scan done pending written)
    (h : handling.Makes spelled) {c : Char} {run : Nat}
    (hc : ¬ (c = '|' ∧ backslashes (done ++ pending) % 2 = handling.parity))
    (hrun : run = backslashes (done ++ pending ++ [c])) (hle : run ≤ pending.length + 1) :
    Reads handling spelled { scan with backslashes := run } done (pending ++ [c]) written where
  counted := by rw [← List.append_assoc, hrun]
  runs := by
    rw [← List.append_assoc, ← hrun, List.length_append]
    exact hle
  pipes := by rw [← List.append_assoc, pipesOf_concat, if_neg hc, Nat.add_zero, hreads.pipes]
  drafted := hreads.drafted
  stands := hreads.stands
  made := by rw [← List.append_assoc, ← List.append_assoc, h.keep _ _ hc, hreads.made]

/-- For a pipe to handle the draft takes a splice. -/
theorem Reads.handle (hreads : Reads handling spelled scan done pending written)
    (h : handling.Makes spelled)
    (hparity : backslashes (done ++ pending) % 2 = handling.parity)
    (hargs : args.toList = done ++ pending ++ '|' :: rest) :
    ∃ scan' done' pending' written',
      scan.next? handling args (byteSize (done ++ pending)) '|'.toUInt8 = some scan' ∧
        done' ++ pending' = done ++ pending ++ ['|'] ∧
        Reads handling spelled scan' done' pending' written' := by
  obtain ⟨kept, run, cut, tail, word, hhandles⟩ := h.handle _ hparity
  -- the run is pending, so the draft has not come to it
  obtain ⟨copied, rfl⟩ : ∃ copied, pending = copied ++ run := by
    have hsuffix : run <:+ done ++ pending := ⟨kept, hhandles.split.symm⟩
    obtain ⟨copied, hcopied⟩ := List.suffix_of_suffix_length_le hsuffix (List.suffix_append _ _)
      (Nat.le_trans hhandles.runs hreads.runs)
    exact ⟨copied, hcopied.symm⟩
  obtain rfl : done ++ copied = kept := by
    have hsplit := hhandles.split
    rw [← List.append_assoc] at hsplit
    exact List.append_cancel_right hsplit
  have hkept : written ++ copied = spelled (done ++ copied) := by
    have hspelled := hreads.made
    rw [hhandles.before, ← List.append_assoc] at hspelled
    exact List.append_cancel_right hspelled
  have hread : done ++ (copied ++ run) ++ ['|'] = done ++ copied ++ cut ++ tail := by
    rw [List.append_assoc (done ++ copied), ← hhandles.cuts]
    simp
  have hsource : args.toList = done ++ copied ++ cut ++ (tail ++ rest) := by
    rw [hargs, List.append_cons, hread, List.append_assoc _ tail]
  obtain ⟨draft, hsplice, hsome, hstands⟩ := hreads.stands.splice hsource word
  refine ⟨⟨draft, 0, scan.pipes + 1⟩, done ++ copied ++ cut, tail, written ++ copied ++ word, ?_,
    hread.symm, ?_⟩
  · rw [Scan.next?, if_neg (by decide), if_pos ⟨rfl, by rw [hreads.counted, hparity]⟩,
      hhandles.splice]
    simp only [hsplice, Option.map_some]
  · have hzero := @backslashes_concat_of_ne (done ++ (copied ++ run)) '|' (by decide)
    rw [hread] at hzero
    refine ⟨hzero.symm, by rw [hzero]; exact Nat.zero_le _, ?_, ?_, hstands, ?_⟩
    · rw [← hread, pipesOf_concat, if_pos ⟨rfl, hparity⟩, hreads.pipes]
    · simp [hsome]
    · rw [← hread, hhandles.after, hkept]

/-- **One character further**, whatever its bytes are. -/
theorem Reads.step (hreads : Reads handling spelled scan done pending written)
    (h : handling.Makes spelled) {c : Char} (hargs : args.toList = done ++ pending ++ c :: rest) :
    ∃ scan' done' pending' written',
      scanFrom handling args (byteSize (done ++ pending)) (String.utf8EncodeChar c) scan =
          some scan' ∧
        done' ++ pending' = done ++ pending ++ [c] ∧
        Reads handling spelled scan' done' pending' written' := by
  have hassoc : done ++ (pending ++ [c]) = done ++ pending ++ [c] := (List.append_assoc ..).symm
  by_cases hback : c = '\\'
  · subst hback
    refine ⟨_, done, pending ++ ['\\'], written, rfl, hassoc, ?_⟩
    refine hreads.keep h (fun hpipe => absurd hpipe.1 (by decide)) ?_ ?_
    · rw [backslashes_concat_backslash, hreads.counted]
    · rw [hreads.counted]
      exact Nat.succ_le_succ hreads.runs
  · by_cases hpipe : c = '|' ∧ backslashes (done ++ pending) % 2 = handling.parity
    · obtain ⟨rfl, hparity⟩ := hpipe
      obtain ⟨scan', done', pending', written', hnext, hrest⟩ := hreads.handle h hparity hargs
      refine ⟨scan', done', pending', written', ?_, hrest⟩
      show scanFrom handling args _ ['|'.toUInt8] scan = _
      rw [scanFrom, hnext]
      rfl
    · have hscan := @scanFrom_other handling args c scan (byteSize (done ++ pending)) hback
        (by rwa [hreads.counted])
      refine ⟨_, done, pending ++ [c], written, hscan, hassoc, ?_⟩
      exact hreads.keep h hpipe (backslashes_concat_of_ne _ hback).symm (Nat.zero_le _)

/-- The scan comes to the end. -/
theorem Reads.run_to_end (hreads : Reads handling spelled scan done pending written)
    (h : handling.Makes spelled) (hargs : args.toList = done ++ pending ++ rest) :
    ∃ scan' done' pending' written',
      scanFrom handling args (byteSize (done ++ pending)) (rest.flatMap String.utf8EncodeChar) scan =
          some scan' ∧
        done' ++ pending' = args.toList ∧ Reads handling spelled scan' done' pending' written' := by
  induction rest generalizing scan done pending written with
  | nil => exact ⟨scan, done, pending, written, rfl, by rw [hargs, List.append_nil], hreads⟩
  | cons c rest ih =>
    obtain ⟨scan', done', pending', written', hscan, hread, hreads'⟩ := hreads.step h hargs
    have hindex : byteSize (done ++ pending) + (String.utf8EncodeChar c).length =
        byteSize (done' ++ pending') := by
      rw [hread, byteSize_append _ [c], String.length_utf8EncodeChar]
      rfl
    rw [List.flatMap_cons, scanFrom_append, hscan, Option.bind_some, hindex]
    exact ih hreads' (by rw [hread, hargs, List.append_assoc _ [c]]; rfl)

/-- **Every slice of a scan can be taken**, and the edit is what the handling makes of the text. -/
theorem editBytes_makes (h : handling.Makes spelled) (args : String) :
    editBytes handling args =
      some (reported (spelled args.toList) (pipesOf handling.parity args.toList)) := by
  have hargs : args.toList = [] ++ [] ++ args.toList := rfl
  obtain ⟨scan, done, pending, written, hscan, hread, hreads⟩ := (reads_start h).run_to_end h hargs
  have hfinish := hreads.stands.finish hread.symm
  have hpipes := hreads.pipes
  rw [hread] at hpipes
  have hdrafted := hreads.drafted
  rw [List.nil_append, byteSize] at hscan
  rw [editBytes, toList_data_toByteArray, hscan]
  simp only [hfinish, ← hpipes, hreads.made, hread]
  by_cases hzero : scan.pipes = 0
  · have hnone : scan.draft.text = none := by
      rw [← Option.not_isSome_iff_eq_none, hdrafted, not_not]
      exact hzero
    simp [hnone, hzero, reported]
  · obtain ⟨text, htext⟩ := Option.isSome_iff_exists.1 (hdrafted.2 hzero)
    simp [htext, hzero, reported]

end

/-! ### Reading once from the left -/

theorem escapedAt_append (encoding : Encoding) (before args : List Char) :
    escapedAt encoding (before ++ args) =
      escapedAt encoding before ++ protect encoding.token (oddRun before) args := by
  induction args generalizing before with
  | nil => simp [protect]
  | cons c rest ih =>
    rw [List.append_cons, ih, escapedAt_concat, protect_cons, List.append_assoc]
    simp only [oddRun_eq_false_iff]

theorem pipesOf_zero_append (before args : List Char) :
    pipesOf 0 (before ++ args) = pipesOf 0 before + structural (oddRun before) args := by
  induction args generalizing before with
  | nil => simp [structural]
  | cons c rest ih =>
    rw [List.append_cons, ih, pipesOf_concat, structural_cons, Nat.add_assoc]
    simp only [oddRun_eq_false_iff]

theorem escaped_cons (before : List Char) (c : Char) (rest : List Char) :
    escaped (oddRun before) (c :: rest) =
      (if c = '|' ∧ oddRun before = true then 1 else 0) +
        escaped (oddRun (before ++ [c])) rest := by
  rw [escaped, oddRun_append]
  by_cases hback : c = '\\'
  · subst hback
    simp
  · rw [if_neg hback]
    split <;> simp [hback, Nat.add_comm]

theorem pipesOf_one_append (before args : List Char) :
    pipesOf 1 (before ++ args) = pipesOf 1 before + escaped (oddRun before) args := by
  induction args generalizing before with
  | nil => simp [escaped]
  | cons c rest ih =>
    rw [List.append_cons, ih, pipesOf_concat, escaped_cons, Nat.add_assoc]
    simp only [oddRun, decide_eq_true_eq]

theorem expose_cons_of_not {odd : Bool} {c : Char} {rest : List Char}
    (h : ¬ (c = '\\' ∧ odd = false ∧ rest.head? = some '|')) :
    expose odd (c :: rest) = c :: expose (decide (c = '\\') && !odd) rest := by
  rw [expose]
  by_cases hback : c = '\\'
  · rw [if_pos hback, if_neg fun hnext => h ⟨hback, hnext⟩, decide_eq_true hback, Bool.true_and]
  · rw [if_neg hback, decide_eq_false hback, Bool.false_and]

/-- A text is not cut between a backslash that goes and its pipe. -/
theorem unescapedAt_append {before args : List Char}
    (h : ¬ (args.head? = some '|' ∧ oddRun before = true)) :
    unescapedAt (before ++ args) = unescapedAt before ++ expose (oddRun before) args := by
  match args with
  | [] => simp [expose]
  | c :: rest =>
    by_cases hdrop : c = '\\' ∧ oddRun before = false ∧ rest.head? = some '|'
    · obtain ⟨rfl, heven, hhead⟩ := hdrop
      obtain ⟨rest, rfl⟩ := List.head?_eq_some_iff.1 hhead
      have hodd : oddRun (before ++ ['\\']) = true := by
        rw [oddRun_backslash, heven]
        rfl
      have hpipe : oddRun (before ++ ['\\'] ++ ['|']) = false := oddRun_other (by decide) _
      have hrest : ¬ (rest.head? = some '|' ∧ oddRun (before ++ ['\\'] ++ ['|']) = true) := by
        rw [hpipe]
        exact fun hnext => Bool.false_ne_true hnext.2
      rw [List.append_cons, List.append_cons, unescapedAt_append hrest,
        unescapedAt_concat_pipe before (of_decide_eq_true hodd), hpipe, heven]
      simp [expose]
    · have hkeep : unescapedAt (before ++ [c]) = unescapedAt before ++ [c] := by
        refine unescapedAt_concat_of_not before fun hpipe => h ⟨?_, decide_eq_true hpipe.2⟩
        rw [List.head?_cons, hpipe.1]
      have hrest : ¬ (rest.head? = some '|' ∧ oddRun (before ++ [c]) = true) := by
        rw [oddRun_append, Bool.and_eq_true, decide_eq_true_eq, Bool.not_eq_true']
        exact fun hpipe => hdrop ⟨hpipe.2.1, hpipe.2.2, hpipe.1⟩
      rw [List.append_cons, unescapedAt_append hrest, hkeep, expose_cons_of_not hdrop,
        oddRun_append, List.append_assoc]
      rfl
termination_by args.length

theorem escapeArgs_eq (encoding : Encoding) (args : List Char) :
    escapeArgs encoding args = reported (escapedAt encoding args) (pipesOf 0 args) := by
  have htext : escapedAt encoding args = protect encoding.token false args :=
    escapedAt_append encoding [] args
  have hpipes : pipesOf 0 args = structural false args :=
    (pipesOf_zero_append [] args).trans (Nat.zero_add _)
  rw [htext, hpipes, escapeArgs, reported]
  cases structural false args <;> rfl

theorem unescapeArgs_eq (args : List Char) :
    unescapeArgs args = reported (unescapedAt args) (pipesOf 1 args) := by
  have htext : unescapedAt args = expose false args :=
    @unescapedAt_append [] args fun h => Bool.false_ne_true h.2
  have hpipes : pipesOf 1 args = escaped false args :=
    (pipesOf_one_append [] args).trans (Nat.zero_add _)
  rw [htext, hpipes, unescapeArgs, reported]
  cases escaped false args <;> rfl

/-- What is dropped is a backslash. -/
theorem backslash_of_pipeAt {args : List Char} {i : Nat} (h : pipeAt 1 args (i + 1) = true) :
    args[i]? = some '\\' := by
  obtain ⟨hpipe, hodd⟩ := of_decide_eq_true h
  obtain ⟨hlt, -⟩ := List.getElem?_eq_some_iff.1 hpipe
  obtain ⟨lead, hlead⟩ := @exists_concat_of_backslashes_pos (args.take (i + 1)) (by omega)
  have hlength : lead.length = i := by
    have := congrArg List.length hlead
    rw [List.length_take, List.length_append, List.length_singleton] at this
    omega
  have hget : (args.take (i + 1))[i]? = some '\\' := by
    rw [hlead, ← hlength, List.getElem?_concat_length]
  rwa [List.getElem?_take_of_lt (Nat.lt_succ_self i)] at hget

/-- **Editing the bytes of arguments is editing their places.** No slice fails on the way: each one
runs from a boundary to a later one, and there always is a byte before a pipe to unescape. What comes
out is the text with a word at the places of the pipes handled, and how many they are; nothing comes
out where there is none. Reading the characters once from the left comes to the same. -/
theorem editBytes_places (args : String) :
    (∀ encoding,
        editBytes (.escaping encoding) args =
            some (reported (escapedAt encoding args.toList) (pipesOf 0 args.toList)) ∧
          escapeArgs encoding args.toList =
            reported (escapedAt encoding args.toList) (pipesOf 0 args.toList)) ∧
      editBytes .unescaping args =
          some (reported (unescapedAt args.toList) (pipesOf 1 args.toList)) ∧
        unescapeArgs args.toList = reported (unescapedAt args.toList) (pipesOf 1 args.toList) ∧
        (∀ i, pipeAt 1 args.toList (i + 1) = true → args.toList[i]? = some '\\') ∧
      ∀ start stop, (Text.slice? args start stop).isSome = true ↔
        start ≤ stop ∧ stop ≤ args.utf8ByteSize ∧
          String.Pos.Raw.IsValid args ⟨start⟩ ∧ String.Pos.Raw.IsValid args ⟨stop⟩ := by
  refine ⟨fun encoding => ⟨editBytes_makes (makes_escaping encoding) args, escapeArgs_eq encoding _⟩,
    editBytes_makes makes_unescaping args, unescapeArgs_eq _, fun i => backslash_of_pipeAt,
    fun start stop => ?_⟩
  rw [Text.slice?]
  split <;> simp_all

/-- A character of two bytes before a run of three backslashes. -/
example : editBytes .unescaping "é\\\\\\|b" = some (some ⟨"é\\\\|b".toList, 1⟩) := by
  decide +kernel

end PipeGuard.Pipe
