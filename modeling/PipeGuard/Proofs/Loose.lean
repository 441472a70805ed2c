import PipeGuard.Proofs.Passes

/-! The backslashes of a text that restoring takes off.

A pipe is loose when an odd run of backslashes stands before it, an opening of one
of the names was written with no closing since, and a closing is still to come
(`Loose`). `looseAt` picks the place right before such a pipe.

A text is read as places whose held pipes are written with a backslash
(`exists_spell`): they are the escaped pipes of the text, and every pipe of the
plain text has an even run before it (`Bare`). To restore is to release held
pipes, which changes the plain text nowhere (`spell_release`). -/
namespace PipeGuard

/-! ### Loose pipes -/

/-- A pipe that stands between `before` and `after` is escaped in a call of
`names`. -/
structure Loose (names : List (List Char)) (before after : List Char) : Prop where
  odd : backslashes before % 2 = 1
  inCall : InCall names before
  closes : Call.closing <:+: after

instance (names : List (List Char)) (before after : List Char) :
    Decidable (Loose names before after) :=
  decidable_of_iff (backslashes before % 2 = 1 ∧ InCall names before ∧ Call.closing <:+: after)
    ⟨fun h => ⟨h.1, h.2.1, h.2.2⟩, fun h => ⟨h.odd, h.inCall, h.closes⟩⟩

/-- The character at `i` stands right before a loose pipe. -/
def looseAt (names : List (List Char)) (text : List Char) (i : Nat) : Bool :=
  decide (text[i + 1]? = some '|' ∧ Loose names (text.take (i + 1)) (text.drop (i + 2)))

theorem looseAt_append (names : List (List Char)) (before : List Char) (c : Char)
    (after : List Char) :
    looseAt names (before ++ c :: after) before.length =
      decide (after.head? = some '|' ∧ Loose names (before ++ [c]) after.tail) := by
  have hsplit : before ++ c :: after = (before ++ [c]) ++ after := by simp
  have hlen : before.length + 1 = (before ++ [c]).length := by simp
  have htake : ((before ++ [c]) ++ after).take (before.length + 1) = before ++ [c] := by
    rw [hlen, List.take_left]
  have hdrop : ((before ++ [c]) ++ after).drop (before.length + 2) = after.tail := by
    rw [← List.tail_drop, hlen, List.drop_left]
  have hget : ((before ++ [c]) ++ after)[before.length + 1]? = after.head? := by
    rw [hlen, List.getElem?_append_right (Nat.le_refl _), Nat.sub_self, List.head?_eq_getElem?]
  rw [looseAt, hsplit, htake, hdrop, hget]

/-- The names matter as a set. -/
theorem looseAt_congr {names names' : List (List Char)} (h : ∀ name, name ∈ names ↔ name ∈ names')
    (text : List Char) : looseAt names text = looseAt names' text := by
  funext i
  refine decide_eq_decide.2 (and_congr_right fun _ => ?_)
  exact ⟨fun hl => ⟨hl.odd, hl.inCall.imp fun _ hc => ⟨(h _).1 hc.1, hc.2⟩, hl.closes⟩,
    fun hl => ⟨hl.odd, hl.inCall.imp fun _ hc => ⟨(h _).2 hc.1, hc.2⟩, hl.closes⟩⟩

/-- What stands right before a loose pipe is a backslash. -/
theorem backslash_of_looseAt {names : List (List Char)} {text : List Char} {i : Nat}
    (h : looseAt names text i = true) : text[i]? = some '\\' ∧ text[i + 1]? = some '|' := by
  obtain ⟨hpipe, hloose⟩ := of_decide_eq_true h
  refine ⟨?_, hpipe⟩
  have hlt : i < text.length := by
    obtain ⟨hlt, -⟩ := List.getElem?_eq_some_iff.1 hpipe
    omega
  have hodd : oddRun (text.take i ++ [text[i]]) = true := by
    rw [List.take_append_getElem]
    exact decide_eq_true hloose.odd
  rw [List.getElem?_eq_getElem hlt]
  rw [oddRun_append, Bool.and_eq_true, decide_eq_true_eq] at hodd
  rw [hodd.1]

/-- The text without the characters at the places that `S` picks. -/
def strike (S : Nat → Bool) : List Char → List Char
  | [] => []
  | c :: rest =>
    if S 0 then strike (fun i => S (i + 1)) rest else c :: strike (fun i => S (i + 1)) rest

theorem length_strike (S : Nat → Bool) (text : List Char) :
    (strike S text).length + (List.range text.length).countP S = text.length := by
  induction text generalizing S with
  | nil => rfl
  | cons c rest ih =>
    have hrest := ih fun i => S (i + 1)
    rw [List.length_cons, List.range_succ_eq_map, List.countP_cons, List.countP_map]
    show (strike S (c :: rest)).length +
      ((List.range rest.length).countP (fun i => S (i + 1)) + _) = _
    rw [strike]
    by_cases hS : S 0 = true
    · simp only [hS, if_true]
      omega
    · simp only [hS, if_false, List.length_cons, Bool.false_eq_true]
      omega

/-! ### Releasing held pipes -/

namespace Cell

/-- Makes characters of the held pipes at the places that `S` picks. -/
def release (S : Nat → Bool) (m : List Cell) : List Cell :=
  m.mapIdx fun i x => if x = .held ∧ S i = true then .char '|' else x

theorem release_cons (S : Nat → Bool) (x : Cell) (m : List Cell) :
    release S (x :: m) =
      (if x = .held ∧ S 0 = true then .char '|' else x) :: release (fun i => S (i + 1)) m := by
  rw [release, List.mapIdx_cons]
  rfl

theorem release_append (S : Nat → Bool) (a b : List Cell) :
    release S (a ++ b) = release S a ++ release (fun i => S (a.length + i)) b := by
  simp only [release, List.mapIdx_append, Nat.add_comm]

theorem release_false (m : List Cell) : release (fun _ => false) m = m := by
  induction m with
  | nil => rfl
  | cons x m ih => simp [release_cons, ih]

theorem length_release (S : Nat → Bool) (m : List Cell) : (release S m).length = m.length :=
  List.length_mapIdx

theorem release_map_char (S : Nat → Bool) (text : List Char) :
    release S (text.map char) = text.map char := by
  induction text generalizing S with
  | nil => rfl
  | cons c text ih => simp [release_cons, ih]

theorem plain_release (S : Nat → Bool) (m : List Cell) : plain (release S m) = plain m := by
  induction m generalizing S with
  | nil => rfl
  | cons x m ih =>
    rw [release_cons]
    split
    · rename_i hx
      rw [hx.1]
      simp only [spell, ih, List.singleton_append]
    · cases x <;> simp only [spell, ih]

theorem release_release (S S' : Nat → Bool) (m : List Cell) :
    release S' (release S m) = release (fun i => S i || S' i) m := by
  induction m generalizing S S' with
  | nil => rfl
  | cons x m ih =>
    simp only [release_cons, ih]
    by_cases hx : x = .held <;> cases S 0 <;> cases S' 0 <;> simp [hx]

/-- Where all held pipes are released, the text is plain. -/
theorem release_of_held {S : Nat → Bool} {m : List Cell}
    (h : ∀ i, m[i]? = some .held → S i = true) : release S m = (plain m).map char := by
  induction m generalizing S with
  | nil => rfl
  | cons x m ih =>
    have hrest := @ih (fun i => S (i + 1)) fun i hi => h (i + 1) (by simpa using hi)
    rw [release_cons, hrest]
    cases x with
    | char c => simp [spell]
    | held =>
      have hzero : S 0 = true := h 0 rfl
      simp [spell, hzero]

end Cell

/-! ### Plain texts with no escaped pipe -/

/-- Every pipe of the text has an even run of backslashes before it. -/
def Bare (before text : List Char) : Prop :=
  ∀ a b, text = a ++ '|' :: b → oddRun (before ++ a) = false

theorem bare_nil (before : List Char) : Bare before [] := by
  intro a b h
  simp at h

theorem bare_cons {before text : List Char} {c : Char} :
    Bare before (c :: text) ↔ (c = '|' → oddRun before = false) ∧ Bare (before ++ [c]) text := by
  constructor
  · intro h
    refine ⟨fun hc => ?_, fun a b hab => ?_⟩
    · have := h [] text (by rw [hc, List.nil_append])
      rwa [List.append_nil] at this
    · have := h (c :: a) b (by rw [hab, List.cons_append])
      rwa [List.append_assoc]
  · intro h a b hab
    cases a with
    | nil =>
      rw [List.append_nil]
      exact h.1 (List.cons.inj hab).1
    | cons d a =>
      obtain ⟨rfl, htail⟩ := List.cons.inj hab
      have := h.2 a b htail
      rwa [List.append_assoc] at this

theorem Bare.of_append {before a b : List Char} (h : Bare before (a ++ b)) :
    Bare before a ∧ Bare (before ++ a) b := by
  refine ⟨fun x y hxy => h x (y ++ b) (by simp [hxy]), fun x y hxy => ?_⟩
  rw [List.append_assoc]
  exact h (a ++ x) y (by simp [hxy])

/-- In a text with no escaped pipe the held ones are even. -/
theorem evenAt_of_held {before : List Char} {m : List Cell} (h : Bare before (Cell.plain m)) {i : Nat}
    (hi : m[i]? = some .held) : evenAt before m i = true := by
  induction m generalizing before i with
  | nil => simp at hi
  | cons x m ih =>
    have hplain : Cell.plain (x :: m) = Cell.plain [x] ++ Cell.plain m := Cell.plain_append [x] m
    cases i with
    | zero =>
      obtain rfl := Option.some.inj hi
      rw [evenAt, List.take_zero, List.append_nil, (bare_cons.1 h).1 rfl]
      rfl
    | succ i =>
      have hshift : evenAt before (x :: m) (i + 1) = evenAt (before ++ Cell.plain [x]) m i := by
        cases x <;> simp [evenAt, Cell.spell]
      rw [hplain] at h
      rw [hshift]
      exact ih h.of_append.2 (by simpa using hi)

/-! ### Escaped pipes as held ones -/

/-- What stands for a pipe that is held by a backslash. -/
abbrev escapedPipe : List Char := Encoding.backslash.token

/-- **Every text is a plain one whose escaped pipes are held.** -/
theorem exists_spell {before text : List Char} (h : text.head? = some '|' → oddRun before = false) :
    ∃ m, Cell.spell escapedPipe m = text ∧ Bare before (Cell.plain m) := by
  match text, h with
  | [], _ => exact ⟨[], rfl, bare_nil before⟩
  | c :: rest, h =>
    by_cases hpair : c = '\\' ∧ rest.head? = some '|' ∧ oddRun before = false
    · obtain ⟨rfl, hpipe, heven⟩ := hpair
      obtain ⟨after, rfl⟩ : ∃ after, rest = '|' :: after :=
        ⟨rest.tail, (List.cons_head?_tail hpipe).symm⟩
      have hfresh : oddRun (before ++ ['|']) = false := oddRun_other (by decide) before
      obtain ⟨m, hm, hbare⟩ := @exists_spell (before ++ ['|']) after fun _ => hfresh
      exact ⟨.held :: m, by rw [Cell.spell, hm]; rfl, bare_cons.2 ⟨fun _ => heven, hbare⟩⟩
    · have hnext : rest.head? = some '|' → oddRun (before ++ [c]) = false := by
        intro hpipe
        rw [oddRun_append]
        by_cases hc : c = '\\'
        · have hodd : oddRun before = true := by
            by_contra heven
            exact hpair ⟨hc, hpipe, Bool.eq_false_iff.2 heven⟩
          rw [hodd, Bool.not_true, Bool.and_false]
        · rw [decide_eq_false hc, Bool.false_and]
      obtain ⟨m, hm, hbare⟩ := exists_spell hnext
      exact ⟨.char c :: m, by rw [Cell.spell, hm],
        bare_cons.2 ⟨fun hc => h (by rw [hc]; rfl), hbare⟩⟩
termination_by text.length

theorem length_spell_escapedPipe (m : List Cell) :
    (Cell.spell escapedPipe m).length = m.length + m.count .held := by
  induction m with
  | nil => rfl
  | cons x m ih =>
    cases x with
    | char c =>
      rw [Cell.spell, List.length_cons, ih, List.length_cons, List.count_cons_of_ne (by simp)]
      omega
    | held =>
      rw [Cell.spell, List.length_append, ih, List.length_cons, List.count_cons_self]
      show 2 + _ = _
      omega

/-- A pipe in front of a spelled text is a character. -/
theorem exists_char_of_head {m : List Cell} (h : (Cell.spell escapedPipe m).head? = some '|') :
    ∃ m', m = .char '|' :: m' := by
  match m, h with
  | [], h => simp [Cell.spell] at h
  | .char c :: m, h => exact ⟨m, by rw [Option.some.inj h]⟩
  | .held :: m, h => exact absurd (Option.some.inj h) (by decide)

/-- Behind a backslash that has an even run before it stands no bare pipe. -/
theorem not_head_of_bare {before : List Char} {m : List Cell} {c : Char}
    (h : Bare before (Cell.plain (.char c :: m))) (hodd : oddRun (before ++ [c]) = true) :
    (Cell.spell escapedPipe m).head? ≠ some '|' := by
  intro hhead
  obtain ⟨m', rfl⟩ := exists_char_of_head hhead
  have heven := (bare_cons.1 (bare_cons.1 h).2).1 rfl
  rw [heven] at hodd
  cases hodd

/-! ### One reading of the arguments -/

/-- Arguments with no escaped pipe are exposed as they are. -/
theorem expose_of_escaped_eq_zero {odd : Bool} {args : List Char} (h : Pipe.escaped odd args = 0) :
    Pipe.expose odd args = args := by
  induction args generalizing odd with
  | nil => rfl
  | cons c rest ih =>
    rw [Pipe.escaped] at h
    rw [Pipe.expose]
    by_cases hc : c = '\\'
    · rw [if_pos hc] at h ⊢
      have hpair : ¬ (odd = false ∧ rest.head? = some '|') := by
        intro hp
        rw [hp.1, ← List.cons_head?_tail hp.2] at h
        simp [Pipe.escaped] at h
      rw [if_neg hpair, ih h]
    · rw [if_neg hc] at h ⊢
      have hpipe : ¬ (c = '|' ∧ odd = true) := by
        intro hp
        rw [if_pos hp] at h
        exact absurd h (Nat.succ_ne_zero _)
      rw [if_neg hpipe] at h
      rw [ih h]

/-- Exposing arguments releases all that is held in them. -/
theorem expose_spell {before : List Char} {m : List Cell} (h : Bare before (Cell.plain m)) :
    Pipe.expose (oddRun before) (Cell.spell escapedPipe m) = Cell.plain m ∧
      Pipe.escaped (oddRun before) (Cell.spell escapedPipe m) = m.count .held := by
  induction m generalizing before with
  | nil => exact ⟨rfl, rfl⟩
  | cons x m ih =>
    cases x with
    | held =>
      obtain ⟨heven, hbare⟩ := bare_cons.1 h
      obtain ⟨hexpose, hescaped⟩ := ih hbare
      rw [oddRun_other (by decide)] at hexpose hescaped
      rw [heven rfl, List.count_cons_self, ← hescaped]
      refine ⟨?_, by simp [Cell.spell, Encoding.token, Pipe.escaped]⟩
      show _ = '|' :: Cell.plain m
      rw [← hexpose]
      simp [Cell.spell, Encoding.token, Pipe.expose]
    | char c =>
      obtain ⟨hexpose, hescaped⟩ := ih (bare_cons.1 h).2
      have hhead := not_head_of_bare h
      rw [oddRun_append] at hexpose hescaped hhead
      have hplain : Cell.plain (.char c :: m) = c :: Cell.plain m := rfl
      rw [List.count_cons_of_ne (by simp), ← hescaped, Cell.spell, hplain, ← hexpose]
      by_cases hc : c = '\\'
      · subst hc
        simp only [decide_true, Bool.true_and] at hhead ⊢
        have hpair : ¬ (oddRun before = false ∧
            (Cell.spell escapedPipe m).head? = some '|') := fun hp => hhead (by rw [hp.1]; rfl) hp.2
        exact ⟨by rw [Pipe.expose, if_pos rfl, if_neg hpair], by rw [Pipe.escaped, if_pos rfl]⟩
      · simp only [decide_eq_false hc, Bool.false_and]
        have hpipe : ¬ (c = '|' ∧ oddRun before = true) := by
          intro hp
          rw [(bare_cons.1 h).1 hp.1] at hp
          cases hp.2
        exact ⟨by rw [Pipe.expose, if_neg hc], by rw [Pipe.escaped, if_neg hc, if_neg hpipe]⟩

/-! ### What is released -/

theorem oddRun_spell (before : List Char) (m : List Cell) :
    oddRun (before ++ Cell.spell escapedPipe m) = oddRun (before ++ Cell.plain m) := by
  induction m using List.reverseRecOn with
  | nil => rfl
  | append_singleton m x ih =>
    rw [Cell.spell_append, Cell.plain_append, ← List.append_assoc, ← List.append_assoc]
    cases x with
    | held =>
      have hspelled : before ++ Cell.spell escapedPipe m ++ Cell.spell escapedPipe [.held] =
          before ++ Cell.spell escapedPipe m ++ ['\\'] ++ ['|'] := by simp [Cell.spell, Encoding.token]
      rw [hspelled]
      exact (oddRun_other (by decide) _).trans (oddRun_other (by decide) _).symm
    | char c =>
      show oddRun (_ ++ [c]) = oddRun (_ ++ [c])
      rw [oddRun_append, oddRun_append, ih]

/-- A call that is open is open in every spelling. -/
theorem inCall_spell {names : List (List Char)} {u v : List Char}
    (hu : ∀ name ∈ names, Inert name u) (hv : ∀ name ∈ names, Inert name v) {m : List Cell}
    (h : InCall names (Cell.spell u m)) : InCall names (Cell.spell v m) := by
  obtain ⟨name, hname, lead, spelling, body, hspell, htext, hbody⟩ := h
  have hword := hu name hname
  have hbrace : Cell.spell u m = lead ++ '{' :: ('{' :: spelling ++ [':', ':'] ++ body) := by
    rw [htext, opening]
    simp
  obtain ⟨a, b, rfl, -, hb⟩ := Cell.spell_eq_char hword.brace hbrace
  have hopening : Cell.spell u (.char '{' :: b) = opening spelling ++ body := by
    rw [Cell.spell, ← hb]
    rfl
  obtain ⟨m', hm', rfl⟩ :=
    Cell.spell_eq_append hword.ne_nil (hword.not_head hspell) hopening
  refine ⟨name, hname, Cell.spell v a, spelling, Cell.spell v m', hspell, ?_, ?_⟩
  · rw [hm', Cell.spell_append, Cell.spell_append, Cell.spell_map_char, List.append_assoc]
  · rw [Cell.closing_infix_spell (hv name hname).ne_nil (hv name hname).closing]
    rwa [Cell.closing_infix_spell hword.ne_nil hword.closing] at hbody

/-- A character that neither ends an opening nor closes leaves an open call open. -/
theorem inCall_append_char {names : List (List Char)} {before : List Char} {c : Char}
    (hcolon : c ≠ ':') (hclosing : c ≠ '}') : InCall names (before ++ [c]) ↔ InCall names before := by
  constructor
  · intro h
    obtain ⟨name, hname, lead, spelling, body, hspell, htext, hbody⟩ := h
    rcases List.eq_nil_or_concat body with rfl | ⟨init, d, rfl⟩
    · have hends : lead ++ opening spelling ++ [] = lead ++ ('{' :: '{' :: spelling ++ [':']) ++ [':'] := by
        simp [opening]
      rw [hends] at htext
      exact absurd (List.cons.inj (List.append_inj' htext rfl).2).1 hcolon
    · rw [List.concat_eq_append, ← List.append_assoc] at htext
      obtain ⟨rfl, -⟩ := List.append_inj' htext rfl
      rw [List.concat_eq_append] at hbody
      exact ⟨name, hname, lead, spelling, init, hspell, rfl,
        fun hi => hbody (hi.trans (List.prefix_append _ _).isInfix)⟩
  · intro h
    obtain ⟨name, hname, lead, spelling, body, hspell, rfl, hbody⟩ := h
    refine ⟨name, hname, lead, spelling, body ++ [c], hspell, by simp, fun hi => hbody ?_⟩
    rcases List.infix_concat_iff.1 hi with hsuffix | hinfix
    · obtain ⟨init, hinit⟩ := hsuffix
      have hends : init ++ Call.closing = init ++ ['}'] ++ ['}'] := by simp [Call.closing]
      rw [hends] at hinit
      exact absurd (List.cons.inj (List.append_inj' hinit rfl).2).1.symm hclosing
    · exact hinfix

section
variable {names : List (List Char)}

/-- The backslash of a held pipe is loose exactly where the pipe without it is
unguarded. -/
theorem loose_held (hnames : ∀ name ∈ names, Ordinary name) {a m : List Cell}
    (heven : oddRun (Cell.plain a) = false) :
    Loose names (Cell.spell escapedPipe a ++ ['\\']) (Cell.spell escapedPipe m) ↔
      Unguarded names (Cell.plain a) (Cell.plain m) := by
  have hpipe : ∀ name ∈ names, Inert name ['|'] := fun name hname => (hnames name hname).inert_pipe
  have hword : ∀ name ∈ names, Inert name escapedPipe :=
    fun name hname => (hnames name hname).inert_token .backslash
  have hrun : oddRun (Cell.spell escapedPipe a) = false := by
    rw [← heven]
    exact oddRun_spell [] a
  have hodd : backslashes (Cell.spell escapedPipe a ++ ['\\']) % 2 = 1 := by
    have : oddRun (Cell.spell escapedPipe a ++ ['\\']) = true := by rw [oddRun_backslash, hrun]; rfl
    exact of_decide_eq_true this
  have hplain : backslashes (Cell.plain a) % 2 = 0 := by
    have := of_decide_eq_false heven
    omega
  have hcloses : Call.closing <:+: Cell.spell escapedPipe m ↔ Call.closing <:+: Cell.plain m := by
    rw [Cell.closing_infix_spell (by decide) (by decide),
      Cell.closing_infix_spell (by decide) (by decide)]
  constructor
  · intro h
    have hopen := (inCall_append_char (by decide) (by decide)).1 h.inCall
    exact ⟨hplain, inCall_spell hword hpipe hopen, hcloses.1 h.closes⟩
  · intro h
    have hopen := inCall_spell hpipe hword h.inCall
    exact ⟨hodd, (inCall_append_char (by decide) (by decide)).2 hopen, hcloses.2 h.closes⟩

/-- What stands right before a character is no loose pipe's backslash. -/
theorem looseAt_char {a m : List Cell} {c : Char}
    (hbare : Bare (Cell.plain a) (Cell.plain (.char c :: m))) :
    looseAt names (Cell.spell escapedPipe a ++ c :: Cell.spell escapedPipe m)
      (Cell.spell escapedPipe a).length = false := by
  rw [looseAt_append, decide_eq_false_iff_not]
  intro hloose
  refine not_head_of_bare hbare ?_ hloose.1
  have hodd : oddRun (Cell.spell escapedPipe (a ++ [.char c])) = true := by
    rw [Cell.spell_append]
    exact decide_eq_true hloose.2.odd
  have hsame := oddRun_spell [] (a ++ [.char c])
  rw [List.nil_append, List.nil_append, hodd, Cell.plain_append] at hsame
  exact hsame.symm

/-- A pipe is no backslash. -/
theorem looseAt_pipe (before after : List Char) :
    looseAt names (before ++ '|' :: after) before.length = false := by
  rw [looseAt_append, decide_eq_false_iff_not]
  intro hloose
  have hnone : oddRun (before ++ ['|']) = false := oddRun_other (by decide) before
  rw [oddRun, decide_eq_true hloose.2.odd] at hnone
  cases hnone

/-! ### Striking backslashes releases pipes -/

/-- The loose places of a text that goes on after `before`, counted from there. -/
def looseFrom (names : List (List Char)) (before text : List Char) (i : Nat) : Bool :=
  looseAt names (before ++ text) (before.length + i)

theorem strike_append (S : Nat → Bool) (x y : List Char) :
    strike S (x ++ y) = strike S x ++ strike (fun i => S (x.length + i)) y := by
  induction x generalizing S with
  | nil => simp [strike]
  | cons c x ih =>
    have hshift : (fun i => S (x.length + i + 1)) = fun i => S ((c :: x).length + i) := by
      funext i
      rw [List.length_cons, Nat.add_right_comm]
    rw [List.cons_append, strike, strike, ih, hshift]
    split <;> rfl

theorem strike_looseFrom (before x y : List Char) :
    strike (looseFrom names before (x ++ y)) (x ++ y) =
      strike (looseFrom names before (x ++ y)) x ++ strike (looseFrom names (before ++ x) y) y := by
  have hshift : (fun i => looseFrom names before (x ++ y) (x.length + i)) =
      looseFrom names (before ++ x) y := by
    funext i
    rw [looseFrom, looseFrom, List.append_assoc, List.length_append, Nat.add_assoc]
  rw [strike_append, hshift]

theorem release_picks_append (before : List Char) (a b : List Cell) :
    Cell.release (picks names before (a ++ b)) (a ++ b) =
      Cell.release (picks names before (a ++ b)) a ++
        Cell.release (picks names (before ++ Cell.plain a) b) b := by
  rw [Cell.release_append, picks_append]

theorem release_picks_char (before : List Char) (c : Char) (m : List Cell) :
    Cell.release (picks names before (.char c :: m)) (.char c :: m) =
      .char c :: Cell.release (picks names (before ++ [c]) m) m := by
  calc Cell.release (picks names before (.char c :: m)) (.char c :: m)
      = Cell.release (picks names before (.char c :: m)) [.char c] ++
          Cell.release (picks names (before ++ [c]) m) m := release_picks_append before [.char c] m
    _ = _ := by
      rw [Cell.release_cons, if_neg (by simp)]
      rfl

theorem release_picks_held (before : List Char) (m : List Cell) :
    Cell.release (picks names before (.held :: m)) (.held :: m) =
      (if Unguarded names before (Cell.plain m) then .char '|' else .held) ::
        Cell.release (picks names (before ++ ['|']) m) m := by
  have hzero : picks names before (.held :: m) 0 = decide (Unguarded names before (Cell.plain m)) :=
    unguardedAt_append _ _ _ _
  calc Cell.release (picks names before (.held :: m)) (.held :: m)
      = Cell.release (picks names before (.held :: m)) [.held] ++
          Cell.release (picks names (before ++ ['|']) m) m := release_picks_append before [.held] m
    _ = _ := by
      rw [Cell.release_cons, hzero]
      simp only [true_and, decide_eq_true_eq]
      rfl

/-- **To strike the loose places of a text is to release its unguarded pipes.** -/
theorem strike_spell (hnames : ∀ name ∈ names, Ordinary name) {a m : List Cell}
    (hbare : Bare (Cell.plain a) (Cell.plain m)) :
    strike (looseFrom names (Cell.spell escapedPipe a) (Cell.spell escapedPipe m))
        (Cell.spell escapedPipe m) =
      Cell.spell escapedPipe (Cell.release (picks names (Cell.plain a) m) m) := by
  induction m generalizing a with
  | nil => rfl
  | cons x m ih =>
    have hsplit : Cell.spell escapedPipe (x :: m) =
        Cell.spell escapedPipe [x] ++ Cell.spell escapedPipe m := Cell.spell_append escapedPipe [x] m
    have hstep : Bare (Cell.plain (a ++ [x])) (Cell.plain m) := by
      rw [Cell.plain_append]
      exact (Bare.of_append (a := Cell.plain [x]) (by rwa [← Cell.plain_append])).2
    have hrest := ih hstep
    rw [Cell.spell_append, Cell.plain_append] at hrest
    rw [hsplit, strike_looseFrom, hrest]
    cases x with
    | char c =>
      have hkept : looseFrom names (Cell.spell escapedPipe a)
          (Cell.spell escapedPipe [.char c] ++ Cell.spell escapedPipe m) 0 = false :=
        looseAt_char hbare
      have hword : Cell.spell escapedPipe [.char c] = [c] := rfl
      rw [release_picks_char]
      rw [hword] at hkept ⊢
      simp only [strike, hkept]
      rfl
    | held =>
      have heven := (bare_cons.1 hbare).1 rfl
      have hback : looseFrom names (Cell.spell escapedPipe a)
          (Cell.spell escapedPipe [.held] ++ Cell.spell escapedPipe m) 0 =
          decide (Unguarded names (Cell.plain a) (Cell.plain m)) := by
        show looseAt names (Cell.spell escapedPipe a ++ '\\' :: '|' :: Cell.spell escapedPipe m)
          (Cell.spell escapedPipe a).length = _
        rw [looseAt_append, decide_eq_decide]
        exact (and_iff_right rfl).trans (loose_held hnames heven)
      have hpipe : looseFrom names (Cell.spell escapedPipe a)
          (Cell.spell escapedPipe [.held] ++ Cell.spell escapedPipe m) 1 = false := by
        have hcut := @looseAt_pipe names (Cell.spell escapedPipe a ++ ['\\'])
          (Cell.spell escapedPipe m)
        rw [List.length_append, List.append_assoc] at hcut
        exact hcut
      have hword : Cell.spell escapedPipe [.held] = ['\\', '|'] := rfl
      rw [release_picks_held]
      rw [hword] at hback hpipe ⊢
      by_cases hun : Unguarded names (Cell.plain a) (Cell.plain m)
      · rw [if_pos hun]
        rw [decide_eq_true hun] at hback
        simp only [strike, hback, hpipe]
        rfl
      · rw [if_neg hun]
        rw [decide_eq_false hun] at hback
        simp only [strike, hback, hpipe]
        rfl

end

end PipeGuard
