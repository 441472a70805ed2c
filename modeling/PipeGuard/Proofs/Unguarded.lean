import PipeGuard.Pipe
import PipeGuard.Proofs.Held

/-! The pipes of a text that a call would split at.

A pipe is unguarded when an even run of backslashes stands before it, an opening
of one of the names was written with no closing since, and a closing is still to
come (`Unguarded`). `guarded` is the text with just these pipes held: it names
neither an encoding nor an order of the names.

`protect_spell` and `structural_spell`: within the arguments of a call, reading
once from the left finds the pipes with an even run before them, whichever token
is written for those already held. -/
namespace PipeGuard

/-! ### Unguarded pipes -/

/-- The length of the run of backslashes at the end of a text. -/
def backslashes (before : List Char) : Nat := (before.reverse.takeWhile (· = '\\')).length

/-- Up to here the text has an opening of one of `names` with no closing after it. -/
def InCall (names : List (List Char)) (before : List Char) : Prop :=
  ∃ name ∈ names, ∃ lead spelling body, Spelling name spelling ∧
    before = lead ++ opening spelling ++ body ∧ ¬ Call.closing <:+: body

/-- A pipe that stands between `before` and `after` would split a call of `names`. -/
structure Unguarded (names : List (List Char)) (before after : List Char) : Prop where
  even : backslashes before % 2 = 0
  inCall : InCall names before
  closes : Call.closing <:+: after

instance (names : List (List Char)) (before : List Char) : Decidable (InCall names before) :=
  decidable_of_iff (∃ name ∈ names, ∃ tail ∈ before.tails,
      (opened? name tail).any (fun split => !decide (Call.closing <:+: split.2)) = true) <| by
    simp only [InCall, List.mem_tails, Option.any_eq_true, Bool.not_eq_true', decide_eq_false_iff_not]
    constructor
    · intro hopens
      obtain ⟨name, hname, tail, ⟨lead, rfl⟩, ⟨spelling, body⟩, hopened, hbody⟩ := hopens
      obtain ⟨hspell, rfl⟩ := opened?_eq_some_iff.1 hopened
      exact ⟨name, hname, lead, spelling, body, hspell, by rw [List.append_assoc], hbody⟩
    · intro hopens
      obtain ⟨name, hname, lead, spelling, body, hspell, rfl, hbody⟩ := hopens
      exact ⟨name, hname, opening spelling ++ body, ⟨lead, by rw [List.append_assoc]⟩,
        (spelling, body), opened?_eq_some_iff.2 ⟨hspell, rfl⟩, hbody⟩

instance (names : List (List Char)) (before after : List Char) :
    Decidable (Unguarded names before after) :=
  decidable_of_iff (backslashes before % 2 = 0 ∧ InCall names before ∧ Call.closing <:+: after)
    ⟨fun ⟨heven, hcall, hcloses⟩ => ⟨heven, hcall, hcloses⟩,
      fun h => ⟨h.even, h.inCall, h.closes⟩⟩

/-- Whether a pipe at place `i` of the text is unguarded. -/
def unguardedAt (names : List (List Char)) (text : List Char) (i : Nat) : Bool :=
  decide (Unguarded names (text.take i) (text.drop (i + 1)))

theorem unguardedAt_append (names : List (List Char)) (before : List Char) (c : Char)
    (after : List Char) :
    unguardedAt names (before ++ c :: after) before.length =
      decide (Unguarded names before after) := by
  simp [unguardedAt]

/-! ### Holding pipes -/

namespace Cell

/-- Holds the pipes at the places that `S` picks. -/
def hold (S : Nat → Bool) (m : List Cell) : List Cell :=
  m.mapIdx fun i x => if x = .char '|' ∧ S i = true then .held else x

theorem hold_nil (S : Nat → Bool) : hold S [] = [] := rfl

theorem hold_cons (S : Nat → Bool) (x : Cell) (m : List Cell) :
    hold S (x :: m) =
      (if x = .char '|' ∧ S 0 = true then .held else x) :: hold (fun i => S (i + 1)) m := by
  rw [hold, List.mapIdx_cons]
  rfl

theorem hold_append (S : Nat → Bool) (a b : List Cell) :
    hold S (a ++ b) = hold S a ++ hold (fun i => S (a.length + i)) b := by
  simp only [hold, List.mapIdx_append, Nat.add_comm]

theorem hold_false (m : List Cell) : hold (fun _ => false) m = m := by
  induction m with
  | nil => rfl
  | cons x m ih => simp [hold_cons, ih]

theorem hold_congr {S S' : Nat → Bool} {m : List Cell} (h : ∀ i, i < m.length → S i = S' i) :
    hold S m = hold S' m := by
  induction m generalizing S S' with
  | nil => rfl
  | cons x m ih =>
    rw [hold_cons, hold_cons, h 0 (by simp), ih fun i hi => h (i + 1) (by simpa using hi)]

theorem plain_hold (S : Nat → Bool) (m : List Cell) : plain (hold S m) = plain m := by
  induction m generalizing S with
  | nil => rfl
  | cons x m ih =>
    rw [hold_cons]
    split
    · rename_i hx
      rw [hx.1]
      simp only [spell, ih, List.singleton_append]
    · cases x <;> simp only [spell, ih]

theorem hold_hold (S S' : Nat → Bool) (m : List Cell) :
    hold S' (hold S m) = hold (fun i => S i || S' i) m := by
  induction m generalizing S S' with
  | nil => rfl
  | cons x m ih =>
    simp only [hold_cons, ih]
    by_cases hx : x = .char '|' <;> cases S 0 <;> cases S' 0 <;> simp [hx]

theorem hold_map_char {S : Nat → Bool} {text : List Char} (h : '|' ∉ text) :
    hold S (text.map char) = text.map char := by
  induction text generalizing S with
  | nil => rfl
  | cons c text ih =>
    simp only [List.mem_cons, not_or] at h
    have hc : ¬ (char c = char '|' ∧ S 0 = true) := fun heq => h.1 (Cell.char.inj heq.1).symm
    rw [List.map_cons, hold_cons, if_neg hc, ih h.2]

/-- A place is held afterwards if it was, or if it was a pipe that was picked. -/
theorem getElem?_hold (S : Nat → Bool) (m : List Cell) (i : Nat) :
    (hold S m)[i]? = some .held ↔
      m[i]? = some .held ∨ (m[i]? = some (.char '|') ∧ S i = true) := by
  rw [hold, List.getElem?_mapIdx]
  cases hx : m[i]? with
  | none => simp
  | some x =>
    simp only [Option.map_some, Option.some.injEq]
    split <;> simp_all

end Cell

/-- The text, just its unguarded pipes held. -/
def guarded (names : List (List Char)) (text : List Char) : List Cell :=
  Cell.hold (unguardedAt names text) (text.map .char)

theorem getElem?_guarded (names : List (List Char)) (text : List Char) (i : Nat) :
    (guarded names text)[i]? = some .held ↔
      text[i]? = some '|' ∧ Unguarded names (text.take i) (text.drop (i + 1)) := by
  rw [guarded, Cell.getElem?_hold]
  cases hc : text[i]? <;> simp [hc, unguardedAt]

theorem plain_guarded (names : List (List Char)) (text : List Char) :
    Cell.plain (guarded names text) = text := by
  rw [guarded, Cell.plain_hold, Cell.plain, Cell.spell_map_char]

/-! ### Runs of backslashes -/

/-- The run of backslashes at the end of a text is odd. -/
def oddRun (before : List Char) : Bool := decide (backslashes before % 2 = 1)

theorem oddRun_eq_false_iff {before : List Char} :
    oddRun before = false ↔ backslashes before % 2 = 0 := by
  rw [oddRun, decide_eq_false_iff_not]
  omega

theorem backslashes_concat_backslash (before : List Char) :
    backslashes (before ++ ['\\']) = backslashes before + 1 := by
  simp [backslashes]

theorem backslashes_concat_of_ne (before : List Char) {c : Char} (h : c ≠ '\\') :
    backslashes (before ++ [c]) = 0 := by
  simp [backslashes, h]

theorem oddRun_backslash (before : List Char) : oddRun (before ++ ['\\']) = !oddRun before := by
  rw [Bool.eq_iff_iff]
  simp only [oddRun, backslashes_concat_backslash, decide_eq_true_eq, Bool.not_eq_true',
    decide_eq_false_iff_not]
  omega

theorem oddRun_other {c : Char} (h : c ≠ '\\') (before : List Char) :
    oddRun (before ++ [c]) = false := by
  rw [oddRun_eq_false_iff, backslashes_concat_of_ne before h]

theorem oddRun_append (before : List Char) (c : Char) :
    oddRun (before ++ [c]) = (decide (c = '\\') && !oddRun before) := by
  by_cases hc : c = '\\'
  · subst hc
    rw [oddRun_backslash]
    simp
  · rw [oddRun_other hc]
    simp [hc]

theorem oddRun_opening (before spelling : List Char) :
    oddRun (before ++ opening spelling) = false := by
  have : before ++ opening spelling = before ++ ('{' :: '{' :: spelling ++ [':']) ++ [':'] := by
    simp [opening]
  rw [this]
  exact oddRun_other (by decide) _

/-- Where the run of backslashes before a place is even. -/
def evenAt (before : List Char) (m : List Cell) (i : Nat) : Bool :=
  !oddRun (before ++ (Cell.plain m).take i)

/-- Every held pipe has an even run of backslashes before it. -/
def Sound (before : List Char) (m : List Cell) : Prop :=
  ∀ a b, m = a ++ .held :: b → oddRun (before ++ Cell.plain a) = false

theorem Sound.of_append {before : List Char} {a b : List Cell} (h : Sound before (a ++ b)) :
    Sound before a ∧ Sound (before ++ Cell.plain a) b := by
  refine ⟨fun x y hxy => h x (y ++ b) (by simp [hxy]), fun x y hxy => ?_⟩
  rw [List.append_assoc, ← Cell.plain_append]
  exact h (a ++ x) y (by simp [hxy])

theorem Sound.char {before : List Char} {c : Char} {m : List Cell} (h : Sound before (.char c :: m)) :
    Sound (before ++ [c]) m :=
  (Sound.of_append (a := [.char c]) h).2

theorem Sound.held {before : List Char} {m : List Cell} (h : Sound before (.held :: m)) :
    oddRun before = false ∧ Sound (before ++ ['|']) m :=
  ⟨by simpa [Cell.spell] using h [] m rfl, (Sound.of_append (a := [.held]) h).2⟩

theorem sound_map_char (before text : List Char) : Sound before (text.map .char) := by
  intro a b h
  have : Cell.held ∈ text.map Cell.char := h ▸ by simp
  simp at this

theorem Sound.hold {before : List Char} {m : List Cell} {S : Nat → Bool} (h : Sound before m)
    (hS : ∀ i, S i = true → evenAt before m i = true) : Sound before (Cell.hold S m) := by
  intro a b hab
  rw [Cell.hold, List.mapIdx_eq_append_iff] at hab
  obtain ⟨a', b', rfl, ha, hb⟩ := hab
  have hplain : Cell.plain a = Cell.plain a' := by
    rw [← ha]
    exact Cell.plain_hold S a'
  rw [hplain]
  obtain ⟨x, b'', rfl, hx, -⟩ := List.mapIdx_eq_cons_iff.1 hb
  simp only [Nat.zero_add] at hx
  split at hx
  · rename_i hpick
    have heven := hS _ hpick.2
    rw [evenAt, Bool.not_eq_true', Cell.plain_append, ← Cell.length_plain, List.take_left] at heven
    exact heven
  · exact h a' b'' (by rw [hx])

/-! ### One reading of the arguments -/

theorem protect_cons (token before : List Char) (c : Char) (rest : List Char) :
    Pipe.protect token (oddRun before) (c :: rest) =
      (if c = '|' ∧ oddRun before = false then token else [c]) ++
        Pipe.protect token (oddRun (before ++ [c])) rest := by
  rw [Pipe.protect, oddRun_append]
  by_cases hback : c = '\\'
  · subst hback
    simp
  · rw [if_neg hback]
    split <;> simp [hback]

theorem structural_cons (before : List Char) (c : Char) (rest : List Char) :
    Pipe.structural (oddRun before) (c :: rest) =
      (if c = '|' ∧ oddRun before = false then 1 else 0) +
        Pipe.structural (oddRun (before ++ [c])) rest := by
  rw [Pipe.structural, oddRun_append]
  by_cases hback : c = '\\'
  · subst hback
    simp
  · rw [if_neg hback]
    split <;> simp [hback, Nat.add_comm]

/-- Arguments without a structural pipe have an odd run of backslashes before
every pipe. -/
theorem oddRun_of_structural_eq_zero {before args a b : List Char}
    (h : Pipe.structural (oddRun before) args = 0) (hargs : args = a ++ '|' :: b) :
    oddRun (before ++ a) = true := by
  induction a generalizing before args with
  | nil =>
    rw [hargs, List.nil_append, structural_cons] at h
    rw [List.append_nil]
    by_contra hodd
    simp [hodd] at h
  | cons c a ih =>
    rw [hargs, List.cons_append, structural_cons, Nat.add_eq_zero_iff] at h
    simpa using ih h.2 rfl

theorem protect_token (encoding : Encoding) (token rest : List Char) :
    Pipe.protect token false (encoding.token ++ rest) =
      encoding.token ++ Pipe.protect token false rest := by
  cases encoding <;> simp [Encoding.token, pipeMarker, Pipe.protect]

theorem structural_token (encoding : Encoding) (rest : List Char) :
    Pipe.structural false (encoding.token ++ rest) = Pipe.structural false rest := by
  cases encoding <;> simp [Encoding.token, pipeMarker, Pipe.structural]

theorem hold_evenAt_char (before : List Char) (c : Char) (m : List Cell) :
    Cell.hold (evenAt before (.char c :: m)) (.char c :: m) =
      (if c = '|' ∧ oddRun before = false then .held else .char c) ::
        Cell.hold (evenAt (before ++ [c]) m) m := by
  have hrest : (fun i => evenAt before (.char c :: m) (i + 1)) = evenAt (before ++ [c]) m := by
    funext i
    simp [evenAt, Cell.spell]
  rw [Cell.hold_cons, hrest]
  simp [evenAt]

theorem hold_evenAt_held (before : List Char) (m : List Cell) :
    Cell.hold (evenAt before (.held :: m)) (.held :: m) =
      .held :: Cell.hold (evenAt (before ++ ['|']) m) m := by
  have hrest : (fun i => evenAt before (.held :: m) (i + 1)) = evenAt (before ++ ['|']) m := by
    funext i
    simp [evenAt, Cell.spell]
  rw [Cell.hold_cons, ite_self, hrest]

/-- Protecting arguments holds the pipes with an even run before them. -/
theorem protect_spell (encoding : Encoding) {before : List Char} {m : List Cell}
    (h : Sound before m) :
    Pipe.protect encoding.token (oddRun before) (Cell.spell encoding.token m) =
      Cell.spell encoding.token (Cell.hold (evenAt before m) m) := by
  induction m generalizing before with
  | nil => rfl
  | cons x m ih =>
    cases x with
    | held =>
      obtain ⟨heven, hsound⟩ := h.held
      have hrest := ih hsound
      rw [oddRun_other (by decide)] at hrest
      rw [hold_evenAt_held, Cell.spell, heven, protect_token, hrest]
      rfl
    | char c =>
      rw [hold_evenAt_char, Cell.spell, protect_cons, ih h.char]
      split <;> rfl

/-- The structural pipes of arguments are those that protecting them holds. -/
theorem structural_spell (encoding : Encoding) {before : List Char} {m : List Cell}
    (h : Sound before m) :
    Pipe.structural (oddRun before) (Cell.spell encoding.token m) + m.count .held =
      (Cell.hold (evenAt before m) m).count .held := by
  induction m generalizing before with
  | nil => rfl
  | cons x m ih =>
    cases x with
    | held =>
      obtain ⟨heven, hsound⟩ := h.held
      have hrest := ih hsound
      rw [oddRun_other (by decide)] at hrest
      rw [hold_evenAt_held, Cell.spell, heven, structural_token, List.count_cons_self,
        List.count_cons_self, ← Nat.add_assoc, hrest]
    | char c =>
      rw [hold_evenAt_char, Cell.spell, structural_cons, List.count_cons_of_ne (by simp),
        Nat.add_assoc, ih h.char]
      split
      · rw [List.count_cons_self, Nat.add_comm]
      · rw [List.count_cons_of_ne (by simp), Nat.zero_add]

end PipeGuard
