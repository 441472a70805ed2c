import PipeGuard.Proofs.Numerals

/-! Values read back from their text.

A value that was read is no deeper than the reader goes, has every key once, and numbers
that can be read again (`value_sound`). Written on one line or on many (`Layout`), such a
value is read back, and but for its doubles as it was (`value_laid`, `ofText_toPretty`).
Arrays and objects are read back by their loops, whatever reads one item (`items_laid`) or
one member (`members_laid`). -/
namespace PipeGuard

namespace Json

mutual

/-- The numbers that stand in a value. -/
def numbers : Json → List Number
  | number n => [n]
  | array items => itemNumbers items
  | object members => memberNumbers members
  | _ => []

def itemNumbers : List Json → List Number
  | [] => []
  | x :: xs => numbers x ++ itemNumbers xs

def memberNumbers : List (String × Json) → List Number
  | [] => []
  | m :: ms => numbers m.2 ++ memberNumbers ms

end

theorem itemNumbers_eq (xs : List Json) : itemNumbers xs = xs.flatMap numbers := by
  induction xs with
  | nil => rfl
  | cons x xs ih => rw [itemNumbers, ih, List.flatMap_cons]

theorem memberNumbers_eq (ms : Members) : memberNumbers ms = ms.flatMap fun m => m.2.numbers := by
  induction ms with
  | nil => rfl
  | cons m ms ih => rw [memberNumbers, ih, List.flatMap_cons]

theorem mem_numbers_item {xs : List Json} {x : Json} (hx : x ∈ xs) {n : Number}
    (hn : n ∈ x.numbers) : n ∈ (array xs).numbers := by
  rw [numbers, itemNumbers_eq]
  exact List.mem_flatMap.mpr ⟨x, hx, hn⟩

theorem mem_numbers_member {ms : Members} {m : String × Json} (hm : m ∈ ms) {n : Number}
    (hn : n ∈ m.2.numbers) : n ∈ (object ms).numbers := by
  rw [numbers, memberNumbers_eq]
  exact List.mem_flatMap.mpr ⟨m, hm, hn⟩

/-- All numbers of a value are whole. -/
def IsWhole (value : Json) : Prop := ∀ n ∈ value.numbers, n.IsWhole

instance (value : Json) : Decidable value.IsWhole :=
  inferInstanceAs (Decidable (∀ n ∈ value.numbers, n.IsWhole))

theorem IsWhole.member {ms : Members} (h : (object ms).IsWhole) {m : String × Json} (hm : m ∈ ms) :
    m.2.IsWhole := fun n hn => h n (mem_numbers_member hm hn)

mutual

/-- The value with other numbers in it. -/
def withNumbers (f : Number → Number) : Json → Json
  | number n => number (f n)
  | array items => array (itemsWithNumbers f items)
  | object members => object (membersWithNumbers f members)
  | null => null
  | boolean b => boolean b
  | string s => string s

def itemsWithNumbers (f : Number → Number) : List Json → List Json
  | [] => []
  | x :: xs => withNumbers f x :: itemsWithNumbers f xs

def membersWithNumbers (f : Number → Number) : List (String × Json) → List (String × Json)
  | [] => []
  | m :: ms => (m.1, withNumbers f m.2) :: membersWithNumbers f ms

end

theorem itemsWithNumbers_eq (f : Number → Number) (xs : List Json) :
    itemsWithNumbers f xs = xs.map (withNumbers f) := by
  induction xs with
  | nil => rfl
  | cons x xs ih => rw [itemsWithNumbers, ih, List.map_cons]

theorem membersWithNumbers_eq (f : Number → Number) (ms : Members) :
    membersWithNumbers f ms = ms.map fun m => (m.1, m.2.withNumbers f) := by
  induction ms with
  | nil => rfl
  | cons m ms ih => rw [membersWithNumbers, ih, List.map_cons]

mutual

theorem withNumbers_id : ∀ x : Json, x.withNumbers id = x
  | number _ => by rw [withNumbers, id]
  | array xs => by rw [withNumbers, itemsWithNumbers_id xs]
  | object ms => by rw [withNumbers, membersWithNumbers_id ms]
  | null => by rw [withNumbers]
  | boolean _ => by rw [withNumbers]
  | string _ => by rw [withNumbers]

theorem itemsWithNumbers_id : ∀ xs : List Json, itemsWithNumbers id xs = xs
  | [] => by rw [itemsWithNumbers]
  | x :: xs => by rw [itemsWithNumbers, withNumbers_id x, itemsWithNumbers_id xs]

theorem membersWithNumbers_id : ∀ ms : List (String × Json), membersWithNumbers id ms = ms
  | [] => by rw [membersWithNumbers]
  | m :: ms => by rw [membersWithNumbers, withNumbers_id m.2, membersWithNumbers_id ms]

end

/-- A value in which no more than `depth` arrays and objects stand inside each other, in which
every key of an object stands once, and whose numbers were read. -/
inductive Sound : Nat → Json → Prop
  | null {depth : Nat} : Sound depth .null
  | boolean {depth : Nat} (b : Bool) : Sound depth (.boolean b)
  | number {depth : Nat} {n : Number} : n.Kept → Sound depth (.number n)
  | string {depth : Nat} (s : String) : Sound depth (.string s)
  | array {depth : Nat} {xs : List Json} :
    (∀ x ∈ xs, Sound depth x) → Sound (depth + 1) (.array xs)
  | object {depth : Nat} {ms : Members} :
    ms.keys.Nodup → (∀ m ∈ ms, Sound depth m.2) → Sound (depth + 1) (.object ms)

theorem Sound.kept {depth : Nat} {x : Json} (h : Sound depth x) : ∀ n ∈ x.numbers, n.Kept := by
  induction h with
  | number h => exact List.forall_mem_singleton.mpr h
  | array _ ih =>
    intro n hn
    rw [numbers, itemNumbers_eq] at hn
    obtain ⟨x, hx, hn⟩ := List.mem_flatMap.mp hn
    exact ih x hx n hn
  | object _ _ ih =>
    intro n hn
    rw [numbers, memberNumbers_eq] at hn
    obtain ⟨m, hm, hn⟩ := List.mem_flatMap.mp hn
    exact ih m hm n hn
  | _ => exact fun _ hn => absurd hn List.not_mem_nil

/-! ### Layouts -/

/-- How a value is laid out: the blanks before an item, a member or a closing bracket, which go by
the depth, and those before the value of a member. -/
structure Layout where
  line : Nat → List Char
  space : List Char
  gap_line : ∀ depth, ∀ c ∈ line depth, isGap c = true
  feed_line : ∀ depth c, (line depth).head? = some c → c = '\n'
  gap_space : ∀ c ∈ space, isGap c = true

/-- All on one line. -/
def tight : Layout where
  line _ := []
  space := []
  gap_line _ _ h := absurd h List.not_mem_nil
  feed_line _ _ h := nomatch h
  gap_space _ h := absurd h List.not_mem_nil

/-- A line to every item and member. -/
def indented : Layout where
  line := newLine
  space := [' ']
  gap_line _ := List.forall_mem_cons.mpr ⟨rfl, fun _ h => List.eq_of_mem_replicate h ▸ rfl⟩
  feed_line _ _ h := (Option.some.inj h).symm
  gap_space := List.forall_mem_singleton.mpr rfl

section
variable (l : Layout)

mutual

/-- The text of a value in some layout. -/
def laid (depth : Nat) : Json → List Char
  | null => "null".toList
  | boolean b => writtenBool b
  | number n => n.render
  | string s => writtenString s
  | array [] => ['[', ']']
  | array (x :: xs) =>
    '[' :: (l.line (depth + 1) ++ (laid (depth + 1) x ++ (laidItems (depth + 1) xs ++
      (l.line depth ++ [']']))))
  | object [] => ['\x7b', '\x7d']
  | object (m :: ms) =>
    '\x7b' :: (l.line (depth + 1) ++ (writtenString m.1 ++ (':' :: (l.space ++
      laid (depth + 1) m.2) ++ (laidMembers (depth + 1) ms ++ (l.line depth ++ ['\x7d'])))))

def laidItems (depth : Nat) : List Json → List Char
  | [] => []
  | x :: xs => ',' :: (l.line depth ++ (laid depth x ++ laidItems depth xs))

def laidMembers (depth : Nat) : List (String × Json) → List Char
  | [] => []
  | m :: ms =>
    ',' :: (l.line depth ++ (writtenString m.1 ++ (':' :: (l.space ++ laid depth m.2) ++
      laidMembers depth ms)))

end

end

mutual

theorem laid_tight (depth : Nat) : ∀ x, laid tight depth x = compact x
  | null => by rw [laid, compact]
  | boolean _ => by rw [laid, compact]
  | number _ => by rw [laid, compact]
  | string _ => by rw [laid, compact]
  | array [] => by rw [laid, compact]
  | array (x :: xs) => by
    rw [laid, compact, laid_tight (depth + 1) x, laidItems_tight (depth + 1) xs]
    simp [tight]
  | object [] => by rw [laid, compact]
  | object (m :: ms) => by
    rw [laid, compact, laid_tight (depth + 1) m.2, laidMembers_tight (depth + 1) ms]
    simp [tight]

theorem laidItems_tight (depth : Nat) : ∀ xs, laidItems tight depth xs = compactItems xs
  | [] => by rw [laidItems, compactItems]
  | x :: xs => by
    rw [laidItems, compactItems, laid_tight depth x, laidItems_tight depth xs]
    simp [tight]

theorem laidMembers_tight (depth : Nat) : ∀ ms, laidMembers tight depth ms = compactMembers ms
  | [] => by rw [laidMembers, compactMembers]
  | m :: ms => by
    rw [laidMembers, compactMembers, laid_tight depth m.2, laidMembers_tight depth ms]
    simp [tight]

end

mutual

theorem laid_indented (depth : Nat) : ∀ x, laid indented depth x = pretty depth x
  | null => by rw [laid, pretty]
  | boolean _ => by rw [laid, pretty]
  | number _ => by rw [laid, pretty]
  | string _ => by rw [laid, pretty]
  | array [] => by rw [laid, pretty]
  | array (x :: xs) => by
    rw [laid, pretty, laid_indented (depth + 1) x, laidItems_indented (depth + 1) xs]
    simp [indented]
  | object [] => by rw [laid, pretty]
  | object (m :: ms) => by
    rw [laid, pretty, laid_indented (depth + 1) m.2, laidMembers_indented (depth + 1) ms]
    simp [indented]

theorem laidItems_indented (depth : Nat) : ∀ xs, laidItems indented depth xs = prettyItems depth xs
  | [] => by rw [laidItems, prettyItems]
  | x :: xs => by
    rw [laidItems, prettyItems, laid_indented depth x, laidItems_indented depth xs]
    simp [indented]

theorem laidMembers_indented (depth : Nat) :
    ∀ ms, laidMembers indented depth ms = prettyMembers depth ms
  | [] => by rw [laidMembers, prettyMembers]
  | m :: ms => by
    rw [laidMembers, prettyMembers, laid_indented depth m.2, laidMembers_indented depth ms]
    simp [indented]

end

section
variable {l : Layout}

theorem begins_laid {depth : Nat} {value : Json} (h : ∀ n ∈ value.numbers, Begins n.render) :
    Begins (laid l depth value) := by
  match value with
  | .null => exact begins_cons (by decide)
  | .boolean true => exact begins_cons (by decide)
  | .boolean false => exact begins_cons (by decide)
  | .number n =>
    rw [laid]
    exact h n List.mem_cons_self
  | .string s =>
    rw [laid]
    exact begins_cons (by decide)
  | .array [] => exact begins_cons (by decide)
  | .array (x :: xs) =>
    rw [laid]
    exact begins_cons (by decide)
  | .object [] => exact begins_cons (by decide)
  | .object (m :: ms) =>
    rw [laid]
    exact begins_cons (by decide)

theorem stops_line (depth : Nat) {c : Char} (h : c = ']' ∨ c = '\x7d') (rest : List Char) :
    Stops (l.line depth ++ c :: rest) := by
  cases hline : l.line depth with
  | nil => exact stops_cons (.inr (h.imp_right .inl))
  | cons x line =>
    obtain rfl := l.feed_line depth x (by rw [hline]; rfl)
    exact stops_cons (.inr (.inr (.inr rfl)))

end

namespace Read

/-! ### What can be read -/

theorem itemsFrom_all {α : Type} {item : Cursor → Read α} {P : α → Prop}
    (hitem : ∀ {c x c'}, item c = .ok (x, c') → P x) {bound : List Char} {first : Bool}
    {seen xs : List α} {c c' : Cursor} (hseen : ∀ x ∈ seen, P x)
    (h : itemsFrom item bound first seen c = .ok (xs, c')) : ∀ x ∈ xs, P x := by
  induction bound generalizing first seen c with
  | nil => cases h
  | cons _ bound ih =>
    rw [itemsFrom] at h
    split at h
    · cases h
    · obtain ⟨c₁, -, heq⟩ := map_eq_ok h
      cases heq
      exact fun x hx => hseen x (List.mem_reverse.mp hx)
    · split at h
      · cases h
      · case _ hread => exact ih (List.forall_mem_cons.mpr ⟨hitem hread, hseen⟩) h

/-- A loop over members keeps what its turns keep. -/
theorem membersFrom_keeps {α : Type} {member : α → String → Cursor → Read α} {P : α → Prop}
    (hmember : ∀ {done key c done' c'}, P done → member done key c = .ok (done', c') → P done')
    {bound : List Char} {first : Bool} {done done' : α} {c c' : Cursor} (hdone : P done)
    (h : membersFrom member bound first done c = .ok (done', c')) : P done' := by
  -- the loop beside itself
  obtain ⟨_, -, rfl, hkept⟩ := @membersFrom_simulates _ _ (fun x y => x = y ∧ P x) member member
    (by
      rintro x _ key c x₁ c₁ ⟨rfl, hx⟩ hread
      exact ⟨x₁, hread, rfl, hmember hx hread⟩) _ _ _ _ done _ _ ⟨rfl, hdone⟩ h
  exact hkept

/-- One more member leaves the members sound. -/
theorem valueMember_sound {depth : Nat} {done done' : Members} {key : String} {c c' : Cursor}
    (hvalue : ∀ {c x c'}, value depth c = .ok (x, c') → Sound depth x)
    (hdone : done.keys.Nodup ∧ ∀ m ∈ done, Sound depth m.2)
    (h : valueMember depth done key c = .ok (done', c')) :
    done'.keys.Nodup ∧ ∀ m ∈ done', Sound depth m.2 := by
  unfold valueMember at h
  split at h
  · cases h
  · obtain ⟨⟨x, c₁⟩, hread, heq⟩ := map_eq_ok h
    cases heq
    refine ⟨Members.nodup_put hdone.1, fun m hm => ?_⟩
    obtain hm | rfl := Members.mem_put hm
    · exact hdone.2 m hm
    · exact hvalue hread

/-- **A value that was read is sound.** -/
theorem value_sound {depth : Nat} {c c' : Cursor} {x : Json} (h : value depth c = .ok (x, c')) :
    Sound depth x := by
  induction depth using Nat.strongRecOn generalizing c x c' with
  | ind depth ih =>
    have hread := value_eq_ok h
    cases x with
    | null => exact .null
    | boolean b => exact .boolean b
    | number n =>
      obtain ⟨-, hread⟩ | ⟨-, hread⟩ := hread
      · exact .number (number_kept hread)
      · exact .number (number_kept hread)
    | string s => exact .string s
    | array xs =>
      obtain ⟨inner, rfl, -, hread⟩ := hread
      exact .array (itemsFrom_all (ih inner (Nat.lt_succ_self inner))
        (fun _ hx => absurd hx List.not_mem_nil) hread)
    | object ms =>
      obtain ⟨inner, rfl, -, hread⟩ := hread
      have hempty : Members.keys [] |>.Nodup := List.Pairwise.nil
      obtain ⟨hkeys, hall⟩ := @membersFrom_keeps _ (valueMember inner)
        (fun ms => ms.keys.Nodup ∧ ∀ m ∈ ms, Sound inner m.2)
        (fun hdone hmember => valueMember_sound (ih inner (Nat.lt_succ_self inner)) hdone hmember)
        _ _ _ _ _ _ ⟨hempty, fun _ hm => absurd hm List.not_mem_nil⟩ hread
      exact .object hkeys hall

/-! ### Arrays -/

theorem nextItem_later {gap : List Char} (hgap : ∀ c ∈ gap, isGap c = true) {text : List Char}
    (h : Begins text) (rest : List Char) (position : Position) :
    ∃ position', nextItem false ⟨',' :: (gap ++ (text ++ rest)), position⟩ =
      .ok (true, ⟨text ++ rest, position'⟩) := by
  obtain ⟨c, tail, rfl, hc, hclose⟩ := h
  obtain ⟨position', hskip⟩ := skipGap_gap hgap hc (tail ++ rest) (position.after ',')
  refine ⟨position', ?_⟩
  unfold nextItem
  simp only [skipGap_cons (show isGap ',' = false by decide), Cursor.next, List.cons_append, hskip]
  split
  · case _ heq => cases heq
  · case _ heq => exact absurd (List.cons.inj heq).1 (by decide)
  · case _ heq =>
    obtain ⟨rfl, -⟩ := List.cons.inj heq
    simp only [Bool.false_eq_true, if_false, if_true]
    split
    · case _ heq => cases heq
    · case _ heq => exact absurd (List.cons.inj heq).1 hclose
    · rfl

theorem nextItem_first {gap : List Char} (hgap : ∀ c ∈ gap, isGap c = true) {text : List Char}
    (h : Begins text) (rest : List Char) (position : Position) :
    ∃ position', nextItem true ⟨gap ++ (text ++ rest), position⟩ =
      .ok (true, ⟨text ++ rest, position'⟩) := by
  obtain ⟨c, tail, rfl, hc, hclose⟩ := h
  obtain ⟨position', hskip⟩ := skipGap_gap hgap hc (tail ++ rest) position
  refine ⟨position', ?_⟩
  unfold nextItem
  simp only [List.cons_append, hskip, if_true]

/-- The closing bracket, behind blanks. -/
theorem itemsFrom_close {α : Type} {item : Cursor → Read α} {gap : List Char}
    (hgap : ∀ c ∈ gap, isGap c = true) (b : Char) (bound : List Char) (first : Bool)
    (seen : List α) (rest : List Char) (position : Position) :
    ∃ position', itemsFrom item (b :: bound) first seen ⟨gap ++ ']' :: rest, position⟩ =
      .ok (seen.reverse, ⟨rest, position'⟩) := by
  obtain ⟨p, hskip⟩ := skipGap_gap hgap (show isGap ']' = false by decide) rest position
  refine ⟨p.after ']', ?_⟩
  unfold itemsFrom nextItem
  simp only [hskip]
  rfl

section
variable {α β : Type} {item : Cursor → Read α} {write : β → Json} {f : β → α} (l : Layout)
  (depth : Nat)

theorem stops_laidItems (xs : List Json) (rest : List Char) :
    Stops (laidItems l (depth + 1) xs ++ (l.line depth ++ ']' :: rest)) := by
  cases xs with
  | nil => exact stops_line depth (.inl rfl) rest
  | cons x xs =>
    rw [laidItems]
    exact stops_cons (.inl rfl)

/-- The items behind the first one, read in turn. -/
theorem itemsFrom_laid {xs : List β}
    (hbegins : ∀ x ∈ xs, Begins (laid l (depth + 1) (write x)))
    (hitem : ∀ x ∈ xs, Takes item (laid l (depth + 1) (write x)) (f x)) {bound : List Char}
    (hbound : xs.length < bound.length) (seen : List α) (rest : List Char) (position : Position) :
    ∃ position', itemsFrom item bound false seen
        ⟨laidItems l (depth + 1) (xs.map write) ++ (l.line depth ++ ']' :: rest), position⟩ =
      .ok (seen.reverse ++ xs.map f, ⟨rest, position'⟩) := by
  induction xs generalizing bound seen position with
  | nil =>
    obtain ⟨b, bound, rfl⟩ := List.exists_cons_of_length_pos hbound
    simp only [List.map_nil, List.append_nil]
    exact itemsFrom_close (l.gap_line depth) b bound false seen rest position
  | cons x xs ih =>
    obtain ⟨b, bound, rfl⟩ := List.exists_cons_of_length_pos (Nat.zero_lt_of_lt hbound)
    obtain ⟨hbegin, hbegins⟩ := List.forall_mem_cons.mp hbegins
    obtain ⟨hread, hitem⟩ := List.forall_mem_cons.mp hitem
    obtain ⟨p, hnext⟩ := nextItem_later (l.gap_line (depth + 1)) hbegin
      (laidItems l (depth + 1) (xs.map write) ++ (l.line depth ++ ']' :: rest)) position
    obtain ⟨p', hread⟩ := hread _ p (stops_laidItems l depth (xs.map write) rest)
    obtain ⟨position', hrest⟩ := ih hbegins hitem (Nat.lt_of_succ_lt_succ hbound) (f x :: seen) p'
    refine ⟨position', ?_⟩
    rw [List.map_cons, laidItems, List.cons_append, List.append_assoc, List.append_assoc, itemsFrom,
      hnext]
    simp only [hread]
    rw [hrest, List.reverse_cons, List.append_assoc]
    rfl

theorem length_le_laidItems (xs : List Json) : xs.length ≤ (laidItems l depth xs).length := by
  induction xs with
  | nil => exact Nat.le_refl 0
  | cons x xs ih =>
    rw [laidItems, List.length_cons, List.length_cons, List.length_append, List.length_append]
    omega

/-- **An array is read back**, after its bracket, by what reads its items back. -/
theorem items_laid {xs : List β} (hbegins : ∀ x ∈ xs, Begins (laid l (depth + 1) (write x)))
    (hitem : ∀ x ∈ xs, Takes item (laid l (depth + 1) (write x)) (f x)) (rest : List Char)
    (position : Position) :
    ∃ tail, laid l depth (.array (xs.map write)) = '[' :: tail ∧
      ∃ position', items item ⟨tail ++ rest, position⟩ = .ok (xs.map f, ⟨rest, position'⟩) := by
  cases xs with
  | nil => exact ⟨[']'], by rw [List.map_nil, laid], _, rfl⟩
  | cons x xs =>
    obtain ⟨hbegin, hbegins⟩ := List.forall_mem_cons.mp hbegins
    obtain ⟨hread, hitem⟩ := List.forall_mem_cons.mp hitem
    let later := laidItems l (depth + 1) (xs.map write) ++ (l.line depth ++ ']' :: rest)
    obtain ⟨p, hnext⟩ := nextItem_first (l.gap_line (depth + 1)) hbegin later position
    obtain ⟨p', hread⟩ := hread later p (stops_laidItems l depth (xs.map write) rest)
    have hlong : xs.length + 2 ≤
        (l.line (depth + 1) ++ (laid l (depth + 1) (write x) ++ later)).length := by
      obtain ⟨c, tail, hlaid, -⟩ := hbegin
      have hitems := length_le_laidItems l (depth + 1) (xs.map write)
      rw [List.length_map] at hitems
      simp only [hlaid, later, List.length_append, List.length_cons]
      omega
    refine ⟨_, by rw [List.map_cons, laid], ?_⟩
    rw [List.append_assoc, List.append_assoc, List.append_assoc, List.append_assoc]
    show ∃ position', items item
      ⟨l.line (depth + 1) ++ (laid l (depth + 1) (write x) ++ later), position⟩ = _
    -- a turn takes one character of the bound, whatever it is
    cases htext : l.line (depth + 1) ++ (laid l (depth + 1) (write x) ++ later) with
    | nil =>
      rw [htext] at hlong
      cases hlong
    | cons b bound =>
      rw [htext] at hlong hnext
      obtain ⟨position', hrest⟩ := itemsFrom_laid l depth hbegins hitem
        (Nat.lt_of_succ_lt_succ hlong) [f x] rest p'
      unfold items
      rw [itemsFrom, hnext]
      simp only [hread]
      exact ⟨position', hrest⟩

end

/-! ### Objects -/

theorem nextKey_first {gap : List Char} (hgap : ∀ c ∈ gap, isGap c = true) (key : String)
    (rest : List Char) (position : Position) :
    ∃ position', nextKey true ⟨gap ++ (writtenString key ++ rest), position⟩ =
      .ok (some key, ⟨rest, position'⟩) := by
  obtain ⟨p, hskip⟩ := skipGap_gap hgap (show isGap '"' = false by decide)
    (key.toList.flatMap writtenChar ++ '"' :: rest) position
  obtain ⟨position', hread⟩ := string_written key rest p
  rw [writtenString_append] at hread ⊢
  refine ⟨position', ?_⟩
  unfold nextKey
  simp only [hskip, if_true, hread]
  rfl

theorem nextKey_later {gap : List Char} (hgap : ∀ c ∈ gap, isGap c = true) (key : String)
    (rest : List Char) (position : Position) :
    ∃ position', nextKey false ⟨',' :: (gap ++ (writtenString key ++ rest)), position⟩ =
      .ok (some key, ⟨rest, position'⟩) := by
  obtain ⟨p, hskip⟩ := skipGap_gap hgap (show isGap '"' = false by decide)
    (key.toList.flatMap writtenChar ++ '"' :: rest) (position.after ',')
  obtain ⟨position', hread⟩ := string_written key rest p
  rw [writtenString_append] at hread ⊢
  refine ⟨position', ?_⟩
  unfold nextKey
  simp only [skipGap_cons (show isGap ',' = false by decide), Cursor.next, Bool.false_eq_true,
    if_false, hskip]
  exact congrArg (Except.map fun found => (some found.1, found.2)) hread

/-- The closing brace, behind blanks. -/
theorem membersFrom_close {α : Type} {member : α → String → Cursor → Read α} {gap : List Char}
    (hgap : ∀ c ∈ gap, isGap c = true) (b : Char) (bound : List Char) (first : Bool)
    (done : α) (rest : List Char) (position : Position) :
    ∃ position', membersFrom member (b :: bound) first done ⟨gap ++ '\x7d' :: rest, position⟩ =
      .ok (done, ⟨rest, position'⟩) := by
  obtain ⟨p, hskip⟩ := skipGap_gap hgap (show isGap '\x7d' = false by decide) rest position
  refine ⟨p.after '\x7d', ?_⟩
  unfold membersFrom nextKey
  simp only [hskip]
  rfl

section
variable (l : Layout) (depth : Nat)

theorem stops_laidMembers (ms : Members) (rest : List Char) :
    Stops (laidMembers l (depth + 1) ms ++ (l.line depth ++ '\x7d' :: rest)) := by
  cases ms with
  | nil => exact stops_line depth (.inr rfl) rest
  | cons m ms =>
    rw [laidMembers]
    exact stops_cons (.inl rfl)

theorem length_le_laidMembers (ms : Members) : ms.length ≤ (laidMembers l depth ms).length := by
  induction ms with
  | nil => exact Nat.le_refl 0
  | cons m ms ih =>
    rw [laidMembers]
    simp only [List.length_cons, List.length_append]
    omega

variable {α : Type} {member : α → String → Cursor → Read α} {Inv : α → Members → Prop}
  (hmember : ∀ done m ms, Inv done (m :: ms) → ∃ done', Inv done' ms ∧
    Takes (member done m.1) (':' :: (l.space ++ laid l (depth + 1) m.2)) done')
include hmember

/-- The members behind the first one, read in turn. `Inv` ties what was read to what is left. -/
theorem membersFrom_laid {ms : Members} {done : α} (h : Inv done ms) {bound : List Char}
    (hbound : ms.length < bound.length) (rest : List Char) (position : Position) :
    ∃ done' position', Inv done' [] ∧ membersFrom member bound false done
        ⟨laidMembers l (depth + 1) ms ++ (l.line depth ++ '\x7d' :: rest), position⟩ =
      .ok (done', ⟨rest, position'⟩) := by
  induction ms generalizing done bound position with
  | nil =>
    obtain ⟨b, bound, rfl⟩ := List.exists_cons_of_length_pos hbound
    obtain ⟨position', hclose⟩ :=
      @membersFrom_close _ member _ (l.gap_line depth) b bound false done rest position
    exact ⟨done, position', h, hclose⟩
  | cons m ms ih =>
    obtain ⟨b, bound, rfl⟩ := List.exists_cons_of_length_pos (Nat.zero_lt_of_lt hbound)
    obtain ⟨done', h', hread⟩ := hmember done m ms h
    let later := laidMembers l (depth + 1) ms ++ (l.line depth ++ '\x7d' :: rest)
    obtain ⟨p, hnext⟩ := nextKey_later (l.gap_line (depth + 1)) m.1
      (':' :: (l.space ++ laid l (depth + 1) m.2) ++ later) position
    obtain ⟨p', hread⟩ := hread later p (stops_laidMembers l depth ms rest)
    obtain ⟨last, position', hlast, hrest⟩ := ih h' (Nat.lt_of_succ_lt_succ hbound) p'
    refine ⟨last, position', hlast, ?_⟩
    rw [laidMembers, List.cons_append, List.append_assoc, List.append_assoc, List.append_assoc,
      membersFrom, hnext]
    simp only [hread]
    exact hrest

/-- **An object is read back**, after its brace, by what reads its members back. -/
theorem members_laid {ms : Members} {start : α} (h : Inv start ms) (rest : List Char)
    (position : Position) :
    ∃ tail, laid l depth (.object ms) = '\x7b' :: tail ∧ ∃ done position', Inv done [] ∧
      members member start ⟨tail ++ rest, position⟩ = .ok (done, ⟨rest, position'⟩) := by
  cases ms with
  | nil => exact ⟨['\x7d'], by rw [laid], start, _, h, rfl⟩
  | cons m ms =>
    obtain ⟨done, h', hread⟩ := hmember start m ms h
    let later := laidMembers l (depth + 1) ms ++ (l.line depth ++ '\x7d' :: rest)
    let value := ':' :: (l.space ++ laid l (depth + 1) m.2)
    obtain ⟨p, hnext⟩ := nextKey_first (l.gap_line (depth + 1)) m.1 (value ++ later) position
    obtain ⟨p', hread⟩ : ∃ p', member start m.1 ⟨value ++ later, p⟩ = .ok (done, ⟨later, p'⟩) :=
      hread later p (stops_laidMembers l depth ms rest)
    have hlong : ms.length + 2 ≤
        (l.line (depth + 1) ++ (writtenString m.1 ++ (value ++ later))).length := by
      have hmembers := length_le_laidMembers l (depth + 1) ms
      rw [writtenString_append]
      simp only [later, value, List.length_append, List.length_cons]
      omega
    refine ⟨_, by rw [laid], ?_⟩
    rw [List.append_assoc, List.append_assoc, List.append_assoc, List.append_assoc,
      List.append_assoc]
    show ∃ done position', _ ∧ members member start
      ⟨l.line (depth + 1) ++ (writtenString m.1 ++ (value ++ later)), position⟩ = _
    -- a turn takes one character of the bound, whatever it is
    cases htext : l.line (depth + 1) ++ (writtenString m.1 ++ (value ++ later)) with
    | nil =>
      rw [htext] at hlong
      cases hlong
    | cons b bound =>
      rw [htext] at hlong hnext
      obtain ⟨last, position', hlast, hrest⟩ := membersFrom_laid l depth hmember h'
        (Nat.lt_of_succ_lt_succ hlong) rest p'
      refine ⟨last, position', hlast, ?_⟩
      unfold members
      rw [membersFrom, hnext]
      simp only [hread]
      exact hrest

end

/-! ### Values -/

/-- Blanks in front are passed by a reader that skips them. -/
theorem Takes.gap {α : Type} {reader : Cursor → Read α} {text : List Char} {x : α}
    (h : Takes reader text x) (hreader : ∀ c, reader c.skipGap = reader c) {gap : List Char}
    (hgap : ∀ c ∈ gap, isGap c = true) (hbegins : Begins text) : Takes reader (gap ++ text) x := by
  intro rest position hrest
  obtain ⟨c, tail, rfl, hc, -⟩ := hbegins
  obtain ⟨p, hskip⟩ := skipGap_gap hgap hc (tail ++ rest) position
  obtain ⟨position', hread⟩ := h rest p hrest
  refine ⟨position', ?_⟩
  rw [List.append_assoc, ← hreader]
  show reader (Cursor.skipGap ⟨gap ++ c :: (tail ++ rest), position⟩) = _
  rw [hskip]
  exact hread

/-- Reads back a member of an object after its key. -/
theorem valueMember_written {depth : Nat} {text : List Char} {x : Json}
    (h : Takes (value depth) text x) (done : Members) (key : String) :
    Takes (valueMember depth done key) (':' :: text) (done.put key x) := by
  intro rest position hrest
  obtain ⟨position', hread⟩ := h rest (position.after ':') hrest
  refine ⟨position', ?_⟩
  show (value depth ⟨text ++ rest, position.after ':'⟩).map _ = _
  rw [hread]
  rfl

/-- Some first members of an object were read, with other numbers in them, and `left` is left. -/
def ReadUpTo (f : Number → Number) (ms done left : Members) : Prop :=
  ∃ seen : Members, seen ++ left = ms ∧ done = membersWithNumbers f seen

namespace ReadUpTo

variable {f : Number → Number} {ms done left : Members} {m : String × Json}

theorem nil (f : Number → Number) (ms : Members) : ReadUpTo f ms [] ms :=
  ⟨[], List.nil_append ms, by rw [membersWithNumbers]⟩

theorem all (h : ReadUpTo f ms done []) : done = membersWithNumbers f ms := by
  obtain ⟨seen, hsplit, hdone⟩ := h
  rw [hdone, ← hsplit, List.append_nil]

theorem mem (h : ReadUpTo f ms done (m :: left)) : m ∈ ms := by
  obtain ⟨seen, hsplit, -⟩ := h
  exact hsplit ▸ List.mem_append_right _ List.mem_cons_self

/-- One more member was read. -/
theorem put (h : ReadUpTo f ms done (m :: left)) (hkeys : ms.keys.Nodup) :
    ReadUpTo f ms (done.put m.1 (m.2.withNumbers f)) left := by
  obtain ⟨seen, hsplit, rfl⟩ := h
  have hnew : m.1 ∉ Members.keys (membersWithNumbers f seen) := by
    have hseen := Members.not_mem_keys_split (hsplit ▸ hkeys)
    rw [membersWithNumbers_eq]
    unfold Members.keys at hseen ⊢
    rwa [List.map_map]
  refine ⟨seen ++ [m], by rw [List.append_assoc]; exact hsplit, ?_⟩
  rw [Members.put_of_not_mem hnew, membersWithNumbers_eq, membersWithNumbers_eq, List.map_append]
  rfl

end ReadUpTo

/-- **A value is read back from its text**, with the numbers that its numbers read as. -/
theorem value_laid {f : Number → Number} (l : Layout) {depth : Nat} {x : Json} (h : Sound depth x)
    (hnumbers : ∀ n ∈ x.numbers, n.ReadsAs (f n)) (d : Nat) :
    Takes (value depth) (laid l d x) (x.withNumbers f) := by
  induction h generalizing d with
  | null =>
    intro rest position _
    exact ⟨_, by rw [value_null rfl]; rfl⟩
  | boolean b =>
    intro rest position _
    cases b with
    | true => exact ⟨_, by rw [value_true rfl]; rfl⟩
    | false => exact ⟨_, by rw [value_false rfl]; rfl⟩
  | number _ =>
    rw [laid, withNumbers]
    exact (hnumbers _ List.mem_cons_self).takes _
  | string s =>
    intro rest position _
    obtain ⟨position', hread⟩ := string_written s rest position
    refine ⟨position', ?_⟩
    rw [laid, withNumbers, value_string rfl]
    show (string (Cursor.next ⟨writtenString s ++ rest, position⟩)).map _ = _
    rw [hread]
    rfl
  | @array depth xs _ ih =>
    intro rest position _
    have hitems : ∀ x ∈ xs, ∀ n ∈ x.numbers, n.ReadsAs (f n) :=
      fun x hx n hn => hnumbers n (mem_numbers_item hx hn)
    obtain ⟨tail, htail, position', hread⟩ := items_laid l d
      (fun x hx => begins_laid fun n hn => (hitems x hx n hn).begins)
      (fun x hx => ih x hx (hitems x hx) (d + 1)) rest (position.after '[')
    refine ⟨position', ?_⟩
    rw [List.map_id'] at htail
    rw [htail, value_array rfl, withNumbers, itemsWithNumbers_eq]
    show (items (value depth) ⟨tail ++ rest, position.after '['⟩).map _ = _
    rw [hread]
    rfl
  | @object depth ms hkeys _ ih =>
    intro rest position _
    have hmember : ∀ (done : Members) (m : String × Json) (left : Members),
        ReadUpTo f ms done (m :: left) → ∃ done', ReadUpTo f ms done' left ∧
          Takes (valueMember depth done m.1) (':' :: (l.space ++ laid l (d + 1) m.2)) done' := by
      intro done m left hdone
      have hm := hdone.mem
      have hvalue : ∀ n ∈ m.2.numbers, n.ReadsAs (f n) :=
        fun n hn => hnumbers n (mem_numbers_member hm hn)
      exact ⟨_, hdone.put hkeys, valueMember_written ((ih m hm hvalue (d + 1)).gap
        (value_skipGap depth) l.gap_space (begins_laid fun n hn => (hvalue n hn).begins)) done m.1⟩
    obtain ⟨tail, htail, done, position', hdone, hread⟩ :=
      @members_laid l d Members _ (ReadUpTo f ms) hmember ms [] (.nil f ms) rest
        (position.after '\x7b')
    refine ⟨position', ?_⟩
    rw [htail, value_object rfl, withNumbers]
    show (members (valueMember depth) [] ⟨tail ++ rest, position.after '\x7b'⟩).map _ = _
    rw [hread, hdone.all]
    rfl

/-! ### On one line -/

theorem begins_compact {value : Json} (h : value.IsWhole) : Begins (compact value) :=
  laid_tight 0 value ▸ begins_laid fun n hn => (h n hn).readsAs.begins

theorem items_written {α : Type} {item : Cursor → Read α} {write : α → Json} {xs : List α}
    (hbegins : ∀ x ∈ xs, Begins (compact (write x)))
    (hitem : ∀ x ∈ xs, Takes item (compact (write x)) x) (rest : List Char) (position : Position) :
    ∃ tail, compact (.array (xs.map write)) = '[' :: tail ∧
      ∃ position', items item ⟨tail ++ rest, position⟩ = .ok (xs, ⟨rest, position'⟩) := by
  have hlaid := @items_laid α α item write id tight 0 xs
    (fun x hx => (laid_tight _ _).symm ▸ hbegins x hx)
    (fun x hx => (laid_tight _ _).symm ▸ hitem x hx) rest position
  rwa [laid_tight, List.map_id] at hlaid

theorem members_written {α : Type} {member : α → String → Cursor → Read α}
    {Inv : α → Members → Prop}
    (hmember : ∀ done m ms, Inv done (m :: ms) →
      ∃ done', Inv done' ms ∧ Takes (member done m.1) (':' :: compact m.2) done')
    {ms : Members} {start : α} (h : Inv start ms) (rest : List Char) (position : Position) :
    ∃ tail, compact (.object ms) = '\x7b' :: tail ∧ ∃ done position', Inv done [] ∧
      members member start ⟨tail ++ rest, position⟩ = .ok (done, ⟨rest, position'⟩) := by
  rw [← laid_tight 0]
  refine members_laid tight 0 (fun done m ms h => ?_) h rest position
  rw [laid_tight]
  exact hmember done m ms h

/-- **A value with whole numbers is read back.** -/
theorem value_written {depth : Nat} {x : Json} (h : Sound depth x) (hwhole : x.IsWhole) :
    Takes (value depth) (compact x) x := by
  have hlaid := @value_laid id tight depth x h (fun n hn => (hwhole n hn).readsAs) 0
  rwa [laid_tight, withNumbers_id] at hlaid

end Read

/-- All that is sound is read again in some way. -/
theorem Sound.legible {depth : Nat} {x : Json} (h : Sound depth x) :
    ∃ f : Number → Number, ∀ n ∈ x.numbers, n.ReadsAs (f n) := by
  have hchoice : ∀ n : Number, ∃ n', n.Kept → n.ReadsAs n' := fun n => by
    by_cases hn : n.Kept
    · obtain ⟨n', hreads⟩ := hn.readsAs
      exact ⟨n', fun _ => hreads⟩
    · exact ⟨n, fun hkept => absurd hkept hn⟩
  obtain ⟨f, hf⟩ := Classical.axiomOfChoice hchoice
  exact ⟨f, fun n hn => hf n (h.kept n hn)⟩

theorem ofText_sound {text : String} {x : Json} (h : ofText text = .ok x) : Sound depthLimit x := by
  obtain ⟨c, hread, -⟩ := readAll_eq_ok.1 h
  exact Read.value_sound hread

theorem ofText_of_takes {text : List Char} {x : Json}
    (h : Read.Takes (Read.value depthLimit) text x) : ofText (String.ofList text) = .ok x := by
  obtain ⟨position, hread⟩ := h [] {} stops_nil
  rw [List.append_nil] at hread
  refine readAll_eq_ok.2 ⟨⟨[], position⟩, ?_, rfl⟩
  rw [Cursor.start, String.toList_ofList]
  exact hread

/-- **A sound value is read again from its own lines**, with doubles for its doubles. -/
theorem ofText_toPretty {x : Json} (h : Sound depthLimit x) {f : Number → Number}
    (hnumbers : ∀ n ∈ x.numbers, n.ReadsAs (f n)) : ofText x.toPretty = .ok (x.withNumbers f) := by
  have hlaid := Read.value_laid indented h hnumbers 0
  rw [laid_indented] at hlaid
  exact ofText_of_takes hlaid

end Json

end PipeGuard
