import Mathlib.Data.List.Forall2
import Mathlib.Data.List.TakeWhile
import PipeGuard.Chat.Transcript

/-! The lines of a text.

A text is cut into lines in one way only (`rows_eq_iff`): every line but the last is
closed by a line feed and has no other one (`Row.Closed`), and the last may do without
(`Row.Open`). All the line ends that a line ends with belong to its ending
(`Row.Sound`).

So the text of a line may be replaced by any other that has no line ends, and all lines
stay where they are (`rows_retexted`). -/
namespace PipeGuard

open Transcript

/-! ### One line -/

namespace Row

/-- A line as it stands in a text. -/
def whole (row : Row) : List Char := row.text.toList ++ row.ending.toList

/-- The ending is the longest run of line ends that closes the line. -/
structure Sound (row : Row) : Prop where
  text : ∀ c, row.text.toList.getLast? = some c → isLineEnd c = false
  ending : ∀ c ∈ row.ending.toList, isLineEnd c = true

/-- A line with a line feed, which comes last. -/
structure Closed (row : Row) : Prop extends row.Sound where
  line : '\n' ∉ row.text.toList
  closed : ∃ returns, '\n' ∉ returns ∧ row.ending.toList = returns ++ ['\n']

/-- A line without a line feed. There is something on it. -/
structure Open (row : Row) : Prop extends row.Sound where
  line : '\n' ∉ row.text.toList
  opened : '\n' ∉ row.ending.toList
  nonempty : row.whole ≠ []

/-- A line with the text of another, or with a new one that has no line ends. -/
def Retext (row row' : Row) : Prop :=
  row' = row ∨
    (row'.ending = row.ending ∧ row'.text ≠ "" ∧ ∀ c ∈ row'.text.toList, isLineEnd c = false)

end Row

theorem text_rowOf (raw : List Char) :
    (rowOf raw).text.toList = (raw.reverse.dropWhile isLineEnd).reverse :=
  String.toList_ofList

theorem ending_rowOf (raw : List Char) :
    (rowOf raw).ending.toList = (raw.reverse.takeWhile isLineEnd).reverse :=
  String.toList_ofList

theorem whole_rowOf (raw : List Char) : (rowOf raw).whole = raw := by
  unfold Row.whole
  rw [text_rowOf, ending_rowOf, ← List.reverse_append, List.takeWhile_append_dropWhile,
    List.reverse_reverse]

theorem sound_rowOf (raw : List Char) : (rowOf raw).Sound := by
  constructor
  · intro c hc
    rw [text_rowOf, List.getLast?_reverse] at hc
    have hnot := List.head?_dropWhile_not isLineEnd raw.reverse
    rw [hc] at hnot
    exact hnot
  · intro c hc
    rw [ending_rowOf, List.mem_reverse] at hc
    exact List.mem_takeWhile_imp hc

/-- A line can be read off its characters. -/
theorem rowOf_whole {row : Row} (h : row.Sound) : rowOf row.whole = row := by
  have hback : row.whole.reverse = row.ending.toList.reverse ++ row.text.toList.reverse :=
    List.reverse_append
  have hending : ∀ c ∈ row.ending.toList.reverse, isLineEnd c = true := fun c hc =>
    h.ending c (List.mem_reverse.mp hc)
  have hlast : ∀ c, row.text.toList.reverse.head? = some c → isLineEnd c = false := by
    rw [List.head?_reverse]
    exact h.text
  have hcut : row.whole.reverse.takeWhile isLineEnd = row.ending.toList.reverse ∧
      row.whole.reverse.dropWhile isLineEnd = row.text.toList.reverse := by
    rw [hback, List.takeWhile_append_of_pos hending, List.dropWhile_append_of_pos hending]
    cases hrest : row.text.toList.reverse with
    | nil => exact ⟨List.append_nil _, rfl⟩
    | cons c rest =>
      have hc : ¬ isLineEnd c = true := Bool.not_eq_true _ ▸ hlast c (by rw [hrest]; rfl)
      rw [List.takeWhile_cons_of_neg hc, List.dropWhile_cons_of_neg hc, List.append_nil]
      exact ⟨rfl, rfl⟩
  unfold rowOf
  simp only [hcut, List.reverse_reverse, String.ofList_toList]

theorem closed_rowOf {line : List Char} (h : '\n' ∉ line) : (rowOf (line ++ ['\n'])).Closed := by
  have hback : (line ++ ['\n']).reverse = '\n' :: line.reverse := by
    rw [List.reverse_append]
    rfl
  refine { sound_rowOf _ with line := ?_, closed := ?_ }
  · rw [text_rowOf, hback, List.dropWhile_cons_of_pos rfl, List.mem_reverse]
    exact fun hmem => h (List.mem_reverse.mp (List.dropWhile_subset _ hmem))
  · rw [ending_rowOf, hback, List.takeWhile_cons_of_pos rfl, List.reverse_cons]
    refine ⟨_, fun hmem => ?_, rfl⟩
    exact h (List.mem_reverse.mp (List.takeWhile_subset _ (List.mem_reverse.mp hmem)))

theorem open_rowOf {line : List Char} (h : '\n' ∉ line) (hne : line ≠ []) :
    (rowOf line).Open := by
  have hwhole := whole_rowOf line
  refine { sound_rowOf _ with line := ?_, opened := ?_, nonempty := ?_ }
  · exact fun hmem => h (hwhole ▸ List.mem_append_left _ hmem)
  · exact fun hmem => h (hwhole ▸ List.mem_append_right _ hmem)
  · rw [hwhole]
    exact hne

/-! ### All lines -/

/-- Lines as a text has them. -/
inductive Ruled : List Row → Prop
  | nil : Ruled []
  | last {row : Row} : row.Open → Ruled [row]
  | cons {row : Row} {rest : List Row} : row.Closed → Ruled rest → Ruled (row :: rest)

theorem cutFrom_closed {line : List Char} (h : '\n' ∉ line) (seen rest : List Char) :
    cutFrom seen (line ++ '\n' :: rest) =
      (seen.reverse ++ (line ++ ['\n'])) :: cutFrom [] rest := by
  induction line generalizing seen with
  | nil => simp [cutFrom]
  | cons c line ih =>
    obtain ⟨hc, hline⟩ := not_or.mp (mt List.mem_cons.mpr h)
    rw [List.cons_append, cutFrom, if_neg (Ne.symm hc), ih hline]
    simp

theorem cutFrom_open {line : List Char} (h : '\n' ∉ line) (seen : List Char) :
    cutFrom seen line = if seen ++ line = [] then [] else [seen.reverse ++ line] := by
  induction line generalizing seen with
  | nil => cases seen <;> simp [cutFrom]
  | cons c line ih =>
    obtain ⟨hc, hline⟩ := not_or.mp (mt List.mem_cons.mpr h)
    rw [cutFrom, if_neg (Ne.symm hc), ih hline]
    simp

/-- Cutting gives lines, and none of the text is lost. -/
theorem ruled_rows (content : String) :
    Ruled (rows content) ∧ (rows content).flatMap Row.whole = content.toList := by
  unfold rows
  -- the induction is on how much is left behind the next line feed
  induction hlen : content.toList.length using Nat.strongRecOn generalizing content with
  | ind n ih =>
    by_cases hfeed : '\n' ∈ content.toList
    · obtain ⟨line, rest, hsplit, hline⟩ := List.eq_append_cons_of_mem hfeed
      have hshort : rest.length < n := by
        rw [← hlen, hsplit, List.length_append, List.length_cons]
        omega
      obtain ⟨hruled, hwhole⟩ :=
        ih rest.length hshort (String.ofList rest) (by rw [String.toList_ofList])
      rw [String.toList_ofList] at hruled hwhole
      rw [hsplit, cutFrom_closed hline, List.map_cons, List.flatMap_cons, hwhole]
      refine ⟨.cons (closed_rowOf hline) hruled, ?_⟩
      rw [List.reverse_nil, List.nil_append, whole_rowOf, List.append_assoc]
      rfl
    · rw [cutFrom_open hfeed, List.nil_append]
      split
      · case _ hempty => exact ⟨.nil, hempty.symm⟩
      · case _ hne =>
        rw [List.reverse_nil, List.nil_append, List.map_singleton, List.flatMap_singleton,
          whole_rowOf]
        exact ⟨.last (open_rowOf hfeed hne), rfl⟩

/-- **There is one way to cut a text into lines.** -/
theorem rows_eq_iff {content : String} {lines : List Row} :
    rows content = lines ↔ Ruled lines ∧ lines.flatMap Row.whole = content.toList := by
  constructor
  · rintro rfl
    exact ruled_rows content
  · rintro ⟨hruled, hwhole⟩
    unfold rows
    rw [← hwhole]
    clear hwhole
    induction hruled with
    | nil => rfl
    | @last row hopen =>
      have hline : '\n' ∉ row.whole := by
        unfold Row.whole
        rw [List.mem_append]
        exact not_or.mpr ⟨hopen.line, hopen.opened⟩
      rw [List.flatMap_cons, List.flatMap_nil, List.append_nil, cutFrom_open hline,
        List.nil_append, if_neg hopen.nonempty, List.reverse_nil, List.nil_append,
        List.map_singleton, rowOf_whole hopen.toSound]
    | @cons row rest hclosed _ ih =>
      obtain ⟨returns, hreturns, hending⟩ := hclosed.closed
      have hwhole : row.whole = (row.text.toList ++ returns) ++ ['\n'] := by
        unfold Row.whole
        rw [hending, List.append_assoc]
      have hline : '\n' ∉ row.text.toList ++ returns := by
        rw [List.mem_append]
        exact not_or.mpr ⟨hclosed.line, hreturns⟩
      have hcut : row.whole ++ rest.flatMap Row.whole =
          (row.text.toList ++ returns) ++ '\n' :: rest.flatMap Row.whole := by
        rw [hwhole, List.append_assoc]
        rfl
      rw [List.flatMap_cons, hcut, cutFrom_closed hline, List.reverse_nil, List.nil_append,
        ← hwhole, List.map_cons, rowOf_whole hclosed.toSound, ih]

/-! ### New texts for lines -/

theorem not_lineEnd_line {text : String} (h : ∀ c ∈ text.toList, isLineEnd c = false) :
    '\n' ∉ text.toList := fun hmem => absurd (h '\n' hmem) (by decide)

theorem Row.Sound.retext {row row' : Row} (h : row.Sound) (hre : row.Retext row') :
    row'.Sound := by
  obtain rfl | ⟨hending, -, hclear⟩ := hre
  · exact h
  · exact ⟨fun c hc => hclear c (List.mem_of_getLast? hc), fun c hc => h.ending c (hending ▸ hc)⟩

theorem Row.Closed.retext {row row' : Row} (h : row.Closed) (hre : row.Retext row') :
    row'.Closed := by
  refine { h.toSound.retext hre with line := ?_, closed := ?_ }
  · obtain rfl | ⟨-, -, hclear⟩ := hre
    · exact h.line
    · exact not_lineEnd_line hclear
  · obtain rfl | ⟨hending, -, -⟩ := hre
    · exact h.closed
    · rw [hending]
      exact h.closed

theorem Row.Open.retext {row row' : Row} (h : row.Open) (hre : row.Retext row') : row'.Open := by
  have hsound := h.toSound.retext hre
  obtain rfl | ⟨hending, hne, hclear⟩ := hre
  · exact h
  · refine { hsound with line := not_lineEnd_line hclear, opened := ?_, nonempty := ?_ }
    · rw [hending]
      exact h.opened
    · exact fun hnil => hne (String.toList_eq_nil_iff.mp (List.append_eq_nil_iff.mp hnil).1)

theorem Ruled.retext {given lines : List Row} (hruled : Ruled given)
    (hre : List.Forall₂ Row.Retext given lines) : Ruled lines := by
  induction hre with
  | nil => exact .nil
  | cons hfirst hrest ih =>
    cases hruled with
    | last hopen =>
      cases hrest
      exact .last (hopen.retext hfirst)
    | cons hclosed hruled => exact .cons (hclosed.retext hfirst) (ih hruled)

/-- **Lines stay where they are when their texts are replaced.** -/
theorem rows_retexted {content output : String} {lines : List Row}
    (hre : List.Forall₂ Row.Retext (rows content) lines)
    (houtput : lines.flatMap Row.whole = output.toList) : rows output = lines :=
  rows_eq_iff.mpr ⟨(ruled_rows content).1.retext hre, houtput⟩

end PipeGuard
