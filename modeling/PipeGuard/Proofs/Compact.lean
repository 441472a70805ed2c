import Mathlib.Tactic.SplitIfs
import PipeGuard.Json.Printer

/-! Values written on one line.

A line feed or any other control character stands in no value written compactly: those
of strings are escaped, and nothing else would need one (`printable_compact`). -/
namespace PipeGuard

/-- Without control characters. -/
def Printable (text : List Char) : Prop := ∀ c ∈ text, 0x20 ≤ c.toNat

instance (text : List Char) : Decidable (Printable text) :=
  List.decidableBAll _ text

namespace Printable

theorem nil : Printable [] := fun _ h => absurd h List.not_mem_nil

theorem cons {c : Char} {text : List Char} (hc : 0x20 ≤ c.toNat) (h : Printable text) :
    Printable (c :: text) :=
  List.forall_mem_cons.mpr ⟨hc, h⟩

theorem append {xs ys : List Char} (hxs : Printable xs) (hys : Printable ys) :
    Printable (xs ++ ys) :=
  List.forall_mem_append.mpr ⟨hxs, hys⟩

theorem subset {xs ys : List Char} (h : Printable ys) (hsub : xs ⊆ ys) : Printable xs :=
  fun c hc => h c (hsub hc)

theorem replicate {c : Char} (h : 0x20 ≤ c.toNat) (n : Nat) : Printable (List.replicate n c) :=
  fun _ hx => (List.eq_of_mem_replicate hx).symm ▸ h

end Printable

/-! ### Numbers -/

theorem printable_digits (n : Nat) : Printable (Nat.toDigits 10 n) := by
  intro c hc
  have hdigit := Nat.isDigit_of_mem_toDigits (by decide) (by decide) hc
  have hzero : '0'.toNat ≤ c.toNat := (Char.isDigit_iff_toNat.mp hdigit).1
  exact Nat.le_trans (by decide) hzero

namespace Double

theorem printable_render (x : Double) : Printable x.render := by
  have hdigits : Printable x.shortest.digits := printable_digits _
  have hzeros : ∀ n, Printable (List.replicate n '0') := .replicate (by decide)
  unfold render
  refine .append ?_ ?_
  · split
    · decide
    · exact .nil
  · split
    · decide
    · split
      · refine .append ((hdigits.append (hzeros _)).subset (List.take_subset _ _)) ?_
        refine .cons (by decide) ?_
        split
        · decide
        · exact (hdigits.append (hzeros _)).subset (List.drop_subset _ _)
      · split
        · exact .append (.append (by decide) (hzeros _)) hdigits
        · refine .append (.append (.append (hdigits.subset (List.take_subset _ _)) ?_) ?_)
            (printable_digits _)
          · split
            · exact .nil
            · exact .cons (by decide) (hdigits.subset (List.drop_subset _ _))
          · split <;> decide

end Double

theorem Number.printable_render (n : Number) : Printable n.render := by
  cases n with
  | natural n => exact printable_digits n
  | negative n => exact .cons (by decide) (printable_digits n)
  | real x => exact x.printable_render

namespace Json

/-! ### Strings -/

theorem printable_hexDigit (n : Nat) : 0x20 ≤ (hexDigit n).toNat := by
  have hall : ∀ d < 16, 0x20 ≤ (Nat.digitChar d).toNat := by decide
  exact hall (n % 16) (Nat.mod_lt n (by decide))

theorem printable_writtenChar (c : Char) : Printable (writtenChar c) := by
  unfold writtenChar
  split_ifs with _ _ _ _ _ _ _ hcontrol
  iterate 7 · decide
  · exact .cons (by decide) (.cons (by decide) (.cons (by decide) (.cons (by decide)
      (.cons (printable_hexDigit _) (.cons (printable_hexDigit _) .nil)))))
  · exact .cons (Nat.le_of_not_lt hcontrol) .nil

theorem printable_writtenString (s : String) : Printable (writtenString s) := by
  refine .cons (by decide) (.append ?_ (by decide))
  intro c hc
  obtain ⟨x, -, hx⟩ := List.mem_flatMap.mp hc
  exact printable_writtenChar x c hx

/-! ### Values -/

theorem printable_writtenBool (b : Bool) : Printable (writtenBool b) := by
  cases b <;> decide

mutual

/-- **A value written on one line has no control characters.** -/
theorem printable_compact : (value : Json) → Printable (compact value)
  | null => by
    unfold compact
    decide
  | boolean b => by
    unfold compact
    exact printable_writtenBool b
  | number n => by
    unfold compact
    exact n.printable_render
  | string s => by
    unfold compact
    exact printable_writtenString s
  | array [] => by
    unfold compact
    decide
  | array (x :: xs) => by
    unfold compact
    exact .append (.append (.cons (by decide) (printable_compact x)) (printable_compactItems xs))
      (by decide)
  | object [] => by
    unfold compact
    decide
  | object ((key, x) :: ms) => by
    unfold compact
    exact .append (.append (.append (.cons (by decide) (printable_writtenString key))
      (.cons (by decide) (printable_compact x))) (printable_compactMembers ms)) (by decide)

theorem printable_compactItems : (xs : List Json) → Printable (compactItems xs)
  | [] => .nil
  | x :: xs => by
    unfold compactItems
    exact .append (.cons (by decide) (printable_compact x)) (printable_compactItems xs)

theorem printable_compactMembers : (ms : Members) → Printable (compactMembers ms)
  | [] => .nil
  | (key, x) :: ms => by
    unfold compactMembers
    exact .append (.append (.cons (by decide) (printable_writtenString key))
      (.cons (by decide) (printable_compact x))) (printable_compactMembers ms)

end

end Json

end PipeGuard
