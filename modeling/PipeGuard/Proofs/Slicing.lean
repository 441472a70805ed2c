import PipeGuard.Proofs.Leftmost
import PipeGuard.Text.Slice

/-! What a slice is, and what a draft holds.

What stands between two boundaries of a text can be taken (`slice?_between`). So a draft
that splices from left to right, each time at boundaries of its source, always gets the
slice it asks for, and holds the source with the words in their places (`Draft.Stands`). -/
namespace PipeGuard.Text

/-! ### Boundaries -/

theorem utf8ByteSize_ofList (text : List Char) :
    (String.ofList text).utf8ByteSize = byteSize text := by
  induction text with
  | nil => rfl
  | cons c rest ih =>
    have hsplit : String.ofList (c :: rest) = String.singleton c ++ String.ofList rest := by
      rw [String.singleton_eq_ofList, ← String.ofList_append]
      rfl
    rw [hsplit, String.utf8ByteSize_append, ih, byteSize]
    simp

/-- A boundary stands between the characters before it and those after it. -/
theorem isValid_iff {source : String} {place : Nat} :
    String.Pos.Raw.IsValid source ⟨place⟩ ↔
      ∃ before after, source.toList = before ++ after ∧ place = byteSize before := by
  rw [String.Pos.Raw.isValid_iff_exists_append]
  constructor
  · intro hsplit
    obtain ⟨before, after, rfl, hplace⟩ := hsplit
    refine ⟨before.toList, after.toList, String.toList_append, ?_⟩
    rw [← utf8ByteSize_ofList, String.ofList_toList]
    exact congrArg String.Pos.Raw.byteIdx hplace
  · intro hsplit
    obtain ⟨before, after, hsource, rfl⟩ := hsplit
    refine ⟨String.ofList before, String.ofList after, ?_, ?_⟩
    · rw [← String.ofList_append, ← hsource, String.ofList_toList]
    · rw [← utf8ByteSize_ofList]
      rfl

/-! ### Slices -/

theorem toByteArray_between (before part after : List Char) :
    (String.ofList (before ++ part ++ after)).toByteArray.extract (byteSize before)
      (byteSize (before ++ part)) = (String.ofList part).toByteArray := by
  have hsize : byteSize before = (String.ofList before).toByteArray.size := by
    rw [String.size_toByteArray, utf8ByteSize_ofList]
  have hpart : byteSize part = (String.ofList part).toByteArray.size := by
    rw [String.size_toByteArray, utf8ByteSize_ofList]
  rw [List.append_assoc, String.ofList_append, String.ofList_append, String.toByteArray_append,
    String.toByteArray_append, byteSize_append]
  have hshift := @ByteArray.extract_append_size_add' (String.ofList before).toByteArray
    ((String.ofList part).toByteArray ++ (String.ofList after).toByteArray) 0 (byteSize part) _ hsize
  rw [Nat.add_zero] at hshift
  rw [hshift, ByteArray.extract_append_eq_left hpart]

/-- What stands between two boundaries can be taken. -/
theorem slice?_between {source : String} {before part after : List Char}
    (h : source.toList = before ++ part ++ after) :
    slice? source (byteSize before) (byteSize (before ++ part)) = some (String.ofList part) := by
  have hsource : source = String.ofList (before ++ part ++ after) := by
    rw [← h, String.ofList_toList]
  have hstart : String.Pos.Raw.IsValid source ⟨byteSize before⟩ :=
    isValid_iff.2 ⟨before, part ++ after, by rw [h, List.append_assoc], rfl⟩
  have hstop : String.Pos.Raw.IsValid source ⟨byteSize (before ++ part)⟩ :=
    isValid_iff.2 ⟨before ++ part, after, h, rfl⟩
  have horder : byteSize before ≤ byteSize (before ++ part) := by
    rw [byteSize_append]
    exact Nat.le_add_right _ _
  rw [slice?, dif_pos ⟨horder, hstop.le_utf8ByteSize, hstart, hstop⟩, Option.some.injEq,
    ← String.toByteArray_inj, String.toByteArray_extract, ← toByteArray_between before part after,
    ← hsource]

/-! ### Drafts -/

namespace Draft

/-- The draft has come to the end of `done` in its source, and has `written` for it. -/
structure Stands (draft : Draft) (done written : List Char) : Prop where
  last : draft.last = byteSize done
  text : draft.text.getD "" = String.ofList written

theorem stands_start : Stands {} [] [] := ⟨rfl, rfl⟩

variable {source : String} {draft : Draft} {done written copied rest : List Char}

/-- A draft splices at boundaries further on. -/
theorem Stands.splice (h : draft.Stands done written) {cut : List Char}
    (hsource : source.toList = done ++ copied ++ cut ++ rest) (word : List Char) :
    ∃ draft', draft.splice? source
        ⟨byteSize (done ++ copied), byteSize (done ++ copied ++ cut), String.ofList word⟩ =
          some draft' ∧
      draft'.text.isSome ∧ draft'.Stands (done ++ copied ++ cut) (written ++ copied ++ word) := by
  have hslice : slice? source draft.last (byteSize (done ++ copied)) =
      some (String.ofList copied) := by
    rw [h.last]
    exact slice?_between (by rw [hsource, List.append_assoc])
  refine ⟨⟨some (draft.text.getD "" ++ String.ofList copied ++ String.ofList word),
    byteSize (done ++ copied ++ cut)⟩, ?_, rfl, rfl, ?_⟩
  · rw [splice?, hslice]
    rfl
  · rw [h.text, ← String.ofList_append, ← String.ofList_append]
    rfl

/-- The rest of the source is copied. -/
theorem Stands.finish (h : draft.Stands done written) (hsource : source.toList = done ++ rest) :
    draft.finish? source = some (draft.text.map fun _ => String.ofList (written ++ rest)) := by
  have hslice : slice? source draft.last source.utf8ByteSize = some (String.ofList rest) := by
    have hall : source.toList = done ++ rest ++ [] := by rw [hsource, List.append_nil]
    have hbetween := slice?_between hall
    rwa [← hsource, ← utf8ByteSize_ofList source.toList, String.ofList_toList, ← h.last]
      at hbetween
  have htext := h.text
  rw [finish?]
  cases hdraft : draft.text with
  | none => rfl
  | some text =>
    rw [hdraft, Option.getD_some] at htext
    simp [hslice, htext, String.ofList_append]

end Draft

end PipeGuard.Text
