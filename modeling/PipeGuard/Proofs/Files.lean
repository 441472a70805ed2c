import PipeGuard.Disk.Path

/-! What writing a file does to the files of a disk.

A file is written over a file or where there was nothing, never over a directory. So a
path that could be followed before leads where it led (`resolve_put`), and a file that
could be read holds what it held, or what was written (`readText_writeText`). What lies
elsewhere stays (`alike_writeText`). A file that can be read can be written over
(`target_of_readText`), and writing the same again leaves the disk as it is
(`writeText_again`). -/
namespace PipeGuard.Disk

variable {disk disk' : Disk} {path text : String} {place : Place}

theorem resolve_of_target (h : disk.target path = .ok place) :
    disk.resolve path = .ok place ∧ disk.node? place ≠ some .directory := by
  unfold target at h
  split at h
  · cases h
  · cases hresolve : disk.resolve path with
    | error fault => rw [hresolve] at h; cases h
    | ok found =>
      rw [hresolve] at h
      simp only at h
      split at h
      · cases h
      · case _ hnode =>
        cases h
        exact ⟨rfl, hnode⟩

/-- Writing a file puts it where its path leads to. -/
theorem writeText_eq (h : disk.writeText path text = .ok disk') :
    ∃ place, disk.target path = .ok place ∧ disk' = disk.put place (.file (.text text)) := by
  unfold writeText at h
  cases htarget : disk.target path with
  | error fault => rw [htarget] at h; cases h
  | ok place =>
    rw [htarget] at h
    cases h
    exact ⟨place, rfl, rfl⟩

/-! ### Nodes -/

/-- Whatever is put over them, the directories that a run starts below stay. -/
theorem node?_of_put (disk : Disk) (place other : Place) (node : Node) :
    (disk.put place node).node? other =
      if other <+: disk.start then some .directory
      else if other = place then some node else disk.node? other := by
  have hnodes : (disk.put place node).nodes = put.go place node disk.nodes := rfl
  have hstart : (disk.put place node).start = disk.start := rfl
  unfold node?
  rw [hnodes, hstart, lookup_put_go]
  split <;> rfl

theorem lookup_filter_ne (place other : Place) (nodes : List (Place × Node)) :
    (nodes.filter fun entry => entry.1 ≠ place).lookup other =
      if other = place then none else nodes.lookup other := by
  induction nodes with
  | nil => simp
  | cons entry rest ih =>
    obtain ⟨first, node⟩ := entry
    by_cases hfirst : first = place
    · subst hfirst
      rw [List.filter_cons_of_neg (by simp), ih, List.lookup_cons]
      by_cases hother : other = first
      · rw [if_pos hother, if_pos hother]
      · rw [if_neg hother, if_neg hother, beq_false_of_ne hother]
    · rw [List.filter_cons_of_pos (by simpa using hfirst), List.lookup_cons, List.lookup_cons, ih]
      by_cases hother : other = first
      · rw [beq_iff_eq.mpr hother]
        exact (if_neg (hother ▸ hfirst)).symm
      · rw [beq_false_of_ne hother]

theorem node?_remove (disk : Disk) (place other : Place) :
    (disk.remove place).node? other =
      if other <+: disk.start then some .directory
      else if other = place then none else disk.node? other := by
  have hstart : (disk.remove place).start = disk.start := rfl
  unfold node?
  rw [hstart, show (disk.remove place).nodes = disk.nodes.filter _ from rfl, lookup_filter_ne]
  split <;> rfl

/-! ### Following paths -/

section
variable (htarget : disk.target path = .ok place) (node : Node)
include htarget

theorem node?_target (other : Place) :
    (disk.put place node).node? other =
      if other = place then some node else disk.node? other :=
  node?_put disk place other node (not_prefix_of_target htarget)

/-- A directory that was entered can be entered still. -/
theorem step_put {dir next : Place} {name : String} (h : disk.step dir name = .ok next) :
    (disk.put place node).step dir name = .ok next := by
  unfold step at h ⊢
  cases hnode : disk.node? dir with
  | none => rw [hnode] at h; cases h
  | some found =>
    cases found with
    | file content => rw [hnode] at h; cases h
    | directory =>
      have hother : dir ≠ place := by
        rintro rfl
        exact (resolve_of_target htarget).2 hnode
      rw [node?_target htarget, if_neg hother, hnode]
      rw [hnode] at h
      exact h

theorem foldlM_put {names : List String} {dir final : Place}
    (h : names.foldlM disk.step dir = .ok final) :
    names.foldlM (disk.put place node).step dir = .ok final := by
  induction names generalizing dir with
  | nil => exact h
  | cons name names ih =>
    rw [List.foldlM_cons] at h ⊢
    cases hstep : disk.step dir name with
    | error fault => rw [hstep] at h; cases h
    | ok next =>
      rw [hstep] at h
      rw [step_put htarget node hstep]
      exact ih h

/-- Paths lead where they led. -/
theorem resolve_put {other : String} {final : Place} (h : disk.resolve other = .ok final) :
    (disk.put place node).resolve other = .ok final := by
  unfold resolve follow at h ⊢
  split at h
  · cases h
  · exact foldlM_put htarget node h

/-- A file that was put somewhere cannot be entered. -/
theorem step_of_put {dir next : Place} {name : String} {content : Content}
    (h : (disk.put place (.file content)).step dir name = .ok next) :
    disk.step dir name = .ok next := by
  unfold step at h ⊢
  by_cases hdir : dir = place
  · rw [node?_target htarget, if_pos hdir] at h
    cases h
  · rw [node?_target htarget, if_neg hdir] at h
    exact h

theorem foldlM_of_put {names : List String} {dir final : Place} {content : Content}
    (h : names.foldlM (disk.put place (.file content)).step dir = .ok final) :
    names.foldlM disk.step dir = .ok final := by
  induction names generalizing dir with
  | nil => exact h
  | cons name names ih =>
    rw [List.foldlM_cons] at h ⊢
    cases hstep : (disk.put place (.file content)).step dir name with
    | error fault => rw [hstep] at h; cases h
    | ok next =>
      rw [hstep] at h
      rw [step_of_put htarget hstep]
      exact ih h

/-- A file leads to no new places. -/
theorem resolve_of_put {other : String} {final : Place} {content : Content}
    (h : (disk.put place (.file content)).resolve other = .ok final) :
    disk.resolve other = .ok final := by
  unfold resolve follow at h ⊢
  split at h
  · cases h
  · exact foldlM_of_put htarget h

end

/-! ### Reading files -/

theorem readText_of_node {final : Place} {content : Content}
    (hresolve : disk.resolve path = .ok final) (hnode : disk.node? final = some (.file content)) :
    disk.readText path = content.asText := by
  unfold readText Disk.content
  simp only [hresolve, hnode]

theorem node_of_readText (h : disk.readText path = .ok text) :
    ∃ final content, disk.resolve path = .ok final ∧
      disk.node? final = some (.file content) ∧ content.asText = .ok text := by
  unfold readText Disk.content at h
  cases hresolve : disk.resolve path with
  | error fault => rw [hresolve] at h; cases h
  | ok final =>
    rw [hresolve] at h
    cases hnode : disk.node? final with
    | none => simp only [hnode] at h; cases h
    | some node =>
      cases node with
      | directory => simp only [hnode] at h; cases h
      | file content =>
        simp only [hnode] at h
        exact ⟨final, content, rfl, hnode, h⟩

/-- What was written is there to be read. -/
theorem readText_written (h : disk.writeText path text = .ok disk') :
    disk'.readText path = .ok text := by
  obtain ⟨place, htarget, rfl⟩ := writeText_eq h
  have hnode : (disk.put place (.file (.text text))).node? place = some (.file (.text text)) := by
    rw [node?_target htarget, if_pos rfl]
  exact readText_of_node (resolve_put htarget _ (resolve_of_target htarget).1) hnode

/-- **A file that could be read holds what it held, or what was written.** -/
theorem readText_writeText (h : disk.writeText path text = .ok disk') {other content : String}
    (hread : disk.readText other = .ok content) :
    disk'.readText other = .ok content ∨ disk'.readText other = .ok text := by
  obtain ⟨place, htarget, rfl⟩ := writeText_eq h
  obtain ⟨final, found, hresolve, hnode, htext⟩ := node_of_readText hread
  have hresolve' := resolve_put htarget (.file (.text text)) hresolve
  by_cases hsame : final = place
  · have hwritten : (disk.put place (.file (.text text))).node? final =
        some (.file (.text text)) := by
      rw [node?_target htarget, if_pos hsame]
    exact .inr (readText_of_node hresolve' hwritten)
  · have hkept : (disk.put place (.file (.text text))).node? final = some (.file found) := by
      rw [node?_target htarget, if_neg hsame, hnode]
    exact .inl ((readText_of_node hresolve' hkept).trans htext)

theorem exists_of_readText (h : disk.readText path = .ok text) : disk.exists? path = true := by
  obtain ⟨final, content, hresolve, hnode, -⟩ := node_of_readText h
  unfold exists?
  rw [hresolve]
  simp only [hnode]
  rfl

/-! ### Writing over files -/

theorem names_go_slash (name cs : List Char) :
    names.go name (cs ++ ['/']) = names.go name cs ++ [""] := by
  induction cs generalizing name with
  | nil => rfl
  | cons c cs ih =>
    rw [List.cons_append, names.go, names.go]
    split
    · rw [ih, List.cons_append]
    · exact ih _

/-- A path that ends in a slash leads to directories only. -/
theorem directory_of_endsInSlash (hslash : endsInSlash path = true)
    (h : disk.resolve path = .ok place) : disk.node? place = some .directory := by
  obtain ⟨cs, hcs⟩ : ∃ cs, path.toList = cs ++ ['/'] := by
    unfold endsInSlash at hslash
    exact List.getLast?_eq_some_iff.mp (decide_eq_true_eq.mp hslash)
  have hnames : names path = names.go [] cs ++ [""] := by
    unfold names
    rw [hcs, names_go_slash]
  unfold resolve follow at h
  split at h
  · cases h
  · rw [hnames, List.foldlM_append] at h
    cases hlead : (names.go [] cs).foldlM disk.step (disk.startPlace path) with
    | error fault => rw [hlead] at h; cases h
    | ok dir =>
      rw [hlead] at h
      change disk.step dir "" >>= pure = _ at h
      cases hnode : disk.node? dir with
      | none => unfold step at h; rw [hnode] at h; cases h
      | some node =>
        cases node with
        | file content => unfold step at h; rw [hnode] at h; cases h
        | directory =>
          unfold step at h
          rw [hnode] at h
          cases h
          exact hnode

theorem target_of_resolve (h : disk.resolve path = .ok place) {content : Content}
    (hnode : disk.node? place = some (.file content)) : disk.target path = .ok place := by
  unfold target
  split
  · case _ hslash =>
    rw [directory_of_endsInSlash hslash h] at hnode
    cases hnode
  · rw [h]
    simp only [hnode]
    rfl

theorem target_of_readText (h : disk.readText path = .ok text) :
    ∃ place, disk.target path = .ok place := by
  obtain ⟨place, content, hresolve, hnode, -⟩ := node_of_readText h
  exact ⟨place, target_of_resolve hresolve hnode⟩

theorem put_put (disk : Disk) (place : Place) (node : Node) :
    (disk.put place node).put place node = disk.put place node := by
  have hgo : ∀ nodes, put.go place node (put.go place node nodes) = put.go place node nodes := by
    intro nodes
    induction nodes with
    | nil => simp [put.go]
    | cons entry rest ih =>
      by_cases h : entry.1 = place
      · simp [put.go, h]
      · simp [put.go, h, ih]
  exact congrArg (Disk.mk disk.start) (hgo disk.nodes)

/-- Writing the same again changes nothing. -/
theorem writeText_again (h : disk.writeText path text = .ok disk') :
    disk'.writeText path text = .ok disk' := by
  obtain ⟨place, htarget, rfl⟩ := writeText_eq h
  have hnode : (disk.put place (.file (.text text))).node? place = some (.file (.text text)) := by
    rw [node?_target htarget, if_pos rfl]
  unfold writeText
  rw [target_of_resolve (resolve_put htarget _ (resolve_of_target htarget).1) hnode]
  show Except.ok _ = _
  rw [put_put]

/-! ### Writing elsewhere -/

/-- A path leads where it led, and the same lies there. -/
def Alike (disk disk' : Disk) (path : String) : Prop :=
  ∃ place, disk.resolve path = .ok place ∧ disk'.resolve path = .ok place ∧
    disk'.node? place = disk.node? place

namespace Alike

variable (h : disk.Alike disk' path)
include h

theorem trans {disk'' : Disk} (h' : disk'.Alike disk'' path) : disk.Alike disk'' path := by
  obtain ⟨place, hbefore, hafter, hnode⟩ := h
  obtain ⟨place', hbefore', hafter', hnode'⟩ := h'
  obtain rfl : place = place' := Except.ok.inj (hafter.symm.trans hbefore')
  exact ⟨place, hbefore, hafter', hnode'.trans hnode⟩

theorem exists_eq : disk'.exists? path = disk.exists? path := by
  obtain ⟨place, hbefore, hafter, hnode⟩ := h
  unfold exists?
  rw [hbefore, hafter]
  simp only [hnode]

theorem content_eq : disk'.content path = disk.content path := by
  obtain ⟨place, hbefore, hafter, hnode⟩ := h
  unfold Disk.content
  rw [hbefore, hafter]
  simp only [hnode]

theorem readText_eq : disk'.readText path = disk.readText path := by
  unfold readText
  rw [h.content_eq]

theorem target (htarget : disk.target path = .ok place) : disk'.target path = .ok place := by
  obtain ⟨place', hbefore, hafter, hnode⟩ := h
  unfold Disk.target at htarget ⊢
  split at htarget
  · cases htarget
  · case _ hslash =>
    rw [hbefore] at htarget
    rw [if_neg hslash, hafter]
    simp only [hnode]
    exact htarget

end Alike

theorem alike_refl (h : disk.resolve path = .ok place) : disk.Alike disk path := ⟨place, h, h, rfl⟩

/-- Writing a file leaves what lies elsewhere. -/
theorem alike_writeText {other : String} {final : Place} (htarget : disk.target path = .ok place)
    (hwrite : disk.writeText path text = .ok disk') (hother : disk.resolve other = .ok final)
    (hne : final ≠ place) : disk.Alike disk' other := by
  obtain ⟨place', htarget', rfl⟩ := writeText_eq hwrite
  obtain rfl : place' = place := Except.ok.inj (htarget'.symm.trans htarget)
  exact ⟨final, hother, resolve_put htarget _ hother, by rw [node?_target htarget, if_neg hne]⟩

end PipeGuard.Disk
