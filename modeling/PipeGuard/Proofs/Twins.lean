import PipeGuard.Proofs.Storage

/-! Storage that differs in the debug flag at most.

Of two guards that were told different things about debugging, one keeps another flag
than the other, and beside that flag everything is the same: each value is equal in both,
or was made in one way of flags that agree on everything but debugging (`UpToDebug`).
What is read off such a value is such a value again (`map`), so the relation goes from
what lies on a disk through its text and its members to the flags that are loaded
(`Disk.Twins.load`), and back onto the disk when flags are saved (`Disk.Twins.save`).

`Storage.Twins.step`: two storages that are alike in this way stay so. -/
namespace PipeGuard

/-- Equal, or made in one way of flags that differ in debugging at most. -/
inductive UpToDebug {α : Type} (write : Settings → α) : α → α → Prop
  | same (a : α) : UpToDebug write a a
  | flags (enabled debug debug' : Bool) :
    UpToDebug write (write ⟨enabled, debug⟩) (write ⟨enabled, debug'⟩)

namespace UpToDebug

variable {α β : Type} {write : Settings → α} {a b : α}

/-- What is read off the two is alike as well. -/
theorem map (h : UpToDebug write a b) (read : α → β) {write' : Settings → β}
    (hread : ∀ settings, read (write settings) = write' settings) :
    UpToDebug write' (read a) (read b) := by
  cases h with
  | same => exact .same _
  | flags enabled debug debug' =>
    rw [hread, hread]
    exact .flags enabled debug debug'

end UpToDebug

/-! ### Disks -/

/-- A settings file with flags among other members. -/
def Store.fileNode (members : Members) (settings : Settings) : Node :=
  .file (.text (Store.fileText members settings))

/-- The same at a place of two disks, up to the debug flag of a settings file. -/
def NodeTwins (node node' : Option Node) : Prop :=
  ∃ members, Json.Sound Json.depthLimit (.object members) ∧
    UpToDebug (fun settings => some (Store.fileNode members settings)) node node'

/-- The same at all places of two disks, up to the debug flags of settings files. -/
structure Disk.Twins (disk disk' : Disk) : Prop where
  start : disk.start = disk'.start
  node (place : Place) : NodeTwins (disk.node? place) (disk'.node? place)

theorem nodeTwins_same (node : Option Node) : NodeTwins node node :=
  ⟨[], Json.sound_empty, .same node⟩

namespace Disk

namespace Twins

variable {disk disk' : Disk}

theorem refl (disk : Disk) : disk.Twins disk := ⟨rfl, fun _ => nodeTwins_same _⟩

section
variable (h : disk.Twins disk')
include h

/-- The two differ in what is in files at most. -/
theorem node_cases (place : Place) : disk.node? place = disk'.node? place ∨
    ∃ content content', disk.node? place = some (.file content) ∧
      disk'.node? place = some (.file content') := by
  obtain ⟨members, -, hnode⟩ := h.node place
  generalize disk.node? place = node at hnode ⊢
  generalize disk'.node? place = node' at hnode ⊢
  cases hnode with
  | same => exact .inl rfl
  | flags enabled debug debug' => exact .inr ⟨_, _, rfl, rfl⟩

theorem isSome_eq (place : Place) :
    (disk.node? place).isSome = (disk'.node? place).isSome := by
  obtain hsame | ⟨content, content', hfile, hfile'⟩ := h.node_cases place
  · rw [hsame]
  · rw [hfile, hfile']
    rfl

/-- Paths do not lead through files. -/
theorem step_eq : disk.step = disk'.step := by
  funext place name
  unfold step
  obtain hsame | ⟨content, content', hfile, hfile'⟩ := h.node_cases place
  · rw [hsame]
  · rw [hfile, hfile']

theorem follow_eq (path : String) (names : List String) :
    disk.follow path names = disk'.follow path names := by
  unfold follow startPlace
  rw [h.step_eq, h.start]

theorem resolve_eq (path : String) : disk.resolve path = disk'.resolve path :=
  h.follow_eq path _

theorem exists?_eq (path : String) : disk.exists? path = disk'.exists? path := by
  unfold exists?
  rw [h.resolve_eq]
  cases disk'.resolve path with
  | error fault => rfl
  | ok place => exact h.isSome_eq place

theorem slashFault_eq (path : String) : disk.slashFault path = disk'.slashFault path := by
  unfold slashFault
  simp only [h.follow_eq]
  cases disk'.follow path _ with
  | error fault => rfl
  | ok above =>
    obtain hsame | ⟨content, content', hfile, hfile'⟩ := h.node_cases above
    · simp only [hsame]
    · simp only [hfile, hfile']

theorem target_eq (path : String) : disk.target path = disk'.target path := by
  unfold target
  rw [h.slashFault_eq, h.resolve_eq]
  split
  · rfl
  · cases disk'.resolve path with
    | error fault => rfl
    | ok place =>
      obtain hsame | ⟨content, content', hfile, hfile'⟩ := h.node_cases place
      · simp only [hsame]
      · simp only [hfile, hfile', Option.some.injEq, reduceCtorEq]

theorem readText (path : String) : ∃ members, Json.Sound Json.depthLimit (.object members) ∧
    UpToDebug (fun settings => .ok (Store.fileText members settings))
      (disk.readText path) (disk'.readText path) := by
  unfold Disk.readText content
  rw [h.resolve_eq]
  cases disk'.resolve path with
  | error fault => exact ⟨[], Json.sound_empty, .same _⟩
  | ok place =>
    obtain ⟨members, hsound, hnode⟩ := h.node place
    refine ⟨members, hsound, ?_⟩
    simp only
    generalize disk.node? place = node at hnode ⊢
    generalize disk'.node? place = node' at hnode ⊢
    cases hnode with
    | same => exact .same _
    | flags enabled debug debug' => exact .flags enabled debug debug'

theorem put {node node' : Node} (hnode : NodeTwins (some node) (some node')) (place : Place) :
    (disk.put place node).Twins (disk'.put place node') := by
  refine ⟨h.start, fun other => ?_⟩
  rw [node?_of_put, node?_of_put, h.start]
  split
  · exact nodeTwins_same _
  · split
    · exact hnode
    · exact h.node other

theorem remove (place : Place) : (disk.remove place).Twins (disk'.remove place) := by
  refine ⟨h.start, fun other => ?_⟩
  rw [node?_remove, node?_remove, h.start]
  split
  · exact nodeTwins_same _
  · split
    · exact nodeTwins_same _
    · exact h.node other

theorem placeOf_eq (path : String) : disk.placeOf path = disk'.placeOf path := by
  unfold placeOf startPlace
  rw [h.start]

theorem install (path : String) (node : Node) :
    (disk.install path node).Twins (disk'.install path node) := by
  unfold Disk.install
  rw [h.placeOf_eq]
  refine put ?_ (nodeTwins_same _) _
  generalize above (disk'.placeOf path) = places
  induction places generalizing disk disk' with
  | nil => exact h
  | cons place places ih =>
    refine ih ?_
    show Twins (if (disk.node? place).isSome then disk else disk.put place .directory)
      (if (disk'.node? place).isSome then disk' else disk'.put place .directory)
    rw [h.isSome_eq]
    split
    · exact h
    · exact h.put (nodeTwins_same _) place

theorem setAt (path : String) (node : Option Node) :
    (disk.setAt path node).Twins (disk'.setAt path node) := by
  cases node with
  | some node => exact h.install path node
  | none =>
    show (disk.remove _).Twins (disk'.remove _)
    rw [h.placeOf_eq]
    exact h.remove _

end

end Twins

end Disk

/-! ### Stores -/

/-- The same store, up to the debug flag that it keeps in memory. -/
def Store.Twins (store store' : Store) : Prop :=
  UpToDebug (fun settings => .memory (some settings.toJson)) store store'

/-- The same failure, or results that are related. -/
inductive SameOutcome {ε α : Type} (related : α → α → Prop) : Except ε α → Except ε α → Prop
  | error (e : ε) : SameOutcome related (.error e) (.error e)
  | ok {a b : α} : related a b → SameOutcome related (.ok a) (.ok b)

/-- A settings file is read as the members it was written from, or ones like them, and the flags. -/
theorem Store.exists_ofText_fileText {members : Members}
    (h : Json.Sound Json.depthLimit (.object members)) :
    ∃ members' : Members, Json.Sound Json.depthLimit (.object members') ∧ ∀ settings : Settings,
      Json.ofText (fileText members settings) =
        .ok (.object (members'.put moduleName settings.toJson)) := by
  obtain ⟨f, hf⟩ := h.legible
  have hread : ∀ settings, Json.ofText (fileText members settings) =
      .ok (.object
        (Members.put moduleName settings.toJson (Json.membersWithNumbers f members))) := by
    intro settings
    rw [ofText_fileText h hf settings, Json.membersWithNumbers_put]
    -- flags hold no numbers
    rfl
  refine ⟨_, Json.ofText_sound (hread {}), fun settings => ?_⟩
  rw [hread settings, Members.put_put]

namespace Disk.Twins

variable {disk disk' : Disk} (h : disk.Twins disk')
include h

theorem readRoot (path : String) :
    ∃ members : Members, Json.Sound Json.depthLimit (.object members) ∧
    UpToDebug (fun settings => .ok (some (members.put moduleName settings.toJson)))
      (Store.readRoot path disk) (Store.readRoot path disk') := by
  unfold Store.readRoot
  rw [h.exists?_eq]
  split
  · exact ⟨[], Json.sound_empty, .same _⟩
  · obtain ⟨members, hsound, htext⟩ := h.readText path
    obtain ⟨members', hsound', hread⟩ := Store.exists_ofText_fileText hsound
    have hblank : ∀ settings,
        ¬ Text.allBlank (Store.fileText members settings).toList = true :=
      fun settings hblank => Json.ofText_blank hblank _ (hread settings)
    refine ⟨members', hsound', ?_⟩
    generalize disk.readText path = text at htext ⊢
    generalize disk'.readText path = text' at htext ⊢
    cases htext with
    | same => exact .same _
    | flags enabled debug debug' =>
      simp only [if_neg (hblank _), hread]
      exact .flags enabled debug debug'

section
variable {store store' : Store} (hstore : store.Twins store')
include hstore

theorem load : UpToDebug (fun settings => .ok (some settings.toJson))
    (store.load disk) (store'.load disk') := by
  cases hstore with
  | flags enabled debug debug' => exact .flags enabled debug debug'
  | same =>
    cases store with
    | memory value => exact .same _
    | file path =>
      obtain ⟨members, -, hroot⟩ := h.readRoot path
      refine hroot.map (Except.map fun root => root.bind (Members.get? moduleName))
        fun settings => ?_
      exact congrArg Except.ok (Members.get?_put_self _ _ _)

theorem enabled_loadSettings :
    (store.loadSettings disk).1.enabled = (store'.loadSettings disk').1.enabled := by
  have hload := h.load hstore
  unfold Store.loadSettings
  generalize store.load disk = loaded at hload ⊢
  generalize store'.load disk' = loaded' at hload ⊢
  cases hload with
  | same => rfl
  | flags enabled debug debug' => rfl

end

/-- Flags that differ in debugging at most are written into settings files alike. -/
theorem writeText {members : Members} (hsound : Json.Sound Json.depthLimit (.object members))
    (path : String) (enabled debug debug' : Bool) :
    SameOutcome Disk.Twins (disk.writeText path (Store.fileText members ⟨enabled, debug⟩))
      (disk'.writeText path (Store.fileText members ⟨enabled, debug'⟩)) := by
  unfold Disk.writeText
  rw [h.target_eq]
  cases disk'.target path with
  | error fault => exact .error fault
  | ok place => exact .ok (h.put ⟨members, hsound, .flags enabled debug debug'⟩ place)

/-- They are saved alike where the same was read beside the flags. -/
theorem save_file {path : String} {root root' : Option Members}
    (hroot : Store.readRoot path disk = .ok root) (hroot' : Store.readRoot path disk' = .ok root')
    {members : Members} (hsound : Json.Sound Json.depthLimit (.object members))
    (htext : ∀ settings, Store.fileText (root.getD []) settings = Store.fileText members settings)
    (htext' : ∀ settings, Store.fileText (root'.getD []) settings = Store.fileText members settings)
    (enabled debug debug' : Bool) :
    SameOutcome (fun saved saved' => saved.1.Twins saved'.1 ∧ saved.2.Twins saved'.2)
      (Store.save (.file path) ⟨enabled, debug⟩ disk)
      (Store.save (.file path) ⟨enabled, debug'⟩ disk') := by
  have hwrite := h.writeText hsound path enabled debug debug'
  unfold Store.save
  simp only [hroot, hroot', htext, htext']
  generalize disk.writeText path _ = written at hwrite ⊢
  generalize disk'.writeText path _ = written' at hwrite ⊢
  cases hwrite with
  | error fault => exact .error _
  | ok htwins => exact .ok ⟨.same _, htwins⟩

/-- **Flags that differ in debugging at most are saved alike.** -/
theorem save {store store' : Store} (hstore : store.Twins store') (enabled debug debug' : Bool) :
    SameOutcome (fun saved saved' => saved.1.Twins saved'.1 ∧ saved.2.Twins saved'.2)
      (store.save ⟨enabled, debug⟩ disk) (store'.save ⟨enabled, debug'⟩ disk') := by
  cases hstore with
  | flags => exact .ok ⟨.flags enabled debug debug', h⟩
  | same =>
    cases store with
    | memory value => exact .ok ⟨.flags enabled debug debug', h⟩
    | file path =>
      obtain ⟨members, hsound, htwins⟩ := h.readRoot path
      -- flags that were read are written over, so what they were makes no difference
      generalize hroot : Store.readRoot path disk = read at htwins
      generalize hroot' : Store.readRoot path disk' = read' at htwins
      cases htwins with
      | flags =>
        exact h.save_file hroot hroot' hsound (fun _ => Store.fileText_put ..)
          (fun _ => Store.fileText_put ..) enabled debug debug'
      | same =>
        cases read with
        | ok root =>
          exact h.save_file hroot hroot' (Store.sound_of_readRoot hroot) (fun _ => rfl)
            (fun _ => rfl) enabled debug debug'
        | error failure =>
          unfold Store.save
          simp only [hroot, hroot']
          exact .error failure

end Disk.Twins

/-! ### Steps -/

/-- The same, up to debugging: what is told apart is the debug flag, and where it is kept. -/
structure Storage.Twins (k k' : Storage) : Prop where
  enabled : k.settings.enabled = k'.settings.enabled
  store : k.store.Twins k'.store
  disk : k.disk.Twins k'.disk

/-- The same action, or the same about the log: another sink, another choice about debugging. -/
inductive Action.Twins : Action → Action → Prop
  | same (action : Action) : Twins action action
  | logTo (sink sink' : Sink) : Twins (.logTo sink) (.logTo sink')
  | setDebug (debug debug' : Bool) : Twins (.setDebug debug) (.setDebug debug')

namespace Storage.Twins

variable {k k' : Storage} (h : k.Twins k')
include h

theorem load : k.load.Twins k'.load where
  enabled := h.disk.enabled_loadSettings h.store
  store := h.store
  disk := h.disk

theorem change {settings settings' : Settings} (hsettings : settings.enabled = settings'.enabled) :
    (k.change settings).Twins (k'.change settings') := by
  obtain ⟨enabled, debug⟩ := settings
  obtain ⟨_, debug'⟩ := settings'
  obtain rfl := hsettings
  have hsave := h.disk.save h.store enabled debug debug'
  unfold Storage.change
  generalize k.store.save _ k.disk = saved at hsave ⊢
  generalize k'.store.save _ k'.disk = saved' at hsave ⊢
  cases hsave with
  | error failure => exact ⟨rfl, h.store, h.disk⟩
  | ok htwins => exact ⟨rfl, htwins.1, htwins.2⟩

/-- **Storages that are alike up to debugging stay so.** -/
theorem step {action action' : Action} (haction : action.Twins action') :
    (k.step action).Twins (k'.step action') := by
  cases haction with
  | logTo sink sink' => exact h
  | setDebug debug debug' => exact h.change h.enabled
  | same =>
    cases action with
    | startup | loadSettings => exact h.load
    | setEnabled enabled => exact h.change rfl
    | setDebug debug => exact h.change h.enabled
    | useStore store => exact ⟨h.enabled, .same store, h.disk⟩
    | setFile path node => exact ⟨h.enabled, h.store, h.disk.setAt path node⟩
    | _ => exact h

end Storage.Twins

end PipeGuard
