import ToolChanger.Proofs.Store.Folder
import ToolChanger.Proofs.Store.Place

namespace ToolChanger.Disk

open ToolChanger.Path (Descends Downward)

variable {disk : Disk} {place names : List String} {directory name : String}

/-! ### Making directories -/

/-- Nothing but directories has been added, and only at places of some length. -/
def Grown (limit : Nat) (disk next : Disk) : Prop :=
  ∀ place, next.node? place = disk.node? place ∨
    place.length ≤ limit ∧ disk.node? place = none ∧ next.node? place = some .directory

theorem Grown.isFile {limit : Nat} {next : Disk} (grown : Grown limit disk next) (place : List String) :
    next.isFile place = disk.isFile place := by
  rw [Disk.isFile, Disk.isFile]
  rcases grown place with same | ⟨-, absent, made⟩
  · rw [same]
  · rw [absent, made]

theorem Grown.trans {limit : Nat} {next last : Disk} (first : Grown limit disk next)
    (second : Grown limit next last) : Grown limit disk last := by
  intro place
  rcases second place with same | ⟨short, absent, made⟩
  · rw [same]
    exact first place
  · rcases first place with same | ⟨-, -, there⟩
    · exact .inr ⟨short, same ▸ absent, made⟩
    · rw [there] at absent
      cases absent

theorem Grown.refl (limit : Nat) (disk : Disk) : Grown limit disk disk := fun _ => .inl rfl

theorem Grown.put {limit : Nat} (absent : disk.node? place = none) (short : place.length ≤ limit) :
    Grown limit disk (disk.put place .directory) := by
  intro other
  rw [node?_put (by rw [absent]; exact (Option.some_ne_none _).symm)]
  split
  · rename_i same
    rw [same]
    exact .inr ⟨short, absent, rfl⟩
  · exact .inl rfl

theorem makeDirectories_grown {limit : Nat} (sound : disk.Sound) (descend : Downward names)
    (inside : disk.node? place = some .directory) (short : place.length + names.length ≤ limit) :
    (disk.makeDirectories place names).2.Sound ∧ Grown limit disk (disk.makeDirectories place names).2 := by
  induction names generalizing disk place with
  | nil => exact ⟨sound, .refl limit disk⟩
  | cons name rest ih =>
    obtain ⟨⟨down, -⟩, descendRest⟩ := List.forall_mem_cons.mp descend
    have shortNext : (place ++ [name]).length + rest.length ≤ limit := by
      simp only [List.length_cons, List.length_append, List.length_nil] at short ⊢
      omega
    rw [makeDirectories, follow, if_neg down]
    split
    · rename_i next
      exact ih sound descendRest next shortNext
    · exact ⟨sound, .refl limit disk⟩
    · rename_i absent
      split
      · -- the directory is made, and the others within it
        have free : disk.node? (place ++ [name]) ≠ some .directory := by
          rw [absent]
          exact (Option.some_ne_none _).symm
        have made : (disk.put (place ++ [name]) .directory).node? (place ++ [name]) = some .directory := by
          rw [node?_put free, if_pos rfl]
        have put : Grown limit disk (disk.put (place ++ [name]) .directory) :=
          .put absent (Nat.le_of_add_right_le shortNext)
        obtain ⟨soundRest, grown⟩ := ih (sound.put inside free) descendRest made shortNext
        exact ⟨soundRest, put.trans grown⟩
      · exact ⟨sound, .refl limit disk⟩

theorem node?_start (disk : Disk) (path : String) : disk.node? (start path) = some .directory := by
  unfold start
  split <;> rfl

theorem createDirectories_grown (sound : disk.Sound) (descend : Downward (Path.parts directory)) :
    (disk.createDirectories directory).2.Sound ∧
      Grown (placeOf directory).length disk (disk.createDirectories directory).2 := by
  unfold createDirectories
  split
  · exact ⟨sound, .refl _ disk⟩
  split
  · refine makeDirectories_grown sound (fun part listed => descend part (List.dropLast_subset _ listed))
      (node?_start disk directory) ?_
    rw [placeOf, List.length_append, List.length_dropLast]
    omega
  · exact makeDirectories_grown sound descend (node?_start disk directory)
      (Nat.le_of_eq List.length_append.symm)

theorem read_createDirectories (sound : disk.Sound) (descend : Downward (Path.parts directory))
    (descends : Descends name) :
    (disk.createDirectories directory).2.read (Path.join directory name) = disk.read (Path.join directory name) := by
  obtain ⟨soundMade, grown⟩ := createDirectories_grown sound descend
  refine read_congr sound soundMade descend descends ?_ fun part _ => grown.isFile part
  -- what has been made lies too high up to be the file
  rcases grown (placeOf directory ++ [name]) with same | ⟨short, -⟩
  · exact same
  · rw [List.length_append, List.length_singleton] at short
    omega

/-! ### Writing, renaming and removing files -/

variable {bytes : ByteArray}

theorem of_locate_join (descend : Downward (Path.parts directory)) (descends : Descends name)
    (locates : disk.locate (Path.join directory name) = .ok place) :
    Path.isPath (Path.join directory name) = true ∧ place = placeOf directory ++ [name] ∧
      disk.node? (placeOf directory) = some .directory := by
  rw [locate_join descends] at locates
  split at locates
  · rename_i path
    exact ⟨path, of_walk_concat (downward_concat descend descends) locates⟩
  · cases locates

theorem eq_ok_of_toOption {ε α : Type} {result : Except ε α} {value : α} (given : result.toOption = some value) :
    result = .ok value := by
  cases result with
  | error error => cases given
  | ok found => exact congrArg Except.ok (Option.some.inj given)

theorem walk_put {here parts : List String} (free : disk.node? place ≠ some .directory) (node : Node)
    (walks : disk.walk here parts = .ok place) : (disk.put place node).walk here parts = .ok place := by
  induction parts generalizing here with
  | nil => exact walks
  | cons part rest ih =>
    rw [walk] at walks ⊢
    split at walks
    · rename_i inside
      have elsewhere : here ≠ place := fun same => free (same ▸ inside)
      rw [node?_put free, if_neg elsewhere, inside]
      split at walks
      · rename_i named
        rw [if_pos named]
        exact ih walks
      · cases walks
    · cases walks
    · cases walks

theorem read_of_write {path : String} {next : Disk} (writes : disk.write path bytes = some next) :
    next.read path = .ok bytes := by
  unfold write at writes
  obtain ⟨place, locates, writes⟩ := Option.bind_eq_some_iff.mp writes
  have located := eq_ok_of_toOption locates
  split at writes
  · cases writes
  rename_i free
  split at writes
  · cases writes
  rename_i unhindered
  obtain rfl := Option.some.inj writes
  have file : Path.namesDirectory path = false :=
    (Bool.or_eq_false_iff.mp (Bool.eq_false_iff.mpr unhindered)).1
  rw [locate_of_file file] at located
  split at located
  · rename_i valid
    rw [read_eq, locate_of_file file, if_pos valid, walk_put free _ located, Except.bind, fetch, node?_put free,
      if_pos rfl]
  · cases located

/-- A directory with a file that can be changed. -/
structure Changeable (disk : Disk) (directory name : String) : Prop where
  path : Path.isPath (Path.join directory name) = true
  inside : disk.node? (placeOf directory) = some .directory
  free : disk.node? (placeOf directory ++ [name]) ≠ some .directory

theorem of_write_join {next : Disk} (descend : Downward (Path.parts directory)) (descends : Descends name)
    (writes : disk.write (Path.join directory name) bytes = some next) :
    disk.Changeable directory name ∧ next = disk.put (placeOf directory ++ [name]) (.file bytes) := by
  unfold write at writes
  obtain ⟨reached, locates, writes⟩ := Option.bind_eq_some_iff.mp writes
  obtain ⟨path, rfl, inside⟩ := of_locate_join descend descends (eq_ok_of_toOption locates)
  split at writes
  · cases writes
  · rename_i free
    split at writes
    · cases writes
    · exact ⟨⟨path, inside, free⟩, (Option.some.inj writes).symm⟩

namespace Changeable

variable (sound : disk.Sound) (changeable : disk.Changeable directory name)
include sound changeable

theorem sound_put (node : Node) : (disk.put (placeOf directory ++ [name]) node).Sound :=
  sound.put changeable.inside changeable.free

theorem read_put (descend : Downward (Path.parts directory)) (descends : Descends name) :
    (disk.put (placeOf directory ++ [name]) (.file bytes)).read (Path.join directory name) = .ok bytes := by
  rw [read_join (changeable.sound_put sound _) descend descends changeable.path, node?_put changeable.free,
    if_pos rfl]

theorem read_put_of_ne {other : String} (descend : Downward (Path.parts directory)) (descends : Descends other)
    (different : other ≠ name) (node : Node) :
    (disk.put (placeOf directory ++ [name]) node).read (Path.join directory other) =
      disk.read (Path.join directory other) :=
  read_of_elsewhere sound (changeable.sound_put sound node) descend descends different fun part elsewhere => by
    rw [node?_put changeable.free, if_neg elsewhere]

end Changeable

theorem read_drop_of_ne {other : String} (sound : disk.Sound) (descend : Downward (Path.parts directory))
    (descends : Descends other) (different : other ≠ name)
    (free : disk.node? (placeOf directory ++ [name]) ≠ some .directory) :
    (disk.drop (placeOf directory ++ [name])).read (Path.join directory other) =
      disk.read (Path.join directory other) :=
  read_of_elsewhere sound (sound.drop free) descend descends different fun part elsewhere => by
    rw [node?_drop free, if_neg elsewhere]

theorem of_rename_join {target : String} {next : Disk} (descend : Downward (Path.parts directory))
    (descends : Descends name) (descendsTarget : Descends target)
    (renames : disk.rename (Path.join directory name) (Path.join directory target) = some next) :
    ∃ bytes, disk.read (Path.join directory name) = .ok bytes ∧
      disk.node? (placeOf directory ++ [name]) ≠ some .directory ∧
      (disk.drop (placeOf directory ++ [name])).Changeable directory target ∧
      next = (disk.drop (placeOf directory ++ [name])).put (placeOf directory ++ [target]) (.file bytes) := by
  unfold rename at renames
  obtain ⟨reached, locates, renames⟩ := Option.bind_eq_some_iff.mp renames
  obtain ⟨bytes, reads, writes⟩ := Option.bind_eq_some_iff.mp renames
  have located := eq_ok_of_toOption locates
  have read := eq_ok_of_toOption reads
  obtain ⟨-, rfl, -⟩ := of_locate_join descend descends located
  refine ⟨bytes, read, ?_, of_write_join descend descendsTarget writes⟩
  intro there
  rw [read_eq, located, Except.bind, fetch, there] at read
  cases read

/-! ### Documents -/

theorem descends_file (document : Document) : Descends document.file := by
  cases document <;> constructor <;> decide

theorem descends_draft (document : Document) : Descends (Folder.draft document) := by
  cases document <;> constructor <;> decide

theorem file_ne_draft (document other : Document) : document.file ≠ Folder.draft other := by
  cases document <;> cases other <;> decide

theorem file_ne_file {document other : Document} (different : document ≠ other) : document.file ≠ other.file := by
  cases document <;> cases other <;> first | exact absurd rfl different | decide

theorem of_change {attempt : Disk → Option Disk} {done : Bool} {next : Disk}
    (ran : (change attempt).run disk = (done, next)) :
    if done then attempt disk = some next else next = disk := by
  have looks : (get : StateM Disk Disk).run disk = (disk, disk) := rfl
  rw [change, run_bind looks] at ran
  cases attempted : attempt disk with
  | some changed =>
    rw [attempted] at ran
    obtain ⟨rfl, rfl⟩ := Prod.mk.inj ran
    rfl
  | none =>
    rw [attempted] at ran
    obtain ⟨rfl, rfl⟩ := Prod.mk.inj ran
    rfl

variable {folder : Folder} {contents : Contents}

theorem holds_of_read {next : Disk} (holds : folder.Holds Sound contents disk) (sound : next.Sound)
    (same : ∀ document, next.read (folder.documentPath document) = disk.read (folder.documentPath document)) :
    folder.Holds Sound contents next :=
  ⟨sound, (funext same).trans holds.same⟩

theorem holds_renamed (descend : Downward (Path.parts folder.path)) (document : Document) {next : Disk}
    (holds : folder.Holds Sound contents disk)
    (renames : disk.rename (folder.draftPath document) (folder.documentPath document) = some next) :
    folder.Holds Sound (Function.update contents document (folder.drafted disk document)) next := by
  obtain ⟨bytes, drafted, free, changeable, rfl⟩ :=
    of_rename_join descend (descends_draft document) (descends_file document) renames
  have sound := holds.sound.drop free
  refine ⟨changeable.sound_put sound _, funext fun other => ?_⟩
  by_cases same : other = document
  · subst same
    rw [Function.update_self]
    exact (changeable.read_put sound descend (descends_file other)).trans drafted.symm
  · rw [Function.update_of_ne same, ← holds.same]
    exact (changeable.read_put_of_ne sound descend (descends_file other) (file_ne_file same) _).trans
      (read_drop_of_ne holds.sound descend (descends_file other) (file_ne_draft other document) free)

theorem holds_removed (descend : Downward (Path.parts folder.path)) (document : Document)
    (holds : folder.Holds Sound contents disk) :
    folder.Holds Sound contents (disk.remove (folder.draftPath document)) := by
  unfold remove
  split
  · rename_i place locates
    obtain ⟨-, rfl, -⟩ := of_locate_join descend (descends_draft document) locates
    split
    · rename_i file
      have free : disk.node? (placeOf folder.path ++ [Folder.draft document]) ≠ some .directory := by
        intro there
        rw [isFile, there] at file
        cases file
      exact holds_of_read holds (holds.sound.drop free) fun other =>
        read_drop_of_ne holds.sound descend (descends_file other) (file_ne_draft other document) free
    · exact holds
  · exact holds

/-- A disk is lawful for every folder that its path leads down to. -/
theorem lawful (descend : Downward (Path.parts folder.path)) : folder.Lawful Sound where
  read document contents := fun disk holds => holds
  createDirectories contents := fun disk holds =>
    holds_of_read holds (createDirectories_grown holds.sound descend).1 fun document =>
      read_createDirectories holds.sound descend (descends_file document)
  write document bytes contents := by
    intro disk holds
    rcases writes : (FileSystem.write (folder.draftPath document) bytes : StateM Disk _).run disk
      with ⟨done, next⟩
    cases done with
    | false => exact (of_change writes : next = disk) ▸ holds
    | true =>
      obtain ⟨changeable, rfl⟩ := of_write_join descend (descends_draft document) (of_change writes)
      exact holds_of_read holds (changeable.sound_put holds.sound _) fun other =>
        changeable.read_put_of_ne holds.sound descend (descends_file other) (file_ne_draft other document) _
  written document bytes disk after sound writes := by
    obtain ⟨changeable, rfl⟩ := of_write_join descend (descends_draft document) (of_change writes)
    exact changeable.read_put sound descend (descends_draft document)
  unrenamed document contents disk after holds renames := (of_change renames : after = disk) ▸ holds
  renamed document contents disk after holds renames := holds_renamed descend document holds (of_change renames)
  remove document contents := fun disk holds => holds_removed descend document holds

end ToolChanger.Disk
