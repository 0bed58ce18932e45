import Mathlib.Tactic.ByContra
import ToolChanger.Proofs.Store.Path
import ToolChanger.Store.FileSystem

namespace ToolChanger

/-- Names that all lead down. -/
def Path.Downward (names : List String) : Prop := ∀ name ∈ names, name ≠ ".." ∧ isName name = true

namespace Disk

open ToolChanger.Path (Descends Downward)

/-- Whatever there is lies in a directory. -/
def Sound (disk : Disk) : Prop :=
  ∀ place name, disk.node? (place ++ [name]) ≠ none → disk.node? place = some .directory

variable {disk : Disk} {place other : List String} {node : Node}

/-! ### Changes at a place -/

theorem lookup_cons (place other : List String) (node : Node) (nodes : List (List String × Node)) :
    ((place, node) :: nodes).lookup other = if other = place then some node else nodes.lookup other := by
  rw [List.lookup_cons]
  split
  · rename_i same
    rw [if_pos (beq_iff_eq.mp same)]
  · rename_i different
    rw [if_neg (beq_eq_false_iff_ne.mp different)]

theorem lookup_filter (place other : List String) (nodes : List (List String × Node)) :
    (nodes.filter (·.1 ≠ place)).lookup other = if other = place then none else nodes.lookup other := by
  induction nodes with
  | nil => rw [List.filter_nil, List.lookup_nil, ite_self]
  | cons entry rest ih =>
    obtain ⟨named, node⟩ := entry
    by_cases same : named = place
    · rw [List.filter_cons_of_neg (by simpa using same), ih, lookup_cons, same]
      split <;> rfl
    · rw [List.filter_cons_of_pos (by simpa using same), lookup_cons, lookup_cons, ih]
      split
      · rename_i asked
        rw [if_neg (asked ▸ same)]
      · rfl

theorem node?_of_free (free : disk.node? place ≠ some .directory) (other : Disk) :
    other.node? place = other.nodes.lookup place := by
  unfold node? at free ⊢
  split at free
  · exact absurd rfl free
  · rename_i below
    rw [if_neg below]

theorem node?_drop (free : disk.node? place ≠ some .directory) (other : List String) :
    (disk.drop place).node? other = if other = place then none else disk.node? other := by
  by_cases same : other = place
  · subst same
    rw [if_pos rfl, node?_of_free free, drop, lookup_filter, if_pos rfl]
  · rw [if_neg same, node?, drop, lookup_filter, if_neg same, node?]

theorem node?_put (free : disk.node? place ≠ some .directory) (other : List String) :
    (disk.put place node).node? other = if other = place then some node else disk.node? other := by
  by_cases same : other = place
  · subst same
    rw [if_pos rfl, node?_of_free free, put, List.lookup_append, lookup_filter, if_pos rfl]
    simp
  · rw [if_neg same, node?, put, List.lookup_append, lookup_filter, if_neg same, node?]
    simp [beq_eq_false_iff_ne.mpr same, List.lookup_cons]

theorem Sound.drop (sound : disk.Sound) (free : disk.node? place ≠ some .directory) : (disk.drop place).Sound := by
  intro directory name present
  rw [node?_drop free] at present ⊢
  split at present
  · exact absurd rfl present
  · have inside := sound directory name present
    rw [if_neg, inside]
    rintro rfl
    exact free inside

theorem Sound.put {name : String} (sound : disk.Sound) (inside : disk.node? place = some .directory)
    (free : disk.node? (place ++ [name]) ≠ some .directory) : (disk.put (place ++ [name]) node).Sound := by
  intro directory entry present
  rw [node?_put free] at present ⊢
  have holder : disk.node? directory = some .directory := by
    split at present
    · rename_i same
      rwa [(List.append_inj' same rfl).1]
    · exact sound directory entry present
  rw [if_neg, holder]
  rintro rfl
  exact free holder

theorem sound_empty : ({} : Disk).Sound := by
  intro place name present
  unfold node? at present ⊢
  split at present
  · rename_i root
    rw [if_pos]
    rcases Bool.or_eq_true_iff.mp root with top | above
    · have same : place ++ [name] = [] ++ ["/"] := beq_iff_eq.mp top
      rw [(List.append_inj' same rfl).1]
      rfl
    · rw [List.all_append, Bool.and_eq_true_iff] at above
      rw [above.1, Bool.or_true]
  · exact absurd rfl present

/-! ### Following names -/

def fetch (disk : Disk) (place : List String) : Except ReadFailure ByteArray :=
  match disk.node? place with
  | some (.file bytes) => .ok bytes
  | some .directory => .error .refused
  | none => .error .missing

theorem read_eq (disk : Disk) (path : String) : disk.read path = (disk.locate path).bind disk.fetch := rfl

/-- Whether a file stands where names lead through or to. -/
def blocked (disk : Disk) (place : List String) : List String → Bool
  | [] => disk.isFile place
  | name :: rest => disk.isFile place || disk.blocked (place ++ [name]) rest

theorem Sound.directory_of_present (sound : disk.Sound) {name : String} {rest : List String}
    (present : disk.node? (place ++ name :: rest) ≠ none) : disk.node? place = some .directory := by
  induction rest generalizing place name with
  | nil => exact sound place name present
  | cons next rest ih =>
    have deeper : disk.node? (place ++ [name] ++ next :: rest) ≠ none := by rwa [List.append_assoc]
    have inside := ih deeper
    exact sound place name (by rw [inside]; exact Option.some_ne_none _)

theorem Sound.blocked_of_absent (sound : disk.Sound) {names : List String} (absent : disk.node? place = none) :
    disk.blocked place names = false := by
  have file : disk.isFile place = false := by rw [isFile, absent]
  induction names generalizing place with
  | nil => exact file
  | cons name rest ih =>
    have below : disk.node? (place ++ [name]) = none := by
      by_contra present
      rw [sound place name present] at absent
      cases absent
    rw [blocked, file, Bool.false_or]
    exact ih below (by rw [isFile, below])

variable {names : List String}

theorem walk_of_present (sound : disk.Sound) (descend : Downward names)
    (present : disk.node? (place ++ names) ≠ none) : disk.walk place names = .ok (place ++ names) := by
  induction names generalizing place with
  | nil => rw [walk, List.append_nil]
  | cons name rest ih =>
    obtain ⟨⟨down, short⟩, descendRest⟩ := List.forall_mem_cons.mp descend
    rw [walk, sound.directory_of_present present]
    dsimp only
    rw [if_pos short, follow, if_neg down, ih descendRest, List.append_assoc]
    · rfl
    · rwa [List.append_assoc]

theorem walk_of_absent (sound : disk.Sound) (descend : Downward names)
    (absent : disk.node? (place ++ names) = none) :
    (disk.walk place names).bind disk.fetch =
      .error (if disk.blocked place names then .refused else .missing) := by
  induction names generalizing place with
  | nil =>
    rw [List.append_nil] at absent
    rw [walk, Except.bind, fetch, blocked, isFile, absent]
    rfl
  | cons name rest ih =>
    obtain ⟨⟨down, short⟩, descendRest⟩ := List.forall_mem_cons.mp descend
    rw [walk]
    cases here : disk.node? place with
    | none =>
      -- nothing is below what is missing, so no file can be in the way further down
      rw [sound.blocked_of_absent here]
      rfl
    | some node =>
      cases node with
      | file bytes =>
        rw [blocked, isFile, here]
        rfl
      | directory =>
        dsimp only
        rw [if_pos short, follow, if_neg down, ih descendRest, blocked, isFile, here]
        · rfl
        · rwa [List.append_assoc]

theorem of_walk_concat {name : String} {reached : List String} (descend : Downward (names ++ [name]))
    (walks : disk.walk place (names ++ [name]) = .ok reached) :
    reached = place ++ names ++ [name] ∧ disk.node? (place ++ names) = some .directory := by
  induction names generalizing place with
  | nil =>
    obtain ⟨⟨down, short⟩, -⟩ := List.forall_mem_cons.mp descend
    rw [List.nil_append, walk] at walks
    split at walks
    · rename_i inside
      rw [if_pos short, follow, if_neg down] at walks
      rw [List.append_nil]
      exact ⟨(Except.ok.inj walks).symm, inside⟩
    · cases walks
    · cases walks
  | cons first rest ih =>
    obtain ⟨⟨down, short⟩, descendRest⟩ := List.forall_mem_cons.mp descend
    rw [List.cons_append, walk] at walks
    split at walks
    · rw [if_pos short, follow, if_neg down] at walks
      have reaches := ih descendRest walks
      rwa [List.append_assoc place] at reaches
    · cases walks
    · cases walks

theorem blocked_congr {next : Disk}
    (same : ∀ part, part <+: place ++ names → next.isFile part = disk.isFile part) :
    next.blocked place names = disk.blocked place names := by
  have here : next.isFile place = disk.isFile place := same place (List.prefix_append _ _)
  induction names generalizing place with
  | nil => exact here
  | cons name rest ih =>
    have deeper (part : List String) (listed : part <+: place ++ [name] ++ rest) :
        next.isFile part = disk.isFile part := by
      rw [List.append_assoc] at listed
      exact same part listed
    rw [blocked, blocked, here, ih deeper (deeper _ (List.prefix_append _ _))]

/-! ### Files in a directory -/

/-- The place that a path leads to if all its parts lead down. -/
def placeOf (path : String) : List String := start path ++ Path.parts path

variable {directory name : String}

theorem locate_of_file {path : String} (file : Path.namesDirectory path = false) : disk.locate path =
    if Path.isPath path then disk.walk (start path) (Path.parts path) else .error .refused := by
  unfold locate
  rw [file]
  cases Path.isPath path with
  | false => rfl
  | true =>
    change (disk.walk (start path) (Path.parts path)).bind Except.ok = _
    cases disk.walk (start path) (Path.parts path) <;> rfl

theorem locate_join (descends : Descends name) : disk.locate (Path.join directory name) =
    if Path.isPath (Path.join directory name) then disk.walk (start directory) (Path.parts directory ++ [name])
    else .error .refused := by
  rw [locate_of_file (descends.namesDirectory_join directory), descends.parts_join, start, start,
    descends.isAbsolute_join]

theorem downward_concat (descend : Downward (Path.parts directory)) (descends : Descends name) :
    Downward (Path.parts directory ++ [name]) :=
  List.forall_mem_append.mpr ⟨descend, List.forall_mem_singleton.mpr ⟨descends.down, descends.short⟩⟩

theorem read_join (sound : disk.Sound) (descend : Downward (Path.parts directory)) (descends : Descends name)
    (path : Path.isPath (Path.join directory name) = true) : disk.read (Path.join directory name) =
    match disk.node? (placeOf directory ++ [name]) with
    | some (.file bytes) => .ok bytes
    | some .directory => .error .refused
    | none => .error
      (if disk.blocked (start directory) (Path.parts directory ++ [name]) then .refused else .missing) := by
  have down := downward_concat descend descends
  rw [read_eq, locate_join descends, if_pos path]
  cases found : disk.node? (placeOf directory ++ [name]) with
  | none =>
    rw [placeOf, List.append_assoc] at found
    exact walk_of_absent sound down found
  | some node =>
    have present := found
    rw [placeOf, List.append_assoc] at present
    rw [walk_of_present sound down (by rw [present]; exact Option.some_ne_none _), Except.bind, fetch, present]
    cases node <;> rfl

theorem read_congr {next : Disk} (sound : disk.Sound) (soundNext : next.Sound)
    (descend : Downward (Path.parts directory)) (descends : Descends name)
    (same : next.node? (placeOf directory ++ [name]) = disk.node? (placeOf directory ++ [name]))
    (files : ∀ part, part <+: placeOf directory ++ [name] → next.isFile part = disk.isFile part) :
    next.read (Path.join directory name) = disk.read (Path.join directory name) := by
  cases path : Path.isPath (Path.join directory name) with
  | false => rw [read_eq, read_eq, locate_join descends, locate_join descends, path]; rfl
  | true =>
    have unblocked := blocked_congr (List.append_assoc _ _ _ ▸ files)
    rw [read_join sound descend descends path, read_join soundNext descend descends path, same, unblocked]

theorem read_of_elsewhere {next : Disk} {changed : String} (sound : disk.Sound) (soundNext : next.Sound)
    (descend : Downward (Path.parts directory)) (descends : Descends name) (different : name ≠ changed)
    (elsewhere : ∀ part, part ≠ placeOf directory ++ [changed] → next.node? part = disk.node? part) :
    next.read (Path.join directory name) = disk.read (Path.join directory name) := by
  have apart (part : List String) (listed : part <+: placeOf directory ++ [name]) :
      next.node? part = disk.node? part := by
    refine elsewhere part fun same => different ?_
    rw [same, List.prefix_append_right_inj] at listed
    exact (List.cons.inj (listed.eq_of_length rfl)).1.symm
  refine read_congr sound soundNext descend descends (apart _ List.prefix_rfl) fun part listed => ?_
  rw [isFile, apart part listed, isFile]

end Disk

end ToolChanger
