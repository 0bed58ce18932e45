import ToolChanger.Tool.Number

namespace ToolChanger

/-- Entries in ascending order of tool number, one for a tool at most. -/
structure Table (α : Type) where
  entries : List (ToolId × α)
  sorted : entries.Pairwise fun a b => a.1 < b.1
  deriving DecidableEq

namespace Table

variable {α : Type}

def empty : Table α := ⟨[], .nil⟩

instance : Inhabited (Table α) := ⟨empty⟩

/-! ### Entries in order -/

def find (id : ToolId) : List (ToolId × α) → Option α
  | [] => none
  | (other, value) :: rest => if id = other then some value else find id rest

def place (id : ToolId) (value : α) : List (ToolId × α) → List (ToolId × α)
  | [] => [(id, value)]
  | (other, old) :: rest =>
    if id < other then (id, value) :: (other, old) :: rest
    else if id = other then (id, value) :: rest
    else (other, old) :: place id value rest

theorem mem_place {id : ToolId} {value : α} {entries : List (ToolId × α)} {entry : ToolId × α}
    (member : entry ∈ place id value entries) : entry = (id, value) ∨ entry ∈ entries := by
  induction entries with
  | nil => simpa [place] using member
  | cons head rest ih =>
    obtain ⟨other, old⟩ := head
    simp only [place] at member
    split at member
    · simpa using member
    · split at member
      · rcases List.mem_cons.mp member with same | inside
        · exact .inl same
        · exact .inr (List.mem_cons_of_mem _ inside)
      · rcases List.mem_cons.mp member with same | inside
        · exact .inr (same ▸ List.mem_cons_self)
        · exact (ih inside).imp_right (List.mem_cons_of_mem _)

theorem sorted_place (id : ToolId) (value : α) {entries : List (ToolId × α)}
    (sorted : entries.Pairwise fun a b => a.1 < b.1) :
    (place id value entries).Pairwise fun a b => a.1 < b.1 := by
  induction entries with
  | nil => simp [place]
  | cons head rest ih =>
    obtain ⟨other, old⟩ := head
    have above := (List.pairwise_cons.mp sorted).1
    have tail := (List.pairwise_cons.mp sorted).2
    simp only [place]
    split
    · rename_i less
      refine List.pairwise_cons.mpr ⟨fun entry member => ?_, sorted⟩
      rcases List.mem_cons.mp member with rfl | inside
      · exact less
      · exact UInt32.lt_trans less (above entry inside)
    · split
      · rename_i same
        subst same
        exact List.pairwise_cons.mpr ⟨above, tail⟩
      · rename_i notLess different
        refine List.pairwise_cons.mpr ⟨fun entry member => ?_, ih tail⟩
        rcases mem_place member with rfl | inside
        · exact UInt32.lt_of_le_of_ne (UInt32.not_lt.mp notLess) fun same => different same.symm
        · exact above entry inside

theorem find_eq_some_iff {id : ToolId} {value : α} {entries : List (ToolId × α)}
    (sorted : entries.Pairwise fun a b => a.1 < b.1) :
    find id entries = some value ↔ (id, value) ∈ entries := by
  induction entries with
  | nil => simp [find]
  | cons head rest ih =>
    obtain ⟨other, old⟩ := head
    have above := (List.pairwise_cons.mp sorted).1
    have tail := (List.pairwise_cons.mp sorted).2
    simp only [find, List.mem_cons, Prod.mk.injEq]
    split
    · rename_i same
      subst same
      constructor
      · intro found
        exact .inl ⟨rfl, (Option.some.inj found).symm⟩
      · rintro (⟨-, rfl⟩ | inside)
        · rfl
        · exact absurd (above _ inside) (UInt32.lt_irrefl _)
    · rename_i different
      rw [ih tail]
      simp [different]

/-! ### Operations -/

def get? (table : Table α) (id : ToolId) : Option α := find id table.entries

def contains (table : Table α) (id : ToolId) : Bool := (table.get? id).isSome

def insert (table : Table α) (id : ToolId) (value : α) : Table α :=
  ⟨place id value table.entries, sorted_place id value table.sorted⟩

def erase (table : Table α) (id : ToolId) : Table α :=
  ⟨table.entries.filter (·.1 ≠ id), table.sorted.filter _⟩

def filter (table : Table α) (keep : ToolId → α → Bool) : Table α :=
  ⟨table.entries.filter fun entry => keep entry.1 entry.2, table.sorted.filter _⟩

/-- Later pairs overwrite earlier ones. -/
def ofList (pairs : List (ToolId × α)) : Table α :=
  pairs.foldl (fun table pair => table.insert pair.1 pair.2) empty

def size (table : Table α) : Nat := table.entries.length

def isEmpty (table : Table α) : Bool := table.entries.isEmpty

def ids (table : Table α) : List ToolId := table.entries.map (·.1)

/-- The table with the entries of another one on top. -/
def overlay (table other : Table α) : Table α :=
  other.entries.foldl (fun table entry => table.insert entry.1 entry.2) table

/-! ### Look-ups -/

theorem get?_eq_some_iff {table : Table α} {id : ToolId} {value : α} :
    table.get? id = some value ↔ (id, value) ∈ table.entries :=
  find_eq_some_iff table.sorted

@[simp] theorem get?_empty (id : ToolId) : (empty : Table α).get? id = none := rfl

theorem find_place (id other : ToolId) (value : α) (entries : List (ToolId × α)) :
    find other (place id value entries) = if other = id then some value else find other entries := by
  induction entries with
  | nil => rfl
  | cons head rest ih =>
    obtain ⟨key, old⟩ := head
    simp only [place]
    split
    · simp only [find]
    · split
      · rename_i same
        subst same
        simp only [find]
        split <;> rfl
      · rename_i different
        simp only [find, ih]
        by_cases same : other = id
        · subst same
          simp [different]
        · simp [same]

@[simp] theorem get?_insert (table : Table α) (id other : ToolId) (value : α) :
    (table.insert id value).get? other = if other = id then some value else table.get? other :=
  find_place id other value table.entries

@[simp] theorem get?_erase (table : Table α) (id other : ToolId) :
    (table.erase id).get? other = if other = id then none else table.get? other := by
  have lookup (value : α) : (table.erase id).get? other = some value ↔
      (if other = id then none else table.get? other) = some value := by
    rw [get?_eq_some_iff, erase, List.mem_filter, ← get?_eq_some_iff]
    split <;> simp_all
  exact Option.ext lookup

@[simp] theorem get?_filter (table : Table α) (keep : ToolId → α → Bool) (id : ToolId) :
    (table.filter keep).get? id = (table.get? id).filter (keep id) := by
  have lookup (value : α) : (table.filter keep).get? id = some value ↔
      (table.get? id).filter (keep id) = some value := by
    rw [get?_eq_some_iff, filter, List.mem_filter, ← get?_eq_some_iff, Option.filter_eq_some_iff]
  exact Option.ext lookup

theorem get?_foldl_insert (entries : List (ToolId × α)) (table : Table α) (id : ToolId)
    (sorted : entries.Pairwise fun a b => a.1 < b.1) :
    (entries.foldl (fun table entry => table.insert entry.1 entry.2) table).get? id =
      (find id entries).or (table.get? id) := by
  induction entries generalizing table with
  | nil => simp [find]
  | cons head rest ih =>
    obtain ⟨other, value⟩ := head
    have above := (List.pairwise_cons.mp sorted).1
    have tail := (List.pairwise_cons.mp sorted).2
    rw [List.foldl_cons, ih _ tail, get?_insert]
    simp only [find]
    split
    · rename_i same
      subst same
      have absent : find id rest = none := by
        cases found : find id rest with
        | none => rfl
        | some old =>
          exact absurd (above _ ((find_eq_some_iff tail).mp found)) (UInt32.lt_irrefl _)
      simp [absent]
    · rfl

@[simp] theorem get?_overlay (table other : Table α) (id : ToolId) :
    (table.overlay other).get? id = (other.get? id).or (table.get? id) :=
  get?_foldl_insert other.entries table id other.sorted

theorem mem_or_of_get?_foldl_insert {pairs : List (ToolId × α)} {table : Table α} {id : ToolId} {value : α}
    (found : (pairs.foldl (fun table pair => table.insert pair.1 pair.2) table).get? id = some value) :
    (id, value) ∈ pairs ∨ table.get? id = some value := by
  induction pairs generalizing table with
  | nil => exact .inr found
  | cons pair rest ih =>
    rcases ih found with later | now
    · exact .inl (List.mem_cons_of_mem _ later)
    · rw [get?_insert] at now
      split at now
      · rename_i same
        obtain rfl := Option.some.inj now
        exact .inl (same ▸ List.mem_cons_self)
      · exact .inr now

theorem mem_of_get?_ofList {pairs : List (ToolId × α)} {id : ToolId} {value : α}
    (found : (ofList pairs).get? id = some value) : (id, value) ∈ pairs :=
  (mem_or_of_get?_foldl_insert found).resolve_right fun never => by cases never

theorem get?_foldl_insert_ne_none {pairs : List (ToolId × α)} {table : Table α} {id : ToolId}
    (named : id ∈ pairs.map (·.1) ∨ table.get? id ≠ none) :
    (pairs.foldl (fun table pair => table.insert pair.1 pair.2) table).get? id ≠ none := by
  induction pairs generalizing table with
  | nil => exact named.resolve_left nofun
  | cons pair rest ih =>
    refine ih ?_
    rw [get?_insert]
    split
    · exact .inr nofun
    · rename_i different
      exact named.imp_left fun listed => (List.mem_cons.mp listed).resolve_left different

theorem contains_iff {table : Table α} {id : ToolId} :
    table.contains id = true ↔ ∃ value, table.get? id = some value := by
  simp [contains, Option.isSome_iff_exists]

theorem mem_ids {table : Table α} {id : ToolId} : id ∈ table.ids ↔ table.contains id = true := by
  simp [ids, contains_iff, get?_eq_some_iff]

theorem nodup_ids (table : Table α) : table.ids.Nodup :=
  List.pairwise_map.mpr (table.sorted.imp UInt32.ne_of_lt)

theorem entries_eq_of_find {a b : List (ToolId × α)} (sortedA : a.Pairwise fun x y => x.1 < y.1)
    (sortedB : b.Pairwise fun x y => x.1 < y.1) (same : ∀ id, find id a = find id b) : a = b := by
  induction a generalizing b with
  | nil =>
    cases b with
    | nil => rfl
    | cons head rest => simpa [find] using same head.1
  | cons head rest ih =>
    obtain ⟨id, value⟩ := head
    have aboveA := (List.pairwise_cons.mp sortedA).1
    have tailA := (List.pairwise_cons.mp sortedA).2
    cases b with
    | nil => simpa [find] using same id
    | cons head' rest' =>
      obtain ⟨id', value'⟩ := head'
      have aboveB := (List.pairwise_cons.mp sortedB).1
      have tailB := (List.pairwise_cons.mp sortedB).2
      have insideB : (id, value) ∈ (id', value') :: rest' :=
        (find_eq_some_iff sortedB).mp (by rw [← same]; simp [find])
      have insideA : (id', value') ∈ (id, value) :: rest :=
        (find_eq_some_iff sortedA).mp (by rw [same]; simp [find])
      have first : (id, value) = (id', value') := by
        rcases List.mem_cons.mp insideB with equal | later
        · exact equal
        · rcases List.mem_cons.mp insideA with equal | later'
          · exact equal.symm
          · exact absurd (UInt32.lt_trans (aboveA _ later') (aboveB _ later)) (UInt32.lt_irrefl _)
      cases first
      congr 1
      refine ih tailA tailB fun other => ?_
      have equal := same other
      simp only [find] at equal
      split at equal
      · rename_i isFirst
        subst isFirst
        have absent {entries : List (ToolId × α)} (above : ∀ x ∈ entries, other < x.1)
            (tail : entries.Pairwise fun x y => x.1 < y.1) : find other entries = none := by
          cases found : find other entries with
          | none => rfl
          | some old =>
            exact absurd (above _ ((find_eq_some_iff tail).mp found)) (UInt32.lt_irrefl _)
        rw [absent aboveA tailA, absent aboveB tailB]
      · exact equal

theorem ext_get? {a b : Table α} (same : ∀ id, a.get? id = b.get? id) : a = b := by
  cases a with
  | mk entriesA sortedA =>
    cases b with
    | mk entriesB sortedB =>
      have equal : entriesA = entriesB := entries_eq_of_find sortedA sortedB same
      subst equal
      rfl

theorem ofList_eq {table : Table α} {pairs : List (ToolId × α)}
    (same : ∀ pair, pair ∈ pairs ↔ pair ∈ table.entries) : ofList pairs = table := by
  have sound {id : ToolId} {value : α} (found : (ofList pairs).get? id = some value) :
      table.get? id = some value :=
    get?_eq_some_iff.mpr ((same _).mp (mem_of_get?_ofList found))
  refine ext_get? fun id => ?_
  cases found : (ofList pairs).get? id with
  | some value => exact (sound found).symm
  | none =>
    cases present : table.get? id with
    | none => rfl
    | some value =>
      have listed := (same (id, value)).mpr (get?_eq_some_iff.mp present)
      exact absurd found (get?_foldl_insert_ne_none (.inl (List.mem_map_of_mem listed)))

end Table

end ToolChanger
