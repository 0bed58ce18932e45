import ToolChanger.Magazine
import ToolChanger.Tool.Basic

/-!
# The tool library

The records in the order in which they are kept. A number may occur twice: only the first record counts
(`indexed`), the others are kept and never changed.
-/

namespace ToolChanger

structure Library where
  records : List Tool
  deriving BEq

namespace Library

def empty : Library := ⟨[]⟩

def firsts : List Tool → List Tool
  | [] => []
  | tool :: rest => tool :: (firsts rest).filter (·.id ≠ tool.id)

def indexed (library : Library) : List Tool := firsts library.records

def ids (library : Library) : List ToolId := library.indexed.map (·.id)

def get? (library : Library) (id : ToolId) : Option Tool := library.records.find? (·.id = id)

def contains (library : Library) (id : ToolId) : Bool := (library.get? id).isSome

def pocketOf (library : Library) (id : ToolId) : Option Pocket := (library.get? id).bind (·.pocket)

/-- The tools on record for a pocket, in order. A record that does not count for its number places no
tool (`occupants_eq`). -/
def occupants (library : Library) (pocket : Pocket) : List ToolId :=
  ((firsts (library.records.filter (·.pocket = some pocket))).map (·.id)).filter fun id =>
    library.pocketOf id = some pocket

def setFirst (id : ToolId) (pocket : Option Pocket) : List Tool → List Tool
  | [] => []
  | tool :: rest =>
    if tool.id = id then { tool with pocket } :: rest else tool :: setFirst id pocket rest

/-- Changes the pocket on record. A number without a record changes nothing. -/
def setPocket (library : Library) (id : ToolId) (pocket : Option Pocket) : Library :=
  ⟨setFirst id pocket library.records⟩

/-- Changes the pocket on record and tells the one before: `none` for a number without a record. -/
def exchangePocket (id : ToolId) (pocket : Option Pocket) : StateM Library (Option (Option Pocket)) :=
  modifyGet fun library => ((library.get? id).map (·.pocket), library.setPocket id pocket)

/-- The pockets on record for two tools or more, ascending, each with its tools. -/
def sharedPockets (library : Library) : List (Pocket × List ToolId) :=
  let pockets := Magazine.ascending (library.indexed.filterMap (·.pocket))
  (pockets.map fun pocket => (pocket, library.occupants pocket)).filter fun entry =>
    1 < entry.2.length

def size (library : Library) : Nat := library.indexed.length

/-! ### What the operations say about each other -/

theorem mem_firsts_iff {tool : Tool} {records : List Tool} :
    tool ∈ firsts records ↔ records.find? (·.id = tool.id) = some tool := by
  induction records with
  | nil => simp [firsts]
  | cons head rest ih =>
    simp only [firsts, List.mem_cons, List.mem_filter, ih, List.find?_cons]
    by_cases same : head.id = tool.id
    · simp only [same, decide_true, Option.some.injEq]
      constructor
      · rintro (rfl | ⟨-, different⟩)
        · rfl
        · simp at different
      · rintro rfl
        exact .inl rfl
    · have different : tool ≠ head := fun equal => same (equal ▸ rfl)
      simp [same, different, Ne.symm same]

theorem nodup_firsts (records : List Tool) : ((firsts records).map (·.id)).Nodup := by
  induction records with
  | nil => exact .nil
  | cons head rest ih =>
    rw [firsts, List.map_cons, List.nodup_cons]
    constructor
    · simp
    · exact ih.sublist (List.filter_sublist.map _)

theorem mem_indexed_iff {library : Library} {tool : Tool} :
    tool ∈ library.indexed ↔ library.get? tool.id = some tool := mem_firsts_iff

theorem id_eq_of_get? {library : Library} {id : ToolId} {tool : Tool}
    (found : library.get? id = some tool) : tool.id = id := by
  simpa using List.find?_some found

theorem mem_indexed_of_get? {library : Library} {id : ToolId} {tool : Tool}
    (found : library.get? id = some tool) : tool ∈ library.indexed := by
  rw [mem_indexed_iff, id_eq_of_get? found, found]

theorem mem_ids_iff {library : Library} {id : ToolId} :
    id ∈ library.ids ↔ library.contains id = true := by
  simp only [ids, List.mem_map, contains, Option.isSome_iff_exists]
  constructor
  · rintro ⟨tool, member, rfl⟩
    exact ⟨tool, mem_indexed_iff.mp member⟩
  · rintro ⟨tool, found⟩
    exact ⟨tool, mem_indexed_of_get? found, id_eq_of_get? found⟩

theorem nodup_ids (library : Library) : library.ids.Nodup := nodup_firsts library.records

/-- Among records that pass a test the first ones are chosen as among all, if a number whose first record
fails the test is then left out. -/
theorem firsts_filter (test : Tool → Bool) (records : List Tool) :
    (firsts (records.filter test)).filter (fun tool => (records.find? (·.id = tool.id)).any test) =
      (firsts records).filter test := by
  induction records with
  | nil => rfl
  | cons head rest ih =>
    have decides (tool : Tool) : ((head :: rest).find? (·.id = tool.id)).any test =
        if tool.id = head.id then test head else (rest.find? (·.id = tool.id)).any test := by
      by_cases same : tool.id = head.id
      · simp [same]
      · simp [same, Ne.symm same]
    have others : ((firsts rest).filter (·.id ≠ head.id)).filter test =
        (firsts (rest.filter test)).filter fun tool =>
          tool.id ≠ head.id && (rest.find? (·.id = tool.id)).any test := by
      rw [← List.filter_filter, ih, List.filter_filter, List.filter_filter]
      exact List.filter_congr fun tool _ => Bool.and_comm _ _
    by_cases passes : test head = true
    · rw [List.filter_cons_of_pos passes, firsts, firsts, List.filter_cons_of_pos passes, others,
        List.filter_cons_of_pos (by simp [passes]), List.filter_filter]
      congr 1
      refine List.filter_congr fun tool _ => ?_
      rw [decides]
      by_cases same : tool.id = head.id <;> simp [same]
    · rw [List.filter_cons_of_neg passes, firsts, List.filter_cons_of_neg passes, others]
      refine List.filter_congr fun tool _ => ?_
      rw [decides]
      by_cases same : tool.id = head.id <;> simp [same, passes]

theorem occupants_eq (library : Library) (pocket : Pocket) :
    library.occupants pocket = (library.indexed.filter (·.pocket = some pocket)).map (·.id) := by
  rw [indexed, ← firsts_filter, occupants, List.filter_map]
  congr 1
  refine List.filter_congr fun tool _ => ?_
  rw [Function.comp_apply, pocketOf, get?]
  cases library.records.find? (·.id = tool.id) <;> simp

theorem mem_occupants_iff {library : Library} {pocket : Pocket} {id : ToolId} :
    id ∈ library.occupants pocket ↔ library.pocketOf id = some pocket := by
  simp only [occupants_eq, List.mem_map, List.mem_filter, decide_eq_true_eq, pocketOf,
    Option.bind_eq_some_iff]
  constructor
  · rintro ⟨tool, ⟨member, held⟩, rfl⟩
    exact ⟨tool, mem_indexed_iff.mp member, held⟩
  · rintro ⟨tool, found, held⟩
    exact ⟨tool, ⟨mem_indexed_of_get? found, held⟩, id_eq_of_get? found⟩

theorem find?_setFirst (id other : ToolId) (pocket : Option Pocket) (records : List Tool) :
    (setFirst id pocket records).find? (·.id = other) =
      if other = id then (records.find? (·.id = id)).map fun tool => { tool with pocket }
      else records.find? (·.id = other) := by
  induction records with
  | nil => simp [setFirst]
  | cons head rest ih =>
    unfold setFirst
    by_cases first : head.id = id
    · by_cases same : other = id
      · simp [first, same]
      · simp [first, same, Ne.symm same]
    · rw [if_neg first, List.find?_cons, ih]
      by_cases same : other = id
      · simp [first, same]
      · simp [same, List.find?_cons]

theorem get?_setPocket (library : Library) (id other : ToolId) (pocket : Option Pocket) :
    (library.setPocket id pocket).get? other =
      if other = id then (library.get? id).map fun tool => { tool with pocket }
      else library.get? other :=
  find?_setFirst id other pocket library.records

@[simp] theorem contains_setPocket (library : Library) (id other : ToolId) (pocket : Option Pocket) :
    (library.setPocket id pocket).contains other = library.contains other := by
  unfold contains
  rw [get?_setPocket]
  by_cases same : other = id
  · simp [same]
  · simp [same]

theorem pocketOf_setPocket (library : Library) (id other : ToolId) (pocket : Option Pocket) :
    (library.setPocket id pocket).pocketOf other =
      if other = id ∧ library.contains id = true then pocket else library.pocketOf other := by
  unfold pocketOf contains
  rw [get?_setPocket]
  by_cases same : other = id
  · subst same
    cases library.get? other <;> simp
  · simp [same]

theorem nodup_occupants (library : Library) (pocket : Pocket) : (library.occupants pocket).Nodup :=
  (nodup_firsts _).sublist List.filter_sublist

end Library

end ToolChanger
