import ToolChanger.Proofs.Remap.Update

/-!
# First records

Which record counts for a number is settled by where the number first occurs (`positions`). Setting pockets moves
no record and renumbers none, so these positions hold for good.
-/

namespace ToolChanger
namespace Library

variable {records : List Tool} {changes : List (ToolId × Option Pocket)} {pocket : Pocket}

/-- Takes up where some records stand, the first of them in a given place, unless a record of their number has
been met. -/
def positionsFrom (met : Table Nat) (place : Nat) : List Tool → Table Nat
  | [] => met
  | record :: rest =>
    positionsFrom (if met.contains record.id then met else met.insert record.id place) (place + 1) rest

def positions (records : List Tool) : Table Nat := positionsFrom Table.empty 0 records

/-- The pocket in force for a number after some changes: the one that was set last, else the one on its first
record. Without a record of the number there is no answer. -/
def inForce (records : List Tool) (changes : List (ToolId × Option Pocket)) (id : ToolId) :
    Option (Option Pocket) :=
  (records.find? (·.id = id)).map fun record => (changes.reverse.lookup id).getD record.pocket

/-! ### Positions -/

theorem get?_positionsFrom (met : Table Nat) (place : Nat) (records : List Tool) (id : ToolId) :
    (positionsFrom met place records).get? id =
      (met.get? id).or ((records.findIdx? (·.id = id)).map (· + place)) := by
  induction records generalizing met place with
  | nil => simp [positionsFrom]
  | cons head rest ih =>
    rw [positionsFrom, ih, List.findIdx?_cons]
    by_cases same : head.id = id
    · subst same
      cases known : met.get? head.id <;> simp [Table.contains, known]
    · have later : ((rest.findIdx? (·.id = id)).map (· + 1)).map (· + place) =
          (rest.findIdx? (·.id = id)).map (· + (place + 1)) := by
        simp [Function.comp_def, Nat.add_comm 1, Nat.add_assoc]
      have other : decide (head.id = id) = false := decide_eq_false same
      rw [other, if_neg Bool.false_ne_true, later]
      split
      · rfl
      · rw [Table.get?_insert, if_neg (Ne.symm same)]

theorem get?_positions (records : List Tool) (id : ToolId) :
    (positions records).get? id = records.findIdx? (·.id = id) := by
  rw [positions, get?_positionsFrom]
  simp

theorem positions_congr {others : List Tool} (same : others.map (·.id) = records.map (·.id)) (id : ToolId) :
    (positions others).get? id = (positions records).get? id := by
  have byNumber (records : List Tool) :
      records.findIdx? (·.id = id) = (records.map (·.id)).findIdx? (· = id) := by
    rw [List.findIdx?_map]
    rfl
  rw [get?_positions, get?_positions, byNumber, byNumber, same]

theorem get?_positions_eq_some_iff {record : Tool} {i : Nat} (found : records[i]? = some record) :
    (positions records).get? record.id = some i ↔ record.id ∉ (records.take i).map (·.id) := by
  obtain ⟨inside, rfl⟩ := List.getElem?_eq_some_iff.mp found
  rw [get?_positions, List.findIdx?_eq_some_iff_getElem, List.mem_map]
  constructor
  · rintro ⟨inside, -, before⟩ ⟨other, earlier, same⟩
    obtain ⟨j, below, rfl⟩ := List.mem_take_iff_getElem.mp earlier
    exact before j (by omega) (decide_eq_true same)
  · intro first
    refine ⟨inside, decide_eq_true rfl, fun j below same => first ⟨records[j], ?_, of_decide_eq_true same⟩⟩
    exact List.mem_take_iff_getElem.mpr ⟨j, by omega, rfl⟩

theorem get?_eq_positions (library : Library) (id : ToolId) :
    library.get? id = ((positions library.records).get? id).bind (library.records[·]?) := by
  rw [get?_positions]
  exact List.find?_eq_bind_findIdx?_getElem?

theorem firsts_eq_positions (records : List Tool) :
    firsts records = (records.zipIdx.filter fun (record, i) =>
      (positions records).get? record.id = some i).map (·.1) := by
  simp only [get?_positions]
  induction records with
  | nil => rfl
  | cons head rest ih =>
    have first : (head :: rest).findIdx? (·.id = head.id) = some 0 := by simp [List.findIdx?_cons]
    rw [firsts, ih, List.zipIdx_cons, List.filter_cons_of_pos (by simpa using first), List.map_cons,
      List.zipIdx_succ, List.filter_map, List.filter_map, List.map_map, List.filter_filter]
    refine congrArg (head :: List.map _ ·) (List.filter_congr fun entry _ => ?_)
    by_cases same : head.id = entry.1.id
    · simp [List.findIdx?_cons, same]
    · simp [List.findIdx?_cons, same, Ne.symm same]

/-! ### Pockets in force -/

theorem ids_update (library : Library) (changes : List (ToolId × Option Pocket)) :
    (library.update changes).records.map (·.id) = library.records.map (·.id) := by
  have same := congrArg (List.map (·.id)) (map_unplaced_update library changes)
  rwa [List.map_map, List.map_map] at same

theorem get?_update (library : Library) (changes : List (ToolId × Option Pocket)) (id : ToolId) :
    (library.update changes).get? id = (library.get? id).map fun record =>
      { record with pocket := (changes.reverse.lookup id).getD record.pocket } := by
  induction changes generalizing library with
  | nil =>
    show library.get? id = _
    simp
  | cons change rest ih =>
    obtain ⟨other, pocket⟩ := change
    rw [update_cons, ih, get?_setPocket, List.reverse_cons, List.lookup_append]
    by_cases same : id = other
    · subst same
      cases rest.reverse.lookup id <;> simp [Function.comp_def]
    · have elsewhere : [(other, pocket)].lookup id = none := by
        rw [List.lookup_cons, beq_false_of_ne same]
        rfl
      rw [if_neg same, elsewhere, Option.or_none]

theorem inForce_eq (records : List Tool) (changes : List (ToolId × Option Pocket)) (id : ToolId) :
    inForce records changes id = (((Library.mk records).update changes).get? id).map (·.pocket) := by
  rw [get?_update, Option.map_map]
  rfl

theorem pocketOf_eq_inForce (records : List Tool) (changes : List (ToolId × Option Pocket)) (id : ToolId) :
    ((Library.mk records).update changes).pocketOf id = (inForce records changes id).join := by
  rw [inForce_eq, pocketOf]
  cases ((Library.mk records).update changes).get? id <;> rfl

theorem exchanges_run (library : Library) (changes : List (ToolId × Option Pocket)) :
    (changes.mapM fun (id, pocket) => exchangePocket id pocket).run library =
      (changes.mapIdx fun i (id, _) => ((library.update (changes.take i)).get? id).map (·.pocket),
        library.update changes) := by
  induction changes generalizing library with
  | nil => rfl
  | cons change rest ih =>
    rw [List.mapM_cons, StateT.run_bind]
    show (do
      let later ← ((rest.mapM fun (id, pocket) => exchangePocket id pocket).run
        (library.setPocket change.1 change.2) : Id _)
      pure (((library.get? change.1).map (·.pocket)) :: later.1, later.2) : Id _) = _
    rw [ih, List.mapIdx_cons]
    rfl

/-! ### Shared pockets -/

theorem mem_sharedPockets {library : Library} {tools : List ToolId} :
    (pocket, tools) ∈ library.sharedPockets ↔ tools = library.occupants pocket ∧ 1 < tools.length := by
  have onRecord (several : 1 < (library.occupants pocket).length) :
      pocket ∈ library.indexed.filterMap (·.pocket) := by
    obtain ⟨tool, listed⟩ := List.exists_mem_of_length_pos (Nat.lt_of_succ_lt several)
    obtain ⟨record, found, held⟩ := Option.bind_eq_some_iff.mp (mem_occupants_iff.mp listed)
    exact List.mem_filterMap.mpr ⟨record, mem_indexed_of_get? found, held⟩
  simp only [sharedPockets, List.mem_filter, List.mem_map, decide_eq_true_eq, Prod.mk.injEq,
    Magazine.mem_ascending]
  constructor
  · rintro ⟨⟨_, -, rfl, rfl⟩, several⟩
    exact ⟨rfl, several⟩
  · rintro ⟨rfl, several⟩
    exact ⟨⟨pocket, onRecord several, rfl, rfl⟩, several⟩

theorem ascending_sharedPockets (library : Library) :
    (library.sharedPockets.map (·.1)).Pairwise (· < ·) := by
  refine (Magazine.sorted_ascending (library.indexed.filterMap (·.pocket))).sublist ?_
  have pockets (pockets : List Pocket) :
      (pockets.map fun pocket => (pocket, library.occupants pocket)).map (·.1) = pockets := by
    rw [List.map_map]
    exact List.map_id _
  have listed := (List.filter_sublist (p := fun entry : Pocket × List ToolId => 1 < entry.2.length)
    (l := (Magazine.ascending (library.indexed.filterMap (·.pocket))).map fun pocket =>
      (pocket, library.occupants pocket))).map (·.1)
  rwa [pockets] at listed

/-! ### Any changes -/

/-- What a library says after some changes, told from the records it was made of. -/
structure Answers (records : List Tool) (changes : List (ToolId × Option Pocket)) (library : Library) : Prop where
  /-- The records are the same ones in the same order. A first record has the pocket in force, a repeated one the
  pocket it had. -/
  kept : library.records = records.mapIdx fun i record =>
    if (positions records).get? record.id = some i then
      { record with pocket := (changes.reverse.lookup record.id).getD record.pocket }
    else record
  /-- A number is looked up where it first occurred when the library was made. -/
  position : ∀ id, library.get? id = ((positions records).get? id).bind (library.records[·]?)
  get? : ∀ id, library.get? id = (records.find? (·.id = id)).map fun record =>
    { record with pocket := (changes.reverse.lookup id).getD record.pocket }
  contains : ∀ id, library.contains id = true ↔ ∃ record ∈ records, record.id = id
  pocketOf : ∀ id, library.pocketOf id = (inForce records changes id).join
  /-- The records that count, in the order of all records. -/
  indexed : library.indexed = (library.records.zipIdx.filter fun (record, i) =>
    (positions records).get? record.id = some i).map (·.1)
  once : library.ids.Nodup
  listed : ∀ id, id ∈ library.ids ↔ ∃ record ∈ records, record.id = id
  occupants : ∀ pocket, library.occupants pocket =
    (library.indexed.filter (·.pocket = some pocket)).map (·.id)
  placed : ∀ id pocket, id ∈ library.occupants pocket ↔ inForce records changes id = some (some pocket)
  shared : ∀ pocket tools, (pocket, tools) ∈ library.sharedPockets ↔
    tools = library.occupants pocket ∧ 1 < tools.length
  ascending : (library.sharedPockets.map (·.1)).Pairwise (· < ·)

theorem answers_update (records : List Tool) (changes : List (ToolId × Option Pocket)) :
    Answers records changes ((Library.mk records).update changes) := by
  have positions := positions_congr (ids_update ⟨records⟩ changes)
  have known (id : ToolId) : ((Library.mk records).update changes).contains id = true ↔
      ∃ record ∈ records, record.id = id := by
    rw [contains_update, contains_iff_mem, List.mem_map]
  refine
    { kept := List.ext_getElem? fun i => ?_
      position := fun id => by rw [get?_eq_positions, positions]
      get? := fun id => get?_update _ _ _
      contains := known
      pocketOf := pocketOf_eq_inForce records changes
      indexed := by
        simp only [indexed, firsts_eq_positions, positions]
      once := nodup_ids _
      listed := fun id => mem_ids_iff.trans (known id)
      occupants := occupants_eq _
      placed := fun id pocket => by
        rw [mem_occupants_iff, pocketOf_eq_inForce]
        cases inForce records changes id <;> simp
      shared := fun pocket tools => mem_sharedPockets
      ascending := ascending_sharedPockets _ }
  rw [getElem?_records_update, List.getElem?_mapIdx]
  refine Option.map_congr fun record found => ?_
  by_cases first : record.id ∈ (records.take i).map (·.id)
  · rw [if_pos first, if_neg (mt (get?_positions_eq_some_iff found).mp (not_not_intro first))]
  · have counts : (Library.mk records).get? record.id = some record := get?_of_first found first
    rw [if_neg first, if_pos ((get?_positions_eq_some_iff found).mpr first), pocketOf, get?_update, counts]
    rfl

/-- Whatever pockets are set one after the other: each call tells the pocket in force until then, or that there is
no record of the number, and what the library says afterwards is told from the records it was made of and the
last pocket that was set for each number. -/
theorem exchanged_in_turn (records : List Tool) (changes : List (ToolId × Option Pocket)) :
    let exchanged := (changes.mapM fun (id, pocket) => exchangePocket id pocket).run ⟨records⟩
    exchanged.1 = changes.mapIdx (fun i (id, _) => inForce records (changes.take i) id) ∧
      Answers records changes exchanged.2 := by
  intro exchanged
  have run : exchanged = _ := exchanges_run ⟨records⟩ changes
  rw [run]
  refine ⟨?_, answers_update records changes⟩
  simp only [inForce_eq]

example :
    let records : List Tool := [{ id := 1, pocket := some 4 }, { id := 1, pocket := some 9 }, { id := 2 }]
    let changes := [(1, none), (2, some 4), (3, some 4), (1, some 4)]
    let exchanged := (changes.mapM fun (id, pocket) => exchangePocket id pocket).run ⟨records⟩
    exchanged.1 = [some (some 4), some none, none, some none] ∧
      exchanged.2.records.map (·.pocket) = [some 4, some 9, some 4] ∧
      exchanged.2.sharedPockets = [(4, [1, 2])] := by
  decide

end Library
end ToolChanger
