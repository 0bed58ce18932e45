import ToolChanger.Json.Basic

/-!
# Members of an object

Two objects with ascending names that say the same under every name are equal (`ext_member?`), so storing members
sorted loses nothing but their order.
-/

namespace ToolChanger.Json

/-- The value under a name. Of members that share a name the last one counts. -/
def member? (name : String) (members : List (String × Json)) : Option Json :=
  members.reverse.lookup name

/-- Members in ascending order of their names, which are all different. -/
abbrev Ascending (members : List (String × Json)) : Prop := members.Pairwise fun a b => a.1 < b.1

variable {members : List (String × Json)} {name other : String} {value : Json}

/-! ### Look-up -/

theorem member?_append (name : String) (front back : List (String × Json)) :
    member? name (front ++ back) = (member? name back).or (member? name front) := by
  rw [member?, List.reverse_append, List.lookup_append]
  rfl

theorem member?_cons (name other : String) (value : Json) (rest : List (String × Json)) :
    member? name ((other, value) :: rest) =
      (member? name rest).or (if name = other then some value else none) := by
  have single : member? name [(other, value)] = if name = other then some value else none := by
    by_cases same : name = other
    · simp [member?, same]
    · simp [member?, List.lookup_cons, same, beq_eq_false_iff_ne.mpr same]
  rw [← single]
  exact member?_append name [(other, value)] rest

theorem member?_eq_none_iff : member? name members = none ↔ ∀ member ∈ members, member.1 ≠ name := by
  simp only [member?, List.lookup_eq_none_iff, List.mem_reverse, bne_iff_ne, ne_comm]

theorem mem_of_member? (found : member? name members = some value) : (name, value) ∈ members := by
  obtain ⟨front, back, split, -⟩ := List.lookup_eq_some_iff.mp found
  rw [← List.mem_reverse, split]
  exact List.mem_append_right _ List.mem_cons_self

theorem member?_filter (keep : String → Bool) (name : String) (members : List (String × Json)) :
    member? name (members.filter fun member => keep member.1) =
      if keep name then member? name members else none := by
  induction members with
  | nil => cases keep name <;> rfl
  | cons head rest ih =>
    obtain ⟨other, value⟩ := head
    rw [List.filter_cons, member?_cons]
    by_cases same : name = other
    · subst same
      cases kept : keep name <;> simp [kept, ih, member?_cons]
    · cases keep other <;> cases asked : keep name <;> simp [asked, ih, member?_cons, same]

theorem sortedValues_eq_map (members : List (String × Json)) :
    sortedValues members = members.map fun member => (member.1, member.2.sorted) := by
  induction members with
  | nil => rfl
  | cons head rest ih =>
    rw [sortedValues, ih]
    rfl

theorem member?_sortedValues (name : String) (members : List (String × Json)) :
    member? name (sortedValues members) = (member? name members).map sorted := by
  induction members with
  | nil => rfl
  | cons head rest ih =>
    obtain ⟨other, value⟩ := head
    rw [sortedValues, member?_cons, member?_cons, ih]
    cases member? name rest with
    | some found => rfl
    | none => by_cases same : name = other <;> simp [same]

/-! ### Members that may stand under several names -/

theorem single?_eq_some {names : List String} {found : Option Json}
    (single : single? names members = some found) :
    (found = none ∧ ∀ name ∈ names, member? name members = none) ∨
      ∃ chosen ∈ names, member? chosen members = found ∧ found.isSome ∧
        ∀ name ∈ names, name ≠ chosen → member? name members = none := by
  have among (name : String) (listed : name ∈ names) : member? name members =
      member? name (members.filter fun member => names.contains member.1) := by
    rw [member?_filter names.contains, if_pos (List.contains_iff_mem.mpr listed)]
  unfold single? at single
  split at single
  · rename_i none
    refine .inl ⟨(Option.some.inj single).symm, fun name listed => ?_⟩
    rw [among name listed, none]
    rfl
  · rename_i member alone
    obtain rfl := Option.some.inj single
    have kept : member ∈ members.filter fun member => names.contains member.1 := by
      rw [alone]
      exact List.mem_singleton_self member
    have listed := List.contains_iff_mem.mp (List.mem_filter.mp kept).2
    refine .inr ⟨member.1, listed, ?_, rfl, fun name listed different => ?_⟩
    · rw [among member.1 listed, alone, member?_cons]
      simp [member?]
    · rw [among name listed, alone, member?_cons]
      simp [member?, different]
  · cases single

theorem member?_of_single? {found : Option Json} (single : single? [name] members = some found) :
    member? name members = found := by
  rcases single?_eq_some single with ⟨rfl, none⟩ | ⟨chosen, listed, tells, -⟩
  · exact none name List.mem_cons_self
  · rwa [List.mem_singleton.mp listed] at tells

theorem exists_member? {member : String × Json} (listed : member ∈ members) :
    ∃ value, member? member.1 members = some value :=
  Option.ne_none_iff_exists'.mp fun none => member?_eq_none_iff.mp none member listed rfl

theorem fields?_object {names : List String} {found : List (Option Json)}
    (reads : (object members).fields? names = some found) :
    found = names.map fun name => member? name members := by
  rw [fields?] at reads
  induction names generalizing found with
  | nil => exact (Option.some.inj reads).symm
  | cons name rest ih =>
    simp only [List.mapM_cons, Option.bind_eq_bind, Option.bind_eq_some_iff, Option.pure_def,
      Option.some.injEq] at reads
    obtain ⟨first, single, others, later, rfl⟩ := reads
    rw [ih later, List.map_cons, member?_of_single? single]

theorem member?_of_mem {member : String × Json} (distinct : (members.map (·.1)).Nodup)
    (listed : member ∈ members) : member? member.1 members = some member.2 := by
  induction members with
  | nil => cases listed
  | cons head rest ih =>
    obtain ⟨other, value⟩ := head
    obtain ⟨absent, distinct⟩ := List.nodup_cons.mp distinct
    rw [member?_cons]
    rcases List.mem_cons.mp listed with rfl | later
    · have none : member? other rest = none :=
        member?_eq_none_iff.mpr fun member inside same => absent (List.mem_map.mpr ⟨member, inside, same⟩)
      simp [none]
    · rw [ih distinct later, Option.some_or]

theorem single?_of_nodup {names : List String} {chosen : String} (distinct : (members.map (·.1)).Nodup)
    (listed : chosen ∈ names) (others : ∀ name ∈ names, name ≠ chosen → member? name members = none) :
    single? names members = some (member? chosen members) := by
  have among : member? chosen members =
      member? chosen (members.filter fun member => names.contains member.1) := by
    rw [member?_filter names.contains, if_pos (List.contains_iff_mem.mpr listed)]
  have only : ∀ member ∈ members.filter (fun member => names.contains member.1), member.1 = chosen := by
    intro member kept
    obtain ⟨inside, named⟩ := List.mem_filter.mp kept
    obtain ⟨value, found⟩ := exists_member? inside
    by_cases same : member.1 = chosen
    · exact same
    · rw [others member.1 (List.contains_iff_mem.mp named) same] at found
      cases found
  have once : ((members.filter fun member => names.contains member.1).map (·.1)).Nodup :=
    distinct.sublist (List.filter_sublist.map _)
  rw [among]
  unfold single?
  generalize members.filter (fun member => names.contains member.1) = kept at only once
  rcases kept with _ | ⟨first, _ | ⟨second, rest⟩⟩
  · rfl
  · rw [member?_cons, ← only first List.mem_cons_self]
    simp [member?]
  · have same := (only first List.mem_cons_self).trans
      (only second (List.mem_cons_of_mem _ List.mem_cons_self)).symm
    exact absurd (List.mem_cons.mpr (.inl same)) (List.nodup_cons.mp once).1

theorem single?_singleton (distinct : (members.map (·.1)).Nodup) (name : String) :
    single? [name] members = some (member? name members) :=
  single?_of_nodup distinct List.mem_cons_self fun _ listed different =>
    absurd (List.mem_singleton.mp listed) different

/-! ### Ascending members -/

theorem mem_insertMember {member : String × Json}
    (listed : member ∈ insertMember name value members) : member = (name, value) ∨ member ∈ members := by
  induction members with
  | nil => exact .inl (List.mem_singleton.mp listed)
  | cons head rest ih =>
    obtain ⟨other, old⟩ := head
    rw [insertMember] at listed
    split at listed
    · exact List.mem_cons.mp listed
    · split at listed
      · exact (List.mem_cons.mp listed).imp_right (List.mem_cons_of_mem _)
      · rcases List.mem_cons.mp listed with same | inside
        · exact .inr (same ▸ List.mem_cons_self)
        · exact (ih inside).imp_right (List.mem_cons_of_mem _)

theorem lt_of_not_lt {a b : String} (notBelow : ¬ a < b) (different : a ≠ b) : b < a := by
  by_cases below : b < a
  · exact below
  · exact absurd (String.le_antisymm (String.not_lt.mp below) (String.not_lt.mp notBelow)) different

theorem ascending_insertMember (name : String) (value : Json) (ascending : Ascending members) :
    Ascending (insertMember name value members) := by
  induction members with
  | nil => exact List.pairwise_singleton _ _
  | cons head rest ih =>
    obtain ⟨other, old⟩ := head
    obtain ⟨above, tail⟩ := List.pairwise_cons.mp ascending
    rw [insertMember]
    split
    · rename_i below
      refine List.pairwise_cons.mpr ⟨fun member listed => ?_, ascending⟩
      rcases List.mem_cons.mp listed with rfl | inside
      · exact below
      · exact String.lt_trans below (above member inside)
    · rename_i notBelow
      split
      · rename_i same
        subst same
        exact List.pairwise_cons.mpr ⟨above, tail⟩
      · rename_i different
        refine List.pairwise_cons.mpr ⟨fun member listed => ?_, ih tail⟩
        rcases mem_insertMember listed with rfl | inside
        · exact lt_of_not_lt notBelow different
        · exact above member inside

theorem member?_of_above {rest : List (String × Json)} (above : ∀ member ∈ rest, other < member.1) :
    member? other rest = none :=
  member?_eq_none_iff.mpr fun member listed same => String.lt_irrefl other (same ▸ above member listed)

theorem member?_insertMember (name : String) (value : Json) (ascending : Ascending members)
    (asked : String) :
    member? asked (insertMember name value members) =
      if asked = name then some value else member? asked members := by
  induction members with
  | nil => rw [insertMember, member?_cons]; rfl
  | cons head rest ih =>
    obtain ⟨other, old⟩ := head
    obtain ⟨above, tail⟩ := List.pairwise_cons.mp ascending
    rw [insertMember]
    split
    · rename_i below
      rw [member?_cons]
      by_cases same : asked = name
      · subst same
        rw [member?_of_above fun member listed => ?_]
        · rfl
        · rcases List.mem_cons.mp listed with rfl | inside
          · exact below
          · exact String.lt_trans below (above member inside)
      · simp [same]
    · split
      · rename_i same
        subst same
        rw [member?_cons, member?_cons]
        by_cases same : asked = name
        · subst same
          simp [member?_of_above above]
        · simp [same]
      · rename_i different
        rw [member?_cons, ih tail, member?_cons]
        by_cases same : asked = name
        · subst same
          simp
        · simp [same]

theorem ext_member? {a b : List (String × Json)} (ascendingA : Ascending a) (ascendingB : Ascending b)
    (agree : ∀ name, member? name a = member? name b) : a = b := by
  induction a generalizing b with
  | nil =>
    cases b with
    | nil => rfl
    | cons head rest =>
      have none := member?_eq_none_iff.mp (agree head.1).symm head List.mem_cons_self
      exact absurd rfl none
  | cons head rest ih =>
    obtain ⟨name, value⟩ := head
    obtain ⟨aboveA, tailA⟩ := List.pairwise_cons.mp ascendingA
    have first : member? name ((name, value) :: rest) = some value := by
      rw [member?_cons, member?_of_above aboveA]
      simp
    cases b with
    | nil =>
      rw [agree name] at first
      cases first
    | cons second more =>
      obtain ⟨other, found⟩ := second
      obtain ⟨aboveB, tailB⟩ := List.pairwise_cons.mp ascendingB
      have leading : member? other ((other, found) :: more) = some found := by
        rw [member?_cons, member?_of_above aboveB]
        simp
      -- Each head is a member on the other side, so neither name lies above the other.
      have same : name = other := by
        have inB := mem_of_member? ((agree name).symm.trans first)
        have inA := mem_of_member? ((agree other).trans leading)
        rcases List.mem_cons.mp inB with heads | later
        · exact congrArg Prod.fst heads
        rcases List.mem_cons.mp inA with heads | earlier
        · exact (congrArg Prod.fst heads).symm
        · exact absurd (String.lt_trans (aboveA _ earlier) (aboveB _ later)) (String.lt_irrefl _)
      subst same
      obtain rfl : value = found := Option.some.inj (first.symm.trans ((agree name).trans leading))
      refine congrArg ((name, value) :: ·) (ih tailA tailB fun asked => ?_)
      have tails := agree asked
      rw [member?_cons, member?_cons] at tails
      by_cases asksHead : asked = name
      · subst asksHead
        rw [member?_of_above aboveA, member?_of_above aboveB]
      · simpa [asksHead] using tails

theorem nodup_of_ascending (ascending : Ascending members) : (members.map (·.1)).Nodup :=
  List.pairwise_map.mpr (ascending.imp fun {a b} below (same : a.1 = b.1) =>
    String.lt_irrefl b.1 (same ▸ below))

/-! ### Sorting -/

theorem foldl_insertMember (members : List (String × Json)) {kept : List (String × Json)}
    (ascending : Ascending kept) :
    let all := members.foldl (fun kept (name, value) => insertMember name value kept) kept
    Ascending all ∧ ∀ name, member? name all = (member? name members).or (member? name kept) := by
  induction members generalizing kept with
  | nil => exact ⟨ascending, fun _ => rfl⟩
  | cons head rest ih =>
    obtain ⟨name, value⟩ := head
    obtain ⟨sorts, tells⟩ := ih (ascending_insertMember name value ascending)
    refine ⟨sorts, fun asked => (tells asked).trans ?_⟩
    rw [member?_insertMember name value ascending, member?_cons]
    cases member? asked rest with
    | some found => rfl
    | none => by_cases same : asked = name <;> simp [same]

theorem ascending_sortMembers (members : List (String × Json)) : Ascending (sortMembers members) :=
  (foldl_insertMember members .nil).1

theorem member?_sortMembers (name : String) (members : List (String × Json)) :
    member? name (sortMembers members) = member? name members := by
  rw [sortMembers, (foldl_insertMember members .nil).2]
  exact Option.or_none

theorem mem_sortMembers_iff : (name, value) ∈ sortMembers members ↔ member? name members = some value := by
  rw [← member?_sortMembers]
  exact ⟨member?_of_mem (nodup_of_ascending (ascending_sortMembers members)), mem_of_member?⟩

theorem mem_sortMembers {member : String × Json} (distinct : (members.map (·.1)).Nodup) :
    member ∈ sortMembers members ↔ member ∈ members := by
  have ascending := nodup_of_ascending (ascending_sortMembers members)
  have told := member?_sortMembers member.1 members
  constructor
  · intro listed
    exact mem_of_member? (told.symm.trans (member?_of_mem ascending listed))
  · intro listed
    exact mem_of_member? (told.trans (member?_of_mem distinct listed))

theorem sortMembers_of_ascending (ascending : Ascending members) : sortMembers members = members :=
  ext_member? (ascending_sortMembers members) ascending fun name => member?_sortMembers name members

theorem ascending_sortedValues (ascending : Ascending members) : Ascending (sortedValues members) := by
  rw [sortedValues_eq_map]
  exact List.pairwise_map.mpr ascending

theorem sortedValues_sortMembers (members : List (String × Json)) :
    sortedValues (sortMembers members) = sortMembers (sortedValues members) := by
  refine ext_member? (ascending_sortedValues (ascending_sortMembers members)) (ascending_sortMembers _) ?_
  intro name
  rw [member?_sortedValues, member?_sortMembers, member?_sortMembers, member?_sortedValues]

/-- Sorted, objects are the same if they say the same under every name. -/
theorem sorted_object_eq_iff {a b : List (String × Json)} : (object a).sorted = (object b).sorted ↔
    ∀ name, (member? name a).map sorted = (member? name b).map sorted := by
  have told (name : String) (members : List (String × Json)) :
      member? name (sortMembers (sortedValues members)) = (member? name members).map sorted := by
    rw [member?_sortMembers, member?_sortedValues]
  rw [sorted, sorted, object.injEq]
  constructor
  · intro same name
    rw [← told, ← told, same]
  · intro agree
    refine ext_member? (ascending_sortMembers _) (ascending_sortMembers _) fun name => ?_
    rw [told, told, agree]

mutual

theorem sorted_sorted : (json : Json) → json.sorted.sorted = json.sorted
  | null => rfl
  | bool _ => rfl
  | number _ => rfl
  | string _ => rfl
  | array items => by rw [sorted, sorted, sortedItems_sortedItems items]
  | object members => by
    rw [sorted, sorted, sortedValues_sortMembers, sortedValues_sortedValues members,
      sortMembers_of_ascending (ascending_sortMembers _)]

theorem sortedItems_sortedItems : (items : List Json) → sortedItems (sortedItems items) = sortedItems items
  | [] => rfl
  | item :: rest => by rw [sortedItems, sortedItems, sorted_sorted item, sortedItems_sortedItems rest]

theorem sortedValues_sortedValues :
    (members : List (String × Json)) → sortedValues (sortedValues members) = sortedValues members
  | [] => rfl
  | (name, value) :: rest => by
    rw [sortedValues, sortedValues, sorted_sorted value, sortedValues_sortedValues rest]

end

theorem asBool?_sorted (value : Json) : value.sorted.asBool? = value.asBool? := by
  cases value <;> rfl

theorem asString?_sorted (value : Json) : value.sorted.asString? = value.asString? := by
  cases value <;> rfl

theorem asUInt32?_sorted (value : Json) : value.sorted.asUInt32? = value.asUInt32? := by
  cases value <;> rfl

/-! ### Members that are not modelled -/

/-- Members as they are stored beside those of some names: under other names, and sorted. -/
structure Extra (names : List String) (extra : List (String × Json)) : Prop where
  apart : ∀ member ∈ extra, member.1 ∉ names
  ascending : Ascending extra
  sorted : sortedValues extra = extra

def others (names : List String) (members : List (String × Json)) : List (String × Json) :=
  sortMembers (sortedValues (members.filter fun member => !names.contains member.1))

theorem member?_others (names : List String) (name : String) (members : List (String × Json)) :
    member? name (others names members) =
      if name ∈ names then none else (member? name members).map sorted := by
  rw [others, member?_sortMembers, member?_sortedValues, member?_filter (fun name => !names.contains name)]
  by_cases listed : name ∈ names <;> simp [listed]

theorem extra_others (names : List String) (members : List (String × Json)) :
    Extra names (others names members) where
  apart member inside listed := by
    obtain ⟨value, found⟩ := exists_member? inside
    rw [member?_others, if_pos listed] at found
    cases found
  ascending := ascending_sortMembers _
  sorted := by rw [others, sortedValues_sortMembers, sortedValues_sortedValues]

namespace Extra

variable {names : List String} {modelled extra : List (String × Json)} (stored : Extra names extra)
  (named : (modelled.map (·.1)).Sublist names)
include stored named

theorem others_append : others names (modelled ++ extra) = extra := by
  have back : (modelled ++ extra).filter (fun member => !names.contains member.1) = extra := by
    rw [List.filter_append, List.filter_eq_nil_iff.mpr, List.filter_eq_self.mpr, List.nil_append]
    · intro member inside
      simpa using stored.apart member inside
    · intro member inside
      simpa using named.subset (List.mem_map_of_mem inside)
  rw [others, back, stored.sorted, sortMembers_of_ascending stored.ascending]

theorem nodup_append (distinct : names.Nodup) : ((modelled ++ extra).map (·.1)).Nodup := by
  rw [List.map_append]
  refine List.nodup_append.mpr ⟨distinct.sublist named, nodup_of_ascending stored.ascending, ?_⟩
  rintro name listed other stands rfl
  obtain ⟨member, inside, rfl⟩ := List.mem_map.mp stands
  exact stored.apart member inside (named.subset listed)

theorem member?_append (name : String) : member? name (modelled ++ extra) =
    if name ∈ names then member? name modelled else member? name extra := by
  rw [Json.member?_append]
  split
  · rename_i listed
    have absent : member? name extra = none :=
      member?_eq_none_iff.mpr fun member inside same => stored.apart member inside (same ▸ listed)
    rw [absent, Option.none_or]
  · rename_i other
    have absent : member? name modelled = none :=
      member?_eq_none_iff.mpr fun member inside same =>
        other (same ▸ named.subset (List.mem_map_of_mem inside))
    rw [absent, Option.or_none]

end Extra

end ToolChanger.Json
