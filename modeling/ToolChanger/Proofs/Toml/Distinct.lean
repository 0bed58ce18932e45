import ToolChanger.Toml.Reader

namespace ToolChanger.Toml

/-- No name stands twice. -/
abbrev Distinct {α : Type} (members : List (String × α)) : Prop := (members.map (·.1)).Nodup

variable {members next : Members} {key : String} {item : Item}

theorem map_replace (members : Members) (key : String) (item : Item) :
    (members.replace key item).map (·.1) = members.map (·.1) := by
  rw [Members.replace, List.map_map]
  refine List.map_congr_left fun member _ => ?_
  dsimp only [Function.comp_apply]
  split
  · rename_i same
    exact same.symm
  · rfl

theorem Distinct.replace (distinct : Distinct members) (key : String) (item : Item) :
    Distinct (members.replace key item) := by
  rw [Distinct, map_replace]
  exact distinct

theorem Distinct.concat (distinct : Distinct members) (free : members.lookup key = none) :
    Distinct (members ++ [(key, item)]) := by
  have absent : key ∉ members.map (·.1) := by
    intro listed
    obtain ⟨member, inside, rfl⟩ := List.mem_map.mp listed
    exact absurd (List.lookup_eq_none_iff.mp free member inside) (by simp)
  rw [Distinct, List.map_append]
  exact (List.perm_append_singleton key _).nodup_iff.mpr (List.nodup_cons.mpr ⟨absent, distinct⟩)

theorem Distinct.descend {made here : Origin} {change : Origin → Members → Option Members} {path : List String}
    (distinct : Distinct members)
    (keeps : ∀ origin {next}, change origin members = some next → Distinct next)
    (changes : Toml.descend made change here path members = some next) : Distinct next := by
  cases path with
  | nil => exact keeps here changes
  | cons key rest =>
    rw [Toml.descend] at changes
    split at changes
    · rename_i free
      obtain ⟨inner, -, ⟨⟩⟩ := Option.bind_eq_some_iff.mp changes
      exact distinct.concat free
    · split at changes
      · cases changes
      · obtain ⟨inner, -, ⟨⟩⟩ := Option.bind_eq_some_iff.mp changes
        exact distinct.replace _ _
    · obtain ⟨inner, -, ⟨⟩⟩ := Option.bind_eq_some_iff.mp changes
      exact distinct.replace _ _
    · cases changes

theorem Distinct.assign {path : List String} {value : Value} (distinct : Distinct members)
    (changes : Toml.assign path key value members = some next) : Distinct next := by
  refine distinct.descend (fun origin next adds => ?_) changes
  split at adds
  · cases adds
  · rename_i free
    obtain rfl := Option.some.inj adds
    exact distinct.concat (Option.not_isSome_iff_eq_none.mp (not_or.mp free).2)

theorem Distinct.assignIn {table path : List String} {value : Value} (distinct : Distinct members)
    (changes : Toml.assignIn table path key value members = some next) : Distinct next :=
  distinct.descend (fun _ _ => distinct.assign) changes

theorem Distinct.openTable {path : List String} (distinct : Distinct members)
    (changes : Toml.openTable path key members = some next) : Distinct next := by
  refine distinct.descend (fun origin next opens => ?_) changes
  split at opens
  · rename_i free
    obtain rfl := Option.some.inj opens
    exact distinct.concat free
  · obtain rfl := Option.some.inj opens
    exact distinct.replace _ _
  · cases opens

theorem Distinct.openElement {path : List String} (distinct : Distinct members)
    (changes : Toml.openElement path key members = some next) : Distinct next := by
  refine distinct.descend (fun origin next opens => ?_) changes
  split at opens
  · rename_i free
    obtain rfl := Option.some.inj opens
    exact distinct.concat free
  · obtain rfl := Option.some.inj opens
    exact distinct.replace _ _
  · cases opens

theorem Distinct.run {opened : List String} {statements : List Statement} (distinct : Distinct members)
    (runs : Toml.run opened members statements = some next) : Distinct next := by
  induction statements generalizing opened members with
  | nil => exact Option.some.inj runs ▸ distinct
  | cons statement rest ih =>
    cases statement with
    | assign path key value =>
      obtain ⟨after, changes, runs⟩ := Option.bind_eq_some_iff.mp runs
      exact ih (distinct.assignIn changes) runs
    | header path key =>
      obtain ⟨after, changes, runs⟩ := Option.bind_eq_some_iff.mp runs
      exact ih (distinct.openTable changes) runs
    | element path key =>
      obtain ⟨after, changes, runs⟩ := Option.bind_eq_some_iff.mp runs
      exact ih (distinct.openElement changes) runs

theorem map_values (members : Members) : (Item.values members).map (·.1) = members.map (·.1) := by
  induction members with
  | nil => rfl
  | cons head rest ih =>
    obtain ⟨key, item⟩ := head
    rw [Item.values, List.map_cons, List.map_cons, ih]

theorem parse?_eq_some_iff {text : String} {members : List (String × Value)} : parse? text = some members ↔
    ∃ statements built,
      readStatements ((unifyBreaks (withoutMark text.toList)).length + 1) (unifyBreaks (withoutMark text.toList)) =
        some statements ∧
      Toml.run [] [] statements = some built ∧ Item.values built = members := by
  simp only [parse?, Option.bind_eq_bind, Option.bind_eq_some_iff, Option.pure_def, Option.some.injEq,
    exists_and_left]

theorem parse?_distinct {text : String} {members : List (String × Value)} (reads : parse? text = some members) :
    Distinct members := by
  obtain ⟨statements, built, -, runs, rfl⟩ := parse?_eq_some_iff.mp reads
  rw [Distinct, map_values]
  have fresh : Distinct ([] : Members) := List.nodup_nil
  exact fresh.run runs

end ToolChanger.Toml
