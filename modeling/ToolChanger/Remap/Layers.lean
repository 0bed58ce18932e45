import ToolChanger.Classification

/-!
# Layers

Where a tool's pocket comes from: the library's record, above it the stored overrides, above these the
overrides of the session. What counts in the end is `Layers.pocketOf`.
-/

namespace ToolChanger

structure Layers where
  library : Library
  persisted : Overrides
  session : Overrides

namespace Layers

def overrides (layers : Layers) : Overrides := layers.persisted.overlay layers.session

def override? (layers : Layers) (tool : ToolId) : Option Override :=
  (layers.session.get? tool).or (layers.persisted.get? tool)

/-- The pocket that a tool resolves to. -/
def pocketOf (layers : Layers) (tool : ToolId) : Option Pocket :=
  match layers.override? tool with
  | some decided => decided.pocket?
  | none => layers.library.pocketOf tool

/-- Every tool that a layer names, the library's first. -/
def roster (layers : Layers) : List ToolId :=
  layers.library.ids ++ layers.overrides.ids.filter fun tool => !layers.library.contains tool

def assign (layers : Layers) (tool : ToolId) (decided : Override) : Layers :=
  { layers with session := layers.session.insert tool decided }

/-- Leaves a tool without a pocket: by a decision if a lower layer names the tool, else by forgetting
the session's. -/
def evict (layers : Layers) (tool : ToolId) : Layers :=
  if layers.library.contains tool || layers.persisted.contains tool then
    layers.assign tool .outOfMagazine
  else { layers with session := layers.session.erase tool }

theorem get?_overrides (layers : Layers) (tool : ToolId) :
    layers.overrides.get? tool = layers.override? tool := Table.get?_overlay _ _ _

theorem pocketOf_eq_effectivePocket (layers : Layers) (tool : ToolId) :
    layers.pocketOf tool = effectivePocket layers.library layers.overrides tool := by
  cases inForce : layers.override? tool <;>
    simp [pocketOf, effectivePocket, get?_overrides, inForce]

theorem pocketOf_eq (layers : Layers) (tool : ToolId) :
    layers.pocketOf tool =
      ((layers.session.get? tool).or (layers.persisted.get? tool)).elim
        (layers.library.pocketOf tool) Override.pocket? := by
  rw [pocketOf, override?]
  cases (layers.session.get? tool).or (layers.persisted.get? tool) <;> rfl

theorem mem_roster_of_pocketOf {layers : Layers} {tool : ToolId} {pocket : Pocket}
    (held : layers.pocketOf tool = some pocket) : tool ∈ layers.roster := by
  rw [roster, List.mem_append, List.mem_filter, Library.mem_ids_iff, Table.mem_ids]
  cases known : layers.library.contains tool with
  | true => exact .inl rfl
  | false =>
    refine .inr ⟨?_, rfl⟩
    cases found : layers.override? tool with
    | some decided => exact Table.contains_iff.mpr ⟨decided, (layers.get?_overrides tool).trans found⟩
    | none =>
      have absent : layers.library.get? tool = none := by simpa [Library.contains] using known
      simp [pocketOf, found, Library.pocketOf, absent] at held

theorem pocketOf_assign (layers : Layers) (tool other : ToolId) (decided : Override) :
    (layers.assign tool decided).pocketOf other =
      if other = tool then decided.pocket? else layers.pocketOf other := by
  by_cases same : other = tool
  · subst same
    simp [pocketOf_eq, assign]
  · simp [pocketOf_eq, assign, same]

theorem pocketOf_evict (layers : Layers) (tool other : ToolId) :
    (layers.evict tool).pocketOf other = if other = tool then none else layers.pocketOf other := by
  rw [evict]
  split
  · rw [pocketOf_assign]
    rfl
  · rename_i unnamed
    simp only [Bool.or_eq_true, not_or, Library.contains, Table.contains, Bool.not_eq_true,
      Option.isSome_eq_false_iff, Option.isNone_iff_eq_none] at unnamed
    by_cases same : other = tool
    · subst same
      simp [pocketOf_eq, unnamed.1, unnamed.2, Library.pocketOf]
    · simp [pocketOf_eq, same]

end Layers

end ToolChanger
