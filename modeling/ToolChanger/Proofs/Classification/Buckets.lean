import Mathlib.Data.List.Perm.Basic
import ToolChanger.Classification

/-!
# Buckets

What is looked up afresh comes to what overrides and record decide about a tool (`verdict_eq`). Pushing the
references into their buckets one by one comes to a filter for each bucket (`sortEach_eq`).
-/

namespace ToolChanger

open Program (Reference)

theorem verdict_eq (library : Library) (overrides : Overrides) (reference : Reference) :
    verdict library overrides reference.tool =
      ((reference.resolve library overrides).bucket, effectivePocket library overrides reference.tool) := by
  unfold verdict Reference.bucket Reference.resolve effectivePocket Overrides.state Table.contains
    Library.pocketOf
  cases inForce : overrides.get? reference.tool with
  | none => cases library.get? reference.tool <;> simp
  | some decided => cases decided <;> simp [Override.pocket?]

/-- The line and the tool, which is all that a classification takes over of a reference. -/
def Program.Reference.change (reference : Reference) : Nat × ToolId := (reference.line, reference.tool)

namespace Classification

variable {classification : Classification} {reference : Reference} {bucket : Bucket}

def buckets (classification : Classification) : Buckets :=
  ⟨classification.all, classification.inMagazine, classification.manual, classification.unknown,
    classification.inLibrary⟩

/-! ### Who is in a bucket -/

theorem mem_inBucket : reference ∈ classification.inBucket bucket ↔
    reference ∈ classification.all ∧ reference.bucket = bucket := by
  simp [inBucket]

theorem mem_inMagazine : reference ∈ classification.inMagazine ↔
    reference ∈ classification.all ∧ ∃ pocket, reference.pocket = some pocket := by
  rw [inMagazine, mem_inBucket, ← Option.isSome_iff_exists, Reference.bucket]
  cases reference.pocket <;> cases reference.entry <;> cases reference.overridden <;> simp

theorem mem_manual : reference ∈ classification.manual ↔
    reference ∈ classification.all ∧ reference.pocket = none ∧
      (reference.entry.isSome = true ∨ reference.overridden = true) := by
  rw [manual, mem_inBucket, Reference.bucket]
  cases reference.pocket <;> cases reference.entry <;> cases reference.overridden <;> simp

theorem mem_unknown : reference ∈ classification.unknown ↔
    reference ∈ classification.all ∧ reference.pocket = none ∧ reference.entry = none ∧
      reference.overridden = false := by
  rw [unknown, mem_inBucket, Reference.bucket]
  cases reference.pocket <;> cases reference.entry <;> cases reference.overridden <;> simp

theorem inBucket_concat (classification : Classification) (reference : Reference) (bucket : Bucket) :
    (Classification.mk (classification.all ++ [reference])).inBucket bucket =
      classification.inBucket bucket ++ if reference.bucket = bucket then [reference] else [] := by
  by_cases belongs : reference.bucket = bucket <;> simp [inBucket, belongs]

theorem inLibrary_concat (classification : Classification) (reference : Reference) :
    (Classification.mk (classification.all ++ [reference])).inLibrary =
      if reference.entry.isSome then classification.inLibrary ++ [reference.tool]
      else classification.inLibrary := by
  cases known : reference.entry <;> simp [inLibrary, known]

theorem perm_buckets (classification : Classification) :
    (classification.inMagazine ++ classification.manual ++ classification.unknown).Perm
      classification.all := by
  let others := classification.all.filter fun reference => !decide (reference.bucket = .inMagazine)
  have manual : classification.manual = others.filter fun reference => reference.bucket = .manual := by
    rw [List.filter_filter]
    refine List.filter_congr fun reference _ => ?_
    cases reference.bucket <;> rfl
  have unknown : classification.unknown =
      others.filter fun reference => !decide (reference.bucket = .manual) := by
    rw [List.filter_filter]
    refine List.filter_congr fun reference _ => ?_
    cases reference.bucket <;> rfl
  rw [List.append_assoc, manual, unknown]
  exact ((List.filter_append_perm _ others).append_left _).trans (List.filter_append_perm _ _)

theorem bucketOf_eq_some (unmixed : ∀ a ∈ classification.all, ∀ b ∈ classification.all, a.tool = b.tool →
      a.bucket = b.bucket) {tool : ToolId} : classification.bucketOf tool = some bucket ↔
    ∃ reference ∈ classification.inBucket bucket, reference.tool = tool := by
  -- one bucket at most holds the tool, so the order in which they are looked at does not matter
  have alone {a b : Bucket} (inA : ∃ reference ∈ classification.inBucket a, reference.tool = tool)
      (inB : ∃ reference ∈ classification.inBucket b, reference.tool = tool) : a = b := by
    obtain ⟨first, listedA, rfl⟩ := inA
    obtain ⟨second, listedB, same⟩ := inB
    obtain ⟨first, rfl⟩ := mem_inBucket.mp listedA
    obtain ⟨second, rfl⟩ := mem_inBucket.mp listedB
    exact unmixed _ first _ second same.symm
  have holds (other : Bucket) : (classification.inBucket other).any (fun r => decide (r.tool = tool)) = true ↔
      ∃ reference ∈ classification.inBucket other, reference.tool = tool := by
    simp
  constructor
  · intro found
    have passes := List.find?_some found
    exact (holds bucket).mp passes
  · intro held
    have listed : bucket ∈ [Bucket.inMagazine, .manual, .unknown] := by cases bucket <;> simp
    cases found : classification.bucketOf tool with
    | none => exact absurd ((holds bucket).mpr held) (List.find?_eq_none.mp found bucket listed)
    | some other =>
      have passes := List.find?_some found
      rw [alone ((holds other).mp passes) held]

/-! ### What the buckets amount to -/

theorem status_eq_blocking_iff : classification.status = .blocking ↔ classification.unknown ≠ [] := by
  unfold status
  cases classification.unknown <;> cases classification.manual <;> simp

theorem status_eq_needsAttention_iff : classification.status = .needsAttention ↔
    classification.unknown = [] ∧ classification.manual ≠ [] := by
  unfold status
  cases classification.unknown <;> cases classification.manual <;> simp

theorem status_eq_ready_iff : classification.status = .ready ↔
    classification.unknown = [] ∧ classification.manual = [] := by
  unfold status
  cases classification.unknown <;> cases classification.manual <;> simp

/-- References sorted into the buckets that library and overrides decide. -/
structure Sorts (classification : Classification) (references : List Reference) (library : Library)
    (overrides : Overrides) : Prop where
  changes : classification.all.map (·.change) = references.map (·.change)
  verdict : ∀ reference ∈ classification.all,
    (reference.bucket, reference.pocket) = verdict library overrides reference.tool
  entry : ∀ reference ∈ classification.all, reference.entry = library.get? reference.tool
  overridden : ∀ reference ∈ classification.all, reference.overridden = overrides.contains reference.tool
  pocket : ∀ reference ∈ classification.all,
    reference.pocket = effectivePocket library overrides reference.tool
  sublist : ∀ bucket, (classification.inBucket bucket).Sublist classification.all
  perm : (classification.inMagazine ++ classification.manual ++ classification.unknown).Perm
    classification.all
  bucketOf : ∀ tool bucket, classification.bucketOf tool = some bucket ↔
    ∃ reference ∈ classification.inBucket bucket, reference.tool = tool
  inMagazine : ∀ reference ∈ classification.all, (reference ∈ classification.inMagazine ↔
    ∃ pocket, effectivePocket library overrides reference.tool = some pocket)
  unknown : ∀ reference ∈ classification.all, (reference ∈ classification.unknown ↔
    library.get? reference.tool = none ∧ overrides.get? reference.tool = none)
  blocking : classification.status = .blocking ↔ classification.unknown ≠ []
  needsAttention : classification.status = .needsAttention ↔
    classification.unknown = [] ∧ classification.manual ≠ []
  ready : classification.status = .ready ↔ classification.unknown = [] ∧ classification.manual = []

end Classification

section

variable (references : List Reference) (library : Library) (overrides : Overrides)

theorem changes_classify :
    (classify references library overrides).all.map (·.change) = references.map (·.change) := by
  simp [classify, Function.comp_def, Reference.change, Reference.resolve]

theorem classify_congr {others : List Reference}
    (same : others.map (·.change) = references.map (·.change)) :
    classify others library overrides = classify references library overrides := by
  let resolved (change : Nat × ToolId) : Reference :=
    Reference.resolve library overrides ⟨change.1, change.2, none, false, none⟩
  have factors (list : List Reference) : list.map (·.resolve library overrides) =
      (list.map (·.change)).map resolved := by
    rw [List.map_map]
    rfl
  rw [classify, classify, factors, factors, same]

/-- One more reference is listed last, in all the lists that it belongs to. -/
theorem push_buckets (classification : Classification) (reference : Reference) :
    classification.buckets.push library overrides reference =
      (Classification.mk (classification.all ++ [reference.resolve library overrides])).buckets := by
  let resolved := reference.resolve library overrides
  have decided : verdict library overrides reference.tool = (resolved.bucket, resolved.pocket) :=
    verdict_eq library overrides reference
  have entry : resolved.entry = library.get? reference.tool := rfl
  have tool : resolved.tool = reference.tool := rfl
  have whole : (⟨reference.line, reference.tool, library.get? reference.tool,
    overrides.contains reference.tool, resolved.pocket⟩ : Reference) = resolved := rfl
  change _ = (Classification.mk (classification.all ++ [resolved])).buckets
  unfold Buckets.push Classification.buckets Classification.inMagazine Classification.manual
    Classification.unknown
  simp only [Classification.inBucket_concat, Classification.inLibrary_concat, decided, entry, tool, whole]
  cases resolved.bucket <;> simp

theorem sortEach_eq :
    sortEach references library overrides = (classify references library overrides).buckets := by
  have sorted (earlier : List Reference) : references.foldl (Buckets.push library overrides)
      (classify earlier library overrides).buckets =
        (classify (earlier ++ references) library overrides).buckets := by
    induction references generalizing earlier with
    | nil => rw [List.foldl_nil, List.append_nil]
    | cons reference rest ih =>
      have step : (classify earlier library overrides).buckets.push library overrides reference =
          (classify (earlier ++ [reference]) library overrides).buckets := by
        rw [push_buckets, classify, classify, List.map_append]
        rfl
      rw [List.foldl_cons, step, ih, List.append_assoc]
      rfl
  exact sorted []

theorem sorts_classify :
    (classify references library overrides).Sorts references library overrides := by
  have resolved : ∀ reference ∈ (classify references library overrides).all,
      reference = reference.resolve library overrides := by
    intro reference listed
    obtain ⟨old, -, rfl⟩ := List.mem_map.mp listed
    rfl
  have entry reference listed := congrArg Reference.entry (resolved reference listed)
  have overridden reference listed := congrArg Reference.overridden (resolved reference listed)
  have pocket reference listed := congrArg Reference.pocket (resolved reference listed)
  have verdict : ∀ reference ∈ (classify references library overrides).all,
      (reference.bucket, reference.pocket) = verdict library overrides reference.tool := by
    intro reference listed
    rw [verdict_eq, ← resolved reference listed, pocket reference listed]
    rfl
  refine ⟨changes_classify references library overrides, verdict, entry, overridden, pocket,
    fun _ => List.filter_sublist, Classification.perm_buckets _, fun _ _ => ?_, ?_, ?_,
    Classification.status_eq_blocking_iff, Classification.status_eq_needsAttention_iff,
    Classification.status_eq_ready_iff⟩
  · refine Classification.bucketOf_eq_some fun a listedA b listedB same => ?_
    have agree := (verdict a listedA).trans ((congrArg _ same).trans (verdict b listedB).symm)
    exact (Prod.mk.inj agree).1
  · intro reference listed
    rw [Classification.mem_inMagazine, and_iff_right listed, pocket reference listed]
    rfl
  · intro reference listed
    rw [Classification.mem_unknown, and_iff_right listed, entry reference listed,
      overridden reference listed, pocket reference listed]
    simp only [Reference.resolve, effectivePocket, Table.contains, Library.pocketOf]
    cases library.get? reference.tool <;> cases overrides.get? reference.tool <;> simp

/-- A classification sorts its references by library and overrides, and by nothing else that they carry; its
buckets are what sorting the references one by one fills. So a classification classified again is what it
would have been from the start. -/
theorem classify_sorts :
    (classify references library overrides).Sorts references library overrides ∧
      (∀ others, classify others library overrides = classify references library overrides ↔
        others.map (·.change) = references.map (·.change)) ∧
      (∀ later inForce, classify (classify references library overrides).all later inForce =
        classify references later inForce) ∧
      sortEach references library overrides = (classify references library overrides).buckets := by
  refine ⟨sorts_classify references library overrides, fun others => ⟨fun same => ?_, fun same => ?_⟩, ?_,
    sortEach_eq references library overrides⟩
  · have listed := congrArg (fun classification => classification.all.map (·.change)) same
    rwa [changes_classify, changes_classify] at listed
  · exact classify_congr references library overrides same
  · intro later inForce
    exact classify_congr references later inForce (changes_classify references library overrides)

end

-- what an earlier classification had found does not keep a tool in the magazine, nor make it known
example : (classify [⟨7, 5, none, false, some 9⟩, ⟨9, 77, none, true, some 9⟩] .empty
      (Table.ofList [(5, .outOfMagazine)])).all.map (fun reference => (reference.bucket, reference.pocket)) =
    [(.manual, none), (.unknown, none)] := by decide +kernel

end ToolChanger
