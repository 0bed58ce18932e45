import ToolChanger.Proofs.Store.Folder
import ToolChanger.Store.Faulty

namespace ToolChanger.Faulty

variable {σ : Type}

/-! ### A single change -/

theorem run_change (complete : StateM σ Bool) (failing : ByteArray → StateM σ Unit) (faulty : Faulty σ) :
    (change complete failing).run faulty =
      match faulty.script.head?.join with
      | none => ((complete.run faulty.files).1, ⟨(complete.run faulty.files).2, faulty.script.tail⟩)
      | some left => (false, ⟨((failing left).run faulty.files).2, faulty.script.tail⟩) := by
  obtain ⟨files, script⟩ := faulty
  rcases script with _ | ⟨_ | left, script⟩ <;> rfl

variable {complete : StateM σ Bool} {failing : ByteArray → StateM σ Unit} {faulty after : Faulty σ}

theorem of_change_true (ran : (change complete failing).run faulty = (true, after)) :
    complete.run faulty.files = (true, after.files) := by
  rw [run_change] at ran
  split at ran
  · obtain ⟨done, rfl⟩ := Prod.mk.inj ran
    exact Prod.ext done rfl
  · cases ran

theorem of_change_false (ran : (change complete failing).run faulty = (false, after)) :
    complete.run faulty.files = (false, after.files) ∨
      ∃ left, ((failing left).run faulty.files).2 = after.files := by
  rw [run_change] at ran
  split at ran
  · obtain ⟨refused, rfl⟩ := Prod.mk.inj ran
    exact .inl (Prod.ext refused rfl)
  · rename_i left _
    obtain ⟨-, rfl⟩ := Prod.mk.inj ran
    exact .inr ⟨left, rfl⟩

theorem keeps_change {P : σ → Prop} (whole : Keeps P complete) (part : ∀ left, Keeps P (failing left)) :
    Keeps (fun faulty : Faulty σ => P faulty.files) (change complete failing) := by
  intro faulty holds
  rw [run_change]
  split
  · exact whole _ holds
  · exact part _ _ holds

/-! ### Lawful file systems -/

variable [FileSystem (StateM σ)] {folder : Folder} {Sound : σ → Prop}

theorem holds_eq (contents : Contents) :
    folder.Holds (fun faulty : Faulty σ => Sound faulty.files) contents =
      fun faulty => folder.Holds Sound contents faulty.files :=
  funext fun _ => propext ⟨fun holds => ⟨holds.sound, holds.same⟩, fun holds => ⟨holds.sound, holds.same⟩⟩

theorem lawful (lawful : folder.Lawful Sound) : folder.Lawful fun faulty : Faulty σ => Sound faulty.files where
  read document contents := by
    rw [holds_eq]
    exact fun faulty => lawful.read document contents faulty.files
  createDirectories contents := by
    rw [holds_eq]
    exact keeps_change (lawful.createDirectories contents) fun _ => keeps_pure ()
  write document bytes contents := by
    rw [holds_eq]
    -- what a failing write leaves is written as well
    exact keeps_change (lawful.write document bytes contents) fun left =>
      (lawful.write document left contents).bind fun _ => keeps_pure _
  written document bytes faulty after sound writes :=
    lawful.written document bytes sound (of_change_true writes)
  unrenamed document contents faulty after holds renames := by
    rw [holds_eq] at holds ⊢
    rcases of_change_false renames with refused | ⟨left, stays⟩
    · exact lawful.unrenamed document holds refused
    · exact stays ▸ holds
  renamed document contents faulty after holds renames := by
    rw [holds_eq] at holds ⊢
    exact lawful.renamed document holds (of_change_true renames)
  remove document contents := by
    rw [holds_eq]
    exact fun faulty => lawful.remove document contents faulty.files

end ToolChanger.Faulty
