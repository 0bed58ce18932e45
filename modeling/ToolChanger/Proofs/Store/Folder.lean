import ToolChanger.Proofs.Load.Keeps
import ToolChanger.Proofs.Store.Contents

/-!
# Documents in a folder

A file system is lawful for a folder (`Folder.Lawful`) when drafts are not documents and a draft takes a document's
place as a whole or not at all. Any change may fail, and a draft that could not be written may hold anything.
-/

namespace ToolChanger

namespace Folder

def documentPath (folder : Folder) (document : Document) : String := Path.join folder.path document.file

def draftPath (folder : Folder) (document : Document) : String := Path.join folder.path (draft document)

variable {σ : Type} [FileSystem (StateM σ)]

def contents (folder : Folder) (state : σ) : Contents := fun document =>
  ((FileSystem.read (folder.documentPath document) : StateM σ _).run state).1

def drafted (folder : Folder) (state : σ) (document : Document) : Except ReadFailure ByteArray :=
  ((FileSystem.read (folder.draftPath document) : StateM σ _).run state).1

/-- A sound state in which the documents hold what is given. -/
structure Holds (folder : Folder) (Sound : σ → Prop) (contents : Contents) (state : σ) : Prop where
  sound : Sound state
  same : folder.contents state = contents

/-- What can be relied on as long as the state of the file system is sound. -/
structure Lawful (folder : Folder) (Sound : σ → Prop) : Prop where
  read (document : Document) (contents : Contents) :
    Keeps (folder.Holds Sound contents) (FileSystem.read (folder.documentPath document) : StateM σ _)
  createDirectories (contents : Contents) :
    Keeps (folder.Holds Sound contents) (FileSystem.createDirectories folder.path : StateM σ _)
  write (document : Document) (bytes : ByteArray) (contents : Contents) :
    Keeps (folder.Holds Sound contents) (FileSystem.write (folder.draftPath document) bytes : StateM σ _)
  written (document : Document) (bytes : ByteArray) {state after : σ} (sound : Sound state)
    (writes : (FileSystem.write (folder.draftPath document) bytes : StateM σ _).run state = (true, after)) :
    folder.drafted after document = .ok bytes
  unrenamed (document : Document) {contents : Contents} {state after : σ}
    (holds : folder.Holds Sound contents state)
    (renames : (FileSystem.rename (folder.draftPath document) (folder.documentPath document) :
      StateM σ _).run state = (false, after)) :
    folder.Holds Sound contents after
  renamed (document : Document) {contents : Contents} {state after : σ}
    (holds : folder.Holds Sound contents state)
    (renames : (FileSystem.rename (folder.draftPath document) (folder.documentPath document) :
      StateM σ _).run state = (true, after)) :
    folder.Holds Sound (Function.update contents document (folder.drafted state document)) after
  remove (document : Document) (contents : Contents) :
    Keeps (folder.Holds Sound contents) (FileSystem.remove (folder.draftPath document) : StateM σ _)

variable {folder : Folder} {Sound : σ → Prop} {contents : Contents} {state : σ}

theorem holds_contents (sound : Sound state) : folder.Holds Sound (folder.contents state) state := ⟨sound, rfl⟩

/-! ### Saving -/

omit [FileSystem (StateM σ)] in
theorem run_lift_bind {ε α β : Type} {action : StateM σ α} {value : α} {state after : σ}
    (ran : action.run state = (value, after)) (next : α → ExceptT ε (StateM σ) β) :
    (do next (← action) : ExceptT ε (StateM σ) β).run.run state = (next value).run.run after := by
  have lifted : (Except.ok <$> action : StateM σ (Except ε α)).run state = (.ok value, after) := by
    rw [StateT.run_map, ran]
    rfl
  rw [ExceptT.run_bind, ExceptT.run_liftM, run_bind lifted]

omit [FileSystem (StateM σ)] in
theorem of_run_change {ε α : Type} {change : StateM σ Bool} {rest failed : ExceptT ε (StateM σ) α} {state : σ}
    {result : Except ε α × σ}
    (ran : (do if ← change then rest else failed : ExceptT ε (StateM σ) α).run.run state = result) :
    ∃ done next, change.run state = (done, next) ∧ (if done then rest else failed).run.run next = result := by
  rcases changes : change.run state with ⟨done, next⟩
  rw [run_lift_bind changes] at ran
  exact ⟨done, next, rfl, ran⟩

omit [FileSystem (StateM σ)] in
theorem run_validate {α : Type} (settings : Settings) (rest : ExceptT StoreError (StateM σ) α) (state : σ) :
    (do
      settings.validate
      rest : ExceptT StoreError (StateM σ) α).run.run state =
      if settings.isValid then rest.run.run state else (.error .blankLabel, state) := by
  rw [Settings.validate]
  cases settings.isValid <;> rfl

/-- The three changes of a save, each with what follows when it cannot be made. -/
theorem save_eq (document : Document) (value : Json) :
    (folder.save document value : ExceptT StoreError (StateM σ) Unit) = (do
      if ← (FileSystem.createDirectories folder.path : StateM σ _) then
        if ← (FileSystem.write (folder.draftPath document) value.toPretty.toUTF8 : StateM σ _) then
          if ← (FileSystem.rename (folder.draftPath document) (folder.documentPath document) : StateM σ _) then
            return ()
          else
            (FileSystem.remove (folder.draftPath document) : StateM σ _)
            throw .refused
        else throw .refused
      else throw .noDirectory) := rfl

theorem Lawful.save_run (lawful : folder.Lawful Sound) (document : Document) (value : Json)
    (holds : folder.Holds Sound contents state) {outcome : Except StoreError Unit} {final : σ}
    (ran : (folder.save document value : ExceptT StoreError (StateM σ) _).run.run state = (outcome, final)) :
    folder.Holds Sound (contents.saved document value outcome) final := by
  rw [save_eq] at ran
  obtain ⟨made, first, creates, ran⟩ := of_run_change ran
  have holdsFirst := (lawful.createDirectories contents).of_run creates holds
  cases made with
  | false =>
    obtain ⟨rfl, rfl⟩ := Prod.mk.inj ran
    exact holdsFirst
  | true =>
  rw [if_pos rfl] at ran
  obtain ⟨written, second, writes, ran⟩ := of_run_change ran
  have holdsSecond := (lawful.write document _ contents).of_run writes holdsFirst
  cases written with
  | false =>
    obtain ⟨rfl, rfl⟩ := Prod.mk.inj ran
    exact holdsSecond
  | true =>
  rw [if_pos rfl] at ran
  obtain ⟨renamed, third, renames, ran⟩ := of_run_change ran
  cases renamed with
  | true =>
    obtain ⟨rfl, rfl⟩ := Prod.mk.inj ran
    -- the draft was written as a whole, and nothing has touched it since
    have drafted := lawful.written document value.toPretty.toUTF8 holdsFirst.sound writes
    rw [Contents.saved, Contents.put, ← drafted]
    exact lawful.renamed document holdsSecond renames
  | false =>
    have holdsThird := lawful.unrenamed document holdsSecond renames
    rcases removes : (FileSystem.remove (folder.draftPath document) : StateM σ _).run third
      with ⟨removed, fourth⟩
    rw [if_neg Bool.false_ne_true, run_lift_bind removes] at ran
    obtain ⟨rfl, rfl⟩ := Prod.mk.inj ran
    exact (lawful.remove document contents).of_run removes holdsThird

/-! ### Loading -/

theorem readText_run {path : String} {result : Except ReadFailure ByteArray} {final : σ}
    (reads : (FileSystem.read path : StateM σ _).run state = (result, final)) :
    (FileSystem.readText path : StateM σ _).run state = (result.bind FileSystem.decoded, final) := by
  unfold FileSystem.readText
  rw [run_bind reads]
  cases result with
  | error failure => rfl
  | ok bytes =>
    dsimp only [Except.bind, FileSystem.decoded]
    cases String.fromUTF8? bytes <;> rfl

theorem Lawful.load_run {α : Type} (lawful : folder.Lawful Sound) (document : Document) (default : α)
    (decode : Json → Option α) (holds : folder.Holds Sound contents state) :
    ∃ final, (folder.load document default decode : ExceptT StoreError (StateM σ) α).run.run state =
      (contents.read document default decode, final) ∧ folder.Holds Sound contents final := by
  rcases reads : (FileSystem.read (folder.documentPath document) : StateM σ _).run state with ⟨bytes, final⟩
  have holdsFinal := (lawful.read document contents).of_run reads holds
  obtain rfl : bytes = contents document := by
    rw [← holds.same, Folder.contents, reads]
  refine ⟨final, ?_, holdsFinal⟩
  unfold documentPath at reads
  unfold load Contents.read
  rw [run_lift_bind (readText_run reads)]
  rcases (contents document).bind FileSystem.decoded with failure | text
  · cases failure <;> rfl
  · dsimp only
    cases Text.allBlank text.toList with
    | true => rfl
    | false => cases (Json.parsePart? document.selection text).bind decode <;> rfl

end Folder

end ToolChanger
