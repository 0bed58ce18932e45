import ToolChanger.Store.FileSystem

namespace ToolChanger

structure Faulty (σ : Type) where
  files : σ
  /-- An entry for each change to come, the next one first. A change with bytes fails, and if it is a write it
  leaves those in the file. Changes without an entry are made as far as possible. -/
  script : List (Option ByteArray) := []

namespace Faulty

variable {σ : Type} [FileSystem (StateM σ)]

def onFiles {α : Type} (action : StateM σ α) : StateM (Faulty σ) α := fun faulty =>
  let done := action.run faulty.files
  (done.1, { faulty with files := done.2 })

def next : StateM (Faulty σ) (Option ByteArray) :=
  modifyGet fun faulty => (faulty.script.head?.join, { faulty with script := faulty.script.tail })

def change (complete : StateM σ Bool) (failing : ByteArray → StateM σ Unit) : StateM (Faulty σ) Bool := do
  match ← next with
  | none => onFiles complete
  | some left =>
    onFiles (failing left)
    return false

instance : FileSystem (StateM (Faulty σ)) where
  read path := onFiles (FileSystem.read path)
  write path bytes := change (FileSystem.write path bytes) fun left => do discard (FileSystem.write path left)
  createDirectories path := change (FileSystem.createDirectories path) fun _ => return ()
  rename source target := change (FileSystem.rename source target) fun _ => return ()
  remove path := onFiles (FileSystem.remove path)

end Faulty

end ToolChanger
