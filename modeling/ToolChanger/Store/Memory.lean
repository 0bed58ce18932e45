import ToolChanger.Store.Basic

namespace ToolChanger

structure Memory where
  tools : List Tool := []
  settings : Settings := {}
  machine : Machine := {}
  failReads : Bool := false
  failWrites : Bool := false
  toolWrites : Nat := 0
  settingsWrites : Nat := 0

namespace Memory

def read {α : Type} (document : Document) (get : Memory → α) : ExceptT StoreError (StateM Memory) α := do
  let memory ← getThe Memory
  if memory.failReads then throw (.notLoaded document) else return get memory

def write (document : Document) (put : Memory → Memory) : ExceptT StoreError (StateM Memory) Unit := do
  let memory ← getThe Memory
  if memory.failWrites then throw (.notSaved document) else set (put memory)

instance : Store (StateM Memory) where
  loadTools := read .toolLibrary (·.tools)
  saveTools tools := write .toolLibrary fun memory =>
    { memory with tools, toolWrites := memory.toolWrites + 1 }
  loadSettings := read .settings (·.settings)
  saveSettings settings := do
    settings.validate
    write .settings fun memory =>
      { memory with settings, settingsWrites := memory.settingsWrites + 1 }
  loadMachine := read .machine (·.machine)

end Memory

end ToolChanger
