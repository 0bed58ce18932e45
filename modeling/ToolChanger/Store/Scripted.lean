import ToolChanger.Store.Basic

namespace ToolChanger

structure Documents where
  tools : List Tool := []
  settings : Settings := {}
  machine : Machine := {}

structure Scripted where
  documents : Documents
  /-- An entry for each call to come, the next one first. Calls that it does not name succeed. -/
  script : List (Option StoreError) := []
  /-- The documents after each write, the last write first. -/
  history : List Documents := []

namespace Scripted

def failure? (store : Scripted) : Option StoreError := store.script.head?.join

def next (store : Scripted) : Scripted := { store with script := store.script.tail }

def put (store : Scripted) (documents : Documents) : Scripted :=
  { store with documents, history := documents :: store.history }

def call {α : Type} (work : Scripted → α × Scripted) : ExceptT StoreError (StateM Scripted) α :=
  ExceptT.mk <| modifyGet fun store =>
    match store.failure? with
    | some error => (.error error, store.next)
    | none => (work store.next).map .ok id

def read {α : Type} (get : Documents → α) : ExceptT StoreError (StateM Scripted) α :=
  call fun store => (get store.documents, store)

def write (change : Documents → Documents) : ExceptT StoreError (StateM Scripted) Unit :=
  call fun store => ((), store.put (change store.documents))

instance : Store (StateM Scripted) where
  loadTools := read (·.tools)
  saveTools tools := write fun documents => { documents with tools }
  loadSettings := read (·.settings)
  saveSettings settings := write fun documents => { documents with settings }
  loadMachine := read (·.machine)

end Scripted

end ToolChanger
