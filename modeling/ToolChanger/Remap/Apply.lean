import ToolChanger.Remap.Plan
import ToolChanger.Store.Basic

/-!
# Carrying out a move

The library is read afresh, changed and written, then the settings, then the session changes. Where a step
fails nothing after it happens.
-/

namespace ToolChanger

variable {m : Type → Type} [Monad m] [Store m]

/-- Writes a plan's changes to the stores and gives the session after them. -/
def Plan.carryOut (plan : Plan) (session : Overrides) : ExceptT StoreError m Overrides := do
  if plan.touchesLibrary then
    let tools ← (Store.loadTools : ExceptT StoreError m _)
    Store.saveTools (Library.update ⟨tools⟩ plan.libraryUpdates).records
  if plan.touchesSettings then
    let settings ← (Store.loadSettings : ExceptT StoreError m _)
    Store.saveSettings
      { settings with overrides := settings.overrides.update plan.persistedUpdates }
  return session.update plan.sessionUpdates

end ToolChanger
