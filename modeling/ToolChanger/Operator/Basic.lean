import ToolChanger.Operator.Decision
import ToolChanger.Operator.Summary

/-!
# Operators

What an operator answers may depend on all that was shown before, and while a summary is shown the world may
change: a tree that branches on what is shown.
-/

namespace ToolChanger

inductive Operator (m : Type → Type) where
  | gone
  /-- While a summary is shown `meanwhile` happens, then comes the answer. -/
  | ready (meanwhile : m Unit) (answer : Summary → Option Decision) (next : Summary → Operator m)

namespace Operator

variable {m : Type → Type} [Monad m]

def approving : Operator m := ready (pure ()) (fun _ => some .map) fun _ => gone

def ofScript : List (m Unit × Option Decision) → Operator m
  | [] => gone
  | (meanwhile, decision) :: rest => ready meanwhile (fun _ => decision) fun _ => ofScript rest

end Operator

end ToolChanger
