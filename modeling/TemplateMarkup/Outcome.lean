import TemplateMarkup.Error

/-!
What becomes of an operation: it is done, it fails with an error that its caller sees, or it is broken
off without an answer.
-/
namespace TemplateMarkup

inductive Outcome (α : Type)
  | done (value : α)
  | failed (error : Error)
  | brokenOff
deriving DecidableEq, Repr

namespace Outcome

def bind {α β : Type} (x : Outcome α) (f : α → Outcome β) : Outcome β :=
  match x with
  | done a => f a
  | failed e => failed e
  | brokenOff => brokenOff

instance : Monad Outcome where
  pure := done
  bind := bind

def ofExcept {α : Type} : Except Error α → Outcome α
  | .ok a => done a
  | .error e => failed e

/-- No value means that the operation is broken off. -/
def ofOption {α : Type} : Option α → Outcome α
  | some a => done a
  | none => brokenOff

end Outcome

end TemplateMarkup
