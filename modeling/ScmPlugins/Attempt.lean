/-!
The outcome of a computation that returns a value, fails with a reason, or stops: then nothing
answers, and whoever asked stops too.
-/

namespace ScmPlugins

inductive Attempt (ε α : Type) where
  | ok (a : α)
  | error (e : ε)
  | stopped
  deriving DecidableEq, Repr

namespace Attempt

variable {ε ε' α β : Type}

def bind : Attempt ε α → (α → Attempt ε β) → Attempt ε β
  | .ok a, f => f a
  | .error e, _ => .error e
  | .stopped, _ => .stopped

instance : Monad (Attempt ε) where
  pure := .ok
  bind := bind

def ofExcept : Except ε α → Attempt ε α
  | .ok a => .ok a
  | .error e => .error e

def mapError (f : ε → ε') : Attempt ε α → Attempt ε' α
  | .ok a => .ok a
  | .error e => .error (f e)
  | .stopped => .stopped

@[simp] theorem ok_bind (a : α) (f : α → Attempt ε β) : (.ok a >>= f) = f a := rfl

@[simp] theorem error_bind (e : ε) (f : α → Attempt ε β) : (.error e >>= f) = .error e := rfl

@[simp] theorem stopped_bind (f : α → Attempt ε β) : (.stopped >>= f) = .stopped := rfl

@[simp] theorem pure_eq (a : α) : (pure a : Attempt ε α) = .ok a := rfl

end Attempt

end ScmPlugins
