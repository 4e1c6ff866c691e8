import ScmPlugins.Attempt
import ScmPlugins.Plugin.Registry
import ScmPlugins.Transport

namespace ScmPlugins

inductive Task (α : Type) where
  | done (a : α)
  | note (e : Event) (next : Task α)
  | declared (plugin : String) (next : Option (List Version) → Task α)
  | submit (r : Transport.Request) (next : Transport.Answer → Task α)
  | supports (plugin provider event : String) (next : Bool → Task α)
  | publish (info : PluginInfo) (next : Bool → Task α)

namespace Task

variable {α β : Type}

def bind : Task α → (α → Task β) → Task β
  | .done a, f => f a
  | .note e next, f => .note e (next.bind f)
  | .declared plugin next, f => .declared plugin fun vs => (next vs).bind f
  | .submit r next, f => .submit r fun a => (next a).bind f
  | .supports plugin provider event next, f =>
    .supports plugin provider event fun b => (next b).bind f
  | .publish info next, f => .publish info fun b => (next b).bind f

end Task

/-- How questions are answered in a state, and what they do to it. -/
structure World (σ : Type) where
  note : Event → σ → σ
  declared : String → σ → Option (List Version)
  submit : Transport.Request → σ → Transport.Answer × σ
  supports : String → String → String → σ → Bool
  publish : PluginInfo → σ → Bool × σ

namespace Task

variable {α β σ : Type}

def run (w : World σ) : Task α → σ → α × σ
  | .done a, s => (a, s)
  | .note e next, s => next.run w (w.note e s)
  | .declared plugin next, s => (next (w.declared plugin s)).run w s
  | .submit r next, s =>
    let (a, s) := w.submit r s
    (next a).run w s
  | .supports plugin provider event next, s => (next (w.supports plugin provider event s)).run w s
  | .publish info next, s =>
    let (b, s) := w.publish info s
    (next b).run w s

theorem run_bind (w : World σ) (x : Task α) (f : α → Task β) (s : σ) :
    (x.bind f).run w s = (f (x.run w s).1).run w (x.run w s).2 := by
  induction x generalizing s with
  | done a => rfl
  | note e next ih => exact ih _
  | declared plugin next ih => exact ih _ _
  | submit r next ih => exact ih _ _
  | supports plugin provider event next ih => exact ih _ _
  | publish info next ih => exact ih _ _

end Task

end ScmPlugins
