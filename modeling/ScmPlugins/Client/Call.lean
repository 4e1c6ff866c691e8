import ScmPlugins.Client.Failure
import ScmPlugins.Client.Task

namespace ScmPlugins

structure Call (α : Type) where
  task : Task (Attempt Failure α)

namespace Call

variable {α β σ : Type}

def ofAttempt (a : Attempt Failure α) : Call α := ⟨.done a⟩

def fail (e : Failure) : Call α := ofAttempt (.error e)

def next (f : α → Call β) : Attempt Failure α → Task (Attempt Failure β)
  | .ok a => (f a).task
  | .error e => .done (.error e)
  | .stopped => .done .stopped

def bind (x : Call α) (f : α → Call β) : Call β := ⟨x.task.bind (next f)⟩

instance : Monad Call where
  pure a := ofAttempt (.ok a)
  bind := bind

def note (e : Event) : Call Unit := ⟨.note e (.done (.ok ()))⟩

def declared (plugin : String) : Call (Option (List Version)) :=
  ⟨.declared plugin fun vs => .done (.ok vs)⟩

def submit (r : Transport.Request) : Call Transport.Reply :=
  ⟨.submit r fun
    | .ok reply => .done (.ok reply)
    | .error e => .done (.error (.transport e))⟩

def supports (plugin provider event : String) : Call Bool :=
  ⟨.supports plugin provider event fun b => .done (.ok b)⟩

def publish (info : PluginInfo) : Call Unit :=
  ⟨.publish info fun
    | true => .done (.ok ())
    | false => .done (.error (.pluginNotFound info.plugin))⟩

def run (w : World σ) (x : Call α) (s : σ) : Attempt Failure α × σ := x.task.run w s

theorem run_bind (w : World σ) (x : Call α) (f : α → Call β) (s : σ) :
    (x >>= f).run w s =
      match x.run w s with
      | (.ok a, t) => (f a).run w t
      | (.error e, t) => (.error e, t)
      | (.stopped, t) => (.stopped, t) := by
  show (x.task.bind (next f)).run w s = _
  rw [Task.run_bind]
  unfold run
  generalize x.task.run w s = p
  obtain ⟨a, t⟩ := p
  cases a <;> rfl

end Call

end ScmPlugins
