import ScmPlugins.Client.Call

namespace ScmPlugins

variable {α β σ : Type} {w : World σ}

namespace Task

def requests (w : World σ) : Task α → σ → List Transport.Request
  | .done _, _ => []
  | .note e next, s => next.requests w (w.note e s)
  | .declared plugin next, s => (next (w.declared plugin s)).requests w s
  | .submit r next, s => r :: (next (w.submit r s).1).requests w (w.submit r s).2
  | .supports plugin provider event next, s =>
    (next (w.supports plugin provider event s)).requests w s
  | .publish info next, s => (next (w.publish info s).1).requests w (w.publish info s).2

theorem requests_bind (w : World σ) (x : Task α) (f : α → Task β) (s : σ) :
    (x.bind f).requests w s =
      x.requests w s ++ (f (x.run w s).1).requests w (x.run w s).2 := by
  induction x generalizing s with
  | done a => rfl
  | note e next ih => exact ih _
  | declared plugin next ih => exact ih _ _
  | submit r next ih => exact congrArg (r :: ·) (ih _ _)
  | supports plugin provider event next ih => exact ih _ _
  | publish info next ih => exact ih _ _

def exchanges (w : World σ) : Task α → σ → List (Transport.Request × Transport.Answer)
  | .done _, _ => []
  | .note e next, s => next.exchanges w (w.note e s)
  | .declared plugin next, s => (next (w.declared plugin s)).exchanges w s
  | .submit r next, s =>
    (r, (w.submit r s).1) :: (next (w.submit r s).1).exchanges w (w.submit r s).2
  | .supports plugin provider event next, s =>
    (next (w.supports plugin provider event s)).exchanges w s
  | .publish info next, s => (next (w.publish info s).1).exchanges w (w.publish info s).2

theorem exchanges_bind (w : World σ) (x : Task α) (f : α → Task β) (s : σ) :
    (x.bind f).exchanges w s =
      x.exchanges w s ++ (f (x.run w s).1).exchanges w (x.run w s).2 := by
  induction x generalizing s with
  | done a => rfl
  | note e next ih => exact ih _
  | declared plugin next ih => exact ih _ _
  | submit r next ih => exact congrArg (_ :: ·) (ih _ _)
  | supports plugin provider event next ih => exact ih _ _
  | publish info next ih => exact ih _ _

theorem map_fst_exchanges (w : World σ) (x : Task α) (s : σ) :
    (x.exchanges w s).map (·.1) = x.requests w s := by
  induction x generalizing s with
  | done a => rfl
  | note e next ih => exact ih _
  | declared plugin next ih => exact ih _ _
  | submit r next ih => exact congrArg (r :: ·) (ih _ _)
  | supports plugin provider event next ih => exact ih _ _
  | publish info next ih => exact ih _ _

end Task

namespace Call

def requests (w : World σ) (x : Call α) (s : σ) : List Transport.Request := x.task.requests w s

def exchanges (w : World σ) (x : Call α) (s : σ) : List (Transport.Request × Transport.Answer) :=
  x.task.exchanges w s

/-- From `s` the call sends `rs`, comes to `a` and leaves `t`. -/
structure Yields (w : World σ) (x : Call α) (s : σ) (rs : List Transport.Request)
    (a : Attempt Failure α) (t : σ) : Prop where
  requests : x.requests w s = rs
  run : x.run w s = (a, t)

variable {x : Call α} {f : α → Call β} {s t u : σ} {rs rs' : List Transport.Request}

theorem requests_bind (w : World σ) (x : Call α) (f : α → Call β) (s : σ) :
    (x >>= f).requests w s =
      x.requests w s ++ (next f (x.run w s).1).requests w (x.run w s).2 :=
  Task.requests_bind w x.task (next f) s

namespace Yields

theorem bind {a : α} {b : Attempt Failure β} (hx : x.Yields w s rs (.ok a) t)
    (hf : (f a).Yields w t rs' b u) : (x >>= f).Yields w s (rs ++ rs') b u where
  requests := by
    rw [requests_bind, hx.requests, hx.run]
    exact congrArg (rs ++ ·) hf.requests
  run := by
    rw [run_bind, hx.run]
    exact hf.run

theorem bind_quiet {a : α} {b : Attempt Failure β} (hx : x.Yields w s rs (.ok a) t)
    (hf : (f a).Yields w t [] b u) : (x >>= f).Yields w s rs b u := by
  have h := hx.bind hf
  rwa [List.append_nil] at h

theorem bind_error {e : Failure} (hx : x.Yields w s rs (.error e) t) :
    (x >>= f).Yields w s rs (.error e) t where
  requests := by
    rw [requests_bind, hx.requests, hx.run]
    exact List.append_nil rs
  run := by rw [run_bind, hx.run]

theorem bind_stopped (hx : x.Yields w s rs .stopped t) :
    (x >>= f).Yields w s rs .stopped t where
  requests := by
    rw [requests_bind, hx.requests, hx.run]
    exact List.append_nil rs
  run := by rw [run_bind, hx.run]

end Yields

theorem yields_ofAttempt (w : World σ) (a : Attempt Failure α) (s : σ) :
    (ofAttempt a).Yields w s [] a s := ⟨rfl, rfl⟩

theorem yields_fail (w : World σ) (e : Failure) (s : σ) :
    (fail e : Call α).Yields w s [] (.error e) s := ⟨rfl, rfl⟩

theorem yields_pure (w : World σ) (a : α) (s : σ) :
    (pure a : Call α).Yields w s [] (.ok a) s := ⟨rfl, rfl⟩

theorem yields_note (w : World σ) (e : Event) (s : σ) :
    (note e).Yields w s [] (.ok ()) (w.note e s) := ⟨rfl, rfl⟩

theorem yields_declared (w : World σ) (plugin : String) (s : σ) :
    (declared plugin).Yields w s [] (.ok (w.declared plugin s)) s := ⟨rfl, rfl⟩

theorem yields_supports (w : World σ) (plugin provider event : String) (s : σ) :
    (supports plugin provider event).Yields w s [] (.ok (w.supports plugin provider event s)) s :=
  ⟨rfl, rfl⟩

theorem yields_submit_ok {r : Transport.Request} {reply : Transport.Reply}
    (h : w.submit r s = (.ok reply, t)) : (submit r).Yields w s [r] (.ok reply) t := by
  constructor <;> simp [Call.requests, Call.run, submit, Task.requests, Task.run, h]

theorem yields_submit_error {r : Transport.Request} {e : Transport.Error}
    (h : w.submit r s = (.error e, t)) : (submit r).Yields w s [r] (.error (.transport e)) t := by
  constructor <;> simp [Call.requests, Call.run, submit, Task.requests, Task.run, h]

section Exchanges

theorem exchanges_bind (w : World σ) (x : Call α) (f : α → Call β) (s : σ) :
    (x >>= f).exchanges w s =
      x.exchanges w s ++ (next f (x.run w s).1).exchanges w (x.run w s).2 :=
  Task.exchanges_bind w x.task (next f) s

theorem Yields.exchanges_eq_nil {a : Attempt Failure α} (h : x.Yields w s [] a t) :
    x.exchanges w s = [] := by
  have none : (x.exchanges w s).map (·.1) = [] :=
    (Task.map_fst_exchanges w x.task s).trans h.requests
  exact List.map_eq_nil_iff.1 none

theorem Yields.exchanges_bind {a : α} (h : x.Yields w s [] (.ok a) t) :
    (x >>= f).exchanges w s = (f a).exchanges w t := by
  rw [Call.exchanges_bind, h.exchanges_eq_nil, h.run]
  rfl

@[simp] theorem exchanges_note_bind (e : Event) (f : Unit → Call α) :
    (note e >>= f).exchanges w s = (f ()).exchanges w (w.note e s) := rfl

@[simp] theorem run_note_bind (e : Event) (f : Unit → Call α) :
    (note e >>= f).run w s = (f ()).run w (w.note e s) := rfl

theorem exchanges_bind_quiet (quiet : ∀ a t, (f a).exchanges w t = []) :
    (x >>= f).exchanges w s = x.exchanges w s := by
  rw [exchanges_bind]
  cases (x.run w s).1 with
  | ok a => rw [next, ← exchanges, quiet, List.append_nil]
  | error e => exact List.append_nil _
  | stopped => exact List.append_nil _

@[simp] theorem exchanges_bind_pure (f : α → β) :
    (x >>= fun a => pure (f a)).exchanges w s = x.exchanges w s :=
  exchanges_bind_quiet fun _ _ => rfl

@[simp] theorem fst_run_bind_pure (f : α → β) :
    ((x >>= fun a => pure (f a)).run w s).1 = f <$> (x.run w s).1 := by
  rw [run_bind]
  rcases x.run w s with ⟨a, t⟩
  cases a <;> rfl

end Exchanges

end Call

end ScmPlugins
