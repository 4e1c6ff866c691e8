import ScmPlugins.Transport

namespace ScmPlugins.Transport

inductive Cue where
  | respond (operation body : String)
  | respondEmpty (operation : String)
  | fail (operation : String) (e : Error)
  deriving DecidableEq

namespace Cue

def operation : Cue → String
  | respond operation _ => operation
  | respondEmpty operation => operation
  | fail operation _ => operation

def answer : Cue → Answer
  | respond _ body => .ok { body := some body }
  | respondEmpty _ => .ok {}
  | fail _ e => .error e

def queue (operation : String) (cs : List Cue) : List Answer :=
  (cs.filter (·.operation == operation)).map answer

end Cue

def Request.count (operation : String) (rs : List Request) : Nat :=
  rs.countP (·.operation == operation)

namespace Request

theorem count_append (operation : String) (past rs : List Request) :
    count operation (past ++ rs) = count operation past + count operation rs :=
  List.countP_append

theorem count_self (r : Request) : count r.operation [r] = 1 := by simp [count]

theorem count_of_ne {operation : String} {r : Request} (h : r.operation ≠ operation) :
    count operation [r] = 0 := by
  simp [count, h]

end Request

namespace Script

def cue (s : Script) : Cue → Script
  | .respond operation body => s.respond operation body
  | .respondEmpty operation => s.respondEmpty operation
  | .fail operation e => s.fail operation e

def ofCues (cs : List Cue) : Script := cs.foldl cue {}

def submitAll (s : Script) : List Request → List Answer × Script
  | [] => ([], s)
  | r :: rs =>
    let (a, t) := s.submit r
    let (as, u) := t.submitAll rs
    (a :: as, u)

def answersTo (operation : String) (rs : List Request) (as : List Answer) : List Answer :=
  ((rs.zip as).filter (·.1.operation == operation)).map (·.2)

/-- What a queue still holds when it has answered so often. The last answer stays. -/
def left (n : Nat) (queue : List Answer) : List Answer := queue.drop (min n (queue.length - 1))

variable {s t : Script} {operation : String}

section Queues

theorem left_nil (n : Nat) : left n [] = [] := List.drop_nil

theorem left_zero (queue : List Answer) : left 0 queue = queue := by
  rw [left, Nat.zero_min, List.drop_zero]

theorem left_left (m n : Nat) (queue : List Answer) :
    left n (left m queue) = left (m + n) queue := by
  rw [left, left, left, List.drop_drop, List.length_drop]
  congr 1
  omega

theorem exists_head?_left {queue : List Answer} (h : queue ≠ []) (n : Nat) :
    ∃ a, queue[min (n + 1) queue.length - 1]? = some a ∧ (left n queue).head? = some a := by
  have pos := List.length_pos_iff.2 h
  have turn : min (n + 1) queue.length - 1 = min n (queue.length - 1) := by omega
  have bound : min n (queue.length - 1) < queue.length := by omega
  refine ⟨queue.get ⟨_, bound⟩, ?_, ?_⟩
  · rw [turn, List.getElem?_eq_getElem bound]
    rfl
  · rw [left, List.head?_drop, List.getElem?_eq_getElem bound]
    rfl

theorem cue_eq (s : Script) (c : Cue) : s.cue c = s.push c.operation c.answer := by
  cases c <;> rfl

theorem answers_foldl_cue (s : Script) (cs : List Cue) (operation : String) :
    (cs.foldl cue s).answers operation = s.answers operation ++ Cue.queue operation cs := by
  induction cs generalizing s with
  | nil => simp [Cue.queue]
  | cons c cs ih =>
    rw [List.foldl_cons, ih, cue_eq, push]
    by_cases here : c.operation = operation
    · simp [Cue.queue, here]
    · simp [Cue.queue, here, Ne.symm here]

theorem sent_foldl_cue (s : Script) (cs : List Cue) : (cs.foldl cue s).sent = s.sent := by
  induction cs generalizing s with
  | nil => rfl
  | cons c cs ih =>
    rw [List.foldl_cons, ih, cue_eq]
    rfl

theorem answers_ofCues (cs : List Cue) (operation : String) :
    (ofCues cs).answers operation = Cue.queue operation cs :=
  answers_foldl_cue {} cs operation

end Queues

section Steps

theorem fst_submit (s : Script) (r : Request) :
    (s.submit r).1 = (s.answers r.operation).head?.getD (silent r) :=
  rfl

theorem answers_submit (s : Script) (r : Request) (operation : String) :
    (s.submit r).2.answers operation =
      left (Request.count operation [r]) (s.answers operation) := by
  by_cases here : r.operation = operation
  · subst here
    rw [Request.count_self, left]
    by_cases several : 1 < (s.answers r.operation).length
    · simp only [submit, several, and_self, if_true, ← List.drop_one]
      congr 1
      omega
    · have kept : min 1 ((s.answers r.operation).length - 1) = 0 := by omega
      simp [submit, several, kept]
  · rw [Request.count_of_ne here, left_zero]
    simp [submit, Ne.symm here]

end Steps

section Runs

theorem submitAll_cons (s : Script) (r : Request) (rs : List Request) :
    s.submitAll (r :: rs) =
      ((s.submit r).1 :: ((s.submit r).2.submitAll rs).1, ((s.submit r).2.submitAll rs).2) :=
  rfl

theorem length_submitAll (s : Script) (rs : List Request) :
    (s.submitAll rs).1.length = rs.length := by
  induction rs generalizing s with
  | nil => rfl
  | cons r rs ih => rw [submitAll_cons, List.length_cons, ih, List.length_cons]

theorem sent_submitAll (s : Script) (rs : List Request) :
    (s.submitAll rs).2.sent = s.sent ++ rs := by
  induction rs generalizing s with
  | nil => simp [submitAll]
  | cons r rs ih =>
    rw [submitAll_cons, ih]
    simp [submit]

theorem answers_submitAll (s : Script) (rs : List Request) (operation : String) :
    (s.submitAll rs).2.answers operation =
      left (Request.count operation rs) (s.answers operation) := by
  induction rs generalizing s with
  | nil => exact (left_zero _).symm
  | cons r rs ih =>
    rw [submitAll_cons, ih, answers_submit, left_left, ← Request.count_append,
      List.singleton_append]

theorem submitAll_append (s : Script) (past rs : List Request) :
    (s.submitAll (past ++ rs)).1 =
      (s.submitAll past).1 ++ ((s.submitAll past).2.submitAll rs).1 := by
  induction past generalizing s with
  | nil => rfl
  | cons r past ih => rw [List.cons_append, submitAll_cons, ih, submitAll_cons, List.cons_append]

theorem getElem?_submitAll (s : Script) (past : List Request) (r : Request) (rest : List Request) :
    (s.submitAll (past ++ r :: rest)).1[past.length]? =
      some ((left (Request.count r.operation past) (s.answers r.operation)).head?.getD
        (silent r)) := by
  rw [submitAll_append, ← length_submitAll s past, List.getElem?_append_right (Nat.le_refl _),
    Nat.sub_self, submitAll_cons, List.getElem?_cons_zero, fst_submit, answers_submitAll]

theorem answersTo_submitAll (same : s.answers operation = t.answers operation)
    (rs : List Request) :
    answersTo operation rs (s.submitAll rs).1 =
      (t.submitAll (rs.filter (·.operation == operation))).1 := by
  induction rs generalizing s t with
  | nil => rfl
  | cons r rs ih =>
    rw [submitAll_cons, answersTo, List.zip_cons_cons]
    by_cases here : r.operation = operation
    · subst here
      have next : (s.submit r).2.answers r.operation = (t.submit r).2.answers r.operation := by
        rw [answers_submit, answers_submit, same]
      rw [List.filter_cons_of_pos (by simp), List.filter_cons_of_pos (by simp), List.map_cons,
        submitAll_cons, ← ih next, fst_submit, fst_submit, same]
      rfl
    · have next : (s.submit r).2.answers operation = t.answers operation := by
        rw [answers_submit, Request.count_of_ne here, left_zero, same]
      rw [List.filter_cons_of_neg (by simpa using here),
        List.filter_cons_of_neg (by simpa using here), ← ih next]
      rfl

end Runs

/-- Of the answers queued for an operation the `n`-th request for it receives the `n`-th, or the
last if there are no more; where none is queued, every request fails in the name of its plugin. The
answers to one operation are those that its requests would receive by themselves, and all requests
are recorded in their order. -/
theorem answers_played_back (cs : List Cue) (rs : List Request) :
    let played := (ofCues cs).submitAll rs
    played.1.length = rs.length ∧
      (∀ past r rest, rs = past ++ r :: rest →
        let n := Request.count r.operation (past ++ [r])
        let queue := Cue.queue r.operation cs
        (queue = [] → played.1[past.length]? = some (.error (.failed r.plugin
          ("no scripted reply for '" ++ r.operation ++ "'")))) ∧
        (queue ≠ [] → ∃ a, queue[min n queue.length - 1]? = some a ∧
          played.1[past.length]? = some a)) ∧
      (∀ operation, answersTo operation rs played.1 =
        ((ofCues cs).submitAll (rs.filter (·.operation == operation))).1) ∧
      played.2.sent = rs ∧
      ∀ operation, played.2.sentFor operation = rs.filter (·.operation == operation) := by
  intro played
  have sent : played.2.sent = rs := by
    rw [sent_submitAll, ofCues, sent_foldl_cue]
    rfl
  refine ⟨length_submitAll _ rs, ?_, fun _ => answersTo_submitAll rfl rs, sent, ?_⟩
  · rintro past r rest rfl n queue
    have answer : played.1[past.length]? = some _ := getElem?_submitAll (ofCues cs) past r rest
    rw [answers_ofCues] at answer
    constructor
    · intro empty
      rw [answer, show Cue.queue r.operation cs = [] from empty, left_nil]
      rfl
    · intro nonempty
      obtain ⟨a, found, head⟩ := exists_head?_left nonempty (Request.count r.operation past)
      have turn : n = Request.count r.operation past + 1 := by
        rw [← Request.count_self r, ← Request.count_append]
      rw [answer, head, turn]
      exact ⟨a, found, rfl⟩
  · intro operation
    rw [sentFor, sent]

theorem answers_played_back_interleaved :
    let ask (plugin operation : String) : Request :=
      { plugin, extension := "scm", version := ⟨2, 0⟩, operation, body := none }
    let cs : List Cue := [.respond "scm-view" "first", .fail "checkout" (.unavailable "git"),
      .respondEmpty "scm-view"]
    let rs := [ask "git" "scm-view", ask "git" "checkout", ask "hg" "scm-view",
      ask "git" "checkout", ask "git" "scm-view", ask "svn" "should-update"]
    let played := (ofCues cs).submitAll rs
    rs = [ask "git" "scm-view", ask "git" "checkout", ask "hg" "scm-view",
        ask "git" "checkout"] ++ ask "git" "scm-view" :: [ask "svn" "should-update"] ∧
      Cue.queue "scm-view" cs ≠ [] ∧ played.1[4]? = some (.ok {}) ∧
      Cue.queue "should-update" cs = [] ∧ played.1[5]? =
        some (.error (.failed "svn" "no scripted reply for 'should-update'")) ∧
      played.2.sentFor "checkout" = [ask "git" "checkout", ask "git" "checkout"] := by
  intro ask cs rs played
  obtain ⟨-, answered, -, -, recorded⟩ := answers_played_back cs rs
  have nonempty : Cue.queue "scm-view" cs ≠ [] := by decide
  have empty : Cue.queue "should-update" cs = [] := by decide
  obtain ⟨a, last, third⟩ :=
    (answered (rs.take 4) (ask "git" "scm-view") (rs.drop 5) rfl).2 nonempty
  obtain rfl : Except.ok {} = a := Option.some.inj last
  have failed := (answered (rs.take 5) (ask "svn" "should-update") [] rfl).1 empty
  exact ⟨rfl, nonempty, third, empty, failed, recorded "checkout"⟩

end Script

end ScmPlugins.Transport
