import ScmPlugins.Json.Reader

namespace ScmPlugins.Json

inductive Frame where | list | map
  deriving DecidableEq, Repr

def skipScalar (s : List Char) : Except Fault (List Char) :=
  match s with
  | [] => .error (.ended .value)
  | c :: r =>
    if c = 'n' then word ['u', 'l', 'l'] r
    else if c = 't' then word ['r', 'u', 'e'] r
    else if c = 'f' then word ['a', 'l', 's', 'e'] r
    else if c = '"' then skipString r
    else if c = '-' ∨ c.isDigit then (Literal.scan .invalidNumber (c :: r)).map (·.2)
    else .error .expectedValue

theorem skipScalar_shorter {s r} (h : skipScalar s = .ok r) : r.length < s.length := by
  unfold skipScalar at h
  split at h
  · simp at h
  · split at h
    · have := word_le h; simp; omega
    · split at h
      · have := word_le h; simp; omega
      · split at h
        · have := word_le h; simp; omega
        · split at h
          · have := skipString_shorter h; simp; omega
          · split at h
            · rename_i c t _ _ _ _ _
              cases h' : Literal.scan .invalidNumber (c :: t) with
              | error f => simp [h', Except.map] at h
              | ok p =>
                have := Literal.scan_shorter (l := p.1) (r := p.2) h'
                simp [h', Except.map] at h; rw [← h]; exact this
            · simp at h

def skipKey (s : List Char) : Except Fault (List Char) :=
  match skipSpace s with
  | [] => .error (.ended .object)
  | '"' :: r =>
    match skipString r with
    | .error f => .error f
    | .ok r => colon r
  | _ => .error .keyMustBeString

theorem skipKey_shorter {s r} (h : skipKey s = .ok r) : r.length < s.length := by
  have h₀ := skipSpace_le s
  unfold skipKey at h
  split at h
  · simp at h
  · split at h
    · simp at h
    · rename_i hs _ _ h'
      have := skipString_shorter h'
      have := colon_shorter h
      simp [hs] at h₀; omega
  · simp at h

inductive Stage where | value | rest
  deriving DecidableEq, Repr

def skipValue (frames : List Frame) (s : List Char) :
    Except Fault (Stage × List Frame × List Char) :=
  match skipSpace s with
  | '[' :: r =>
    match skipSpace r with
    | [] => .error (.ended .list)
    | ']' :: t => .ok (.rest, frames, t)
    | t => .ok (.value, .list :: frames, t)
  | '\x7b' :: r =>
    match skipSpace r with
    | '\x7d' :: t => .ok (.rest, frames, t)
    | t => (skipKey t).map (.value, .map :: frames, ·)
  | s => (skipScalar s).map (.rest, frames, ·)

def skipRest (frame : Frame) (frames : List Frame) (s : List Char) :
    Except Fault (Stage × List Frame × List Char) :=
  match frame, skipSpace s with
  | .list, [] => .error (.ended .list)
  | .list, ']' :: t => .ok (.rest, frames, t)
  | .list, ',' :: t => .ok (.value, .list :: frames, t)
  | .list, _ => .error .expectedCommaOrBracket
  | .map, [] => .error (.ended .object)
  | .map, '\x7d' :: t => .ok (.rest, frames, t)
  | .map, ',' :: t => (skipKey t).map (.value, .map :: frames, ·)
  | .map, _ => .error .expectedCommaOrBrace

theorem map_skipKey_shorter {t : List Char} {stage : Stage} {frames : List Frame} {p}
    (h : (skipKey t).map (stage, frames, ·) = .ok p) : p.2.2.length < t.length := by
  cases h' : skipKey t with
  | error f => simp [h', Except.map] at h
  | ok u => have := skipKey_shorter h'; simp [h', Except.map] at h; rw [← h]; exact this

theorem skipValue_shorter {frames s p} (h : skipValue frames s = .ok p) :
    p.2.2.length < s.length := by
  have h₀ := skipSpace_le s
  unfold skipValue at h
  split at h
  · rename_i t hs
    have h₁ := skipSpace_le t
    rw [hs] at h₀
    split at h
    · simp at h
    · rename_i hs'; simp at h; simp [hs', ← h] at h₀ h₁ ⊢; omega
    · simp at h; simp [← h] at h₀ h₁ ⊢; omega
  · rename_i t hs
    have h₁ := skipSpace_le t
    rw [hs] at h₀
    split at h
    · rename_i hs'; simp at h; simp [hs', ← h] at h₀ h₁ ⊢; omega
    · have := map_skipKey_shorter h; simp at h₀; omega
  · cases h' : skipScalar (skipSpace s) with
    | error f => simp [h', Except.map] at h
    | ok u =>
      have := skipScalar_shorter h'
      simp [h', Except.map] at h; rw [← h]; simp; omega

theorem skipRest_shorter {frame frames s p} (h : skipRest frame frames s = .ok p) :
    p.2.2.length < s.length := by
  have h₀ := skipSpace_le s
  unfold skipRest at h
  split at h <;> rename_i hs
  case h_7 => have := map_skipKey_shorter h; simp [hs] at h₀; omega
  all_goals simp at h
  all_goals simp [hs, ← h] at h₀ ⊢; omega

def skipFrom (stage : Stage) (frames : List Frame) (s : List Char) : Except Fault (List Char) :=
  match stage, frames with
  | .value, frames =>
    match _h : skipValue frames s with
    | .error f => .error f
    | .ok (stage, frames, r) => skipFrom stage frames r
  | .rest, [] => .ok s
  | .rest, frame :: frames =>
    match _h : skipRest frame frames s with
    | .error f => .error f
    | .ok (stage, frames, r) => skipFrom stage frames r
termination_by s.length
decreasing_by
  · exact skipValue_shorter ‹_›
  · exact skipRest_shorter ‹_›

def skip (s : List Char) : Except Fault (List Char) := skipFrom .value [] s

theorem skipFrom_le {stage frames s r} (h : skipFrom stage frames s = .ok r) :
    r.length ≤ s.length := by
  fun_induction skipFrom stage frames s with
  | case1 | case4 => simp at h
  | case2 s _ _ _ _ h' ih => have := ih h; have := skipValue_shorter h'; simp at *; omega
  | case3 => simp_all
  | case5 s _ _ _ _ _ h' ih => have := ih h; have := skipRest_shorter h'; simp at *; omega

theorem skip_shorter {s r} (h : skip s = .ok r) : r.length < s.length := by
  unfold skip skipFrom at h
  split at h
  · simp at h
  · rename_i h'; have := skipFrom_le h; have := skipValue_shorter h'; simp at *; omega

end ScmPlugins.Json
