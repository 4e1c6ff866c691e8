import ScmPlugins.Json.Text
import ScmPlugins.Json.Literal

/-!
Reading a JSON text into a document. A `Reader` consumes something whenever it succeeds, which is
why the loops over items and members end. Lists and maps may stand 127 deep inside one another.
-/

namespace ScmPlugins.Json

structure Reader (ε α : Type) where
  run : List Char → Except ε (α × List Char)
  shorter : ∀ {s a r}, run s = .ok (a, r) → r.length < s.length

def isSpace (c : Char) : Bool := c == ' ' || c == '\n' || c == '\r' || c == '\t'

def skipSpace (s : List Char) : List Char := s.dropWhile isSpace

inductive Next where
  | last (rest : List Char)
  | more (rest : List Char)
  deriving DecidableEq, Repr

def Next.rest : Next → List Char
  | .last r => r
  | .more r => r

def nextItem (first : Bool) (s : List Char) : Except Fault Next :=
  match skipSpace s with
  | [] => .error (.ended .list)
  | ']' :: r => .ok (.last r)
  | c :: r =>
    if first then .ok (.more (c :: r))
    else if c = ',' then
      match skipSpace r with
      | [] => .error (.ended .value)
      | ']' :: _ => .error .trailingComma
      | t => .ok (.more t)
    else .error .expectedCommaOrBracket

def nextMember (first : Bool) (s : List Char) : Except Fault Next :=
  match skipSpace s with
  | [] => .error (.ended .object)
  | '\x7d' :: r => .ok (.last r)
  | c :: r =>
    if first then if c = '"' then .ok (.more r) else .error .keyMustBeString
    else if c = ',' then
      match skipSpace r with
      | [] => .error (.ended .value)
      | '"' :: t => .ok (.more t)
      | '\x7d' :: _ => .error .trailingComma
      | _ => .error .keyMustBeString
    else .error .expectedCommaOrBrace

def colon (s : List Char) : Except Fault (List Char) :=
  match skipSpace s with
  | [] => .error (.ended .object)
  | ':' :: r => .ok r
  | _ => .error .expectedColon

theorem skipSpace_le (s : List Char) : (skipSpace s).length ≤ s.length :=
  (List.dropWhile_sublist _).length_le

theorem nextItem_le {first s n} (h : nextItem first s = .ok n) :
    n.rest.length ≤ s.length ∧ (∀ r, n = .last r → r.length < s.length) := by
  have h₀ := skipSpace_le s
  unfold nextItem at h
  split at h
  · simp at h
  · rename_i r hs
    rw [hs] at h₀
    simp at h h₀; subst h; simp [Next.rest]; omega
  · rename_i c r _ hs
    rw [hs] at h₀
    split at h
    · simp at h; subst h; simpa [Next.rest] using h₀
    · split at h
      · have h₁ := skipSpace_le r
        split at h <;> simp at h
        subst h; simp [Next.rest] at h₀ ⊢; omega
      · simp at h

theorem nextMember_shorter {first s n} (h : nextMember first s = .ok n) :
    n.rest.length < s.length := by
  have h₀ := skipSpace_le s
  unfold nextMember at h
  split at h
  · simp at h
  · rename_i r hs
    rw [hs] at h₀
    simp at h h₀; subst h; simp [Next.rest]; omega
  · rename_i c r _ hs
    rw [hs] at h₀
    split at h
    · split at h <;> simp at h
      subst h; simp [Next.rest] at h₀ ⊢; omega
    · split at h
      · have h₁ := skipSpace_le r
        split at h <;> simp at h
        rename_i ht
        rw [ht] at h₁
        subst h; simp [Next.rest] at h₀ h₁ ⊢; omega
      · simp at h

theorem colon_shorter {s r} (h : colon s = .ok r) : r.length < s.length := by
  have h₀ := skipSpace_le s
  unfold colon at h
  split at h <;> simp at h
  rename_i hs
  rw [hs] at h₀
  simp [h] at h₀; omega

def items {ε α : Type} (lift : Fault → ε) (item : Reader ε α) (first : Bool) (s : List Char) :
    Except ε (List α × List Char) :=
  match _h : nextItem first s with
  | .error f => .error (lift f)
  | .ok (.last r) => .ok ([], r)
  | .ok (.more r) =>
    match _h' : item.run r with
    | .error e => .error e
    | .ok (a, t) =>
      match items lift item false t with
      | .error e => .error e
      | .ok (as, rest) => .ok (a :: as, rest)
termination_by s.length
decreasing_by
  have := (nextItem_le ‹_›).1; have := item.shorter ‹_›; simp only [Next.rest] at *; omega

def members {ε α : Type} (lift : Fault → ε) (item : Reader ε α) (first : Bool) (s : List Char) :
    Except ε (List (String × α) × List Char) :=
  match _h : nextMember first s with
  | .error f => .error (lift f)
  | .ok (.last r) => .ok ([], r)
  | .ok (.more r) =>
    match _h₁ : string r with
    | .error f => .error (lift f)
    | .ok (key, r) =>
      match _h₂ : colon r with
      | .error f => .error (lift f)
      | .ok r =>
        match _h₃ : item.run r with
        | .error e => .error e
        | .ok (a, t) =>
          match members lift item false t with
          | .error e => .error e
          | .ok (as, rest) => .ok ((String.ofList key, a) :: as, rest)
termination_by s.length
decreasing_by
  have := nextMember_shorter ‹_›; have := string_shorter ‹_›; have := colon_shorter ‹_›
  have := item.shorter ‹_›; simp only [Next.rest] at *; omega

theorem items_shorter {ε α : Type} {lift : Fault → ε} {item : Reader ε α} {first s as r}
    (h : items lift item first s = .ok (as, r)) : r.length < s.length := by
  fun_induction items lift item first s generalizing as with
  | case1 | case3 | case4 => simp at h
  | case2 first s t ht => simp at h; exact h.2 ▸ (nextItem_le ht).2 t rfl
  | case5 first s r' ht a t h' as' rest h'' ih =>
    simp at h
    obtain ⟨-, rfl⟩ := h
    have := ih h''
    have := (nextItem_le ht).1
    have := item.shorter h'
    simp only [Next.rest] at *; omega

theorem members_shorter {ε α : Type} {lift : Fault → ε} {item : Reader ε α} {first s as r}
    (h : members lift item first s = .ok (as, r)) : r.length < s.length := by
  fun_induction members lift item first s generalizing as with
  | case1 | case3 | case4 | case5 | case6 => simp at h
  | case2 first s t ht => simp at h; exact h.2 ▸ nextMember_shorter ht
  | case7 first s r' ht key r₁ hk r₂ hc a t h' as' rest h'' ih =>
    simp at h
    obtain ⟨-, rfl⟩ := h
    have := ih h''
    have := nextMember_shorter ht
    have := string_shorter hk
    have := colon_shorter hc
    have := item.shorter h'
    simp only [Next.rest] at *; omega

def word : List Char → List Char → Except Fault (List Char)
  | [], s => .ok s
  | _ :: _, [] => .error (.ended .value)
  | c :: w, d :: s => if c = d then word w s else .error .expectedIdent

theorem word_le {w s r} (h : word w s = .ok r) : r.length ≤ s.length := by
  fun_induction word w s with
  | case1 => simp_all
  | case2 | case4 => simp at h
  | case3 c w s ih => have := ih h; simp; omega

def number (s : List Char) : Except Fault (Json × List Char) :=
  match Literal.scan (.ended .value) s with
  | .error f => .error f
  | .ok (l, r) =>
    match l.value with
    | .error f => .error f
    | .ok j => .ok (j, r)

def scalar (s : List Char) : Except Fault (Json × List Char) :=
  match s with
  | [] => .error (.ended .value)
  | c :: r =>
    if c = 'n' then (word ['u', 'l', 'l'] r).map (.null, ·)
    else if c = 't' then (word ['r', 'u', 'e'] r).map (.bool true, ·)
    else if c = 'f' then (word ['a', 'l', 's', 'e'] r).map (.bool false, ·)
    else if c = '"' then (string r).map fun (cs, t) => (.str (String.ofList cs), t)
    else if c = '-' ∨ c.isDigit then number (c :: r)
    else .error .expectedValue

theorem number_shorter {s j r} (h : number s = .ok (j, r)) : r.length < s.length := by
  unfold number at h; split at h
  · simp at h
  · split at h <;> simp at h
    exact h.2 ▸ Literal.scan_shorter ‹_›

theorem scalar_shorter {s j r} (h : scalar s = .ok (j, r)) : r.length < s.length := by
  have word_lt {w t p j c} (h : (word w t).map ((j : Json), ·) = .ok p) :
      p.2.length < (c :: t : List Char).length := by
    cases h' : word w t with
    | error f => simp [h', Except.map] at h
    | ok r => have := word_le h'; simp [h', Except.map] at h; simp [← h]; omega
  unfold scalar at h
  split at h
  · simp at h
  · split at h
    · exact word_lt h
    · split at h
      · exact word_lt h
      · split at h
        · exact word_lt h
        · split at h
          · rename_i t _ _ _ _
            cases h' : string t with
            | error f => simp [h', Except.map] at h
            | ok p =>
              obtain ⟨cs, rest⟩ := p
              have := string_shorter h'
              simp [h', Except.map] at h; simp [← h]; omega
          · split at h
            · exact number_shorter h
            · simp at h

/-- A value whose lists and maps hold what `inner` reads; without it they stand too deep. -/
def node (inner : Option (Reader Fault Json)) (s : List Char) : Except Fault (Json × List Char) :=
  match skipSpace s, inner with
  | '[' :: _, none | '\x7b' :: _, none => .error .tooDeep
  | '[' :: r, some item =>
    match items id item true r with
    | .error f => .error f
    | .ok (js, t) => .ok (.list js, t)
  | '\x7b' :: r, some item =>
    match members id item true r with
    | .error f => .error f
    | .ok (js, t) => .ok (.map js, t)
  | s, _ => scalar s

theorem node_shorter {inner s j r} (h : node inner s = .ok (j, r)) : r.length < s.length := by
  have h₀ := skipSpace_le s
  unfold node at h
  split at h
  · simp at h
  · simp at h
  · rename_i hs
    split at h <;> simp at h
    rename_i h'
    have := items_shorter h'
    simp [hs] at h₀; rw [← h.2]; omega
  · rename_i hs
    split at h <;> simp at h
    rename_i h'
    have := members_shorter h'
    simp [hs] at h₀; rw [← h.2]; omega
  · have := scalar_shorter h; omega

def value : (depth : Nat) → Reader Fault Json
  | 0 => ⟨node none, node_shorter⟩
  | depth + 1 => ⟨node (some (value depth)), node_shorter⟩

def maxDepth : Nat := 127

def finish (s : List Char) : Except Fault Unit :=
  if (skipSpace s).isEmpty then .ok () else .error .trailingCharacters

def parseChars (s : List Char) : Except Fault Json :=
  match (value maxDepth).run s with
  | .error f => .error f
  | .ok (j, r) => (finish r).map fun _ => j

def parse (s : String) : Except Fault Json := parseChars s.toList

end ScmPlugins.Json
