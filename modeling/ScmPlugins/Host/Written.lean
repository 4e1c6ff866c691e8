import ScmPlugins.Attempt
import ScmPlugins.Text.Bytes
import ScmPlugins.Text.Hex

namespace ScmPlugins.Host.Written

inductive Flaw where | malformed
  deriving DecidableEq, Repr

def isSpace (c : Char) : Bool :=
  c == ' ' || c == '\t' || c == '\n' || c == '\x0c' || c == '\r'

def skipSpace (s : List Char) : List Char := s.dropWhile isSpace

theorem skipSpace_le (s : List Char) : (skipSpace s).length ≤ s.length :=
  (List.dropWhile_sublist _).length_le

def untilQuote : List Char → Option (List Char × List Char)
  | [] => none
  | '"' :: r => some ([], r)
  | '\\' :: c :: r => (untilQuote r).map fun (t, rest) => ('\\' :: c :: t, rest)
  | c :: r => (untilQuote r).map fun (t, rest) => (c :: t, rest)

theorem untilQuote_shorter {s t rest} (h : untilQuote s = some (t, rest)) :
    rest.length < s.length := by
  fun_induction untilQuote s generalizing t with
  | case1 => simp at h
  | case2 r => simp at h; simp [h.2]
  | case3 c r ih | case4 c r _ _ ih =>
    obtain ⟨⟨u, v⟩, hu, he⟩ := Option.map_eq_some_iff.1 h
    simp at he
    have := ih (he.2 ▸ hu)
    simp; omega

def escape? : Char → Option Char
  | '"' => some '"'
  | '\\' => some '\\'
  | 'b' => some '\x08'
  | 'f' => some '\x0c'
  | 'n' => some '\n'
  | 'r' => some '\r'
  | 't' => some '\t'
  | _ => none

def isControl (c : Char) : Bool := c != '\t' && (c.toNat < 0x20 || c.toNat == 0x7F)

def unescape (s : List Char) : Option (List Char) :=
  match s with
  | [] => some []
  | '\\' :: 'u' :: r => do
    let c ← Text.codePoint? 4 r
    let cs ← unescape (r.drop 4)
    return c :: cs
  | '\\' :: 'U' :: r => do
    let c ← Text.codePoint? 8 r
    let cs ← unescape (r.drop 8)
    return c :: cs
  | '\\' :: c :: r => do
    let c ← escape? c
    let cs ← unescape r
    return c :: cs
  | c :: r => if isControl c || c == '\\' then none else (unescape r).map (c :: ·)
termination_by s.length

/-- What stands between quotes. Of the text before the first escape as many bytes are kept as it has
characters, and where these end inside a character nothing answers. -/
def content (s : List Char) : Attempt Flaw (List Char) :=
  let plain := s.takeWhile (· != '\\')
  if plain.any isControl then .error .malformed
  else
    match s.dropWhile (· != '\\') with
    | [] => .ok plain
    | escaped =>
      match Text.splitAtByte? plain.length plain, unescape escaped with
      | none, _ => .stopped
      | some _, none => .error .malformed
      | some (kept, _), some cs => .ok (kept ++ cs)

def quoted (s : List Char) : Attempt Flaw (List Char × List Char) :=
  match untilQuote s with
  | none => .error .malformed
  | some (t, rest) => content t >>= fun cs => .ok (cs, rest)

theorem quoted_shorter {s cs rest} (h : quoted s = .ok (cs, rest)) :
    rest.length < s.length := by
  unfold quoted at h
  split at h
  · simp at h
  · rename_i t r hs
    cases ht : content t with
    | ok u => simp [ht] at h; exact h.2 ▸ untilQuote_shorter hs
    | error e => simp [ht] at h
    | stopped => simp [ht] at h

inductive Bracket where
  | square
  | curly
  deriving DecidableEq, Repr

def Bracket.closing : Bracket → Char
  | .square => ']'
  | .curly => '\x7d'

def isSeparator (c : Char) : Bool :=
  c == ',' || c == '[' || c == ']' || c == '\x7b' || c == '\x7d'

def isKeyChar (c : Char) : Bool := c.isAlphanum || c == '_' || c == '-'

def behindQuoted (s : List Char) : Attempt Flaw (List Char) :=
  match quoted s with
  | .ok (_, rest) => .ok rest
  | .error e => .error e
  | .stopped => .stopped

theorem behindQuoted_shorter {s r} (h : behindQuoted s = .ok r) : r.length < s.length := by
  unfold behindQuoted at h
  split at h <;> simp at h
  rename_i h'
  exact h ▸ quoted_shorter h'

def behindScalar : List Char → Attempt Flaw (List Char)
  | 't' :: 'r' :: 'u' :: 'e' :: r => .ok r
  | 'f' :: 'a' :: 'l' :: 's' :: 'e' :: r => .ok r
  | '"' :: r => behindQuoted r
  | '\'' :: _ :: '\'' :: r => .ok r
  | '\'' :: _ => .error .malformed
  | s => .ok (s.dropWhile fun c => !isSeparator c)

theorem behindScalar_le {s r} (h : behindScalar s = .ok r) : r.length ≤ s.length := by
  unfold behindScalar at h
  split at h
  · simp at h; simp [← h]; omega
  · simp at h; simp [← h]; omega
  · have := behindQuoted_shorter h; simp; omega
  · simp at h; simp [← h]; omega
  · simp at h
  · simp at h; exact h ▸ (List.dropWhile_sublist _).length_le

def behindKey : List Char → Attempt Flaw (List Char)
  | '"' :: r => behindQuoted r
  | c :: r => if isKeyChar c then .ok (r.dropWhile isKeyChar) else .error .malformed
  | [] => .error .malformed

theorem behindKey_shorter {s r} (h : behindKey s = .ok r) : r.length < s.length := by
  unfold behindKey at h
  split at h
  · have := behindQuoted_shorter h; simp; omega
  · rename_i c t _
    split at h <;> simp at h
    have := (List.dropWhile_sublist isKeyChar (l := t)).length_le
    rw [h] at this
    simp; omega
  · simp at h

def behindLabel : Bracket → List Char → Attempt Flaw (List Char)
  | .square, s => .ok s
  | .curly, s =>
    match behindKey (skipSpace s) with
    | .error e => .error e
    | .stopped => .stopped
    | .ok r =>
      match skipSpace r with
      | '=' :: t => .ok t
      | _ => .error .malformed

theorem behindLabel_le {b s r} (h : behindLabel b s = .ok r) : r.length ≤ s.length := by
  cases b with
  | square => simp [behindLabel] at h; simp [h]
  | curly =>
    have h₀ := skipSpace_le s
    simp only [behindLabel] at h
    split at h <;> try simp at h
    rename_i t hk
    have h₁ := behindKey_shorter hk
    have h₂ := skipSpace_le t
    split at h <;> simp at h
    rename_i ht
    rw [ht] at h₂
    simp at h₂
    rw [← h]; omega

/-- Every bracket that is open gets closed, and nothing follows the last one. If `due`, then a value
is due; otherwise one has just ended. -/
def close (opened : List Bracket) (due : Bool) (s : List Char) : Attempt Flaw Unit :=
  match opened, due with
  | [], _ => if (skipSpace s).isEmpty then .ok () else .error .malformed
  | b :: outer, true =>
    if s.head? = some b.closing then close outer false s.tail
    else
      match _h : behindLabel b s with
      | .error e => .error e
      | .stopped => .stopped
      | .ok r =>
        match _h' : skipSpace r with
        | '[' :: t => close (.square :: b :: outer) true t
        | '\x7b' :: t => close (.curly :: b :: outer) true t
        | t =>
          match _h'' : behindScalar t with
          | .error e => .error e
          | .stopped => .stopped
          | .ok u => close (b :: outer) false u
  | b :: outer, false =>
    match _h : skipSpace s with
    | [] => .error .malformed
    | c :: r =>
      if c = b.closing then close outer false r
      else if c = ',' then close (b :: outer) true r
      else .error .malformed
termination_by 2 * s.length + due.toNat
decreasing_by
  · have := List.length_tail (l := s)
    simp only [Bool.toNat_true, Bool.toNat_false]; omega
  · have := behindLabel_le _h; have := skipSpace_le r
    rw [_h', List.length_cons] at this; simp only [Bool.toNat_true]; omega
  · have := behindLabel_le _h; have := skipSpace_le r
    rw [_h', List.length_cons] at this; simp only [Bool.toNat_true]; omega
  · have := behindLabel_le _h; have := skipSpace_le r; have := behindScalar_le _h''
    rw [_h'] at *; simp only [Bool.toNat_true, Bool.toNat_false]; omega
  · have := skipSpace_le s
    rw [_h, List.length_cons] at this; simp only [Bool.toNat_false]; omega
  · have := skipSpace_le s
    rw [_h, List.length_cons] at this; simp only [Bool.toNat_true, Bool.toNat_false]; omega

end ScmPlugins.Host.Written
