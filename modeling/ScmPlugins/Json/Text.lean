import ScmPlugins.Json.Fault
import ScmPlugins.Text.Hex

namespace ScmPlugins.Json

open Text (hexDigit?)

/-- The unit of a `\u` escape. Four bytes have to follow before their form is looked at. -/
def hexUnit : List Char → Except Fault (Nat × List Char)
  | a :: b :: c :: d :: r =>
    match hexDigit? a, hexDigit? b, hexDigit? c, hexDigit? d with
    | some a, some b, some c, some d => .ok (((a * 16 + b) * 16 + c) * 16 + d, r)
    | _, _, _, _ => .error .invalidEscape
  | s => .error (if (String.ofList s).utf8ByteSize < 4 then .ended .string else .invalidEscape)

def lowSurrogate : List Char → Except Fault (Nat × List Char)
  | [] => .error (.ended .string)
  | ['\\'] => .error (.ended .string)
  | '\\' :: 'u' :: r =>
    match hexUnit r with
    | .error f => .error f
    | .ok (n, r) =>
      if 0xDC00 ≤ n ∧ n ≤ 0xDFFF then .ok (n, r) else .error .loneSurrogate
  | _ => .error .unexpectedEndOfEscape

def hexChar (s : List Char) : Except Fault (Char × List Char) :=
  match hexUnit s with
  | .error f => .error f
  | .ok (n, r) =>
    if 0xDC00 ≤ n ∧ n ≤ 0xDFFF then .error .loneSurrogate
    else if 0xD800 ≤ n ∧ n ≤ 0xDBFF then
      match lowSurrogate r with
      | .error f => .error f
      | .ok (m, r) => .ok (Char.ofNat ((n - 0xD800) * 0x400 + (m - 0xDC00) + 0x10000), r)
    else .ok (Char.ofNat n, r)

def escaped? : Char → Option Char
  | '"' => some '"'
  | '\\' => some '\\'
  | '/' => some '/'
  | 'b' => some '\x08'
  | 'f' => some '\x0c'
  | 'n' => some '\n'
  | 'r' => some '\r'
  | 't' => some '\t'
  | _ => none

def escape : List Char → Except Fault (Char × List Char)
  | [] => .error (.ended .string)
  | 'u' :: r => hexChar r
  | c :: r =>
    match escaped? c with
    | some e => .ok (e, r)
    | none => .error .invalidEscape

def skipEscape : List Char → Except Fault (List Char)
  | [] => .error (.ended .string)
  | 'u' :: r => (hexUnit r).map (·.2)
  | c :: r => if (escaped? c).isSome then .ok r else .error .invalidEscape

theorem hexUnit_shorter {s n r} (h : hexUnit s = .ok (n, r)) : r.length < s.length := by
  unfold hexUnit at h; split at h
  · split at h <;> simp_all; omega
  · simp at h

theorem lowSurrogate_shorter {s n r} (h : lowSurrogate s = .ok (n, r)) : r.length < s.length := by
  unfold lowSurrogate at h; split at h <;> try simp at h
  split at h
  · simp at h
  · rename_i h'
    split at h <;> simp at h
    have := hexUnit_shorter h'
    simp [← h.2]; omega

theorem hexChar_shorter {s c r} (h : hexChar s = .ok (c, r)) : r.length < s.length := by
  unfold hexChar at h; split at h
  · simp at h
  · rename_i h'
    have := hexUnit_shorter h'
    split at h
    · simp at h
    · split at h
      · split at h
        · simp at h
        · rename_i h''
          have := lowSurrogate_shorter h''
          simp at h; rw [← h.2]; omega
      · simp at h; rw [← h.2]; assumption

theorem escape_shorter {s c r} (h : escape s = .ok (c, r)) : r.length < s.length := by
  unfold escape at h; split at h
  · simp at h
  · have := hexChar_shorter h; simp; omega
  · split at h <;> simp_all

theorem skipEscape_shorter {s r} (h : skipEscape s = .ok r) : r.length < s.length := by
  unfold skipEscape at h; split at h
  · simp at h
  · rename_i t
    cases h' : hexUnit t with
    | error f => simp [h', Except.map] at h
    | ok p =>
      obtain ⟨n, r⟩ := p
      have := hexUnit_shorter h'
      simp [h', Except.map] at h
      simp [← h]; omega
  · split at h <;> simp_all

def string (s : List Char) : Except Fault (List Char × List Char) :=
  match s with
  | [] => .error (.ended .string)
  | '"' :: r => .ok ([], r)
  | '\\' :: r =>
    match _h : escape r with
    | .error f => .error f
    | .ok (c, t) => (string t).map fun (cs, rest) => (c :: cs, rest)
  | c :: r =>
    if c.toNat < 0x20 then .error .controlCharacter
    else (string r).map fun (cs, rest) => (c :: cs, rest)
termination_by s.length
decreasing_by
  · have := escape_shorter ‹_›; simp; omega
  · simp

def skipString (s : List Char) : Except Fault (List Char) :=
  match s with
  | [] => .error (.ended .string)
  | '"' :: r => .ok r
  | '\\' :: r =>
    match _h : skipEscape r with
    | .error f => .error f
    | .ok t => skipString t
  | c :: r => if c.toNat < 0x20 then .error .controlCharacter else skipString r
termination_by s.length
decreasing_by
  · have := skipEscape_shorter ‹_›; simp; omega
  · simp

theorem string_shorter {s cs r} (h : string s = .ok (cs, r)) : r.length < s.length := by
  fun_induction string s generalizing cs with
  | case1 | case3 | case5 => simp at h
  | case2 => simp_all
  | case4 r' c t he ih =>
    cases h' : string t with
    | error f => simp [h', Except.map] at h
    | ok p =>
      obtain ⟨cs, rest⟩ := p
      simp [h', Except.map] at h
      obtain ⟨-, rfl⟩ := h
      have := ih h'
      have := escape_shorter he
      simp; omega
  | case6 c r' _ _ _ ih =>
    cases h' : string r' with
    | error f => simp [h', Except.map] at h
    | ok p =>
      obtain ⟨cs, rest⟩ := p
      simp [h', Except.map] at h
      obtain ⟨-, rfl⟩ := h
      have := ih h'
      simp; omega

theorem skipString_shorter {s r} (h : skipString s = .ok r) : r.length < s.length := by
  fun_induction skipString s with
  | case1 | case3 | case5 => simp at h
  | case2 => simp_all
  | case4 r' t he ih => have := ih h; have := skipEscape_shorter he; simp; omega
  | case6 c r' _ _ _ ih => have := ih h; simp; omega

end ScmPlugins.Json
