import ScmPlugins.Json.Misfit
import ScmPlugins.Json.Skip

/-!
Records read straight from a text, without a document in between. A record is a map from field
names, or a list of the fields in order. Members of other names are passed over. A misfit is
reported where it is met, and a list or map that stands in a wrong place is not looked into.
-/

namespace ScmPlugins.Json

def mapResult {ε α β : Type} (f : α → β) : Except ε (α × List Char) → Except ε (β × List Char)
  | .error e => .error e
  | .ok (a, r) => .ok (f a, r)

theorem mapResult_eq_ok {ε α β : Type} {f : α → β} {x : Except ε (α × List Char)} {b r}
    (h : mapResult f x = .ok (b, r)) : ∃ a, x = .ok (a, r) ∧ f a = b := by
  unfold mapResult at h; split at h <;> simp at h
  exact ⟨_, by rw [h.2], h.1⟩

def liftFault {α : Type} : Except Fault α → Except Misfit α
  | .error f => .error (.fault f)
  | .ok a => .ok a

@[simp] theorem liftFault_eq_ok {α : Type} {x : Except Fault α} {a : α} :
    liftFault x = .ok a ↔ x = .ok a := by
  cases x <;> simp [liftFault]

/-- The complaint about a value that is not what was expected. A scalar is read first, and its own
fault comes before the complaint. -/
def mismatch (expected : String) : List Char → Misfit
  | '[' :: _ => .wrongType .list expected
  | '\x7b' :: _ => .wrongType .map expected
  | s =>
    match scalar s with
    | .error f => .fault f
    | .ok (j, _) => .wrongType (.of j) expected

namespace Reader

variable {α β : Type}

def map (f : α → β) (r : Reader Misfit α) : Reader Misfit β where
  run s := mapResult f (r.run s)
  shorter h := by obtain ⟨a, ha, -⟩ := mapResult_eq_ok h; exact r.shorter ha

def runChecked (check : α → Except String β) (r : Reader Misfit α) (s : List Char) :
    Except Misfit (β × List Char) :=
  match r.run s with
  | .error e => .error e
  | .ok (a, t) =>
    match check a with
    | .error message => .error (.refused message)
    | .ok b => .ok (b, t)

def checked (check : α → Except String β) (r : Reader Misfit α) : Reader Misfit β where
  run := runChecked check r
  shorter h := by
    unfold runChecked at h
    split at h
    · simp at h
    · rename_i h'
      split at h <;> simp at h
      exact h.2 ▸ r.shorter h'

def runText (s : List Char) : Except Misfit (String × List Char) :=
  match skipSpace s with
  | '"' :: r => mapResult String.ofList (liftFault (Json.string r))
  | s => .error (mismatch "a string" s)

def text : Reader Misfit String where
  run := runText
  shorter {s _ _} h := by
    have h₀ := skipSpace_le s
    unfold runText at h
    split at h
    · rename_i hs
      obtain ⟨a, ha, -⟩ := mapResult_eq_ok h
      have := string_shorter (liftFault_eq_ok.1 ha)
      simp [hs] at h₀; omega
    · simp at h

def runListOf (item : Reader Misfit α) (s : List Char) : Except Misfit (List α × List Char) :=
  match skipSpace s with
  | '[' :: r => items .fault item true r
  | s => .error (mismatch "a sequence" s)

def listOf (item : Reader Misfit α) : Reader Misfit (List α) where
  run := runListOf item
  shorter {s _ _} h := by
    have h₀ := skipSpace_le s
    unfold runListOf at h
    split at h
    · rename_i hs; have := items_shorter h; simp [hs] at h₀; omega
    · simp at h

def runNull (s : List Char) : Except Misfit (Unit × List Char) :=
  match skipSpace s with
  | 'n' :: r => mapResult id (liftFault ((word ['u', 'l', 'l'] r).map ((), ·)))
  | s => .error (mismatch "unit" s)

theorem runNull_shorter {s a r} (h : runNull s = .ok (a, r)) : r.length < s.length := by
  have h₀ := skipSpace_le s
  unfold runNull at h
  split at h
  · rename_i t hs
    obtain ⟨a, ha, -⟩ := mapResult_eq_ok h
    have h' := liftFault_eq_ok.1 ha
    cases hw : word ['u', 'l', 'l'] t with
    | error f => simp [hw, Except.map] at h'
    | ok u =>
      have := word_le hw
      simp [hw, Except.map] at h'
      simp [hs] at h₀; rw [← h']; omega
  · simp at h

def runOptional (item : Reader Misfit α) (s : List Char) : Except Misfit (Option α × List Char) :=
  match skipSpace s with
  | 'n' :: r => mapResult (fun _ => none) (runNull ('n' :: r))
  | s => mapResult some (item.run s)

def optional (item : Reader Misfit α) : Reader Misfit (Option α) where
  run := runOptional item
  shorter {s _ _} h := by
    have h₀ := skipSpace_le s
    unfold runOptional at h
    split at h
    · rename_i hs
      obtain ⟨a, ha, -⟩ := mapResult_eq_ok h
      have := runNull_shorter ha
      rw [hs] at h₀; omega
    · obtain ⟨a, ha, -⟩ := mapResult_eq_ok h
      have := item.shorter ha
      omega

def named? (variants : List (String × α)) (name : String) : Except Misfit α :=
  match variants.lookup name with
  | some a => .ok a
  | none => .error (.unknownVariant name (variants.map (·.1)))

def runVariant (variants : List (String × α)) (s : List Char) :
    Except Misfit (α × List Char) :=
  match skipSpace s with
  | [] => .error (.fault (.ended .value))
  | '"' :: r =>
    match string r with
    | .error f => .error (.fault f)
    | .ok (name, t) => (named? variants (String.ofList name)).map (·, t)
  | '\x7b' :: r =>
    match skipSpace r with
    | '"' :: t =>
      match string t with
      | .error f => .error (.fault f)
      | .ok (name, t) =>
        match named? variants (String.ofList name), colon t with
        | .error e, _ => .error e
        | .ok _, .error f => .error (.fault f)
        | .ok a, .ok t =>
          match runNull t with
          | .error e => .error e
          | .ok ((), t) =>
            match skipSpace t with
            | [] => .error (.fault (.ended .object))
            | '\x7d' :: t => .ok (a, t)
            | _ => .error (.fault .expectedValue)
    | [] => .error (.fault (.ended .object))
    | '\x7d' :: _ => .error (.fault .expectedValue)
    | _ => .error (.fault .keyMustBeString)
  | _ => .error (.fault .expectedValue)

def variant (variants : List (String × α)) : Reader Misfit α where
  run := runVariant variants
  shorter {s _ _} h := by
    have h₀ := skipSpace_le s
    unfold runVariant at h
    split at h
    · simp at h
    · rename_i hs
      rw [hs] at h₀
      split at h
      · simp at h
      · rename_i name t h'
        have := string_shorter h'
        cases hn : named? variants (String.ofList name) with
        | error e => simp [hn, Except.map] at h
        | ok a => simp [hn, Except.map] at h; simp [h.2] at *; omega
    · rename_i r hs
      have h₁ := skipSpace_le r
      rw [hs] at h₀
      split at h
      · rename_i hs'
        rw [hs'] at h₁
        split at h
        · simp at h
        · rename_i h'
          have := string_shorter h'
          split at h <;> try simp at h
          rename_i hc
          have := colon_shorter hc
          split at h
          · simp at h
          · rename_i t hu
            have := runNull_shorter hu
            have h₂ := skipSpace_le t
            split at h <;> simp at h
            rename_i ht
            simp [ht, h.2] at *; omega
      all_goals simp at h
    · simp at h

end Reader

/-- Where a field may be left out: nowhere, in the form of a map, or in both forms. -/
inductive Presence where | required | optionalMember | optional
  deriving DecidableEq, Repr

structure Field (σ : Type) where
  name : String
  presence : Presence
  read : Reader Misfit (σ → σ)

structure Record (σ : Type) where
  name : String
  fields : List (Field σ)
  start : σ

namespace Record

variable {σ : Type}

def expected (form : Record σ) : String :=
  "struct " ++ form.name ++ " with " ++ toString form.fields.length ++
    (if form.fields.length = 1 then " element" else " elements")

def missing? (form : Record σ) (seen : List String) : Option String :=
  (form.fields.find? fun f => f.presence == .required && !seen.contains f.name).map (·.name)

def readMembers (form : Record σ) (first : Bool) (seen : List String) (acc : σ) (s : List Char) :
    Except Misfit (σ × List Char) :=
  match _h : nextMember first s with
  | .error f => .error (.fault f)
  | .ok (.last r) =>
    match form.missing? seen with
    | some name => .error (.missingField name)
    | none => .ok (acc, r)
  | .ok (.more r) =>
    match _h₁ : string r with
    | .error f => .error (.fault f)
    | .ok (key, r) =>
      match form.fields.find? (·.name == String.ofList key) with
      | none =>
        match _h₂ : colon r with
        | .error f => .error (.fault f)
        | .ok r =>
          match _h₃ : skip r with
          | .error f => .error (.fault f)
          | .ok t => readMembers form false seen acc t
      | some field =>
        if seen.contains field.name then .error (.duplicateField field.name)
        else
          match _h₂ : colon r with
          | .error f => .error (.fault f)
          | .ok r =>
            match _h₃ : field.read.run r with
            | .error e => .error e
            | .ok (put, t) => readMembers form false (field.name :: seen) (put acc) t
termination_by s.length
decreasing_by
  · have := nextMember_shorter ‹_›; have := string_shorter ‹_›; have := colon_shorter ‹_›
    have := skip_shorter ‹_›; simp only [Next.rest] at *; omega
  · have := nextMember_shorter ‹_›; have := string_shorter ‹_›; have := colon_shorter ‹_›
    have := field.read.shorter ‹_›; simp only [Next.rest] at *; omega

def closeList (s : List Char) : Except Fault (List Char) :=
  match skipSpace s with
  | [] => .error (.ended .list)
  | ']' :: r => .ok r
  | ',' :: r =>
    match skipSpace r with
    | ']' :: _ => .error .trailingComma
    | _ => .error .trailingCharacters
  | _ => .error .trailingCharacters

def readItems (form : Record σ) :
    (index : Nat) → List (Field σ) → σ → List Char → Except Misfit (σ × List Char)
  | _, [], acc, s => (liftFault (closeList s)).map (acc, ·)
  | index, field :: fields, acc, s =>
    match nextItem (index == 0) s with
    | .error f => .error (.fault f)
    | .ok (.last r) =>
      match (field :: fields).findIdx? (·.presence != .optional) with
      | some i => .error (.tooShort (index + i) form.expected)
      | none => .ok (acc, r)
    | .ok (.more r) =>
      match field.read.run r with
      | .error e => .error e
      | .ok (put, t) => readItems form (index + 1) fields (put acc) t

def run (form : Record σ) (s : List Char) : Except Misfit (σ × List Char) :=
  match skipSpace s with
  | '[' :: r => form.readItems 0 form.fields form.start r
  | '\x7b' :: r => form.readMembers true [] form.start r
  | s => .error (mismatch ("struct " ++ form.name) s)

theorem readMembers_shorter {form : Record σ} {first seen acc s a r}
    (h : form.readMembers first seen acc s = .ok (a, r)) : r.length < s.length := by
  fun_induction form.readMembers first seen acc s with
  | case1 | case2 | case4 | case5 | case6 | case8 | case9 | case10 => simp at h
  | case3 first seen acc s t ht => simp at h; exact h.2 ▸ nextMember_shorter ht
  | case7 first seen acc s r' ht key r₁ hk _ r₂ hc t h' ih =>
    have := ih h
    have := nextMember_shorter ht
    have := string_shorter hk
    have := colon_shorter hc
    have := skip_shorter h'
    simp only [Next.rest] at *; omega
  | case11 first seen acc s r' ht key r₁ hk field _ _ r₂ hc put t h' ih =>
    have := ih h
    have := nextMember_shorter ht
    have := string_shorter hk
    have := colon_shorter hc
    have := field.read.shorter h'
    simp only [Next.rest] at *; omega

theorem closeList_shorter {s r} (h : closeList s = .ok r) : r.length < s.length := by
  have h₀ := skipSpace_le s
  unfold closeList at h
  split at h
  · simp at h
  · rename_i hs; simp at h; simp [hs, h] at h₀; omega
  · split at h <;> simp at h
  · simp at h

theorem readItems_shorter {form : Record σ} {index fields acc s a r}
    (h : form.readItems index fields acc s = .ok (a, r)) : r.length < s.length := by
  fun_induction form.readItems index fields acc s with
  | case1 index acc s =>
    cases h' : closeList s with
    | error f => simp [h', liftFault, Except.map] at h
    | ok t =>
      have := closeList_shorter h'
      simp [h', liftFault, Except.map] at h; rw [← h.2]; exact this
  | case2 | case3 | case5 => simp at h
  | case4 index field fields acc s r' ht _ =>
    simp at h; exact h.2 ▸ (nextItem_le ht).2 r' rfl
  | case6 index field fields acc s r' ht put t h' ih =>
    have := ih h
    have := (nextItem_le ht).1
    have := field.read.shorter h'
    simp only [Next.rest] at *; omega

def reader (form : Record σ) : Reader Misfit σ where
  run := form.run
  shorter {s _ _} h := by
    have h₀ := skipSpace_le s
    unfold run at h
    split at h
    · rename_i hs; have := readItems_shorter h; simp [hs] at h₀; omega
    · rename_i hs; have := readMembers_shorter h; simp [hs] at h₀; omega
    · simp at h

end Record

def Reader.readAll {α : Type} (r : Reader Misfit α) (s : String) : Except Misfit α :=
  match r.run s.toList with
  | .error e => .error e
  | .ok (a, rest) => liftFault ((finish rest).map fun _ => a)

end ScmPlugins.Json
