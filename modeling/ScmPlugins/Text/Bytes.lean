namespace ScmPlugins.Text

def splitAtByte? : Nat → List Char → Option (List Char × List Char)
  | 0, s => some ([], s)
  | _ + 1, [] => none
  | n + 1, c :: r =>
    if c.utf8Size ≤ n + 1 then
      (splitAtByte? (n + 1 - c.utf8Size) r).map fun (before, behind) => (c :: before, behind)
    else none

def slice? (first last : Nat) (s : List Char) : Option (List Char) := do
  let (_, behind) ← splitAtByte? first s
  let (part, _) ← splitAtByte? (last - first) behind
  return part

def dropBytes? (first : Nat) (s : List Char) : Option (List Char) :=
  (splitAtByte? first s).map (·.2)

theorem append_of_splitAtByte? {n : Nat} {s before behind : List Char}
    (h : splitAtByte? n s = some (before, behind)) : before ++ behind = s := by
  induction s generalizing n before with
  | nil => cases n <;> simp_all [splitAtByte?]
  | cons c r ih =>
    cases n with
    | zero => simp_all [splitAtByte?]
    | succ n =>
      rw [splitAtByte?] at h
      split at h
      · obtain ⟨⟨p, q⟩, hp, he⟩ := Option.map_eq_some_iff.1 h
        simp at he
        obtain ⟨rfl, rfl⟩ := he
        simp [ih hp]
      · simp at h

end ScmPlugins.Text
