import ScmPlugins.Number.Binary64

namespace ScmPlugins

/-- A whole number is an `int` where 64 bits hold it, signed or not; every other number is a
`real`. -/
inductive Json where
  | null
  | bool (b : Bool)
  | int (n : Int)
  | real (x : Binary64)
  | str (s : String)
  | list (items : List Json)
  | map (members : List (String × Json))
  deriving Repr

namespace Json

mutual

def beq : Json → Json → Bool
  | .null, .null => true
  | .bool a, .bool b => a == b
  | .int a, .int b => a == b
  | .real a, .real b => a == b
  | .str a, .str b => a == b
  | .list a, .list b => beqItems a b
  | .map a, .map b => beqMembers a b
  | _, _ => false

def beqItems : List Json → List Json → Bool
  | [], [] => true
  | a :: r, b :: t => beq a b && beqItems r t
  | _, _ => false

def beqMembers : List (String × Json) → List (String × Json) → Bool
  | [], [] => true
  | (k, a) :: r, (l, b) :: t => k == l && beq a b && beqMembers r t
  | _, _ => false

end

mutual

theorem eq_of_beq {a b : Json} (h : a.beq b = true) : a = b := by
  cases a <;> cases b <;> simp [beq] at h <;> try first | rfl | simp [h]
  · exact eq_of_beqItems h
  · exact eq_of_beqMembers h

theorem eq_of_beqItems {a b : List Json} (h : beqItems a b = true) : a = b := by
  match a, b with
  | [], [] => rfl
  | [], _ :: _ | _ :: _, [] => simp [beqItems] at h
  | a :: r, b :: t =>
    simp only [beqItems, Bool.and_eq_true] at h
    rw [eq_of_beq h.1, eq_of_beqItems h.2]

theorem eq_of_beqMembers {a b : List (String × Json)} (h : beqMembers a b = true) : a = b := by
  match a, b with
  | [], [] => rfl
  | [], _ :: _ | _ :: _, [] => simp [beqMembers] at h
  | (k, a) :: r, (l, b) :: t =>
    simp only [beqMembers, Bool.and_eq_true, beq_iff_eq] at h
    rw [h.1.1, eq_of_beq h.1.2, eq_of_beqMembers h.2]

end

mutual

theorem beq_self (a : Json) : a.beq a = true := by
  cases a <;> simp [beq, beqItems_self, beqMembers_self]

theorem beqItems_self (a : List Json) : beqItems a a = true := by
  match a with
  | [] => rfl
  | a :: r => simp [beqItems, beq_self a, beqItems_self r]

theorem beqMembers_self (a : List (String × Json)) : beqMembers a a = true := by
  match a with
  | [] => rfl
  | (k, a) :: r => simp [beqMembers, beq_self a, beqMembers_self r]

end

instance : DecidableEq Json := fun a b =>
  if h : a.beq b = true then .isTrue (eq_of_beq h)
  else .isFalse fun e => h (e ▸ beq_self a)

mutual

def depth : Json → Nat
  | .list items => depthItems items + 1
  | .map members => depthMembers members + 1
  | _ => 0

def depthItems : List Json → Nat
  | [] => 0
  | a :: r => max a.depth (depthItems r)

def depthMembers : List (String × Json) → Nat
  | [] => 0
  | (_, a) :: r => max a.depth (depthMembers r)

end

end Json

end ScmPlugins
