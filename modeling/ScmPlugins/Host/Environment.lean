import ScmPlugins.Host.Layer
import ScmPlugins.Host.Written
import ScmPlugins.Number.Decimal
import ScmPlugins.OrderedMap
import ScmPlugins.Text.Blank
import ScmPlugins.Text.Parts

/-!
The layer that variables of the environment make up. A variable whose text is written as something
other than a text fits no field; what is badly written is taken as plain text.
-/

namespace ScmPlugins.Host

abbrev Environment := OrderedMap String

namespace Environment

def mark : List Char := ['t', 'e', 't', 'h', 'e', 'r', '_']

def points : List Char → List Char
  | '_' :: '_' :: r => '.' :: points r
  | c :: r => c :: points r
  | [] => []

/-- What a variable is about: a field, or what stands inside it. Blanks around the name and behind
the mark do not count. -/
def path? (name : String) : Option (List (List Char)) :=
  let s := (Text.trim name.toList).map Char.toLower
  if s.take mark.length = mark then
    let parts := Text.parts '.' (Text.trim (points (s.drop mark.length)))
    if parts.any List.isEmpty then none else some parts
  else none

def isFlagWord (s : List Char) : Bool :=
  let w := s.map Char.toLower
  w == ['t', 'r', 'u', 'e'] || w == ['f', 'a', 'l', 's', 'e']

def isBareList (s : List Char) : Bool :=
  s.contains ',' &&
    match s with
    | '[' :: _ | '\x7b' :: _ | '"' :: _ | '\'' :: _ => false
    | _ => true

def word (s : List Char) : Entry :=
  if isFlagWord s then .unfit
  else if s.contains '.' then
    match Decimal.real? s with
    | some (n, e) => if Decimal.isFinite n e then .unfit else .nothing
    | none => .text (String.ofList s)
  else if Decimal.isWhole64 s then .unfit
  else .text (String.ofList s)

def read {ε : Type} (s : List Char) : Attempt ε Entry :=
  let settle {α : Type} (x : Attempt Written.Flaw α) (f : α → Entry) : Attempt ε Entry :=
    match x with
    | .ok a => .ok (f a)
    | .error _ => .ok (.text (String.ofList s))
    | .stopped => .stopped
  if isBareList s then .ok .unfit
  else
    match s with
    | '[' :: r => settle (Written.close [.square] true r) fun _ => .unfit
    | '\x7b' :: r => settle (Written.close [.curly] true r) fun _ => .unfit
    | '"' :: r => settle (Written.quoted r) fun (cs, rest) =>
      .text (String.ofList (if rest.isEmpty then cs else s))
    | ['\'', c, '\''] => .ok (.text (String.ofList [c]))
    | s => .ok (word s)

def set {ε : Type} (l : Layer) (name value : String) : Attempt ε Layer :=
  match path? name with
  | none => .ok l
  | some path => do
    let e ← read (Text.trim value.toList)
    match path with
    | [p] => return l.setNamed (String.ofList p) e
    | p :: _ => return l.setNamed (String.ofList p) .unfit
    | [] => return l

/-- Of two variables about one field the later one counts. -/
def layer {ε : Type} (v : Environment) : Attempt ε Layer :=
  v.entries.foldlM (fun l (name, value) => set l name value) .empty

end Environment

end ScmPlugins.Host
