import ScmPlugins.Host.Config

/-!
A configuration comes in layers. Each source says something of some fields, an upper layer hides
what a lower one says of the same field, and a field that no layer mentions has its default.
-/

namespace ScmPlugins.Host

/-- What a source says of a field: a text, that there is nothing, or what fits no field. -/
inductive Entry where
  | text (s : String)
  | nothing
  | unfit
  deriving DecidableEq, Repr

def Layer := Field → Option Entry

namespace Layer

def empty : Layer := fun _ => none

def set (l : Layer) (f : Field) (e : Entry) : Layer := fun g => if g = f then some e else l g

def setNamed (l : Layer) (name : String) (e : Entry) : Layer :=
  match Field.named? name with
  | some f => l.set f e
  | none => l

def onto (upper lower : Layer) : Layer := fun f => (upper f).or (lower f)

@[simp] theorem empty_apply (f : Field) : empty f = none := rfl

@[simp] theorem set_self (l : Layer) (f : Field) (e : Entry) : l.set f e f = some e := by
  simp [set]

theorem set_of_ne (l : Layer) {f g : Field} (h : g ≠ f) (e : Entry) : l.set f e g = l g := by
  simp [set, h]

def text (l : Layer) (f : Field) : Except Field (Option String) :=
  match l f with
  | none => .ok none
  | some (.text s) => .ok (some s)
  | some _ => .error f

def optionalText (l : Layer) (f : Field) : Except Field (Option String) :=
  match l f with
  | some .nothing => .ok none
  | _ => l.text f

def logFormat (l : Layer) : Except Field (Option LogFormat) :=
  match l.text .logFormat with
  | .error f => .error f
  | .ok none => .ok none
  | .ok (some s) =>
    match LogFormat.named? s with
    | some f => .ok (some f)
    | none => .error .logFormat

def config (l : Layer) : Except Field Config := do
  let start : Config := {}
  let logFilter ← l.text .logFilter
  let logFormat ← l.logFormat
  let extensionName ← l.text .extensionName
  let maxProtocolVersion ← l.optionalText .maxProtocolVersion
  return {
    logFilter := logFilter.getD start.logFilter
    logFormat := logFormat.getD start.logFormat
    extensionName := extensionName.getD start.extensionName
    maxProtocolVersion := maxProtocolVersion.or start.maxProtocolVersion }

end Layer

end ScmPlugins.Host
