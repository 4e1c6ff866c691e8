import ScmPlugins.OrderedMap

/-!
The configuration of a material: properties under distinct keys, in the order of their first
insertion. Equality heeds what is known about each property but not the order; the identity heeds
keys and values alone.
-/

namespace ScmPlugins

structure Property where
  value : String := ""
  required : Bool := false
  secure : Bool := false
  partOfIdentity : Bool := false
  displayName : String := ""
  displayOrder : Int := 0
  deriving DecidableEq, Repr

abbrev Configuration := OrderedMap Property

namespace Configuration

def value? (c : Configuration) (k : String) : Option String := (c.get? k).map (·.value)

def ofValues (pairs : List (String × String)) : Configuration :=
  .ofList (pairs.map fun (k, v) => (k, { value := v }))

def identity (c : Configuration) : List (String × String) :=
  (c.entries.map fun (k, p) => (k, p.value)).mergeSort fun a b => decide (a.1 ≤ b.1)

def same (a b : Configuration) : Bool :=
  a.size == b.size && a.entries.all fun (k, p) => b.get? k == some p

end Configuration

structure Material where
  id : String
  configuration : Configuration
  deriving DecidableEq

def Material.same (a b : Material) : Bool := a.id == b.id && a.configuration.same b.configuration

end ScmPlugins
