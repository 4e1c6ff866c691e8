import ScmPlugins.Version

namespace ScmPlugins

inductive Operation where
  | configuration
  | view
  | validate
  | checkConnection
  | latestRevision
  | revisionsSince
  | checkout
  | capabilities
  | shouldUpdate
  deriving DecidableEq, Repr

namespace Operation

def name : Operation → String
  | .configuration => "scm-configuration"
  | .view => "scm-view"
  | .validate => "validate-scm-configuration"
  | .checkConnection => "check-scm-connection"
  | .latestRevision => "latest-revision"
  | .revisionsSince => "latest-revisions-since"
  | .checkout => "checkout"
  | .capabilities => "get-capabilities"
  | .shouldUpdate => "should-update"

def all : List Operation := [
  .configuration, .view, .validate, .checkConnection, .latestRevision, .revisionsSince, .checkout,
  .capabilities, .shouldUpdate]

end Operation

inductive Edition where | v1 | v2
  deriving DecidableEq, Repr

namespace Edition

def version : Edition → Version
  | .v1 => .v1_0
  | .v2 => .v2_0

def ofVersion? (v : Version) : Option Edition :=
  if v = .v1_0 then some .v1 else if v = .v2_0 then some .v2 else none

def operations : Edition → List Operation
  | .v1 => Operation.all.take 7
  | .v2 => Operation.all

def nameOf? (e : Edition) (op : Operation) : Option String :=
  if e.operations.contains op then some op.name else none

@[simp] theorem ofVersion?_version (e : Edition) : ofVersion? e.version = some e := by
  cases e <;> decide

theorem ofVersion?_eq_some_iff {v : Version} {e : Edition} :
    ofVersion? v = some e ↔ e.version = v := by
  constructor
  · unfold ofVersion?
    split
    · rintro ⟨⟩; exact Eq.symm ‹_›
    · split
      · rintro ⟨⟩; exact Eq.symm ‹_›
      · nofun
  · rintro rfl; simp

theorem isSome_ofVersion?_iff {v : Version} :
    (ofVersion? v).isSome ↔ v ∈ Version.supported := by
  simp only [ofVersion?, Version.supported, List.mem_cons, List.not_mem_nil, or_false]
  split
  · simp_all
  · split <;> simp_all

end Edition

end ScmPlugins
