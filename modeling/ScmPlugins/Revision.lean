import ScmPlugins.OrderedMap
import ScmPlugins.Time.Instant

namespace ScmPlugins

inductive FileAction where | added | modified | deleted
  deriving DecidableEq, Repr

def FileAction.name : FileAction → String
  | .added => "added"
  | .modified => "modified"
  | .deleted => "deleted"

def FileAction.all : List FileAction := [.added, .modified, .deleted]

def FileAction.named? (name : String) : Option FileAction := all.find? (·.name == name)

@[simp] theorem FileAction.named?_name (a : FileAction) : named? a.name = some a := by
  cases a <;> decide

structure ModifiedFile where
  path : String
  action : FileAction
  deriving DecidableEq, Repr

abbrev MaterialData := OrderedMap String

structure Revision where
  id : String
  time : Instant
  author : Option String := none
  comment : Option String := none
  data : MaterialData := ∅
  files : List ModifiedFile := []
  deriving DecidableEq

/-- A full poll yields the latest revision, an incremental one a list unless the plugin sent none.
Material data, where present, takes the place of what was kept before. -/
structure PollResult where
  latest : Option Revision := none
  revisions : Option (List Revision) := none
  materialData : Option MaterialData := none
  deriving DecidableEq

namespace PollResult

def ofLatest (r : Revision) (data : Option MaterialData) : PollResult := ⟨some r, none, data⟩

def ofSince (rs : Option (List Revision)) (data : Option MaterialData) : PollResult :=
  ⟨none, rs, data⟩

def withRevisionList (p : PollResult) : PollResult :=
  if p.latest.isNone && p.revisions.isNone then { p with revisions := some [] } else p

def materialDataAfter (p : PollResult) (kept : MaterialData) : MaterialData :=
  p.materialData.getD kept

end PollResult

end ScmPlugins
