import ScmPlugins.Proofs.Response.Declaration
import ScmPlugins.Response.Outcome
import ScmPlugins.Response.Poll

/-!
Layouts of the documents that are read from a body: what in them is looked into, which objects are
read by name, and which names are read there.
-/

namespace ScmPlugins.Response

/-- What null stands for under a name that is read: nothing, or a value like any other. -/
inductive Nulls where | absent | value
  deriving DecidableEq, Repr

/-- How a value is read: as a whole, as a list item by item, as a map member by member, or as an
object of which some names are read. -/
inductive Layout where
  | whole
  | list (item : Layout)
  | map (value : Layout)
  | object (nulls : Nulls) (fields : List (String × Layout))

namespace Layout

def texts : Layout := .map .whole

def property : Layout := .object .value (optionShapes.map fun f => (f.1, .whole))

def configuration : Layout := .map property

def view : Layout := .object .absent [("displayValue", .whole), ("template", .whole)]

def complaint : Layout := .object .absent [("key", .whole), ("message", .whole)]

def checkResult : Layout := .object .absent [("status", .whole), ("messages", .whole)]

def file : Layout := .object .absent [("fileName", .whole), ("action", .whole)]

def revision : Layout := .object .absent [
  ("revision", .whole), ("timestamp", .whole), ("user", .whole), ("revisionComment", .whole),
  ("data", texts), ("modifiedFiles", .list file)]

def latestRevision : Layout := .object .absent [("revision", revision), ("scm-data", texts)]

def revisionsSince : Layout := .object .absent [("revisions", .list revision), ("scm-data", texts)]

/-- Reading a value by a layout, the members are those of an object that is read. -/
inductive Reads : Layout → Json → Members → Prop
  | map {value : Layout} {ms : Members} : Reads (.map value) (.map ms) ms
  | object {nulls : Nulls} {fields : List (String × Layout)} {ms : Members} :
      Reads (.object nulls fields) (.map ms) ms
  | item {item : Layout} {js : List Json} {j : Json} {ns : Members} (mem : j ∈ js)
      (h : Reads item j ns) : Reads (.list item) (.list js) ns
  | value {value : Layout} {ms : Members} {name : String} {j : Json} {ns : Members}
      (mem : (name, j) ∈ ms) (h : Reads value j ns) : Reads (.map value) (.map ms) ns
  | field {nulls : Nulls} {fields : List (String × Layout)} {ms : Members} {name : String}
      {layout : Layout} {j : Json} {ns : Members} (known : fields.lookup name = some layout)
      (mem : (name, j) ∈ ms) (h : Reads layout j ns) : Reads (.object nulls fields) (.map ms) ns

end Layout

inductive Document where
  | configuration
  | view
  | validation
  | checkResult
  | latestRevision
  | revisionsSince
  | shouldUpdate
  deriving DecidableEq, Repr

namespace Document

def Content : Document → Type
  | configuration => Configuration
  | view => View
  | validation => Validation
  | checkResult => CheckResult
  | latestRevision => PollResult
  | revisionsSince => PollResult
  | shouldUpdate => List Configuration

def read : (d : Document) → Option String → Except Error d.Content
  | configuration => Response.configuration
  | view => Response.view
  | validation => Response.validation
  | checkResult => Response.checkResult
  | latestRevision => Response.latestRevision
  | revisionsSince => Response.revisionsSince
  | shouldUpdate => Response.shouldUpdate

def payload : Document → Payload
  | configuration => .configuration
  | view => .view
  | validation => .validation
  | checkResult => .checkResult
  | latestRevision => .latestRevision
  | revisionsSince => .revisionsSince
  | shouldUpdate => .shouldUpdate

def layout : Document → Layout
  | configuration => .configuration
  | view => .view
  | validation => .list .complaint
  | checkResult => .checkResult
  | latestRevision => .latestRevision
  | revisionsSince => .revisionsSince
  | shouldUpdate => .list .configuration

end Document

end ScmPlugins.Response
