import ScmPlugins.Host.Layer
import ScmPlugins.Toml.Document

namespace ScmPlugins.Host

structure File where
  name : String
  text : String
  deriving DecidableEq, Repr

namespace File

def buildsOnAnother (t : Toml.Table) : Bool := (t.lookup "extends").isSome

def entry : Toml.Item → Entry
  | .text s => .text s
  | .real false => .nothing
  | _ => .unfit

def layerOf (t : Toml.Table) : Layer := t.foldl (fun l (k, v) => l.setNamed k (entry v)) .empty

def layer? (f : File) : Option Layer := do
  let t ← Toml.parse f.text
  if buildsOnAnother t then none else some (layerOf t)

/-- A path leads to the file if it ends in the name, and passes only through the place itself on
its way there. -/
def isAt (f : File) (path : String) : Bool :=
  let steps := (Text.parts '/' path.toList).map String.ofList
  steps.getLast? == some f.name && steps.head? != some "" &&
    steps.dropLast.all fun s => s == "" || s == "."

end File

end ScmPlugins.Host
