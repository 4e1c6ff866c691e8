import ScmPlugins.Json.Record
import ScmPlugins.Version

namespace ScmPlugins.Version

open Json

def json (v : Version) : Json := .str v.text

def reader : Reader Misfit Version :=
  Reader.text.checked fun s => (parse s).mapError Invalid.message

def ofJson (s : String) : Except Misfit Version := reader.readAll s

end ScmPlugins.Version
