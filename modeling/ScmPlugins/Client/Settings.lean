import ScmPlugins.Version

namespace ScmPlugins

structure Settings where
  extension : String := "scm"
  ceiling : Option Version := none
  deriving DecidableEq, Repr

namespace Settings

def offered (s : Settings) (server : List Version) : List Version :=
  server.filter fun v =>
    match s.ceiling with
    | none => true
    | some c => decide (v ≤ c)

end Settings

end ScmPlugins
