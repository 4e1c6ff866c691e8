import ScmPlugins.Operation
import ScmPlugins.Plugin.Registry
import ScmPlugins.Request
import ScmPlugins.Response.Error
import ScmPlugins.Transport

namespace ScmPlugins

inductive Failure where
  | pluginNotFound (plugin : String)
  | noCompatibleVersion (plugin : String) (declared offered : List Version)
  | unsupportedOperation (plugin : String) (operation : Operation) (version : Version)
  | malformedResponse (plugin : String) (e : Response.Error)
  | encodeRequest (plugin : String) (e : Request.Error)
  | invalidDescriptor (e : Descriptor.Invalid)
  | transport (e : Transport.Error)
  deriving DecidableEq, Repr

namespace Failure

def message : Failure → String
  | .pluginNotFound plugin => "SCM plugin '" ++ plugin ++ "' is not registered"
  | .noCompatibleVersion plugin declared offered =>
    "SCM plugin '" ++ plugin ++ "' supports versions [" ++ Version.textAll declared ++
      "] but the server supports [" ++ Version.textAll offered ++ "]"
  | .unsupportedOperation plugin operation version =>
    "operation '" ++ operation.name ++ "' is not available to plugin '" ++ plugin ++
      "' on protocol " ++ version.text
  | .malformedResponse plugin e =>
    "SCM plugin '" ++ plugin ++ "' returned a malformed response: " ++ e.message
  | .encodeRequest plugin e =>
    "failed to build request for SCM plugin '" ++ plugin ++ "': " ++ e.message
  | .invalidDescriptor e => "invalid plugin descriptor: " ++ e.message
  | .transport e => e.message

def cause? : Failure → Option String
  | .malformedResponse _ e => some e.message
  | .encodeRequest _ e => some e.message
  | .transport e => e.cause?
  | _ => none

end Failure

end ScmPlugins
