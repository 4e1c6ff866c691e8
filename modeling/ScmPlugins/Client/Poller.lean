import ScmPlugins.Client

namespace ScmPlugins

structure PollRequest where
  configuration : Configuration
  materialData : MaterialData
  folder : String
  checkpoint : Option Revision := none
  deriving DecidableEq

namespace Poller

def pollEvent (message plugin : String) (more : List (String × Event.Value)) : Event where
  level := .debug
  target := "tether_scm::poller"
  message := message
  fields := ("plugin", .text plugin) :: more

def poll (s : Settings) (plugin : String) (r : PollRequest) : Call PollResult :=
  match r.checkpoint with
  | none => do
    Call.note (pollEvent "full poll" plugin [])
    Client.latestRevision s plugin r.configuration r.materialData r.folder
  | some checkpoint => do
    Call.note (pollEvent "incremental poll" plugin [("checkpoint", .text checkpoint.id)])
    let found ←
      Client.revisionsSince s plugin r.configuration r.materialData r.folder checkpoint
    return found.withRevisionList

def select (materials : List Material) (cs : List Configuration) : List Material :=
  materials.filter fun m => (cs.map (·.identity)).contains m.configuration.identity

def materialsToUpdate (s : Settings) (plugin : String) (event : WebhookEvent)
    (materials : List Material) : Call (List Material) :=
  if materials.isEmpty then pure []
  else do
    if ← Call.supports plugin event.provider event.eventType then
      let cs ← Client.shouldUpdate s plugin event (materials.map (·.configuration))
      let matched := select materials cs
      Call.note (pollEvent "webhook selected materials" plugin
        [("returned", .count cs.length), ("matched", .count matched.length)])
      return matched
    else
      Call.note (pollEvent "plugin does not handle webhook event" plugin
        [("provider", .text event.provider), ("event", .text event.eventType)])
      return []

end Poller

end ScmPlugins
