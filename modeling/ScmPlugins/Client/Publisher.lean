import ScmPlugins.Client

namespace ScmPlugins.Publisher

def builtEvent (info : PluginInfo) : Event where
  level := .info
  target := "tether_scm::plugin_info"
  message := "built SCM plugin info"
  fields := [
    ("plugin", .text info.plugin), ("properties", .count info.configuration.size),
    ("webhook_providers", .count info.capabilities.webhooks.length)]

/-- Three queries, each of which settles on a version of its own. -/
def build (s : Settings) (plugin : String) : Call PluginInfo := do
  let configuration ← Client.configuration s plugin
  let view ← Client.view s plugin
  let discovery ← Client.capabilities s plugin
  let info : PluginInfo := {
    plugin
    displayName := view.displayValue
    template := view.template
    configuration
    capabilities := discovery.capabilities }
  Call.note (builtEvent info)
  return info

def publish (s : Settings) (plugin : String) : Call Unit := do
  Call.publish (← build s plugin)

end ScmPlugins.Publisher
