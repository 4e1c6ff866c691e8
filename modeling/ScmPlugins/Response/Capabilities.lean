import ScmPlugins.Capability
import ScmPlugins.Json.Record
import ScmPlugins.Response.Members

namespace ScmPlugins.Response

open Json

def webhookRecord : Record WebhookSupport where
  name := "WebhookSupportDto"
  fields := [
    ⟨"provider", .required, Reader.text.map fun s w => { w with provider := s }⟩,
    ⟨"events", .optional, (Reader.listOf Reader.text).map fun es w => { w with events := es }⟩]
  start := ⟨"", []⟩

def capabilitiesRecord : Record Capabilities where
  name := "CapabilitiesDto"
  fields := [
    ⟨"supported_webhooks", .optional,
      (Reader.listOf webhookRecord.reader).map fun ws c => { c with webhooks := ws }⟩]
  start := .empty

def capabilities (body : Option String) : Except Error Capabilities :=
  match content body with
  | none => .ok .empty
  | some s =>
    match capabilitiesRecord.reader.optional.readAll s with
    | .ok c => .ok (c.getD .empty)
    | .error misfit => .error { payload := .capabilities, rule := .schema misfit.message }

end ScmPlugins.Response
