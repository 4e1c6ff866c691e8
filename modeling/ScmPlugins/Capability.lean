import ScmPlugins.Version

namespace ScmPlugins

structure WebhookSupport where
  provider : String
  events : List String
  deriving DecidableEq, Repr

structure Capabilities where
  webhooks : List WebhookSupport
  deriving DecidableEq, Repr

namespace Capabilities

def empty : Capabilities := ⟨[]⟩

def isEmpty (c : Capabilities) : Bool := c.webhooks.isEmpty

def supports (c : Capabilities) (provider event : String) : Bool :=
  c.webhooks.any fun w => w.provider == provider && w.events.contains event

theorem supports_iff {c : Capabilities} {provider event : String} :
    c.supports provider event = true ↔
      ∃ w ∈ c.webhooks, w.provider = provider ∧ event ∈ w.events := by
  simp [supports]

end Capabilities

/-- A plugin that speaks a version without capabilities has not declared none: it was not asked. -/
inductive Discovery where
  | unsupported (version : Version)
  | declared (capabilities : Capabilities)
  deriving DecidableEq, Repr

def Discovery.isSupported : Discovery → Bool
  | .unsupported _ => false
  | .declared _ => true

def Discovery.capabilities : Discovery → Capabilities
  | .unsupported _ => .empty
  | .declared c => c

end ScmPlugins
