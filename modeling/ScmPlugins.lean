import ScmPlugins.Client.Poller
import ScmPlugins.Client.Publisher
import ScmPlugins.Host.Sources
import ScmPlugins.Host.Telemetry
import ScmPlugins.Proofs.Client.Hosting
import ScmPlugins.Proofs.Client.Interleaving
import ScmPlugins.Proofs.Client.Polling
import ScmPlugins.Proofs.Client.Resolution
import ScmPlugins.Proofs.Client.Secrecy
import ScmPlugins.Proofs.Client.Selection
import ScmPlugins.Proofs.Configuration.Insertion
import ScmPlugins.Proofs.Host.Installation
import ScmPlugins.Proofs.Host.Sources
import ScmPlugins.Proofs.Plugin.History
import ScmPlugins.Proofs.Request.Envelope
import ScmPlugins.Proofs.Response.Batch
import ScmPlugins.Proofs.Response.Checkpoints
import ScmPlugins.Proofs.Response.Classes
import ScmPlugins.Proofs.Response.Declaration
import ScmPlugins.Proofs.Response.DisplayOrder
import ScmPlugins.Proofs.Response.Distinct
import ScmPlugins.Proofs.Response.Echo
import ScmPlugins.Proofs.Response.Outcomes
import ScmPlugins.Proofs.Response.Trees
import ScmPlugins.Proofs.Response.Variation
import ScmPlugins.Proofs.Time.Bounds
import ScmPlugins.Proofs.Time.Spelling
import ScmPlugins.Proofs.Time.Stamp
import ScmPlugins.Proofs.Transport.Script
import ScmPlugins.Proofs.Version.Spelling
import ScmPlugins.Rehearsal
import ScmPlugins.Version.Json
