import WebHarvest.Config.Model
import WebHarvest.Harvester.Basic
import WebHarvest.Interchange.Failure
import WebHarvest.Interchange.Page
import WebHarvest.Page.Interpret
import WebHarvest.Page.Payload
import WebHarvest.Page.Script
import WebHarvest.Proofs.Batch.Progress
import WebHarvest.Proofs.Browser.Lifecycle
import WebHarvest.Proofs.Harvester.Admission
import WebHarvest.Proofs.Harvester.Failures
import WebHarvest.Proofs.Harvester.Timeouts
import WebHarvest.Proofs.Page.Extraction
import WebHarvest.Proofs.Page.KeyOrder
import WebHarvest.Proofs.RateLimit.Domains
import WebHarvest.Proofs.RateLimit.Line
import WebHarvest.Proofs.RateLimit.Passage
import WebHarvest.Proofs.RateLimit.Quotas
import WebHarvest.Proofs.RateLimit.Returns
import WebHarvest.Proofs.RateLimit.Scheduled
import WebHarvest.Proofs.RateLimit.Usage
import WebHarvest.Proofs.Retry.Telemetry
import WebHarvest.Proofs.Schema.Acceptance
import WebHarvest.Proofs.Schema.Callbacks
import WebHarvest.Proofs.Session.Confined
import WebHarvest.Proofs.Session.Cookies
import WebHarvest.Proofs.Session.Listing
import WebHarvest.Proofs.Session.Password
import WebHarvest.Proofs.Session.Promise
import WebHarvest.Proofs.Session.Rooted
import WebHarvest.Proofs.Session.Store
import WebHarvest.Proofs.Signal.Interleaving
import WebHarvest.Proofs.Signal.Losses
import WebHarvest.Proofs.Signal.Reception
import WebHarvest.Schema.Payload
import WebHarvest.Session.Restore
import WebHarvest.Signal.Delivery
import WebHarvest.Simulation.World
import WebHarvest.Value.Equality
