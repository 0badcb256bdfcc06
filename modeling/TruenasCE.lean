import TruenasCE.Library.Transition
import TruenasCE.Library.TaskTable
import TruenasCE.Library.Cells
import TruenasCE.Library.KeyedList
import TruenasCE.Library.Relocation
import TruenasCE.Library.Raising
import TruenasCE.Library.Dict
import TruenasCE.Library.Overlay
import TruenasCE.Library.Mapping
import TruenasCE.Library.Past
import TruenasCE.Library.DepthFirst
import TruenasCE.Library.Coroutine
import TruenasCE.Library.Digits
import TruenasCE.Library.Latch
import TruenasCE.ApiParser.Value
import TruenasCE.ApiParser.Fields
import TruenasCE.ApiParser.Parse
import TruenasCE.ApiParser.Total
import TruenasCE.ApiParser.Keyed
import TruenasCE.AppUpdate.State
import TruenasCE.AppUpdate.Coordinator
import TruenasCE.AppUpdate.Entity
import TruenasCE.AppUpdate.Step
import TruenasCE.AppUpdate.Frame
import TruenasCE.AppUpdate.Tracking
import TruenasCE.AppUpdate.Evidence
import TruenasCE.AppUpdate.Supersede
import TruenasCE.AppUpdate.Adoption
import TruenasCE.AppUpdate.Scan
import TruenasCE.SystemUpdate.Tracking
import TruenasCE.Connection.Outage
import TruenasCE.Push.Subscription
import TruenasCE.Push.Consumer
import TruenasCE.Push.Exclusivity
import TruenasCE.Push.Refresh
import TruenasCE.Push.Breaker
import TruenasCE.Push.Cooldown
import TruenasCE.Migration.Registry
import TruenasCE.Migration.Adoption
import TruenasCE.Migration.Remap
import TruenasCE.Migration.Permutation
import TruenasCE.Migration.Rollback
import TruenasCE.Migration.RoundTrip
import TruenasCE.Migration.Attempts
import TruenasCE.Identity.UniqueIds
import TruenasCE.Identity.Stability
import TruenasCE.Identity.Renames
import TruenasCE.Identity.Formats
import TruenasCE.Identity.Translation
import TruenasCE.Identity.Devices
import TruenasCE.Identity.Idempotence
import TruenasCE.Identity.SecondRun
import TruenasCE.Identity.EnumerationOrder
import TruenasCE.Certificates.Identities
import TruenasCE.Certificates.History
import TruenasCE.Flow.Passphrases
import TruenasCE.Flow.Reconfigure
import TruenasCE.Flow.Rejected
import TruenasCE.Flow.Listing
import TruenasCE.Flow.HostGuess
import TruenasCE.Flow.Setup
import TruenasCE.Flow.Credentials
import TruenasCE.Flow.Secrecy
import TruenasCE.Flow.Rediscovery
import TruenasCE.Scrub.Buttons
import TruenasCE.Scrub.Exclusive
import TruenasCE.Cleanup.Descriptions
import TruenasCE.Cleanup.Discovery
import TruenasCE.Cleanup.Orphans
import TruenasCE.Cleanup.Complete
import TruenasCE.Discovery.Unload
import TruenasCE.AppStats.Networks
import TruenasCE.AppStats.Stopped
import TruenasCE.AppStats.Uids
import TruenasCE.AppStats.Retention
import TruenasCE.Jobs.Bookkeeping
import TruenasCE.Statistics.Orphans
import TruenasCE.SystemData.LastKnown
import TruenasCE.SystemData.Version
import TruenasCE.Polling.Coordinator
import TruenasCE.Polling.Announced
import TruenasCE.Polling.Retained
import TruenasCE.Polling.Isolation
import TruenasCE.Hosts.IpAddress
import TruenasCE.Hosts.Lower
import TruenasCE.Hosts.Sanitize
import TruenasCE.Hosts.Endpoints
import TruenasCE.Hosts.Spelling
import TruenasCE.Hosts.Recognition
import TruenasCE.Hosts.Canonical
import TruenasCE.Hosts.Matching
import TruenasCE.Datasets.Locking
import TruenasCE.Actions.Entities
import TruenasCE.Actions.Loud
import TruenasCE.Actions.Locking
import TruenasCE.Api.Calls
import TruenasCE.Api.Errors
import TruenasCE.Redaction.Graph
import TruenasCE.Redaction.Walk
import TruenasCE.Redaction.Masked
import TruenasCE.Library.Settling
import TruenasCE.Units.Registry
import TruenasCE.Units.Migration
import TruenasCE.Library.Precedence
import TruenasCE.Identity.Displacement
import TruenasCE.ApiParser.Raises
import TruenasCE.ApiParser.Surviving
import TruenasCE.AppUpdate.Reading
import TruenasCE.AppStats.Reading
