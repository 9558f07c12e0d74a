import Discovery.Endpoint.Reader
import Discovery.Locks.Parties
import Discovery.Meter.Exposition
import Discovery.Registry.Settings
import Discovery.Scenario.Run
import Discovery.Settings.Load
import Discovery.Proofs.Registry.Effect
import Discovery.Proofs.Registry.Moves
import Discovery.Proofs.Tree.Reach
import Discovery.Proofs.Registry.OneWatch
import Discovery.Proofs.Registry.FanOut
import Discovery.Proofs.Registry.CatchUp
import Discovery.Proofs.Roster
import Discovery.Proofs.Scenario.Simulation
import Discovery.Proofs.Locks.Fair
import Discovery.Proofs.Services.OneListener
import Discovery.Proofs.Registry.Leftovers
import Discovery.Proofs.Registry.Confluence
import Discovery.Proofs.Registry.Ending
import Discovery.Proofs.Remote.Traffic
import Discovery.Proofs.Registry.Registration
import Discovery.Proofs.Scenario.Observed
import Discovery.Proofs.Endpoint.Key
import Discovery.Proofs.Naming.Directory
import Discovery.Proofs.Services.Books
import Discovery.Proofs.Services.Removal
import Discovery.Proofs.Services.Agreement
import Discovery.Proofs.Services.Broadcast
import Discovery.Proofs.Services.PerInstance
import Discovery.Proofs.Remote.Beats
import Discovery.Proofs.Scenario.Airing
import Discovery.Proofs.Endpoint.Faithful
import Discovery.Proofs.Registry.OnePlace
import Discovery.Proofs.Registry.LastWriter
import Discovery.Proofs.Naming.Atlas
import Discovery.Proofs.Tree.Closing
import Discovery.Proofs.Tree.History
import Discovery.Proofs.Roster.Rounds
import Discovery.Proofs.Registry.Failures
import Discovery.Proofs.Locks.Slots
import Discovery.Proofs.Tree.Watchers
import Discovery.Proofs.Tree.Nesting
import Discovery.Proofs.Services.Dropped
import Discovery.Proofs.Registry.Apart
import Discovery.Proofs.Remote.Rejection
import Discovery.Proofs.Remote.Grant
import Discovery.Proofs.Settings.Override
import Discovery.Proofs.Roster.Attached
import Discovery.Proofs.Remote.Tokens
import Discovery.Proofs.Remote.Polling
import Discovery.Proofs.Payload
import Discovery.Proofs.Tree.Children
import Discovery.Proofs.Registry.Relay
import Discovery.Proofs.Registry.Placing
import Discovery.Proofs.Remote.Identity
import Discovery.Proofs.Naming.Group
import Discovery.Proofs.Remote.Bounded
import Discovery.Proofs.Remote.Listeners
import Discovery.Proofs.Registry.Climbing
