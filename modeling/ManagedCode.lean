import ManagedCode.Assembler
import ManagedCode.Verify
import ManagedCode.Proofs.Checks
import ManagedCode.Proofs.Universe.Building
import ManagedCode.Proofs.Universe.Loops
import ManagedCode.Proofs.Universe.Reachability
import ManagedCode.Proofs.Universe.Registry
import ManagedCode.Proofs.Universe.Tokens
import ManagedCode.Proofs.Typing.Ancestors
import ManagedCode.Proofs.Typing.Locations
import ManagedCode.Proofs.Typing.Subtyping
import ManagedCode.Proofs.Code.Commands
import ManagedCode.Proofs.Code.Displacements
import ManagedCode.Proofs.Code.Encoding
import ManagedCode.Proofs.Code.EntryPoints
import ManagedCode.Proofs.Code.EntrySteps
import ManagedCode.Proofs.Code.Forms
import ManagedCode.Proofs.Code.Listing
import ManagedCode.Proofs.Code.Marks
import ManagedCode.Proofs.Code.OffsetSets
import ManagedCode.Proofs.Code.Patching
import ManagedCode.Proofs.Code.PrefixCode
import ManagedCode.Proofs.Code.Relocation
import ManagedCode.Proofs.Code.RoundTrip
import ManagedCode.Proofs.Code.Scan
import ManagedCode.Proofs.Code.Words
import ManagedCode.Proofs.Labels.Agreement
import ManagedCode.Proofs.Labels.Bounds
import ManagedCode.Proofs.Labels.Gathering
import ManagedCode.Proofs.Labels.History
import ManagedCode.Proofs.Labels.Lookup
import ManagedCode.Proofs.Labels.Relocation
import ManagedCode.Proofs.Labels.Renumbering
import ManagedCode.Proofs.Labels.Store
import ManagedCode.Proofs.Labels.Widening
import ManagedCode.Proofs.Effect.Blocks
import ManagedCode.Proofs.Effect.Counts
import ManagedCode.Proofs.Effect.Covering
import ManagedCode.Proofs.Effect.Exchange
import ManagedCode.Proofs.Effect.Narrowing
import ManagedCode.Proofs.Effect.RawPointers
import ManagedCode.Proofs.Effect.Relocation
import ManagedCode.Proofs.Effect.Reports
import ManagedCode.Proofs.Effect.SlotForms
import ManagedCode.Proofs.Effect.Slots
import ManagedCode.Proofs.Engine.Arrivals
import ManagedCode.Proofs.Engine.Bounds
import ManagedCode.Proofs.Engine.Catalogue
import ManagedCode.Proofs.Engine.Faults
import ManagedCode.Proofs.Engine.Invariants
import ManagedCode.Proofs.Engine.Modifiers
import ManagedCode.Proofs.Engine.Moments
import ManagedCode.Proofs.Engine.Narrowing
import ManagedCode.Proofs.Engine.Protocol
import ManagedCode.Proofs.Engine.RegionOrder
import ManagedCode.Proofs.Engine.Relocation
import ManagedCode.Proofs.Engine.Simulation
import ManagedCode.Proofs.Engine.Steps
import ManagedCode.Proofs.Engine.Visits
import ManagedCode.Proofs.Verify.Borders
import ManagedCode.Proofs.Verify.Confinement
import ManagedCode.Proofs.Verify.Counters
import ManagedCode.Proofs.Verify.Flow
import ManagedCode.Proofs.Verify.InitLocals
import ManagedCode.Proofs.Verify.Joins
import ManagedCode.Proofs.Verify.Modifiers
import ManagedCode.Proofs.Verify.Protocol
import ManagedCode.Proofs.Verify.RawPointers
import ManagedCode.Proofs.Verify.Reencoding
import ManagedCode.Proofs.Verify.RegionOrder
import ManagedCode.Proofs.Verify.RegionRules
import ManagedCode.Proofs.Verify.Regions
import ManagedCode.Proofs.Verify.Resolution
import ManagedCode.Proofs.Verify.Restarts
import ManagedCode.Proofs.Verify.Sessions
import ManagedCode.Proofs.Verify.SlotForms
import ManagedCode.Proofs.Verify.Thresholds
