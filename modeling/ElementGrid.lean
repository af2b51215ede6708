import ElementGrid.Bytes
import ElementGrid.Catalog
import ElementGrid.Cluster
import ElementGrid.Collection.Algebra
import ElementGrid.Collection.Basic
import ElementGrid.Collection.Build
import ElementGrid.Config
import ElementGrid.Decimal.Shortest
import ElementGrid.Dispatch
import ElementGrid.Document
import ElementGrid.Double.Basic
import ElementGrid.Double.Exponential
import ElementGrid.Double.Text
import ElementGrid.Element.Basic
import ElementGrid.Element.Catalogs
import ElementGrid.Element.Probe
import ElementGrid.Element.Standard
import ElementGrid.Event
import ElementGrid.Exchange.Gathered
import ElementGrid.Exchange.Group
import ElementGrid.Exchange.Program
import ElementGrid.Exchange.Session
import ElementGrid.Ident
import ElementGrid.Node
import ElementGrid.Placement
import ElementGrid.Proofs.Cluster.Creation
import ElementGrid.Proofs.Cluster.Ownership
import ElementGrid.Proofs.Collection.Canonical
import ElementGrid.Proofs.Collection.Picked
import ElementGrid.Proofs.Collection.Queries
import ElementGrid.Proofs.Collection.Slices
import ElementGrid.Proofs.Collection.Union
import ElementGrid.Proofs.Double.Rounding
import ElementGrid.Proofs.Double.Units
import ElementGrid.Proofs.Element.Candid
import ElementGrid.Proofs.Element.Rigid
import ElementGrid.Proofs.Element.Settled
import ElementGrid.Proofs.Element.Simulation
import ElementGrid.Proofs.Element.Traced
import ElementGrid.Proofs.Except
import ElementGrid.Proofs.Exchange.Finality
import ElementGrid.Proofs.Exchange.Gathered
import ElementGrid.Proofs.Exchange.Meeting
import ElementGrid.Proofs.Exchange.Resumption
import ElementGrid.Proofs.Exchange.Rounds
import ElementGrid.Proofs.Exchange.Succession
import ElementGrid.Proofs.Exchange.Table
import ElementGrid.Proofs.Exchange.Teardown
import ElementGrid.Proofs.Exchange.Turn
import ElementGrid.Proofs.Placement
import ElementGrid.Proofs.Placement.Arithmetic
import ElementGrid.Proofs.Placement.Balance
import ElementGrid.Proofs.Property.Reader
import ElementGrid.Proofs.Random.Ranges
import ElementGrid.Proofs.Random.Refusals
import ElementGrid.Proofs.Registry.Agreement
import ElementGrid.Proofs.Registry.Allocation
import ElementGrid.Proofs.Registry.Arithmetic
import ElementGrid.Proofs.Registry.Balance
import ElementGrid.Proofs.Registry.Disagreement
import ElementGrid.Proofs.Registry.Faults
import ElementGrid.Proofs.Registry.Initialization
import ElementGrid.Proofs.Registry.Instances
import ElementGrid.Proofs.Registry.Isolation
import ElementGrid.Proofs.Registry.Lookups
import ElementGrid.Proofs.Registry.Numbering
import ElementGrid.Proofs.Registry.Parallel
import ElementGrid.Proofs.Registry.Population
import ElementGrid.Proofs.Registry.Readback
import ElementGrid.Proofs.Registry.Regrouping
import ElementGrid.Proofs.Registry.Reinit
import ElementGrid.Proofs.Registry.Relaxation
import ElementGrid.Proofs.Registry.Renewal
import ElementGrid.Proofs.Registry.Seats
import ElementGrid.Proofs.Registry.Simulation
import ElementGrid.Proofs.Registry.Structure
import ElementGrid.Proofs.Registry.Threads
import ElementGrid.Proofs.Registry.Tracing
import ElementGrid.Proofs.Registry.Writing
import ElementGrid.Proofs.SortedMap
import ElementGrid.Proofs.Store
import ElementGrid.Proofs.Store.Search
import ElementGrid.Proofs.View.Agreement
import ElementGrid.Proofs.View.Cache
import ElementGrid.Proofs.View.CachedLayer
import ElementGrid.Proofs.View.Canonical
import ElementGrid.Proofs.View.Contribution
import ElementGrid.Proofs.View.Delivery
import ElementGrid.Proofs.View.Failure
import ElementGrid.Proofs.View.Grammar
import ElementGrid.Proofs.View.Layouts
import ElementGrid.Proofs.View.LowestRank
import ElementGrid.Proofs.View.Records
import ElementGrid.Proofs.View.Scan
import ElementGrid.Proofs.View.Source
import ElementGrid.Proofs.View.Teardown
import ElementGrid.Property.Reader
import ElementGrid.Property.Value
import ElementGrid.Random.ChaCha
import ElementGrid.Random.Draw
import ElementGrid.Random.Generator
import ElementGrid.Registry.Basic
import ElementGrid.Registry.Command
import ElementGrid.Registry.Create
import ElementGrid.Registry.Error
import ElementGrid.Registry.Lifecycle
import ElementGrid.Registry.Lookup
import ElementGrid.Registry.Relaxation
import ElementGrid.Registry.Status
import ElementGrid.SortedMap
import ElementGrid.Store
import ElementGrid.Sweep
import ElementGrid.Text.Inspect
import ElementGrid.Text.Quoted
import ElementGrid.Text.Unwritable
import ElementGrid.View.Cache
import ElementGrid.View.Canonical
import ElementGrid.View.Contribution
import ElementGrid.View.Error
import ElementGrid.View.Gather
import ElementGrid.View.Payload
import ElementGrid.View.Policy
import ElementGrid.View.Source
import ElementGrid.Word
