import Fava.Lib.Run
import Fava.Lib.BTree
import Fava.Lib.Upsert
import Fava.Lib.Watching
import Fava.Nostr.Event
import Fava.Relay.Connection
import Fava.Transport.Mailbox
import Fava.Transport.Subscription
import Fava.Transport.LossFirst
import Fava.Transport.Router
import Fava.Transport.Driver
import Fava.Transport.Generation
import Fava.Auth.Authenticator
import Fava.Auth.Placement
import Fava.Auth.AnswerInPlace
import Fava.Subscriptions.Filter
import Fava.Subscriptions.Plan
import Fava.Subscriptions.Conformance
import Fava.Subscriptions.Grouping
import Fava.Subscriptions.Standard
import Fava.Subscriptions.Coverage
import Fava.Subscriptions.Grouped
import Fava.Subscriptions.Fitting
import Fava.Subscriptions.Owners
import Fava.Subscriptions.Answers
import Fava.Subscriptions.Conforms
import Fava.Subscriptions.Planner
import Fava.Observe.Slot
import Fava.Observe.Engine
import Fava.Observe.Holding
import Fava.Observe.Core
import Fava.Observe.Sound
import Fava.Observe.Orphans
import Fava.Observe.EarlyTraffic
import Fava.Observe.Completeness
import Fava.Edits.Nip02
import Fava.Edits.Bookmarks
import Fava.Edits.SavedGroups
import Fava.Publication.EditApplication
import Fava.Publication.Outbox
import Fava.Publication.Signing
import Fava.Publication.Provenance
import Fava.Publication.Runners
import Fava.Publication.Sole
import Fava.Publication.Handoff
import Fava.Publication.Publisher
import Fava.Publication.Waiting
import Fava.Routing.Plan
import Fava.Write.Receipt
import Fava.WriteStore.Receipt
import Fava.WriteStore.Semantic
import Fava.WriteStore.Memory.Store
import Fava.WriteStore.Memory.Lifecycle
import Fava.WriteStore.Memory.Custody
import Fava.WriteStore.Memory.Coherence
import Fava.WriteStore.Memory.Changes
import Fava.WriteStore.Memory.Lanes
import Fava.WriteStore.Memory.Standing
import Fava.WriteStore.Memory.Signatures
import Fava.Observe.Slots
import Fava.Observe.Frame
import Fava.Observe.Sessions
import Fava.Observe.Closed
import Fava.Observe.Attribution
import Fava.Lib.First
import Fava.Observe.Assignment
import Fava.Observe.Evidence
import Fava.Observe.Reports
import Fava.Observe.Starvation
import Fava.Observe.Tended
import Fava.Publication.Completion
import Fava.WriteStore.Memory.Regular
import Fava.Lib.Json
import Fava.WriteStore.Redb.Schema
import Fava.WriteStore.Redb.Encoding
import Fava.Subscriptions.Matching
import Fava.Subscriptions.Shares
import Fava.Subscriptions.Exact
import Fava.Observe.Wire
import Fava.Observe.Differential
import Fava.Observe.Replanning
import Fava.Observe.Isolation
import Fava.Observe.FixedPoint
import Fava.Subscriptions.Order
import Fava.Observe.Children
import Fava.Session.Accounts
import Fava.Observe.CurrentAccount
import Fava.Cache.Memory
import Fava.State.Identity
import Fava.Cache.Invariant
import Fava.Cache.Confluence
import Fava.WriteStore.Memory.Atomicity
import Fava.WriteStore.Memory.Bounds
import Fava.WriteStore.Memory.Transition
import Fava.WriteStore.Memory.History
import Fava.WriteStore.Memory.Generations
import Fava.WriteStore.Outcome
import Fava.WriteStore.Memory.Capacity
import Fava.WriteStore.Redb.Store
import Fava.WriteStore.Redb.Operations
import Fava.WriteStore.Redb.Recovery
import Fava.WriteStore.Redb.Transition
import Fava.WriteStore.Memory.Settlement
import Fava.WriteStore.Redb.Mirror
import Fava.WriteStore.Redb.Loading
import Fava.WriteStore.Redb.Opening
import Fava.WriteStore.Redb.Settlement
import Fava.WriteStore.Redb.Retention
import Fava.Queries.Query
import Fava.Queries.Standard
import Fava.Queries.Merging
import Fava.Queries.Evaluation
import Fava.Queries.Noninterference
import Fava.Cache.Visibility
import Fava.Cache.Persistent
import Fava.Cache.Reload
import Fava.Cache.Refinement
import Fava.Routing.Chain
import Fava.Routing.Absence
import Fava.Routing.Replacement
import Fava.Routing.Bounds
import Fava.Observe.Family
import Fava.Observe.Delivery
import Fava.Auth.Progress
import Fava.Auth.Challenges
import Fava.Auth.Attempts
import Fava.Transport.Definite
import Fava.Auth.Verdicts
import Fava.Auth.Established
import Fava.Transport.Feed
import Fava.Transport.Registry
import Fava.Transport.Leases
import Fava.Lib.Claimed
import Fava.Transport.WireKeys
import Fava.Session.Mutators
import Fava.Edits.ContactList
import Fava.Edits.Follows
import Fava.Lib.Log
import Fava.Lib.Loop
import Fava.Subscriptions.Splitting
import Fava.Observe.Accounting
import Fava.Queries.Binding
import Fava.WriteStore.Redb.Rows
import Fava.WriteStore.Memory.Rerouting
import Fava.Observe.Crediting
import Fava.Routing.Shortfalls
import Fava.Routing.Coherence
import Fava.Lib.Settle
import Fava.Edits.Bookmarking
import Fava.Edits.BookmarkCodec
import Fava.Edits.FollowCodec
import Fava.Edits.SavedGroupCodec
import Fava.Edits.SavedGroupList
import Fava.Edits.EncodedSize
import Fava.Observe.LiveRetention
import Fava.Lib.Pool
import Fava.Runtime.Cancellation
import Fava.Runtime.Ownership
import Fava.Runtime.Propagation
import Fava.Runtime.Isolation
import Fava.Runtime.Registry
import Fava.Runtime.Slots
import Fava.Runtime.Accounting
import Fava.Runtime.Shutdown
import Fava.Routing.RelayLists
import Fava.Routing.Answers
import Fava.Routing.Outbox
import Fava.Routing.NewestLists
import Fava.Routing.Hints
import Fava.Routing.AppRelays
import Fava.Routing.Exact
import Fava.Routing.Accounts
import Fava.Routing.Provided
import Fava.Lib.Guarded
import Fava.WriteStore.Memory.Locked
