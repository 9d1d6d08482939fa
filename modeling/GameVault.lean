import GameVault.Double.Basic
import GameVault.Double.Round
import GameVault.Double.Shortest
import GameVault.Double.Text
import GameVault.Value.Basic
import GameVault.Value.Order
import GameVault.Sorting.Hybrid
import GameVault.Text.Hidden
import GameVault.Text.Quoted
import GameVault.Schema.Fault
import GameVault.Cbor.Error
import GameVault.Cbor.Head
import GameVault.Cbor.Encode
import GameVault.Cbor.Decode
import GameVault.Protocol.Message
import GameVault.Json.Number
import GameVault.Json.Read
import GameVault.Json.Write
import GameVault.Protocol.Failure
import GameVault.Protocol.Fields
import GameVault.Protocol.Values
import GameVault.Cbor.Item
import GameVault.Protocol.Documents
import GameVault.Query.Filter
import GameVault.Query.Sort
import GameVault.Hash.Xxh3
import GameVault.Entity.Fingerprint
import GameVault.Protocol.Queries
import GameVault.Value.Diagnostic
import GameVault.Database.Error
import GameVault.Database.Address
import GameVault.Database.Collection
import GameVault.Database.World
import GameVault.Entity.Audit
import GameVault.Schema.Record
import GameVault.Entity.Basic
import GameVault.Entity.Change
import GameVault.Store.Basic
import GameVault.Store.Reads
import GameVault.Store.Writes
import GameVault.Stress.Run
import GameVault.Entity.Mutation
import GameVault.Protocol.Entities
import GameVault.Protocol.Session.Basic
import GameVault.Protocol.Session.Raw
import GameVault.Protocol.Session.Vars
import GameVault.Protocol.Session.Stores
import GameVault.Protocol.Session.Run
import GameVault.Protocol.Answer
import GameVault.Proofs.Value.Basic
import GameVault.Proofs.Cbor.Head
import GameVault.Proofs.Cbor.Reader
import GameVault.Proofs.Cbor.Writer
import GameVault.Proofs.Cbor.RoundTrip
import GameVault.Proofs.Cbor.Canonical
import GameVault.Proofs.Database.Collection
import GameVault.Proofs.Database.Requests
import GameVault.Proofs.Database.Target
import GameVault.Proofs.Entity.Document
import GameVault.Proofs.Entity.ReadBack
import GameVault.Proofs.Store.Operations
import GameVault.Proofs.Store.Registry
import GameVault.Proofs.Store.Tracking
import GameVault.Proofs.Store.Outcomes
import GameVault.Proofs.Store.Stamps
import GameVault.Proofs.Query.Combinators
import GameVault.Proofs.Store.LiveReads
import GameVault.Proofs.Store.Reloads
import GameVault.Proofs.Store.Changes
import GameVault.Proofs.Store.Keyed
import GameVault.Proofs.Stress.Calls
import GameVault.Proofs.Stress.Interleaving
import GameVault.Proofs.Cbor.Injective
import GameVault.Proofs.Entity.Fingerprint
import GameVault.Proofs.Value.KeyOrder
import GameVault.Proofs.Sorting.Stable
import GameVault.Proofs.Sorting.Small
import GameVault.Proofs.Double.Order
import GameVault.Proofs.Sorting.Quick
import GameVault.Proofs.Value.QueryOrder
import GameVault.Proofs.Value.CanonicalOrder
import GameVault.Proofs.Value.MapLaws
import GameVault.Proofs.Store.SortedReads
import GameVault.Proofs.Database.Bulk
import GameVault.Proofs.Database.Replace
import GameVault.Proofs.Store.Indexes
import GameVault.Proofs.Store.Batches
import GameVault.Proofs.Cbor.Progress
import GameVault.Proofs.Cbor.Bridge
