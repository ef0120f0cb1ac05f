import TxStore.Table.Basic
import TxStore.Transaction.Session
import TxStore.Fixture.Seed
import TxStore.Workload.Counter
import TxStore.Proofs.Lock.Deadlock
import TxStore.Proofs.Lock.Redundancy
import TxStore.Proofs.Lock.Priority
import TxStore.Proofs.Lock.HandOver
import TxStore.Proofs.Lock.Order
import TxStore.Proofs.Lock.Abandonment
import TxStore.Proofs.Lock.Session
import TxStore.Proofs.Database.Serializable
import TxStore.Proofs.Database.Handles
import TxStore.Proofs.Database.Refusals
import TxStore.Proofs.Database.Settled
import TxStore.Proofs.Database.Implicit
import TxStore.Proofs.Database.Noninterference
import TxStore.Proofs.Database.Overlay
import TxStore.Proofs.Database.Reports
import TxStore.Proofs.Database.Failures
import TxStore.Proofs.Database.Errors
import TxStore.Proofs.Workload.Counter
import TxStore.Proofs.Registry
import TxStore.Proofs.Table.TypedMap
import TxStore.Proofs.Table.IntMap
import TxStore.Proofs.Value.Json
import TxStore.Proofs.Fixture.Json
import TxStore.Proofs.Fixture.Seed
import TxStore.Proofs.Hash
import TxStore.Proofs.Database.Grouping
import TxStore.Proofs.Transaction.Guards
