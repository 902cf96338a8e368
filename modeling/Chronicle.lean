import Chronicle.Entity.Account
import Chronicle.Entity.Event
import Chronicle.Lease.Acquire
import Chronicle.Lease.Keyed
import Chronicle.Lease.Memory
import Chronicle.OrderedMap.Lemmas
import Chronicle.Proofs.Account.AppendOnly
import Chronicle.Proofs.Account.Counts
import Chronicle.Proofs.Account.Histories
import Chronicle.Proofs.Account.Indexes
import Chronicle.Proofs.Account.Listing
import Chronicle.Proofs.Account.Recent
import Chronicle.Proofs.Account.Starts
import Chronicle.Proofs.Account.UniqueEmail
import Chronicle.Proofs.Account.Widening
import Chronicle.Proofs.Calendar.Days
import Chronicle.Proofs.Codec.SelfDelimiting
import Chronicle.Proofs.Event.Discovery
import Chronicle.Proofs.Event.Staleness
import Chronicle.Proofs.Identifier.Calendar
import Chronicle.Proofs.Identifier.Packing
import Chronicle.Proofs.Identifier.Spelling
import Chronicle.Proofs.Identifier.Text
import Chronicle.Proofs.Identifier.TextOrder
import Chronicle.Proofs.Issuing.Increase
import Chronicle.Proofs.Issuing.PastSequences
import Chronicle.Proofs.Issuing.Repeats
import Chronicle.Proofs.Issuing.Sequences
import Chronicle.Proofs.Lease.Cluster
import Chronicle.Proofs.Lease.Join
import Chronicle.Proofs.Lease.Lookup
import Chronicle.Proofs.Lease.Probes
import Chronicle.Proofs.Lease.Registry
import Chronicle.Proofs.Lease.Trails
import Chronicle.Proofs.Paging.Walk
import Chronicle.Proofs.Store.Agreement
import Chronicle.Proofs.Store.Faults
import Chronicle.Proofs.Store.FirstHolder
import Chronicle.Proofs.Store.LookupWalks
import Chronicle.Proofs.Store.Plans
import Chronicle.Proofs.Store.Readable
import Chronicle.Proofs.Store.Reports
import Chronicle.Proofs.Store.Window
import Chronicle.Proofs.Table.Announcements
import Chronicle.Proofs.Table.Batches
import Chronicle.Proofs.Table.Isolation
import Chronicle.Proofs.Table.KeyReading
import Chronicle.Proofs.Table.Origins
import Chronicle.Proofs.Table.Reachable
import Chronicle.Proofs.Table.Remains
import Chronicle.Proofs.Table.Walks
import Chronicle.Store.Write
import Chronicle.Table.Failing
import Chronicle.Table.Keyed
import Chronicle.Table.Sweeper
