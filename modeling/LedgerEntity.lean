import LedgerEntity.Main
import LedgerEntity.Session
import LedgerEntity.TypedId
import LedgerEntity.Flavor.Decoding
import LedgerEntity.Document.Reader
import LedgerEntity.Proofs.Cache.Residency
import LedgerEntity.Proofs.Codec.Transparency
import LedgerEntity.Proofs.Decode.AddressSplit
import LedgerEntity.Proofs.EntityId.PackedOrder
import LedgerEntity.Proofs.Codec.IntegerInput
import LedgerEntity.Proofs.Decode.Forms
import LedgerEntity.Proofs.ContractReference.Agreement
import LedgerEntity.Proofs.ContractReference.Grammar
import LedgerEntity.Proofs.Codec.DottedInput
import LedgerEntity.Proofs.Codec.CacheSteps
import LedgerEntity.Proofs.Cache.Freshness
import LedgerEntity.Proofs.Codec.LargerCache
import LedgerEntity.Proofs.Codec.Observers
import LedgerEntity.Proofs.Codec.RejectedReading
import LedgerEntity.Proofs.Document.ReadBack
import LedgerEntity.Proofs.EntityId.RoundTrip
import LedgerEntity.Proofs.Decode.SystemShard
import LedgerEntity.Proofs.CommandLine.Lists
import LedgerEntity.Proofs.Decode.Flavors
import LedgerEntity.Proofs.CommandLine.Reading
import LedgerEntity.Proofs.Settings.Loading
import LedgerEntity.Proofs.CommandLine.ShardOption
import LedgerEntity.Proofs.Settings.FirstFault
import LedgerEntity.Proofs.Session.Isolation
import LedgerEntity.Proofs.Document.Lexemes
import LedgerEntity.Proofs.CommandLine.Views
