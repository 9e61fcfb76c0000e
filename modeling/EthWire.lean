import EthWire.Main
import EthWire.Proofs.Binary64.Decimal
import EthWire.Proofs.Binary64.Overflow
import EthWire.Proofs.CommandLine.Course
import EthWire.Proofs.CommandLine.Escape
import EthWire.Proofs.CommandLine.Interchange
import EthWire.Proofs.CommandLine.Reading
import EthWire.Proofs.CommandLine.Report
import EthWire.Proofs.CommandLine.Request
import EthWire.Proofs.CommandLine.Signing
import EthWire.Proofs.Config.RoundTrip
import EthWire.Proofs.Json.Decimal
import EthWire.Proofs.Json.Spelling
import EthWire.Proofs.Json.Surrogate
import EthWire.Proofs.Record.Answer
import EthWire.Proofs.Record.Canonical
import EthWire.Proofs.Record.Equality
import EthWire.Proofs.Record.JsonRoundTrip
import EthWire.Proofs.Record.Lookup
import EthWire.Proofs.Record.Respelling
import EthWire.Proofs.Record.Separation
import EthWire.Proofs.Record.Slices
import EthWire.Proofs.Rlp.Limit
import EthWire.Proofs.Rlp.Misspelling
import EthWire.Proofs.Rlp.Tree
import EthWire.Proofs.Secp256k1.RecoveryId
import EthWire.Proofs.Secp256k1.Twin
import EthWire.Proofs.Signer.Attachment
import EthWire.Proofs.Signer.History
import EthWire.Proofs.Signer.Malleability
import EthWire.Proofs.Signer.Outcome
import EthWire.Proofs.Signer.Payload
import EthWire.Proofs.Whisper.Answer
import EthWire.Proofs.Whisper.Assignment
import EthWire.Proofs.Whisper.Batch
import EthWire.Proofs.Whisper.History
import EthWire.Proofs.Whisper.RoundTrip
import EthWire.Proofs.Whisper.Rule
import EthWire.Record.Read
import EthWire.Value.Member
import EthWire.Value.Number
import EthWire.Whisper.Batch
