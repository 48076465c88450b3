import JobLedger.Record.History
import JobLedger.Record.Progress
import JobLedger.Text.Blank
import JobLedger.Text.Cut
import JobLedger.Name.Checkpoint
import JobLedger.Name.Pattern
import JobLedger.Name.Step
import JobLedger.Json.Printer
import JobLedger.Json.Reader
import JobLedger.Codec
import JobLedger.Call
import JobLedger.Memory.Store
import JobLedger.Operation
import JobLedger.Durable.Edit
import JobLedger.Durable.Image
import JobLedger.Files.Edit
import JobLedger.Main
import JobLedger.Proofs.Json.Survival
import JobLedger.Proofs.Blob
import JobLedger.Proofs.Name.Checkpoint
import JobLedger.Proofs.Agreement
import JobLedger.Proofs.Memory.Consistent
import JobLedger.Proofs.Purging
import JobLedger.Proofs.Tokens.Explained
import JobLedger.Proofs.Abandoning
import JobLedger.Proofs.Freezing
import JobLedger.Proofs.Failing
import JobLedger.Proofs.RollUp
import JobLedger.Proofs.Damage
import JobLedger.Proofs.PartitionAgreement
import JobLedger.Proofs.StepIdentity
import JobLedger.Proofs.KeptHistory
import JobLedger.Proofs.Numbering
import JobLedger.Proofs.Interleaving
import JobLedger.Proofs.Restarts
import JobLedger.Proofs.StatusDamage
import JobLedger.Proofs.Invocations
import JobLedger.Proofs.Paging
import JobLedger.Proofs.RecentSteps
import JobLedger.Proofs.PartitionTotals
import JobLedger.Proofs.StepReplacement
import JobLedger.Proofs.Aggregation
import JobLedger.Proofs.Name.Grammar
import JobLedger.Proofs.Durable.KeyPrefixes
import JobLedger.Proofs.Tokens.Typed
import JobLedger.Proofs.Moves.Folding
import JobLedger.Proofs.Time.RoundTrip
import JobLedger.Proofs.Time.Fraction
import JobLedger.Proofs.Config.Limits
