import Registrar.Main
import Registrar.Monitor.Loop
import Registrar.Monitor.Rehearsal
import Registrar.Proofs.Mailbox.Attempt
import Registrar.Proofs.Mailbox.Record
import Registrar.Proofs.Mailbox.Consistency
import Registrar.Proofs.Mailbox.Precedence
import Registrar.Proofs.Radix
import Registrar.Proofs.Script.Placement
import Registrar.Proofs.Script.Grammar
import Registrar.Proofs.Script.Composition
import Registrar.Proofs.Script.LookUp
import Registrar.Proofs.Script.Failure
import Registrar.Proofs.Script.Assembly
import Registrar.Proofs.Script.Integer
import Registrar.Proofs.Script.RoundTrip
import Registrar.Proofs.Script.DataPush
import Registrar.Proofs.Contract.Invocation
import Registrar.Proofs.Contract.Extraction
import Registrar.Proofs.Contract.Deployment
import Registrar.Proofs.Chain.Store
import Registrar.Proofs.Chain.Cache.Coherence
import Registrar.Proofs.Chain.Cache.History
import Registrar.Proofs.Chain.Cache.Inclusion
import Registrar.Proofs.Monitor.Contribution
import Registrar.Proofs.Monitor.Scanning
import Registrar.Proofs.Monitor.Reachable
import Registrar.Proofs.Monitor.Polling
import Registrar.Proofs.Monitor.EndToEnd
import Registrar.Proofs.Monitor.Irrelevance
import Registrar.Proofs.Monitor.LookUp
import Registrar.Proofs.Monitor.Loop.Execution
import Registrar.Proofs.Monitor.Loop.Polls
import Registrar.Proofs.Monitor.Loop.Stopping
import Registrar.Monitor.Stoppers
import Registrar.Proofs.Monitor.Stoppers
import Registrar.Proofs.Mailbox.Report
import Registrar.Proofs.Monitor.History
import Registrar.Proofs.Monitor.Tally
import Registrar.Proofs.Monitor.Replay
import Registrar.Proofs.Time.Calendar
import Registrar.Proofs.Time.Timestamp
import Registrar.Proofs.Text.Hex
import Registrar.Proofs.Text.Json.Strings
import Registrar.Proofs.Text.Json.Numbers
import Registrar.Proofs.Text.Json.Reading
import Registrar.Proofs.Chain.Exchange
import Registrar.Proofs.Text.Base58
import Registrar.Proofs.Contract.LookUp
import Registrar.Proofs.Contract.Sites
import Registrar.Proofs.Contract.Composition
import Registrar.Proofs.ScriptHash.Address
import Registrar.Proofs.Monitor.Recording
import Registrar.Proofs.Monitor.Outcome
import Registrar.Proofs.Monitor.Account
import Registrar.Proofs.Mailbox.Independence
import Registrar.Proofs.Mailbox.Naming
import Registrar.Proofs.Monitor.Boundaries
import Registrar.Proofs.Chain.Commitment
import Registrar.Proofs.Text.Hex.Grammar
import Registrar.Proofs.Text.Utf8.WellFormed
import Registrar.Proofs.Script.Listing
import Registrar.Proofs.ScriptHash.Text
import Registrar.Proofs.Contract.Counting
import Registrar.Proofs.Monitor.Loop.Following
