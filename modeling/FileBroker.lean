import FileBroker.Access
import FileBroker.Audit
import FileBroker.Broker
import FileBroker.Broker.Connection
import FileBroker.Client
import FileBroker.CommandLine.Options
import FileBroker.CommandLine.Report
import FileBroker.Control
import FileBroker.Document.Schema
import FileBroker.Main
import FileBroker.Proofs.Calls
import FileBroker.Proofs.Frames
import FileBroker.Proofs.Refusals
import FileBroker.Proofs.Systems
import FileBroker.Proofs.Cargo
import FileBroker.Proofs.Answers
import FileBroker.Proofs.Conversations
import FileBroker.Proofs.FastChecks
import FileBroker.Proofs.Grammar
import FileBroker.Proofs.ReplyGrammar
import FileBroker.Proofs.Independence
import FileBroker.Proofs.Losses
import FileBroker.Proofs.LateReplies
import FileBroker.Proofs.Logs
import FileBroker.Proofs.Reach
import FileBroker.Proofs.DryRuns
import FileBroker.Proofs.Hierarchy
import FileBroker.Proofs.Tables
import FileBroker.Proofs.Receptions
import FileBroker.Proofs.Trees
import FileBroker.Proofs.Temporaries
import FileBroker.Proofs.Cursors
import FileBroker.Proofs.Settlements
import FileBroker.Proofs.CloseOnExec
import FileBroker.Proofs.LinkTargets
import FileBroker.Proofs.Cuts
import FileBroker.Proofs.Compilations
import FileBroker.Proofs.Documents
import FileBroker.Proofs.Builders
import FileBroker.Proofs.Readers
import FileBroker.Proofs.Unambiguity
import FileBroker.Proofs.Verdicts
