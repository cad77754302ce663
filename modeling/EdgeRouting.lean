import EdgeRouting.Blueprint.Basic
import EdgeRouting.Blueprint.Dependency
import EdgeRouting.CommandLine.Basic
import EdgeRouting.CommandLine.Help
import EdgeRouting.CommandLine.Options
import EdgeRouting.CommandLine.Outcome
import EdgeRouting.Document
import EdgeRouting.EdgeLogic
import EdgeRouting.Http.Basic
import EdgeRouting.Http.Form
import EdgeRouting.Http.Script
import EdgeRouting.Http.Store
import EdgeRouting.Json.Basic
import EdgeRouting.Json.Reader
import EdgeRouting.Json.Writer
import EdgeRouting.Logic.Condition
import EdgeRouting.Logic.Eval
import EdgeRouting.Logic.Lexeme
import EdgeRouting.Logic.Literal
import EdgeRouting.Logic.Pattern
import EdgeRouting.Logic.Program
import EdgeRouting.Logic.Render
import EdgeRouting.Logic.Scope
import EdgeRouting.Main
import EdgeRouting.Outbound.Basic
import EdgeRouting.Outbound.Logic
import EdgeRouting.Path.Grammar
import EdgeRouting.Path.Inbound
import EdgeRouting.Platform.Basic
import EdgeRouting.Platform.Memory
import EdgeRouting.Proofs.Blueprint.Layers
import EdgeRouting.Proofs.Logic.Match
import EdgeRouting.Proofs.Logic.Run
import EdgeRouting.Proofs.Names
import EdgeRouting.Proofs.Outbound.Agreement
import EdgeRouting.Proofs.Outbound.PathPattern
import EdgeRouting.Proofs.Rollout.Interleaving
import EdgeRouting.Proofs.Rollout.Sequential
import EdgeRouting.Proofs.Rollout.Transcript
import EdgeRouting.Proofs.Rollout.Walk
import EdgeRouting.Proofs.Selection.Agreement
import EdgeRouting.Proofs.Selection.InForce
import EdgeRouting.Proofs.Selection.Override
import EdgeRouting.Proofs.Weight.Sums
import EdgeRouting.Remote.Client
import EdgeRouting.Remote.Reply
import EdgeRouting.Resource.Basic
import EdgeRouting.Resource.Fields
import EdgeRouting.Rollout.Basic
import EdgeRouting.Rollout.Interleaving
import EdgeRouting.Rollout.Session
import EdgeRouting.Selection.Logic
import EdgeRouting.Selection.Selector
import EdgeRouting.Selection.Subfield
import EdgeRouting.Settings.Basic
import EdgeRouting.Settings.Decode
import EdgeRouting.Settings.Json
import EdgeRouting.Settings.Loading
import EdgeRouting.Settings.Validation
import EdgeRouting.Simulation
import EdgeRouting.Target
import EdgeRouting.Template.Basic
import EdgeRouting.Template.Grammar
import EdgeRouting.Template.Printer
import EdgeRouting.Text.Blank
import EdgeRouting.Text.Digits
import EdgeRouting.Text.LowerCase
import EdgeRouting.Text.LowerCaseTable
import EdgeRouting.Text.Occurrence
import EdgeRouting.Text.Pieces
import EdgeRouting.Text.PrintableTable
import EdgeRouting.Text.Quoted
import EdgeRouting.Text.Read
import EdgeRouting.Text.Share
import EdgeRouting.Toml.Basic
import EdgeRouting.Toml.Lexeme
import EdgeRouting.Toml.Reader
import EdgeRouting.Toml.Tree
import EdgeRouting.Url.Address
import EdgeRouting.Url.Basic
import EdgeRouting.Url.Domain
import EdgeRouting.Url.Fault
import EdgeRouting.Url.Host
import EdgeRouting.Url.Parser
import EdgeRouting.Url.Percent
import EdgeRouting.Url.Punycode
import EdgeRouting.Weight.Shares
import EdgeRouting.Weight.Table
import EdgeRouting.Word
import EdgeRouting.Proofs.Blueprint.Canonical
import EdgeRouting.Proofs.Path.Cuts
import EdgeRouting.Proofs.Rollout.Replay
import EdgeRouting.Proofs.Rollout.Session
import EdgeRouting.Proofs.Logic.Constants
import EdgeRouting.Proofs.Logic.Scan
import EdgeRouting.Proofs.Logic.Strings
import EdgeRouting.Proofs.Blueprint.Stages
import EdgeRouting.Proofs.Rollout.Preparation
import EdgeRouting.Proofs.Template.Printing
import EdgeRouting.Proofs.Template.Append
import EdgeRouting.Proofs.Settings.Agreement
import EdgeRouting.Proofs.Rollout.Backends
import EdgeRouting.Remote.Interleaving
import EdgeRouting.Proofs.Url.Segments
import EdgeRouting.Proofs.Remote.Conversations
import EdgeRouting.Proofs.Remote.Requests
import EdgeRouting.Proofs.Remote.OwnVersion
import EdgeRouting.Proofs.Remote.Sequential
import EdgeRouting.Proofs.Selection.Winner
import EdgeRouting.Proofs.Selection.Thresholds
import EdgeRouting.Proofs.Selection.Draws
import EdgeRouting.Proofs.Selection.Pairs
import EdgeRouting.Proofs.Selection.PinnedRun
import EdgeRouting.Proofs.Blueprint.Faults
import EdgeRouting.Proofs.Outbound.Served
import EdgeRouting.Proofs.Logic.Scope
import EdgeRouting.Proofs.Logic.WellFormed
import EdgeRouting.Proofs.Remote.Secret
import EdgeRouting.Proofs.Logic.Conditions
import EdgeRouting.Proofs.Logic.RawText
import EdgeRouting.Proofs.Selection.FallbackText
import EdgeRouting.Proofs.Url.Percent
import EdgeRouting.Proofs.Url.Whole
import EdgeRouting.Proofs.Remote.Addresses
import EdgeRouting.Proofs.Http.Form
import EdgeRouting.Proofs.Http.Store
import EdgeRouting.Proofs.Remote.Upserts
import EdgeRouting.Proofs.Text.LowerCase
import EdgeRouting.Proofs.Text.Occurrence
import EdgeRouting.Proofs.Remote.Refusals
import EdgeRouting.Proofs.Text.ByteOrder
import EdgeRouting.Proofs.Weight.Entries
import EdgeRouting.Proofs.Weight.History
import EdgeRouting.Proofs.Weight.Written
import EdgeRouting.Proofs.Settings.Reports
import EdgeRouting.Proofs.Weight.Spellings
import EdgeRouting.Proofs.Outbound.Divider
import EdgeRouting.Proofs.Remote.BaseVersion
import EdgeRouting.Proofs.Simulation
import EdgeRouting.Proofs.Weight.Saturation
import EdgeRouting.Proofs.Settings.Skew
import EdgeRouting.Proofs.Logic.Literal
import EdgeRouting.Proofs.Selection.Subfield
