import AppHost.Admin.Page
import AppHost.Admin.Status
import AppHost.Application
import AppHost.Cli.Arguments
import AppHost.Cli.Report
import AppHost.Config.Codec
import AppHost.Config.Loader
import AppHost.Config.Schema
import AppHost.Config.Validation
import AppHost.Data
import AppHost.Data.Json
import AppHost.Duration
import AppHost.Files
import AppHost.Gateway
import AppHost.Handle
import AppHost.Http.Header
import AppHost.Http.Message
import AppHost.Http.Target
import AppHost.Index.Heap
import AppHost.Index.Landing
import AppHost.IoError
import AppHost.Journal
import AppHost.Launch
import AppHost.Log.Event
import AppHost.Log.Filter
import AppHost.Main
import AppHost.Metrics
import AppHost.Mount.Error
import AppHost.Mount.Info
import AppHost.Mount.Table
import AppHost.Net.Bind
import AppHost.Net.Ip
import AppHost.Registry
import AppHost.Retry.Backoff
import AppHost.Retry.Policy
import AppHost.Router
import AppHost.Router.Changes
import AppHost.Routing.Classify
import AppHost.Routing.Names
import AppHost.Routing.Scope
import AppHost.Serve.Attempt
import AppHost.Serve.Failure
import AppHost.Serve.Loop
import AppHost.Serve.Shutdown
import AppHost.Serve.State
import AppHost.Serve.Trace
import AppHost.Server.Basic
import AppHost.Server.Host
import AppHost.Server.Tenancy
import AppHost.Text.Ascii
import AppHost.Text.Printable
import AppHost.Text.Quoted
import AppHost.Text.Utf8
import AppHost.Tls.Curve
import AppHost.Tls.Der
import AppHost.Tls.Digest
import AppHost.Tls.Edwards
import AppHost.Tls.Error
import AppHost.Tls.Material
import AppHost.Tls.Pem
import AppHost.Toml.Document
import AppHost.Toml.Lexeme
import AppHost.Toml.Number
import AppHost.Toml.Table
import AppHost.Proofs.Heap.Elements
import AppHost.Proofs.Rights.Desk
import AppHost.Proofs.Heap.History
import AppHost.Proofs.Heap.InPlace
import AppHost.Proofs.Mount.History
import AppHost.Proofs.Serve.Lap
import AppHost.Proofs.Retry.Delay
import AppHost.Proofs.Retry.Decisions
import AppHost.Proofs.Retry.Bursts
import AppHost.Proofs.Serve.Stop
import AppHost.Proofs.Serve.Trace
import AppHost.Proofs.Serve.Policy
import AppHost.Proofs.Mount.Guard
import AppHost.Proofs.Mount.Invariant
import AppHost.Proofs.Mount.Permutation
import AppHost.Proofs.Mount.Outcome
import AppHost.Proofs.Routing.Classify
import AppHost.Proofs.Routing.Dispatch
import AppHost.Proofs.Routing.Redirect
import AppHost.Proofs.Serve.Abandon
import AppHost.Proofs.Serve.Protocol
import AppHost.Proofs.Serve.Cut
import AppHost.Proofs.Serve.Reports
import AppHost.Proofs.Routing.Prefix
import AppHost.Proofs.Routing.Gateway
import AppHost.Proofs.Routing.Nesting
import AppHost.Proofs.Routing.Identifier
import AppHost.Proofs.Routing.Forward
import AppHost.Proofs.Admin.Access
import AppHost.Proofs.Admin.Landing
import AppHost.Proofs.Admin.Removal
import AppHost.Proofs.Admin.Key
import AppHost.Proofs.Config.Validity
import AppHost.Proofs.Data.Json
import AppHost.Proofs.Config.Spelling
import AppHost.Proofs.Server.Generations
import AppHost.Proofs.Server.Reload
import AppHost.Proofs.Server.Address
import AppHost.Proofs.Net.Literal
