import Gatehouse.Args
import Gatehouse.Assembly
import Gatehouse.Body.Basic
import Gatehouse.Body.Pool
import Gatehouse.Body.Source
import Gatehouse.Breaker.Basic
import Gatehouse.Breaker.GuardedCall
import Gatehouse.Bytes
import Gatehouse.Config.Basic
import Gatehouse.Config.Decode
import Gatehouse.Config.Encode
import Gatehouse.Config.Environment
import Gatehouse.Config.Load
import Gatehouse.Config.Node
import Gatehouse.Config.Validate
import Gatehouse.Connection.Pipe
import Gatehouse.Connection.Timeout
import Gatehouse.Double
import Gatehouse.Double.Shortest
import Gatehouse.Error
import Gatehouse.Exchange.Basic
import Gatehouse.Exchange.Client
import Gatehouse.Exchange.Message
import Gatehouse.Exchange.Outgoing
import Gatehouse.Filter.Basic
import Gatehouse.Filter.Builder
import Gatehouse.Filter.Chain
import Gatehouse.Gateway
import Gatehouse.Handler.Basic
import Gatehouse.Handler.Mount
import Gatehouse.Handler.Refusal
import Gatehouse.Host.Pattern
import Gatehouse.Http.Cookie
import Gatehouse.Http.Form
import Gatehouse.Http.Header
import Gatehouse.Http.Target
import Gatehouse.Inspect
import Gatehouse.Json.Document
import Gatehouse.Json.Token
import Gatehouse.Json.Value
import Gatehouse.Json.Writer
import Gatehouse.Launch.Basic
import Gatehouse.Launch.CommandLine
import Gatehouse.Launch.Server
import Gatehouse.Log
import Gatehouse.Log.Directive
import Gatehouse.Log.Line
import Gatehouse.Log.Record
import Gatehouse.Main
import Gatehouse.Net.Address
import Gatehouse.Path.Pattern
import Gatehouse.Predicate.Basic
import Gatehouse.Predicate.Builder
import Gatehouse.Proofs.Args
import Gatehouse.Proofs.Assembly
import Gatehouse.Proofs.Body.Announcement
import Gatehouse.Proofs.Body.Circulation
import Gatehouse.Proofs.Body.Content
import Gatehouse.Proofs.Body.Loss
import Gatehouse.Proofs.Body.Reading
import Gatehouse.Proofs.Body.Source
import Gatehouse.Proofs.Breaker.Admission
import Gatehouse.Proofs.Breaker.Cooldown
import Gatehouse.Proofs.Breaker.Generations
import Gatehouse.Proofs.Breaker.GuardedCall
import Gatehouse.Proofs.Breaker.Operation
import Gatehouse.Proofs.Breaker.Outcomes
import Gatehouse.Proofs.Breaker.Usage
import Gatehouse.Proofs.Bytes
import Gatehouse.Proofs.Config.Duration
import Gatehouse.Proofs.Config.Expansion
import Gatehouse.Proofs.Config.Limits
import Gatehouse.Proofs.Config.Node
import Gatehouse.Proofs.Config.RoundTrip
import Gatehouse.Proofs.Config.Spec
import Gatehouse.Proofs.Connection.IdleTimeout
import Gatehouse.Proofs.Destination
import Gatehouse.Proofs.Double
import Gatehouse.Proofs.Except
import Gatehouse.Proofs.Exchange.Course
import Gatehouse.Proofs.Exchange.Logging
import Gatehouse.Proofs.Exchange.Scope
import Gatehouse.Proofs.Exchange.Stage
import Gatehouse.Proofs.Exchange.Traffic
import Gatehouse.Proofs.Filter.Chain
import Gatehouse.Proofs.Filter.HeaderEdits
import Gatehouse.Proofs.Filter.Logging
import Gatehouse.Proofs.Filter.PathEdit
import Gatehouse.Proofs.Filter.Redaction
import Gatehouse.Proofs.Filter.RequestHeader
import Gatehouse.Proofs.Filter.Response
import Gatehouse.Proofs.Forwarding
import Gatehouse.Proofs.Handler.Answer
import Gatehouse.Proofs.Handler.Timeline
import Gatehouse.Proofs.Host.Anchoring
import Gatehouse.Proofs.Host.Language
import Gatehouse.Proofs.Http.Cookie
import Gatehouse.Proofs.Http.HopByHop
import Gatehouse.Proofs.Http.Target
import Gatehouse.Proofs.Json.Document
import Gatehouse.Proofs.Json.Token
import Gatehouse.Proofs.Lookup
import Gatehouse.Proofs.Net.Address
import Gatehouse.Proofs.Path.Cut
import Gatehouse.Proofs.Path.Loss
import Gatehouse.Proofs.Path.Pattern
import Gatehouse.Proofs.Path.Segment
import Gatehouse.Proofs.RateLimit.Bucket
import Gatehouse.Proofs.RateLimit.Conformance
import Gatehouse.Proofs.RateLimit.Independence
import Gatehouse.Proofs.RateLimit.Key
import Gatehouse.Proofs.RateLimit.Sharing
import Gatehouse.Proofs.Regex.Expr
import Gatehouse.Proofs.Regex.Node
import Gatehouse.Proofs.Regex.Search
import Gatehouse.Proofs.Shutdown
import Gatehouse.Proofs.Text
import Gatehouse.Proofs.Time.Duration
import Gatehouse.Proofs.Url.Host
import Gatehouse.Proofs.Url.Path
import Gatehouse.Proofs.Url.Percent
import Gatehouse.Proofs.Url.Reading
import Gatehouse.Proofs.Url.Text
import Gatehouse.Proofs.Url.WellFormed
import Gatehouse.RateLimit.Bucket
import Gatehouse.RateLimit.Key
import Gatehouse.RateLimit.Limiter
import Gatehouse.Regex.Estimate
import Gatehouse.Regex.Expr
import Gatehouse.Regex.Node
import Gatehouse.Regex.Parser
import Gatehouse.Regex.Replacement
import Gatehouse.Regex.Search
import Gatehouse.Registry
import Gatehouse.Route
import Gatehouse.Scenario.Breaker
import Gatehouse.Scenario.Fault
import Gatehouse.Scenario.Input
import Gatehouse.Scenario.Network
import Gatehouse.Scenario.Report
import Gatehouse.Shutdown
import Gatehouse.Text.Base64
import Gatehouse.Text.Blank
import Gatehouse.Text.Utf8
import Gatehouse.Time.Clock
import Gatehouse.Time.Duration
import Gatehouse.Time.Timestamp
import Gatehouse.Time.Waiting
import Gatehouse.Tls.Certificate
import Gatehouse.Tls.Client
import Gatehouse.Tls.Curve
import Gatehouse.Tls.Der
import Gatehouse.Tls.Pem
import Gatehouse.Tls.PrivateKey
import Gatehouse.Toml.Document
import Gatehouse.Toml.Table
import Gatehouse.Unicode.Category
import Gatehouse.Unicode.CharSet
import Gatehouse.Unicode.Folding
import Gatehouse.Unicode.Property
import Gatehouse.Url.Basic
import Gatehouse.Url.Error
import Gatehouse.Url.Host
import Gatehouse.Url.Path
import Gatehouse.Url.Percent
import Gatehouse.Url.Punycode
import Gatehouse.Yaml.Cursor
import Gatehouse.Yaml.Document
import Gatehouse.Yaml.Scalar
