import McoaGateway.GoString
import McoaGateway.Utf8
import McoaGateway.Path
import McoaGateway.Labels
import McoaGateway.Quote
import McoaGateway.Http
import McoaGateway.MediaType
import McoaGateway.Url
import McoaGateway.Authentication.TenantHeader
import McoaGateway.Authentication.Providers
import McoaGateway.Authentication.Startup
import McoaGateway.Authorization.Tenant
import McoaGateway.Authorization.ReadChain
import McoaGateway.Metrics.LabelsEnforcer
import McoaGateway.Chi
import McoaGateway.Server
import McoaGateway.Metrics.Handler
import McoaGateway.Logs.Handler
import McoaGateway.Traces.Handler
import McoaGateway.Gateway
import McoaGateway.Mediation
import McoaGateway.Metrics.SelectorParam
import McoaGateway.Logs.RuleNamespace
import McoaGateway.Goyacc.Derivation
import McoaGateway.TextScanner
import McoaGateway.Logql.Ast
import McoaGateway.Logql.Print
import McoaGateway.Logql.Walk
import McoaGateway.Logql.Lexer
import McoaGateway.Logql.Grammar
import McoaGateway.Logql.Tables
import McoaGateway.Logql.Parser
import McoaGateway.RateLimit.Gcra
import McoaGateway.RateLimit.Http
import McoaGateway.Metrics.AlertmanagerFilter
import McoaGateway.Metrics.Silences
import McoaGateway.Tls.CaWatcher
import McoaGateway.Tls.Options
import McoaGateway.Traces.Rbac
import McoaGateway.TextScanner.Reading
import McoaGateway.Logql.Lexing
import McoaGateway.Goyacc.Stack
import McoaGateway.Goyacc.Guarded
import McoaGateway.Logql.Returns
import McoaGateway.Logql.Actions
import McoaGateway.Logql.Results
import McoaGateway.Logql.Coverage
import McoaGateway.Logs.LabelsEnforcer
import McoaGateway.Logs.CombinedMatchers
import McoaGateway.RateLimit.Predictions
import McoaGateway.RateLimit.RetryAfter
import McoaGateway.Logql.Lookahead
import McoaGateway.Goyacc.References
import McoaGateway.Logql.NumberFilters
import McoaGateway.Traces.Responses
import McoaGateway.RequestUri
import McoaGateway.Tls.CaReload
import McoaGateway.Traces.TemplatedUpstream
import McoaGateway.Json
import McoaGateway.Rules.Document
import McoaGateway.Rules.Enforcement
import McoaGateway.Rules.Frame
import McoaGateway.Goyacc.Pool
import McoaGateway.Logql.Located
import McoaGateway.Logql.Pooled
import McoaGateway.Goyacc.Reaches
import McoaGateway.TextScanner.Known
import McoaGateway.Logql.TokenText
import McoaGateway.Logql.LiteralText
import McoaGateway.Logql.Lexemes
import McoaGateway.Logql.Stages
import McoaGateway.Logql.Writable
import McoaGateway.Logql.Decisions
import McoaGateway.Logql.Reads
import McoaGateway.Logql.RangeReads
import McoaGateway.Logql.Reparse
import McoaGateway.Logql.RangeText
import McoaGateway.Logql.QueryText
import McoaGateway.Logs.TextIsolation
import McoaGateway.Base64
import McoaGateway.JsonText
import McoaGateway.StreamCipher
import McoaGateway.Authentication.CookieCipher
import McoaGateway.Probes.Handler
import McoaGateway.Probes.Forwarding
import McoaGateway.Probes.TenantLabel
import McoaGateway.Authentication.LoginRoutes
