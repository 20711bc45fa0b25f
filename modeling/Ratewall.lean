import Ratewall.Foundation.Transition
import Ratewall.Foundation.Descent
import Ratewall.Foundation.Spacing
import Ratewall.Foundation.Streak
import Ratewall.Foundation.Slots
import Ratewall.Foundation.Program
import Ratewall.Foundation.Pool
import Ratewall.Foundation.Lock
import Ratewall.Foundation.Tally
import Ratewall.Foundation.Trail
import Ratewall.Foundation.Quota
import Ratewall.Foundation.Base64Url
import Ratewall.Foundation.Exposition.Token
import Ratewall.Foundation.Exposition.Line
import Ratewall.Foundation.Exposition.Document
import Ratewall.Json.Value
import Ratewall.Json.Text
import Ratewall.Http.Message
import Ratewall.Http.Client
import Ratewall.Http.Uri
import Ratewall.Http.Grammar
import Ratewall.Http.PathSegments
import Ratewall.Config
import Ratewall.Config.Documented
import Ratewall.Auth.Token
import Ratewall.Auth.Keys
import Ratewall.Auth.KeyPair
import Ratewall.Auth.Gate
import Ratewall.Auth.Startup
import Ratewall.RateLimit
import Ratewall.RateLimit.Redis
import Ratewall.RateLimit.Decide
import Ratewall.RateLimit.Limiting
import Ratewall.RateLimit.Window
import Ratewall.RateLimit.Budget
import Ratewall.Circuit.Breaker
import Ratewall.Circuit.Clocked
import Ratewall.Circuit.Representation
import Ratewall.Circuit.Calls
import Ratewall.Metrics
import Ratewall.Metrics.Atomic
import Ratewall.Metrics.Render
import Ratewall.Metrics.Exposed
import Ratewall.Router.Forward
import Ratewall.Router.Headers
import Ratewall.Router.Exchange
import Ratewall.Router.Discipline
import Ratewall.Router.Service
import Ratewall.Router.Assembly
import Ratewall.Router.Dispatch
import Ratewall.Router.Budget
import Ratewall.Router.Confinement
import Ratewall.Router.Stages
import Ratewall.Router.Relay
import Ratewall.Router.RequestId
import Ratewall.Router.Target
import Ratewall.Router.Routing
import Ratewall.Gateway.Run
import Ratewall.Gateway.Probe
import Ratewall.Gateway.Refinement
import Ratewall.Gateway.Independence
import Ratewall.Gateway.Readiness
import Ratewall.Gateway.Truth
import Ratewall.Gateway.Recovery
import Ratewall.Gateway.Outage
import Ratewall.Gateway.World
import Ratewall.Gateway.Frames
import Ratewall.Gateway.Labels
import Ratewall.Gateway.Charges
import Ratewall.Gateway.Locked
import Ratewall.Gateway.Visits
import Ratewall.Gateway.Tallies
import Ratewall.Gateway.Accounting
import Ratewall.Gateway.Histograms
import Ratewall.Gateway.Readback
import Ratewall.Gateway.Fleet
import Ratewall.Gateway.Quota
import Ratewall.RateLimit.Lifetime
import Ratewall.Auth.Replicas
import Ratewall.Gateway.Bootstrap
import Ratewall.Gateway.Scrapes
