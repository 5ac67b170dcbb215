import Kontxt.Core.Api
import Kontxt.Core.Authn
import Kontxt.Core.Broadcast
import Kontxt.Core.Cel
import Kontxt.Core.CheckCall
import Kontxt.Core.Client
import Kontxt.Core.ControlPlane
import Kontxt.Core.Controller
import Kontxt.Core.ExtAuth
import Kontxt.Core.Fleet
import Kontxt.Core.Generate
import Kontxt.Core.GenerationServer
import Kontxt.Core.Identity
import Kontxt.Core.Issuance
import Kontxt.Core.KeyCache
import Kontxt.Core.Keys
import Kontxt.Core.Middleware
import Kontxt.Core.Reconcile
import Kontxt.Core.Registry
import Kontxt.Core.Rotation
import Kontxt.Core.RuleArrays
import Kontxt.Core.RuleClient
import Kontxt.Core.RuleServer
import Kontxt.Core.Rules
import Kontxt.Core.Service
import Kontxt.Core.Sessions
import Kontxt.Core.Token
import Kontxt.Core.Trust
import Kontxt.Core.Tts
import Kontxt.Core.Verifier
import Kontxt.Core.Wire
import Kontxt.Go.Base64
import Kontxt.Go.Json
import Kontxt.Go.JsonRecords
import Kontxt.Go.JsonScan
import Kontxt.Go.JsonText
import Kontxt.Go.Map
import Kontxt.Go.Number
import Kontxt.Go.Sort
import Kontxt.Go.Strings
import Kontxt.Go.Url
import Kontxt.Lib.Address
import Kontxt.Lib.Checks
import Kontxt.Lib.Keyed
import Kontxt.Lib.Replica
import Kontxt.Lib.Rounding
import Kontxt.Lib.Slices
import Kontxt.Lib.SortedAssoc
import Kontxt.Lib.System
import Kontxt.Lib.WorkQueue
import Kontxt.Theory.Application
import Kontxt.Theory.Broadcast
import Kontxt.Theory.Cel
import Kontxt.Theory.Chains
import Kontxt.Theory.Client
import Kontxt.Theory.Compliance
import Kontxt.Theory.ControlPlane
import Kontxt.Theory.Convergence
import Kontxt.Theory.Delegation
import Kontxt.Theory.Distribution
import Kontxt.Theory.Exchange
import Kontxt.Theory.Expiry
import Kontxt.Theory.Exponents
import Kontxt.Theory.Fixpoint
import Kontxt.Theory.Generation
import Kontxt.Theory.Internal
import Kontxt.Theory.Issuance
import Kontxt.Theory.KeyCache
import Kontxt.Theory.Keys
import Kontxt.Theory.Mediation
import Kontxt.Theory.Narrowing
import Kontxt.Theory.Numbers
import Kontxt.Theory.Ordering
import Kontxt.Theory.Planes
import Kontxt.Theory.Pods
import Kontxt.Theory.Policies
import Kontxt.Theory.Reconciling
import Kontxt.Theory.Registry
import Kontxt.Theory.Requirements
import Kontxt.Theory.Restart
import Kontxt.Theory.Rotation
import Kontxt.Theory.Routing
import Kontxt.Theory.RuleArrays
import Kontxt.Theory.Scopes
import Kontxt.Theory.Sealing
import Kontxt.Theory.Segments
import Kontxt.Theory.Selection
import Kontxt.Theory.Service
import Kontxt.Theory.Sessions
import Kontxt.Theory.Settling
import Kontxt.Theory.Streams
import Kontxt.Theory.Subjects
import Kontxt.Theory.Swap
import Kontxt.Theory.Targeting
import Kontxt.Theory.Torn
import Kontxt.Theory.Trust
import Kontxt.Theory.Wire
