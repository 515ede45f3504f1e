import EmployeePortal.Framework.Schedules
import EmployeePortal.Python.Decimal
import EmployeePortal.D365.FilterReading
import EmployeePortal.Database.Models
import EmployeePortal.Database.Session
import EmployeePortal.Database.Rules
import EmployeePortal.D365.Client
import EmployeePortal.Employees.MappingService
import EmployeePortal.Audit.Service
import EmployeePortal.Employees.ProvisioningService
import EmployeePortal.Tools.CreateIdentityMapping
import EmployeePortal.Framework.EventLoop
import EmployeePortal.Framework.Protocols
import EmployeePortal.Framework.Locks
import EmployeePortal.Framework.Filling
import EmployeePortal.Framework.Sequels
import EmployeePortal.Framework.Refinement
import EmployeePortal.Framework.Budgets
import EmployeePortal.Framework.Histories
import EmployeePortal.Framework.Traces
import EmployeePortal.Framework.Lockstep
import EmployeePortal.D365.Retry
import EmployeePortal.D365.RetryProtocol
import EmployeePortal.D365.RetryOutcomes
import EmployeePortal.D365.RejectionReported
import EmployeePortal.Python.Documents
import EmployeePortal.D365.TokenService
import EmployeePortal.D365.TokenCache
import EmployeePortal.D365.SingleFlight
import EmployeePortal.D365.TokenLock
import EmployeePortal.D365.ForcedRefresh
import EmployeePortal.D365.TokenDestination
import EmployeePortal.Framework.DotSegments
import EmployeePortal.D365.EntityPaths
import EmployeePortal.Python.Url
import EmployeePortal.Core.Config
import EmployeePortal.Auth.Service
import EmployeePortal.Auth.SigningKeys
import EmployeePortal.Auth.KeyCache
import EmployeePortal.Auth.KeyLock
import EmployeePortal.Auth.FreshKeys
import EmployeePortal.Auth.KeyRefreshes
import EmployeePortal.Auth.Claims
import EmployeePortal.Auth.Failures
import EmployeePortal.Auth.Production
import EmployeePortal.D365.IdentityFilter
import EmployeePortal.D365.QueryReading
import EmployeePortal.D365.ProfileService
import EmployeePortal.D365.LeaveService
import EmployeePortal.D365.Balances
import EmployeePortal.D365.LeaveRequests
import EmployeePortal.D365.CompleteBalances
import EmployeePortal.D365.SelectedColumns
import EmployeePortal.D365.CallTurns
import EmployeePortal.D365.Invalidation
import EmployeePortal.Python.Rounding
import EmployeePortal.Python.Float
import EmployeePortal.D365.RetryDelay
import EmployeePortal.D365.TransportFailures
import EmployeePortal.D365.BoundedWaits
import EmployeePortal.Python.Xml
import EmployeePortal.Framework.StableSort
import EmployeePortal.D365.Metadata
import EmployeePortal.D365.MetadataDiscovery
import EmployeePortal.D365.MetadataCache
import EmployeePortal.D365.BalanceErrors
import EmployeePortal.D365.ProfileIdentity
import EmployeePortal.Employees.Router
import EmployeePortal.Portal
import EmployeePortal.Portal.Outcome
import EmployeePortal.Portal.Authorization
import EmployeePortal.Portal.History
import EmployeePortal.Portal.Revocation
import EmployeePortal.Portal.WorkerUniqueness
import EmployeePortal.Portal.ProvisioningAudit
import EmployeePortal.Portal.FirstSignIn
import EmployeePortal.Portal.D365Failures
import EmployeePortal.Portal.ConfirmedIdentity
import EmployeePortal.Portal.QueryableMappings
import EmployeePortal.Portal.RefusalAudit
import EmployeePortal.Portal.Idempotence
import EmployeePortal.Tools.LookupIdentityCandidate
import EmployeePortal.Framework.Overlay
import EmployeePortal.Database.EntityRows
import EmployeePortal.Tools.ApplyD365Mapping
import EmployeePortal.Tools.ConfirmedMappings
import EmployeePortal.Tools.RepeatedRuns
import EmployeePortal.Employees.ConfigurationSteps
import EmployeePortal.Tools.AcceptedMappings
import EmployeePortal.Core.Middleware
import EmployeePortal.Health.Service
import EmployeePortal.Server
import EmployeePortal.Server.Asking
import EmployeePortal.Server.PortalRefinement
import EmployeePortal.Server.Mediation
import EmployeePortal.Server.Terms
import EmployeePortal.Server.Disclosure
import EmployeePortal.Server.Settling
import EmployeePortal.Server.Responses
import EmployeePortal.Server.ViewAudit
import EmployeePortal.Server.Provenance
import EmployeePortal.Framework.Machine
import EmployeePortal.Frontend.App
import EmployeePortal.Frontend.SignIns
import EmployeePortal.Frontend.PanelErrors
import EmployeePortal.Frontend.OpenViews
