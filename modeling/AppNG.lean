import AppNG.Signing.CertChainSound
import AppNG.Signing.IndexRoundTrip
import AppNG.Pages.PagePermissions
import AppNG.Pages.StructureExact
import AppNG.Pages.FilterFields
import AppNG.Pages.InitializeParameters
import AppNG.Pages.PageParameters
import AppNG.Pages.SessionParameters
import AppNG.Pages.Redirects
import AppNG.Cache.Key
import AppNG.Cache.Listener
import AppNG.Cache.Runs
import AppNG.Cache.Transparency
import AppNG.Forms.Requests
import AppNG.Gui.Access
import AppNG.Gui.PathParts
import AppNG.Http.ModifiedHeaders
import AppNG.Data.DataContainer
import AppNG.Search.SearchFormatter
import AppNG.Search.DocumentIndexer
import AppNG.Search.FileSystemProvider
import AppNG.Parameters.ReplaceParameters
import AppNG.Sorting.SortMerge
import AppNG.Transform.StyleSheets
import AppNG.Config.CloneConfig
import AppNG.Config.Inheritance
import AppNG.Config.Merge
import AppNG.Ldap.Directory
import AppNG.Ldap.LdapService
import AppNG.Lib.JavaInt
import AppNG.Login.Login
import AppNG.Login.ResetPassword
import AppNG.Login.Keycloak
import AppNG.Login.Digest
import AppNG.Packages.Confinement
import AppNG.Packages.TemplateService
import AppNG.Packages.Update
import AppNG.Packages.ResourceRoundTrip
import AppNG.Persistence.SearchQuery
import AppNG.Databases.Assignments
import AppNG.Messaging.ClusterState
import AppNG.Messaging.ReloadSite
import AppNG.Messaging.Receiver
import AppNG.Sites.SiteLoader
import AppNG.Static.Confinement
import AppNG.Lib.Keyed
import AppNG.Lib.KeyedMerge
import AppNG.Lib.Champion
import AppNG.Repository.VersionOrder
import AppNG.Repository.WrapperRuns
import AppNG.Repository.PackageValidity
import AppNG.Repository.Deletion
import AppNG.Repository.Scans
import AppNG.Cache.Exceptions
import AppNG.Cache.Expiry
import AppNG.Sites.Waiting
import AppNG.Fields.Messages
import AppNG.Fields.DefaultSort
import AppNG.Packages.CacheDump
import AppNG.Databases.InheritedProperties
import AppNG.Properties.Update
import AppNG.Rest.Operations
import AppNG.Pages.ActionMessages
import AppNG.Signing.CertChainEnds
import AppNG.Rest.PathParameters
import AppNG.Sites.NameConflicts
import AppNG.Fields.Validation
import AppNG.Fields.ListFields
import AppNG.Pages.UserSelections
import AppNG.Rest.ReceivedFields
import AppNG.Cli.BatchTokens
import AppNG.Http.JspExtensions
import AppNG.Login.PasswordNumbers
import AppNG.Http.PrimaryDomain
import AppNG.Groups.Roles
import AppNG.Groups.Associations
import AppNG.Databases.ConnectionString
import AppNG.Gui.OutputFormats
import AppNG.Transform.Assembly
import AppNG.Http.RewriteConfig
import AppNG.Groups.PermissionProcessor
import AppNG.Fields.NumberFields
import AppNG.Cache.RepositoryWatcher
import AppNG.Images.ImageProcessor
import AppNG.Search.StandardSearcher
import AppNG.Search.ParseTags
import AppNG.Search.GermanSearchTerms
import AppNG.Environment.ScopedEnvironment
import AppNG.Gui.Navigation
import AppNG.Fields.DateFields
import AppNG.Lib.Simulation
import AppNG.Lib.Words
import AppNG.Lib.Steady
import AppNG.Lib.QueryGrammar
import AppNG.Lib.Calendar
import AppNG.Lib.Report
import AppNG.Lib.BoundedQueue
import AppNG.Validator.Definitions
import AppNG.Validator.ConfigValidator
import AppNG.Validator.Accepted
import AppNG.Validator.Processing
import AppNG.Search.Indexing
import AppNG.Environment.Sessions
import AppNG.Groups.Authorization
import AppNG.Groups.Consistency
import AppNG.Groups.Provenance
import AppNG.Groups.Deletion
import AppNG.Sites.Serving
import AppNG.Properties.PlatformConfig
import AppNG.Properties.PlatformStarts
