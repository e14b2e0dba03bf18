import Limestone.Library.TrailCount
import Limestone.GroupRuns
import Limestone.DbmsBind
import Limestone.Library.Lightest
import Limestone.PathSearch
import Limestone.DbmsDbd
import Limestone.Library.Segments
import Limestone.Library.Separators
import Limestone.Library.TracedMemory
import Limestone.Library.Trim
import Limestone.DbmsLookup
import Limestone.UriLookup
import Limestone.ReverseLookup
import Limestone.ExcludedBinds
import Limestone.DbmsLocks
import Limestone.SurvivingLocks
import Limestone.DbmsAcl
import Limestone.AclDecision
import Limestone.AceCache
import Limestone.FirstMatch
import Limestone.FailClosed
import Limestone.PrivilegeSet
import Limestone.DbmsCollection
import Limestone.ListingFilter
import Limestone.LockNull
import Limestone.StatementExecution
import Limestone.DbmsDeltav
import Limestone.VersionHistories
import Limestone.AclPaths
import Limestone.CollectionChildren
import Limestone.Library.SqlCondition
import Limestone.Search
import Limestone.WhereText
import Limestone.PropertyKeys
import Limestone.WhereCompilation
import Limestone.QueryTexts
import Limestone.QueryStructure
import Limestone.DbmsProperties
import Limestone.DeadProperties
import Limestone.BridgeProperty
import Limestone.RedirectTarget
import Limestone.VsnControlErrors
import Limestone.AclListing
import Limestone.AclRoundTrip
import Limestone.BridgeMkcol
import Limestone.BridgeUnbind
import Limestone.ParentCollections
import Limestone.Library.Orphans
import Limestone.UnbindCollects
import Limestone.ClearChildren
import Limestone.ClearUnused
import Limestone.EmptyCollections
import Limestone.AclLiveprops
import Limestone.GroupChanges
import Limestone.GroupMemberSet
import Limestone.BindInsert
import Limestone.BindingSet
import Limestone.BulkBinds
import Limestone.LockRows
import Limestone.VersionLinks
import Limestone.UsedBytes
import Limestone.CopyMedium
import Limestone.GarbageCheck
import Limestone.MaterializedPaths
import Limestone.AprXml
import Limestone.PrincipalReports
import Limestone.ExpandProperty
import Limestone.LivepropHooks
import Limestone.GetResource
import Limestone.RestoreVcc
import Limestone.MediumUncheckout
import Limestone.InsertResource
import Limestone.Checkin
import Limestone.CopyIfCompatible
import Limestone.LockToken
import Limestone.LockTokenFormat
import Limestone.LockTimes
import Limestone.Placeholders
import Limestone.DbmsNext
import Limestone.ExpiredLocks
import Limestone.RowLoops
import Limestone.DirectLocks
import Limestone.DetectBind
import Limestone.IndirectLocks
import Limestone.RefreshLocks
import Limestone.UnbindHistories
import Limestone.Rebind
import Limestone.RebindSteps
import Limestone.MoveAsRebind
import Limestone.GarbageCollection
import Limestone.GarbageRuns
import Limestone.Library.SqlUpdate
import Limestone.RedirectUpdate
import Limestone.DomainMaps
import Limestone.Library.RecursiveUnion
import Limestone.SearchGraph
import Limestone.PropertySubquery
import Limestone.SearchResponse
import Limestone.AncestorNotification
import Limestone.PropertyNames
import Limestone.PutUser
import Limestone.Library.Attempt
import Limestone.Library.Files
import Limestone.PartialPut
import Limestone.Library.Xml
import Limestone.PropertyXml
import Limestone.LanguageTag
import Limestone.DifferentiateEmails
import Limestone.EscapeXmlText
import Limestone.ResponseHref
import Limestone.Plog
import Limestone.StripWhitespace
import Limestone.Library.GraphCopy
import Limestone.ListingOrder
import Limestone.CopyTree
import Limestone.CopyTreeSteps
import Limestone.CopyTreeRun
import Limestone.CopyTreeGraph
import Limestone.CopyResource
import Limestone.Library.Visit
import Limestone.WalkResources
import Limestone.Library.SharedFiles
import Limestone.UnbindBodies
import Limestone.BodyRuns
import Limestone.Lastmodified
