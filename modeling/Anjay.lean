import Anjay.Lib.Bytes
import Anjay.Dm.Path
import Anjay.Io.Stream
import Anjay.Io.Tlv.Header
import Anjay.Io.Tlv.In
import Anjay.Io.Tlv.Decode
import Anjay.Io.Tlv.Walk
import Anjay.Io.Tlv.Grammar
import Anjay.Io.Tlv.Out
import Anjay.Io.Tlv.Frames
import Anjay.Io.Tlv.Serialize
import Anjay.Io.Tlv.RoundTrip
import Anjay.Io.Tlv.Declared
import Anjay.Lib.SearchTree
import Anjay.Observe.Matching
import Anjay.Dm.Object
import Anjay.Dm.Notify
import Anjay.Dm.Write
import Anjay.Dm.WriteCursor
import Anjay.Commons.Basic
import Anjay.Dm.Transaction
import Anjay.Downloader.Download
import Anjay.Dm.Execute
import Anjay.Dm.ExecuteArgs
import Anjay.FwUpdate.Consistency
import Anjay.Commons.Parse
import Anjay.Downloader.Http
import Anjay.Downloader.HttpDelivery
import Anjay.Dm.NotifyFlush
import Anjay.AttrStorage.Tree
import Anjay.AttrStorage.CleanUp
import Anjay.Commons.Persistence
import Anjay.AttrStorage.Persistence
import Anjay.AttrStorage.Runs
import Anjay.AccessControl.Object
import Anjay.AccessControl.Persistence
import Anjay.AccessControl.Validate
import Anjay.AccessControl.Runs
import Anjay.Modules.Repr
import Anjay.Security.Object
import Anjay.Security.Persistence
import Anjay.Server.Object
import Anjay.Server.Persistence
import Anjay.Lib.Journal
import Anjay.Modules.Saving
import Anjay.Security.Runs
import Anjay.Server.Runs
import Anjay.Modules.Storage
import Anjay.Commons.Time
import Anjay.Lib.Replica
import Anjay.Registration.Register
import Anjay.Registration.Runs
import Anjay.Servers.Connection
import Anjay.Registration.Results
import Anjay.Servers.Activation
import Anjay.Servers.UpdateRequests
import Anjay.Bootstrap.Phase
import Anjay.Bootstrap.Runs
import Anjay.Bootstrap.Token
import Anjay.AccessControl.Access
import Anjay.Dm.Attributes
import Anjay.Dm.NotifyQueue
import Anjay.Io.Json.Quoted
import Anjay.Downloader.ContentRange
import Anjay.Observe.Queue
import Anjay.Observe.Insert
import Anjay.Observe.Update
import Anjay.Observe.Machine
import Anjay.Lib.Totals
import Anjay.Observe.Runs
import Anjay.Observe.InFlight
import Anjay.Observe.Removal
import Anjay.Io.Json.Base64Out
import Anjay.Lib.JsonReader
import Anjay.Io.Json.Encoder
import Anjay.Io.Json.Out
import Anjay.AccessControl.Election
import Anjay.Commons.Integer
import Anjay.Request.Options
import Anjay.Request.Query
import Anjay.Request.QueryParse
import Anjay.Request.Uri
import Anjay.Lib.Heap
import Anjay.Security.Clone
import Anjay.Commons.LinkText
import Anjay.Dm.Registry
import Anjay.Registration.QueryDm
import Anjay.Dm.Discover
import Anjay.Commons.DoubleArith
import Anjay.AttrStorage.Handlers
import Anjay.Dm.WriteAttrs
import Anjay.Modules.ReadBack
import Anjay.Commons.Base64
import Anjay.Io.Input
import Anjay.Io.Text.In
import Anjay.Io.Text.Bytes
import Anjay.Io.Base64Out
import Anjay.Io.Fetch
import Anjay.Io.Text.Out
import Anjay.Commons.Notation
import Anjay.Io.Text.Numbers
import Anjay.Servers.PathAndQuery
import Anjay.Dm.ObjectRegistry
import Anjay.Observe.Payload
import Anjay.Lib.RefIndex
import Anjay.Observe.ObservedPaths
import Anjay.Observe.Tracking
import Anjay.Observe.Notifying
import Anjay.Observe.Status
