import VProtocol.Lib.Run
import VProtocol.Lib.SwapArray
import VProtocol.Lib.UpdateFirst
import VProtocol.Lib.Update
import VProtocol.Lib.LevelTree
import VProtocol.Lib.Codec
import VProtocol.Lib.Ring
import VProtocol.Lib.RawArray
import VProtocol.Lib.Base64
import VProtocol.Lib.BucketMap
import VProtocol.Lib.OrderedSet
import VProtocol.Common.Types
import VProtocol.Common.Versions
import VProtocol.Common.KeyCodec
import VProtocol.Common.SimpleVector
import VProtocol.Common.VectorMemory
import VProtocol.Common.VectorDecode
import VProtocol.Common.UserKeyCodec
import VProtocol.Common.KeyBounds
import VProtocol.Client.Msg
import VProtocol.Client.Conn
import VProtocol.Client.State
import VProtocol.Client.Service
import VProtocol.Client.Cases
import VProtocol.Client.Moves
import VProtocol.Client.Inv
import VProtocol.Client.Links
import VProtocol.Client.Picks
import VProtocol.Client.Endorsers
import VProtocol.Client.Quorum
import VProtocol.Client.Verdict
import VProtocol.Client.Attribution
import VProtocol.Client.Response
import VProtocol.Client.LifeCycle
import VProtocol.Client.Linked
import VProtocol.Client.Symmetry
import VProtocol.Client.Loss
import VProtocol.Client.Waiting
import VProtocol.Client.Notify
import VProtocol.Client.Wish
import VProtocol.Client.PeerTable
import VProtocol.Client.Listed
import VProtocol.Client.Query
import VProtocol.Client.Stale
import VProtocol.Crypt.Wrapper
import VProtocol.Crypt.State
import VProtocol.Crypt.Service
import VProtocol.Crypt.Query
import VProtocol.Crypt.Phase
import VProtocol.Crypt.Once
import VProtocol.Cc.State
import VProtocol.Cc.Service
import VProtocol.Cc.Moves
import VProtocol.Cc.WriteSet
import VProtocol.Cc.Life
import VProtocol.Cc.Lookup
import VProtocol.Cc.Retry
import VProtocol.Cc.Handles
import VProtocol.Cc.Once
import VProtocol.Cc.Store
import VProtocol.Cc.UserKeys
import VProtocol.Cc.Reads
import VProtocol.Merkle.Tree
import VProtocol.Merkle.Build
import VProtocol.Merkle.Binding
import VProtocol.Merkle.Reference
import VProtocol.Merkle.Fill
import VProtocol.Merkle.Remains
import VProtocol.Block.Codec
import VProtocol.Encrypt.Cipher
import VProtocol.Encrypt.Smx
import VProtocol.Encrypt.AesGcm
import VProtocol.Sdk.KeyFile
import VProtocol.Cache.Control
import VProtocol.Cache.Manager
import VProtocol.Cache.Open
import VProtocol.Cache.Resize
import VProtocol.Cache.Restart
import VProtocol.Mq.Msg
import VProtocol.Mq.TypeArray
import VProtocol.Mq.Traversal
import VProtocol.Mq.Forwarder
import VProtocol.Mq.Cleanup
import VProtocol.Mq.Items
import VProtocol.Mq.Directory
import VProtocol.Mq.Tables
import VProtocol.Mq.Routing
import VProtocol.Mq.Broadcast
import VProtocol.Mq.Indices
import VProtocol.Mq.Scheduler
import VProtocol.Mq.Told
import VProtocol.Mq.ClientIDs
import VProtocol.Mq.Agent
import VProtocol.Mq.Sessions
import VProtocol.Mq.Ready
import VProtocol.Mq.Book
import VProtocol.Mq.Relay
import VProtocol.Mq.Publish
import VProtocol.P2p.Callback
import VProtocol.P2p.Poll
import VProtocol.P2p.Subscriptions
import VProtocol.Idc.Msg
import VProtocol.Idc.Service
import VProtocol.Idc.Turns
import VProtocol.Idc.Identities
import VProtocol.Idc.DbAddr
import VProtocol.Idc.Answers
import VProtocol.Idc.Tokens
import VProtocol.Idc.Once
import VProtocol.Idc.Client
import VProtocol.Idc.Bootstrap
import VProtocol.Idc.Pending
import VProtocol.Idc.Formats
import VProtocol.Idc.Dispatch
import VProtocol.Cc.Isolation
import VProtocol.Cc.Drain
import VProtocol.Cc.Router
import VProtocol.Lib.SpinLock
import VProtocol.Sdk.Init
import VProtocol.Tools.Watchdog
import VProtocol.Client.PeerInfo
import VProtocol.Cache.Durable
import VProtocol.Client.Configured
import VProtocol.Crypt.Deals
import VProtocol.Crypt.Origin
import VProtocol.Lib.Network
import VProtocol.P2p.Mesh
import VProtocol.Idc.Exchange
import VProtocol.Client.Exit
