import ShadNet.Lib.Run
import ShadNet.Lib.Wrap
import ShadNet.Lib.Writes
import ShadNet.Lib.Loop
import ShadNet.Lib.Table
import ShadNet.Spec.Protocol
import ShadNet.Spec.Json
import ShadNet.Spec.Qt
import ShadNet.Spec.WebSession
import ShadNet.Spec.SummonBroker
import ShadNet.Lib.TopK
import ShadNet.Lib.ReadWrite
import ShadNet.Spec.Score
import ShadNet.Spec.StreamExtractor
import ShadNet.Spec.ReadLoop
import ShadNet.Lib.Framing
import ShadNet.Spec.PacketReader
import ShadNet.Proof.StreamExtractor
import ShadNet.Proof.ReadLoop
import ShadNet.Proof.WebSession
import ShadNet.Spec.GoingOffline
import ShadNet.Proof.GoingOffline
import ShadNet.Spec.SessionViews
import ShadNet.Spec.Invitation
import ShadNet.Proof.JsonObject
import ShadNet.Proof.PrivateSession
import ShadNet.Proof.PrivateRun
import ShadNet.Proof.SummonBroker
import ShadNet.Proof.SummonLifecycle
import ShadNet.Proof.SummonSearch
import ShadNet.Proof.SummonTarget
import ShadNet.Proof.SummonPlacement
import ShadNet.Lib.JsonText
import ShadNet.Spec.RawJson
import ShadNet.Proof.RawJson
import ShadNet.Proof.ClaimDelivery
import ShadNet.Spec.SearchResult
import ShadNet.Proof.Base64
import ShadNet.Proof.SearchResult
import ShadNet.Proof.SummonDistance
import ShadNet.Proof.Score
import ShadNet.Spec.ScoreData
import ShadNet.Proof.ScoreData
import ShadNet.Spec.ScoreQuery
import ShadNet.Proof.ScoreBoard
import ShadNet.Proof.ScoreQuery
import ShadNet.Spec.Friend
import ShadNet.Proof.Friend
import ShadNet.Spec.Room
import ShadNet.Spec.Matching
import ShadNet.Proof.Room
import ShadNet.Spec.Account
import ShadNet.Spec.Server
import ShadNet.Proof.Account
import ShadNet.Proof.Matching
import ShadNet.Lib.Index
import ShadNet.Spec.RoomSearch
import ShadNet.Proof.RoomIndex
import ShadNet.Spec.RoomQuery
import ShadNet.Proof.Disconnect
import ShadNet.Lib.Directory
import ShadNet.Proof.Online
import ShadNet.Proof.Relationship
import ShadNet.Proof.FriendCache
import ShadNet.Spec.Login
import ShadNet.Proof.Login
import ShadNet.Proof.PacketReader
import ShadNet.Spec.Dispatch
import ShadNet.Proof.Dispatch
import ShadNet.Proof.Presence
import ShadNet.Proof.PresenceViews
import ShadNet.Proof.AppearOffline
import ShadNet.Lib.Replica
import ShadNet.Spec.RoomEvents
import ShadNet.Proof.RoomChange
import ShadNet.Proof.RoomFrame
import ShadNet.Proof.RoomTasks
import ShadNet.Proof.RoomEvents
import ShadNet.Lib.Bits
import ShadNet.Proof.RoomStep
import ShadNet.Proof.RoomJoin
import ShadNet.Proof.RoomSlots
import ShadNet.Proof.RoomFull
import ShadNet.Proof.RoomGroups
import ShadNet.Proof.RoomLists
import ShadNet.Proof.RoomMask
import ShadNet.Lib.Pages
import ShadNet.Proof.RoomPages
import ShadNet.Lib.Delivery
import ShadNet.Proof.RoomMessage
import ShadNet.Proof.FriendFailure
import ShadNet.Proof.ScoreUpload
import ShadNet.Lib.Alter
import ShadNet.Proof.SessionLeave
import ShadNet.Proof.SessionBounds
import ShadNet.Proof.SessionLeft
import ShadNet.Spec.InvitationPush
import ShadNet.Proof.InvitationPush
import ShadNet.Proof.AccountKey
import ShadNet.Lib.Tally
import ShadNet.Proof.Usage
import ShadNet.Lib.Search
import ShadNet.Spec.RawScan
import ShadNet.Proof.RawScan
import ShadNet.Spec.SlotScan
import ShadNet.Proof.SlotScan
import ShadNet.Lib.Codec
import ShadNet.Spec.PacketBuilder
import ShadNet.Proof.WebPush
import ShadNet.Proof.DeletePayload
import ShadNet.Spec.ScoreboardsCfg
import ShadNet.Proof.ScoreboardsCfg
import ShadNet.Spec.Multipart
import ShadNet.Proof.Multipart
import ShadNet.Proof.MultipartEncode
import ShadNet.Lib.Utf8
import ShadNet.Spec.Stun
import ShadNet.Spec.ShadNetServer
import ShadNet.Lib.Refinement
import ShadNet.Proof.ShadNetServer
import ShadNet.Lib.Latest
import ShadNet.Proof.Stun
import ShadNet.Proof.Signaling
import ShadNet.Lib.ReadThrough
import ShadNet.Spec.StatsServer
import ShadNet.Proof.StatsServer
import ShadNet.Spec.ClientReader
import ShadNet.Proof.ClientReader
import ShadNet.Proof.HighScores
import ShadNet.Lib.JsonWrite
import ShadNet.Spec.BloodborneRoutes
import ShadNet.Proof.BloodborneRoutes
import ShadNet.Spec.WebAuth
import ShadNet.Proof.Identity
import ShadNet.Lib.Mirror
import ShadNet.Spec.FriendList
import ShadNet.Proof.FriendList
import ShadNet.Proof.FriendUpdates
import ShadNet.Proof.FriendTold
import ShadNet.Spec.SampleClient
import ShadNet.Proof.ClientCalls
import ShadNet.Proof.SampleClient
