import Camex.Lib.Runs
import Camex.Lib.Slots
import Camex.Lib.CString
import Camex.Lib.Framing
import Camex.Lib.Ring
import Camex.Lib.Outbox
import Camex.Lib.Probing
import Camex.Util
import Camex.Noise
import Camex.Session
import Camex.SessionWindow
import Camex.NoiseHandshake
import Camex.Config
import Camex.Proto
import Camex.Server.Pool
import Camex.Safety.UniqueAddress
import Camex.Safety.WorkingSession
import Camex.Safety.FailedHandshake
import Camex.Safety.KeyBinding
import Camex.Safety.Takeover
import Camex.Safety.Replay
import Camex.Safety.Revocation
import Camex.Safety.ToldAddress
import Camex.Safety.PoolGiven
import Camex.Safety.SessionIndex
import Camex.Safety.DataPath
import Camex.Safety.Channel
import Camex.Safety.Handshake
import Camex.Safety.TcpSlots
import Camex.Safety.Frames
import Camex.Safety.SendStream
import Camex.Safety.IndexedLookup
import Camex.Safety.Revalidation
import Camex.ClientConfig
import Camex.Safety.RegisterText
import Camex.Safety.ConfigText
import Camex.Lib.Sorting
import Camex.NginxMap
import Camex.Safety.MapFile
import Camex.Safety.IndexPage
import Camex.ConfigFile
import Camex.Safety.ConfigRoundTrip
import Camex.Lib.Heap
import Camex.Server.ReloadMemory
import Camex.Safety.FailedReload
import Camex.Server.LeaseIndex
import Camex.Safety.LeaseTable
import Camex.ClientTunnel
import Camex.Safety.LiveTunnel
import Camex.Lib.LossyTable
import Camex.Server.Shares
import Camex.Safety.FairShare
import Camex.SlotidxWords
import Camex.Safety.PoolWalk
import Camex.KernelQueue
import Camex.Safety.KernelQueue
import Camex.Control
import Camex.Safety.WaitAnswers
import Camex.Server.Listing
import Camex.Safety.NameText
import Camex.Safety.ListedTexts
import Camex.Safety.Fingerprint
import Camex.Safety.IndexRecords
import Camex.Lib.Unicode
import Camex.ConnectLink
import Camex.ConnectPage
import Camex.Safety.ConnectDecode
import Camex.Safety.ConnectAlike
import Camex.Log
import Camex.Safety.LogCounts
import Camex.Safety.KeyTrials
import Camex.Safety.NameValid
import Camex.WaitToken
import Camex.Safety.WaitToken
import Camex.Keys
import Camex.Safety.Base64
import Camex.Safety.KeyCache
import Camex.KeystoreIndex
import Camex.Safety.KeystoreQueries
import Camex.Safety.ConfigComments
import Camex.Lib.Json
import Camex.Server.Status
import Camex.Safety.StatusJson
import Camex.Lib.Checked
import Camex.PacketMemory
import Camex.Server.PacketMemory
import Camex.ClientPacket
import Camex.Safety.PacketBounds
import Camex.Lib.Logged
import Camex.SessionLog
import Camex.Server.Notes
import Camex.ClientLoop
import Camex.ClientMoves
import Camex.ClientConcrete
import Camex.Safety.SessionRuns
import Camex.Safety.ClientTimers
import Camex.Server.Confirm
import Camex.Peers
import Camex.PeersConcrete
import Camex.Safety.Peers
