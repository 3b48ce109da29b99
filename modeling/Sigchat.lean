import Sigchat.Lib.Request
import Sigchat.Lib.Interleave
import Sigchat.Lib.Base64
import Sigchat.Lib.BasicAuth
import Sigchat.Lib.Wire
import Sigchat.Lib.Runs
import Sigchat.Lib.Loop
import Sigchat.Lib.Ctr
import Sigchat.Lib.Json
import Sigchat.Lib.Debug
import Sigchat.Lib.Log
import Sigchat.Model.Pddb
import Sigchat.Model.Libsignal
import Sigchat.Model.Stores
import Sigchat.Model.Protos
import Sigchat.Model.Outgoing
import Sigchat.Model.SignalWs
import Sigchat.Model.MainWs
import Sigchat.Model.Account
import Sigchat.Model.WsServer
import Sigchat.Model.Provisioning
import Sigchat.Model.Prekeys
import Sigchat.Model.SigChat
import Sigchat.Model.Getrandom
import Sigchat.Model.DeviceName
import Sigchat.Model.Rest
import Sigchat.Model.AccountLog
import Sigchat.Results.StoreRefinement
import Sigchat.Results.RecordOverwrite
import Sigchat.Results.KyberReplay
import Sigchat.Results.Pipeline
import Sigchat.Results.SyncTranscript
import Sigchat.Results.ReceiveLoop
import Sigchat.Results.AccountCache
import Sigchat.Results.LinkRegistered
import Sigchat.Results.Wifi
import Sigchat.Results.WsProvisioning
import Sigchat.Results.SessionRace
import Sigchat.Results.ProvisionFormat
import Sigchat.Results.Relink
import Sigchat.Results.FieldNumbers
import Sigchat.Results.SealedGate
import Sigchat.Results.PrekeyLookup
import Sigchat.Results.LinkAccepted
import Sigchat.Results.Recipient
import Sigchat.Results.HostileIpc
import Sigchat.Results.LoadedManager
import Sigchat.Results.ReceiveStart
import Sigchat.Results.Entropy
import Sigchat.Results.DeviceNames
import Sigchat.Results.Redaction
import Sigchat.Results.Closing
import Sigchat.Results.Keepalive
import Sigchat.Results.ReadBack
import Sigchat.Results.AccountRead
import Sigchat.Results.LinkStops
import Sigchat.Results.LogSecrecy
import Sigchat.Results.LinkSecrecy
import Sigchat.Results.Identities
import Sigchat.Results.Durability
import Sigchat.Results.LinkReturns
import Sigchat.Results.MainLoop
import Sigchat.Results.Credentials
import Sigchat.Results.ChatTranscript
import Sigchat.Results.LinkQr
import Sigchat.Results.LinkRequest
import Sigchat.Results.LargeEntropy
import Sigchat.Results.PeerIsolation
