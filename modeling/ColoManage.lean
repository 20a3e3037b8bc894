import ColoManage.Library.EventSystem
import ColoManage.Library.History
import ColoManage.Library.Delivery
import ColoManage.Library.Forking
import ColoManage.Library.Resumption
import ColoManage.Library.Session
import ColoManage.Library.KeyedList
import ColoManage.Library.KeyHistory
import ColoManage.Library.Yaml
import ColoManage.Library.YamlEdit
import ColoManage.Library.Decoding
import ColoManage.Library.CommandLine
import ColoManage.Config
import ColoManage.Files
import ColoManage.Domain
import ColoManage.SaveFile
import ColoManage.Process
import ColoManage.Rpc
import ColoManage.Node
import ColoManage.Service
import ColoManage.Codec
import ColoManage.RoundTrip
import ColoManage.SaveDocument
import ColoManage.Server
import ColoManage.Steps
import ColoManage.SingleVm
import ColoManage.Agreement
import ColoManage.RestartFidelity
import ColoManage.SaveTable
import ColoManage.Listing
import ColoManage.StartHonest
import ColoManage.RemoteClient
import ColoManage.Pair
import ColoManage.EnableAtomic
import ColoManage.ColoStart
import ColoManage.StartOrder
import ColoManage.Network
import ColoManage.CallsOnce
import ColoManage.Pairing
import ColoManage.Roles
import ColoManage.RolesApart
import ColoManage.CrossedCalls
import ColoManage.Sessions
import ColoManage.ConnectPeer
import ColoManage.MirrorImage
import ColoManage.Reconnect
import ColoManage.Undefined
import ColoManage.PeerDestroy
import ColoManage.QmpTarget
import ColoManage.Endpoints
import ColoManage.FailoverRetry
import ColoManage.LiveCommands
import ColoManage.Launches
import ColoManage.LaunchRoles
import ColoManage.LostPeer
import ColoManage.DefinePaths
import ColoManage.Moves
import ColoManage.SaveHistory
import ColoManage.Bystander
import ColoManage.Host
import ColoManage.ExitNoticed
import ColoManage.KillOwn
import ColoManage.Disabled
import ColoManage.NoStart
import ColoManage.ForkedService
import ColoManage.Transfer
import ColoManage.SaveStore
import ColoManage.OneProcess
import ColoManage.EntryUpdates
import ColoManage.QmpSound
import ColoManage.Library.Schema
import ColoManage.DefineHonest
import ColoManage.DestroyRecord
import ColoManage.Coherence
import ColoManage.EnableCommand
import ColoManage.CopyPath
import ColoManage.DestroyRetry
import ColoManage.Cmdline
import ColoManage.CmdlineGrammar
import ColoManage.Tool
import ColoManage.ToolRequests
import ColoManage.ToolCalls
import ColoManage.WireGrammar
import ColoManage.Guarantees
import ColoManage.RecordNames
import ColoManage.Neighbours
import ColoManage.Waits
