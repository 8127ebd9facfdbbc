import SocksProxy.Runs
import SocksProxy.ByteBuffer
import SocksProxy.BufferFifo
import SocksProxy.ByteScan
import SocksProxy.Hello
import SocksProxy.Auth
import SocksProxy.Request
import SocksProxy.Kernel
import SocksProxy.Stm
import SocksProxy.Connect
import SocksProxy.Connection
import SocksProxy.Stages
import SocksProxy.Dialing
import SocksProxy.LoginReads
import SocksProxy.RequestReads
import SocksProxy.RelayFlow
import SocksProxy.RelayHandlers
import SocksProxy.Writing
import SocksProxy.OriginStages
import SocksProxy.Turns
import SocksProxy.Lifetime
import SocksProxy.AuthGate
import SocksProxy.Interests
import SocksProxy.ReplyOrder
import SocksProxy.RelayFidelity
import SocksProxy.RelayProgress
import SocksProxy.ReadRoom
import SocksProxy.Lockstep
import SocksProxy.Verdict
import SocksProxy.Segmentation
import SocksProxy.BigEndian
import SocksProxy.MonProtocol
import SocksProxy.MonParsing
import SocksProxy.RequestCodec
import SocksProxy.AccessLog
import SocksProxy.MonFormat
import SocksProxy.AccessReport
import SocksProxy.MonServer
import SocksProxy.ResponseFrames
import SocksProxy.MonLoop
import SocksProxy.Unauthenticated
import SocksProxy.OneResponse
import SocksProxy.CliClient
import SocksProxy.ClientServer
import SocksProxy.UiCommands
import SocksProxy.PayloadReads
import SocksProxy.UsersPage
import SocksProxy.MetricsGraph
import SocksProxy.Pending
import SocksProxy.Attempts
import SocksProxy.DialFrames
import SocksProxy.FallbackWalk
import SocksProxy.Fallback
import SocksProxy.Selector
import SocksProxy.SelectorMachine
import SocksProxy.SelectorTable
import SocksProxy.SelectorBounds
import SocksProxy.SelectorViews
import SocksProxy.SelectorStale
import SocksProxy.SelectorService
import SocksProxy.UsersFile
import SocksProxy.UserMap
import SocksProxy.MessageGrammar
import SocksProxy.CredentialCheck
import SocksProxy.AddUserStatus
import SocksProxy.Ledgers
import SocksProxy.ServerState
import SocksProxy.ServerSteps
import SocksProxy.ServerRefs
import SocksProxy.ServerSockets
import SocksProxy.ServerLookups
import SocksProxy.ServerEntries
import SocksProxy.ServerPool
import SocksProxy.ServerParts
import SocksProxy.ServerStages
import SocksProxy.ServerClosing
import SocksProxy.ServerDials
import SocksProxy.ServerLoops
import SocksProxy.ServerHandlers
import SocksProxy.ServerWorkers
import SocksProxy.ServerRuns
import SocksProxy.ServerOwners
import SocksProxy.ServerAccounts
import SocksProxy.ServerCalls
import SocksProxy.ServerLocks
import SocksProxy.LockOrder
import SocksProxy.ServerWork
import SocksProxy.ServerShutdown
import SocksProxy.ServerIsolation
import SocksProxy.MainLoop
import SocksProxy.ServerRefines
import SocksProxy.TableViews
import SocksProxy.Proxy
import SocksProxy.Access
import SocksProxy.RelayLog
import SocksProxy.Revocation
