import CoWq.Lib.Machine
import CoWq.Lib.Locking
import CoWq.Lib.LinkedHeap
import CoWq.Sync.Timer
import CoWq.Sync.TimerHeap
import CoWq.Sync.TimerQueue
import CoWq.Lib.BigEndian
import CoWq.Lib.Inbound
import CoWq.Net.WebSocket.Frame
import CoWq.Net.WebSocket.RoundTrip
import CoWq.Task.Workqueue
import CoWq.IO.IoSerial
import CoWq.IO.SerialSlot
import CoWq.IO.SerialClose
import CoWq.Net.WebSocket.Writers
import CoWq.Net.WebSocket.WholeFrames
import CoWq.Lib.Ring
import CoWq.Task.UsrList
import CoWq.IO.CallbackWq
import CoWq.IO.CallbackQueue
import CoWq.IO.CallbackOrder
import CoWq.IO.CallbackGuard
import CoWq.Task.Worker
import CoWq.Task.DestroyOnce
import CoWq.Sync.Wait
import CoWq.Sync.Semaphore
import CoWq.Sync.SemaphoreWaits
import CoWq.Sync.TimedWait
import CoWq.Sync.TokenAccounting
import CoWq.Sync.SemaphoreSections
import CoWq.Task.WorkqueueLinks
import CoWq.Sync.TimerCancel
import CoWq.Sync.Notify
import CoWq.Sync.NotifyCounting
import CoWq.Sync.NotifyWait
import CoWq.Sync.ExecutorLock
import CoWq.Net.WebSocket.Wire
import CoWq.Net.WebSocket.Message
import CoWq.Net.WebSocket.Fragments
import CoWq.Net.WebSocket.Conformance
import CoWq.IO.Reactor
import CoWq.IO.ReactorDelivery
import CoWq.IO.ReactorReuse
import CoWq.Task.WhenAll
import CoWq.Lib.Monitor
import CoWq.Task.ExecutorWq
import CoWq.Net.DnsResolver
import CoWq.Net.ResolverDelivery
import CoWq.Sync.SemaphoreDestroy
import CoWq.Net.WebSocket.Accept
import CoWq.Lib.Mealy
import CoWq.IO.IocpReactor
import CoWq.Net.ConnectAwaiter
import CoWq.Net.TlsSocket
import CoWq.IO.UsbDevice
import CoWq.Lib.Pool
import CoWq.IO.UsbSlots
import CoWq.IO.UsbDelivery
import CoWq.Sync.TimerExpiry
import CoWq.Lib.Rounds
import CoWq.IO.SerialDrain
import CoWq.Net.StreamSend
import CoWq.Net.StreamContract
import CoWq.IO.FileIO
import CoWq.Net.TlsLength
import CoWq.Net.WebSocket.ListHeaders
import CoWq.Lib.Numerals
import CoWq.Lib.StreamReader
import CoWq.Net.Socks
import CoWq.Net.Proxy.Tunnel
import CoWq.Net.Proxy.Connect
import CoWq.Lib.Matching
import CoWq.Lib.Relay
import CoWq.Net.Chat.Server
import CoWq.Net.Chat.Steps
import CoWq.Net.Chat.Pairing
import CoWq.Net.Chat.Forwarding
import CoWq.Lib.CString
import CoWq.Net.UnixAddress
import CoWq.Net.ResolveCore
import CoWq.Net.Chat.Frames
import CoWq.Net.SocksRelay
import CoWq.Lib.TextSearch
import CoWq.Net.Proxy.Target
import CoWq.Net.Redirect
import CoWq.Lib.HttpRequest
import CoWq.Net.Proxy.Upstream
import CoWq.Net.AcceptAwaiter
import CoWq.Task.ResultLife
import CoWq.Lib.Dialogue
import CoWq.Task.CallChain
import CoWq.Net.WebSocket.Echo
import CoWq.Lib.Base64
import CoWq.Net.WebSocket.Client
import CoWq.Net.Http.Server
import CoWq.Net.Http.Http2
import CoWq.Net.Http.Http2Server
import CoWq.Net.Curl.Request
import CoWq.Net.Curl.Http2
import CoWq.Net.Curl.Client
import CoWq.Sync.ForeverWait
import CoWq.Net.Chat.Writer
