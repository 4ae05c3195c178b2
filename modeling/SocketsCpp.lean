import SocketsCpp.Library.Machine
import SocketsCpp.Library.History
import SocketsCpp.Library.Table
import SocketsCpp.Library.Sessions
import SocketsCpp.Library.Log
import SocketsCpp.Library.Retry
import SocketsCpp.Library.EarlyExit
import SocketsCpp.Library.Script
import SocketsCpp.Library.Family
import SocketsCpp.Library.Ranking
import SocketsCpp.Library.Replay
import SocketsCpp.Library.Picks
import SocketsCpp.Library.CommandLine
import SocketsCpp.Getopt
import SocketsCpp.SocketCommon
import SocketsCpp.Numerals
import SocketsCpp.Options
import SocketsCpp.SocketCore
import SocketsCpp.Setup
import SocketsCpp.DescriptorSets
import SocketsCpp.Worker
import SocketsCpp.Holder
import SocketsCpp.Receiver.Model
import SocketsCpp.Receiver.Step
import SocketsCpp.Receiver.Lifecycle
import SocketsCpp.Receiver.Delivery
import SocketsCpp.Receiver.Shutdown
import SocketsCpp.Receiver.Stopping
import SocketsCpp.Receiver.Destination
import SocketsCpp.Receiver.Ranges
import SocketsCpp.TcpServer.Model
import SocketsCpp.TcpServer.Step
import SocketsCpp.Startup
import SocketsCpp.TcpServer.Threads
import SocketsCpp.TcpServer.Registry
import SocketsCpp.TcpServer.Ownership
import SocketsCpp.TcpServer.Started
import SocketsCpp.TcpServer.Closing
import SocketsCpp.TcpServer.Waits
import SocketsCpp.TcpServer.WatchSet
import SocketsCpp.TcpServer.Sequential
import SocketsCpp.TcpServer.Dispatch
import SocketsCpp.TcpServer.Rounds
import SocketsCpp.TcpServer.Unicast
import SocketsCpp.TcpServer.Failures
import SocketsCpp.TcpServer.Callbacks
import SocketsCpp.TcpServer.Stopping
import SocketsCpp.TcpServer.Linear
import SocketsCpp.TcpServer.Resident
import SocketsCpp.ServerApp.Model
import SocketsCpp.ServerApp.Clients
import SocketsCpp.ServerApp.Sending
import SocketsCpp.ServerApp.Waits
import SocketsCpp.ServerApp.Prompt
import SocketsCpp.TcpServer.ClientInfo
import SocketsCpp.TcpServer.Silence
import SocketsCpp.TcpServer.Lifecycle
import SocketsCpp.TcpServer.Ranges
import SocketsCpp.Lifecycle
import SocketsCpp.Ranges
import SocketsCpp.Stream
import SocketsCpp.Listening
import SocketsCpp.Programs
import SocketsCpp.Receiver.Multicast
import SocketsCpp.TcpServer.Broadcast
import SocketsCpp.Relay
import SocketsCpp.System.Model
import SocketsCpp.System.Network
import SocketsCpp.System.Streams
import SocketsCpp.System.Datagrams
