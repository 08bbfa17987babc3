import MsgRpc.Core.RpcSequenceIdThreads
import MsgRpc.Msg.Node
import MsgRpc.Msg.Lemmas.ResponseTable
import MsgRpc.Msg.Robust
import MsgRpc.Msg.Teardown
import MsgRpc.Msg.Lemmas.Stage
import MsgRpc.Msg.Acceptable
import MsgRpc.Msg.MethodTable
import MsgRpc.Discovery.Filters
import MsgRpc.Discovery.Watcher
import MsgRpc.Discovery.Listeners
import MsgRpc.Discovery.RoundRobin
import MsgRpc.Discovery.Listing
import MsgRpc.Discovery.Registration
import MsgRpc.Msg.Completion
import MsgRpc.Msg.AnsweredOnce
import MsgRpc.Msg.Notified
import MsgRpc.Msg.FailedSend
import MsgRpc.Msg.UdpChannel
import MsgRpc.Lib.RoundRobin
import MsgRpc.Msg.CodeStep
import MsgRpc.Lib.Reader
import MsgRpc.Lib.StrictWeakOrder
import MsgRpc.Thrift.Protocol
import MsgRpc.Thrift.Message
import MsgRpc.Thrift.RoundTrip
import MsgRpc.Thrift.BinaryProtocol
import MsgRpc.Thrift.Replace
import MsgRpc.Thrift.Foreign
import MsgRpc.Thrift.Skip
import MsgRpc.Thrift.Misread
import MsgRpc.Msg.Origin
import MsgRpc.Msg.System
import MsgRpc.Msg.Resolved
import MsgRpc.Lib.Network
import MsgRpc.Msg.TestLoop
