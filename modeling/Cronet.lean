import Cronet.Lib.Machine
import Cronet.Lib.Conduit
import Cronet.Lib.Tally
import Cronet.Native.Posting
import Cronet.Native.Engine
import Cronet.Native.NetLog
import Cronet.Native.LastError
import Cronet.Native.PendingProxy
import Cronet.Native.Outcome
import Cronet.Native.Finishing
import Cronet.Native.Following
import Cronet.Native.Signalling
import Cronet.Bridge.Opening
import Cronet.Bridge.Closing
import Cronet.Session.Streaming
import Cronet.Session.Performing
import Cronet.Session.Wakeups
import Cronet.Session.Handles
import Cronet.Session.Budget
import Cronet.Session.Timings
import Cronet.Request.Following
import Cronet.Request.Leaving
import Cronet.Request.Lockstep
import Cronet.Request.Jar
import Cronet.Request.Layering
import Cronet.Request.Hopping
import Cronet.Request.Injection
import Cronet.Request.Proxying
import Cronet.Request.Query
import Cronet.Request.Resolving
import Cronet.Socks.Probe
import Cronet.Socks.Relaying
import Cronet.Socks.Tcp
import Cronet.Socks.Negotiating
import Cronet.Socks.Closing
import Cronet.Socks.Formats
import Cronet.Socks.Fragments
import Cronet.Tls.ClientHello
import Cronet.Tls.Parsing
import Cronet.Tls.ExtensionOrder
import Cronet.Abi.Comments
import Cronet.Lib.Ranking
import Cronet.Lib.Words
import Cronet.Lib.Traverse
import Cronet.Lib.Datagrams
import Cronet.Lib.EventLoop
import Cronet.Native.Releasing
import Cronet.Bridge.Stack
import Cronet.Bridge.Winding
import Cronet.Socks.Server
import Cronet.Socks.Serving
import Cronet.Socks.Dialogue
import Cronet.Socks.Arriving
import Cronet.Socks.Relay
import Cronet.Socks.Relayed
import Cronet.Abi.Declarators
import Cronet.Abi.Generator
import Cronet.Abi.Layout
import Cronet.Abi.Binding
import Cronet.Session.AsyncLoop
import Cronet.Session.Awaiting
import Cronet.Session.Turns
import Cronet.Session.Direct
import Cronet.Session.Requesting
import Cronet.Request.Authorizing
