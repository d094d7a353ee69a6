import ZenohRos2.Cdr.Acceptance
import ZenohRos2.Cdr.Encoding
import ZenohRos2.Cdr.RoundTrip
import ZenohRos2.Cdr.Safety
import ZenohRos2.Lib.Attribution
import ZenohRos2.Lib.Counter
import ZenohRos2.Lib.Feed
import ZenohRos2.Lib.IntegerFormat
import ZenohRos2.Lib.Machine
import ZenohRos2.Lib.Noninterference
import ZenohRos2.Lib.Outbox
import ZenohRos2.Lib.Periodic
import ZenohRos2.Lib.Scan
import ZenohRos2.Lib.Segments
import ZenohRos2.Lib.Tasks
import ZenohRos2.Ros2.Drain
import ZenohRos2.Ros2.KeyExpr
import ZenohRos2.Ros2.Messages
import ZenohRos2.Ros2.Names
import ZenohRos2.Ros2.Node
import ZenohRos2.Ros2.Publication
import ZenohRos2.Ros2.Publisher
import ZenohRos2.Ros2.Qos
import ZenohRos2.Ros2.SharedPublishers
import ZenohRos2.Ros2.Subscription
import ZenohRos2.Ros2.Tokens
import ZenohRos2.Ros2.TopicPublisher
import ZenohRos2.Ros2.Topics
import ZenohRos2.Rust.Action
import ZenohRos2.Rust.Async
import ZenohRos2.Rust.Extent
import ZenohRos2.Rust.Grammar
import ZenohRos2.Rust.HeaplessString
import ZenohRos2.Rust.Layout
import ZenohRos2.Rust.Outcome
import ZenohRos2.Rust.Slice
import ZenohRos2.Rust.Writer
import ZenohRos2.Sdk.Accounting
import ZenohRos2.Sdk.ActionClient
import ZenohRos2.Sdk.Activity
import ZenohRos2.Sdk.Batching
import ZenohRos2.Sdk.Callbacks
import ZenohRos2.Sdk.Confinement
import ZenohRos2.Sdk.Copies
import ZenohRos2.Sdk.Delivery
import ZenohRos2.Sdk.Dispatch
import ZenohRos2.Sdk.Drain
import ZenohRos2.Sdk.DrainStep
import ZenohRos2.Sdk.Incoming
import ZenohRos2.Sdk.Intervals
import ZenohRos2.Sdk.KeyIds
import ZenohRos2.Sdk.Lease
import ZenohRos2.Sdk.LocalDelivery
import ZenohRos2.Sdk.LocalPath
import ZenohRos2.Sdk.LosslessPath
import ZenohRos2.Sdk.Node
import ZenohRos2.Sdk.Numbering
import ZenohRos2.Sdk.Overtaking
import ZenohRos2.Sdk.Reassembly
import ZenohRos2.Sdk.Refinement
import ZenohRos2.Sdk.Registration
import ZenohRos2.Sdk.RemoteCalls
import ZenohRos2.Sdk.Replies
import ZenohRos2.Sdk.ReplyDeadline
import ZenohRos2.Sdk.Requests
import ZenohRos2.Sdk.Routing
import ZenohRos2.Sdk.Service
import ZenohRos2.Sdk.Silence
import ZenohRos2.Sdk.Spin
import ZenohRos2.Sdk.Splicing
import ZenohRos2.Sdk.Starvation
import ZenohRos2.Sdk.Subscriptions
import ZenohRos2.Sdk.Switching
import ZenohRos2.Sdk.Tables
import ZenohRos2.Sdk.Timers
import ZenohRos2.Sdk.Traffic
import ZenohRos2.Session.KeyIds
import ZenohRos2.Session.Lifecycle
import ZenohRos2.Session.Negotiation
import ZenohRos2.Session.Opening
import ZenohRos2.Session.Receiving
import ZenohRos2.Session.Reconnect
import ZenohRos2.Session.Session
import ZenohRos2.Session.Shares
import ZenohRos2.Session.Sharing
import ZenohRos2.Transport.Acceptance
import ZenohRos2.Transport.Agreement
import ZenohRos2.Transport.Body
import ZenohRos2.Transport.Chains
import ZenohRos2.Transport.Codec
import ZenohRos2.Transport.Control
import ZenohRos2.Transport.Decoding
import ZenohRos2.Transport.Encoding
import ZenohRos2.Transport.Frame
import ZenohRos2.Transport.Handshake
import ZenohRos2.Transport.Identifiers
import ZenohRos2.Transport.InitAck
import ZenohRos2.Transport.KeepAlive
import ZenohRos2.Transport.Messages
import ZenohRos2.Transport.Paths
import ZenohRos2.Transport.Protocol
import ZenohRos2.Transport.PushPut
import ZenohRos2.Transport.Readable
import ZenohRos2.Transport.Response
import ZenohRos2.Transport.Safety
import ZenohRos2.Transport.Varint
