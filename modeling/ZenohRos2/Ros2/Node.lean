import ZenohRos2.Session.Session

/-! The node of the `ros2` module, as its builder makes it of a handshake. -/

set_option autoImplicit false

namespace ZenohRos2.Ros2
open Rust Zenoh

def minLeaseMs : UInt64 := 2000

structure Node where
  nodeName : String
  «namespace» : String
  sn : UInt64
  keyIdGen : UInt16
  gid : ZenohId
  leaseMs : UInt64

/-- The node of `NodeBuilder::open`. The lease that the client offered is not kept. -/
def Node.opened (nodeName «namespace» : String) (gid : ZenohId) (handshake : HandshakeResult) : Node where
  nodeName := nodeName
  «namespace» := «namespace»
  sn := 0
  keyIdGen := 1
  gid := gid
  leaseMs := max handshake.leaseMs minLeaseMs

def Node.keepaliveInterval (node : Node) : Nat := (node.leaseMs / 2).toNat

end ZenohRos2.Ros2
