import ZenohRos2.Ros2.Node
import ZenohRos2.Sdk.Lease
import ZenohRos2.Session.Negotiation
import ZenohRos2.Transport.KeepAlive

/-! The keepalive intervals that three layers derive from one handshake. -/

set_option autoImplicit false

namespace ZenohRos2
open Rust Zenoh

theorem Node.keepaliveInterval_built (nodeName «namespace» : String) (domainId : UInt32) (gid : ZenohId)
    (routerLeaseMs ourLeaseMs : UInt64) :
    (Node.built nodeName «namespace» domainId gid routerLeaseMs ourLeaseMs).keepaliveInterval =
      min ourLeaseMs.toNat (max routerLeaseMs.toNat 2000) / 2 := by
  unfold keepaliveInterval built
  rw [UInt64.toNat_div, toNat_min, toNat_max]
  rfl

theorem Ros2.Node.keepaliveInterval_opened (nodeName «namespace» : String) (gid : ZenohId)
    (handshake : HandshakeResult) :
    (Ros2.Node.opened nodeName «namespace» gid handshake).keepaliveInterval = max handshake.leaseMs.toNat 2000 / 2 := by
  unfold keepaliveInterval opened
  rw [UInt64.toNat_div, toNat_max]
  rfl

section Handshake
variable [Target] [TimeDriver] {buffers : Zenoh.Buffers} {transport : Transport} {config : SessionConfig}
  {handshake : HandshakeResult} {session : Zenoh.Session}

/-- Every layer sends twice within the lease that was promised in the OpenSyn. -/
def IntervalsKept (promised : UInt64) (node : Node) (ros2 : Ros2.Node) (manager : KeepAliveManager) : Prop :=
  (Duration.fromMillis node.keepaliveInterval).Keeps promised ∧
  (Duration.fromMillis ros2.keepaliveInterval).Keeps promised ∧ manager.interval.Keeps promised

/-- Behind one handshake, the loops of the `sdk` keep the promised lease for every lease of the router, the loop of
the `ros2` module for those that are not longer than promised, and a manager for the session never. -/
theorem keepalive_intervals_exact (ran : Ran (doHandshake buffers config) (.new transport config) handshake session)
    (nodeName «namespace» : String) (domainId : UInt32) (now : Nat) :
    let node := Node.built nodeName «namespace» domainId config.zid handshake.leaseMs handshake.ourLeaseMs
    let ros2 := Ros2.Node.opened nodeName «namespace» config.zid handshake
    let manager := KeepAliveManager.new now session.leaseMs
    Zenoh.Session.opened buffers transport config = some (.ok session) ∧
    (∃ cookie, session.link.written.getLast? = some (openSynBytes ⟨handshake.ourLeaseMs, 0, cookie⟩)) ∧
    ¬IntervalsKept handshake.ourLeaseMs node ros2 manager ∧
    (Duration.fromMillis node.keepaliveInterval).Keeps handshake.ourLeaseMs ∧
    ((Duration.fromMillis ros2.keepaliveInterval).Keeps handshake.ourLeaseMs ↔ handshake.leaseMs.toNat ≤ 10001) ∧
    manager.interval.ticks = 0 := by
  intro node ros2 manager
  obtain ⟨cookie, written, same, -, offered⟩ := Ran.doHandshake ran rfl
  have promised : handshake.ourLeaseMs.toNat = 10000 := by rw [offered]; rfl
  have none : manager.interval.ticks = 0 := by
    have unset : session.leaseMs = 0 := by rw [same]; rfl
    simp [manager, KeepAliveManager.new, unset]
  refine ⟨?_, ⟨cookie, ?_⟩, ?_, ?_, ?_, none⟩
  · rw [Zenoh.Session.opened, show Async.run perform (doHandshake buffers config) _ = _ from ran]
    rfl
  · rw [written, List.getLast?_append, offered]
    rfl
  · rintro ⟨-, -, positive, -⟩
    omega
  · rw [Duration.keeps_fromMillis_iff, Node.keepaliveInterval_built, promised]
    omega
  · rw [Duration.keeps_fromMillis_iff, Ros2.Node.keepaliveInterval_opened, promised]
    omega

omit [Target] [TimeDriver] in
theorem exists_accepted : letI := target64
    ∃ handshake session, Ran (doHandshake handshakeBuffers ⟨ZenohId.fromBytes [7], 0⟩)
      (.new .accepting ⟨ZenohId.fromBytes [7], 0⟩) handshake session ∧
      handshake.leaseMs = 10 ∧ session.leaseMs = 0 := by
  let := target64
  have found : ((Async.run perform (doHandshake handshakeBuffers ⟨ZenohId.fromBytes [7], 0⟩)
      (.new .accepting ⟨ZenohId.fromBytes [7], 0⟩)).any fun
        | (.ok handshake, session) => handshake.leaseMs == 10 && session.leaseMs == 0
        | (.err _, _) => false
        | (.panic _, _) => false) = true := by decide +kernel
  obtain ⟨⟨result, session⟩, ran, holds⟩ := (Option.any_eq_true _ _).mp found
  cases result with
  | err error => cases holds
  | panic fault => cases holds
  | ok handshake =>
    obtain ⟨announced, unset⟩ := Bool.and_eq_true_iff.mp holds
    exact ⟨handshake, session, ran, beq_iff_eq.mp announced, beq_iff_eq.mp unset⟩

omit [Target] [TimeDriver] in
theorem keepalive_intervals_exact_accepted : letI := target64
    letI : TimeDriver := .counting 1000 (by decide)
    ∃ handshake : HandshakeResult, handshake.leaseMs = 10 ∧
      (Duration.fromMillis (Ros2.Node.opened "" "" (ZenohId.fromBytes [7]) handshake).keepaliveInterval).Keeps
        handshake.ourLeaseMs := by
  let := target64
  let : TimeDriver := .counting 1000 (by decide)
  obtain ⟨handshake, session, ran, announced, -⟩ := exists_accepted
  obtain ⟨-, -, -, -, ros2, -⟩ := keepalive_intervals_exact ran "" "" 0 0
  refine ⟨handshake, announced, ros2.mpr ?_⟩
  rw [announced]
  decide

omit [Target] [TimeDriver] in
/-- The session has forgotten the lease of the router, and the interval of the manager is zero. -/
theorem keepalive_intervals_not_kept : letI := target64
    letI : TimeDriver := .counting 1000 (by decide)
    ¬∀ (buffers : Zenoh.Buffers) (transport : Transport) (config : SessionConfig) (handshake : HandshakeResult)
      (session : Zenoh.Session), Ran (doHandshake buffers config) (.new transport config) handshake session →
      IntervalsKept handshake.ourLeaseMs
        (.built "" "" 0 config.zid handshake.leaseMs handshake.ourLeaseMs)
        (.opened "" "" config.zid handshake) (.new 0 session.leaseMs) := by
  let := target64
  let : TimeDriver := .counting 1000 (by decide)
  intro kept
  obtain ⟨handshake, session, ran, -, unset⟩ := exists_accepted
  obtain ⟨-, -, positive, -⟩ := kept _ _ _ _ _ ran
  rw [unset] at positive
  exact absurd positive (by decide)

end Handshake
end ZenohRos2
