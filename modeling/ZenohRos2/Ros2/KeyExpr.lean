import ZenohRos2.Rust.HeaplessString
import ZenohRos2.Transport.Protocol

/-! Topics, the key expressions they stand for, and liveliness tokens. -/

set_option autoImplicit false

namespace ZenohRos2
open Rust

def maxKeyExprLen : Nat := 256

def maxQosKeyexprLen : Nat := 128

def maxLivelinessLen : Nat := 512

structure TopicKeyExpr where
  domainId : UInt32
  topicName : String
  typeName : String
  typeHash : String
  deriving DecidableEq, Repr

/-- `name.strip_prefix('/').unwrap_or(name)`: at most one slash goes. -/
def stripSlash (name : String) : String :=
  match name.toList with
  | '/' :: rest => String.ofList rest
  | _ => name

/-- `name.trim_start_matches('/')`: every leading slash goes. -/
def trimSlashes (name : String) : String := String.ofList (name.toList.dropWhile (· = '/'))

def TopicKeyExpr.toKeyExpr (topic : TopicKeyExpr) : Option (HeaplessString maxKeyExprLen) := do
  let s ← HeaplessString.empty.pushU32 topic.domainId
  let s ← s.push '/'
  -- Any more leading slashes stay part of the name.
  let s ← s.pushStr (stripSlash topic.topicName)
  let s ← s.push '/'
  let s ← s.pushStr topic.typeName
  let s ← s.push '/'
  s.pushStr topic.typeHash

def buildTopicKeyExpr (domainId : UInt32) (topicName typeName typeHash : String) :
    Option (HeaplessString maxKeyExprLen) := do
  let s ← HeaplessString.empty.pushU32 domainId
  let s ← s.push '/'
  let s ← s.pushStr (stripSlash topicName)
  let s ← s.push '/'
  let s ← s.pushStr typeName
  let s ← s.push '/'
  s.pushStr typeHash

inductive Locality where
  | any
  | sessionLocal
  | remote
  deriving DecidableEq, Repr

inductive Reliability where
  | bestEffort
  | reliable
  deriving DecidableEq, Repr

def Reliability.rmwValue : Reliability → UInt8
  | .bestEffort => 2
  | .reliable => 1

inductive Durability where
  | volatile
  | transientLocal
  deriving DecidableEq, Repr

def Durability.rmwValue : Durability → UInt8
  | .volatile => 2
  | .transientLocal => 1

inductive History where
  | keepLast (depth : UInt32)
  | keepAll
  deriving DecidableEq, Repr

def History.rmwValue : History → UInt8
  | .keepLast _ => 1
  | .keepAll => 2

def History.depth : History → UInt32
  | .keepLast depth => depth
  | .keepAll => 0

structure Qos where
  reliability : Reliability
  durability : Durability
  history : History
  deriving DecidableEq, Repr

namespace Qos

def rmwDefaultReliability : UInt8 := 1
def rmwDefaultDurability : UInt8 := 2
def rmwDefaultHistory : UInt8 := 1
def rmwDefaultDepth : UInt32 := 42

def default : Qos := ⟨.reliable, .volatile, .keepLast 10⟩

def pushU8 {capacity : Nat} (string : HeaplessString capacity) (value : UInt8) :
    Option (HeaplessString capacity) := do
  let digit (n : UInt8) : Char := Char.ofNat ('0'.toNat + n.toNat)
  let string ← if value ≥ 100 then string.push (digit (value / 100)) else some string
  let string ← if value ≥ 10 then string.push (digit ((value / 10) % 10)) else some string
  string.push (digit (value % 10))

/-- A field that has the rmw default is left empty. -/
def toRmwQosKeyexpr (qos : Qos) : Option (HeaplessString maxQosKeyexprLen) := do
  let s := HeaplessString.empty
  let s ← if qos.reliability.rmwValue ≠ rmwDefaultReliability then pushU8 s qos.reliability.rmwValue else some s
  let s ← s.push ':'
  let s ← if qos.durability.rmwValue ≠ rmwDefaultDurability then pushU8 s qos.durability.rmwValue else some s
  let s ← s.push ':'
  let s ← if qos.history.rmwValue ≠ rmwDefaultHistory then pushU8 s qos.history.rmwValue else some s
  let s ← s.push ','
  let s ← if qos.history.depth ≠ rmwDefaultDepth then s.pushU32 qos.history.depth else some s
  let s ← s.push ':'
  let s ← s.push ','
  let s ← s.push ':'
  let s ← s.push ','
  let s ← s.push ':'
  let s ← s.push ','
  s.push ','

end Qos

inductive EntityType where
  | publisher
  | subscriber
  | serviceServer
  | serviceClient
  deriving DecidableEq, Repr

def EntityType.asStr : EntityType → String
  | .publisher => "MP"
  | .subscriber => "MS"
  | .serviceServer => "SS"
  | .serviceClient => "SC"

section Liveliness
variable {capacity : Nat}

def hexDigit (n : UInt8) : Char := "0123456789abcdef".toList.getD n.toNat '0'

def pushHexByte (string : HeaplessString capacity) (byte : UInt8) : Option (HeaplessString capacity) := do
  let string ← string.push (hexDigit (byte >>> 4))
  string.push (hexDigit (byte &&& 0x0F))

/-- Every slash becomes a percent sign, one character at a time. -/
def pushMangledChars (string : HeaplessString capacity) (name : String) : Option (HeaplessString capacity) :=
  name.toList.foldlM (fun string c => string.push (if c = '/' then '%' else c)) string

def pushMangled (string : HeaplessString capacity) (name : String) : Option (HeaplessString capacity) :=
  if name.isEmpty || name == "/" then string.push '%' else pushMangledChars string name

/-- Absolute names get the percent sign of their leading slash even where it is left out. -/
def pushMangledAbsolute (string : HeaplessString capacity) (name : String) :
    Option (HeaplessString capacity) :=
  if name.isEmpty || name == "/" then string.push '%'
  else do
    let string ← if name.toList.head? ≠ some '/' then string.push '%' else some string
    pushMangledChars string name

def buildLivelinessToken (domainId : UInt32) (zid : ZenohId) (nid entityId : UInt32) (entityType : EntityType)
    (enclave «namespace» nodeName topicName typeName typeHash : String) (qos : Qos) :
    Option (HeaplessString maxLivelinessLen) := do
  let s ← HeaplessString.empty.pushStr "@ros2_lv/"
  let s ← s.pushU32 domainId
  let s ← s.push '/'
  let s ← zid.asBytes.foldlM pushHexByte s
  let s ← s.push '/'
  let s ← s.pushU32 nid
  let s ← s.push '/'
  let s ← s.pushU32 entityId
  let s ← s.push '/'
  let s ← s.pushStr entityType.asStr
  let s ← s.push '/'
  let s ← pushMangledAbsolute s enclave
  let s ← s.push '/'
  let s ← pushMangledAbsolute s «namespace»
  let s ← s.push '/'
  let s ← pushMangled s nodeName
  let s ← s.push '/'
  let s ← pushMangledAbsolute s topicName
  let s ← s.push '/'
  let s ← pushMangled s typeName
  let s ← s.push '/'
  let s ← pushMangled s typeHash
  let s ← s.push '/'
  let qosKeyexpr ← qos.toRmwQosKeyexpr
  s.pushStr qosKeyexpr.text

end Liveliness

/-- `topics_match`: domain and name count, type name and hash do not. -/
def topicsMatch (a b : TopicKeyExpr) : Bool :=
  if a.domainId ≠ b.domainId then false else trimSlashes a.topicName == trimSlashes b.topicName

end ZenohRos2
