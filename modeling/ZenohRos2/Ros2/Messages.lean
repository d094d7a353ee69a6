import ZenohRos2.Cdr.Size
import ZenohRos2.Rust.HeaplessString

/-! The predefined messages, and the capacities that are declared for them. -/

set_option autoImplicit false

namespace ZenohRos2
open Rust Cdr

/-- `#[derive(Serialize, Deserialize)]`: the type of a struct, and its value field by field. -/
class Serde (α : Type) where
  ty : Ty
  val : α → ty.Val

def Cdr.Fields.ofList : List Ty → Fields
  | [] => .nil
  | field :: rest => .cons field (ofList rest)

def Cdr.Ty.struct (fields : List Ty) : Ty := .tuple (.ofList fields)

instance : Serde UInt8 := ⟨.prim .u8, id⟩
instance : Serde UInt32 := ⟨.prim .u32, id⟩
instance : Serde Int32 := ⟨.prim .i32, id⟩
instance : Serde Bool := ⟨.prim .bool, id⟩

structure F32 where
  bits : UInt32
  deriving DecidableEq

structure F64 where
  bits : UInt64
  deriving DecidableEq

instance : Serde F32 := ⟨.prim .f32, F32.bits⟩
instance : Serde F64 := ⟨.prim .f64, F64.bits⟩

/-- `[T; N]` -/
structure RustArray (α : Type) (length : Nat) where
  values : List α
  full : values.length = length

variable {α : Type}

instance [Serde α] {length : Nat} : Serde (RustArray α length) where
  ty := .array (Serde.ty α) length
  val array := ⟨array.values.map Serde.val, by rw [List.length_map, array.full]⟩

instance {capacity : Nat} : Serde (HeaplessString capacity) := ⟨.prim .string, HeaplessString.text⟩

namespace StdMsgs

structure Float32Msg where
  data : F32

structure Int32Msg where
  data : Int32

instance : Serde Float32Msg := ⟨.struct [Serde.ty F32], fun msg => (Serde.val msg.data, ())⟩
instance : Serde Int32Msg := ⟨.struct [Serde.ty Int32], fun msg => (Serde.val msg.data, ())⟩

def float32CdrCap : Nat := 8
def int32CdrCap : Nat := 8

structure StringMsg (capacity : Nat) where
  data : HeaplessString capacity

instance {capacity : Nat} : Serde (StringMsg capacity) :=
  ⟨.struct [Serde.ty (HeaplessString capacity)], fun msg => (Serde.val msg.data, ())⟩

end StdMsgs

namespace GeometryMsgs

structure Vector3 where
  x : F64
  y : F64
  z : F64

instance : Serde Vector3 :=
  ⟨.struct (List.replicate 3 (Serde.ty F64)), fun v => (Serde.val v.x, Serde.val v.y, Serde.val v.z, ())⟩

structure Twist where
  linear : Vector3
  angular : Vector3

instance : Serde Twist :=
  ⟨.struct [Serde.ty Vector3, Serde.ty Vector3], fun twist => (Serde.val twist.linear, Serde.val twist.angular, ())⟩

def twistCdrCap : Nat := 52

end GeometryMsgs

/-- `builtin_interfaces/msg/Time`, which three of the packages declare for themselves. -/
structure Stamp where
  sec : Int32
  nanosec : UInt32

instance : Serde Stamp :=
  ⟨.struct [Serde.ty Int32, Serde.ty UInt32], fun stamp => (Serde.val stamp.sec, Serde.val stamp.nanosec, ())⟩

namespace RclInterfaces

/-- The crate only deserializes it; the layout is that of its fields. -/
structure Log (capacity : Nat) where
  stamp : Stamp
  level : UInt8
  name : HeaplessString capacity
  msg : HeaplessString capacity
  file : HeaplessString capacity
  function : HeaplessString capacity
  line : UInt32

instance {capacity : Nat} : Serde (Log capacity) where
  ty := .struct ([Serde.ty Stamp, Serde.ty UInt8] ++ List.replicate 4 (Serde.ty (HeaplessString capacity)) ++
    [Serde.ty UInt32])
  val log := (Serde.val log.stamp, Serde.val log.level, Serde.val log.name, Serde.val log.msg, Serde.val log.file,
    Serde.val log.function, Serde.val log.line, ())

def logCdrCap : Nat := 600

end RclInterfaces

namespace ActionMsgs

structure GoalId where
  uuid : RustArray UInt8 16

instance : Serde GoalId := ⟨.struct [Serde.ty (RustArray UInt8 16)], fun id => (Serde.val id.uuid, ())⟩

structure GoalInfo where
  goalId : GoalId
  stamp : Stamp

instance : Serde GoalInfo :=
  ⟨.struct [Serde.ty GoalId, Serde.ty Stamp], fun info => (Serde.val info.goalId, Serde.val info.stamp, ())⟩

structure SendGoalResponse where
  accepted : Bool
  stamp : Stamp

instance : Serde SendGoalResponse :=
  ⟨.struct [Serde.ty Bool, Serde.ty Stamp], fun resp => (Serde.val resp.accepted, Serde.val resp.stamp, ())⟩

def sendGoalRespCdrCap : Nat := 16

structure GetResultRequest where
  goalId : GoalId

instance : Serde GetResultRequest := ⟨.struct [Serde.ty GoalId], fun req => (Serde.val req.goalId, ())⟩

def getResultReqCdrCap : Nat := 20

structure CancelGoalRequest where
  goalInfo : GoalInfo

instance : Serde CancelGoalRequest := ⟨.struct [Serde.ty GoalInfo], fun req => (Serde.val req.goalInfo, ())⟩

def cancelGoalReqCdrCap : Nat := 28

end ActionMsgs

namespace SensorMsgs

structure Header (capacity : Nat) where
  stamp : Stamp
  frameId : HeaplessString capacity

instance {capacity : Nat} : Serde (Header capacity) :=
  ⟨.struct [Serde.ty Stamp, Serde.ty (HeaplessString capacity)], fun header =>
    (Serde.val header.stamp, Serde.val header.frameId, ())⟩

structure RangeMsg (capacity : Nat) where
  header : Header capacity
  radiationType : UInt8
  fieldOfView : F32
  minRange : F32
  maxRange : F32
  range : F32
  variance : F32

instance {capacity : Nat} : Serde (RangeMsg capacity) where
  ty := .struct ([Serde.ty (Header capacity), Serde.ty UInt8] ++ List.replicate 5 (Serde.ty F32))
  val msg := (Serde.val msg.header, Serde.val msg.radiationType, Serde.val msg.fieldOfView, Serde.val msg.minRange,
    Serde.val msg.maxRange, Serde.val msg.range, Serde.val msg.variance, ())

def rangeCdrCap : Nat := 52

structure Quaternion where
  x : F64
  y : F64
  z : F64
  w : F64

instance : Serde Quaternion :=
  ⟨.struct (List.replicate 4 (Serde.ty F64)), fun q => (Serde.val q.x, Serde.val q.y, Serde.val q.z, Serde.val q.w, ())⟩

structure Vector3d where
  x : F64
  y : F64
  z : F64

instance : Serde Vector3d :=
  ⟨.struct (List.replicate 3 (Serde.ty F64)), fun v => (Serde.val v.x, Serde.val v.y, Serde.val v.z, ())⟩

abbrev Covariance := RustArray F64 9

structure ImuMsg (capacity : Nat) where
  header : Header capacity
  orientation : Quaternion
  orientationCovariance : Covariance
  angularVelocity : Vector3d
  angularVelocityCovariance : Covariance
  linearAcceleration : Vector3d
  linearAccelerationCovariance : Covariance

instance {capacity : Nat} : Serde (ImuMsg capacity) where
  ty := .struct [Serde.ty (Header capacity), Serde.ty Quaternion, Serde.ty Covariance, Serde.ty Vector3d,
    Serde.ty Covariance, Serde.ty Vector3d, Serde.ty Covariance]
  val msg := (Serde.val msg.header, Serde.val msg.orientation, Serde.val msg.orientationCovariance,
    Serde.val msg.angularVelocity, Serde.val msg.angularVelocityCovariance, Serde.val msg.linearAcceleration,
    Serde.val msg.linearAccelerationCovariance, ())

def imuCdrCap : Nat := 320

end SensorMsgs

/-- `cdr_cap_for_string`, and `cdr_size_of!(String(n))`. -/
def cdrCapForString (maxStrLen : Nat) : Nat := 4 + 4 + maxStrLen + 1

/-- `cdr_size_of!(f64 * n)` -/
def cdrSizeOfF64 (n : Nat) : Nat := 4 + 8 * n

/-- `cdr_size_of!(f32 * n)` -/
def cdrSizeOfF32 (n : Nat) : Nat := 4 + 4 * n

/-- `cdr_size_of!(bytes(n))` -/
def cdrSizeOfBytes (n : Nat) : Nat := 4 + n

section Capacities
variable [Target]

/-- The message is serialized into the buffer with so many bytes, and read back from there. -/
def SerializesIn [Serde α] (value : α) (buf : Bytes) (n : Nat) : Prop :=
  ∃ after, serializeWithHeader (Serde.ty α) (Serde.val value) buf = .ok (n, after) ∧
    deserializeWithHeader (Serde.ty α) after = .ok (Serde.val value, n)

/-- Every message fills a buffer of this size to the last byte, and has no room in a smaller one. -/
def Fills (α : Type) [Serde α] (cap : Nat) : Prop :=
  ∀ (value : α) (buf : Bytes), Addressable buf → (buf.length = cap → SerializesIn value buf cap) ∧
    (buf.length < cap → serializeWithHeader (Serde.ty α) (Serde.val value) buf = .err .bufferOverflow)

theorem fills_of_fixed [Serde α] {cap : Nat} {step : Nat → Nat} (fixed : (Serde.ty α).fixedStop = some step)
    (size : 4 + step 0 = cap) : Fills α cap := by
  intro value buf addressable
  obtain ⟨within, held⟩ := (Serde.ty α).valid_of_fixed fixed (Serde.val value)
  constructor
  · intro same
    rw [SerializesIn, serializeWithHeader_iff within held addressable, (Serde.ty α).stop_eq fixed]
    omega
  · intro short
    apply serializeWithHeader_short within held addressable
    rwa [(Serde.ty α).stop_eq fixed, size]

omit [Target] in
theorem iterate_stop {width : Nat} (positive : 0 < width) (n : Nat) :
    (fun pos => alignUp width pos + width)^[n] 0 = width * n := by
  cases n with
  | zero => rfl
  | succ n => rw [iterate_alignUp positive n.succ_pos, alignUp_of_dvd (Nat.dvd_zero width), Nat.zero_add]

omit [Target] in
theorem iterate_octets (n : Nat) : (· + 1)^[n] 0 = n := by
  induction n with
  | zero => rfl
  | succ n ih => rw [Function.iterate_succ_apply', ih]

/-- The capacities of the messages without strings, and those of `cdr_size_of!` for numbers and octets, are exact. -/
theorem capacities_exact :
    Fills StdMsgs.Float32Msg StdMsgs.float32CdrCap ∧ Fills StdMsgs.Int32Msg StdMsgs.int32CdrCap ∧
    Fills GeometryMsgs.Twist GeometryMsgs.twistCdrCap ∧
    Fills ActionMsgs.SendGoalResponse ActionMsgs.sendGoalRespCdrCap ∧
    Fills ActionMsgs.GetResultRequest ActionMsgs.getResultReqCdrCap ∧
    Fills ActionMsgs.CancelGoalRequest ActionMsgs.cancelGoalReqCdrCap ∧
    ∀ n, Fills (RustArray F64 n) (cdrSizeOfF64 n) ∧ Fills (RustArray F32 n) (cdrSizeOfF32 n) ∧
      Fills (RustArray UInt8 n) (cdrSizeOfBytes n) := by
  refine ⟨fills_of_fixed rfl rfl, fills_of_fixed rfl rfl, fills_of_fixed rfl rfl, fills_of_fixed rfl rfl,
    fills_of_fixed rfl rfl, fills_of_fixed rfl rfl, fun n => ⟨fills_of_fixed rfl ?_, fills_of_fixed rfl ?_,
      fills_of_fixed rfl ?_⟩⟩
  · exact congrArg (4 + ·) (iterate_stop (by decide) n)
  · exact congrArg (4 + ·) (iterate_stop (by decide) n)
  · exact congrArg (4 + ·) (iterate_octets n)

section Strings
variable {capacity : Nat} (small : capacity < 2 ^ 31)
include small

omit [Target] in
theorem within_text (string : HeaplessString capacity) : string.text.utf8ByteSize < 2 ^ 32 - 1 :=
  Nat.lt_of_le_of_lt string.fits (Nat.lt_trans small (by decide))

theorem held_text (string : HeaplessString capacity) : Addressable (utf8 string.text) := by
  have length : (utf8 string.text).length = string.text.utf8ByteSize := by simp [utf8]
  refine le_isizeMax ?_
  rw [length]
  exact Nat.lt_of_le_of_lt string.fits small

omit [Target] small in
theorem stop_text (text : String) (pos : Nat) :
    stop (Prim.string.layout text) pos = alignUp 4 pos + 4 + (text.utf8ByteSize + 1) := by
  change stop (number 4 (text.utf8ByteSize + 1) ++ .exactly (utf8 text ++ [0])) pos = _
  simp [utf8]

omit [Target] small in
theorem stop_header (header : SensorMsgs.Header capacity) :
    stop ((Serde.ty (SensorMsgs.Header capacity)).layout (Serde.val header)) 0 =
      13 + header.frameId.text.utf8ByteSize := by
  change stop ((Serde.ty Stamp).layout (Serde.val header.stamp) ++
    (Prim.string.layout header.frameId.text ++ .nothing)) 0 = _
  rw [stop_append, stop_append, stop_text, (Serde.ty Stamp).stop_eq rfl]
  change 8 + 4 + (header.frameId.text.utf8ByteSize + 1) = _
  omega

theorem headed_iff (header : SensorMsgs.Header capacity) {rest : Fields} (values : rest.Val) {step : Nat → Nat}
    (fixed : rest.fixedStop = some step) {buf : Bytes} (addressable : Addressable buf) :
    let ty : Ty := .tuple (.cons (Serde.ty (SensorMsgs.Header capacity)) rest)
    let value : ty.Val := (Serde.val header, values)
    (∃ n after, serializeWithHeader ty value buf = .ok (n, after) ∧ deserializeWithHeader ty after = .ok (value, n)) ↔
      4 + step (13 + header.frameId.text.utf8ByteSize) ≤ buf.length := by
  intro ty value
  obtain ⟨within, held⟩ := rest.valid_of_fixed fixed values
  have inside : ty.Within value := ⟨⟨⟨trivial, trivial, trivial⟩, within_text small _, trivial⟩, within⟩
  have exists_ : ty.Held value := ⟨⟨⟨trivial, trivial, trivial⟩, held_text small _, trivial⟩, held⟩
  have size : stop (ty.layout value) 0 = step (13 + header.frameId.text.utf8ByteSize) := by
    change stop ((Serde.ty (SensorMsgs.Header capacity)).layout (Serde.val header) ++ rest.layout values) 0 = _
    rw [stop_append, stop_header, rest.stop_eq fixed]
  simp only [serializeWithHeader_iff inside exists_ addressable, exists_eq_left, size]

theorem string_fits_iff (msg : StdMsgs.StringMsg capacity) {n : Nat} {buf : Bytes} (addressable : Addressable buf)
    (size : buf.length = cdrCapForString n) :
    (∃ count, SerializesIn msg buf count) ↔ msg.data.text.utf8ByteSize ≤ n := by
  have within : (Serde.ty (StdMsgs.StringMsg capacity)).Within (Serde.val msg) := ⟨within_text small _, trivial⟩
  have held : (Serde.ty (StdMsgs.StringMsg capacity)).Held (Serde.val msg) := ⟨held_text small _, trivial⟩
  have ends : stop ((Serde.ty (StdMsgs.StringMsg capacity)).layout (Serde.val msg)) 0 =
      4 + (msg.data.text.utf8ByteSize + 1) := by
    change stop (Prim.string.layout msg.data.text ++ .nothing) 0 = _
    rw [stop_append, stop_text]
    exact congrArg (· + (msg.data.text.utf8ByteSize + 1)) (Nat.zero_add 4)
  simp only [SerializesIn, serializeWithHeader_iff within held addressable, exists_eq_left, ends, size, cdrCapForString]
  omega

theorem range_fits_iff (msg : SensorMsgs.RangeMsg capacity) {buf : Bytes} (addressable : Addressable buf)
    (size : buf.length = SensorMsgs.rangeCdrCap) :
    (∃ count, SerializesIn msg buf count) ↔ msg.header.frameId.text.utf8ByteSize ≤ 14 := by
  refine (headed_iff small msg.header _ rfl addressable).trans ?_
  simp only [Function.comp_apply, id_eq, alignUp_four, size, SensorMsgs.rangeCdrCap]
  omega

theorem imu_fits_iff (msg : SensorMsgs.ImuMsg capacity) {buf : Bytes} (addressable : Addressable buf)
    (size : buf.length = SensorMsgs.imuCdrCap) :
    (∃ count, SerializesIn msg buf count) ↔ msg.header.frameId.text.utf8ByteSize ≤ 3 := by
  let number (pos : Nat) : Nat := alignUp 8 pos + 8
  have together (n : Nat) (some_ : 0 < n) (pos : Nat) : number^[n] pos = alignUp 8 pos + 8 * n :=
    iterate_alignUp (by decide) some_ pos
  let rest : Fields := .ofList [Serde.ty SensorMsgs.Quaternion, Serde.ty SensorMsgs.Covariance,
    Serde.ty SensorMsgs.Vector3d, Serde.ty SensorMsgs.Covariance, Serde.ty SensorMsgs.Vector3d,
    Serde.ty SensorMsgs.Covariance]
  have fixed : rest.fixedStop =
      some (number^[9] ∘ number^[3] ∘ number^[9] ∘ number^[3] ∘ number^[9] ∘ number^[4]) := rfl
  refine (headed_iff small msg.header _ fixed addressable).trans ?_
  -- All 37 numbers behind the header have the same width.
  rw [← Function.iterate_add, ← Function.iterate_add, ← Function.iterate_add, ← Function.iterate_add,
    ← Function.iterate_add, together _ (by decide), alignUp_eight, size, SensorMsgs.imuCdrCap]
  omega

omit [Target] small in
/-- Of a `Log`, the four strings and the last number are padded by three bytes at most. -/
theorem log_length_le (log : RclInterfaces.Log capacity) (bound : capacity ≤ 128) :
    4 + stop ((Serde.ty (RclInterfaces.Log capacity)).layout (Serde.val log)) 0 ≤ 564 := by
  have name := log.name.fits
  have msg := log.msg.fits
  have file := log.file.fits
  have function := log.function.fits
  have front : stop ((Serde.ty Stamp).layout (Serde.val log.stamp)) 0 = 8 := (Serde.ty Stamp).stop_eq rfl _ 0
  change 4 + stop ((Serde.ty Stamp).layout (Serde.val log.stamp) ++ (.exactly [log.level] ++
    (Prim.string.layout log.name.text ++ (Prim.string.layout log.msg.text ++ (Prim.string.layout log.file.text ++
      (Prim.string.layout log.function.text ++ (number 4 log.line.toNat ++ .nothing))))))) 0 ≤ 564
  simp only [stop_append, front, stop_exactly, stop_text, stop_number, stop_nothing, alignUp_four, List.length_singleton]
  omega

/-- What fits the capacities of the messages with strings: `cdr_size_of!(String(n))` takes just the texts of at most `n`
bytes, the capacity of a range just the frame ids of at most 14 bytes, and that of an IMU those of at most 3. A log of
strings of at most 128 bytes never comes to its capacity. -/
theorem string_capacities :
    (∀ (msg : StdMsgs.StringMsg capacity) (n : Nat) (buf : Bytes), Addressable buf → buf.length = cdrCapForString n →
      ((∃ count, SerializesIn msg buf count) ↔ msg.data.text.utf8ByteSize ≤ n)) ∧
    (∀ (msg : SensorMsgs.RangeMsg capacity) (buf : Bytes), Addressable buf → buf.length = SensorMsgs.rangeCdrCap →
      ((∃ count, SerializesIn msg buf count) ↔ msg.header.frameId.text.utf8ByteSize ≤ 14)) ∧
    (∀ (msg : SensorMsgs.ImuMsg capacity) (buf : Bytes), Addressable buf → buf.length = SensorMsgs.imuCdrCap →
      ((∃ count, SerializesIn msg buf count) ↔ msg.header.frameId.text.utf8ByteSize ≤ 3)) ∧
    ∀ log : RclInterfaces.Log capacity, capacity ≤ 128 →
      (cdrLeHeader ++ (Serde.ty (RclInterfaces.Log capacity)).body (Serde.val log)).length < RclInterfaces.logCdrCap := by
  refine ⟨fun msg _ _ => string_fits_iff small msg, fun msg _ => range_fits_iff small msg,
    fun msg _ => imu_fits_iff small msg, fun log bound => ?_⟩
  have length := log_length_le log bound
  rw [stop, Nat.zero_add] at length
  rw [List.length_append]
  exact Nat.lt_of_le_of_lt length (by decide)

end Strings

omit [Target] in
/-- With the default capacity of 16 bytes, an IMU message on `imu0` does not fit, and one on `imu` does. -/
theorem string_capacities_imu :
    let zero : F64 := ⟨0⟩
    let none : SensorMsgs.Covariance := ⟨List.replicate 9 zero, List.length_replicate⟩
    let imu (frameId : HeaplessString 16) : SensorMsgs.ImuMsg 16 :=
      ⟨⟨⟨0, 0⟩, frameId⟩, ⟨zero, zero, zero, zero⟩, none, ⟨zero, zero, zero⟩, none, ⟨zero, zero, zero⟩, none⟩
    letI := target64
    (∃ count, SerializesIn (imu ⟨"imu", by decide +kernel⟩) (List.replicate 320 0) count) ∧
      ¬∃ count, SerializesIn (imu ⟨"imu0", by decide +kernel⟩) (List.replicate 320 0) count := by
  intro zero none imu
  let := target64
  have addressable : Addressable (List.replicate 320 (0 : UInt8)) :=
    le_isizeMax (by rw [List.length_replicate]; decide)
  have fits (frameId : HeaplessString 16) := (string_capacities (show 16 < 2 ^ 31 by decide)).2.2.1 (imu frameId)
    (List.replicate 320 0) addressable List.length_replicate
  exact ⟨(fits _).mpr (show "imu".utf8ByteSize ≤ 3 by decide +kernel),
    fun serialized => absurd ((fits _).mp serialized) (show ¬"imu0".utf8ByteSize ≤ 3 by decide +kernel)⟩

end Capacities

end ZenohRos2
