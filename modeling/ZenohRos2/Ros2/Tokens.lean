import ZenohRos2.Ros2.Qos
import ZenohRos2.Ros2.Topics

/-! Liveliness tokens and what a reader finds in them.

No field contains a slash, since mangling replaces those of the names. So a token
splits into its fields, and each field is read back: names up to the leading slash
that the token supplies.
-/

set_option autoImplicit false

namespace ZenohRos2
open Rust HeaplessString

section Mangling
variable {name : String}

def absolute (name : String) : String := if name.toList.head? = some '/' then name else "/" ++ name

/-- An empty name reads back as a slash. -/
def rooted (name : String) : String := if name.isEmpty then "/" else name

def unmangle (field : List Char) : String := String.ofList (field.map fun c => if c = '%' then '/' else c)

theorem unmangle_cons (field : List Char) : unmangle ('%' :: field) = "/" ++ unmangle field := by
  rw [unmangle, List.map_cons, if_pos rfl, String.ofList_cons]
  rfl

theorem unmangle_mangledChars (plain : '%' ∉ name.toList) : unmangle (mangledChars name) = name := by
  have each : ∀ c ∈ name.toList,
      (if (if c = '/' then '%' else c) = '%' then '/' else if c = '/' then '%' else c) = c := by
    intro c member
    by_cases slash : c = '/'
    · rw [if_pos slash, if_pos rfl, slash]
    · rw [if_neg slash, if_neg]
      rintro rfl
      exact plain member
  rw [unmangle, mangledChars, ← List.map_eq_flatMap, List.map_map]
  exact (congrArg String.ofList ((List.map_congr_left each).trans (List.map_id' _))).trans String.ofList_toList

theorem unmangle_mangled (plain : '%' ∉ name.toList) : unmangle (mangled name) = rooted name := by
  unfold mangled rooted
  split
  · rename_i short
    rcases Bool.or_eq_true_iff.mp short with empty | slash
    · rw [if_pos empty]
      rfl
    · rw [beq_iff_eq.mp slash]
      rfl
  · rename_i long
    have named : ¬name.isEmpty = true := fun empty => long (Bool.or_eq_true_iff.mpr (.inl empty))
    rw [if_neg named, unmangle_mangledChars plain]

theorem unmangle_mangledAbsolute (plain : '%' ∉ name.toList) : unmangle (mangledAbsolute name) = absolute name := by
  unfold mangledAbsolute absolute
  split
  · rename_i short
    rcases Bool.or_eq_true_iff.mp short with empty | slash
    · rw [String.isEmpty_iff.mp empty]
      decide
    · rw [beq_iff_eq.mp slash]
      decide
  · by_cases bare : name.toList.head? = some '/'
    · rw [if_neg (not_not_intro bare), if_pos bare, List.nil_append, unmangle_mangledChars plain]
    · rw [if_pos bare, if_neg bare, List.singleton_append, unmangle_cons, unmangle_mangledChars plain]

theorem absolute_eq (name : String) : absolute name = "/" ++ stripSlash name := by
  unfold absolute stripSlash
  split
  · rename_i slash
    split
    · rename_i rest text
      rw [← String.toList_inj, text, String.toList_append]
      exact congrArg ('/' :: ·) String.toList_ofList.symm
    · rename_i other
      obtain ⟨rest, text⟩ := List.head?_eq_some_iff.mp slash
      exact absurd text (other rest)
  · rename_i bare
    split
    · rename_i rest text
      exact absurd (by rw [text]; rfl) bare
    · rfl

theorem slash_notMem_mangledChars (name : String) : '/' ∉ mangledChars name := by
  rw [mangledChars, ← List.map_eq_flatMap, List.mem_map]
  rintro ⟨c, -, same⟩
  by_cases slash : c = '/'
  · rw [if_pos slash] at same
    cases same
  · rw [if_neg slash] at same
    exact slash same

theorem slash_notMem_mangled (name : String) : '/' ∉ mangled name := by
  unfold mangled
  split
  · decide
  · exact slash_notMem_mangledChars name

theorem slash_notMem_mangledAbsolute (name : String) : '/' ∉ mangledAbsolute name := by
  unfold mangledAbsolute
  split
  · decide
  · rw [List.mem_append, not_or]
    refine ⟨?_, slash_notMem_mangledChars name⟩
    split <;> decide

end Mangling

section Hexadecimal

def hexValue (c : Char) : Option Nat := "0123456789abcdef".toList.idxOf? c

def readHex : List Char → Option Bytes
  | [] => some []
  | [_] => none
  | high :: low :: rest => do
    let high ← hexValue high
    let low ← hexValue low
    return UInt8.ofNat (16 * high + low) :: (← readHex rest)

theorem ofNat_cases {motive : UInt8 → Prop} (each : ∀ n : Fin 256, motive (UInt8.ofNat n)) (byte : UInt8) :
    motive byte := by
  have found := each ⟨byte.toNat, byte.toNat_lt⟩
  rwa [UInt8.ofNat_toNat] at found

theorem readHex_hexDigits (byte : UInt8) (rest : List Char) :
    readHex (hexDigits byte ++ rest) = (readHex rest).map (byte :: ·) := by
  have high : hexValue (hexDigit (byte >>> 4)) = some (byte.toNat / 16) := by
    revert byte
    exact ofNat_cases (by decide +kernel)
  have low : hexValue (hexDigit (byte &&& 0x0F)) = some (byte.toNat % 16) := by
    revert byte
    exact ofNat_cases (by decide +kernel)
  have whole : UInt8.ofNat (16 * (byte.toNat / 16) + byte.toNat % 16) = byte := by
    rw [Nat.div_add_mod, UInt8.ofNat_toNat]
  change (hexValue (hexDigit (byte >>> 4))).bind (fun high => (hexValue (hexDigit (byte &&& 0x0F))).bind fun low =>
    (readHex rest).bind fun found => some (UInt8.ofNat (16 * high + low) :: found)) = _
  rw [high, Option.bind_some, low, Option.bind_some, whole]
  cases readHex rest <;> rfl

theorem readHex_flatMap (bytes : Bytes) : readHex (bytes.flatMap hexDigits) = some bytes := by
  induction bytes with
  | nil => rfl
  | cons byte rest ih =>
    rw [List.flatMap_cons, readHex_hexDigits, ih]
    rfl

theorem slash_notMem_hexDigits (bytes : Bytes) : '/' ∉ bytes.flatMap hexDigits := by
  have each (byte : UInt8) : '/' ∉ hexDigits byte := by
    revert byte
    exact ofNat_cases (by decide +kernel)
  intro member
  obtain ⟨byte, -, found⟩ := List.mem_flatMap.mp member
  exact each byte found

end Hexadecimal

def EntityType.read (code : String) : Option EntityType :=
  [publisher, subscriber, serviceServer, serviceClient].find? (·.asStr == code)

theorem EntityType.read_asStr (entityType : EntityType) : EntityType.read entityType.asStr = some entityType := by
  cases entityType <;> decide

structure LivelinessEntity where
  domainId : UInt32
  zid : ZenohId
  nid : UInt32
  entityId : UInt32
  entityType : EntityType
  enclave : String
  «namespace» : String
  nodeName : String
  topicName : String
  typeName : String
  typeHash : String
  qos : Qos

structure LivelinessReading where
  domainId : Nat
  zid : Bytes
  nid : Nat
  entityId : Nat
  entityType : EntityType
  enclave : String
  «namespace» : String
  nodeName : String
  topicName : String
  typeName : String
  typeHash : String
  qos : Qos
  deriving DecidableEq, Repr

def readLivelinessToken (token : String) : Option LivelinessReading :=
  match token.toList.splitOn '/' with
  | [mark, domainId, zid, nid, entityId, entityType, enclave, «namespace», nodeName, topicName, typeName, typeHash,
      qos] => do
    guard (mark = "@ros2_lv".toList)
    return {
      domainId := ← (String.ofList domainId).toNat?
      zid := ← readHex zid
      nid := ← (String.ofList nid).toNat?
      entityId := ← (String.ofList entityId).toNat?
      entityType := ← EntityType.read (String.ofList entityType)
      enclave := unmangle enclave
      «namespace» := unmangle «namespace»
      nodeName := unmangle nodeName
      topicName := unmangle topicName
      typeName := unmangle typeName
      typeHash := unmangle typeHash
      qos := ← readQos qos }
  | _ => none

namespace LivelinessEntity
variable {entity : LivelinessEntity} {key : HeaplessString maxLivelinessLen}

def token (entity : LivelinessEntity) : Option (HeaplessString maxLivelinessLen) :=
  buildLivelinessToken entity.domainId entity.zid entity.nid entity.entityId entity.entityType entity.enclave
    entity.namespace entity.nodeName entity.topicName entity.typeName entity.typeHash entity.qos

/-- Names are known up to their leading slash. -/
def reading (entity : LivelinessEntity) : LivelinessReading where
  domainId := entity.domainId.toNat
  zid := entity.zid.asBytes
  nid := entity.nid.toNat
  entityId := entity.entityId.toNat
  entityType := entity.entityType
  enclave := absolute entity.enclave
  «namespace» := absolute entity.namespace
  nodeName := rooted entity.nodeName
  topicName := absolute entity.topicName
  typeName := rooted entity.typeName
  typeHash := rooted entity.typeHash
  qos := entity.qos

/-- No name contains the percent sign that stands for a slash. -/
structure PercentFree (entity : LivelinessEntity) : Prop where
  enclave : '%' ∉ entity.enclave.toList
  «namespace» : '%' ∉ entity.namespace.toList
  nodeName : '%' ∉ entity.nodeName.toList
  topicName : '%' ∉ entity.topicName.toList
  typeName : '%' ∉ entity.typeName.toList
  typeHash : '%' ∉ entity.typeHash.toList

def fields (entity : LivelinessEntity) : List (List Char) :=
  livelinessFields entity.domainId entity.zid entity.nid entity.entityId entity.entityType entity.enclave
    entity.namespace entity.nodeName entity.topicName entity.typeName entity.typeHash entity.qos.chars

theorem slash_notMem_fields (entity : LivelinessEntity) : ∀ field ∈ entity.fields, '/' ∉ field := by
  have code : '/' ∉ entity.entityType.asStr.toList := by
    cases entity.entityType <;> decide
  have qos : '/' ∉ entity.qos.chars := entity.qos.notMem_chars (by decide) (by decide) (by decide)
  simp only [fields, livelinessFields, List.forall_mem_cons]
  exact ⟨by decide, slash_notMem_decimal _, slash_notMem_hexDigits _, slash_notMem_decimal _, slash_notMem_decimal _,
    code, slash_notMem_mangledAbsolute _, slash_notMem_mangledAbsolute _, slash_notMem_mangled _,
    slash_notMem_mangledAbsolute _, slash_notMem_mangled _, slash_notMem_mangled _, qos, List.forall_mem_nil _⟩

theorem splitOn_token (built : entity.token = some key) : key.text.toList.splitOn '/' = entity.fields := by
  unfold LivelinessEntity.token at built
  rw [buildLivelinessToken_eq _ _ _ _ _ _ _ _ _ _ _ entity.qos.toRmwQosKeyexpr_built] at built
  simp only [String.toList_ofList] at built
  rw [toList_of_build built]
  exact List.splitOn_intercalate '/' entity.slash_notMem_fields (List.cons_ne_nil _ _)

theorem read_token (plain : entity.PercentFree) (built : entity.token = some key) :
    readLivelinessToken key.text = some entity.reading := by
  have number (value : UInt32) : (String.ofList (decimal value)).toNat? = some value.toNat := by
    rw [ofList_decimal, Nat.toNat?_repr]
  unfold readLivelinessToken
  rw [splitOn_token built]
  simp only [fields, livelinessFields, number, readHex_flatMap, String.ofList_toList, EntityType.read_asStr,
    Qos.readQos_chars, unmangle_mangledAbsolute plain.enclave, unmangle_mangledAbsolute plain.namespace,
    unmangle_mangled plain.nodeName, unmangle_mangledAbsolute plain.topicName, unmangle_mangled plain.typeName,
    unmangle_mangled plain.typeHash, Option.bind_eq_bind, Option.bind_some]
  rfl

end LivelinessEntity

/-- A token has thirteen fields, which are read back up to the leading slashes of the names. Its topic is that of the
key expressions of the topic, behind a slash. -/
theorem liveliness_tokens_read_back :
    (∀ (entity : LivelinessEntity) (token : HeaplessString maxLivelinessLen), entity.PercentFree →
      entity.token = some token →
      (token.text.toList.splitOn '/').length = 13 ∧ readLivelinessToken token.text = some entity.reading ∧
      ∀ (topic : TopicKeyExpr) (key : HeaplessString maxKeyExprLen), topic.topicName = entity.topicName →
        topic.toKeyExpr = some key →
        ∃ part, key.text = Nat.repr topic.domainId.toNat ++ "/" ++ part ++ "/" ++ topic.typeName ++ "/" ++
          topic.typeHash ∧ entity.reading.topicName = "/" ++ part) ∧
    ∀ (a b : LivelinessEntity) (token : HeaplessString maxLivelinessLen), a.PercentFree → b.PercentFree →
      a.token = some token → b.token = some token → a.reading = b.reading := by
  constructor
  · intro entity token plain built
    refine ⟨?_, LivelinessEntity.read_token plain built, ?_⟩
    · rw [LivelinessEntity.splitOn_token built]
      rfl
    · intro topic key same written
      have text : key.text = TopicKeyExpr.format topic.domainId topic.topicName topic.typeName topic.typeHash := by
        rw [← topic.ofList_chars, TopicKeyExpr.chars_of_toKeyExpr written, String.ofList_toList]
      exact ⟨stripSlash topic.topicName, text, same ▸ absolute_eq _⟩
  · intro a b token plain plain' built built'
    have read := LivelinessEntity.read_token plain built
    rw [LivelinessEntity.read_token plain' built'] at read
    exact (Option.some.inj read).symm

/-- The namespace and the topic are announced with their slash, which the topic does not have. -/
theorem liveliness_tokens_read_back_talker :
    ((readLivelinessToken "@ros2_lv/0/aa/0/1/MP/%/%my_ns/node1/%baker_link%status/String_/RIHS01/::,10:,:,:,,").map
      fun reading => (reading.namespace, reading.topicName)) = some ("/my_ns", "/baker_link/status") := by
  have built : LivelinessEntity.token ⟨0, ZenohId.fromBytes [0xAA], 0, 1, .publisher, "", "/my_ns", "node1",
      "baker_link/status", "String_", "RIHS01", Qos.default⟩ =
      some ⟨"@ros2_lv/0/aa/0/1/MP/%/%my_ns/node1/%baker_link%status/String_/RIHS01/::,10:,:,:,,", by decide⟩ := by
    decide +kernel
  obtain ⟨-, read, -⟩ := liveliness_tokens_read_back.1 _ _
    ⟨by decide, by decide, by decide, by decide, by decide, by decide⟩ built
  rw [read]
  decide

end ZenohRos2
