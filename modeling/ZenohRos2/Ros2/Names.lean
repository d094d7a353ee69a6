import ZenohRos2.Ros2.KeyExpr

/-! The texts that key expressions and liveliness tokens are built to.

Each builder pushes one text part by part into a string of fixed capacity. It
succeeds if and only if the whole text fits.
-/

set_option autoImplicit false

namespace ZenohRos2
open Rust HeaplessString

theorem length_le_utf8ByteSize (chars : List Char) : chars.length ≤ (String.ofList chars).utf8ByteSize := by
  induction chars with
  | nil => exact Nat.zero_le _
  | cons char rest ih =>
    have size := char.utf8Size_pos
    rw [String.ofList_cons, String.utf8ByteSize_append, String.utf8ByteSize_singleton, List.length_cons]
    omega

theorem utf8ByteSize_le (chars : List Char) : (String.ofList chars).utf8ByteSize ≤ 4 * chars.length := by
  induction chars with
  | nil => exact Nat.zero_le _
  | cons char rest ih =>
    have size := char.utf8Size_le_four
    rw [String.ofList_cons, String.utf8ByteSize_append, String.utf8ByteSize_singleton, List.length_cons]
    omega

section Plain
variable {chars : List Char}

theorem stripSlash_of_plain (plain : '/' ∉ chars) : (stripSlash (String.ofList chars)).toList = chars := by
  unfold stripSlash
  rw [String.toList_ofList]
  split
  · exact absurd (List.mem_cons_self ..) plain
  · exact String.toList_ofList

end Plain

section KeyExpr

def TopicKeyExpr.chars (topic : TopicKeyExpr) : List Char :=
  decimal topic.domainId ++ (['/'] ++ ((stripSlash topic.topicName).toList ++ (['/'] ++ (topic.typeName.toList ++
    (['/'] ++ topic.typeHash.toList)))))

theorem TopicKeyExpr.toKeyExpr_eq (topic : TopicKeyExpr) :
    topic.toKeyExpr = if fits : (String.ofList topic.chars).utf8ByteSize ≤ maxKeyExprLen then
      some ⟨String.ofList topic.chars, fits⟩ else none := by
  refine Appends.build_empty ((appends_pushU32 topic.domainId).bind ?_)
  apply (appends_push '/').bind
  apply (appends_pushStr (stripSlash topic.topicName)).bind
  apply (appends_push '/').bind
  apply (appends_pushStr topic.typeName).bind
  exact (appends_push '/').bind (appends_pushStr topic.typeHash)

theorem TopicKeyExpr.toKeyExpr_isSome_iff (topic : TopicKeyExpr) :
    topic.toKeyExpr.isSome ↔ (String.ofList topic.chars).utf8ByteSize ≤ maxKeyExprLen := by
  rw [toKeyExpr_eq, Option.isSome_dite]

end KeyExpr

section Liveliness
variable {capacity : Nat}

def hexDigits (byte : UInt8) : List Char := [hexDigit (byte >>> 4), hexDigit (byte &&& 0x0F)]

theorem appends_pushHexByte (byte : UInt8) : @Appends capacity (pushHexByte · byte) (hexDigits byte) :=
  (appends_push _).bind (appends_push _)

def mangledChars (name : String) : List Char := name.toList.flatMap fun c => [if c = '/' then '%' else c]

theorem appends_pushMangledChars (name : String) :
    @Appends capacity (pushMangledChars · name) (mangledChars name) :=
  appends_foldlM (fun _ => appends_push _) name.toList

def mangled (name : String) : List Char := if name.isEmpty || name == "/" then ['%'] else mangledChars name

theorem appends_pushMangled (name : String) : @Appends capacity (pushMangled · name) (mangled name) := by
  unfold pushMangled mangled
  split
  · exact appends_push '%'
  · exact appends_pushMangledChars name

def mangledAbsolute (name : String) : List Char :=
  if name.isEmpty || name == "/" then ['%']
  else (if name.toList.head? ≠ some '/' then ['%'] else []) ++ mangledChars name

theorem appends_pushMangledAbsolute (name : String) :
    @Appends capacity (pushMangledAbsolute · name) (mangledAbsolute name) := by
  unfold pushMangledAbsolute mangledAbsolute
  split
  · exact appends_push '%'
  · have rest := @appends_pushMangledChars capacity name
    by_cases bare : name.toList.head? ≠ some '/'
    · simp only [if_pos bare]
      exact (appends_push '%').bind rest
    · simp only [if_neg bare]
      exact appends_some.bind rest

theorem le_length_mangledAbsolute (name : String) : name.toList.length ≤ (mangledAbsolute name).length := by
  unfold mangledAbsolute
  split
  · rename_i short
    rcases Bool.or_eq_true_iff.mp short with empty | slash
    · rw [String.isEmpty_iff.mp empty]
      decide
    · rw [beq_iff_eq.mp slash]
      decide
  · rw [List.length_append, mangledChars, ← List.map_eq_flatMap, List.length_map]
    exact Nat.le_add_left _ _

theorem mangledAbsolute_of_plain {chars : List Char} (plain : '/' ∉ chars) (nonempty : chars ≠ []) :
    mangledAbsolute (String.ofList chars) = '%' :: chars := by
  have same : (String.ofList chars).toList = chars := String.toList_ofList
  have named : ¬((String.ofList chars).isEmpty || String.ofList chars == "/") = true := by
    intro short
    rcases Bool.or_eq_true_iff.mp short with empty | slash
    · rw [String.isEmpty_iff.mp empty] at same
      exact nonempty same.symm
    · rw [beq_iff_eq.mp slash] at same
      exact plain (same ▸ List.mem_cons_self ..)
  have bare : chars.head? ≠ some '/' := fun first => plain (List.mem_of_mem_head? first)
  have kept : ∀ c ∈ chars, (if c = '/' then '%' else c) = c := by
    intro c member
    apply if_neg
    rintro rfl
    exact plain member
  rw [mangledAbsolute, if_neg named, mangledChars, same, if_pos bare, ← List.map_eq_flatMap, List.map_congr_left kept,
    List.map_id']
  rfl

def livelinessChars (domainId : UInt32) (zid : ZenohId) (nid entityId : UInt32) (entityType : EntityType)
    (enclave «namespace» nodeName topicName typeName typeHash : String) : List Char :=
  "@ros2_lv/".toList ++ (decimal domainId ++ (['/'] ++ (zid.asBytes.flatMap hexDigits ++ (['/'] ++ (decimal nid ++
    (['/'] ++ (decimal entityId ++ (['/'] ++ (entityType.asStr.toList ++ (['/'] ++ (mangledAbsolute enclave ++
    (['/'] ++ (mangledAbsolute «namespace» ++ (['/'] ++ (mangled nodeName ++ (['/'] ++ (mangledAbsolute topicName ++
    (['/'] ++ (mangled typeName ++ (['/'] ++ (mangled typeHash ++ (['/'] ++ "::,10:,:,:,,".toList))))))))))))))))))))))

theorem le_length_livelinessChars (domainId : UInt32) (zid : ZenohId) (nid entityId : UInt32)
    (entityType : EntityType) (enclave «namespace» nodeName topicName typeName typeHash : String) :
    (mangledAbsolute «namespace»).length ≤ (livelinessChars domainId zid nid entityId entityType enclave «namespace»
      nodeName topicName typeName typeHash).length := by
  unfold livelinessChars
  simp only [List.length_append]
  omega

def livelinessFields (domainId : UInt32) (zid : ZenohId) (nid entityId : UInt32) (entityType : EntityType)
    (enclave «namespace» nodeName topicName typeName typeHash : String) (qos : List Char) : List (List Char) :=
  ["@ros2_lv".toList, decimal domainId, zid.asBytes.flatMap hexDigits, decimal nid, decimal entityId,
    entityType.asStr.toList, mangledAbsolute enclave, mangledAbsolute «namespace», mangled nodeName,
    mangledAbsolute topicName, mangled typeName, mangled typeHash, qos]

theorem intercalate_livelinessFields (domainId : UInt32) (zid : ZenohId) (nid entityId : UInt32)
    (entityType : EntityType) (enclave «namespace» nodeName topicName typeName typeHash : String) (qos : List Char) :
    ['/'].intercalate (livelinessFields domainId zid nid entityId entityType enclave «namespace» nodeName topicName
      typeName typeHash qos) =
    "@ros2_lv/".toList ++ (decimal domainId ++ (['/'] ++ (zid.asBytes.flatMap hexDigits ++ (['/'] ++ (decimal nid ++
    (['/'] ++ (decimal entityId ++ (['/'] ++ (entityType.asStr.toList ++ (['/'] ++ (mangledAbsolute enclave ++
    (['/'] ++ (mangledAbsolute «namespace» ++ (['/'] ++ (mangled nodeName ++ (['/'] ++ (mangledAbsolute topicName ++
    (['/'] ++ (mangled typeName ++ (['/'] ++ (mangled typeHash ++ (['/'] ++ qos)))))))))))))))))))))) := by
  simp [livelinessFields, List.intercalate]

theorem buildLivelinessToken_eq (domainId : UInt32) (zid : ZenohId) (nid entityId : UInt32) (entityType : EntityType)
    (enclave «namespace» nodeName topicName typeName typeHash : String) {qos : Qos}
    {key : HeaplessString maxQosKeyexprLen} (written : qos.toRmwQosKeyexpr = some key) :
    buildLivelinessToken domainId zid nid entityId entityType enclave «namespace» nodeName topicName typeName typeHash
      qos =
    if fits : (String.ofList (['/'].intercalate (livelinessFields domainId zid nid entityId entityType enclave
        «namespace» nodeName topicName typeName typeHash key.text.toList))).utf8ByteSize ≤ maxLivelinessLen then
      some ⟨_, fits⟩ else none := by
  simp only [intercalate_livelinessFields]
  unfold buildLivelinessToken
  rw [written]
  refine Appends.build_empty ((appends_pushStr "@ros2_lv/").bind ?_)
  apply (appends_pushU32 domainId).bind
  apply (appends_push '/').bind
  apply (appends_foldlM appends_pushHexByte zid.asBytes).bind
  apply (appends_push '/').bind
  apply (appends_pushU32 nid).bind
  apply (appends_push '/').bind
  apply (appends_pushU32 entityId).bind
  apply (appends_push '/').bind
  apply (appends_pushStr entityType.asStr).bind
  apply (appends_push '/').bind
  apply (appends_pushMangledAbsolute enclave).bind
  apply (appends_push '/').bind
  apply (appends_pushMangledAbsolute «namespace»).bind
  apply (appends_push '/').bind
  apply (appends_pushMangled nodeName).bind
  apply (appends_push '/').bind
  apply (appends_pushMangledAbsolute topicName).bind
  apply (appends_push '/').bind
  apply (appends_pushMangled typeName).bind
  apply (appends_push '/').bind
  apply (appends_pushMangled typeHash).bind
  exact (appends_push '/').bind (appends_pushStr _)

theorem buildLivelinessToken_isSome_iff (domainId : UInt32) (zid : ZenohId) (nid entityId : UInt32)
    (entityType : EntityType) (enclave «namespace» nodeName topicName typeName typeHash : String) :
    (buildLivelinessToken domainId zid nid entityId entityType enclave «namespace» nodeName topicName typeName typeHash
      Qos.default).isSome ↔
      (String.ofList (livelinessChars domainId zid nid entityId entityType enclave «namespace» nodeName topicName
        typeName typeHash)).utf8ByteSize ≤ maxLivelinessLen := by
  have qos : Qos.default.toRmwQosKeyexpr = some ⟨"::,10:,:,:,,", by decide⟩ := by decide +kernel
  have text : livelinessChars domainId zid nid entityId entityType enclave «namespace» nodeName topicName typeName
      typeHash = ['/'].intercalate (livelinessFields domainId zid nid entityId entityType enclave «namespace» nodeName
        topicName typeName typeHash "::,10:,:,:,,".toList) := (intercalate_livelinessFields ..).symm
  rw [buildLivelinessToken_eq _ _ _ _ _ _ _ _ _ _ _ qos, Option.isSome_dite, text]

end Liveliness
end ZenohRos2
