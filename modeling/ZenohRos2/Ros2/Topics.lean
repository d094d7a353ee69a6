import Mathlib.Data.List.TakeWhile
import ZenohRos2.Lib.Segments
import ZenohRos2.Ros2.Names
import ZenohRos2.Sdk.Dispatch

/-! What a key expression says about its topic.

The domain ends at the first slash of a key expression, and the type name and the
type hash are its last two segments. What lies between is the topic name, without
a leading slash if it had one.
-/

set_option autoImplicit false

namespace ZenohRos2
open Rust HeaplessString

theorem slash_notMem_decimal (value : UInt32) : '/' ∉ decimal value := by
  intro member
  exact absurd (isDigit_of_mem_decimal member) (by decide)

namespace TopicKeyExpr

/-- `<domain_id>/<topic_name>/<type_name>/<type_hash>` -/
def format (domainId : UInt32) (topicName typeName typeHash : String) : String :=
  Nat.repr domainId.toNat ++ "/" ++ stripSlash topicName ++ "/" ++ typeName ++ "/" ++ typeHash

/-- The names of the type are single segments. -/
structure SlashFree (topic : TopicKeyExpr) : Prop where
  typeName : '/' ∉ topic.typeName.toList
  typeHash : '/' ∉ topic.typeHash.toList

variable {topic a b : TopicKeyExpr} {key : HeaplessString maxKeyExprLen}

theorem ofList_chars (topic : TopicKeyExpr) :
    String.ofList topic.chars = format topic.domainId topic.topicName topic.typeName topic.typeHash := by
  have same : (String.ofList topic.chars).toList =
      (format topic.domainId topic.topicName topic.typeName topic.typeHash).toList := by
    simp [chars, format, decimal_eq]
  exact String.toList_inj.mp same

theorem toKeyExpr_eq_none_iff (topic : TopicKeyExpr) : topic.toKeyExpr = none ↔
    maxKeyExprLen < (format topic.domainId topic.topicName topic.typeName topic.typeHash).utf8ByteSize := by
  rw [← ofList_chars, ← Nat.not_le, ← toKeyExpr_isSome_iff, Option.not_isSome_iff_eq_none]

theorem chars_of_toKeyExpr (built : topic.toKeyExpr = some key) : topic.chars = key.text.toList := by
  rw [toKeyExpr_eq] at built
  exact (toList_of_build built).symm

theorem parts_unique (plain : a.SlashFree) (plain' : b.SlashFree) (same : a.chars = b.chars) :
    a.domainId = b.domainId ∧ stripSlash a.topicName = stripSlash b.topicName ∧ a.typeName = b.typeName ∧
      a.typeHash = b.typeHash := by
  obtain ⟨domain, rest⟩ := Segments.front_unique (slash_notMem_decimal _) (slash_notMem_decimal _) same
  have regrouped (topic : TopicKeyExpr) : (stripSlash topic.topicName).toList ++ (['/'] ++ (topic.typeName.toList ++
      (['/'] ++ topic.typeHash.toList))) = ((stripSlash topic.topicName).toList ++ '/' :: topic.typeName.toList) ++
        '/' :: topic.typeHash.toList := by simp
  change _ ++ _ = _ ++ _ at rest
  rw [regrouped, regrouped] at rest
  obtain ⟨names, typeHash⟩ := Segments.back_unique plain.typeHash plain'.typeHash rest
  obtain ⟨topicName, typeName⟩ := Segments.back_unique plain.typeName plain'.typeName names
  exact ⟨decimal_inj domain, String.toList_inj.mp topicName, String.toList_inj.mp typeName,
    String.toList_inj.mp typeHash⟩

end TopicKeyExpr

theorem buildTopicKeyExpr_eq (domainId : UInt32) (topicName typeName typeHash : String) :
    buildTopicKeyExpr domainId topicName typeName typeHash =
      TopicKeyExpr.toKeyExpr ⟨domainId, topicName, typeName, typeHash⟩ := rfl

/-- Topics with the same key expression are the same topic up to a leading slash, and a key expression is refused
just where it is longer than 256 bytes. -/
theorem key_exprs_proper :
    (∀ (a b : TopicKeyExpr) (left right : HeaplessString maxKeyExprLen), a.SlashFree → b.SlashFree →
      a.toKeyExpr = some left → b.toKeyExpr = some right → left.text = right.text →
      a.domainId = b.domainId ∧ stripSlash a.topicName = stripSlash b.topicName ∧ a.typeName = b.typeName ∧
        a.typeHash = b.typeHash) ∧
    ∀ (domainId : UInt32) (topicName typeName typeHash : String),
      (TopicKeyExpr.toKeyExpr ⟨domainId, topicName, typeName, typeHash⟩ = none ↔
        256 < (TopicKeyExpr.format domainId topicName typeName typeHash).utf8ByteSize) ∧
      (buildTopicKeyExpr domainId topicName typeName typeHash = none ↔
        256 < (TopicKeyExpr.format domainId topicName typeName typeHash).utf8ByteSize) := by
  constructor
  · intro a b left right plain plain' built built' same
    apply TopicKeyExpr.parts_unique plain plain'
    rw [TopicKeyExpr.chars_of_toKeyExpr built, TopicKeyExpr.chars_of_toKeyExpr built', same]
  · intro domainId topicName typeName typeHash
    rw [buildTopicKeyExpr_eq]
    exact ⟨TopicKeyExpr.toKeyExpr_eq_none_iff _, TopicKeyExpr.toKeyExpr_eq_none_iff _⟩

/-- With and without its slash, a topic has one key expression. -/
theorem key_exprs_proper_chatter :
    (TopicKeyExpr.toKeyExpr ⟨7, "/chatter", "String_", "RIHS01"⟩).map (·.text) = some "7/chatter/String_/RIHS01" ∧
      stripSlash "/chatter" = stripSlash "chatter" := by
  have built : TopicKeyExpr.toKeyExpr ⟨7, "/chatter", "String_", "RIHS01"⟩ =
      some ⟨"7/chatter/String_/RIHS01", by decide⟩ := by decide +kernel
  have bare : TopicKeyExpr.toKeyExpr ⟨7, "chatter", "String_", "RIHS01"⟩ =
      some ⟨"7/chatter/String_/RIHS01", by decide⟩ := by decide +kernel
  obtain ⟨-, same, -, -⟩ := key_exprs_proper.1 _ _ _ _ ⟨by decide, by decide⟩ ⟨by decide, by decide⟩ built bare rfl
  rw [built]
  exact ⟨rfl, same⟩

section Matching

def leadingSlashes (name : String) : Nat := (name.toList.takeWhile (· = '/')).length

theorem toList_eq_slashes (name : String) :
    name.toList = List.replicate (leadingSlashes name) '/' ++ (trimSlashes name).toList := by
  have slashes : name.toList.takeWhile (· = '/') = List.replicate (leadingSlashes name) '/' := by
    refine List.eq_replicate_iff.mpr ⟨rfl, fun char member => ?_⟩
    simpa using List.mem_takeWhile_imp member
  rw [← slashes, trimSlashes, String.toList_ofList, List.takeWhile_append_dropWhile]

theorem head_trimSlashes (name : String) : (trimSlashes name).toList.head? ≠ some '/' := by
  rw [trimSlashes, String.toList_ofList]
  intro first
  have kept := List.head?_dropWhile_not (p := (· = '/')) (l := name.toList)
  rw [first] at kept
  exact absurd kept (by decide)

theorem stripSlash_toList (name : String) :
    (stripSlash name).toList = List.replicate (leadingSlashes name - 1) '/' ++ (trimSlashes name).toList := by
  have whole := toList_eq_slashes name
  unfold stripSlash
  cases count : leadingSlashes name with
  | zero =>
    rw [count, List.replicate_zero, List.nil_append] at whole
    split
    · rename_i rest slash
      rw [slash] at whole
      exact absurd (by rw [← whole]; rfl) (head_trimSlashes name)
    · rw [whole]
      rfl
  | succ others =>
    rw [count, List.replicate_succ, List.cons_append] at whole
    split
    · rename_i rest slash
      rw [slash] at whole
      rw [String.toList_ofList, (List.cons.inj whole).2, Nat.add_sub_cancel]
    · rename_i bare
      exact absurd whole (bare _)

theorem replicate_slash_append_inj {m n : Nat} {rest rest' : List Char} (bare : rest.head? ≠ some '/')
    (bare' : rest'.head? ≠ some '/') (same : List.replicate m '/' ++ rest = List.replicate n '/' ++ rest') :
    m = n ∧ rest = rest' := by
  induction m generalizing n with
  | zero =>
    cases n with
    | zero => exact ⟨rfl, same⟩
    | succ n => exact absurd (by rw [show rest = _ from same]; rfl) bare
  | succ m ih =>
    cases n with
    | zero => exact absurd (by rw [← show _ = rest' from same]; rfl) bare'
    | succ n =>
      obtain ⟨count, tail⟩ := ih (List.cons.inj same).2
      exact ⟨congrArg (· + 1) count, tail⟩

theorem stripSlash_eq_iff (a b : String) :
    stripSlash a = stripSlash b ↔ trimSlashes a = trimSlashes b ∧ leadingSlashes a - 1 = leadingSlashes b - 1 := by
  rw [← String.toList_inj, stripSlash_toList, stripSlash_toList]
  constructor
  · intro same
    obtain ⟨count, rest⟩ := replicate_slash_append_inj (head_trimSlashes a) (head_trimSlashes b) same
    exact ⟨String.toList_inj.mp rest, count⟩
  · rintro ⟨rest, count⟩
    rw [rest, count]

theorem topicsMatch_iff (a b : TopicKeyExpr) :
    topicsMatch a b ↔ a.domainId = b.domainId ∧ trimSlashes a.topicName = trimSlashes b.topicName := by
  unfold topicsMatch
  split
  · rename_i other
    exact iff_of_false nofun fun both => other both.1
  · rename_i same
    rw [beq_iff_eq, and_iff_right (Classical.not_not.mp same)]

theorem TopicKeyExpr.chars_eq_iff {a b : TopicKeyExpr} (typeName : a.typeName = b.typeName)
    (typeHash : a.typeHash = b.typeHash) :
    a.chars = b.chars ↔ a.domainId = b.domainId ∧ stripSlash a.topicName = stripSlash b.topicName := by
  unfold chars
  rw [typeName, typeHash]
  constructor
  · intro same
    obtain ⟨domain, rest⟩ := Segments.front_unique (slash_notMem_decimal _) (slash_notMem_decimal _) same
    exact ⟨decimal_inj domain, String.toList_inj.mp (List.append_cancel_right rest)⟩
  · rintro ⟨domain, name⟩
    rw [domain, name]

/-- Names that are told apart by more than their leading slashes, or by none but the first of them. -/
def MatchesAlike (a b : TopicKeyExpr) : Prop :=
  a.domainId ≠ b.domainId ∨ trimSlashes a.topicName ≠ trimSlashes b.topicName ∨
    leadingSlashes a.topicName - 1 = leadingSlashes b.topicName - 1

instance (a b : TopicKeyExpr) : Decidable (MatchesAlike a b) := inferInstanceAs (Decidable (_ ∨ _))

theorem topicsMatch_eq_key_iff {a b : TopicKeyExpr} {left right : HeaplessString maxKeyExprLen}
    (typeName : a.typeName = b.typeName) (typeHash : a.typeHash = b.typeHash) (built : a.toKeyExpr = some left)
    (built' : b.toKeyExpr = some right) : ((topicsMatch a b = true ↔ left = right) ↔ MatchesAlike a b) := by
  have key : left = right ↔ a.domainId = b.domainId ∧ stripSlash a.topicName = stripSlash b.topicName := by
    rw [← TopicKeyExpr.chars_eq_iff typeName typeHash, TopicKeyExpr.chars_of_toKeyExpr built,
      TopicKeyExpr.chars_of_toKeyExpr built', String.toList_inj, HeaplessString.ext_iff]
  rw [topicsMatch_iff, key, stripSlash_eq_iff, MatchesAlike]
  tauto

theorem filter_eq_iff {α : Type} {items : List α} {keeps takes : α → Bool} :
    items.filter keeps = items.filter takes ↔ ∀ item ∈ items, keeps item = takes item := by
  refine ⟨fun same item member => ?_, List.filter_congr⟩
  have kept : item ∈ items.filter keeps ↔ item ∈ items.filter takes := by rw [same]
  simp only [List.mem_filter, member, true_and] at kept
  exact Bool.eq_iff_iff.mpr kept

/-- Two topics of one type match locally as they do on the network, just where their names have as many slashes in
front, up to the one that a key expression leaves out. So a publisher reaches the local subscriptions of its key
expression if that goes for each of them that it may reach at all. -/
theorem local_matching_agrees_iff (topic : TopicKeyExpr) (key : HeaplessString maxKeyExprLen)
    (built : topic.toKeyExpr = some key) :
    (∀ (other : TopicKeyExpr) (own : HeaplessString maxKeyExprLen), other.typeName = topic.typeName →
      other.typeHash = topic.typeHash → other.toKeyExpr = some own →
      ((topicsMatch other topic = true ↔ own = key) ↔ MatchesAlike other topic)) ∧
    ∀ subscribers : List SubscriberEntry,
      (∀ entry ∈ subscribers, entry.topic.typeName = topic.typeName ∧ entry.topic.typeHash = topic.typeHash ∧
        entry.topic.toKeyExpr.isSome) →
      (localEntries subscribers topic =
        (subscribers.filter fun entry => entry.locality ≠ .remote && entry.topic.toKeyExpr == some key) ↔
          ∀ entry ∈ subscribers, entry.locality ≠ .remote → MatchesAlike entry.topic topic) := by
  refine ⟨fun other own typeName typeHash built' => topicsMatch_eq_key_iff typeName typeHash built' built,
    fun subscribers comparable => ?_⟩
  unfold localEntries
  rw [filter_eq_iff]
  refine forall₂_congr fun entry member => ?_
  obtain ⟨typeName, typeHash, keyed⟩ := comparable entry member
  obtain ⟨own, built'⟩ := Option.isSome_iff_exists.mp keyed
  rw [← topicsMatch_eq_key_iff typeName typeHash built' built, built']
  by_cases remote : entry.locality = .remote
  · simp [remote]
  · have matched : topicsMatch entry.topic topic = (some own == some key) ↔
        (topicsMatch entry.topic topic = true ↔ own = key) := by
      rw [Bool.eq_iff_iff, beq_iff_eq, Option.some_inj]
    simpa only [remote, ne_eq, not_false_eq_true, decide_true, Bool.true_and, forall_const] using matched

/-- A name without a slash and the same name with one. -/
theorem local_matching_agrees_iff_chatter :
    topicsMatch ⟨0, "/chatter", "String_", "RIHS01"⟩ ⟨0, "chatter", "String_", "RIHS01"⟩ = true ↔
      TopicKeyExpr.toKeyExpr ⟨0, "/chatter", "String_", "RIHS01"⟩ =
        TopicKeyExpr.toKeyExpr ⟨0, "chatter", "String_", "RIHS01"⟩ := by
  have built : TopicKeyExpr.toKeyExpr ⟨0, "/chatter", "String_", "RIHS01"⟩ =
      some ⟨"0/chatter/String_/RIHS01", by decide⟩ := by decide +kernel
  have bare : TopicKeyExpr.toKeyExpr ⟨0, "chatter", "String_", "RIHS01"⟩ =
      some ⟨"0/chatter/String_/RIHS01", by decide⟩ := by decide +kernel
  have alike : MatchesAlike ⟨0, "/chatter", "String_", "RIHS01"⟩ ⟨0, "chatter", "String_", "RIHS01"⟩ := by
    decide +kernel
  rw [((local_matching_agrees_iff ⟨0, "chatter", "String_", "RIHS01"⟩ _ bare).1 ⟨0, "/chatter", "String_", "RIHS01"⟩ _
    rfl rfl built).mpr alike, built, bare]
  exact ⟨fun _ => rfl, fun _ => rfl⟩

/-- With two slashes a name is another topic for the network, and the same one for the node. -/
theorem local_matching_differs :
    ¬∀ (a b : TopicKeyExpr) (left right : HeaplessString maxKeyExprLen), a.typeName = b.typeName →
      a.typeHash = b.typeHash → a.toKeyExpr = some left → b.toKeyExpr = some right →
      (topicsMatch a b = true ↔ left = right) := by
  intro agrees
  have doubled : TopicKeyExpr.toKeyExpr ⟨0, "//chatter", "String_", "RIHS01"⟩ =
      some ⟨"0//chatter/String_/RIHS01", by decide⟩ := by decide +kernel
  have bare : TopicKeyExpr.toKeyExpr ⟨0, "chatter", "String_", "RIHS01"⟩ =
      some ⟨"0/chatter/String_/RIHS01", by decide⟩ := by decide +kernel
  have same := (agrees ⟨0, "//chatter", "String_", "RIHS01"⟩ ⟨0, "chatter", "String_", "RIHS01"⟩ _ _ rfl rfl
    doubled bare).mp (by decide +kernel)
  exact absurd (congrArg (·.text) same) (by decide)

end Matching
end ZenohRos2
