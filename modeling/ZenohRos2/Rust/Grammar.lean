import ZenohRos2.Rust.Layout

/-! Formats with more than one word for a value.

A writer picks one word, a reader may accept others. A grammar says which words
stand for something at a position, and `Parses` that a reader returns a value
exactly where one of the words of the value stands. A reader that is put
together from readers parses what is put together from their grammars.
-/

set_option autoImplicit false

namespace Rust

/-- The words of something, for the position they start at. -/
@[ext]
structure Grammar (α : Type) where
  Word : Nat → List α → Prop

namespace Grammar
variable {α β ι : Type}

def exactly (word : List α) : Grammar α := ⟨fun _ other => other = word⟩

def nothing : Grammar α := exactly []

def like (layout : Layout α) : Grammar α := ⟨fun pos word => word.length = (layout.place pos).length⟩

/-- The second word starts where the first one ends. -/
def append (first second : Grammar α) : Grammar α :=
  ⟨fun pos word => ∃ one two, word = one ++ two ∧ first.Word pos one ∧ second.Word (pos + one.length) two⟩

instance : Append (Grammar α) := ⟨append⟩

def given (condition : Prop) (grammar : Grammar α) : Grammar α := ⟨fun pos word => condition ∧ grammar.Word pos word⟩

def either (one other : Grammar α) : Grammar α := ⟨fun pos word => one.Word pos word ∨ other.Word pos word⟩

def union (family : ι → Grammar α) : Grammar α := ⟨fun pos word => ∃ i, (family i).Word pos word⟩

def each (piece : β → Grammar α) : List β → Grammar α
  | [] => nothing
  | value :: values => piece value ++ each piece values

section Words
variable {first second : Grammar α} {pos : Nat} {word : List α}

theorem word_append : (first ++ second).Word pos word ↔
    ∃ one two, word = one ++ two ∧ first.Word pos one ∧ second.Word (pos + one.length) two := Iff.rfl

@[simp] theorem word_exactly {bytes : List α} : (exactly bytes).Word pos word ↔ word = bytes := Iff.rfl

@[simp] theorem word_nothing : (nothing : Grammar α).Word pos word ↔ word = [] := Iff.rfl

@[simp] theorem word_given {condition : Prop} : (given condition first).Word pos word ↔
    condition ∧ first.Word pos word := Iff.rfl

@[simp] theorem word_either : (either first second).Word pos word ↔
    first.Word pos word ∨ second.Word pos word := Iff.rfl

@[simp] theorem word_union {family : ι → Grammar α} : (union family).Word pos word ↔
    ∃ i, (family i).Word pos word := Iff.rfl

end Words

def Admits (grammar : Grammar α) (layout : Layout α) : Prop := ∀ pos, grammar.Word pos (layout.place pos)

theorem admits_exactly (word : List α) : (exactly word).Admits (.exactly word) := fun _ => rfl

theorem admits_like (layout : Layout α) : (like layout).Admits layout := fun _ => rfl

theorem Admits.append {one other : Grammar α} {left right : Layout α} (first : one.Admits left)
    (second : other.Admits right) : (one ++ other).Admits (left ++ right) :=
  fun pos => ⟨_, _, rfl, first pos, second _⟩

theorem Admits.given {grammar : Grammar α} {layout : Layout α} {condition : Prop} (holds : condition)
    (admits : grammar.Admits layout) : (grammar.given condition).Admits layout := fun pos => ⟨holds, admits pos⟩

theorem Admits.either {one other : Grammar α} {layout : Layout α} (admits : one.Admits layout) :
    (one.either other).Admits layout := fun pos => .inl (admits pos)

theorem admits_each {piece : β → Grammar α} {layout : β → Layout α} {values : List β}
    (admits : ∀ value ∈ values, (piece value).Admits (layout value)) :
    (each piece values).Admits (.each layout values) := by
  induction values with
  | nil => exact admits_exactly []
  | cons value values ih =>
    exact (admits value List.mem_cons_self).append (ih fun other member => admits other (List.mem_cons_of_mem _ member))

/-- One word for each of the elements in front, and a last one. -/
inductive ChainWord (more last : Grammar α) : Nat → List α → Prop where
  | last {pos : Nat} {word : List α} (ends : last.Word pos word) : ChainWord more last pos word
  | more {pos : Nat} {word rest : List α} (one : more.Word pos word)
      (chain : ChainWord more last (pos + word.length) rest) : ChainWord more last pos (word ++ rest)

def chain (more last : Grammar α) : Grammar α := ⟨ChainWord more last⟩

def onlyIf (present : Bool) (grammar : Grammar α) : Grammar α := if present then grammar else nothing

/-- A word stands in the buffer, from `pos` to `stop`. -/
structure At (grammar : Grammar α) (buf : List α) (pos stop : Nat) : Prop where
  ordered : pos ≤ stop
  inside : stop ≤ buf.length
  word : grammar.Word pos ((buf.take stop).drop pos)

section Places
variable {one two : Grammar α} {buf : List α} {pos middle stop : Nat}

theorem drop_take_append (first : pos ≤ middle) (second : middle ≤ stop) :
    (buf.take stop).drop pos = (buf.take middle).drop pos ++ (buf.take stop).drop middle := by
  have split : (buf.take stop).drop pos = ((buf.take stop).drop pos).take (middle - pos) ++
      ((buf.take stop).drop pos).drop (middle - pos) := (List.take_append_drop _ _).symm
  rw [split, List.drop_drop, List.take_drop, List.take_take, Nat.add_sub_cancel' first, Nat.min_eq_left second]

theorem length_drop_take (inside : stop ≤ buf.length) : ((buf.take stop).drop pos).length = stop - pos := by
  rw [List.length_drop, List.length_take, Nat.min_eq_left inside]

theorem at_append : (one ++ two).At buf pos stop ↔ ∃ middle, one.At buf pos middle ∧ two.At buf middle stop := by
  constructor
  · rintro ⟨ordered, inside, first, second, same, holds, holds'⟩
    have length := congrArg List.length same
    rw [length_drop_take inside, List.length_append] at length
    have fits : pos + first.length ≤ stop := by omega
    rw [drop_take_append (Nat.le_add_right pos first.length) fits] at same
    have size : ((buf.take (pos + first.length)).drop pos).length = first.length := by
      rw [length_drop_take (by omega), Nat.add_sub_cancel_left]
    obtain ⟨front, back⟩ := List.append_inj same size
    exact ⟨pos + first.length, ⟨Nat.le_add_right _ _, by omega, by rwa [front]⟩, ⟨fits, inside, by rwa [back]⟩⟩
  · rintro ⟨middle, ⟨first, within, holds⟩, second, inside, holds'⟩
    refine ⟨Nat.le_trans first second, inside, _, _, drop_take_append first second, holds, ?_⟩
    rwa [length_drop_take within, Nat.add_sub_cancel' first]

@[simp] theorem at_given {condition : Prop} : (given condition one).At buf pos stop ↔ condition ∧ one.At buf pos stop :=
  ⟨fun ⟨ordered, inside, holds, word⟩ => ⟨holds, ordered, inside, word⟩,
    fun ⟨holds, ordered, inside, word⟩ => ⟨ordered, inside, holds, word⟩⟩

@[simp] theorem at_union {family : ι → Grammar α} :
    (union family).At buf pos stop ↔ ∃ i, (family i).At buf pos stop :=
  ⟨fun ⟨ordered, inside, i, word⟩ => ⟨i, ordered, inside, word⟩,
    fun ⟨i, ordered, inside, word⟩ => ⟨ordered, inside, i, word⟩⟩

theorem at_nothing : (nothing : Grammar α).At buf pos stop ↔ stop = pos ∧ pos ≤ buf.length := by
  constructor
  · rintro ⟨ordered, inside, empty⟩
    have length := congrArg List.length (word_nothing.mp empty)
    rw [length_drop_take inside, List.length_nil] at length
    omega
  · rintro ⟨rfl, inside⟩
    exact ⟨Nat.le_refl _, inside, List.drop_eq_nil_of_le (List.length_take_le ..)⟩

theorem at_exactly {word : List α} : (exactly word).At buf pos stop ↔
    stop = pos + word.length ∧ stop ≤ buf.length ∧ (buf.drop pos).take word.length = word := by
  constructor
  · rintro ⟨ordered, inside, same⟩
    have length := congrArg List.length (word_exactly.mp same)
    rw [length_drop_take inside] at length
    refine ⟨by omega, inside, ?_⟩
    rw [List.take_drop, show pos + word.length = stop by omega]
    exact word_exactly.mp same
  · rintro ⟨rfl, inside, same⟩
    refine ⟨Nat.le_add_right _ _, inside, ?_⟩
    rw [word_exactly, ← List.take_drop]
    exact same

theorem at_cons {element : α} : (exactly [element] ++ one).At buf pos stop ↔
    buf[pos]? = some element ∧ one.At buf (pos + 1) stop := by
  simp only [at_append, at_exactly, List.length_singleton]
  constructor
  · rintro ⟨_, ⟨rfl, inside, first⟩, found⟩
    rw [List.drop_eq_getElem_cons (by omega), List.take_succ_cons, List.take_zero] at first
    rw [List.getElem?_eq_getElem (by omega), List.singleton_inj.mp first]
    exact ⟨rfl, found⟩
  · rintro ⟨first, found⟩
    obtain ⟨inside, rfl⟩ := List.getElem?_eq_some_iff.mp first
    refine ⟨_, ⟨rfl, inside, ?_⟩, found⟩
    rw [List.drop_eq_getElem_cons inside, List.take_succ_cons, List.take_zero]

theorem at_onlyIf {present : Bool} : (onlyIf present one).At buf pos stop ↔
    if present then one.At buf pos stop else stop = pos ∧ pos ≤ buf.length := by
  cases present
  · exact at_nothing
  · exact Iff.rfl

theorem at_chain (holds : Nat → Prop) (last : ∀ pos, two.At buf pos stop → holds pos)
    (more : ∀ pos middle, one.At buf pos middle → holds middle → holds pos) {pos : Nat}
    (found : (chain one two).At buf pos stop) : holds pos := by
  obtain ⟨ordered, inside, word⟩ := found
  generalize same : (buf.take stop).drop pos = bytes at word
  induction word with
  | last ends =>
    rw [← same] at ends
    exact last _ ⟨ordered, inside, ends⟩
  | @more pos first rest element chained ih =>
    have whole : (exactly first ++ exactly rest).At buf pos stop := ⟨ordered, inside, first, rest, same, rfl, rfl⟩
    obtain ⟨middle, front, back⟩ := at_append.mp whole
    obtain ⟨rfl, -, -⟩ := at_exactly.mp front
    refine more pos _ ⟨front.ordered, front.inside, ?_⟩ (ih back.ordered back.word)
    rwa [word_exactly.mp front.word]

theorem at_chain_more (first : one.At buf pos middle) (rest : (chain one two).At buf middle stop) :
    (chain one two).At buf pos stop := by
  obtain ⟨ordered, inside, word⟩ := at_append.mpr ⟨middle, first, rest⟩
  obtain ⟨_, _, same, element, chained⟩ := word
  exact ⟨ordered, inside, same ▸ .more element chained⟩

theorem at_chain_last (ends : two.At buf pos stop) : (chain one two).At buf pos stop :=
  ⟨ends.ordered, ends.inside, .last ends.word⟩

theorem at_zero : one.At buf 0 stop ↔ stop ≤ buf.length ∧ one.Word 0 (buf.take stop) :=
  ⟨fun ⟨_, inside, word⟩ => ⟨inside, word⟩, fun ⟨inside, word⟩ => ⟨Nat.zero_le _, inside, word⟩⟩

theorem At.take_append (found : one.At buf 0 stop) (rest : List α) : one.At (buf.take stop ++ rest) 0 stop := by
  obtain ⟨inside, word⟩ := at_zero.mp found
  have length : (buf.take stop).length = stop := by rw [List.length_take, Nat.min_eq_left inside]
  refine at_zero.mpr ⟨by rw [List.length_append]; omega, ?_⟩
  rwa [List.take_append_of_le_length (Nat.le_of_eq length.symm), List.take_take, Nat.min_self]

theorem At.of_take {limit : Nat} (found : one.At (buf.take limit) 0 stop) : stop ≤ limit ∧ one.At buf 0 stop := by
  obtain ⟨inside, word⟩ := at_zero.mp found
  rw [List.length_take] at inside
  rw [List.take_take, Nat.min_eq_left (by omega)] at word
  exact ⟨by omega, at_zero.mpr ⟨by omega, word⟩⟩

end Places

end Grammar

section Parsing
variable [Target] {ε α β γ : Type}

/-- The reader returns a value, and goes on behind a word, just where this is a word of the value. -/
def Parses (get : Get ε α β) (grammar : β → Grammar α) : Prop :=
  ∀ front tail : List α, Addressable (front ++ tail) → ∀ value after,
    get ⟨front ++ tail, front.length⟩ = .ok (value, after) ↔
      ∃ word rest, tail = word ++ rest ∧ (grammar value).Word front.length word ∧
        after = ⟨front ++ tail, front.length + word.length⟩

variable {get : Get ε α β} {grammar : β → Grammar α}

theorem Parses.congr {other : β → Grammar α} (parses : Parses get grammar) (same : ∀ value, grammar value = other value) :
    Parses get other := by
  rwa [← funext same]

theorem parses_pure (value : β) :
    Parses (pure value : Get ε α β) fun result => .given (result = value) .nothing := by
  intro front tail _ result after
  constructor
  · intro ran
    cases ran
    exact ⟨[], tail, rfl, ⟨rfl, rfl⟩, rfl⟩
  · rintro ⟨_, rest, -, ⟨rfl, rfl⟩, rfl⟩
    rfl

theorem parses_never {error : ε} (fails : ∀ reader, get reader = .err error) :
    Parses get fun _ => .given False .nothing := by
  intro front tail _ result after
  rw [fails]
  exact iff_of_false nofun fun ⟨_, _, _, never, _⟩ => never.1

theorem parses_lift (result : Outcome ε β) :
    Parses (liftM result : Get ε α β) fun value => .given (result = .ok value) .nothing := by
  intro front tail _ value after
  change (result >>= fun value => .ok (value, _)) = _ ↔ _
  rw [Outcome.bind_eq_ok]
  constructor
  · rintro ⟨_, same, returned⟩
    cases returned
    exact ⟨[], tail, rfl, ⟨same, rfl⟩, rfl⟩
  · rintro ⟨_, rest, -, ⟨same, rfl⟩, rfl⟩
    exact ⟨value, same, rfl⟩

theorem Parses.bind {next : β → Get ε α γ} {rest : β → γ → Grammar α} (one : Parses get grammar)
    (two : ∀ value, Parses (next value) (rest value)) :
    Parses (get >>= next) fun result => .union fun value => grammar value ++ rest value result := by
  intro front tail addressable result after
  change (get ⟨front ++ tail, front.length⟩ >>= fun read => next read.1 read.2) = .ok (result, after) ↔ _
  rw [Outcome.bind_eq_ok]
  constructor
  · rintro ⟨⟨value, middle⟩, got, ran⟩
    obtain ⟨word, later, rfl, holds, rfl⟩ := (one front tail addressable value middle).mp got
    have more := two value (front ++ word) later (by rwa [List.append_assoc]) result after
    rw [List.append_assoc, List.length_append] at more
    obtain ⟨other, behind, rfl, holds', rfl⟩ := more.mp ran
    refine ⟨word ++ other, behind, (List.append_assoc ..).symm, ⟨value, word, other, rfl, holds, holds'⟩, ?_⟩
    rw [List.length_append, Nat.add_assoc]
  · rintro ⟨_, behind, rfl, ⟨value, word, other, rfl, holds, holds'⟩, rfl⟩
    refine ⟨(value, ⟨front ++ (word ++ other ++ behind), front.length + word.length⟩),
      (one front _ addressable value _).mpr ⟨word, other ++ behind, List.append_assoc .., holds, rfl⟩, ?_⟩
    have more := two value (front ++ word) (other ++ behind) (by rwa [List.append_assoc, ← List.append_assoc word])
      result
    simp only [List.append_assoc, List.length_append] at more ⊢
    rw [← Nat.add_assoc]
    exact (more _).mpr ⟨other, behind, rfl, holds', rfl⟩

theorem Parses.map {image : γ → Grammar α} (parses : Parses get grammar) (convert : β → γ)
    (same : ∀ result pos word, (image result).Word pos word ↔
      ∃ value, result = convert value ∧ (grammar value).Word pos word) :
    Parses (do let value ← get; pure (convert value)) image := by
  refine (parses.bind fun value => parses_pure (convert value)).congr fun result => ?_
  ext pos word
  rw [same, Grammar.word_union]
  refine exists_congr fun value => ?_
  rw [Grammar.word_append]
  constructor
  · rintro ⟨one, _, rfl, holds, rfl, rfl⟩
    rw [List.append_nil]
    exact ⟨rfl, holds⟩
  · rintro ⟨rfl, holds⟩
    exact ⟨word, [], (List.append_nil word).symm, holds, rfl, rfl⟩

theorem Parses.rename (parses : Parses get grammar) {convert : β → γ} (back : γ → β)
    (left : ∀ value, back (convert value) = value) (right : ∀ result, convert (back result) = result) :
    Parses (do let value ← get; pure (convert value)) fun result => grammar (back result) := by
  refine parses.map convert fun result pos word => ⟨fun holds => ⟨back result, (right result).symm, holds⟩, ?_⟩
  rintro ⟨value, rfl, holds⟩
  rwa [left]

theorem parses_take (short : ε) (n : Nat) :
    Parses (Get.take short n : Get ε α (List α)) fun part => .given (part.length = n) (.exactly part) := by
  intro front tail addressable part after
  have inside : front.length ≤ (front ++ tail).length := by simp
  unfold Get.take
  simp only [Outcome.bind_eq_ok, usizeAdd_eq_ok]
  constructor
  · rintro ⟨_, ⟨-, rfl⟩, ran⟩
    split at ran
    · cases ran
    · rename_i within
      obtain ⟨slice, cut, same⟩ := Outcome.bind_eq_ok.mp ran
      obtain ⟨-, rfl⟩ := sliceRange_eq_ok.mp cut
      cases same
      have count : n ≤ tail.length := by
        rw [List.length_append] at within
        omega
      have front_part : ((front ++ tail).take (front.length + n)).drop front.length = tail.take n := by
        rw [List.take_length_add_append, List.drop_left]
      have size : (tail.take n).length = n := by rw [List.length_take, Nat.min_eq_left count]
      rw [front_part]
      exact ⟨tail.take n, tail.drop n, (List.take_append_drop n tail).symm, ⟨size, rfl⟩, by rw [size]⟩
  · rintro ⟨_, rest, rfl, ⟨rfl, rfl⟩, rfl⟩
    refine ⟨_, ⟨addressable.lt_usizeSize inside (by simp; omega), rfl⟩, ?_⟩
    rw [if_neg (by simp), sliceRange, if_pos ⟨Nat.le_add_right _ _, by simp⟩, Outcome.ok_bind,
      List.take_length_add_append, List.take_left, List.drop_left]

theorem parses_times (parses : Parses get grammar) (n : Nat) :
    Parses (Get.times get n) fun values => .given (values.length = n) (.each grammar values) := by
  induction n with
  | zero =>
    refine (parses_pure []).congr fun values => ?_
    ext pos word
    cases values <;> simp [Grammar.each]
  | succ n ih =>
    have rest (value : β) : Parses (do let values ← Get.times get n; pure (value :: values)) fun values =>
        .union fun others => .given (values = value :: others ∧ others.length = n) (.each grammar others) := by
      refine ih.map (value :: ·) fun values pos word => exists_congr fun others => ?_
      simp only [Grammar.word_given, and_assoc]
    refine (parses.bind rest).congr fun values => ?_
    ext pos word
    constructor
    · rintro ⟨value, one, two, rfl, holds, others, ⟨rfl, rfl⟩, more⟩
      exact ⟨rfl, one, two, rfl, holds, more⟩
    · rintro ⟨count, holds⟩
      cases values with
      | nil => cases count
      | cons value others =>
        obtain ⟨one, two, rfl, first, more⟩ := holds
        exact ⟨value, one, two, rfl, first, others, ⟨rfl, Nat.succ.inj count⟩, more⟩

/-- What is read by a grammar is read in front of anything else, and none of its fronts is read. -/
theorem self_delimiting (reads : List α → β → Nat → Prop) {grammar : β → Grammar α}
    (accepts : ∀ buf, Addressable buf → ∀ value stop, reads buf value stop ↔ (grammar value).At buf 0 stop)
    (once : ∀ buf value stop other stop', reads buf value stop → reads buf other stop' → stop = stop')
    {buf : List α} (addressable : Addressable buf) {value : β} {stop : Nat} (read : reads buf value stop) :
    (∀ rest, Addressable (buf.take stop ++ rest) → reads (buf.take stop ++ rest) value stop) ∧
      ∀ limit < stop, ∀ other stop', ¬reads (buf.take limit) other stop' := by
  have found := (accepts buf addressable value stop).mp read
  refine ⟨fun rest longer => (accepts _ longer value stop).mpr (found.take_append rest), ?_⟩
  intro limit shorter other stop' early
  have part : Addressable (buf.take limit) := addressable.of_length_le (List.length_take_le' ..)
  obtain ⟨within, earlier⟩ := ((accepts _ part other stop').mp early).of_take
  -- The whole input starts with the same word, which it would be read for.
  have same := once buf _ _ _ _ read ((accepts buf addressable other stop').mpr earlier)
  omega

end Parsing
end Rust
