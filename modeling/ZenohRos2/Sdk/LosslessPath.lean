import ZenohRos2.Sdk.NetworkPath

/-! Paths on which nothing is lost.

If no write fails, the router passes everything on and the queue has room, then
what was sent and not yet received is on the way, whole and in order.
-/

set_option autoImplicit false

namespace ZenohRos2
open Rust Cdr Trimming

namespace NetworkPath
section Runs
variable [Target] {types : PubRef → Ty} {topic : PubRef → TopicKeyExpr} {key : String} {sub : SubRef}
  {path next : NetworkPath} {act : NetworkAct types}

/-- The line of a publisher has every message that was sent, in full. -/
structure Whole (ref : PubRef) (path : NetworkPath) : Prop where
  remote : (path.sender.world.statics ref).locality ≠ .sessionLocal
  line : (path.sender.line ref).map (fun payload => (payload.seqNum.toInt, payload.data)) =
    (path.sent ref).mapIdx fun n message => ((n : Int), message.encoded)

theorem Whole.task {ref : PubRef} (whole : Whole ref path) (sending : Sending types topic path.sender path.sent)
    {act : Act} (unstamped : ∀ owner data timestampNs, act ≠ .stamp owner data timestampNs) (good : act ≠ .turn false)
    {sender : System} (ran : path.sender.step act = some sender) (inbox : List Received) :
    Whole ref { path with sender := sender, inbox := inbox } where
  remote := by
    rw [((System.stepped_of_step sending.control ran).moves ref).locality]
    exact whole.remote
  line := by
    rw [System.line_eq sending.control ran whole.remote (sending.ordered ref).single (unstamped ref) good]
    exact whole.line

theorem Whole.send {ref owner : PubRef} (whole : Whole ref path) (sending : Sending types topic path.sender path.sent)
    {value : (types owner).Val} (within : (types owner).Within value)
    (fits : (path.sender.world.statics owner).cdrCap ≤ cdrDrainBuf) {n : Nat} {raw : Bytes} {timestampNs : Int64}
    (ran : serializeWithHeader (types owner) value (List.replicate (path.sender.world.statics owner).cdrCap 0) =
      .ok (n, raw)) {sender : System} (stamped : path.sender.step (.stamp owner (raw.take n) timestampNs) = some sender) :
    Whole ref { path with
      sender := sender
      sent := Function.update path.sent owner (path.sent owner ++ [⟨types owner, value⟩]) } where
  remote := by
    rw [((System.stepped_of_step sending.control stamped).moves ref).locality]
    exact whole.remote
  line := by
    obtain ⟨count, front, -, room⟩ := serializeWithHeader_written within ran
    rw [List.length_replicate] at room
    obtain ⟨⟨line, -⟩, others⟩ := System.line_stamp stamped
    by_cases mine : ref = owner
    · subst mine
      have short : (raw.take n).take cdrDrainBuf = Message.encoded ⟨types ref, value⟩ := by
        rw [front]
        exact List.take_of_length_le (Nat.le_trans (Nat.le_of_eq count.symm) (Nat.le_trans room fits))
      simp only [line, List.map_append, whole.line, Function.update_self, List.mapIdx_concat, List.map_cons, List.map_nil,
        sending.count ref, short]
    · simp only [(others ref mine).1, Function.update_of_ne mine]
      exact whole.line

theorem Whole.step {ref : PubRef} (whole : Whole ref path) (sending : Sending types topic path.sender path.sent)
    (may : allowed types key sub path act) (keeping : Keeping sub path act)
    (stepped : path.step types key sub act = some next) : Whole ref next := by
  cases act with
  | send owner value timestampNs =>
    unfold NetworkPath.step at stepped
    simp only at stepped
    split at stepped
    · rename_i n raw ran
      obtain ⟨sender, stamped, rfl⟩ := Option.map_eq_some_iff.mp stepped
      exact whole.send sending value.property keeping ran stamped
    · cases stepped
      exact whole
  | task act =>
    obtain ⟨sender, ran, rfl⟩ := Option.map_eq_some_iff.mp stepped
    refine whole.task sending ?_ keeping ran _
    rintro owner data timestampNs rfl
    exact may
  | tryRecv =>
    unfold NetworkPath.step at stepped
    simp only at stepped
    split at stepped
    · cases stepped
      exact whole
    · cases stepped
      exact ⟨whole.remote, whole.line⟩
  | _ =>
    cases stepped
    exact ⟨whole.remote, whole.line⟩

theorem Whole.message {ref : PubRef} (whole : Whole ref path) (sending : Sending types topic path.sender path.sent)
    {payload : CdrPayload} (member : payload ∈ path.sender.line ref) :
    ∃ (n : Nat) (message : Message), payload.seqNum.toInt = n ∧ (path.sent ref)[n]? = some message ∧
      message.ty.Within message.value ∧ Addressable message.encoded ∧ payload.data = message.encoded := by
  obtain ⟨n, message, number, found, within, addressable, -⟩ := sending.inPlace ref payload member
  obtain ⟨i, inside⟩ := List.getElem?_of_mem member
  have same := congrArg (fun pairs => pairs[i]?) whole.line
  simp only [List.getElem?_map, inside, List.getElem?_mapIdx, Option.map_some] at same
  obtain ⟨other, there, equal⟩ := Option.map_eq_some_iff.mp same.symm
  obtain ⟨index, data⟩ := Prod.mk.inj equal
  have here : i = n := by omega
  subst here
  obtain rfl : other = message := Option.some.inj (there.symm.trans found)
  exact ⟨i, other, number, found, within, addressable, data.symm⟩

omit [Target] in
def numbersOf (ref : PubRef) (origins : List (PubRef × Nat)) : List Nat :=
  origins.filterMap fun origin => if origin.1 = ref then some origin.2 else none

omit [Target] in
theorem numbersOf_map (ref : PubRef) (items : List (PubRef × CdrPayload)) :
    numbersOf ref (items.map origin) =
      (items.filterMap (ofPublisher ref)).map fun payload => payload.seqNum.toInt.toNat := by
  induction items with
  | nil => rfl
  | cons item items ih =>
    obtain ⟨owner, payload⟩ := item
    rw [numbersOf] at ih ⊢
    by_cases mine : owner = ref
    · simp [origin, ofPublisher, mine, ih]
    · simp [origin, ofPublisher, mine, ih]

theorem Whole.numbers {ref : PubRef} (whole : Whole ref path) :
    (path.sender.line ref).map (fun payload => payload.seqNum.toInt.toNat) = List.range (path.sent ref).length := by
  have numbers := congrArg (List.map fun pair => pair.1.toNat) whole.line
  rw [List.map_map, List.mapIdx_eq_zipIdx_map, List.map_map] at numbers
  refine Eq.trans numbers ?_
  change ((path.sent ref).zipIdx).map Prod.snd = _
  rw [List.zipIdx_map_snd, List.range_eq_range']

def Delivers (path : NetworkPath) (origin : PubRef × Nat) (result : Outcome Error Message) : Prop :=
  ∃ message, (path.sent origin.1)[origin.2]? = some message ∧ result = .ok message

structure Quiet (path : NetworkPath) : Prop where
  idle : ∃ returned, path.sender.control = .idle returned
  empty : ∀ ref, (path.sender.world.statics ref).pending = [] ∧ (path.sender.world.statics ref).stamped = []
  inbox : path.inbox = []
  link : path.link = [] ∧ path.spin.held = 0
  channel : path.subscriber.channel = []

theorem Quiet.taken (quiet : Quiet path) {frames : List (Bytes × List Delivery)}
    (awaits : path.spin.Awaits path.statics path.receiver path.link frames) : path.way sub frames = path.taken := by
  obtain ⟨reading, pending, amid⟩ := awaits.reads
  have held := quiet.link.2
  rw [Spin.held, pending] at held
  obtain rfl := amid.eq_start held
  rw [quiet.link.1] at amid
  have none : frames = [] := List.map_eq_nil_iff.mp amid.eq_nil
  rw [way, none, quiet.channel, quiet.inbox]
  simp

theorem Quiet.line (quiet : Quiet path) (ref : PubRef) :
    path.sender.line ref = path.sender.world.log.flatMap (Event.wire ref) := by
  obtain ⟨returned, idle⟩ := quiet.idle
  obtain ⟨pending, stamped⟩ := quiet.empty ref
  have waiting : (path.sender.box ref).pending = [] := pending
  rw [System.line, Outbox.Box.line, waiting, stamped]
  simp [System.box, idle, Control.flight, World.box]

abbrev KeepingRun (types : PubRef → Ty) (key : String) (sub : SubRef) : NetworkPath → NetworkPath → Prop :=
  Machine.Run (step types key sub) fun path act => allowed types key sub path act ∧ Keeping sub path act

theorem KeepingRun.sound {start : NetworkPath} (run : KeepingRun types key sub start path)
    (sound : Sound types topic key sub Eq start) (whole : ∀ ref, On topic key ref → Whole ref start) :
    Sound types topic key sub Eq path ∧ ∀ ref, On topic key ref → Whole ref path := by
  apply Machine.Run.invariant (fun path => Sound types topic key sub Eq path ∧ ∀ ref, On topic key ref → Whole ref path)
    run ⟨sound, whole⟩
  intro path next act _ before may stepped
  exact ⟨before.1.step_keeping may.1 may.2 stepped,
    fun ref on => (before.2 ref on).step before.1.sending may.1 may.2 stepped⟩

theorem exists_numbersOf (sending : Sending types topic path.sender path.sent)
    (whole : ∀ ref, On topic key ref → Whole ref path) {items : List (PubRef × CdrPayload)}
    (front : items <+: path.published key) (ref : PubRef) : ∃ n, numbersOf ref (items.map origin) = List.range n := by
  have own := front.filterMap (ofPublisher ref)
  rw [numbersOf_map]
  by_cases on : On topic key ref
  · have numbers := (own.trans (published_front sending ref)).map fun payload => payload.seqNum.toInt.toNat
    rw [(whole ref on).numbers, List.prefix_iff_eq_take, List.take_range] at numbers
    exact ⟨_, numbers⟩
  · rw [published_wire sending, if_neg on, List.prefix_nil] at own
    exact ⟨0, by rw [own]; rfl⟩

/-- Where no write fails, the router passes everything on and the subscription
has room: it receives just the messages that were sent under its key
expression, those of each publisher from the first one on without a gap, and
all of them once the path is quiet. -/
theorem received_exactly (types : PubRef → Ty) (ty : Ty) (topic : PubRef → TopicKeyExpr) (key : String) (sub : SubRef)
    (typed : ∀ ref, On topic key ref → types ref = ty) (locality : PubRef → Locality)
    (remote : ∀ ref, On topic key ref → locality ref ≠ .sessionLocal) (cdrCap queue : PubRef → Nat)
    (msgSize subQueue : Nat) (node receiver : Node) (keyIds : KeyIds receiver.subscribers) (statics : PubRef → Publisher)
    (drains : Drains statics receiver)
    (run : KeepingRun types key sub (initial topic locality cdrCap queue msgSize subQueue node receiver statics) path) :
    ∃ origins, (∀ ref, ∃ n, numbersOf ref origins = List.range n) ∧ List.Forall₂ path.Delivers origins (path.results ty) ∧
      (path.Quiet → ∀ ref, On topic key ref → numbersOf ref origins = List.range (path.sent ref).length) := by
  obtain ⟨sound, whole⟩ := run.sound (initial_sound locality cdrCap queue msgSize subQueue node keyIds drains rfl)
    fun ref on => ⟨remote ref on, rfl⟩
  obtain ⟨frames, awaits, all⟩ := sound.carried
  have taken : path.taken = ((path.published key).take path.taken.length).map fun item => item.2.data := by
    rw [List.map_take, ← all, way, List.take_left]
  let items := (path.published key).take path.taken.length
  have genuine (item : PubRef × CdrPayload) (member : item ∈ items) :
      path.Delivers (origin item) (Subscription.decoded ty item.2.data) := by
    have inside := List.mem_of_mem_take member
    have on := (mem_published sound.sending inside).1
    have lined : item.2 ∈ path.sender.line item.1 := (published_front sound.sending item.1).subset
      (List.mem_filterMap.mpr ⟨item, inside, mem_ofPublisher.mpr rfl⟩)
    obtain ⟨n, message, number, found, within, addressable, data⟩ := (whole item.1 on).message sound.sending lined
    obtain rfl : message.ty = ty :=
      (sound.sending.typed item.1 message (List.mem_of_getElem? found)).trans (typed item.1 on)
    refine ⟨message, ?_, ?_⟩
    · rw [origin, number, Int.toNat_natCast]
      exact found
    · rw [data]
      exact Subscription.decoded_encoded within addressable
  refine ⟨items.map origin, exists_numbersOf sound.sending whole (List.take_prefix _ _), ?_, fun quiet ref on => ?_⟩
  · rw [results, taken, List.map_map, List.forall₂_map_left_iff, List.forall₂_map_right_iff, List.forall₂_same]
    exact genuine
  · have count : path.taken.length = (path.published key).length := by
      rw [← quiet.taken awaits, all, List.length_map]
    have everything : items = path.published key := List.take_of_length_le (Nat.le_of_eq count.symm)
    rw [everything, numbersOf_map, published_wire sound.sending, if_pos on, ← quiet.line, (whole ref on).numbers]

omit [Target] in
theorem received_exactly_two :
    let chatter : TopicKeyExpr := ⟨0, "chatter", "UInt32", "hash"⟩
    let key := "0/chatter/UInt32/hash"
    let talker := { Node.built "talker" "" 0 (ZenohId.fromBytes [7]) 10000 10000 with publishers := [0] }
    let listener := { Node.built "listener" "" 0 (ZenohId.fromBytes [8]) 10000 10000 with
      subscribers := [⟨1, .any, chatter, 3⟩] }
    let statics : PubRef → Publisher := fun _ => .fresh chatter .any 8 4
    let start := initial (fun _ => chatter) (fun _ => .any) (fun _ => 8) (fun _ => 4) 8 4 talker listener statics
    letI := target64
    ∃ path : NetworkPath, KeepingRun (fun _ => .prim .u32) key 3 start path ∧ path.taken.length = 2 ∧
      ∃ origins, (∀ ref, ∃ n, numbersOf ref origins = List.range n) ∧
        List.Forall₂ path.Delivers origins (path.results (.prim .u32)) ∧
        (path.Quiet → ∀ ref, On (fun _ => chatter) key ref →
          numbersOf ref origins = List.range (path.sent ref).length) := by
  intro chatter key talker listener statics start
  let := target64
  obtain ⟨path, run, taken⟩ : ∃ path : NetworkPath, KeepingRun (fun _ => .prim .u32) key 3 start path ∧
      path.taken.length = 2 :=
    Machine.exists_run [.send 0 ⟨(5 : UInt32), trivial⟩ 0, .task (.enqueue 0 0), .send 0 ⟨(6 : UInt32), trivial⟩ 1,
      .task (.enqueue 0 0), .task .call, .task (.turn true), .task (.turn true), .task (.turn true), .task (.turn true),
      .forward ⟨0, true, []⟩ ⟨1, false, none, [], none, none, [], [0, 1, 0, 0, 5, 0, 0, 0]⟩, .arrive 3, .traffic [4],
      .forward ⟨1, true, []⟩ ⟨1, false, none, [], none, none, [], [0, 1, 0, 0, 6, 0, 0, 0]⟩, .arrive 60, .timeout,
      .tryRecv, .tryRecv] (by decide +kernel)
  exact ⟨path, run, taken, received_exactly (fun _ => .prim .u32) (.prim .u32) (fun _ => chatter) key 3 (fun _ _ => rfl)
    (fun _ => .any) (fun _ _ => by decide) (fun _ => 8) (fun _ => 4) 8 4 talker listener
    ⟨by decide, by decide⟩ statics (by decide) run⟩

end Runs
end NetworkPath
end ZenohRos2
