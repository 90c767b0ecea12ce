import BoostLearn.Soundness.AsyncServer.Decode
import BoostLearn.Soundness.AsyncServerUseProtobuf.Echo
import BoostLearn.Soundness.Calls

/-! # When the receive loop ends

Between frames and inside a header every iteration that goes round again has consumed something.
Inside a body the loop ends when the read brings no more than is missing; otherwise it goes round
with the body complete and the flag set, where an iteration consumes nothing.
-/

namespace BoostLearn.Soundness.HandleRead

open CInt Memory Framing Framing.Format Model Model.HandleRead Reader

variable {τ ε : Type}

/-- The loop is left after at most this many iterations, and each but the last has fewer bytes left
than the one before it. -/
inductive Descends (codec : Codec τ ε) (data : Cells) : ℕ → Loop τ ε → Prop
  | leaves {count : ℕ} {loop : Loop τ ε}
    (left : ∀ next, codec.iteration data loop ≠ .ok (.again next)) : Descends codec data (count + 1) loop
  | again {count : ℕ} {loop next : Loop τ ε} (again : codec.iteration data loop = .ok (.again next))
    (fewer : next.byteTransfered < loop.byteTransfered) (later : Descends codec data count next) :
    Descends codec data (count + 1) loop

/-- The handler of a completion of `n` bytes makes at most `n + 1` iterations, each but the last
with fewer bytes left than before. -/
def Terminates (codec : Codec τ ε) (session : Session τ) (completion : Completion) : Prop :=
  Descends codec (Codec.receiveBuffer completion.bytes) (completion.bytes.length + 1)
    ⟨session, completion.bytes.length, 0, []⟩

/-- The sessions that wait for a read, from the one that has been started on. -/
inductive Reachable (codec : Codec τ ε) (start : Session τ) : Session τ → Prop
  | start : Reachable codec start start
  | read {session : Session τ} {completion : Completion} {fuel : ℕ} {done : Done τ ε}
    (reachable : Reachable codec start session)
    (returned : codec.handleRead fuel session (some completion.bytes) = some (.ok done))
    (reading : done.reading = true) : Reachable codec start done.session

/-- Nothing of the header is held back by a begun body, or the body misses at least this many
bytes, counted as the code counts them. -/
def Spare (session : Session τ) (count : ℕ) : Prop :=
  session.bHeadParse = true → ∀ node, session.recvMsgNode = some node →
    count ≤ toSizeT (node.maxLen - node.curLen)

section Loop

variable {codec : Codec τ ε} {data : Cells} {count : ℕ} {loop next : Loop τ ε}

/-- A loop that descends ends, with the same result for all fuel from the bound on. -/
theorem Descends.returns (descends : Descends codec data count loop) :
    ∃ result, ∀ fuel, count ≤ fuel → codec.runLoop data fuel loop = some result := by
  induction descends with
  | @leaves count loop left =>
    have unrolled (fuel : ℕ) (enough : count + 1 ≤ fuel) : codec.runLoop data fuel loop =
        codec.runLoop data 1 loop := by
      obtain ⟨less, rfl⟩ : ∃ less, fuel = less + 1 := ⟨fuel - 1, by omega⟩
      rw [Codec.runLoop, Codec.runLoop]
      cases step : codec.iteration data loop with
      | error fault => rfl
      | ok after =>
        cases after with
        | returned done => rfl
        | again next => exact absurd step (left next)
    obtain ⟨result, ended⟩ : ∃ result, codec.runLoop data 1 loop = some result := by
      rw [Codec.runLoop]
      cases step : codec.iteration data loop with
      | error fault => split <;> exact ⟨_, rfl⟩
      | ok after =>
        cases after with
        | returned done => split <;> exact ⟨_, rfl⟩
        | again next => exact absurd step (left next)
    exact ⟨result, fun fuel enough => (unrolled fuel enough).trans ended⟩
  | @again count loop next again fewer later ih =>
    obtain ⟨result, ended⟩ := ih
    refine ⟨result, fun fuel enough => ?_⟩
    obtain ⟨less, rfl⟩ : ∃ less, fuel = less + 1 := ⟨fuel - 1, by omega⟩
    rw [Codec.runLoop, if_pos (by omega), again]
    exact ended less (by omega)

/-- Between frames and inside a header the loop descends. -/
theorem Ahead.descends (limited : Limited codec) : ∀ {loop : Loop τ ε}, Ahead codec loop →
    loop.byteTransfered < count → Descends codec data count loop := by
  induction count with
  | zero => exact fun _ fewer => absurd fewer (Nat.not_lt_zero _)
  | succ count ih =>
    intro loop ahead fewer
    by_cases left : ∀ next, codec.iteration data loop ≠ .ok (.again next)
    · exact .leaves left
    · obtain ⟨next, again⟩ := not_forall.mp left
      obtain ⟨onward, consumed, positive, consumes⟩ := ahead.again limited (not_not.mp again)
      have := consumes.transfered
      exact .again (not_not.mp again) (by omega) (ih onward (by omega))

end Loop

section Suspended

/-- A body node without any room, for a length that no check has caught. -/
structure Stranded (session : Session τ) : Prop where
  flag : session.bHeadParse = true
  node : ∃ node, session.recvMsgNode = some node ∧ -32768 ≤ node.maxLen ∧ node.maxLen < 0 ∧
    node.curLen = 0 ∧ node.data = []

variable (reader : Reader τ ε)

/-- A head that is neither accepted nor refused has a negative length, and a node that is built for
one has no room. -/
structure Uncaught : Prop where
  header : ∀ {head : List UInt8} (rest : Cells), head.length = reader.format.headLength →
    reader.format.verdict head = .reject → ¬ reader.refused head → ∃ tag length,
      reader.codec.header (head.map some ++ rest) = .ok (some (tag, length)) ∧
        -32768 ≤ length ∧ length < 0
  newNode : ∀ {length : ℤ} {node : MsgNode}, length < 0 → reader.codec.newNode length = .ok node →
    node.curLen = 0 ∧ node.maxLen = length ∧ node.data = []

/-- What a session that waits for a read can look like. -/
inductive Suspended (session : Session τ) : Prop
  | atHead {held : List UInt8} (atHead : reader.AtHead session held)
  | inBody {tag : τ} {length : ℕ} {held : List UInt8} (inBody : reader.InBody session tag length held)
  | stranded (stranded : Stranded session)

variable {reader} {session : Session τ} {data : Cells} {loop : Loop τ ε} {held rest : List UInt8}

/-- A header with a length that no check has caught leaves a stranded session, or a fault. -/
private theorem startBody_negative (uncaught : Uncaught reader) (tag : τ) {length : ℤ}
    (low : -32768 ≤ length) (negative : length < 0) {result : Next τ ε}
    (bounded : loop.byteTransfered ≤ maxLength)
    (started : reader.codec.startBody data loop tag length = .ok result) :
    ∃ done, result = .returned done ∧ Stranded done.session := by
  rw [Codec.startBody] at started
  obtain ⟨node, built, started⟩ := ok_of_bind started
  obtain ⟨cursor, size, empty⟩ := uncaught.newNode negative built
  have huge := toSizeT_of_negative (by omega) negative
  simp only [maxLength] at bounded
  rw [if_pos (by omega)] at started
  obtain ⟨filled, copied, started⟩ := ok_of_bind started
  cases started
  have none : loop.byteTransfered = 0 := by
    by_contra some
    rw [cursor, empty, memcpy_outside (by simp only [List.length_nil]; omega)] at copied
    cases copied
  have same : filled = [] := by
    have kept := memcpy_length copied
    rw [empty, List.length_nil] at kept
    exact List.length_eq_zero_iff.mp kept
  refine ⟨_, rfl, rfl, _, rfl, ?_, ?_, ?_, same⟩
  · rw [size]
    exact low
  · rw [size]
    exact negative
  · rw [cursor, none]
    exact reader.narrow 0 (Nat.zero_le _)

/-- A header that the checks should have refused is the last one that a run reads. -/
theorem runLoop_uncaught (uncaught : Uncaught reader) {head : List UInt8} {done : Done τ ε}
    (unrefused : ¬ reader.refused head) (bytes : List UInt8) :
    ∀ {loop : Loop τ ε} {held rest : List UInt8} {fuel : ℕ}, bytes = held ++ rest → 0 < rest.length →
      reader.AtHead loop.session held → Pending data loop rest →
        (reader.format.parse bytes).rejected = some head →
          reader.codec.runLoop data fuel loop = some (.ok done) → Stranded done.session := by
  induction bytes using reader.format.stream_induction with
  | short bytes less =>
    intro loop held rest fuel same unread atHead pending rejected
    rw [parse_short less] at rejected
    cases rejected
  | reject other more whole verdict =>
    intro loop held rest fuel same unread atHead pending rejected returned
    rw [parse_reject whole verdict] at rejected
    cases rejected
    obtain ⟨fill, split, rfl⟩ := head_split same (by rw [whole]; exact atHead.short)
    obtain ⟨next, room, step, -, behind, -⟩ := iteration_wholeHead atHead pending split whole
    obtain ⟨tag, length, fields, low, negative⟩ := uncaught.header room whole verdict unrefused
    rw [fields] at step
    replace step : reader.codec.iteration data loop = reader.codec.startBody data next tag length := step
    cases fuel with
    | zero => cases returned
    | succ fuel =>
      rw [Codec.runLoop, if_pos (by rw [pending.count]; exact unread), step] at returned
      cases started : reader.codec.startBody data next tag length with
      | error fault =>
        rw [started] at returned
        cases returned
      | ok result =>
        have bounded : next.byteTransfered ≤ maxLength := by
          rw [behind.count]
          exact behind.bound
        obtain ⟨last, rfl, stranded⟩ := startBody_negative uncaught tag low negative bounded started
        rw [started] at returned
        cases returned
        exact stranded
  | unfinished other body tag length whole verdict missing =>
    intro loop held rest fuel same unread atHead pending rejected
    rw [parse_open whole verdict missing] at rejected
    cases rejected
  | frame other body more tag whole verdict ih =>
    intro loop held rest fuel same unread atHead pending rejected returned
    rw [parse_frame whole verdict] at rejected
    obtain ⟨last, step, atNext, pendingNext, -⟩ :=
      iteration_wholeFrame atHead pending same whole verdict
    cases more with
    | nil =>
      rw [parse_nil] at rejected
      cases rejected
    | cons byte more =>
      cases fuel with
      | zero => cases returned
      | succ fuel =>
        rw [Loop.frameDone, pendingNext.count, if_neg (by simp)] at step
        rw [runLoop_of_again pending unread step] at returned
        exact ih rfl (by simp) atNext pendingNext rejected returned

/-- A body node without room takes no byte. -/
theorem Stranded.iteration (stranded : Stranded loop.session) (positive : 0 < loop.byteTransfered)
    (bounded : loop.byteTransfered ≤ maxLength) (codec : Codec τ ε) :
    codec.iteration data loop = .error .outOfBounds := by
  obtain ⟨flag, node, present, low, negative, cursor, empty⟩ := stranded
  have huge := toSizeT_of_negative (by omega) negative
  simp only [maxLength] at bounded
  rw [Codec.iteration, flag, if_pos rfl, present]
  simp only [Codec.continueBody, cursor, Int.sub_zero, empty]
  rw [if_pos (by omega), memcpy_outside (by simp only [List.length_nil]; omega)]
  rfl

end Suspended

section Suspended

variable {reader : Reader τ ε} {start session : Session τ} {held : List UInt8}

/-- A read that starts at a head and arms the next one leaves a session at a head or inside a body,
or a stranded one. -/
private theorem suspended_of_atHead (uncaught : Uncaught reader) (atHead : reader.AtHead session held)
    {completion : Completion} {fuel : ℕ} {done : Done τ ε}
    (returned : reader.codec.handleRead fuel session (some completion.bytes) = some (.ok done))
    (reading : done.reading = true) : Suspended reader done.session := by
  by_cases judged : reader.Judged (held ++ completion.bytes)
  · obtain ⟨-, atNext | ⟨head, body, tag, length, -, -, -, -, inBody⟩⟩ :=
      atHead.reading judged returned reading
    · exact .atHead atNext
    · exact .inBody inBody
  · obtain ⟨head, rejected, unrefused⟩ : ∃ head,
        (reader.format.parse (held ++ completion.bytes)).rejected = some head ∧ ¬ reader.refused head := by
      by_contra none
      exact judged fun head stops unrefused => absurd ⟨head, stops, unrefused⟩ none
    exact .stranded (runLoop_uncaught uncaught unrefused _ rfl completion.nonempty atHead
      (.receive reader session completion) rejected returned)

/-- A session that waits for a read is at a head, inside a body, or stranded. -/
theorem Reachable.suspended (uncaught : Uncaught reader) (fresh : reader.AtHead start [])
    (reachable : Reachable reader.codec start session) : Suspended reader session := by
  induction reachable with
  | start => exact .atHead fresh
  | @read session completion fuel done _ returned reading ih =>
    cases ih with
    | atHead atHead => exact suspended_of_atHead uncaught atHead returned reading
    | inBody inBody =>
      obtain ⟨more, inside⟩ := inBody.returned returned
      exact .inBody inside
    | stranded stranded =>
      cases fuel with
      | zero => cases returned
      | succ fuel =>
        have failed := @Stranded.iteration _ _ (Codec.receiveBuffer completion.bytes)
          ⟨session, completion.bytes.length, 0, []⟩ stranded completion.nonempty completion.bounded
          reader.codec
        rw [Codec.handleRead, Codec.runLoop, if_pos completion.nonempty, failed] at returned
        cases returned

/-- The loop of a body that a read does not go beyond is left at once. -/
private theorem inBody_leaves {tag : τ} {length : ℕ} (inBody : reader.InBody session tag length held)
    (completion : Completion) (fits : held.length + completion.bytes.length ≤ length) :
    Terminates reader.codec session completion := by
  have pending := Pending.receive reader session completion
  apply Descends.leaves
  rcases Nat.lt_or_eq_of_le fits with more | ends
  · obtain ⟨next, step, -⟩ := iteration_moreBody inBody pending more
    rw [step]
    exact fun next again => by cases again
  · obtain rfl : length = (held ++ completion.bytes).length := by rw [List.length_append, ends]
    obtain ⟨next, after, step, -, behind, -⟩ := iteration_endBody completion.bytes inBody
      (by rwa [List.append_nil])
    rw [step, Loop.frameDone, if_pos (by rw [behind.count]; exact Nat.le_refl 0)]
    exact fun next again => by cases again

private theorem inBody_terminates {tag : τ} {length : ℕ}
    (inBody : reader.InBody session tag length held) (completion : Completion) :
    Terminates reader.codec session completion ↔ Spare session completion.bytes.length := by
  have within := inBody.held_le
  have limit := inBody.limit
  have missing : toSizeT ((reader.bodyNode tag length held).maxLen -
      (reader.bodyNode tag length held).curLen) = length - held.length := by
    simp only [maxLength] at limit
    simp only [bodyNode]
    rw [toSizeT_of_range (by omega) (by omega)]
    omega
  constructor
  · intro terminates flag node present
    obtain ⟨result, returned⟩ := Descends.returns terminates
    cases inBody.node.symm.trans present
    rw [missing]
    by_contra beyond
    have stuck := handleRead_diverges (completion.bytes.length + 1) inBody completion (by omega)
    cases stuck.symm.trans (returned _ (Nat.le_refl _))
  · intro spare
    have room := spare inBody.flag _ inBody.node
    rw [missing] at room
    exact inBody_leaves inBody completion (by omega)

private theorem stranded_terminates (stranded : Stranded session) (completion : Completion)
    (codec : Codec τ ε) :
    Terminates codec session completion ∧ Spare session completion.bytes.length := by
  constructor
  · apply Descends.leaves
    rw [@Stranded.iteration _ _ _ ⟨session, completion.bytes.length, 0, []⟩ stranded
      completion.nonempty completion.bounded codec]
    exact fun next again => by cases again
  · intro flag node present
    obtain ⟨-, other, same, low, negative, cursor, -⟩ := stranded
    cases same.symm.trans present
    have huge := toSizeT_of_negative (by omega) negative
    have bounded := completion.bounded
    simp only [maxLength] at bounded
    rw [cursor, Int.sub_zero]
    omega

/-- The loop ends exactly when the read does not go beyond a body begun by an earlier one. -/
theorem Suspended.terminates_iff (limited : Limited reader.codec) (suspended : Suspended reader session)
    (completion : Completion) :
    Terminates reader.codec session completion ↔ Spare session completion.bytes.length := by
  cases suspended with
  | atHead atHead =>
    have ahead := ahead_of_atHead atHead (.receive reader session completion)
    refine iff_of_true (ahead.descends limited (Nat.lt_succ_self _)) fun flag => ?_
    rw [atHead.flag] at flag
    cases flag
  | inBody inBody => exact inBody_terminates inBody completion
  | stranded stranded =>
    obtain ⟨terminates, spare⟩ := stranded_terminates stranded completion reader.codec
    exact iff_of_true terminates spare

end Suspended

section Servers

open Wire Model.AsyncServerUseProtobuf

theorem asyncServer_limited : Limited AsyncServer.reader.codec := by
  refine ⟨(by decide : (headTotalLen : ℤ) ≤ maxLength), fun {filled tag msgLen} fields => ?_⟩
  obtain ⟨idField, -, fields⟩ := ok_of_bind fields
  dsimp only at fields
  split_ifs at fields with id
  · cases fields
  · obtain ⟨lenField, -, fields⟩ := ok_of_bind fields
    split_ifs at fields with length
    · cases fields
    · cases fields
      exact ⟨(toShort_range _).1, Int.not_lt.mp length⟩

theorem asyncServer_uncaught : Uncaught AsyncServer.reader := by
  constructor
  · intro head rest whole reject unrefused
    obtain ⟨idHigh, idLow, lenHigh, lenLow, rfl⟩ := Spec.two_fields whole
    rcases Spec.asyncServer_reject.mp reject with id | negative | length
    · exact absurd (Or.inl id) unrefused
    · refine ⟨bigEndianShort idHigh idLow, bigEndianShort lenHigh lenLow,
        (Model.AsyncServer.header_of_fields ..).trans ?_, (bigEndianShort_range _ _).1, negative⟩
      rw [if_neg fun id => unrefused (Or.inl id), if_neg fun length => unrefused (Or.inr length)]
    · exact absurd (Or.inr length) unrefused
  · intro length node negative built
    obtain ⟨fault, failed⟩ := MsgNode.new_of_negative negative
    cases failed.symm.trans built

theorem useProtobuf_limited (protobuf : Protobuf) :
    Limited (AsyncServerUseProtobuf.reader protobuf).codec := by
  refine ⟨(by decide : (headLength : ℤ) ≤ maxLength), fun {filled tag msgLen} fields => ?_⟩
  obtain ⟨lenField, -, fields⟩ := ok_of_bind fields
  dsimp only at fields
  split_ifs at fields with length
  · cases fields
  · cases fields
    exact ⟨(toShort_range _).1, Int.not_lt.mp length⟩

/-- Only the length `-1` gets a node, which has room for nothing. -/
theorem useProtobuf_uncaught (protobuf : Protobuf) :
    Uncaught (AsyncServerUseProtobuf.reader protobuf) := by
  constructor
  · intro head rest whole reject unrefused
    obtain ⟨lenHigh, lenLow, rfl⟩ := Spec.one_field whole
    rcases Spec.useProtobuf_reject.mp reject with negative | length
    · exact ⟨(), bigEndianShort lenHigh lenLow,
        (Model.AsyncServerUseProtobuf.header_of_field ..).trans (if_neg unrefused),
        (bigEndianShort_range _ _).1, negative⟩
    · exact absurd length unrefused
  · intro length node negative built
    by_cases lowest : length < -1
    · cases (Model.AsyncServerUseProtobuf.newMsgNode_of_negative lowest).symm.trans built
    · obtain ⟨data, allocated, built⟩ := ok_of_bind built
      cases (newChar_of_nonneg (by omega)).symm.trans allocated
      cases built
      have empty : (length + 1).toNat = 0 := by omega
      exact ⟨rfl, rfl, by rw [empty]; rfl⟩

/-- In both servers the loop ends, with a bound on its iterations, exactly when the read does not
go beyond a body begun by an earlier one. -/
theorem terminates_iff_spare (protobuf : Protobuf) (completion : Completion) :
    (∀ session, Reachable Model.AsyncServer.codec AsyncServer.fresh session →
      (Terminates Model.AsyncServer.codec session completion ↔
        Spare session completion.bytes.length)) ∧
    ∀ session, Reachable (Model.AsyncServerUseProtobuf.codec protobuf)
      AsyncServerUseProtobuf.started session →
        (Terminates (Model.AsyncServerUseProtobuf.codec protobuf) session completion ↔
          Spare session completion.bytes.length) := by
  constructor
  · intro session reachable
    have suspended : Suspended AsyncServer.reader session :=
      Reachable.suspended asyncServer_uncaught AsyncServer.fresh_atHead reachable
    exact suspended.terminates_iff asyncServer_limited completion
  · intro session reachable
    have suspended : Suspended (AsyncServerUseProtobuf.reader protobuf) session :=
      Reachable.suspended (useProtobuf_uncaught protobuf)
        (AsyncServerUseProtobuf.started_atHead protobuf) reachable
    exact suspended.terminates_iff (useProtobuf_limited protobuf) completion

/-- The header of a body of two bytes, without the body. -/
def cutHeader : Completion := ⟨[3, 233, 0, 2], by decide, by decide⟩

def cutLength : Completion := ⟨[0, 2], by decide, by decide⟩

/-- The body, and the first byte of another header. -/
def beyondBody : Completion := ⟨[65, 66, 3], by decide, by decide⟩

theorem terminates_iff_spare_cutHeader (protobuf : Protobuf) :
    Terminates Model.AsyncServer.codec AsyncServer.fresh cutHeader ∧
      Terminates (Model.AsyncServerUseProtobuf.codec protobuf) AsyncServerUseProtobuf.started
        cutLength := by
  constructor
  · exact ((terminates_iff_spare protobuf cutHeader).1 _ .start).mpr fun flag => by cases flag
  · exact ((terminates_iff_spare protobuf cutLength).2 _ .start).mpr fun flag => by cases flag

/-- The loop of the second read ends, when the first one has returned and armed it. -/
def Ends {τ ε : Type} (codec : Codec τ ε) (start : Session τ) (first second : Completion) : Prop :=
  ∀ fuel done, codec.handleRead fuel start (some first.bytes) = some (.ok done) →
    done.reading = true → Terminates codec done.session second

private theorem not_ends {reader : Reader τ ε} {start : Session τ} (fresh : reader.AtHead start [])
    {first second : Completion} {tag : τ} {length : ℕ}
    (whole : first.bytes.length = reader.format.headLength)
    (verdict : reader.format.verdict first.bytes = .accept tag length) (missing : 0 < length)
    (past : length < second.bytes.length) : ¬ Ends reader.codec start first second := by
  intro ends
  have parsed : reader.format.parse (first.bytes ++ []) = _ := parse_open whole verdict missing
  rw [List.append_nil] at parsed
  obtain ⟨result, agrees, returns⟩ := handleRead_agrees fresh first fun head stops => by
    rw [List.nil_append, parsed] at stops
    cases stops
  rw [List.nil_append, parsed] at agrees
  obtain ⟨next, rfl, holds⟩ := agrees
  dsimp only at holds
  rcases holds with atNext | ⟨head, body, other, size, split, same, accept, -, inBody⟩
  · have short := atNext.short
    omega
  · have none : body = [] := by
      have counted := congrArg List.length split
      rw [List.length_append] at counted
      exact List.length_eq_zero_iff.mp (by omega)
    rw [none, List.append_nil] at split
    rw [split] at verdict
    cases verdict.symm.trans accept
    rw [none] at inBody
    have terminates := ends _ _ (returns (first.bytes.length + 1) (Nat.lt_succ_self _)) rfl
    obtain ⟨result, returned⟩ := Descends.returns terminates
    have stuck := handleRead_diverges (second.bytes.length + 1) inBody second (by simpa using past)
    cases stuck.symm.trans (returned _ (Nat.le_refl _))

theorem not_terminates :
    ¬ Ends Model.AsyncServer.codec AsyncServer.fresh cutHeader beyondBody ∧
      ∀ protobuf, ¬ Ends (Model.AsyncServerUseProtobuf.codec protobuf)
        AsyncServerUseProtobuf.started cutLength beyondBody := by
  constructor
  · have verdict : AsyncServer.reader.format.verdict cutHeader.bytes = .accept 1001 2 := by
      decide +kernel
    exact not_ends AsyncServer.fresh_atHead rfl verdict (by decide) (by decide)
  · intro protobuf
    have verdict : (AsyncServerUseProtobuf.reader protobuf).format.verdict cutLength.bytes =
        .accept () 2 := by
      change Spec.useProtobuf.verdict cutLength.bytes = .accept () 2
      decide +kernel
    exact not_ends (AsyncServerUseProtobuf.started_atHead protobuf) rfl verdict (by decide) (by decide)

end Servers

end BoostLearn.Soundness.HandleRead
