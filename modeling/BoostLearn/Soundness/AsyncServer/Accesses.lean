import BoostLearn.Model.AsyncServer.Accesses
import BoostLearn.Soundness.AsyncServer.Decode
import BoostLearn.Soundness.Termination

/-! # When the decoder of AsyncServer stays in its buffers

The two counters of the loop always add up to what has been received, and the cursor of a node and
the bytes it is offered to what the node has room for. The only header that breaks this is one with
a negative length, which the checks let through; a loop that has stuck behind a cut body never gets
to it.
-/

namespace BoostLearn.Soundness.AsyncServer

open CInt Memory Framing Framing.Format Model Model.Wire Model.HandleRead Model.AsyncServer
open Soundness.HandleRead Soundness.HandleRead.Reader

/-- The part of the received bytes that has been copied and the part that has not are all of it. -/
structure Tracks (received : ℕ) (loop : ReceiveLoop) : Prop where
  nonneg : 0 ≤ loop.copyLen
  total : loop.copyLen + loop.byteTransfered = received

/-- Every access of these stays in range. -/
def AllInRange (received : ℕ) (accesses : List Access) : Prop :=
  ∀ access ∈ accesses, access.InRange received

variable {received : ℕ} {data : Cells} {loop next : ReceiveLoop} {held rest : List UInt8}

theorem Tracks.consumes (tracks : Tracks received loop) {count : ℕ} (consumes : Consumes loop next count) :
    Tracks received next := by
  have transfered := consumes.transfered
  have copied := consumes.copied
  have nonneg := tracks.nonneg
  have total := tracks.total
  exact ⟨by omega, by omega⟩

theorem allInRange_cons {access : Access} {accesses : List Access} :
    AllInRange received (access :: accesses) ↔ access.InRange received ∧ AllInRange received accesses :=
  List.forall_mem_cons

theorem allInRange_append {first second : List Access} :
    AllInRange received (first ++ second) ↔ AllInRange received first ∧ AllInRange received second :=
  List.forall_mem_append

theorem allInRange_nil : AllInRange received [] := by
  intro access member
  cases member

/-- A copy of no more than is left, and no more than there is room for. -/
theorem Tracks.copyInRange (tracks : Tracks received loop) {size : ℕ} {target room : ℤ}
    (left : size ≤ loop.byteTransfered) (nonneg : 0 ≤ target) (fits : target + size ≤ room) :
    CopyInRange room received target loop.copyLen size := by
  have start := tracks.nonneg
  have total := tracks.total
  exact ⟨Int.natCast_nonneg _, ⟨start, by omega⟩, nonneg, fits⟩

section Iteration

variable {head fill : List UInt8} {length : ℕ}

private theorem iterationAccesses_atHead (atHead : reader.AtHead loop.session held) :
    iterationAccesses data loop = startFrameAccesses data loop := by
  rw [iterationAccesses, atHead.flag, if_neg Bool.false_ne_true]

/-- The copy of a part of a header. -/
theorem partialHead_inRange (atHead : reader.AtHead loop.session held)
    (pending : Pending data loop rest) (tracks : Tracks received loop)
    (less : held.length + rest.length < headTotalLen) :
    AllInRange received (iterationAccesses data loop) := by
  have cursor := atHead.cursor
  have count := pending.count
  have partialHead : toSizeT (loop.byteTransfered + loop.session.recvHeadNode.curLen) <
      toSizeT headTotalLen := (atHead.partial_iff pending).mpr less
  rw [iterationAccesses_atHead atHead, startFrameAccesses, if_pos partialHead, allInRange_cons]
  refine ⟨?_, allInRange_nil⟩
  apply tracks.copyInRange (Nat.le_refl _)
  · rw [cursor]
    exact Int.natCast_nonneg _
  · rw [cursor, count]
    omega

/-- The copy of the rest of a header, and the loop behind it. -/
theorem wholeHead_inRange (atHead : reader.AtHead loop.session held)
    (pending : Pending data loop (fill ++ rest)) (tracks : Tracks received loop)
    (split : head = held ++ fill) (whole : head.length = headTotalLen) :
    ∃ access next room, iterationAccesses data loop =
        access :: headerAccesses next (header (head.map some ++ room)) ∧
      access.InRange received ∧ next.byteTransfered = rest.length ∧ Tracks received next := by
  have cursor := atHead.cursor
  have count := pending.count
  have bound := pending.bound
  obtain ⟨room, layout, allocated⟩ := atHead.layout
  have small : headTotalLen = 4 := rfl
  rw [split, List.length_append] at whole
  rw [List.length_append] at count
  simp only [List.length_append, maxLength] at bound
  have complete : ¬ toSizeT (loop.byteTransfered + loop.session.recvHeadNode.curLen) <
      toSizeT headTotalLen := by
    intro less
    have short := (atHead.partial_iff pending).mp less
    have all : held.length + (fill ++ rest).length < headTotalLen := short
    rw [List.length_append] at all
    omega
  have remind : (headTotalLen : ℤ) - loop.session.recvHeadNode.curLen = fill.length := by
    rw [cursor, ← whole]
    omega
  have copied := pending.memcpy held room (by
    have size : held.length + room.length = headTotalLen + 1 := allocated
    omega)
  rw [← cursor, ← layout, ← split] at copied
  rw [iterationAccesses_atHead atHead, startFrameAccesses, if_neg complete, remind]
  dsimp only
  rw [toSizeT_natCast (by omega), copied]
  refine ⟨_, _, room.drop fill.length, rfl, ?_, ?_, ?_⟩
  · apply tracks.copyInRange (by omega)
    · rw [cursor]
      exact Int.natCast_nonneg _
    · rw [cursor]
      omega
  · dsimp only
    rw [toSizeT_of_range (by omega) (by omega)]
    omega
  · have nonneg := tracks.nonneg
    have total := tracks.total
    constructor
    · dsimp only
      omega
    · dsimp only
      rw [toSizeT_of_range (by omega) (by omega)]
      omega

/-- A node of negative length has no place for its terminator, or no array. -/
theorem negative_outOfRange {msgLen : ℤ} (negative : msgLen < 0) :
    ¬ AllInRange received (startBodyAccesses loop msgLen) := by
  intro all
  have allocated := (allInRange_append.mp all).1 (.newChar (msgLen + 1)) (by
    rw [newNodeAccesses]
    split_ifs
    · exact List.mem_cons_self
    · exact List.mem_cons_self)
  have size : 1 ≤ msgLen + 1 := allocated
  omega

/-- The node of a body, and what the read brings of the body. -/
theorem startBody_inRange (tracks : Tracks received loop) (limit : length ≤ maxLength) :
    AllInRange received (startBodyAccesses loop length) := by
  simp only [maxLength] at limit
  have counted : toSizeT (length : ℤ) = length := toSizeT_natCast (by omega)
  rw [startBodyAccesses, allInRange_append]
  constructor
  · rw [newNodeAccesses, if_neg (by omega)]
    refine allInRange_cons.mpr ⟨?_, allInRange_cons.mpr ⟨?_, allInRange_nil⟩⟩
    · change 1 ≤ (length : ℤ) + 1
      omega
    · change 0 ≤ (length : ℤ) ∧ (length : ℤ) < length + 1
      omega
  · rw [MsgNode.new_of_nonneg, fillAccesses, counted]
    split_ifs with unfinished
    · refine allInRange_cons.mpr ⟨?_, allInRange_nil⟩
      exact tracks.copyInRange (Nat.le_refl _) (Int.le_refl 0) (by dsimp only; omega)
    · refine allInRange_cons.mpr ⟨?_, allInRange_cons.mpr ⟨?_, allInRange_nil⟩⟩
      · exact tracks.copyInRange (by omega) (Int.le_refl 0) (by dsimp only; omega)
      · change 0 ≤ (length : ℤ) ∧ (length : ℤ) < _
        simp only [List.length_append, List.length_replicate, List.length_singleton]
        omega

/-- The copy into a begun body. -/
theorem continueBody_inRange {tag : ℤ} (inBody : reader.InBody loop.session tag length held)
    (tracks : Tracks received loop) : AllInRange received (iterationAccesses data loop) := by
  have within := inBody.held_le
  have limit := inBody.limit
  simp only [maxLength] at limit
  have remind : (length : ℤ) - held.length = (length - held.length : ℕ) := by omega
  rw [iterationAccesses, inBody.flag, if_pos rfl, inBody.node]
  simp only [continueBodyAccesses, bodyNode, remind]
  rw [toSizeT_natCast (by omega)]
  split_ifs with unfinished
  · refine allInRange_cons.mpr ⟨?_, allInRange_nil⟩
    exact tracks.copyInRange (Nat.le_refl _) (Int.natCast_nonneg _) (by omega)
  · refine allInRange_cons.mpr ⟨?_, allInRange_nil⟩
    exact tracks.copyInRange (by omega) (Int.natCast_nonneg _) (by omega)

end Iteration

section Run

variable {head more : List UInt8} {tag : ℤ} {length : ℕ}

/-- All accesses of a run from this loop on stay in range. -/
def RunInRange (received : ℕ) (data : Cells) (loop : ReceiveLoop) : Prop :=
  ∀ fuel, AllInRange received (runAccesses data fuel loop)

theorem RunInRange.iteration (run : RunInRange received data loop) (unread : 0 < loop.byteTransfered) :
    AllInRange received (iterationAccesses data loop) := by
  have first := run 1
  rw [runAccesses, if_pos unread] at first
  exact (allInRange_append.mp first).1

theorem runInRange_of_left (left : ∀ next, codec.iteration data loop ≠ .ok (.again next))
    (accesses : AllInRange received (iterationAccesses data loop)) : RunInRange received data loop := by
  intro fuel
  cases fuel with
  | zero => exact allInRange_nil
  | succ fuel =>
    rw [runAccesses]
    split_ifs with unread
    · refine allInRange_append.mpr ⟨accesses, ?_⟩
      cases step : codec.iteration data loop with
      | error fault => exact allInRange_nil
      | ok after =>
        cases after with
        | returned done => exact allInRange_nil
        | again next => exact absurd step (left next)
    · exact allInRange_nil

theorem runInRange_of_again (step : codec.iteration data loop = .ok (.again next))
    (unread : 0 < loop.byteTransfered) (accesses : AllInRange received (iterationAccesses data loop)) :
    RunInRange received data loop ↔ RunInRange received data next := by
  have unrolled (fuel : ℕ) : runAccesses data (fuel + 1) loop =
      iterationAccesses data loop ++ runAccesses data fuel next := by
    rw [runAccesses, if_pos unread, step]
  constructor
  · intro run fuel
    have later := run (fuel + 1)
    rw [unrolled] at later
    exact (allInRange_append.mp later).2
  · intro run fuel
    cases fuel with
    | zero => exact allInRange_nil
    | succ fuel =>
      rw [unrolled]
      exact allInRange_append.mpr ⟨accesses, run fuel⟩

/-- A continued body takes as much from one counter as it adds to the other. -/
theorem Tracks.continueBody (tracks : Tracks received loop)
    (inBody : reader.InBody loop.session tag length held) (pending : Pending data loop rest)
    (step : codec.iteration data loop = .ok (.again next)) : Tracks received next := by
  have within := inBody.held_le
  have limit := inBody.limit
  have count := pending.count
  have bound := pending.bound
  simp only [maxLength] at limit bound
  rw [Codec.iteration, inBody.flag, if_pos rfl, inBody.node] at step
  obtain ⟨fits, left, moved⟩ := continueBody_again step
  simp only [bodyNode] at fits left moved
  rw [toSizeT_of_range (by omega) (by omega)] at fits
  rw [toSizeT_of_range (by omega) (by omega)] at left
  have consumes : Consumes loop next (length - held.length) := ⟨by omega, by omega⟩
  exact tracks.consumes consumes

/-- Inside a body a run stays in range, also when it never ends. -/
theorem inBody_inRange (inBody : reader.InBody loop.session tag length held)
    (pending : Pending data loop rest) (tracks : Tracks received loop) : RunInRange received data loop := by
  intro fuel
  induction fuel generalizing loop held rest with
  | zero => exact allInRange_nil
  | succ fuel ih =>
    have within := inBody.held_le
    have limit := inBody.limit
    rw [runAccesses]
    split_ifs with unread
    swap
    · exact allInRange_nil
    refine allInRange_append.mpr ⟨continueBody_inRange inBody tracks, ?_⟩
    by_cases more : held.length + rest.length < length
    · obtain ⟨next, step, -⟩ := iteration_moreBody inBody pending more
      have returned : codec.iteration data loop = _ := step
      rw [returned]
      exact allInRange_nil
    · obtain ⟨last, after, body, step, -, atEnd, pendingLast, -⟩ :=
        iteration_reachedEnd inBody pending (Nat.le_of_not_lt more)
      have frameDone : codec.iteration data loop = .ok last.frameDone := step
      cases done : last.frameDone with
      | returned _ =>
        rw [frameDone, done]
        exact allInRange_nil
      | again next =>
        rw [done] at frameDone
        have onward := tracks.continueBody inBody pending frameDone
        rw [frameDone]
        cases again_of_frameDone done
        exact ih atEnd pendingLast onward

/-- A header that the checks reject is followed by nothing, or by a node of negative length. -/
private theorem rejected_inRange (atHead : reader.AtHead loop.session held)
    (pending : Pending data loop rest) (tracks : Tracks received loop) (unread : 0 < rest.length)
    (same : head ++ more = held ++ rest) (whole : head.length = reader.format.headLength)
    (reject : reader.format.verdict head = .reject) :
    RunInRange received data loop ↔ RefusedHead head := by
  obtain ⟨fill, split, rfl⟩ := head_split same (by rw [whole]; exact atHead.short)
  obtain ⟨access, behind, room, accesses, first, -, -⟩ :=
    wholeHead_inRange atHead pending tracks split whole
  by_cases refused : RefusedHead head
  · refine iff_of_true (runInRange_of_left ?_ ?_) refused
    · obtain ⟨next, step⟩ := iteration_refusedHead atHead pending same whole reject refused
      intro other again
      cases step.symm.trans again
    · have refusal : header (head.map some ++ room) = .ok none :=
        reader.refuse room whole reject refused
      rw [accesses, refusal]
      exact allInRange_cons.mpr ⟨first, allInRange_nil⟩
  · refine iff_of_false (fun run => ?_) refused
    obtain ⟨tag, length, fields, -, negative⟩ := asyncServer_uncaught.header room whole reject refused
    have accepted : header (head.map some ++ room) = .ok (some (tag, length)) := fields
    have all := run.iteration (by rw [pending.count]; exact unread)
    rw [accesses, accepted] at all
    exact negative_outOfRange negative (allInRange_cons.mp all).2

/-- The accesses of the iteration that reads an accepted header. -/
private theorem accepted_inRange (atHead : reader.AtHead loop.session held)
    (pending : Pending data loop rest) (tracks : Tracks received loop)
    (same : head ++ more = held ++ rest) (whole : head.length = reader.format.headLength)
    (verdict : reader.format.verdict head = .accept tag length) :
    AllInRange received (iterationAccesses data loop) := by
  obtain ⟨fill, split, rfl⟩ := head_split same (by rw [whole]; exact atHead.short)
  obtain ⟨access, behind, room, accesses, first, -, onward⟩ :=
    wholeHead_inRange atHead pending tracks split whole
  have accepted : header (head.map some ++ room) = .ok (some (tag, (length : ℤ))) :=
    reader.accept room whole verdict
  rw [accesses, accepted]
  exact allInRange_cons.mpr ⟨first, startBody_inRange onward (reader.accept_bound verdict)⟩

/-- From the head of a frame, a run stays in range exactly when the parse of the held and the
unread bytes stops only at a head that the checks refuse. -/
theorem runInRange_iff (bytes : List UInt8) : ∀ {loop : ReceiveLoop} {held rest : List UInt8},
    bytes = held ++ rest → 0 < rest.length → reader.AtHead loop.session held →
      Pending data loop rest → Tracks received loop →
        (RunInRange received data loop ↔
          ∀ head, (reader.format.parse bytes).rejected = some head → RefusedHead head) := by
  induction bytes using reader.format.stream_induction with
  | short bytes less =>
    intro loop held rest same unread atHead pending tracks
    rw [same, List.length_append] at less
    refine iff_of_true (runInRange_of_left ?_ (partialHead_inRange atHead pending tracks less)) ?_
    · obtain ⟨next, step, -⟩ := iteration_partialHead atHead pending less
      intro other again
      cases step.symm.trans again
    · intro head stops
      rw [parse_short (by rw [same, List.length_append]; exact less)] at stops
      cases stops
  | reject head more whole reject =>
    intro loop held rest same unread atHead pending tracks
    rw [rejected_inRange atHead pending tracks unread same whole reject, parse_reject whole reject]
    constructor
    · intro refused other stops
      cases stops
      exact refused
    · exact fun heads => heads head rfl
  | unfinished head body tag length whole verdict missing =>
    intro loop held rest same unread atHead pending tracks
    refine iff_of_true (runInRange_of_left ?_
      (accepted_inRange atHead pending tracks same whole verdict)) ?_
    · obtain ⟨session, step, -⟩ := iteration_openFrame atHead pending same whole verdict missing
      intro other again
      cases step.symm.trans again
    · intro other stops
      rw [parse_open whole verdict missing] at stops
      cases stops
  | frame head body more tag whole verdict ih =>
    intro loop held rest same unread atHead pending tracks
    have accesses := accepted_inRange atHead pending tracks same whole verdict
    obtain ⟨last, step, atNext, pendingNext, -⟩ :=
      iteration_wholeFrame atHead pending same whole verdict
    have frameDone : codec.iteration data loop = .ok last.frameDone := step
    rw [Loop.frameDone, pendingNext.count] at frameDone
    rw [parse_frame whole verdict, Parsed.prepend_rejected]
    cases more with
    | nil =>
      rw [if_pos (show ([] : List UInt8).length ≤ 0 from Nat.le_refl 0)] at frameDone
      refine iff_of_true (runInRange_of_left ?_ accesses) ?_
      · intro other again
        cases frameDone.symm.trans again
      · intro other stops
        rw [parse_nil] at stops
        cases stops
    | cons byte more =>
      rw [if_neg (by simp)] at frameDone
      obtain ⟨-, count, -, consumes⟩ := (ahead_of_atHead atHead pending).again asyncServer_limited frameDone
      rw [runInRange_of_again frameDone (by rw [pending.count]; exact unread) accesses]
      exact ih rfl (by simp) atNext pendingNext (tracks.consumes consumes)

end Run

section Delivery

variable {session : Session ℤ} {completion : Completion} {tag : ℤ} {length : ℕ} {body : List UInt8}

private theorem tracks_receive (session : Session ℤ) (bytes : List UInt8) :
    Tracks bytes.length (⟨session, bytes.length, 0, []⟩ : ReceiveLoop) :=
  ⟨Int.le_refl 0, Int.zero_add _⟩

theorem safeRead_iff (atHead : reader.AtHead session held) (completion : Completion) :
    SafeRead session completion ↔
      ∀ head, (reader.format.parse (held ++ completion.bytes)).rejected = some head →
        RefusedHead head :=
  runInRange_iff _ rfl completion.nonempty atHead (.receive reader session completion)
    (tracks_receive session completion.bytes)

/-- A handler whose accesses stay in range does not fail. -/
theorem returns_of_safeRead (atHead : reader.AtHead session held) (safe : SafeRead session completion) :
    ∃ done, ∀ fuel, completion.bytes.length < fuel →
      codec.handleRead fuel session (some completion.bytes) = some (.ok done) := by
  obtain ⟨result, agrees, returns⟩ := handleRead_agrees atHead completion fun _ _ _ => trivial
  have heads := (safeRead_iff atHead completion).mp safe
  rw [Agrees] at agrees
  split at agrees
  · obtain ⟨next, rfl, -⟩ := agrees
    exact ⟨_, returns⟩
  · next head rejected =>
    obtain ⟨next, rfl⟩ := agrees.1 (heads head rejected)
    exact ⟨_, returns⟩

/-- Inside a body every delivery is safe: it comes to the end of the body, or it is stuck behind it. -/
theorem safe_inBody (completions : List Completion) :
    ∀ {session : Session ℤ} {held : List UInt8}, reader.InBody session tag length held →
      Safe session completions := by
  induction completions with
  | nil =>
    intro session held inBody
    trivial
  | cons completion rest ih =>
    intro session held inBody
    refine ⟨inBody_inRange inBody (.receive reader session completion)
      (tracks_receive session completion.bytes), fun fuel next returned reading => ?_⟩
    obtain ⟨more, inside⟩ := inBody.returned returned
    exact ih inside

/-- The stream goes on behind a body that is cut. -/
def Overruns (held : List UInt8) (completions : List Completion) : Prop :=
  ∃ count missing,
    Spec.asyncServer.openBody (held ++ stream (completions.take count)) = some missing ∧
      missing < (stream (completions.drop count)).length

private theorem overruns_cons {rest : List Completion} (short : held.length < reader.format.headLength)
    (accepted : (reader.format.parse (held ++ completion.bytes)).rejected = none) :
    Overruns held (completion :: rest) ↔
      Overruns (reader.format.parse (held ++ completion.bytes)).tail rest := by
  constructor
  · rintro ⟨_ | count, missing, cut, beyond⟩
    · exact absurd cut (no_cut_at_head short)
    · exact ⟨count, missing, (openBody_later accepted count).symm.trans cut, beyond⟩
  · rintro ⟨count, missing, cut, beyond⟩
    exact ⟨count + 1, missing, (openBody_later accepted count).trans cut, beyond⟩

/-- A begun body is overrun, or nothing behind it is rejected. -/
private theorem overruns_or_heads {head : List UInt8} (whole : head.length = reader.format.headLength)
    (verdict : reader.format.verdict head = .accept tag length) (missing : body.length < length)
    (completions : List Completion) :
    Overruns (head ++ body) completions ∨ ∀ other,
      (reader.format.parse (head ++ body ++ stream completions)).rejected = some other →
        RefusedHead other := by
  by_cases fits : (stream completions).length ≤ length - body.length
  · exact Or.inr ((clean_open whole verdict missing).mpr fits).heads
  · refine Or.inl ⟨0, length - body.length, ?_, Nat.lt_of_not_le fits⟩
    rw [List.take_zero, stream_nil, List.append_nil]
    exact openBody_open whole verdict missing

/-- From the head of a frame, a delivery is safe exactly when the stream overruns a body that was
cut, or stops only at a head that the checks refuse. -/
theorem safe_atHead (completions : List Completion) :
    ∀ {session : Session ℤ} {held : List UInt8}, reader.AtHead session held →
      (Safe session completions ↔ Overruns held completions ∨ ∀ head,
        (reader.format.parse (held ++ stream completions)).rejected = some head → RefusedHead head) := by
  induction completions with
  | nil =>
    intro session held atHead
    refine iff_of_true trivial (Or.inr fun head stops => ?_)
    rw [stream_nil, List.append_nil, parse_short atHead.short] at stops
    cases stops
  | cons completion rest ih =>
    intro session held atHead
    have short := atHead.short
    rw [Safe, safeRead_iff atHead, stream_cons, ← List.append_assoc]
    cases rejected : (reader.format.parse (held ++ completion.bytes)).rejected with
    | some head =>
      have uncut : ¬ Overruns held (completion :: rest) := by
        rintro ⟨count, missing, cut, -⟩
        cases (openBody_after_reject short rejected count).symm.trans cut
      rw [or_iff_right uncut, (parse_append_rejected rejected (stream rest)).2]
      constructor
      · exact And.left
      · intro heads
        refine ⟨heads, fun fuel next returned reading => ?_⟩
        obtain ⟨accepted, -⟩ := atHead.reading (fun _ _ _ => trivial) returned reading
        cases rejected.symm.trans accepted
    | none =>
      rw [overruns_cons short rejected, parse_append rejected, Parsed.prepend_rejected]
      obtain ⟨result, agrees, returns⟩ := handleRead_agrees atHead completion fun _ _ _ => trivial
      rw [Agrees, rejected] at agrees
      obtain ⟨last, rfl, holds⟩ := agrees
      have onward : (∀ fuel next,
          codec.handleRead fuel session (some completion.bytes) = some (.ok next) →
            next.reading = true → Safe next.session rest) ↔ Safe last rest := by
        constructor
        · intro later
          exact later _ _ (returns (completion.bytes.length + 1) (Nat.lt_succ_self _))
            (reading_of_rearm _ _)
        · intro safe fuel next returned reading
          cases handleRead_same returned returns
          exact safe
      rw [onward, and_iff_right (fun head stops => by cases stops)]
      rcases holds with atNext | ⟨head, body, tag, length, split, whole, verdict, missing, inBody⟩
      · exact ih atNext
      · rw [split]
        exact iff_of_true (safe_inBody rest inBody) (overruns_or_heads whole verdict missing rest)

/-- Every access of the decoder stays in range exactly when the stream goes on behind a body that
was cut, or stops only at a head that the checks refuse. -/
theorem safe_iff (completions : List Completion) :
    Safe fresh completions ↔
      (∃ count missing, Spec.asyncServer.openBody (stream (completions.take count)) = some missing ∧
        missing < (stream (completions.drop count)).length) ∨
      ∀ head, (Spec.asyncServer.parse (stream completions)).rejected = some head → RefusedHead head :=
  safe_atHead completions fresh_atHead

/-- An array of negative size; the other length, `-1`, puts the terminator before an empty array. -/
def lowestLength : List Completion := [⟨[3, 233, 128, 0], by decide, by decide⟩]

private theorem not_safe_of_reject {completion : Completion} {rest : List Completion}
    (whole : completion.bytes.length = headTotalLen)
    (reject : Spec.asyncServer.verdict completion.bytes = .reject)
    (unrefused : ¬ RefusedHead completion.bytes) : ¬ Safe fresh (completion :: rest) := by
  intro safe
  refine unrefused ((safeRead_iff fresh_atHead completion).mp safe.1 completion.bytes ?_)
  have stops := @parse_reject _ _ Spec.asyncServer completion.bytes [] whole reject
  rw [List.append_nil] at stops
  exact congrArg Parsed.rejected stops

theorem not_safe : ¬ Safe fresh negativeLength ∧ ¬ Safe fresh lowestLength := by
  constructor
  · apply not_safe_of_reject rfl (by decide +kernel)
    rintro (id | length)
    · exact absurd id (by decide +kernel)
    · exact absurd length (by decide +kernel)
  · apply not_safe_of_reject rfl (by decide +kernel)
    rintro (id | length)
    · exact absurd id (by decide +kernel)
    · exact absurd length (by decide +kernel)

end Delivery

end BoostLearn.Soundness.AsyncServer
