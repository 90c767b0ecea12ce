import BoostLearn.Core.Framing
import BoostLearn.Model.HandleRead

/-! # What one run of the receive loop does

A reader pairs a codec with the format it reads. Starting between two frames or inside a header,
the loop takes exactly the frames of the reference parse of the held and the received bytes, and
returns holding the tail of that parse, unless the parse stops at a head the codec does not
refuse. A body that is continued by a later read is completed by another branch, after which the
next received byte sends the loop round for ever.
-/

namespace BoostLearn.Soundness.HandleRead

open CInt Memory Framing Framing.Format Model Model.HandleRead

/-- A codec that agrees with a format on every head the format accepts. A rejected head may be
refused by the codec's own checks, or have a length no node can be built for. -/
structure Reader (τ ε : Type) where
  codec : Codec τ ε
  format : Format UInt8 τ
  refused : List UInt8 → Prop
  faulty : List UInt8 → Prop
  last : Option UInt8
  early : τ → List UInt8 → ε
  late : τ → List UInt8 → ε
  headLen : codec.headLen = format.headLength
  headLength_small : format.headLength ≤ maxLength
  narrow : ∀ value : ℕ, value ≤ maxLength → codec.narrow value = value
  accept_bound : ∀ {head : List UInt8} {tag : τ} {length : ℕ},
    format.verdict head = .accept tag length → length ≤ maxLength
  accept : ∀ {head : List UInt8} {tag : τ} {length : ℕ} (rest : Cells),
    head.length = format.headLength → format.verdict head = .accept tag length →
      codec.header (head.map some ++ rest) = .ok (some (tag, (length : ℤ)))
  refuse : ∀ {head : List UInt8} (rest : Cells), head.length = format.headLength →
    format.verdict head = .reject → refused head → codec.header (head.map some ++ rest) = .ok none
  fault : ∀ {head : List UInt8} (rest : Cells), head.length = format.headLength →
    format.verdict head = .reject → ¬ refused head → faulty head → ∃ tag length fault,
      codec.header (head.map some ++ rest) = .ok (some (tag, length)) ∧
        codec.newNode length = .error fault
  newNode : ∀ {length : ℕ}, length ≤ maxLength →
    codec.newNode length = .ok ⟨0, length, List.replicate length none ++ [last]⟩
  complete : ∀ (tag : τ) {body : List UInt8}, body.length ≤ maxLength →
    codec.complete ⟨⟨body.length, body.length, body.map some ++ [some 0]⟩, tag⟩ =
      .ok (early tag body)
  continued : ∀ (tag : τ) {body : List UInt8}, body.length ≤ maxLength →
    codec.continued ⟨⟨body.length, body.length, body.map some ++ [last]⟩, tag⟩ = .ok (late tag body)

/-- The received bytes a loop has not consumed yet, at their place in the buffer. -/
structure Pending {τ ε : Type} (data : Cells) (loop : Loop τ ε) (rest : List UInt8) : Prop where
  count : loop.byteTransfered = rest.length
  bound : rest.length ≤ maxLength
  position : ∃ before after, data = before ++ (rest.map some ++ after) ∧
    loop.copyLen = (before.length : ℤ)

namespace Pending

variable {τ ε : Type} {data : Cells} {loop : Loop τ ε} {bytes rest : List UInt8}

theorem memcpy (pending : Pending data loop (bytes ++ rest)) (held : List UInt8) (room : Cells)
    (fits : bytes.length ≤ room.length) :
    Memory.memcpy (held.map some ++ room) held.length data loop.copyLen bytes.length =
      .ok ((held ++ bytes).map some ++ room.drop bytes.length) := by
  obtain ⟨before, after, layout, cursor⟩ := pending.position
  rw [layout, cursor, List.map_append, List.append_assoc]
  exact memcpy_append fits

theorem memcpy_all (pending : Pending data loop rest) (held : List UInt8) (room : Cells)
    (fits : rest.length ≤ room.length) :
    Memory.memcpy (held.map some ++ room) held.length data loop.copyLen loop.byteTransfered =
      .ok ((held ++ rest).map some ++ room.drop rest.length) := by
  rw [← List.append_nil rest] at pending
  rw [pending.count, List.append_nil]
  exact pending.memcpy held room fits

/-- Copying a prefix out advances both cursors by its length. -/
theorem advance (pending : Pending data loop (bytes ++ rest)) (session : Session τ)
    (effects : List (Effect ε)) :
    Pending data ⟨session, toSizeT (loop.byteTransfered - bytes.length),
      loop.copyLen + bytes.length, effects⟩ rest := by
  have bound := pending.bound
  simp only [List.length_append, maxLength] at bound
  obtain ⟨before, after, layout, cursor⟩ := pending.position
  refine ⟨?_, by simp only [maxLength]; omega, before ++ bytes.map some, after, ?_, ?_⟩
  · change toSizeT (loop.byteTransfered - bytes.length) = rest.length
    rw [pending.count, List.length_append, toSizeT_of_range (by omega) (by omega)]
    omega
  · rw [layout]
    simp only [List.map_append, List.append_assoc]
  · rw [cursor]
    simp only [List.length_append, List.length_map, Int.natCast_add]

end Pending

/-- A completion starts the loop at the front of the receive buffer. -/
theorem Pending.receive {τ ε : Type} (_ : Reader τ ε) (session : Session τ)
    (completion : Completion) :
    Pending (Codec.receiveBuffer completion.bytes)
      (⟨session, completion.bytes.length, 0, []⟩ : Loop τ ε) completion.bytes :=
  ⟨rfl, completion.bounded, [], _, rfl, rfl⟩

namespace Reader

variable {τ ε : Type} (reader : Reader τ ε)

/-- Between frames or inside a header, with these bytes of the header held. -/
structure AtHead (session : Session τ) (held : List UInt8) : Prop where
  flag : session.bHeadParse = false
  cursor : session.recvHeadNode.curLen = held.length
  size : session.recvHeadNode.maxLen = reader.format.headLength
  layout : ∃ room : Cells, session.recvHeadNode.data = held.map some ++ room ∧
    held.length + room.length = reader.format.headLength + 1
  short : held.length < reader.format.headLength

/-- A body node that holds these bytes. -/
def bodyNode (tag : τ) (length : ℕ) (held : List UInt8) : RecvNode τ where
  curLen := held.length
  maxLen := length
  data := held.map some ++ (List.replicate (length - held.length) none ++ [reader.last])
  msgId := tag

/-- Inside a body, or at its end when nothing of it is missing. -/
structure InBody (session : Session τ) (tag : τ) (length : ℕ) (held : List UInt8) : Prop where
  flag : session.bHeadParse = true
  node : session.recvMsgNode = some (reader.bodyNode tag length held)
  held_le : held.length ≤ length
  limit : length ≤ maxLength

variable {reader} {data : Cells} {loop : Loop τ ε} {held rest : List UInt8}

theorem iteration_startFrame (atHead : reader.AtHead loop.session held) :
    reader.codec.iteration data loop = reader.codec.startFrame data loop := by
  rw [Codec.iteration, atHead.flag, if_neg (by decide)]

/-- The comparison of the sizes sees whether the unread bytes complete the header. -/
theorem AtHead.partial_iff (atHead : reader.AtHead loop.session held)
    (pending : Pending data loop rest) :
    toSizeT (loop.byteTransfered + loop.session.recvHeadNode.curLen) < toSizeT reader.codec.headLen ↔
      held.length + rest.length < reader.format.headLength := by
  have short := atHead.short
  have small := reader.headLength_small
  have bound := pending.bound
  simp only [maxLength] at small bound
  rw [atHead.cursor, reader.headLen, pending.count, toSizeT_of_range (by omega) (by omega),
    toSizeT_of_range (by omega) (by omega)]
  omega

/-- A read that ends inside the header only fills the head node. -/
theorem iteration_partialHead (atHead : reader.AtHead loop.session held)
    (pending : Pending data loop rest)
    (less : held.length + rest.length < reader.format.headLength) :
    ∃ session, reader.codec.iteration data loop =
        .ok (.returned ⟨session, loop.effects ++ [.asyncReadSome]⟩) ∧
      reader.AtHead session (held ++ rest) := by
  have small := reader.headLength_small
  have bound := pending.bound
  obtain ⟨room, layout, allocated⟩ := atHead.layout
  have copied := pending.memcpy_all held room (by omega)
  have narrowed := reader.narrow (held.length + rest.length) (by omega)
  rw [iteration_startFrame atHead, Codec.startFrame]
  dsimp only
  rw [if_pos ((atHead.partial_iff pending).mpr less)]
  simp only [atHead.cursor, layout, copied, bind, Except.bind]
  refine ⟨_, rfl, atHead.flag, ?_, atHead.size, ⟨_, rfl, ?_⟩, ?_⟩
  · simpa only [pending.count, List.length_append, Int.natCast_add] using narrowed
  · simp only [List.length_append, List.length_drop]
    omega
  · simp only [List.length_append]
    omega

/-- A read that completes the header goes on behind it. -/
theorem iteration_wholeHead {head fill : List UInt8} (atHead : reader.AtHead loop.session held)
    (pending : Pending data loop (fill ++ rest)) (split : head = held ++ fill)
    (whole : head.length = reader.format.headLength) :
    ∃ next room, reader.codec.iteration data loop =
        (do match ← reader.codec.header (head.map some ++ room) with
          | none => return next.clearServer
          | some (msgId, msgLen) => reader.codec.startBody data next msgId msgLen) ∧
      next.effects = loop.effects ∧ Pending data next rest ∧
      next.session.bHeadParse = false ∧
      next.session.recvHeadNode.maxLen = reader.format.headLength ∧
      next.session.recvHeadNode.data.length = reader.format.headLength + 1 := by
  have small := reader.headLength_small
  obtain ⟨room, layout, allocated⟩ := atHead.layout
  simp only [maxLength] at small
  rw [split, List.length_append] at whole
  have complete : ¬ toSizeT (loop.byteTransfered + loop.session.recvHeadNode.curLen) <
      toSizeT reader.codec.headLen := by
    rw [atHead.partial_iff pending, List.length_append]
    omega
  have remind : reader.codec.headLen - loop.session.recvHeadNode.curLen = fill.length := by
    rw [reader.headLen, atHead.cursor]
    omega
  have filled : toSizeT (fill.length : ℤ) = fill.length := toSizeT_natCast (by omega)
  have copied := pending.memcpy held room (by omega)
  rw [iteration_startFrame atHead, Codec.startFrame, split]
  dsimp only
  rw [if_neg complete]
  simp only [remind, filled]
  simp only [atHead.cursor, layout, copied, bind, Except.bind]
  refine ⟨_, _, rfl, rfl, pending.advance _ _, atHead.flag, atHead.size, ?_⟩
  simp only [List.length_append, List.length_map, List.length_drop]
  omega

theorem startBody_fault (tag : τ) {length : ℤ} {fault : Fault}
    (failed : reader.codec.newNode length = .error fault) :
    reader.codec.startBody data loop tag length = .error fault := by
  simp only [Codec.startBody, failed, bind, Except.bind]

private theorem body_room (length : ℕ) (last : Option UInt8) {count : ℕ} (le : count ≤ length) :
    (List.replicate length none ++ [last]).drop count =
      List.replicate (length - count) none ++ [last] := by
  rw [List.drop_append_of_le_length (by rwa [List.length_replicate]), List.drop_replicate]

/-- A body that does not end in the read of its header is held and marked as begun. -/
theorem startBody_open (tag : τ) {length : ℕ} (pending : Pending data loop rest)
    (missing : rest.length < length) (limit : length ≤ maxLength) :
    ∃ session, reader.codec.startBody data loop tag length =
        .ok (.returned ⟨session, loop.effects ++ [.asyncReadSome]⟩) ∧
      reader.InBody session tag length rest := by
  have copied := pending.memcpy_all [] (List.replicate length none ++ [reader.last])
    (by simp only [List.length_append, List.length_replicate]; omega)
  rw [body_room length _ (Nat.le_of_lt missing)] at copied
  have narrowed := reader.narrow rest.length (by omega)
  simp only [maxLength] at limit
  simp only [List.map_nil, List.nil_append, List.length_nil, Int.natCast_zero] at copied
  simp only [Codec.startBody, reader.newNode limit, bind, Except.bind]
  rw [if_pos (by rw [pending.count, toSizeT_of_range] <;> omega), copied]
  refine ⟨_, rfl, rfl, ?_, Nat.le_of_lt missing, limit⟩
  simp only [bodyNode, pending.count, narrowed, Int.zero_add]

/-- A body that ends in the read of its header is emitted, and the decoder is reset. -/
theorem startBody_whole (tag : τ) {body : List UInt8} (pending : Pending data loop (body ++ rest))
    (limit : body.length ≤ maxLength)
    (size : loop.session.recvHeadNode.maxLen = reader.format.headLength)
    (allocated : loop.session.recvHeadNode.data.length = reader.format.headLength + 1) :
    ∃ next, reader.codec.startBody data loop tag body.length = .ok next.frameDone ∧
      reader.AtHead next.session [] ∧ Pending data next rest ∧
      next.effects = loop.effects ++ [.emit (reader.early tag body) ⟨false, 0, some 0⟩] := by
  have small := reader.headLength_small
  have bound := pending.bound
  have copied := pending.memcpy [] (List.replicate body.length none ++ [reader.last]) (by simp)
  rw [body_room body.length _ (Nat.le_refl _)] at copied
  have narrowed := reader.narrow body.length limit
  have finished := reader.complete tag limit
  simp only [List.map_nil, List.nil_append, List.length_nil, Int.natCast_zero, Nat.sub_self,
    List.replicate_zero] at copied
  simp only [List.length_append, maxLength] at limit bound small
  have counted : toSizeT (body.length : ℤ) = body.length := toSizeT_natCast (by omega)
  have cleared : loop.session.recvHeadNode.clear = .ok ⟨0, reader.format.headLength,
      List.replicate reader.format.headLength (some 0) ++
        loop.session.recvHeadNode.data.drop reader.format.headLength⟩ := by
    rw [MsgNode.clear, size, toSizeT_of_range (by omega) (by omega), Int.toNat_natCast, memset,
      if_pos (by omega)]
    rfl
  simp only [Codec.startBody, reader.newNode limit, bind, Except.bind]
  rw [if_neg (by rw [pending.count, counted, List.length_append]; omega)]
  simp only [counted, copied, store_last, Int.zero_add, narrowed, finished, cleared]
  refine ⟨_, rfl, ⟨rfl, rfl, rfl, ⟨List.replicate _ (some 0) ++ _, rfl, ?_⟩,
    reader.format.headLength_pos⟩, pending.advance _ _, ?_⟩
  · simp only [List.length_nil, List.length_append, List.length_replicate, List.length_drop]
    omega
  · simp [Session.frameEnd]

theorem head_split {head more held rest : List UInt8} (same : head ++ more = held ++ rest)
    (less : held.length < head.length) : ∃ fill, head = held ++ fill ∧ rest = fill ++ more := by
  rcases List.append_eq_append_iff.mp same with ⟨fill, rfl, _⟩ | ⟨fill, rfl, rfl⟩
  · simp only [List.length_append] at less
    omega
  · exact ⟨fill, rfl, rfl⟩

section Head

variable {head body more : List UInt8} {tag : τ} {length : ℕ}

/-- A head that the checks refuse removes the session. -/
theorem iteration_refusedHead (atHead : reader.AtHead loop.session held)
    (pending : Pending data loop rest) (same : head ++ more = held ++ rest)
    (whole : head.length = reader.format.headLength) (verdict : reader.format.verdict head = .reject)
    (refused : reader.refused head) :
    ∃ session, reader.codec.iteration data loop =
      .ok (.returned ⟨session, loop.effects ++ [.clearServer]⟩) := by
  obtain ⟨fill, split, rfl⟩ := head_split same (by rw [whole]; exact atHead.short)
  obtain ⟨next, room, step, effects, -⟩ := iteration_wholeHead atHead pending split whole
  rw [reader.refuse room whole verdict refused] at step
  refine ⟨next.session, step.trans ?_⟩
  rw [← effects]
  rfl

/-- There is no node for a rejected head that the checks let through. -/
theorem iteration_faultyHead (atHead : reader.AtHead loop.session held)
    (pending : Pending data loop rest) (same : head ++ more = held ++ rest)
    (whole : head.length = reader.format.headLength) (verdict : reader.format.verdict head = .reject)
    (unrefused : ¬ reader.refused head) (faulty : reader.faulty head) :
    ∃ fault, reader.codec.iteration data loop = .error fault := by
  obtain ⟨fill, split, rfl⟩ := head_split same (by rw [whole]; exact atHead.short)
  obtain ⟨next, room, step, -⟩ := iteration_wholeHead atHead pending split whole
  obtain ⟨tag, length, fault, fields, failed⟩ := reader.fault room whole verdict unrefused faulty
  rw [fields] at step
  exact ⟨fault, step.trans (startBody_fault tag failed)⟩

/-- The body of an accepted head does not end in the read of its header. -/
theorem iteration_openFrame (atHead : reader.AtHead loop.session held)
    (pending : Pending data loop rest) (same : head ++ body = held ++ rest)
    (whole : head.length = reader.format.headLength)
    (verdict : reader.format.verdict head = .accept tag length) (missing : body.length < length) :
    ∃ session, reader.codec.iteration data loop =
        .ok (.returned ⟨session, loop.effects ++ [.asyncReadSome]⟩) ∧
      reader.InBody session tag length body := by
  obtain ⟨fill, split, rfl⟩ := head_split same (by rw [whole]; exact atHead.short)
  obtain ⟨next, room, step, effects, behind, -⟩ := iteration_wholeHead atHead pending split whole
  obtain ⟨session, started, holds⟩ := startBody_open tag behind missing (reader.accept_bound verdict)
  rw [reader.accept room whole verdict] at step
  refine ⟨session, step.trans (started.trans ?_), holds⟩
  rw [effects]

/-- A frame that ends in the read of its header is emitted, and the decoder is reset. -/
theorem iteration_wholeFrame (atHead : reader.AtHead loop.session held)
    (pending : Pending data loop rest) (same : head ++ (body ++ more) = held ++ rest)
    (whole : head.length = reader.format.headLength)
    (verdict : reader.format.verdict head = .accept tag body.length) :
    ∃ next, reader.codec.iteration data loop = .ok next.frameDone ∧ reader.AtHead next.session [] ∧
      Pending data next more ∧
      next.effects = loop.effects ++ [.emit (reader.early tag body) ⟨false, 0, some 0⟩] := by
  obtain ⟨fill, split, rfl⟩ := head_split same (by rw [whole]; exact atHead.short)
  obtain ⟨next, room, step, effects, behind, -, size, allocated⟩ :=
    iteration_wholeHead atHead pending split whole
  obtain ⟨last, started, atNext, pendingLast, emits⟩ := startBody_whole tag behind
    (reader.accept_bound verdict) size allocated
  rw [reader.accept room whole verdict] at step
  exact ⟨last, step.trans started, atNext, pendingLast, by rw [emits, effects]⟩

end Head

/-- A later read that does not end the body extends what the node holds. -/
theorem iteration_moreBody {tag : τ} {length : ℕ} (inBody : reader.InBody loop.session tag length held)
    (pending : Pending data loop rest) (missing : held.length + rest.length < length) :
    ∃ session, reader.codec.iteration data loop =
        .ok (.returned ⟨session, loop.effects ++ [.asyncReadSome]⟩) ∧
      reader.InBody session tag length (held ++ rest) := by
  have limit := inBody.limit
  have copied := pending.memcpy_all held
    (List.replicate (length - held.length) none ++ [reader.last])
    (by simp only [List.length_append, List.length_replicate]; omega)
  rw [body_room _ _ (by omega)] at copied
  have narrowed := reader.narrow (held.length + rest.length) (by omega)
  simp only [maxLength] at limit
  have unfinished : loop.byteTransfered < toSizeT (length - held.length) := by
    rw [pending.count, toSizeT_of_range] <;> omega
  rw [Codec.iteration, inBody.flag, if_pos rfl, inBody.node]
  simp only [Codec.continueBody, bodyNode, bind, Except.bind, if_pos unfinished, copied]
  refine ⟨_, rfl, inBody.flag, ?_, by simp only [List.length_append]; omega, inBody.limit⟩
  simp only [bodyNode, pending.count, List.length_append, Int.natCast_add] at narrowed ⊢
  rw [narrowed, Nat.sub_sub]

/-- The read that ends a continued body emits it and leaves the flag set. -/
theorem iteration_endBody {tag : τ} (bytes : List UInt8)
    (inBody : reader.InBody loop.session tag (held ++ bytes).length held)
    (pending : Pending data loop (bytes ++ rest)) :
    ∃ next after, reader.codec.iteration data loop = .ok next.frameDone ∧
      reader.InBody next.session tag (held ++ bytes).length (held ++ bytes) ∧ Pending data next rest ∧
      after.bHeadParse = true ∧
      next.effects = loop.effects ++ [.emit (reader.late tag (held ++ bytes)) after] := by
  have limit := inBody.limit
  have bound := pending.bound
  have copied := pending.memcpy held (List.replicate bytes.length none ++ [reader.last])
    (by simp)
  rw [body_room _ _ (Nat.le_refl _), Nat.sub_self, List.replicate_zero, List.nil_append] at copied
  have narrowed := reader.narrow (held ++ bytes).length limit
  have finished := reader.continued tag limit
  simp only [List.length_append, maxLength, Int.natCast_add] at limit bound narrowed finished
  have remind : ((held.length : ℤ) + bytes.length) - held.length = bytes.length := by omega
  have counted : toSizeT (bytes.length : ℤ) = bytes.length := toSizeT_natCast (by omega)
  rw [Codec.iteration, inBody.flag, if_pos rfl, inBody.node]
  simp only [Codec.continueBody, bodyNode, bind, Except.bind, List.length_append, Int.natCast_add,
    remind, counted, Nat.add_sub_cancel_left]
  rw [if_neg (by rw [pending.count, List.length_append]; omega), copied]
  simp only [narrowed, finished]
  refine ⟨_, _, rfl, ⟨inBody.flag, ?_, Nat.le_of_eq List.length_append, ?_⟩,
    pending.advance _ _, inBody.flag, rfl⟩
  swap
  · simp only [maxLength]
    omega
  simp only [bodyNode, List.length_append, Int.natCast_add, Nat.sub_self, List.replicate_zero,
    List.nil_append]

/-- A read that reaches the end of a continued body goes on behind it, with the body complete. -/
theorem iteration_reachedEnd {tag : τ} {length : ℕ}
    (inBody : reader.InBody loop.session tag length held) (pending : Pending data loop rest)
    (reached : length ≤ held.length + rest.length) :
    ∃ next after body, reader.codec.iteration data loop = .ok next.frameDone ∧ body.length = length ∧
      reader.InBody next.session tag length body ∧
      Pending data next (rest.drop (length - held.length)) ∧
      next.effects = loop.effects ++ [.emit (reader.late tag body) after] := by
  have within := inBody.held_le
  have split := List.take_append_drop (length - held.length) rest
  have whole : (held ++ rest.take (length - held.length)).length = length := by
    rw [List.length_append, List.length_take]
    omega
  rw [← whole] at inBody
  obtain ⟨next, after, step, inside, behind, -, emits⟩ := iteration_endBody
    (rest.take (length - held.length)) inBody (by rwa [split])
  rw [whole] at inside
  exact ⟨next, after, _, step, whole, inside, behind, emits⟩

variable (reader) in
/-- What a handler that returned holds, as a tail of the bytes it has read. -/
def Holds (session : Session τ) (tail : List UInt8) : Prop :=
  reader.AtHead session tail ∨
    ∃ head body tag length, tail = head ++ body ∧ head.length = reader.format.headLength ∧
      reader.format.verdict head = .accept tag length ∧ body.length < length ∧
      reader.InBody session tag length body

variable (reader) in
/-- The calls made for frames whose bodies came in the read of their headers. -/
def emitted (frames : List (τ × List UInt8)) : List (Effect ε) :=
  frames.map fun (tag, body) => .emit (reader.early tag body) ⟨false, 0, some 0⟩

variable (reader) in
/-- The head a stream is rejected at is one of the two kinds the reader knows. -/
def Judged (bytes : List UInt8) : Prop :=
  ∀ head, (reader.format.parse bytes).rejected = some head → ¬ reader.refused head →
    reader.faulty head

variable (reader) in
/-- A handler's result agrees with a parse: its frames are emitted, and then it re-arms, removes
the session at a head the codec refuses, or fails at one it does not refuse. -/
def Agrees (result : Except Fault (Done τ ε)) (effects : List (Effect ε))
    (parsed : Parsed UInt8 τ) : Prop :=
  match parsed.rejected with
  | none => ∃ session,
      result = .ok ⟨session, effects ++ (reader.emitted parsed.frames ++ [.asyncReadSome])⟩ ∧
        reader.Holds session parsed.tail
  | some head =>
    (reader.refused head → ∃ session,
      result = .ok ⟨session, effects ++ (reader.emitted parsed.frames ++ [.clearServer])⟩) ∧
    (¬ reader.refused head → ∃ fault, result = .error fault)

theorem Agrees.prepend {result : Except Fault (Done τ ε)} {effects : List (Effect ε)}
    {parsed : Parsed UInt8 τ} {tag : τ} {body : List UInt8}
    (agrees : reader.Agrees result
      (effects ++ [.emit (reader.early tag body) ⟨false, 0, some 0⟩]) parsed) :
    reader.Agrees result effects (parsed.prepend [(tag, body)]) := by
  have calls (last : Effect ε) :
      effects ++ [.emit (reader.early tag body) ⟨false, 0, some 0⟩] ++
        (reader.emitted parsed.frames ++ [last]) =
          effects ++ (reader.emitted (parsed.prepend [(tag, body)]).frames ++ [last]) := by
    simp [emitted]
  simpa only [Agrees, calls, Parsed.prepend_rejected, Parsed.prepend_tail] using agrees

/-- An iteration that leaves the handler decides the result, for every positive fuel. -/
theorem runLoop_of_return {result : Except Fault (Done τ ε)} {fuel : ℕ}
    (pending : Pending data loop rest) (more : 0 < rest.length)
    (step : reader.codec.iteration data loop = result.map .returned) (enough : 0 < fuel) :
    reader.codec.runLoop data fuel loop = some result := by
  obtain ⟨fuel, rfl⟩ : ∃ less, fuel = less + 1 := ⟨fuel - 1, by omega⟩
  rw [Codec.runLoop, if_pos (by rw [pending.count]; exact more), step]
  cases result <;> rfl

theorem runLoop_of_again {next : Loop τ ε} {fuel : ℕ} (pending : Pending data loop rest)
    (more : 0 < rest.length) (step : reader.codec.iteration data loop = .ok (.again next)) :
    reader.codec.runLoop data (fuel + 1) loop = reader.codec.runLoop data fuel next := by
  rw [Codec.runLoop, if_pos (by rw [pending.count]; exact more), step]

variable (reader) in
/-- The loop ends with a result that agrees with a parse, as soon as its fuel exceeds a bound. -/
def Settles (data : Cells) (loop : Loop τ ε) (parsed : Parsed UInt8 τ) (bound : ℕ) : Prop :=
  ∃ result, reader.Agrees result loop.effects parsed ∧
    ∀ fuel, bound < fuel → reader.codec.runLoop data fuel loop = some result

section Settles

variable {held head body more : List UInt8} {tag : τ} {length : ℕ}

/-- The unread bytes do not complete a header. -/
private theorem settles_short (atHead : reader.AtHead loop.session held)
    (pending : Pending data loop rest) (unread : 0 < rest.length)
    (short : (held ++ rest).length < reader.format.headLength) :
    reader.Settles data loop (reader.format.parse (held ++ rest)) rest.length := by
  obtain ⟨session, step, holds⟩ := iteration_partialHead atHead pending
    (by simpa only [List.length_append] using short)
  rw [parse_short short]
  exact ⟨.ok ⟨session, _⟩, ⟨session, rfl, Or.inl holds⟩, fun fuel enough =>
    runLoop_of_return pending unread step (by omega)⟩

/-- The header is rejected, by the codec or by the allocation of the body. -/
private theorem settles_rejected (atHead : reader.AtHead loop.session held)
    (pending : Pending data loop rest) (unread : 0 < rest.length) (same : head ++ more = held ++ rest)
    (whole : head.length = reader.format.headLength) (verdict : reader.format.verdict head = .reject)
    (judged : reader.Judged (head ++ more)) :
    reader.Settles data loop (reader.format.parse (head ++ more)) rest.length := by
  have stops : (reader.format.parse (head ++ more)).rejected = some head := by
    rw [parse_reject whole verdict]
  rw [parse_reject whole verdict]
  by_cases refused : reader.refused head
  · obtain ⟨session, step⟩ := iteration_refusedHead atHead pending same whole verdict refused
    exact ⟨.ok ⟨session, _⟩, ⟨fun _ => ⟨session, rfl⟩, absurd refused⟩, fun fuel enough =>
      runLoop_of_return pending unread step (by omega)⟩
  · obtain ⟨fault, step⟩ := iteration_faultyHead atHead pending same whole verdict refused
      (judged head stops refused)
    exact ⟨.error fault, ⟨fun other => absurd other refused, fun _ => ⟨fault, rfl⟩⟩, fun fuel enough =>
      runLoop_of_return pending unread step (by omega)⟩

/-- The unread bytes end inside the body. -/
private theorem settles_unfinished (atHead : reader.AtHead loop.session held)
    (pending : Pending data loop rest) (unread : 0 < rest.length) (same : head ++ body = held ++ rest)
    (whole : head.length = reader.format.headLength)
    (verdict : reader.format.verdict head = .accept tag length) (missing : body.length < length) :
    reader.Settles data loop (reader.format.parse (head ++ body)) rest.length := by
  obtain ⟨session, step, holds⟩ := iteration_openFrame atHead pending same whole verdict missing
  rw [parse_open whole verdict missing]
  exact ⟨.ok ⟨session, _⟩, ⟨session, rfl, Or.inr ⟨head, body, tag, length, rfl, whole, verdict,
    missing, holds⟩⟩, fun fuel enough => runLoop_of_return pending unread step (by omega)⟩

end Settles

/-- From the head of a frame, the loop is the reference parse of the held and the unread bytes. -/
theorem runLoop_agrees (bytes : List UInt8) : ∀ {loop : Loop τ ε} {held rest : List UInt8},
    bytes = held ++ rest → 0 < rest.length → reader.AtHead loop.session held →
      Pending data loop rest → reader.Judged bytes →
        reader.Settles data loop (reader.format.parse bytes) rest.length := by
  induction bytes using reader.format.stream_induction with
  | short bytes less =>
    intro loop held rest same unread atHead pending judged
    rw [same] at less ⊢
    exact settles_short atHead pending unread less
  | reject head more whole verdict =>
    intro loop held rest same unread atHead pending judged
    exact settles_rejected atHead pending unread same whole verdict judged
  | unfinished head body tag length whole verdict missing =>
    intro loop held rest same unread atHead pending judged
    exact settles_unfinished atHead pending unread same whole verdict missing
  | frame head body more tag whole verdict ih =>
    intro loop held rest same unread atHead pending judged
    have short := atHead.short
    have counted := congrArg List.length same
    simp only [List.length_append, whole] at counted
    obtain ⟨last, step, atNext, pendingNext, emits⟩ :=
      iteration_wholeFrame atHead pending same whole verdict
    rw [Loop.frameDone, pendingNext.count] at step
    rw [parse_frame whole verdict]
    cases more with
    | nil =>
      rw [parse_nil]
      refine ⟨.ok ⟨last.session, _⟩, Agrees.prepend ⟨last.session, rfl, Or.inl atNext⟩,
        fun fuel enough => runLoop_of_return pending unread (step.trans ?_) (by omega)⟩
      rw [← emits]
      rfl
    | cons byte more =>
      rw [Judged, parse_frame whole verdict] at judged
      obtain ⟨result, agrees, returns⟩ := ih rfl (by simp) atNext pendingNext judged
      rw [emits] at agrees
      refine ⟨result, agrees.prepend, fun fuel enough => ?_⟩
      obtain ⟨fuel, rfl⟩ : ∃ less, fuel = less + 1 := ⟨fuel - 1, by omega⟩
      rw [if_neg (by simp)] at step
      rw [runLoop_of_again pending unread step]
      exact returns fuel (by omega)

/-- Once a body has ended with the flag set, a loop that has bytes left never returns. -/
theorem runLoop_diverges {tag : τ} {body : List UInt8} (fuel : ℕ) : ∀ {loop : Loop τ ε},
    reader.InBody loop.session tag body.length body → Pending data loop rest → 0 < rest.length →
      reader.codec.runLoop data fuel loop = none := by
  induction fuel with
  | zero => intros; rfl
  | succ fuel ih =>
    intro loop inBody pending more
    obtain ⟨next, after, step, again, pendingNext, -⟩ := iteration_endBody []
      (by simpa only [List.append_nil] using inBody) pending
    rw [List.append_nil] at again
    rw [Loop.frameDone, if_neg (by rw [pendingNext.count]; omega)] at step
    rw [runLoop_of_again pending more step]
    exact ih again pendingNext more

variable {session : Session τ} {tag : τ} {length : ℕ}

/-- A read that starts at a head is the reference parse of the held and the received bytes. -/
theorem handleRead_agrees (atHead : reader.AtHead session held) (completion : Completion)
    (judged : reader.Judged (held ++ completion.bytes)) :
    ∃ result, reader.Agrees result [] (reader.format.parse (held ++ completion.bytes)) ∧
      ∀ fuel, completion.bytes.length < fuel →
        reader.codec.handleRead fuel session (some completion.bytes) = some result :=
  runLoop_agrees _ rfl completion.nonempty atHead (.receive reader session completion)
    judged

/-- A read inside a body that does not end it. -/
theorem handleRead_moreBody (inBody : reader.InBody session tag length held)
    (completion : Completion) (missing : held.length + completion.bytes.length < length) :
    ∃ next, reader.InBody next tag length (held ++ completion.bytes) ∧
      ∀ fuel, 0 < fuel → reader.codec.handleRead fuel session (some completion.bytes) =
        some (.ok ⟨next, [.asyncReadSome]⟩) := by
  have pending := Pending.receive reader session completion
  obtain ⟨next, step, holds⟩ := iteration_moreBody inBody pending missing
  exact ⟨next, holds, fun fuel enough => runLoop_of_return pending completion.nonempty step enough⟩

/-- A read that ends exactly with a continued body. -/
theorem handleRead_endBody (completion : Completion)
    (inBody : reader.InBody session tag (held ++ completion.bytes).length held) :
    ∃ next after, after.bHeadParse = true ∧
      reader.InBody next tag (held ++ completion.bytes).length (held ++ completion.bytes) ∧
      ∀ fuel, 0 < fuel → reader.codec.handleRead fuel session (some completion.bytes) =
        some (.ok ⟨next,
          [.emit (reader.late tag (held ++ completion.bytes)) after, .asyncReadSome]⟩) := by
  have pending := Pending.receive reader session completion
  obtain ⟨next, after, step, holds, pendingNext, flag, emits⟩ := iteration_endBody completion.bytes
    inBody (by rw [List.append_nil]; exact pending)
  refine ⟨next.session, after, flag, holds, fun fuel enough =>
    runLoop_of_return pending completion.nonempty (step.trans ?_) enough⟩
  rw [Loop.frameDone, if_pos (by rw [pendingNext.count]; decide), Loop.rearm, emits]
  rfl

/-- A read that goes past the end of a continued body never returns. -/
theorem handleRead_diverges (fuel : ℕ) (inBody : reader.InBody session tag length held)
    (completion : Completion) (past : length < held.length + completion.bytes.length) :
    reader.codec.handleRead fuel session (some completion.bytes) = none := by
  have fits := inBody.held_le
  have pending := Pending.receive reader session completion
  cases fuel with
  | zero => rfl
  | succ fuel =>
    obtain ⟨next, after, body, step, rfl, inside, behind, -⟩ :=
      iteration_reachedEnd inBody pending (Nat.le_of_lt past)
    have left : 0 < (completion.bytes.drop (body.length - held.length)).length := by
      rw [List.length_drop]
      omega
    rw [Loop.frameDone, if_neg (by rw [behind.count]; omega)] at step
    rw [Codec.handleRead, runLoop_of_again pending completion.nonempty step]
    exact runLoop_diverges fuel inside behind left

end Reader

end BoostLearn.Soundness.HandleRead
