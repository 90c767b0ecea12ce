import BoostLearn.Soundness.AsyncServer.Decode

/-! # What AsyncServer sends, AsyncServer reads

The nodes of any list of messages, written one after the other and cut anywhere but inside a body,
are read back as the messages, and the session is then ready for another frame.
-/

namespace BoostLearn.Soundness.AsyncServer

open CInt Memory Framing Framing.Format Model Model.Wire Model.HandleRead Model.AsyncServer
open Soundness.HandleRead

/-- A message in the range of the protocol. -/
structure Outgoing where
  msgId : ℤ
  body : List UInt8
  low : -32768 ≤ msgId
  high : msgId ≤ maxLength
  bounded : body.length < maxLength

/-- The bytes of the `SendNode` of a message. -/
def Outgoing.wire (message : Outgoing) : Except Fault (List UInt8) := do
  let node ← SendNode.new message.body message.body.length message.msgId
  node.written

/-- The bytes of the nodes of a list of messages, one after the other. -/
def wires : List Outgoing → Except Fault (List UInt8)
  | [] => return []
  | message :: rest => do
    let bytes ← message.wire
    return bytes ++ (← wires rest)

def Outgoing.frame (message : Outgoing) : List UInt8 :=
  bigEndianBytes message.msgId ++ bigEndianBytes message.body.length ++ message.body

theorem Outgoing.wire_eq (message : Outgoing) : message.wire = .ok message.frame := by
  have bounded := message.bounded
  simp only [maxLength] at bounded
  obtain ⟨node, built, written⟩ := SendNode.written_of_fits (Nat.le_refl message.body.length)
    (by simp only [headTotalLen]; omega) message.msgId
  rw [Outgoing.wire, bind_of_ok built, written, List.take_length]
  rfl

/-- Every message in the range of the protocol has a node. -/
theorem wires_eq (messages : List Outgoing) : wires messages = .ok (messages.flatMap Outgoing.frame) := by
  induction messages with
  | nil => rfl
  | cons message rest ih =>
    rw [wires, bind_of_ok message.wire_eq, bind_of_ok ih, List.flatMap_cons]
    rfl

def Outgoing.message (message : Outgoing) : ℤ × List UInt8 := (message.msgId, message.body)

/-- A concatenation of frames parses into the messages. -/
theorem parse_frames (messages : List Outgoing) :
    Spec.asyncServer.parse (messages.flatMap Outgoing.frame) =
      ⟨messages.map Outgoing.message, none, []⟩ := by
  induction messages with
  | nil => exact parse_nil
  | cons message rest ih =>
    have verdict := Spec.asyncServer_of_limits message.low message.high
      (Nat.le_of_lt message.bounded)
    rw [List.flatMap_cons, Outgoing.frame, List.append_assoc, parse_frame rfl verdict, ih]
    rfl

/-- Every handler returns, exactly the messages are posted, in order, and the session is left
between two frames. -/
def Reads (completions : List Completion) (messages : List Outgoing) : Prop :=
  ∃ done bound, (∀ fuel, bound < fuel →
      codec.deliver fuel ⟨fresh, []⟩ completions = some (.ok done)) ∧
    posted done = messages.map Outgoing.message ∧
    done.session.bHeadParse = false ∧ done.session.recvHeadNode.curLen = 0

/-- The decoder inverts the encoder on every cutting that spares the bodies. -/
theorem reads_of_wires (messages : List Outgoing) (completions : List Completion)
    (sent : wires messages = .ok (stream completions))
    (uncut : ∀ count, Spec.asyncServer.openBody (stream (completions.take count)) = none) :
    Reads completions messages := by
  have parsed : Spec.asyncServer.parse (stream completions) =
      ⟨messages.map Outgoing.message, none, []⟩ := by
    have same := (wires_eq messages).symm.trans sent
    rw [← Except.ok.inj same, parse_frames]
  have whole : reader.format.parse ([] ++ stream completions) = _ := parsed
  obtain ⟨next, extra, atHead, delivered, outs⟩ := Reader.deliver_uncut [] fresh_atHead
    (by rw [whole]) uncut
  rw [whole] at atHead outs
  exact ⟨⟨next, extra⟩, maxLength, delivered, outs.trans (List.map_id _), atHead.flag, atHead.cursor⟩

/-- A message whose header is cut and an empty one. -/
def twoMessages : List Outgoing :=
  [⟨1001, [65], by decide, by decide, by decide⟩, ⟨-1, [], by decide, by decide, by decide⟩]

def cutHeader : List Completion :=
  [⟨[3], by decide, by decide⟩, ⟨[233, 0, 1, 65, 255, 255, 0, 0], by decide, by decide⟩]

private theorem openBody_of_short (count : ℕ) :
    Spec.asyncServer.openBody (stream (cutHeader.take count)) = none := by
  match count with
  | 0 => exact openBody_short (by decide)
  | 1 => exact openBody_short (by decide)
  | count + 2 =>
    have same : stream (cutHeader.take (count + 2)) = twoMessages.flatMap Outgoing.frame := by
      rw [List.take_of_length_le (show cutHeader.length ≤ count + 2 from Nat.le_add_left 2 count)]
      rfl
    apply openBody_of_tail
    rw [same, parse_frames]
    exact Spec.asyncServer.headLength_pos

theorem reads_of_wires_two : Reads cutHeader twoMessages :=
  reads_of_wires twoMessages cutHeader (by rw [wires_eq]; rfl) openBody_of_short

end BoostLearn.Soundness.AsyncServer
