import BoostLearn.Soundness.HelloWorld
import BoostLearn.Soundness.LogicSystem.Encoding
import BoostLearn.Spec.Frames

/-! # Which replies the protocol itself accepts

A request is read with a limit on its length, and its answer is written without one: the words in
front of the data and the layout of the text come on top, and the id of the reply is what a `short`
keeps of the id in the JSON text. A reply is a frame of the protocol when the text is no longer
than the limit and the id fits.
-/

namespace BoostLearn.Soundness.LogicSystem

open CInt Memory Framing Framing.Format Model Model.Wire Model.Json Model.LogicSystem
open Spec.HelloWorld Soundness.HelloWorld

/-- The frames a server reads. -/
def format : Server → Format UInt8 ℤ
  | .asyncServer => Spec.asyncServer
  | .coroutineService => Spec.coroutineService

/-- An object with an `int` and a string where a request has them. -/
structure Asks (members : List (Text × Value)) (id : ℤ) (data : Text) : Prop where
  number : members.lookup (ascii "id") = some (.int id)
  range : -2147483648 ≤ id ∧ id ≤ 2147483647
  string : members.lookup (ascii "data") = some (.string data)

/-- The object that answers a request. -/
def answered (server : Server) (members : List (Text × Value)) (data : Text) : Value :=
  .object (insert (ascii "data") (.string (server.greeting ++ data)) members)

/-- What the node is written as is one frame of the protocol, it carries the id of the request, and
its payload is the JSON text of the answer, which parses back to the answer. -/
structure Readable (server : Server) (json : JsonCpp) (id : ℤ) (answer : Value) (node : SendNode) :
    Prop where
  frame : ∃ bytes, node.written = .ok bytes ∧
    (format server).parse bytes = ⟨[(id, json.toStyledString answer)], none, []⟩
  bounded : id ≤ maxLength
  parses : json.parse (json.toStyledString answer) = (true, answer)

/-- The callback returns, and what it makes `Send` push can be read by a peer with the limits of
the server. -/
def Replies (server : Server) (json : JsonCpp) (queued : ℕ) (payload : Text) (id : ℤ)
    (answer : Value) : Prop :=
  ∃ sent, server.helloWorldCallBack json payload queued = .ok sent ∧
    ∀ node, sent = some node → Readable server json id answer node

variable {server : Server} {json : JsonCpp} {queued : ℕ} {payload data : Text} {id : ℤ}
  {members : List (Text × Value)} {msg : Text}

theorem verdict_of_limits (low : -32768 ≤ id) (high : id ≤ maxLength) (limit : msg.length ≤ maxLength) :
    (format server).verdict (bigEndianBytes id ++ bigEndianBytes msg.length) =
      .accept id msg.length := by
  cases server with
  | asyncServer => exact Spec.asyncServer_of_limits low high limit
  | coroutineService =>
    exact Spec.coroutineService_of_limits low (by simp only [maxLength] at high; omega) limit

/-- The tag and the length of an accepted head are its fields, and the length is in range. -/
theorem limits_of_verdict {tag : ℤ} {length : ℕ} {idField lenField : ℤ}
    (accept : (format server).verdict (bigEndianBytes idField ++ bigEndianBytes lenField) =
      .accept tag length) :
    tag = toShort idField ∧ length ≤ maxLength := by
  obtain ⟨idHigh, idLow, idBytes, same⟩ := bigEndianShort_bytes idField
  obtain ⟨lenHigh, lenLow, lenBytes, -⟩ := bigEndianShort_bytes lenField
  rw [idBytes, lenBytes, List.cons_append, List.cons_append, List.nil_append] at accept
  cases server with
  | asyncServer =>
    obtain ⟨_, _, _, _, fields, tagged, -, -, bound⟩ := Spec.asyncServer_accept accept
    simp only [List.cons.injEq, and_true] at fields
    obtain ⟨rfl, rfl, -⟩ := fields
    exact ⟨by rw [← tagged, same], bound⟩
  | coroutineService =>
    obtain ⟨_, _, _, _, fields, tagged, -, bound⟩ := Spec.coroutineService_accept accept
    simp only [List.cons.injEq, and_true] at fields
    obtain ⟨rfl, rfl, -⟩ := fields
    exact ⟨by rw [← tagged, same], bound⟩

/-- What is pushed is a frame of the message, or of a part of it in CoroutineService. -/
theorem sent_of_send (room : ¬ Full server queued) {msgId : ℤ} {sent : Option SendNode}
    (pushed : server.send queued msg msgId = .ok sent) :
    ∃ count node, count ≤ msg.length ∧ sent = some node ∧
      node.written = .ok (bigEndianBytes msgId ++ bigEndianBytes count ++ msg.take count) := by
  have framed {count : ℕ} (part : count ≤ msg.length) (short : count + headTotalLen < 32768)
      (made : server.send queued msg msgId = do return some (← SendNode.new msg count msgId)) :
      ∃ count node, count ≤ msg.length ∧ sent = some node ∧
        node.written = .ok (bigEndianBytes msgId ++ bigEndianBytes count ++ msg.take count) := by
    obtain ⟨node, built, written⟩ := SendNode.written_of_fits part short msgId
    rw [made, bind_of_ok built] at pushed
    cases pushed
    exact ⟨count, node, part, rfl, written⟩
  have fits := fits_of_send pushed
  cases server with
  | asyncServer =>
    simp only [Full] at room
    apply framed (Nat.le_refl _) (fits.resolve_left room)
    simp only [Server.send]
    rw [if_neg room]
  | coroutineService =>
    simp only [Full] at room
    obtain ⟨nonneg, short⟩ := fits.resolve_left room
    have size : toSizeT (toShort msg.length) = (toShort msg.length).toNat :=
      toSizeT_of_range nonneg (by have := toShort_range msg.length; omega)
    have part : toSizeT (toShort msg.length) ≤ msg.length := by
      rw [size, toShort]
      omega
    apply framed part (by omega)
    simp only [Server.send]
    rw [if_neg room]

theorem answer_of_asks (asks : Asks members id data) :
    answer server json members = json.toStyledString (answered server members data) := by
  have present : touch (ascii "id") members = members := by
    rw [touch, asks.number]
  rw [answer, present, member, asks.string]
  rfl

/-- A request is answered by a text with its id, as a `short`. -/
theorem reply_of_asks (parsed : json.parse payload = (true, .object members))
    (asks : Asks members id data) :
    server.reply json payload = .ok (json.toStyledString (answered server members data), toShort id) := by
  have object : (json.parse payload).2.members = .ok members := by
    rw [parsed]
    rfl
  have number : (member (ascii "id") members).asInt = .ok id := by
    rw [member, asks.number]
    exact if_pos asks.range
  have string : (member (ascii "data") members).asString json = .ok data := by
    rw [member, asks.string]
    rfl
  rw [reply_of_members object, bind_of_ok number, bind_of_ok string, answer_of_asks asks]
  rfl

theorem helloWorldCallBack_of_asks (parsed : json.parse payload = (true, .object members))
    (asks : Asks members id data) :
    server.helloWorldCallBack json payload queued =
      (server.send queued (json.toStyledString (answered server members data)) (toShort id)).mapError
        .node := by
  rw [Server.helloWorldCallBack, reply_of_asks parsed asks]
  rfl

/-- A reply that can be read has an id and a length in the range of the protocol. -/
theorem limits_of_replies (parsed : json.parse payload = (true, .object members))
    (asks : Asks members id data) (room : ¬ Full server queued)
    (replies : Replies server json queued payload id (answered server members data)) :
    -32768 ≤ id ∧ id ≤ maxLength ∧
      (json.toStyledString (answered server members data)).length ≤ maxLength := by
  obtain ⟨sent, returned, readable⟩ := replies
  rw [helloWorldCallBack_of_asks parsed asks] at returned
  obtain ⟨count, node, part, rfl, written⟩ := sent_of_send room (ok_of_mapError returned)
  obtain ⟨⟨bytes, read, whole⟩, bounded, -⟩ := readable node rfl
  cases written.symm.trans read
  obtain ⟨head, split, size, accept⟩ := eq_of_parse_whole whole
  have fields : head.length = headTotalLen := by
    cases server <;> exact size
  have counted := congrArg List.length split
  simp only [List.length_append, List.length_take, bigEndianBytes, List.length_cons,
    List.length_nil, fields, headTotalLen] at counted
  obtain ⟨rfl, -⟩ := List.append_inj split (by rw [fields]; rfl)
  obtain ⟨same, limit⟩ := limits_of_verdict accept
  have range := toShort_range (toShort id)
  exact ⟨by omega, bounded, limit⟩

theorem replies_of_limits (parsed : json.parse payload = (true, .object members))
    (asks : Asks members id data)
    (faithful : json.parse (json.toStyledString (answered server members data)) =
      (true, answered server members data))
    (room : ¬ Full server queued) (low : -32768 ≤ id) (high : id ≤ maxLength)
    (limit : (json.toStyledString (answered server members data)).length ≤ maxLength) :
    Replies server json queued payload id (answered server members data) := by
  have small : toShort id = id := toShort_of_range low (by simp only [maxLength] at high; omega)
  rw [Replies, helloWorldCallBack_of_asks parsed asks, small]
  have short : (json.toStyledString (answered server members data)).length + headTotalLen < 32768 := by
    simp only [maxLength] at limit
    simp only [headTotalLen]
    omega
  obtain ⟨node, pushed, written⟩ := written_of_short room short id
  rw [pushed]
  refine ⟨some node, rfl, fun other same => ?_⟩
  cases same
  refine ⟨⟨_, written, parse_whole ?_ (verdict_of_limits low high limit)⟩, high, faithful⟩
  cases server <;> rfl

/-- A request is answered by a frame of the protocol exactly when the queue is full, or the text
of the answer and the id are in the range of the protocol. -/
theorem replies_iff_limits (server : Server) (json : JsonCpp) (queued : ℕ) {payload data : Text} {id : ℤ}
    {members : List (Text × Value)} (parsed : json.parse payload = (true, .object members))
    (asks : Asks members id data)
    (faithful : json.parse (json.toStyledString (answered server members data)) =
      (true, answered server members data)) :
    Replies server json queued payload id (answered server members data) ↔
      Full server queued ∨ (-32768 ≤ id ∧ id ≤ maxLength ∧
        (json.toStyledString (answered server members data)).length ≤ maxLength) := by
  constructor
  · intro replies
    exact Classical.or_iff_not_imp_left.mpr fun room => limits_of_replies parsed asks room replies
  · intro limits
    by_cases full : Full server queued
    · rw [Replies, helloWorldCallBack_of_asks parsed asks, send_of_full full]
      exact ⟨none, rfl, fun node pushed => by cases pushed⟩
    · obtain ⟨low, high, limit⟩ := limits.resolve_left full
      exact replies_of_limits parsed asks faithful full low high limit

section Example

/-- A request with its members in order, as a client writes it. -/
def compact (idText data : Text) : Text :=
  ascii "\x7b\"data\":\"" ++ data ++ ascii "\",\"id\":" ++ idText ++ ascii "\x7d"

/-- The layout of JsonCpp. -/
def styled (idText data : Text) : Text :=
  ascii "\x7b\n\t\"data\" : \"" ++ data ++ ascii "\",\n\t\"id\" : " ++ idText ++ ascii "\n\x7d\n"

def requestMembers (id : ℤ) (data : Text) : List (Text × Value) :=
  [(ascii "data", .string data), (ascii "id", .int id)]

/-- JsonCpp on one request and on its answer; the data has no character that is escaped. -/
def oneRequest (server : Server) (id : ℤ) (idText data : Text) : JsonCpp where
  parse text :=
    if text = compact idText data then (true, .object (requestMembers id data))
    else if text = styled idText (server.greeting ++ data) then
      (true, .object (requestMembers id (server.greeting ++ data)))
    else (false, .null)
  valueToString _ := idText
  toStyledString
    | .object [(_, .string value), _] => styled idText value
    | _ => []

theorem parse_compact (server : Server) (id : ℤ) (idText data : Text) :
    (oneRequest server id idText data).parse (compact idText data) =
      (true, .object (requestMembers id data)) := if_pos rfl

theorem asks_requestMembers {id : ℤ} (range : -2147483648 ≤ id ∧ id ≤ 2147483647) (data : Text) :
    Asks (requestMembers id data) id data := ⟨rfl, range, rfl⟩

theorem replies_iff_limits_hi :
    Replies .asyncServer (oneRequest .asyncServer 1001 (ascii "1001") (ascii "hi")) 0
      (compact (ascii "1001") (ascii "hi")) 1001
      (answered .asyncServer (requestMembers 1001 (ascii "hi")) (ascii "hi")) :=
  (replies_iff_limits .asyncServer _ 0 (parse_compact ..) (asks_requestMembers (by decide) _)
    (by rfl)).mpr (Or.inr ⟨by decide, by decide +kernel, by decide +kernel⟩)

/-- The answer to a request with this data does not fit. -/
def longData : Text := List.replicate 2000 97

private theorem not_full_zero (server : Server) : ¬ Full server 0 := by
  cases server with
  | asyncServer =>
    simp only [Full]
    decide +kernel
  | coroutineService =>
    simp only [Full]
    decide +kernel

/-- A request within the limit whose answer is beyond it. -/
def LongReplies (server : Server) : Prop :=
  Replies server (oneRequest server 1001 (ascii "1001") longData) 0 (compact (ascii "1001") longData)
    1001 (answered server (requestMembers 1001 longData) longData)

/-- A request whose id a `short` does not hold. -/
def WideReplies (server : Server) : Prop :=
  Replies server (oneRequest server 70000 (ascii "70000") (ascii "hi")) 0
    (compact (ascii "70000") (ascii "hi")) 70000
    (answered server (requestMembers 70000 (ascii "hi")) (ascii "hi"))

private theorem not_longReplies (server : Server) : ¬ LongReplies server := by
  intro replies
  obtain ⟨-, -, limit⟩ := limits_of_replies (parse_compact ..) (asks_requestMembers (by decide) _)
    (not_full_zero server) replies
  have laidOut : (oneRequest server 1001 (ascii "1001") longData).toStyledString
      (answered server (requestMembers 1001 longData) longData) =
        styled (ascii "1001") (server.greeting ++ longData) := rfl
  rw [laidOut, styled, longData] at limit
  simp only [List.length_append, List.length_replicate] at limit
  revert limit
  cases server <;> decide +kernel

private theorem not_wideReplies (server : Server) : ¬ WideReplies server := by
  intro replies
  obtain ⟨-, high, -⟩ := limits_of_replies (parse_compact ..) (asks_requestMembers (by decide) _)
    (not_full_zero server) replies
  exact absurd high (by decide +kernel)

theorem not_replies :
    (¬ LongReplies .asyncServer ∧ ¬ LongReplies .coroutineService) ∧
      ¬ WideReplies .asyncServer ∧ ¬ WideReplies .coroutineService :=
  ⟨⟨not_longReplies _, not_longReplies _⟩, not_wideReplies _, not_wideReplies _⟩

/-- The long request itself is within the limit. -/
example : (compact (ascii "1001") longData).length ≤ maxLength := by
  rw [compact, longData]
  simp only [List.length_append, List.length_replicate]
  decide +kernel

end Example

end BoostLearn.Soundness.LogicSystem
