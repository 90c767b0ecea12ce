import BoostLearn.Model.AsyncServer.Server
import BoostLearn.Model.CoroutineService.CServer
import BoostLearn.Model.JsonClient
import BoostLearn.Soundness.LogicSystem.Reply
import Mathlib.Data.List.Forall2

/-! # The answers to what a peer has sent

The worker owes an answer to each frame with a callback whose reply makes a node. A peer that writes requests as
one of the two clients does is owed frames that both of them read, and the lines they print carry the id and the
data of its requests, in their order.
-/

namespace BoostLearn.Soundness.LogicSystem

open CInt Memory Framing Framing.Format Model Model.Wire Model.Json Model.LogicSystem
open Soundness.HelloWorld

variable {server : Server} {json : JsonCpp}

section Answers

/-- The id and the payload of a node, as the worker passes them to the callback. -/
def message (server : Server) (node : RecvNode ℤ) : Except Fault (ℤ × Text) :=
  match server with
  | .asyncServer => AsyncServer.message node
  | .coroutineService => CoroutineService.message node

/-- The node that `Send` pushes. -/
def newSendNode (server : Server) (reply : Text × ℤ) : Option SendNode :=
  match server with
  | .asyncServer => AsyncServer.Server.newSendNode reply
  | .coroutineService => CoroutineService.newSendNode reply

/-- The node that answers a message, if there is one. -/
def answerTo (server : Server) (json : JsonCpp) (sent : ℤ × Text) : Option SendNode :=
  if sent.1 = msgHelloWorld then (server.reply json sent.2).toOption.bind (newSendNode server) else none

/-- The node that answers a posted node. -/
def answer? (server : Server) (json : JsonCpp) (node : RecvNode ℤ) : Option SendNode :=
  (message server node).toOption.bind (answerTo server json)

/-- The answers to the frames in what a peer has sent. -/
def owed (server : Server) (json : JsonCpp) (stream : List UInt8) : List SendNode :=
  ((format server).parse stream).frames.filterMap (answerTo server json)

variable {node : RecvNode ℤ} {sent : ℤ × Text}

theorem message_id (told : message server node = .ok sent) : sent.1 = node.msgId := by
  cases server with
  | asyncServer =>
    obtain ⟨payload, -, same⟩ := ok_of_bind told
    rw [← Except.ok.inj same]
  | coroutineService =>
    obtain ⟨payload, -, same⟩ := ok_of_bind told
    rw [← Except.ok.inj same]

/-- A node without a callback is not answered. -/
theorem answer?_unregistered (unknown : node.msgId ≠ msgHelloWorld) : answer? server json node = none := by
  rw [answer?]
  cases told : message server node with
  | error fault => rfl
  | ok sent =>
    have other : sent.1 ≠ msgHelloWorld := message_id told ▸ unknown
    exact if_neg other

/-- Nor is one that the worker cannot read back. -/
theorem answer?_unreadable {fault : Fault} (untold : message server node = .error fault) :
    answer? server json node = none := by
  rw [answer?, untold]
  rfl

/-- What a node with a callback is answered with. -/
theorem answer?_registered (told : message server node = .ok sent) (known : node.msgId = msgHelloWorld) :
    answer? server json node = (server.reply json sent.2).toOption.bind (newSendNode server) := by
  have same : sent.1 = msgHelloWorld := message_id told ▸ known
  rw [answer?, told]
  exact if_pos same

/-- The answers to nodes are those to the messages that they hold. -/
theorem filterMap_answer? {nodes : List (RecvNode ℤ)} {messages : List (ℤ × Text)}
    (hold : nodes.map (message server) = messages.map .ok) :
    nodes.filterMap (answer? server json) = messages.filterMap (answerTo server json) := by
  have told : nodes.filterMap (answer? server json) =
      (nodes.map (message server)).filterMap fun told => told.toOption.bind (answerTo server json) := by
    rw [List.filterMap_map]
    rfl
  rw [told, hold, List.filterMap_map]
  rfl

end Answers

section Clients

variable {data : Text}

/-- The members of a request with the id that the clients use. -/
def asking (data : Text) : List (Text × Value) := [(ascii "data", .string data), (ascii "id", .int 1001)]

def requestText (json : JsonCpp) (data : Text) : Text := json.toStyledString (.object (asking data))

/-- What the server says behind its words. -/
def replied (server : Server) (data : Text) : Text := server.greeting ++ data

/-- The library reads both texts as they were written, and they are no longer than the arrays. -/
structure Handles (server : Server) (json : JsonCpp) (data : Text) : Prop where
  request : json.parse (requestText json data) = (true, .object (asking data))
  reply : json.parse (requestText json (replied server data)) = (true, .object (asking (replied server data)))
  room : (requestText json data).length + 4 ≤ JsonClient.maxLength
  limit : (requestText json (replied server data)).length ≤ JsonClient.maxLength

/-- Either client reads the node, and prints the id of its request and the reply to its data. -/
def Understood (server : Server) (json : JsonCpp) (data : Text) (node : SendNode) : Prop :=
  ∃ bytes text, node.written = .ok bytes ∧ ∀ client : JsonClient.Client,
    client.received bytes = .ok text ∧ client.printed json text = .ok (client.line 1001 (replied server data))

theorem asks_asking (data : Text) : Asks (asking data) 1001 data where
  number := by
    have other : ascii "id" ≠ ascii "data" := by decide
    rw [asking, List.lookup_cons, beq_false_of_ne other, List.lookup_cons_self]
  range := by decide
  string := List.lookup_cons_self

theorem answered_asking (server : Server) (data : Text) :
    answered server (asking data) data = .object (asking (replied server data)) := by
  rw [answered, asking, Json.insert, if_pos rfl]
  rfl

theorem printed_reply (handles : Handles server json data) (client : JsonClient.Client) :
    client.printed json (requestText json (replied server data)) =
      .ok (client.line 1001 (replied server data)) := by
  rw [JsonClient.Client.printed, handles.reply]
  cases client with
  | jsonClient => rfl
  | jsonClientForTest => rfl

/-- A text that fits the array of a client makes a node of its whole length. -/
theorem newSendNode_of_limit {text : Text} (limit : text.length ≤ JsonClient.maxLength) (msgId : ℤ) :
    newSendNode server (text, msgId) = (SendNode.new text text.length msgId).toOption := by
  simp only [JsonClient.maxLength] at limit
  cases server with
  | asyncServer => rw [newSendNode, AsyncServer.Server.newSendNode]
  | coroutineService =>
    have fits : toSizeT (toShort text.length) = text.length := by
      rw [toShort_of_range (by omega) (by omega), toSizeT_natCast (by omega)]
    rw [newSendNode, CoroutineService.newSendNode, fits]

/-- The frame of a request is answered by a node that the clients understand. -/
theorem answerTo_request (handles : Handles server json data) :
    ∃ node, answerTo server json (1001, requestText json data) = some node ∧ Understood server json data node := by
  have small : toShort 1001 = 1001 := toShort_of_range (by decide) (by decide)
  have limit := handles.limit
  simp only [JsonClient.maxLength] at limit
  obtain ⟨node, built, written⟩ :=
    SendNode.written_of_fits (Nat.le_refl (requestText json (replied server data)).length)
      (by simp only [headTotalLen]; omega) 1001
  rw [List.take_length] at written
  refine ⟨node, ?_, _, _, written, fun client =>
    ⟨client.received_of_room handles.limit 1001, printed_reply handles client⟩⟩
  have registered : ((1001 : ℤ), requestText json data).1 = msgHelloWorld := rfl
  have answer : json.toStyledString (.object (asking (replied server data))) =
    requestText json (replied server data) := rfl
  rw [answerTo, if_pos registered, reply_of_asks handles.request (asks_asking data), answered_asking, small, answer,
    Except.toOption, Option.bind_some, newSendNode_of_limit handles.limit, built]
  rfl

variable {client : JsonClient.Client} {datas : List Text} {sent : List (List UInt8)}

/-- What the clients write is parsed into their requests. -/
theorem parse_written (handles : ∀ data ∈ datas, Handles server json data)
    (wrote : List.Forall₂ (fun data bytes => client.written (requestText json data) = .ok bytes) datas sent) :
    (format server).parse sent.flatten = ⟨datas.map fun data => (1001, requestText json data), none, []⟩ := by
  induction wrote with
  | nil => exact parse_nil
  | @cons data bytes datas sent written _ ih =>
    have room := (handles data (.head _)).room
    have frame := (client.written_of_room room).symm.trans written
    have limit : (requestText json data).length ≤ maxLength := by
      simp only [JsonClient.maxLength] at room
      simp only [maxLength]
      omega
    have verdict : (format server).verdict (bigEndianBytes 1001 ++ bigEndianBytes (requestText json data).length) =
      .accept 1001 (requestText json data).length := verdict_of_limits (by decide) (by decide) limit
    have whole : (bigEndianBytes 1001 ++ bigEndianBytes (requestText json data).length).length =
      (format server).headLength := by cases server <;> rfl
    rw [List.flatten_cons, ← Except.ok.inj frame, List.append_assoc, parse_frame whole verdict,
      ih fun other member => handles other (.tail _ member)]
    rfl

/-- So the clients are owed a reply for each of their requests. -/
theorem owed_written (handles : ∀ data ∈ datas, Handles server json data)
    (wrote : List.Forall₂ (fun data bytes => client.written (requestText json data) = .ok bytes) datas sent) :
    List.Forall₂ (Understood server json) datas (owed server json sent.flatten) := by
  rw [owed, parse_written handles wrote]
  clear wrote
  induction datas with
  | nil => exact .nil
  | cons data rest ih =>
    obtain ⟨node, answered, understood⟩ := answerTo_request (handles data (.head _))
    rw [List.map_cons, List.filterMap_cons_some answered]
    exact .cons understood (ih fun other member => handles other (.tail _ member))

/-- What has come back to a client that has written requests for some data: replies to the first ones,
and to all of them when its session has settled. -/
def Satisfies (server : Server) (json : JsonCpp) (datas : List Text) (completed : List SendNode)
    (settled : Prop) : Prop :=
  ∃ count, List.Forall₂ (Understood server json) (datas.take count) completed ∧ (settled → datas.length ≤ count)

/-- A session that writes what it owes without a gap satisfies its client. -/
theorem satisfies_of_owed (handles : ∀ data ∈ datas, Handles server json data)
    (wrote : List.Forall₂ (fun data bytes => client.written (requestText json data) = .ok bytes) datas sent)
    {completed : List SendNode} {settled : Prop} (ordered : completed <+: owed server json sent.flatten)
    (all : settled → completed = owed server json sent.flatten) :
    Satisfies server json datas completed settled := by
  have understood := owed_written handles wrote
  refine ⟨completed.length, ?_, fun done => ?_⟩
  · have front := List.forall₂_take completed.length understood
    rwa [← List.prefix_iff_eq_take.mp ordered] at front
  · rw [all done]
    exact Nat.le_of_eq understood.length_eq

end Clients

section Example

/-- JsonCpp on the texts for the data `A`. -/
def letterJson (server : Server) : JsonCpp where
  parse text :=
    if text = styled (ascii "1001") [65] then (true, .object (asking [65]))
    else if text = styled (ascii "1001") (replied server [65]) then (true, .object (asking (replied server [65])))
    else (false, .null)
  valueToString _ := ascii "1001"
  toStyledString
    | .object [(_, .string value), _] => styled (ascii "1001") value
    | _ => []

theorem requestText_letterJson (server : Server) (data : Text) :
    requestText (letterJson server) data = styled (ascii "1001") data := rfl

theorem parse_letterJson (server : Server) (text : Text) : (letterJson server).parse text =
    if text = styled (ascii "1001") [65] then (true, .object (asking [65]))
    else if text = styled (ascii "1001") (replied server [65]) then
      (true, .object (asking (replied server [65])))
    else (false, .null) := rfl

theorem handles_letter (server : Server) : Handles server (letterJson server) [65] where
  request := by
    rw [requestText_letterJson, parse_letterJson, if_pos rfl]
  reply := by
    have other : styled (ascii "1001") (replied server [65]) ≠ styled (ascii "1001") [65] := by
      cases server <;> decide +kernel
    rw [requestText_letterJson, parse_letterJson, if_neg other, if_pos rfl]
  room := by cases server <;> decide +kernel
  limit := by cases server <;> decide +kernel

end Example

end BoostLearn.Soundness.LogicSystem
