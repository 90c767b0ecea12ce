import BoostLearn.Core.CInt
import BoostLearn.Core.Replay
import Mathlib.Data.List.Basic

/-! # The echo connection of the websocket servers

beast_websocket and websocket_test run the same callbacks, on a strand, and differ in the type of
the variable that holds the size of `que_msg`. A frame is what `async_write` is handed: the bytes
of its buffer and the kind in force when it is started. That the buffer is a parameter which ends
with `AsyncSend` is not modelled.
-/

namespace BoostLearn.Model.Websocket

open CInt

inductive Project where
  | beastWebsocket
  | websocketTest
deriving DecidableEq, Repr

/-- The variable that `AsyncSend` compares with zero: an `int`, or a `size_t`. -/
def Project.length (project : Project) (size : ℕ) : ℤ :=
  match project with
  | .beastWebsocket => toInt size
  | .websocketTest => size

abbrev Payload := List UInt8

/-- A payload, and whether it is text. -/
abbrev Frame := Payload × Bool

/-- The members of `connection` that sending uses, and the history of its frames. -/
structure Connection where
  text : Bool
  queMsg : List Payload
  inflight : List Frame
  received : List Frame
  written : List Frame
  completed : List Frame
deriving DecidableEq, Repr

/-- An accepted connection; binary or text is the default of the stream. -/
def accepted (text : Bool) : Connection := ⟨text, [], [], [], [], []⟩

namespace Connection

/-- `_ws_ptr->async_write(asio::buffer(data), ..)`. -/
def asyncWrite (connection : Connection) (data : Payload) : Connection :=
  { connection with
    inflight := connection.inflight ++ [(data, connection.text)]
    written := connection.written ++ [(data, connection.text)] }

/-- `connection::AsyncSend`. -/
def asyncSend (project : Project) (connection : Connection) (data : Payload) : Connection :=
  let length := project.length connection.queMsg.length
  let connection := { connection with queMsg := connection.queMsg ++ [data] }
  if length > 0 then connection else connection.asyncWrite data

/-- The read callback without an error; it also starts the next read. -/
def onRead (project : Project) (connection : Connection) (data : Payload) (gotText : Bool) :
    Connection :=
  asyncSend project { connection with
    text := gotText
    received := connection.received ++ [(data, gotText)] } data

/-- The write callback without an error. -/
def onWrite (project : Project) (connection : Connection) : Connection :=
  let connection := { connection with queMsg := connection.queMsg.tail }
  match connection.queMsg with
  | [] => connection
  | sendMsg :: _ => asyncSend project connection sendMsg

variable {project : Project} {connection : Connection}

theorem asyncSend_waiting (waiting : 0 < project.length connection.queMsg.length) (data : Payload) :
    connection.asyncSend project data =
      { connection with queMsg := connection.queMsg ++ [data] } := by
  simp only [asyncSend, gt_iff_lt, if_pos waiting]

theorem asyncSend_idle (idle : project.length connection.queMsg.length ≤ 0) (data : Payload) :
    connection.asyncSend project data =
      { connection with
        queMsg := connection.queMsg ++ [data]
        inflight := connection.inflight ++ [(data, connection.text)]
        written := connection.written ++ [(data, connection.text)] } := by
  simp only [asyncSend, gt_iff_lt, if_neg (Int.not_lt.mpr idle), asyncWrite]

/-- Whatever it starts, `AsyncSend` queues its message and does not touch the other histories. -/
theorem asyncSend_frame (data : Payload) :
    (connection.asyncSend project data).queMsg = connection.queMsg ++ [data] ∧
      (connection.asyncSend project data).received = connection.received ∧
      (connection.asyncSend project data).completed = connection.completed := by
  by_cases waiting : 0 < project.length connection.queMsg.length
  · rw [asyncSend_waiting waiting]
    exact ⟨rfl, rfl, rfl⟩
  · rw [asyncSend_idle (Int.not_lt.mp waiting)]
    exact ⟨rfl, rfl, rfl⟩

/-- A call starts at most one write for the message it queues. -/
theorem asyncSend_bounded (bounded : connection.inflight.length ≤ connection.queMsg.length)
    (data : Payload) :
    (connection.asyncSend project data).inflight.length ≤
      (connection.asyncSend project data).queMsg.length := by
  by_cases waiting : 0 < project.length connection.queMsg.length
  · rw [asyncSend_waiting waiting]
    simp only [List.length_append]
    omega
  · rw [asyncSend_idle (Int.not_lt.mp waiting)]
    simp only [List.length_append, List.length_cons, List.length_nil]
    omega

theorem onRead_waiting (waiting : 0 < project.length connection.queMsg.length) (data : Payload)
    (gotText : Bool) :
    connection.onRead project data gotText =
      { connection with
        text := gotText
        received := connection.received ++ [(data, gotText)]
        queMsg := connection.queMsg ++ [data] } := by
  rw [onRead, asyncSend_waiting]
  exact waiting

theorem onRead_idle (idle : project.length connection.queMsg.length ≤ 0) (data : Payload)
    (gotText : Bool) :
    connection.onRead project data gotText =
      { connection with
        text := gotText
        received := connection.received ++ [(data, gotText)]
        queMsg := connection.queMsg ++ [data]
        inflight := connection.inflight ++ [(data, gotText)]
        written := connection.written ++ [(data, gotText)] } := by
  rw [onRead, asyncSend_idle]
  exact idle

/-- A message that waits behind a completed one is queued again. -/
theorem onWrite_waiting (project : Project) (connection : Connection) {first next : Payload} {rest : List Payload}
    (waiting : connection.queMsg = first :: next :: rest) :
    (connection.onWrite project).queMsg = next :: rest ++ [next] ∧
      (connection.onWrite project).received = connection.received ∧
      (connection.onWrite project).completed = connection.completed := by
  simp only [onWrite, waiting, List.tail_cons]
  exact asyncSend_frame next

end Connection

/-- A completion of the outstanding read, or of one of the outstanding writes. -/
inductive Event where
  | read (data : Payload) (gotText : Bool)
  | written (index : ℕ)
deriving DecidableEq, Repr

def step (project : Project) (connection : Connection) : Event → Option Connection
  | .read data gotText => some (connection.onRead project data gotText)
  | .written index =>
    connection.inflight[index]?.map fun frame =>
      Connection.onWrite project { connection with
        inflight := connection.inflight.eraseIdx index
        completed := connection.completed ++ [frame] }

end BoostLearn.Model.Websocket
