import BoostLearn.Core.Fifo
import BoostLearn.Model.Websocket.WebSocketServer

/-! # The websocket servers until they fall silent

A server echoes every message until one arrives while another is being written, or a write fails. From then
on `que_msg` never becomes empty, so `AsyncSend` only queues: nothing is written any more, whatever arrives.
Until it has failed, the connection stays in the map.
-/

namespace BoostLearn.Soundness.Websocket

open Replay Model.Websocket

variable {σ : Type}

/-- The size that `AsyncSend` finds in a queue with something in it is counted as positive. -/
def Counted (project : Project) (server : WebSocketServer σ) : WebSocketServer.Action → Prop
  | .read _ _ =>
    server.connection.queMsg = [] ∨ 0 < project.length server.connection.queMsg.length
  | .written _ =>
    server.connection.queMsg.tail = [] ∨ 0 < project.length server.connection.queMsg.tail.length
  | _ => True

/-- A message waits that no completion of a write will find alone. -/
def Stuck (connection : Connection) : Prop :=
  1 < connection.queMsg.length ∨ connection.inflight = [] ∧ connection.queMsg ≠ []

/-- A write has been started that neither has completed nor is outstanding. -/
def Failed (connection : Connection) : Prop :=
  connection.written.length ≠ connection.completed.length + connection.inflight.length

instance (connection : Connection) : Decidable (Failed connection) := inferInstanceAs (Decidable (_ ≠ _))

/-- What is known of a connection: one write at most is outstanding, what is written is what was received,
in order, and until the connection is stuck it is all of it, and none of it has been lost. -/
structure Echoing (connection : Connection) : Prop where
  single : connection.inflight.length ≤ 1
  queued : connection.inflight.length ≤ connection.queMsg.length
  prefixed : connection.written <+: connection.received
  completed : connection.completed ++ connection.inflight <+: connection.written
  whole : ¬ Stuck connection →
    connection.written = connection.received ∧ connection.completed ++ connection.inflight = connection.written

variable {project : Project} {uuid : σ} {server target : WebSocketServer σ}
  {connection : Connection} {action : WebSocketServer.Action}

theorem echoing_accepted (text : Bool) : Echoing (accepted text) :=
  ⟨Nat.zero_le _, Nat.zero_le _, List.prefix_rfl, List.prefix_rfl, fun _ => ⟨rfl, rfl⟩⟩

theorem length_nothing (project : Project) : project.length 0 ≤ 0 := by
  cases project with
  | beastWebsocket => exact Int.le_refl 0
  | websocketTest => exact Int.le_refl 0

/-- A message that arrives at an empty queue is written at once, and another one only waits. -/
theorem onRead_cases (queued : connection.inflight.length ≤ connection.queMsg.length)
    (counted : connection.queMsg = [] ∨ 0 < project.length connection.queMsg.length) (data : Payload)
    (gotText : Bool) :
    (connection.queMsg = [] ∧ connection.inflight = [] ∧
      connection.onRead project data gotText =
        { connection with
          text := gotText
          received := connection.received ++ [(data, gotText)]
          queMsg := [data]
          inflight := [(data, gotText)]
          written := connection.written ++ [(data, gotText)] }) ∨
    (connection.queMsg ≠ [] ∧
      connection.onRead project data gotText =
        { connection with
          text := gotText
          received := connection.received ++ [(data, gotText)]
          queMsg := connection.queMsg ++ [data] }) := by
  by_cases empty : connection.queMsg = []
  · have size := congrArg List.length empty
    rw [size] at queued
    have idle := List.length_eq_zero_iff.mp (Nat.le_zero.mp queued)
    have zero : project.length connection.queMsg.length ≤ 0 := by
      rw [size]
      exact length_nothing project
    refine .inl ⟨empty, idle, ?_⟩
    rw [Connection.onRead_idle zero, empty, idle]
    rfl
  · exact .inr ⟨empty, Connection.onRead_waiting (counted.resolve_left empty) data gotText⟩

/-- A write that completes leaves the connection idle, or with the next message queued once more. -/
theorem onWrite_cases
    (counted : connection.queMsg.tail = [] ∨ 0 < project.length connection.queMsg.tail.length) :
    (connection.queMsg.tail = [] ∧ connection.onWrite project = { connection with queMsg := [] }) ∨
      ∃ next rest, connection.queMsg.tail = next :: rest ∧
        connection.onWrite project = { connection with queMsg := next :: rest ++ [next] } := by
  cases waiting : connection.queMsg.tail with
  | nil =>
    refine .inl ⟨rfl, ?_⟩
    simp only [Connection.onWrite, waiting]
  | cons next rest =>
    refine .inr ⟨next, rest, rfl, ?_⟩
    rw [waiting] at counted
    have positive := counted.resolve_left (List.cons_ne_nil _ _)
    simp only [Connection.onWrite, waiting]
    exact @Connection.asyncSend_waiting project { connection with queMsg := next :: rest } positive next

theorem not_stuck_of_empty (empty : connection.queMsg = []) : ¬ Stuck connection := by
  rintro (more | ⟨-, some⟩)
  · rw [empty] at more
    exact absurd more (Nat.not_lt_zero _)
  · exact some empty

theorem Echoing.onRead (echoing : Echoing connection)
    (counted : connection.queMsg = [] ∨ 0 < project.length connection.queMsg.length) (data : Payload)
    (gotText : Bool) : Echoing (connection.onRead project data gotText) := by
  obtain ⟨single, queued, prefixed, completed, whole⟩ := echoing
  obtain ⟨empty, idle, same⟩ | ⟨busy, same⟩ := onRead_cases queued counted data gotText
  · obtain ⟨all, none⟩ := whole (not_stuck_of_empty empty)
    rw [idle, List.append_nil] at none
    rw [same, none, all]
    exact ⟨Nat.le_refl _, Nat.le_refl _, List.prefix_rfl, List.prefix_rfl, fun _ => ⟨rfl, rfl⟩⟩
  · rw [same]
    refine ⟨single, ?_, prefixed.trans (List.prefix_append _ _), completed, fun unstuck => absurd (.inl ?_) unstuck⟩
    · rw [List.length_append]
      exact Nat.le_trans queued (Nat.le_add_right _ _)
    · have present := List.length_pos_iff.mpr busy
      rw [List.length_append, List.length_singleton]
      omega

/-- The write that is outstanding is the one that completes or fails. -/
theorem Echoing.outstanding (echoing : Echoing connection) {index : ℕ} {frame : Frame}
    (present : connection.inflight[index]? = some frame) :
    connection.inflight = [frame] ∧ connection.inflight.eraseIdx index = [] ∧ 0 < connection.queMsg.length := by
  obtain ⟨rfl, only⟩ := Fifo.eq_singleton_of_getElem? echoing.single present
  have queued := echoing.queued
  rw [only] at queued ⊢
  exact ⟨rfl, rfl, queued⟩

theorem Echoing.written (echoing : Echoing connection) {index : ℕ} {frame : Frame}
    (present : connection.inflight[index]? = some frame)
    (counted : connection.queMsg.tail = [] ∨ 0 < project.length connection.queMsg.tail.length) :
    Echoing (Connection.onWrite project { connection with
      inflight := connection.inflight.eraseIdx index
      completed := connection.completed ++ [frame] }) := by
  obtain ⟨only, rest, -⟩ := echoing.outstanding present
  have completed := echoing.completed
  rw [only] at completed
  obtain ⟨alone, same⟩ | ⟨next, more, waiting, same⟩ := @onWrite_cases project { connection with
      inflight := connection.inflight.eraseIdx index
      completed := connection.completed ++ [frame] } counted
  · have unstuck : ¬ Stuck connection := by
      rintro (several | ⟨none, -⟩)
      · have size : connection.queMsg.tail.length = 0 := congrArg List.length alone
        rw [List.length_tail] at size
        omega
      · rw [only] at none
        cases none
    obtain ⟨all, kept⟩ := echoing.whole unstuck
    rw [only] at kept
    rw [same, rest]
    refine ⟨Nat.zero_le _, Nat.zero_le _, echoing.prefixed, ?_, fun _ => ⟨all, ?_⟩⟩
    · dsimp only
      rwa [List.append_nil]
    · dsimp only
      rw [List.append_nil, kept]
  · rw [same, rest]
    refine ⟨Nat.zero_le _, Nat.zero_le _, echoing.prefixed, ?_, fun unstuck => absurd (.inr ⟨rfl, ?_⟩) unstuck⟩
    · dsimp only
      rwa [List.append_nil]
    · exact List.cons_ne_nil _ _

theorem Echoing.writeFailed (echoing : Echoing connection) {index : ℕ} {frame : Frame}
    (present : connection.inflight[index]? = some frame) :
    Echoing { connection with inflight := connection.inflight.eraseIdx index } := by
  obtain ⟨-, rest, queued⟩ := echoing.outstanding present
  rw [rest]
  refine ⟨Nat.zero_le _, Nat.zero_le _, echoing.prefixed, ?_, fun unstuck => absurd (.inr ⟨rfl, ?_⟩) unstuck⟩
  · dsimp only
    rw [List.append_nil]
    exact (List.prefix_append _ _).trans echoing.completed
  · exact List.length_pos_iff.mp queued

theorem failed_onRead (queued : connection.inflight.length ≤ connection.queMsg.length)
    (counted : connection.queMsg = [] ∨ 0 < project.length connection.queMsg.length) (data : Payload)
    (gotText : Bool) : Failed (connection.onRead project data gotText) ↔ Failed connection := by
  obtain ⟨-, idle, same⟩ | ⟨-, same⟩ := onRead_cases queued counted data gotText
  · rw [same, Failed, Failed, idle]
    simp only [List.length_append, List.length_singleton, List.length_nil]
    omega
  · rw [same]
    exact Iff.rfl

theorem failed_onWrite (echoing : Echoing connection) {index : ℕ} {frame : Frame}
    (present : connection.inflight[index]? = some frame)
    (counted : connection.queMsg.tail = [] ∨ 0 < project.length connection.queMsg.tail.length) :
    Failed (Connection.onWrite project { connection with
      inflight := connection.inflight.eraseIdx index
      completed := connection.completed ++ [frame] }) ↔ Failed connection := by
  obtain ⟨only, rest, -⟩ := echoing.outstanding present
  obtain ⟨-, same⟩ | ⟨next, more, -, same⟩ := @onWrite_cases project { connection with
      inflight := connection.inflight.eraseIdx index
      completed := connection.completed ++ [frame] } counted
  all_goals
    rw [same, Failed, Failed, rest, only]
    simp only [List.length_append, List.length_singleton, List.length_nil]

theorem failed_writeFailed (echoing : Echoing connection) {index : ℕ} {frame : Frame}
    (present : connection.inflight[index]? = some frame) :
    Failed { connection with inflight := connection.inflight.eraseIdx index } := by
  obtain ⟨only, rest, -⟩ := echoing.outstanding present
  have less := echoing.completed.length_le
  rw [Failed, rest]
  simp only [only, List.length_append, List.length_singleton] at less
  dsimp only
  rw [List.length_nil]
  omega

/-- What is known of a server: its connection is in the map from the handshake until it fails. -/
structure Serves (uuid : σ) (server : WebSocketServer σ) : Prop where
  echoing : Echoing server.connection
  registered : server.map = if server.waiting = .read ∧ ¬ Failed server.connection then [uuid] else []
  unopened : server.waiting = .accept ∨ server.waiting = .handshake →
    ∃ text, server.connection = accepted text

theorem serves_main (uuid : σ) (text : Bool) : Serves uuid (.main text) :=
  ⟨echoing_accepted text, rfl, fun _ => ⟨text, rfl⟩⟩

/-- A handler that leaves the program waiting as it was, and its connection failed or not. -/
theorem Serves.goesOn (serves : Serves uuid server) (echoing : Echoing connection)
    (open_ : server.waiting ≠ .accept ∧ server.waiting ≠ .handshake)
    (same : Failed connection ↔ Failed server.connection) :
    Serves uuid { server with connection } := by
  refine ⟨echoing, serves.registered.trans ?_, fun unopened => ?_⟩
  · simp only [same]
  · exact absurd unopened (not_or.mpr open_)

theorem Serves.opened (serves : Serves uuid server) {index : ℕ} {frame : Frame}
    (present : server.connection.inflight[index]? = some frame) :
    server.waiting ≠ .accept ∧ server.waiting ≠ .handshake := by
  rw [← not_or]
  intro unopened
  obtain ⟨text, same⟩ := serves.unopened unopened
  rw [same] at present
  cases present

section Steps

variable [DecidableEq σ]

theorem rmConnection_registered {map : List σ} {condition : Prop} [Decidable condition]
    (registered : map = if condition then [uuid] else []) : WebSocketServer.rmConnection map uuid = [] := by
  rw [registered, WebSocketServer.rmConnection]
  split_ifs <;> simp

theorem Serves.step (serves : Serves uuid server) (counted : Counted project server action)
    (taken : server.step project uuid action = some target) : Serves uuid target := by
  cases action with
  | accepted success =>
    obtain ⟨waiting, same⟩ := Option.ite_none_right_eq_some.mp taken
    cases same
    have unregistered : server.map = [] := by
      rw [serves.registered, waiting]
      rfl
    obtain ⟨text, same⟩ := serves.unopened (.inl waiting)
    refine ⟨serves.echoing, unregistered.trans ?_, fun _ => ⟨text, same⟩⟩
    cases success with
    | false => rfl
    | true => rfl
  | handshaken success =>
    obtain ⟨waiting, same⟩ := Option.ite_none_right_eq_some.mp taken
    cases same
    have unregistered : server.map = [] := by
      rw [serves.registered, waiting]
      rfl
    obtain ⟨text, same⟩ := serves.unopened (.inr waiting)
    cases success with
    | false => exact ⟨serves.echoing, unregistered.trans rfl, fun _ => ⟨text, same⟩⟩
    | true =>
      refine ⟨serves.echoing, ?_, fun _ => ⟨text, same⟩⟩
      change WebSocketServer.addConnection server.map uuid =
        if Waiting.read = .read ∧ ¬ Failed server.connection then [uuid] else []
      rw [unregistered, same]
      rfl
  | read data gotText =>
    obtain ⟨waiting, same⟩ := Option.ite_none_right_eq_some.mp taken
    cases same
    refine serves.goesOn (serves.echoing.onRead counted data gotText) ?_
      (failed_onRead serves.echoing.queued counted data gotText)
    rw [waiting]
    exact ⟨nofun, fun same => by cases same⟩
  | readFailed =>
    obtain ⟨waiting, same⟩ := Option.ite_none_right_eq_some.mp taken
    cases same
    exact ⟨serves.echoing, rmConnection_registered serves.registered,
      fun unopened => by rcases unopened with same | same <;> cases same⟩
  | written index =>
    obtain ⟨connection, completed, rfl⟩ := Option.map_eq_some_iff.mp taken
    obtain ⟨frame, present, rfl⟩ := Option.map_eq_some_iff.mp completed
    exact serves.goesOn (serves.echoing.written present counted) (serves.opened present)
      (failed_onWrite serves.echoing present counted)
  | writeFailed index =>
    obtain ⟨frame, present, rfl⟩ := Option.map_eq_some_iff.mp taken
    refine ⟨serves.echoing.writeFailed present, ?_, fun unopened => ?_⟩
    · rw [if_neg fun going => going.2 (failed_writeFailed serves.echoing present)]
      exact rmConnection_registered serves.registered
    · exact absurd unopened (not_or.mpr (serves.opened present))

/-- In every run in which the sizes of the queue are counted as what they are, the connection is echoed to and
registered until it fails or falls silent. -/
theorem serves_of_counted {text : Bool} {tape : List WebSocketServer.Action}
    (counted : Guarded (WebSocketServer.step project uuid) (Counted project) (.main text) tape) :
    Always (WebSocketServer.step project uuid) (Serves uuid) (.main text) tape :=
  always_of_guarded Serves.step (serves_main uuid text) counted

/-- A step from a stuck connection writes nothing, and leaves it stuck. -/
theorem Serves.stays (serves : Serves uuid server) (stuck : Stuck server.connection)
    (counted : Counted project server action) (taken : server.step project uuid action = some target) :
    Stuck target.connection ∧ target.connection.written = server.connection.written := by
  have busy : server.connection.queMsg ≠ [] := fun empty => not_stuck_of_empty empty stuck
  cases action with
  | accepted success =>
    obtain ⟨-, same⟩ := Option.ite_none_right_eq_some.mp taken
    cases same
    exact ⟨stuck, rfl⟩
  | handshaken success =>
    obtain ⟨-, same⟩ := Option.ite_none_right_eq_some.mp taken
    cases same
    cases success with
    | false => exact ⟨stuck, rfl⟩
    | true => exact ⟨stuck, rfl⟩
  | read data gotText =>
    obtain ⟨-, same⟩ := Option.ite_none_right_eq_some.mp taken
    cases same
    obtain ⟨empty, -⟩ | ⟨-, same⟩ := onRead_cases serves.echoing.queued counted data gotText
    · exact absurd empty busy
    · dsimp only
      rw [same]
      refine ⟨.inl ?_, rfl⟩
      have present := List.length_pos_iff.mpr busy
      rw [List.length_append, List.length_singleton]
      omega
  | readFailed =>
    obtain ⟨-, same⟩ := Option.ite_none_right_eq_some.mp taken
    cases same
    exact ⟨stuck, rfl⟩
  | written index =>
    obtain ⟨connection, completed, rfl⟩ := Option.map_eq_some_iff.mp taken
    obtain ⟨frame, present, rfl⟩ := Option.map_eq_some_iff.mp completed
    obtain ⟨only, rest, -⟩ := serves.echoing.outstanding present
    obtain ⟨alone, -⟩ | ⟨next, more, -, same⟩ := @onWrite_cases project { server.connection with
        inflight := server.connection.inflight.eraseIdx index
        completed := server.connection.completed ++ [frame] } counted
    · have size : server.connection.queMsg.tail.length = 0 := congrArg List.length alone
      rw [List.length_tail] at size
      obtain several | ⟨none, -⟩ := stuck
      · omega
      · rw [only] at none
        cases none
    · dsimp only
      rw [same, rest]
      exact ⟨.inr ⟨rfl, List.cons_ne_nil _ _⟩, rfl⟩
  | writeFailed index =>
    obtain ⟨frame, present, rfl⟩ := Option.map_eq_some_iff.mp taken
    obtain ⟨-, rest, -⟩ := serves.echoing.outstanding present
    dsimp only
    rw [rest]
    exact ⟨.inr ⟨rfl, busy⟩, rfl⟩

/-- A connection that has fallen silent stays so: whatever happens, nothing is written any more. -/
theorem silent_of_stuck {text : Bool} {tape later : List WebSocketServer.Action}
    (counted : Guarded (WebSocketServer.step project uuid) (Counted project) (.main text) tape)
    (reached : replay? (WebSocketServer.step project uuid) (.main text) tape = some server)
    (stuck : Stuck server.connection)
    (goesOn : Guarded (WebSocketServer.step project uuid) (Counted project) server later)
    (run : replay? (WebSocketServer.step project uuid) server later = some target) :
    Stuck target.connection ∧ target.connection.written = server.connection.written := by
  have serves : Serves uuid server := (serves_of_counted counted).replay reached
  have preserved {source next : WebSocketServer σ} {action : WebSocketServer.Action}
      (kept : Serves uuid source ∧ Stuck source.connection ∧
        source.connection.written = server.connection.written)
      (counted : Counted project source action) (taken : source.step project uuid action = some next) :
      Serves uuid next ∧ Stuck next.connection ∧ next.connection.written = server.connection.written := by
    obtain ⟨serves, stuck, same⟩ := kept
    obtain ⟨still, written⟩ := serves.stays stuck counted taken
    exact ⟨serves.step counted taken, still, written.trans same⟩
  exact ((always_of_guarded preserved ⟨serves, stuck, rfl⟩ goesOn).replay run).2

end Steps

section Examples

/-- A `size_t` counts every queue as what it is. -/
theorem counted_websocketTest (server : WebSocketServer σ) (action : WebSocketServer.Action) :
    Counted .websocketTest server action := by
  have counts (queue : List Payload) : queue = [] ∨ 0 < Project.websocketTest.length queue.length := by
    cases queue with
    | nil => exact .inl rfl
    | cons first rest => exact .inr (Int.natCast_pos.mpr (Nat.zero_lt_succ _))
  cases action with
  | read => exact counts _
  | written => exact counts _
  | accepted | handshaken | readFailed | writeFailed => trivial

/-- Two messages, the second one while the first is being written. -/
def overlapping : List WebSocketServer.Action :=
  [.accepted true, .handshaken true, .read [65] true, .read [66] true]

def overlapped : WebSocketServer ℕ :=
  ⟨.read, [7], ⟨true, [[65], [66]], [([65], true)], [([65], true), ([66], true)], [([65], true)], []⟩⟩

/-- The first message is sent, a third one arrives, and the second one is never written. -/
def afterwards : List WebSocketServer.Action := [.written 0, .read [67] true]

def silent : WebSocketServer ℕ :=
  ⟨.read, [7], ⟨true, [[66], [66], [67]], [], [([65], true), ([66], true), ([67], true)], [([65], true)],
    [([65], true)]⟩⟩

theorem reached_overlapped :
    replay? (WebSocketServer.step .websocketTest 7) (.main false) overlapping = some overlapped := by
  decide +kernel

theorem serves_of_counted_overlapped : Serves 7 overlapped :=
  (serves_of_counted (guarded_of_forall fun action _ server => counted_websocketTest server action)).replay
    reached_overlapped

theorem silent_of_stuck_overlapped : Stuck silent.connection ∧ silent.connection.written = [([65], true)] := by
  have counts (server : WebSocketServer ℕ) (tape : List WebSocketServer.Action) :
      Guarded (WebSocketServer.step .websocketTest 7) (Counted .websocketTest) server tape :=
    guarded_of_forall fun action _ source => counted_websocketTest source action
  exact silent_of_stuck (counts _ _) reached_overlapped (.inl (by decide)) (counts _ afterwards)
    (by decide +kernel)

end Examples

end BoostLearn.Soundness.Websocket
