import BoostLearn.Core.Fifo
import BoostLearn.Model.Websocket.Connection

/-! # The websocket servers echo as long as no message waits behind a write

A write completion sends the next waiting message through `AsyncSend`, which queues it a second
time and, because a message is waiting, starts nothing. While every write completes before the
next message arrives, a connection is a queue whose first element is being written.
-/

namespace BoostLearn.Soundness.Websocket

open CInt Replay Model.Websocket

/-- The frames handed to `async_write` are a prefix of the received ones, at most one is
outstanding, `que_msg` holds what is received and not completed, and nothing waits while no write
is outstanding. -/
structure Echoes (connection : Connection) : Prop where
  prefixed : connection.written <+: connection.received
  single : connection.inflight.length ≤ 1
  queued : connection.received.map Prod.fst =
    connection.completed.map Prod.fst ++ connection.queMsg
  idle : connection.inflight = [] → connection.queMsg = []

/-- A read may find messages waiting if their number is still positive as the code counts it; a
write may complete when nothing waits behind its message. -/
def Unhurried (project : Project) (connection : Connection) : Event → Prop
  | .read _ _ => connection.queMsg = [] ∨ 0 < project.length connection.queMsg.length
  | .written _ => connection.queMsg.length ≤ 1

/-- The connection is a queue of frames whose first element is being written. -/
structure Represents (fifo : Fifo Frame) (connection : Connection) : Prop where
  received : connection.received = fifo.submitted
  completed : connection.completed = fifo.done
  queMsg : connection.queMsg = fifo.pending.map Prod.fst
  inflight : connection.inflight = fifo.current
  written : connection.written = fifo.done ++ fifo.current

variable {project : Project} {connection : Connection} {fifo : Fifo Frame}

theorem represents_accepted (text : Bool) : Represents .empty (accepted text) :=
  ⟨rfl, rfl, rfl, rfl, rfl⟩

theorem Represents.echoes (represents : Represents fifo connection) : Echoes connection := by
  obtain ⟨received, completed, queMsg, inflight, written⟩ := represents
  constructor
  · rw [written, received]
    exact fifo.done_append_current_prefix
  · rw [inflight]
    exact fifo.current_length_le
  · rw [received, completed, queMsg, ← List.map_append, fifo.done_append_pending]
  · intro none
    rw [queMsg, Fifo.current_eq_nil.mp (inflight.symm.trans none), List.map_nil]

private theorem length_zero (project : Project) : project.length 0 = 0 := by
  cases project <;> rfl

/-- A received message joins the queue, and is written when it is alone. -/
theorem Represents.onRead (represents : Represents fifo connection) (data : Payload) (gotText : Bool)
    (counted : connection.queMsg = [] ∨ 0 < project.length connection.queMsg.length) :
    Represents (fifo.submit (data, gotText)) (connection.onRead project data gotText) := by
  obtain ⟨received, completed, queMsg, inflight, written⟩ := represents
  cases pending : fifo.pending with
  | nil =>
    have empty : connection.queMsg = [] := by rw [queMsg, pending, List.map_nil]
    have idle : fifo.current = [] := by rw [Fifo.current, pending, List.take_nil]
    have next : (fifo.submit (data, gotText)).current = [(data, gotText)] := by
      rw [Fifo.current_submit, if_pos pending]
    have counts : project.length connection.queMsg.length = 0 := by
      rw [empty]
      exact length_zero project
    rw [Connection.onRead_idle (Int.le_of_eq counts)]
    constructor
    · simp only [received, Fifo.submitted_submit]
    · simp only [completed, Fifo.done_submit]
    · simp only [queMsg, Fifo.pending_submit, List.map_append, List.map_cons, List.map_nil]
    · simp only [inflight, idle, next, List.nil_append]
    · simp only [written, idle, next, Fifo.done_submit, List.append_nil]
  | cons frame rest =>
    have busy : connection.queMsg ≠ [] := by
      rw [queMsg, pending]
      exact List.cons_ne_nil _ _
    have next : (fifo.submit (data, gotText)).current = fifo.current := by
      rw [Fifo.current_submit, if_neg (by rw [pending]; exact List.cons_ne_nil _ _)]
    rw [Connection.onRead_waiting (counted.resolve_left busy)]
    constructor
    · simp only [received, Fifo.submitted_submit]
    · simp only [completed, Fifo.done_submit]
    · simp only [queMsg, Fifo.pending_submit, List.map_append, List.map_cons, List.map_nil]
    · simp only [inflight, next]
    · simp only [written, next, Fifo.done_submit]

/-- The outstanding write is the only one, and its frame is the first pending one. -/
private theorem completing {index : ℕ} {frame : Frame} (represents : Represents fifo connection)
    (outstanding : connection.inflight[index]? = some frame) :
    index = 0 ∧ ∃ rest, fifo.pending = frame :: rest ∧ connection.inflight = [frame] := by
  have single := fifo.current_length_le
  rw [← represents.inflight] at single
  obtain ⟨first, only⟩ := Fifo.eq_singleton_of_getElem? single outstanding
  obtain ⟨rest, pending⟩ := Fifo.current_eq_singleton.mp (represents.inflight.symm.trans only)
  exact ⟨first, rest, pending, only⟩

/-- A write that completes with nothing behind it leaves the connection idle. -/
theorem Represents.written_alone {index : ℕ} {frame : Frame} (represents : Represents fifo connection)
    (alone : connection.queMsg.length ≤ 1)
    (outstanding : connection.inflight[index]? = some frame) :
    Represents fifo.finish (Connection.onWrite project { connection with
      inflight := connection.inflight.eraseIdx index
      completed := connection.completed ++ [frame] }) := by
  obtain ⟨rfl, rest, pending, single⟩ := completing represents outstanding
  obtain ⟨received, completed, queMsg, inflight, written⟩ := represents
  have last : rest = [] := by
    rw [queMsg, pending, List.map_cons, List.length_cons, List.length_map] at alone
    exact List.length_eq_zero_iff.mp (by omega)
  subst last
  have tail : connection.queMsg.tail = [] := by rw [queMsg, pending]; rfl
  have empty := Fifo.pending_finish pending
  have front : fifo.done ++ fifo.current = fifo.finish.done := by
    rw [Fifo.done_finish pending, Fifo.current, pending]
    rfl
  simp only [Connection.onWrite, tail]
  constructor
  · simp only [received, Fifo.submitted_finish]
  · simp only [completed, Fifo.done_finish pending]
  · simp only [empty, List.map_nil]
  · simp only [single, Fifo.current, empty, List.eraseIdx_zero, List.tail_cons, List.take_nil]
  · rw [written, front, Fifo.current, empty, List.take_nil, List.append_nil]

/-- Every unhurried step is a step of the queue. -/
theorem represents_step {target : Connection} {event : Event}
    (represents : ∃ fifo, Represents fifo connection) (unhurried : Unhurried project connection event)
    (taken : step project connection event = some target) : ∃ fifo, Represents fifo target := by
  obtain ⟨fifo, represents⟩ := represents
  cases event with
  | read data gotText =>
    cases taken
    exact ⟨_, represents.onRead data gotText unhurried⟩
  | written index =>
    obtain ⟨frame, outstanding, rfl⟩ := Option.map_eq_some_iff.mp taken
    exact ⟨_, represents.written_alone unhurried outstanding⟩

/-- Any other step starts a second write, or queues a message twice. -/
theorem unhurried_of_echoes {target : Connection} {event : Event}
    (represents : ∃ fifo, Represents fifo connection)
    (taken : step project connection event = some target) (echoes : Echoes target) :
    Unhurried project connection event := by
  obtain ⟨fifo, represents⟩ := represents
  cases event with
  | read data gotText =>
    cases taken
    apply Classical.or_iff_not_imp_left.mpr
    intro busy
    apply Int.not_le.mp
    intro idle
    have single := echoes.single
    rw [Connection.onRead_idle idle] at single
    simp only [List.length_append, List.length_cons, List.length_nil] at single
    have none : connection.inflight = [] := List.length_eq_zero_iff.mp (by omega)
    exact busy (represents.echoes.idle none)
  | written index =>
    obtain ⟨frame, outstanding, rfl⟩ := Option.map_eq_some_iff.mp taken
    apply Nat.not_lt.mp
    intro waiting
    cases queue : connection.queMsg with
    | nil =>
      rw [queue] at waiting
      contradiction
    | cons first rest =>
      cases rest with
      | nil =>
        rw [queue] at waiting
        exact absurd waiting (Nat.lt_irrefl 1)
      | cons next rest =>
        have before := congrArg List.length represents.echoes.queued
        have after := congrArg List.length echoes.queued
        obtain ⟨queMsg, received, completed⟩ := Connection.onWrite_waiting project
          { connection with
            inflight := connection.inflight.eraseIdx index
            completed := connection.completed ++ [frame] } queue
        rw [queMsg, received, completed] at after
        simp only [queue, List.length_map, List.length_append, List.length_cons,
          List.length_nil] at before after
        omega

/-- The websocket servers echo along a run exactly when its steps are unhurried. -/
theorem echoes_iff_unhurried (project : Project) (text : Bool) (tape : List Event) :
    Always (step project) Echoes (accepted text) tape ↔
      Guarded (step project) (Unhurried project) (accepted text) tape := by
  have initial : ∃ fifo, Represents fifo (accepted text) := ⟨.empty, represents_accepted text⟩
  apply always_iff_guarded _ represents_step unhurried_of_echoes initial
  rintro connection ⟨fifo, represents⟩
  exact represents.echoes

/-- Whatever the order of completions, a write completion finds a message to pop. -/
theorem popped_nonempty (project : Project) (text : Bool) (tape : List Event) :
    Always (step project) (fun connection => connection.inflight.length ≤ connection.queMsg.length)
      (accepted text) tape := by
  refine always_of_preserved ?_ (by exact Nat.le_refl 0) tape
  intro source target event bounded taken
  cases event with
  | read data gotText =>
    cases taken
    apply Connection.asyncSend_bounded
    exact bounded
  | written index =>
    obtain ⟨frame, outstanding, rfl⟩ := Option.map_eq_some_iff.mp taken
    have present := (List.getElem?_eq_some_iff.mp outstanding).1
    have fewer := List.length_eraseIdx_of_lt present
    rw [Connection.onWrite]
    cases rest : source.queMsg.tail with
    | nil =>
      have short := congrArg List.length rest
      simp only [List.length_tail, List.length_nil] at short
      simp only [fewer, List.length_nil]
      omega
    | cons next rest' =>
      apply Connection.asyncSend_bounded
      have short := congrArg List.length rest
      simp only [List.length_tail, List.length_cons] at short
      simp only [fewer, List.length_cons]
      omega

def secondMessage : List Event := [.read [65] true, .read [66] true, .written 0]

/-- A second message arrives while the first is being written, and is never written. -/
theorem not_echoes : ¬ Always (step .beastWebsocket) Echoes (accepted true) secondMessage ∧
    ¬ Always (step .websocketTest) Echoes (accepted true) secondMessage := by
  have run (project : Project) : replay? (step project) (accepted true) secondMessage =
      some ⟨true, [[66], [66]], [], [([65], true), ([66], true)], [([65], true)], [([65], true)]⟩ := by
    cases project <;> decide +kernel
  constructor
  · intro always
    exact absurd ((always.replay (run .beastWebsocket)).idle rfl) (by decide)
  · intro always
    exact absurd ((always.replay (run .websocketTest)).idle rfl) (by decide)

end BoostLearn.Soundness.Websocket
