import BoostLearn.Core.Replay

/-! # The echo server of Coroutine

One thread runs all coroutines. `listener` accepts connections and spawns an `echo` for each of them, which
reads what there is, as much as its array holds, and writes all of it back before it reads again. An
exception ends the coroutine in which it is thrown and no other one; the handler of a signal stops the
`io_context`, and no coroutine is resumed behind that. The peers write and read when they like, and what
comes back to a peer passes a buffer.
-/

namespace BoostLearn.Model.Coroutine

def maxLength : ℕ := 1024

/-- A connection and its `echo`, which is in `async_write` while something is unsent, and else in
`async_read_some`; with everything that its peer has written, and what it has printed. -/
structure Connection where
  sent : List UInt8
  toServer : List UInt8
  unsent : List UInt8
  printed : List (List UInt8)
  running : Bool
  toClient : List UInt8
  back : List UInt8
deriving DecidableEq, Repr

namespace Connection

/-- `co_spawn(executor, echo(std::move(socket)), detached)`. -/
def spawned : Connection := ⟨[], [], [], [], true, [], []⟩

inductive Event where
  | peerWrites (bytes : List UInt8)
  | peerReads (count : ℕ)
  | read (count : ℕ)
  /-- One of the writes in `async_write` has taken some bytes. -/
  | wrote (count : ℕ)
  /-- The call that the coroutine waits for throws. -/
  | throws
deriving DecidableEq, Repr

/-- Whether the thread that runs the coroutines takes part. -/
def Event.resumes : Event → Bool
  | .peerWrites _ | .peerReads _ => false
  | .read _ | .wrote _ | .throws => true

/-- What happens on a connection whose peer leaves room for a given number of bytes. -/
def apply (capacity : ℕ) (connection : Connection) : Event → Option Connection
  | .peerWrites bytes =>
    some { connection with sent := connection.sent ++ bytes, toServer := connection.toServer ++ bytes }
  | .peerReads count =>
    if 0 < count ∧ count ≤ connection.toClient.length then
      some { connection with
        toClient := connection.toClient.drop count
        back := connection.back ++ connection.toClient.take count }
    else none
  | .read count =>
    if connection.running = true ∧ connection.unsent = [] ∧ 0 < count ∧ count ≤ connection.toServer.length ∧
        count ≤ maxLength then
      some { connection with
        toServer := connection.toServer.drop count
        unsent := connection.toServer.take count
        printed := connection.printed ++ [connection.toServer.take count] }
    else none
  | .wrote count =>
    if connection.running = true ∧ 0 < count ∧ count ≤ connection.unsent.length ∧
        connection.toClient.length + count ≤ capacity then
      some { connection with
        unsent := connection.unsent.drop count
        toClient := connection.toClient ++ connection.unsent.take count }
    else none
  | .throws => if connection.running then some { connection with running := false } else none

end Connection

/-- The connections in the order in which they were accepted, whether `listener` waits for another one, and
whether a signal has stopped the context. -/
structure Program where
  connections : List Connection
  listening : Bool
  stopped : Bool
deriving DecidableEq, Repr

namespace Program

/-- `main`, in `ioc.run()`. -/
def main : Program := ⟨[], true, false⟩

inductive Action where
  | accepted
  | acceptThrows
  | signal
  | happens (index : ℕ) (event : Connection.Event)
deriving DecidableEq, Repr

def step (capacity : ℕ) (program : Program) : Action → Option Program
  | .accepted =>
    if program.listening = true ∧ program.stopped = false then
      some { program with connections := program.connections ++ [.spawned] }
    else none
  | .acceptThrows =>
    if program.listening = true ∧ program.stopped = false then some { program with listening := false } else none
  | .signal => if program.stopped = false then some { program with stopped := true } else none
  | .happens index event =>
    if event.resumes = true ∧ program.stopped = true then none
    else
      program.connections[index]?.bind fun connection =>
        (connection.apply capacity event).map fun next =>
          { program with connections := program.connections.set index next }

end Program

end BoostLearn.Model.Coroutine
