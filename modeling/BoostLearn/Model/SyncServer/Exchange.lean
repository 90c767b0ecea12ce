import BoostLearn.Core.Replay
import BoostLearn.Model.SyncServer.Session

/-! # testClient at the other end

The client writes one line, reads until it has as many bytes, prints them, and waits for a key before
its socket is closed. Each direction of the connection has a buffer. Either side may fail at any time;
the bytes stay where they were then.
-/

namespace BoostLearn.Model.TestClient

open SyncServer

/-- What `cin.getline` leaves in `request`, up to the first zero. -/
structure Line where
  letters : List UInt8
  short : letters.length < maxLength
  plain : 0 ∉ letters

inductive Stage where
  | exchanging
  | printed
  | closed
deriving DecidableEq, Repr

/-- `main`; it is in `asio::write` while something is unsent, and then in `asio::read`. -/
structure Client where
  unsent : List UInt8
  reply : List UInt8
  stage : Stage
deriving DecidableEq, Repr

structure Exchange where
  client : Client
  toServer : List UInt8
  session : Session
  toClient : List UInt8
deriving DecidableEq, Repr

inductive Action where
  | clientWrites (count : ℕ)
  | clientReads (count : ℕ)
  | clientPrints
  /-- A key, or an exception. -/
  | clientCloses
  | sessionReads (count : ℕ) (connected : Bool)
  | sessionWrites (count : ℕ)
  | sessionSeesEof
  | sessionFails
deriving DecidableEq, Repr

namespace Exchange

def start (line : Line) : Exchange := ⟨⟨line.letters, [], .exchanging⟩, [], .start, []⟩

/-- What the client asks `asio::read` for is not there yet. -/
def Lacks (line : Line) (client : Client) : Prop := client.reply.length < line.letters.length

instance (line : Line) (client : Client) : Decidable (Lacks line client) := inferInstanceAs (Decidable (_ < _))

/-- One step of one side, with buffers of a given capacity. -/
def step (line : Line) (capacity : ℕ) (exchange : Exchange) : Action → Option Exchange
  | .clientWrites count =>
    let client := exchange.client
    if client.stage = .exchanging ∧ 0 < count ∧ count ≤ client.unsent.length ∧
        exchange.toServer.length + count ≤ capacity then
      some { exchange with
        client := { client with unsent := client.unsent.drop count }
        toServer := exchange.toServer ++ client.unsent.take count }
    else none
  | .clientReads count =>
    let client := exchange.client
    if client.stage = .exchanging ∧ client.unsent = [] ∧ Lacks line client ∧ 0 < count ∧
        count ≤ exchange.toClient.length ∧ client.reply.length + count ≤ line.letters.length then
      some { exchange with
        client := { client with reply := client.reply ++ exchange.toClient.take count }
        toClient := exchange.toClient.drop count }
    else none
  | .clientPrints =>
    let client := exchange.client
    if client.stage = .exchanging ∧ client.unsent = [] ∧ ¬ Lacks line client then
      some { exchange with client := { client with stage := .printed } }
    else none
  | .clientCloses =>
    if exchange.client.stage = .closed then none
    else some { exchange with client := { exchange.client with stage := .closed } }
  | .sessionReads count connected =>
    if count ≤ exchange.toServer.length then
      (exchange.session.step (.received (exchange.toServer.take count) connected)).map fun session =>
        { exchange with session, toServer := exchange.toServer.drop count }
    else none
  | .sessionWrites count =>
    if exchange.toClient.length + count ≤ capacity then
      (exchange.session.step (.wrote count)).map fun session =>
        { exchange with session, toClient := exchange.toClient ++ exchange.session.unsent.take count }
    else none
  | .sessionSeesEof =>
    if exchange.client.stage = .closed ∧ exchange.toServer = [] then
      (exchange.session.step .eof).map fun session => { exchange with session }
    else none
  | .sessionFails => (exchange.session.step .failed).map fun session => { exchange with session }

end Exchange

end BoostLearn.Model.TestClient
