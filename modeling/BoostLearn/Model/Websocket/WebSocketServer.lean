import BoostLearn.Model.Websocket.Connection

/-! # The websocket servers as programs

`main` calls `Start_Accept` once, and nothing calls it again: a program has one connection. Behind the
handshake the connection is kept in the map of `ConnectionMgr`, until a read or a write of it fails; its
reads go on behind a write that has failed, and the message of that write stays in `que_msg`. The program
ends when nothing is outstanding any more.
-/

namespace BoostLearn.Model.Websocket

/-- What is outstanding besides writes. -/
inductive Waiting where
  | accept
  | handshake
  | read
  | nothing
deriving DecidableEq, Repr

/-- The keys of `_map` are the uuids of the connections in it. -/
structure WebSocketServer (σ : Type) where
  waiting : Waiting
  map : List σ
  connection : Connection
deriving DecidableEq, Repr

namespace WebSocketServer

variable {σ : Type}

/-- `main` behind `Start_Accept`. -/
def main (text : Bool) : WebSocketServer σ := ⟨.accept, [], accepted text⟩

inductive Action where
  | accepted (success : Bool)
  | handshaken (success : Bool)
  | read (data : Payload) (gotText : Bool)
  | readFailed
  | written (index : ℕ)
  | writeFailed (index : ℕ)
deriving DecidableEq, Repr

variable [DecidableEq σ]

def addConnection (map : List σ) (uuid : σ) : List σ := if uuid ∈ map then map else uuid :: map

def rmConnection (map : List σ) (uuid : σ) : List σ := map.filter (· ≠ uuid)

/-- A handler runs. -/
def step (project : Project) (uuid : σ) (server : WebSocketServer σ) : Action → Option (WebSocketServer σ)
  | .accepted success =>
    if server.waiting = .accept then
      some { server with waiting := if success then .handshake else .nothing }
    else none
  | .handshaken success =>
    if server.waiting = .handshake then
      some (if success then { server with waiting := .read, map := addConnection server.map uuid }
        else { server with waiting := .nothing })
    else none
  | .read data gotText =>
    if server.waiting = .read then
      some { server with connection := server.connection.onRead project data gotText }
    else none
  | .readFailed =>
    if server.waiting = .read then
      some { server with waiting := .nothing, map := rmConnection server.map uuid }
    else none
  | .written index =>
    (Websocket.step project server.connection (.written index)).map fun connection =>
      { server with connection }
  | .writeFailed index =>
    server.connection.inflight[index]?.map fun _ =>
      { server with
        map := rmConnection server.map uuid
        connection := { server.connection with inflight := server.connection.inflight.eraseIdx index } }

end WebSocketServer

end BoostLearn.Model.Websocket
