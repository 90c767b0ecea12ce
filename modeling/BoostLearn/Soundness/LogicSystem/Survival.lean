import BoostLearn.Soundness.HelloWorld
import BoostLearn.Soundness.LogicSystem.Dispatch

/-! # Which payloads the worker survives

The dispatcher handles every message as long as nothing leaves a callback, and nothing leaves it on
the requests it can answer. On anything else the worker, and with it the program, is gone.
-/

namespace BoostLearn.Soundness.LogicSystem

open Replay Memory Model Model.Json Model.LogicSystem Spec.HelloWorld Soundness.HelloWorld

variable {σ : Type}

/-- Nothing has left a callback, every posted message is popped or queued, each once and in order,
and where the worker holds the mutex, it can go on. -/
structure Survives (server : Server) (worker : Worker σ) : Prop where
  nothing : worker.escaped = none
  popped : worker.system.posted = worker.system.processed ++ worker.system.msgQue
  goesOn : ∀ place, worker.system.control = .worker place →
    (worker.system.dealMsg server).isSome = true

/-- The data that a step dispatches can be answered. -/
def Digested (server : Server) (json : JsonCpp) (system : LogicSystem σ) : Worker.Action σ → Prop
  | .dealMsg queued => ∀ id data, Worker.dispatched? server system = some (.ok (id, data)) →
      Answerable server json data queued
  | _ => True

/-- Every node that has been posted, or is about to be, holds a message. -/
structure Filled (system : LogicSystem σ) : Prop where
  posted : ∀ node ∈ system.posted, ∃ message : Message σ, node = message.node
  locked : ∀ node worker, system.control = .poster (.locked node) worker →
    ∃ message : Message σ, node = message.node

variable {server : Server} {json : JsonCpp} {system target : LogicSystem σ}

theorem filled_created : Filled (created : LogicSystem σ) := ⟨nofun, nofun⟩

/-- Where nobody is about to push, the posted nodes are all there is. -/
private theorem Filled.moves (filled : Filled system) (posted : target.posted = system.posted)
    (elsewhere : ∀ node worker, target.control ≠ .poster (.locked node) worker) : Filled target :=
  ⟨posted ▸ filled.posted, fun node worker place => absurd place (elsewhere node worker)⟩

theorem Filled.moved {action : Worker.Action σ} (filled : Filled system)
    (moved : Moved server system action.act target) : Filled target := by
  generalize acted : action.act = act at moved
  cases moved with
  | lock place =>
    refine ⟨filled.posted, fun node worker held => ?_⟩
    cases held
    cases action with
    | lock message =>
      cases acted
      exact ⟨message, rfl⟩
    | _ => contradiction
  | @push node worker place =>
    refine ⟨fun other present => ?_, fun other worker held => ?_⟩
    · rcases List.mem_append.mp present with present | present
      · exact filled.posted other present
      · rw [List.mem_singleton.mp present]
        exact filled.locked node worker place
    · simp only [LogicSystem.push] at held
      split_ifs at held <;> cases held
  | @wakePoster notified phase place =>
    refine ⟨filled.posted, fun node worker held => ?_⟩
    cases held
    exact filled.locked node _ place
  | setStop _ => exact ⟨filled.posted, filled.locked⟩
  | endDestructor _ => exact ⟨filled.posted, filled.locked⟩
  | _ =>
    refine filled.moves rfl fun node worker held => ?_
    cases held

/-- What is dispatched is the payload of a message. -/
private theorem message_of_dispatched {fifo : Fifo (LogicNode σ)} {result : Except Fault (ℤ × Text)}
    (represents : Represents server fifo system) (filled : Filled system)
    (dispatched : Worker.dispatched? server system = some result) :
    ∃ id data, result = .ok (id, data) := by
  rw [Worker.dispatched?] at dispatched
  split at dispatched
  · next node rest place front =>
    split_ifs at dispatched with known
    have present : node ∈ system.posted := by
      rw [represents.posted, ← fifo.done_append_pending, ← represents.msgQue, front]
      exact List.mem_append_right _ List.mem_cons_self
    obtain ⟨message, rfl⟩ := filled.posted node present
    exact ⟨message.msgId, message.payload,
      (Option.some.inj dispatched).symm.trans (congrArg Prod.snd (arguments_node server message))⟩
  · contradiction

/-- Nothing leaves a step exactly when what it dispatches can be answered. -/
theorem escape_eq_none_iff {fifo : Fifo (LogicNode σ)} {action : Worker.Action σ}
    (represents : Represents server fifo system) (filled : Filled system) :
    Worker.escape server json system action = none ↔ Digested server json system action := by
  cases action with
  | dealMsg queued =>
    rw [Worker.escape, Digested]
    cases dispatched : Worker.dispatched? server system with
    | none =>
      refine ⟨fun _ id data same => ?_, fun _ => rfl⟩
      cases same
    | some result =>
      obtain ⟨id, data, rfl⟩ := message_of_dispatched represents filled dispatched
      dsimp only
      cases called : server.helloWorldCallBack json data queued with
      | error escaped =>
        refine ⟨fun nothing => ?_, fun digested => ?_⟩
        · cases nothing
        · obtain ⟨sent, returned⟩ := returns_iff_answerable.mpr (digested id data rfl)
          rw [called] at returned
          cases returned
      | ok sent =>
        refine ⟨fun _ other others same => ?_, fun _ => rfl⟩
        cases same
        exact returns_iff_answerable.mp ⟨sent, called⟩
  | _ => exact ⟨fun _ => trivial, fun _ => rfl⟩

/-- Where the worker holds the mutex, the queue has what it is about to look at. -/
theorem Represents.goesOn {fifo : Fifo (LogicNode σ)} (represents : Represents server fifo system)
    {place : Locked} (held : system.control = .worker place) :
    (system.dealMsg server).isSome = true := by
  have control := represents.control
  rw [AtControl, held] at control
  rw [dealMsg, held]
  cases place with
  | testing =>
    dsimp only
    split_ifs <;> rfl
  | toWait => rfl
  | branching =>
    dsimp only
    split_ifs <;> rfl
  | serving drain =>
    obtain ⟨node, rest, front⟩ := List.exists_cons_of_ne_nil control.1
    rw [front]
    dsimp only
    split_ifs <;> rfl
  | served drain => rfl
  | draining =>
    dsimp only
    split_ifs <;> rfl

/-- What holds of a worker that nothing has left. -/
structure Surviving (server : Server) (worker : Worker σ) : Prop where
  nothing : worker.escaped = none
  represents : ∃ fifo, Represents server fifo worker.system
  filled : Filled worker.system

theorem surviving_created : Surviving server (Worker.created : Worker σ) :=
  ⟨rfl, ⟨.empty, represents_created⟩, filled_created⟩

theorem Surviving.survives {worker : Worker σ} (surviving : Surviving server worker) :
    Survives server worker := by
  obtain ⟨nothing, ⟨fifo, represents⟩, -⟩ := surviving
  refine ⟨nothing, ?_, fun place => represents.goesOn⟩
  rw [represents.posted, represents.processed, represents.msgQue, fifo.done_append_pending]

/-- A step of a worker is one of the logic system, with what leaves its callback. -/
private theorem Worker.step_cases {worker next : Worker σ} {action : Worker.Action σ}
    (taken : Worker.step server json worker action = some next) :
    ∃ system, step server worker.system action.act = some system ∧
      next = ⟨system, Worker.escape server json worker.system action⟩ := by
  rw [Worker.step] at taken
  split at taken
  · contradiction
  · obtain ⟨system, stepped, rfl⟩ := Option.map_eq_some_iff.mp taken
    exact ⟨system, stepped, rfl⟩

theorem Surviving.step {worker next : Worker σ} {action : Worker.Action σ}
    (surviving : Surviving server worker) (digested : Digested server json worker.system action)
    (taken : Worker.step server json worker action = some next) : Surviving server next := by
  obtain ⟨nothing, ⟨fifo, represents⟩, filled⟩ := surviving
  obtain ⟨system, stepped, rfl⟩ := Worker.step_cases taken
  constructor
  · exact (escape_eq_none_iff represents filled).mpr digested
  · exact represents_step ⟨fifo, represents⟩ stepped
  · exact filled.moved (moved_of_step stepped)

theorem digested_of_survives {worker next : Worker σ} {action : Worker.Action σ}
    (surviving : Surviving server worker)
    (taken : Worker.step server json worker action = some next) (survives : Survives server next) :
    Digested server json worker.system action := by
  obtain ⟨nothing, ⟨fifo, represents⟩, filled⟩ := surviving
  obtain ⟨system, stepped, rfl⟩ := Worker.step_cases taken
  exact (escape_eq_none_iff represents filled).mp survives.nothing

/-- A worker survives a run exactly when it can answer everything that it dispatches. -/
theorem survives_iff_digested (server : Server) (json : JsonCpp) (tape : List (Worker.Action σ)) :
    Always (Worker.step server json) (Survives server) .created tape ↔
      Guarded (Worker.step server json) (fun worker => Digested server json worker.system) .created
        tape := by
  apply always_iff_guarded _ Surviving.step digested_of_survives surviving_created
  exact fun _ => Surviving.survives

/-- JsonCpp on the empty array, which is valid JSON. -/
def emptyArray : JsonCpp where
  parse text := if text = ascii "[]" then (true, .array []) else (false, .null)
  valueToString _ := []
  toStyledString _ := ascii "[]\n"

/-- A client sends the empty array, and the worker dispatches it. -/
def fatalMessage : List (Worker.Action ℕ) :=
  [.lock ⟨7, 1001, ascii "[]", by decide⟩, .push, .notify, .unlock, .dealMsg 0, .dealMsg 0,
    .dealMsg 0, .dealMsg 0]

private theorem not_survives_fatal (server : Server) :
    ¬ Always (Worker.step server emptyArray) (Survives server) .created fatalMessage := by
  intro always
  have final : ((replay? (Worker.step server emptyArray) .created fatalMessage).map (·.escaped)) =
    some (some (.json .notAnObject)) := by cases server <;> rfl
  obtain ⟨worker, run, escaped⟩ := Option.map_eq_some_iff.mp final
  exact absurd ((always.replay run).nothing.symm.trans escaped) nofun

theorem not_survives :
    ¬ Always (Worker.step .asyncServer emptyArray) (Survives .asyncServer) .created fatalMessage ∧
      ¬ Always (Worker.step .coroutineService emptyArray) (Survives .coroutineService) .created
        fatalMessage :=
  ⟨not_survives_fatal _, not_survives_fatal _⟩

end BoostLearn.Soundness.LogicSystem
