import BoostLearn.Soundness.LogicSystem.Dispatch

/-! # What sessions post comes out of the logic system in their order

Every node that a session has handed over is still on its way to the mutex, or it is in the logic system, and
the nodes of one session keep their order among those of the others. When each node with a callback is answered
on its own session as the worker goes through it, the answers of a session are those to its own nodes, in order.
-/

namespace BoostLearn.Soundness.LogicSystem

open Memory Model Model.LogicSystem

variable {σ ρ : Type}

section Nodes

/-- The node with which the poster has the mutex, until it pushes it. -/
def locked : Control σ → List (LogicNode σ)
  | .poster (.locked node) _ => [node]
  | _ => []

/-- What the worker has been through, with the node in service. -/
def served (logic : LogicSystem σ) : List (LogicNode σ) := logic.processed ++ logic.inService

/-- The node at which the worker is. -/
def serving (logic : LogicSystem σ) : List (LogicNode σ) :=
  match logic.control, logic.msgQue with
  | .worker (.serving _), node :: _ => [node]
  | _, _ => []

/-- The node that the worker is about to call a callback for. -/
def callee? (logic : LogicSystem σ) : Option (LogicNode σ) :=
  match logic.control, logic.msgQue with
  | .worker (.serving _), node :: _ => if registered node then some node else none
  | _, _ => none

/-- What an action of the logic system brings. -/
def brings : Action σ → List (LogicNode σ)
  | .lock node => [node]
  | _ => []

/-- What the worker goes through in an action. -/
def passes (logic : LogicSystem σ) : Action σ → List (LogicNode σ)
  | .dealMsg => serving logic
  | _ => []

variable {logic next : LogicSystem σ} {server : Server} {action : Action σ} {node : LogicNode σ}

/-- A move of the logic system loses no node. -/
theorem posted_of_moved (moved : Moved server logic action next) :
    next.posted ++ locked next.control = logic.posted ++ locked logic.control ++ brings action := by
  cases moved with
  | lock place => simp only [locked, place, brings, List.append_nil]
  | @push node worker place =>
    have pushed : locked (logic.push node worker).control = [] := by
      simp only [LogicSystem.push]
      split_ifs <;> rfl
    rw [pushed, place]
    simp only [LogicSystem.push, locked, brings, List.append_nil]
  | @skip drain _ _ place _ _ =>
    cases drain <;> simp only [LogicSystem.pop, locked, place, brings, List.append_nil]
  | @finish drain place =>
    cases drain <;> simp only [LogicSystem.pop, locked, place, brings, List.append_nil]
  | start place => rcases place with place | place <;> simp [locked, place, brings]
  | @wakePoster notified phase place => cases phase <;> simp [locked, place, brings]
  | setStop _ => simp [brings]
  | endDestructor _ => simp [brings]
  | _ => simp [locked, *, brings]

/-- The worker goes through the nodes one after the other, and nobody else does. -/
theorem served_of_moved (moved : Moved server logic action next) :
    served next = served logic ++ passes logic action := by
  cases moved with
  | @skip drain node rest place front unknown =>
    cases drain <;> simp [served, passes, serving, LogicSystem.pop, LogicSystem.inService, place, front]
  | @finish drain place =>
    cases drain <;> simp [served, passes, serving, LogicSystem.pop, LogicSystem.inService, place]
  | call place front known => simp [served, passes, serving, LogicSystem.inService, place, front]
  | push place => simp [served, passes, LogicSystem.push, LogicSystem.inService, place]
  | start place =>
    rcases place with place | place <;> simp [served, passes, serving, LogicSystem.inService, place]
  | setStop _ => simp [served, passes, LogicSystem.inService]
  | endDestructor _ => simp [served, passes, LogicSystem.inService]
  | _ => simp [served, passes, serving, LogicSystem.inService, *]

/-- What the worker has been through has been posted. -/
theorem served_later {fifo : Fifo (LogicNode σ)} (represents : Represents server fifo logic) :
    served logic <+: logic.posted := by
  rw [served, represents.posted, represents.processed, ← fifo.done_append_pending,
    List.prefix_append_right_inj, ← represents.msgQue]
  exact inService_prefix logic

/-- The actions of posters, and the wake-up of a worker that waits. -/
def OffDuty : Action σ → Prop
  | .lock _ | .push | .notify | .unlock | .wake => True
  | .dealMsg | .setStop | .endDestructor => False

/-- The worker has no part in these. -/
theorem elsewhere_of_moved (moved : Moved server logic action next) (off : OffDuty action) :
    (∀ place, logic.control ≠ .worker place) ∧ next.destructor = logic.destructor ∧ passes logic action = [] := by
  cases moved with
  | lock place | push place | notify place | unlock place | wakeFree place | wakePoster place =>
    exact ⟨fun other held => (by cases place.symm.trans held), rfl, rfl⟩
  | setStop _ | endDestructor _ => exact off.elim
  | _ => exact off.elim

/-- Only a thread that comes with a node becomes a poster. -/
theorem not_poster_of_moved (moved : Moved server logic action next) (off : OffDuty action)
    (nothing : brings action = []) (free : ∀ phase worker, logic.control ≠ .poster phase worker) :
    ∀ phase worker, next.control ≠ .poster phase worker := by
  cases moved with
  | lock _ => cases nothing
  | push place | notify place | wakePoster place => exact absurd place (free _ _)
  | unlock _ | wakeFree _ => exact fun _ _ same => by cases same
  | setStop _ | endDestructor _ => exact off.elim
  | _ => exact off.elim

theorem not_poster_of_dealMsg (moved : Moved server logic .dealMsg next) (phase : Posting σ) (worker : Released) :
    next.control ≠ .poster phase worker := by
  cases moved with
  | @skip drain _ _ _ _ _ => cases drain <;> nofun
  | @finish drain _ => cases drain <;> nofun
  | _ => nofun

theorem running_of_dealMsg (moved : Moved server logic .dealMsg next) : next.destructor = logic.destructor := by
  cases moved <;> rfl

/-- A worker that is at no callback passes nodes that have none. -/
theorem unregistered_of_silent (silent : callee? logic = none) :
    ∀ node ∈ serving logic, node.recvNode.msgId ≠ msgHelloWorld := by
  intro node member
  rw [serving] at member
  rw [callee?] at silent
  split at member
  · next drain first rest place front =>
    rw [place, front] at silent
    dsimp only at silent
    split_ifs at silent with known
    rw [List.mem_singleton.mp member]
    simpa [registered] using known
  · contradiction

/-- A worker that is at a callback is at a node with the callback's id. -/
theorem serving_of_callee (serves : callee? logic = some node) :
    serving logic = [node] ∧ node.recvNode.msgId = msgHelloWorld ∧
      ∃ drain rest, logic.control = .worker (.serving drain) ∧ logic.msgQue = node :: rest := by
  rw [callee?] at serves
  split at serves
  · next drain first rest place front =>
    split_ifs at serves with known
    cases serves
    refine ⟨by rw [serving, place, front], ?_, drain, rest, place, front⟩
    simpa [registered] using known
  · contradiction

/-- The callback of the node is called, and the node stays at the front. -/
theorem called_of_callee (serves : callee? logic = some node) (moved : Moved server logic .dealMsg next) :
    ∃ drain rest, logic.control = .worker (.serving drain) ∧ logic.msgQue = node :: rest ∧
      next.control = .worker (.served drain) ∧ next.msgQue = node :: rest := by
  obtain ⟨-, known, drain, rest, place, front⟩ := serving_of_callee serves
  refine ⟨drain, rest, place, front, ?_⟩
  cases moved with
  | call at_ _ _ =>
    cases place.symm.trans at_
    exact ⟨rfl, front⟩
  | skip at_ ahead unknown =>
    cases front.symm.trans ahead
    rw [registered, known] at unknown
    cases unknown
  | start at_ => rcases at_ with at_ | at_ <;> cases place.symm.trans at_
  | _ => simp_all

/-- The worker is in the callback of a node of the session. -/
def Calling (logic : LogicSystem σ) (uuid : σ) : Prop :=
  ∃ drain node rest, logic.control = .worker (.served drain) ∧ logic.msgQue = node :: rest ∧ node.session = uuid

/-- A node at a callback has been posted. -/
theorem Represents.callee_posted {fifo : Fifo (LogicNode σ)} (represents : Represents server fifo logic)
    (serves : callee? logic = some node) : node ∈ logic.posted := by
  obtain ⟨-, -, drain, rest, -, front⟩ := serving_of_callee serves
  rw [represents.posted, ← fifo.done_append_pending, ← represents.msgQue, front]
  exact List.mem_append_right _ List.mem_cons_self

end Nodes

section Answers

/-- What has been queued for a session, against the answers that it is owed. -/
def Answered (exact : Prop) (queued owed : List ρ) : Prop :=
  queued.Sublist owed ∧ (exact → queued = owed)

variable {exact : Prop} {queued owed : List ρ}

theorem Answered.append (answered : Answered exact queued owed) (more : List ρ) :
    Answered exact (queued ++ more) (owed ++ more) :=
  ⟨answered.1.append_right more, fun exactly => by rw [answered.2 exactly]⟩

/-- A message that is not answered may have been owed one, unless the answers are exact. -/
theorem Answered.skip (answered : Answered exact queued owed) (more : List ρ)
    (nothing : exact → more = []) : Answered exact queued (owed ++ more) := by
  refine ⟨answered.1.trans (List.sublist_append_left _ _), fun exactly => ?_⟩
  rw [nothing exactly, List.append_nil]
  exact answered.2 exactly

end Answers

section Ledger

variable [DecidableEq σ]

/-- The nodes of a session among all. -/
def nodesOf (uuid : σ) (nodes : List (LogicNode σ)) : List (RecvNode ℤ) :=
  (nodes.filter (·.session = uuid)).map LogicNode.recvNode

theorem nodesOf_append (uuid : σ) (first second : List (LogicNode σ)) :
    nodesOf uuid (first ++ second) = nodesOf uuid first ++ nodesOf uuid second := by
  rw [nodesOf, List.filter_append, List.map_append]
  rfl

theorem nodesOf_self {uuid : σ} {nodes : List (LogicNode σ)}
    (own : ∀ node ∈ nodes, node.session = uuid) : nodesOf uuid nodes = nodes.map LogicNode.recvNode := by
  rw [nodesOf, List.filter_eq_self.mpr fun node member => decide_eq_true (own node member)]

theorem nodesOf_other {uuid : σ} {nodes : List (LogicNode σ)}
    (others : ∀ node ∈ nodes, node.session ≠ uuid) : nodesOf uuid nodes = [] := by
  rw [nodesOf, List.filter_eq_nil_iff.mpr fun node member => by simpa using others node member]
  rfl

omit [DecidableEq σ] in
/-- What the sessions have handed over, what of it is on its way to the mutex, and what they have queued. -/
structure Ledger (σ ρ : Type) where
  posted : σ → List (RecvNode ℤ)
  posting : σ → List (RecvNode ℤ)
  queued : σ → List ρ

/-- No node is lost or overtaken by another one of its session, and the worker has answered what it has been
through. -/
structure Routes (exact : Prop) (answer? : RecvNode ℤ → Option ρ) (server : Server) (logic : LogicSystem σ)
    (ledger : Ledger σ ρ) : Prop where
  represents : ∃ fifo, Represents server fifo logic
  running : logic.destructor = .notStarted
  posted : ∀ uuid, ledger.posted uuid =
    nodesOf uuid (logic.posted ++ locked logic.control) ++ ledger.posting uuid
  answered : ∀ uuid, Answered exact (ledger.queued uuid) ((nodesOf uuid (served logic)).filterMap answer?)

variable {exact : Prop} {answer? : RecvNode ℤ → Option ρ} {server : Server} {logic next : LogicSystem σ}
  {action : Action σ} {ledger later : Ledger σ ρ} {uuid : σ}

theorem routes_created :
    Routes exact answer? server (.created : LogicSystem σ) ⟨fun _ => [], fun _ => [], fun _ => []⟩ :=
  ⟨⟨.empty, represents_created⟩, rfl, fun _ => rfl, fun _ => ⟨.refl _, fun _ => rfl⟩⟩

/-- The logic system moves: what it brings has been on its way, and what it goes through is answered. -/
theorem Routes.moves (routes : Routes exact answer? server logic ledger) (moved : Moved server logic action next)
    (running : next.destructor = logic.destructor) (posted : ∀ uuid, later.posted uuid = ledger.posted uuid)
    (posting : ∀ uuid, nodesOf uuid (brings action) ++ later.posting uuid = ledger.posting uuid)
    (answered : ∀ uuid owed, Answered exact (ledger.queued uuid) owed →
      Answered exact (later.queued uuid) (owed ++ (nodesOf uuid (passes logic action)).filterMap answer?)) :
    Routes exact answer? server next later := by
  refine ⟨represents_moved routes.represents moved, running.trans routes.running, fun uuid => ?_, fun uuid => ?_⟩
  · rw [posted, routes.posted, ← posting, ← List.append_assoc, ← nodesOf_append, posted_of_moved moved]
  · rw [served_of_moved moved, nodesOf_append, List.filterMap_append]
    exact answered uuid _ (routes.answered uuid)

/-- Nothing moves in the logic system while a session hands over some nodes. -/
theorem Routes.stays (routes : Routes exact answer? server logic ledger)
    (posts : ∀ uuid, ∃ nodes, later.posted uuid = ledger.posted uuid ++ nodes ∧
      later.posting uuid = ledger.posting uuid ++ nodes)
    (answered : ∀ uuid owed, Answered exact (ledger.queued uuid) owed →
      Answered exact (later.queued uuid) owed) : Routes exact answer? server logic later := by
  refine ⟨routes.represents, routes.running, fun uuid => ?_, fun uuid => answered uuid _ (routes.answered uuid)⟩
  obtain ⟨nodes, posted, posting⟩ := posts uuid
  rw [posted, posting, routes.posted, List.append_assoc]

/-- The session of a callback has handed its node over. -/
theorem Routes.callee_posted {node : LogicNode σ} (routes : Routes exact answer? server logic ledger)
    (serves : callee? logic = some node) : node.recvNode ∈ ledger.posted node.session := by
  obtain ⟨fifo, represents⟩ := routes.represents
  rw [routes.posted]
  refine List.mem_append_left _ (List.mem_map.mpr ⟨node, List.mem_filter.mpr ⟨List.mem_append_left _ ?_, ?_⟩, rfl⟩)
  · exact represents.callee_posted serves
  · exact decide_eq_true rfl

/-- What the worker has been through of a session is a front of what it has handed over. -/
theorem Routes.served_posted (routes : Routes exact answer? server logic ledger) (uuid : σ) :
    nodesOf uuid (served logic) <+: ledger.posted uuid := by
  obtain ⟨fifo, represents⟩ := routes.represents
  obtain ⟨behind, split⟩ := served_later represents
  rw [routes.posted, ← split, List.append_assoc, nodesOf_append, List.append_assoc]
  exact List.prefix_append _ _

/-- So a session queues answers to what it has handed over, in order. -/
theorem Routes.queued_sublist (routes : Routes exact answer? server logic ledger) (uuid : σ) :
    (ledger.queued uuid).Sublist ((ledger.posted uuid).filterMap answer?) :=
  (routes.answered uuid).1.trans ((routes.served_posted uuid).filterMap answer?).sublist

/-- And without a gap, as long as nothing is skipped. -/
theorem Routes.queued_prefix (routes : Routes exact answer? server logic ledger) (exactly : exact) (uuid : σ) :
    ledger.queued uuid <+: (ledger.posted uuid).filterMap answer? := by
  rw [(routes.answered uuid).2 exactly]
  exact (routes.served_posted uuid).filterMap answer?

/-- When nothing of a session is on its way or in the queue, everything of it has been answered. -/
theorem Routes.queued_all (routes : Routes exact answer? server logic ledger) (exactly : exact)
    (arrived : ledger.posting uuid = [])
    (passed : ∀ node ∈ logic.msgQue ++ locked logic.control, node.session ≠ uuid) :
    ledger.queued uuid = (ledger.posted uuid).filterMap answer? := by
  obtain ⟨fifo, represents⟩ := routes.represents
  have posted : logic.posted = logic.processed ++ logic.msgQue := by
    rw [represents.posted, represents.processed, represents.msgQue, fifo.done_append_pending]
  have waiting : nodesOf uuid logic.msgQue = [] :=
    nodesOf_other fun node member => passed node (List.mem_append_left _ member)
  have held : nodesOf uuid (locked logic.control) = [] :=
    nodesOf_other fun node member => passed node (List.mem_append_right _ member)
  have begun := LogicSystem.inService_prefix logic
  have inService : nodesOf uuid logic.inService = [] := nodesOf_other fun node member =>
    passed node (List.mem_append_left _ (begun.subset member))
  rw [(routes.answered uuid).2 exactly, routes.posted, arrived, served, posted]
  simp only [nodesOf_append, waiting, held, inService, List.append_nil]

end Ledger

end BoostLearn.Soundness.LogicSystem
