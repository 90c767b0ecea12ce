import BoostLearn.Soundness.CoroutineService.Routing
import BoostLearn.Soundness.CoroutineService.Streams

/-! # CoroutineService from the bytes of a peer to the answers it gets

For every interleaving of any number of sessions with the worker, what is written to a peer answers
the frames that this peer has sent, in their order and each at most once. While no answer meets a full
queue every frame is answered, and a session that has nothing left to do has answered them all.
-/

namespace BoostLearn.Soundness.CoroutineService

open CInt Memory Framing Framing.Format Replay Model Model.Json Model.CoroutineService

variable {σ : Type} [DecidableEq σ] {json : JsonCpp} {service target : Service σ} {exact : Prop}

/-- The peer of a session is sent answers to its own frames, in their order. -/
structure Repays (json : JsonCpp) (service : Service σ) (uuid : σ) (started : Started Unit) : Prop where
  ordered : started.sending.completed <+: started.sending.enqueued
  owed : started.sending.enqueued.Sublist (LogicSystem.owed .coroutineService json (service.arrived uuid))

/-- A session with nothing to do: it waits for more than its peer has sent, and no node of it is
posted or queued. -/
structure Settled (service : Service σ) (uuid : σ) (started : Started Unit) : Prop where
  waits : ∃ node, started.filling = some node ∧ (service.unread uuid).length < toSizeT node.maxLen
  passed : ∀ node ∈ service.logic.msgQue ++ underway service, node.session ≠ uuid
  written : started.sending.sendQue = []

/-- The peer of a session is sent the answers to its frames without a gap, and all of them by the time
the session has settled. -/
structure RepaysAll (json : JsonCpp) (service : Service σ) (uuid : σ) (started : Started Unit) : Prop where
  ordered : started.sending.completed <+: LogicSystem.owed .coroutineService json (service.arrived uuid)
  all : Settled service uuid started →
    started.sending.completed = LogicSystem.owed .coroutineService json (service.arrived uuid)

/-- What is known of the service as a whole. -/
structure Serves (exact : Prop) (json : JsonCpp) (service : Service σ) : Prop where
  routes : Routes exact json service
  hears : Hears service

theorem serves_main : Serves exact json (.main : Service σ) := ⟨routes_main, hears_main⟩

theorem Serves.step {action : Service.Action σ} (serves : Serves exact json service)
    (roomy : exact → Roomy service action) (taken : service.step json action = some target) :
    Serves exact json target :=
  ⟨serves.routes.step roomy taken, serves.hears.step taken⟩

section Session

variable {uuid : σ} {started : Started Unit}

omit [DecidableEq σ] in
/-- The answers to the posted nodes are those to the frames they hold. -/
theorem answers_posted {frames : List (ℤ × List UInt8)} (posts : Posts started frames) :
    started.posted.filterMap (LogicSystem.answer? .coroutineService json) =
      frames.filterMap (LogicSystem.answerTo .coroutineService json) := by
  have hold : started.posted.map (LogicSystem.message .coroutineService) = frames.map .ok := posts
  exact LogicSystem.filterMap_answer? hold

/-- What the session posts and what it is owed agree on its frames. -/
theorem Serves.posted_owed (serves : Serves exact json service)
    (found : service.server.started uuid = some started) :
    started.posted.filterMap (LogicSystem.answer? .coroutineService json) <+:
      LogicSystem.owed .coroutineService json (service.arrived uuid) := by
  obtain ⟨consumed, split, reached⟩ := serves.hears.sessions uuid started found
  obtain ⟨frames, posts, ahead⟩ := reached.posts
  rw [answers_posted posts, LogicSystem.owed, split]
  exact (ahead.trans (parse_frames_later consumed _)).filterMap _

theorem Serves.ordered (serves : Serves exact json service)
    (found : service.server.started uuid = some started) :
    started.sending.completed <+: started.sending.enqueued := by
  obtain ⟨fifo, represents⟩ := (serves.routes.sessions uuid started found).sending
  rw [represents.completed, represents.enqueued]
  exact fifo.done_prefix

theorem Serves.repays (serves : Serves exact json service)
    (found : service.server.started uuid = some started) : Repays json service uuid started := by
  have queued := serves.routes.nodes.queued_sublist uuid
  rw [queued_found found, posted_found found] at queued
  exact ⟨serves.ordered found, queued.trans (serves.posted_owed found).sublist⟩

/-- A session that waits for more than there is has posted every frame. -/
theorem Reached.posts_all {consumed unread : List UInt8} {node : MsgNode}
    (reached : Reached consumed started) (fills : started.filling = some node)
    (short : unread.length < toSizeT node.maxLen) :
    Posts started (Spec.coroutineService.parse (consumed ++ unread)).frames := by
  cases reached with
  | spawned phase _ _ _ =>
    rw [Started.filling, phase] at fills
    cases fills
  | head phase parsed posts headed =>
    rw [Started.filling, phase] at fills
    cases fills
    rw [headed.size, toSizeT_natCast (by decide)] at short
    rw [parse_boundary parsed, parse_short short, Parsed.prepend_frames, List.append_nil]
    exact posts
  | body phase split parsed whole verdict limit held posts headed =>
    rw [Started.filling, phase, held] at fills
    cases fills
    rw [toSizeT_of_limit limit] at short
    rw [split, List.append_assoc, parse_boundary parsed, parse_open whole verdict short,
      Parsed.prepend_frames, List.append_nil]
    exact posts
  | ended finished _ _ =>
    rw [Started.filling] at fills
    rcases finished with ⟨_, same⟩ | ⟨_, same, -⟩ <;> rw [same] at fills <;> cases fills

/-- Every answer to what a settled session has posted has been queued. -/
theorem Serves.queued_settled (serves : Serves True json service)
    (found : service.server.started uuid = some started) (settled : Settled service uuid started) :
    started.sending.enqueued = started.posted.filterMap (LogicSystem.answer? .coroutineService json) := by
  have passed : ∀ node ∈ (service.logic.msgQue ++ LogicSystem.locked service.logic.control) ++
      service.posting.toList, node.session ≠ uuid := by
    rw [List.append_assoc]
    exact settled.passed
  have queued := serves.routes.nodes.queued_all trivial
    (LogicSystem.nodesOf_other fun node member => passed node (List.mem_append_right _ member))
    fun node member => passed node (List.mem_append_left _ member)
  rwa [queued_found found, posted_found found] at queued

theorem Serves.repaysAll (serves : Serves True json service)
    (found : service.server.started uuid = some started) : RepaysAll json service uuid started := by
  constructor
  · have queued := serves.routes.nodes.queued_prefix trivial uuid
    rw [queued_found found, posted_found found] at queued
    exact (serves.ordered found).trans (queued.trans (serves.posted_owed found))
  · intro settled
    obtain ⟨node, fills, short⟩ := settled.waits
    obtain ⟨consumed, split, reached⟩ := serves.hears.sessions uuid started found
    obtain ⟨fifo, represents⟩ := (serves.routes.sessions uuid started found).sending
    have all : started.sending.completed = started.sending.enqueued := by
      rw [represents.completed, represents.enqueued, ← fifo.done_append_pending, ← represents.sendQue,
        settled.written, List.append_nil]
    rw [all, serves.queued_settled found settled, LogicSystem.owed, split]
    exact answers_posted (reached.posts_all fills short)

end Session

/-- Whatever happens in whatever order, every session repays its own peer. -/
theorem repays_always (json : JsonCpp) (tape : List (Service.Action σ)) :
    Always (Service.step json) (fun service => ∀ uuid started,
      service.server.started uuid = some started → Repays json service uuid started) .main tape := by
  have preserved {source target : Service σ} {action : Service.Action σ}
      (serves : Serves False json source) (taken : source.step json action = some target) :
      Serves False json target := serves.step False.elim taken
  exact (always_of_preserved preserved serves_main tape).imp fun _ serves _ _ => serves.repays

/-- And while no answer meets a full queue, it repays it in full. -/
theorem repaysAll_of_roomy (json : JsonCpp) (tape : List (Service.Action σ))
    (roomy : Guarded (Service.step json) Roomy .main tape) :
    Always (Service.step json) (fun service => ∀ uuid started,
      service.server.started uuid = some started → RepaysAll json service uuid started) .main tape := by
  have preserved {source target : Service σ} {action : Service.Action σ}
      (serves : Serves True json source) (roomy : Roomy source action)
      (taken : source.step json action = some target) :
      Serves True json target := serves.step (fun _ => roomy) taken
  exact (always_of_guarded preserved serves_main roomy).imp fun _ serves _ _ => serves.repaysAll

/-- JsonCpp on the empty object and on its answer. -/
def emptyObject : JsonCpp where
  parse text := if text = ascii "\x7b\x7d" then (true, .object []) else (false, .null)
  valueToString _ := []
  toStyledString _ :=
    ascii "\x7b\n\t\"data\" : \"server is received msg ,msg data is \",\n\t\"id\" : null\n\x7d\n"

/-- A peer sends the empty object and is sent its answer. -/
def oneExchange : List (Service.Action ℕ) :=
  [.arrives 7 [3, 233, 0, 2, 123, 125], .accept 7 true, .read 7 false, .read 7 false, .lock, .push,
    .notify, .unlock, .dealMsg, .dealMsg, .dealMsg, .dealMsg, .asyncWrite 7 0, .dealMsg,
    .handleWrite 7 0 true]

theorem repaysAll_oneExchange :
    Always (Service.step emptyObject) (fun service => ∀ uuid started,
      service.server.started uuid = some started → RepaysAll emptyObject service uuid started) .main
        oneExchange ∧
      ((replay? (Service.step emptyObject) .main oneExchange).bind (·.server.started 7)).map
        (·.sending.completed.length) = some 1 :=
  ⟨repaysAll_of_roomy emptyObject oneExchange (by decide +kernel), by decide +kernel⟩

end BoostLearn.Soundness.CoroutineService
