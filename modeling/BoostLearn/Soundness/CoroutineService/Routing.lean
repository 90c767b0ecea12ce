import BoostLearn.Soundness.CoroutineService.Sending
import BoostLearn.Soundness.CoroutineService.Steps
import BoostLearn.Soundness.LogicSystem.Answers

/-! # What goes through CoroutineService comes out for the session it came from

Every node that a coroutine posts is about to be pushed, or is in the logic system, and each session's
nodes keep their order among those of the others. The worker answers the nodes in that order, each on
its own session and unless the session's queue is full, and a session's answers are written in order.
-/

namespace BoostLearn.Soundness.CoroutineService

open CInt Memory Replay Model Model.Json Model.CoroutineService

variable {σ : Type} {json : JsonCpp} {service target : Service σ}

section Answers

variable {node : RecvNode ℤ} {size : ℕ}

/-- In front of a queue with room, `Send` makes the node of the reply. -/
theorem send_room (room : size ≤ maxLength) (reply : Text × ℤ) :
    newSendNode reply = (LogicSystem.Server.coroutineService.send size reply.1 reply.2).toOption.join := by
  simp only [LogicSystem.Server.send]
  rw [if_neg (Nat.not_lt.mpr room), newSendNode]
  cases SendNode.new reply.1 (toSizeT (toShort reply.1.length)) reply.2 <;> rfl

/-- So it makes one, if it returns. -/
theorem pushed_of_room (room : size ≤ maxLength) {reply : Text × ℤ} {pushed : Option SendNode}
    (sent : LogicSystem.Server.coroutineService.send size reply.1 reply.2 = .ok pushed) :
    pushed.isSome = true := by
  simp only [LogicSystem.Server.send] at sent
  rw [if_neg (Nat.not_lt.mpr room)] at sent
  obtain ⟨node, -, same⟩ := ok_of_bind sent
  cases same
  rfl

theorem answer?_of_escape {escaped : Escape} (room : size ≤ maxLength)
    (left : callBack json node size = .error escaped) :
    LogicSystem.answer? .coroutineService json node = none := by
  by_cases known : node.msgId = LogicSystem.msgHelloWorld
  · cases told : message node with
    | error fault => exact LogicSystem.answer?_unreadable told
    | ok sent =>
      have readable : LogicSystem.message .coroutineService node = .ok sent := told
      rw [LogicSystem.answer?_registered readable known]
      rw [callBack, told, Except.mapError, bind_of_ok rfl] at left
      cases replied : LogicSystem.Server.coroutineService.reply json sent.2 with
      | error error => rfl
      | ok reply =>
        rw [Except.toOption, Option.bind_some, LogicSystem.newSendNode, send_room room]
        dsimp only at left
        rw [replied, Except.mapError, bind_of_ok rfl] at left
        cases pushed : LogicSystem.Server.coroutineService.send size reply.1 reply.2 with
        | error fault => rfl
        | ok pushed' =>
          rw [pushed, Except.mapError, bind_of_ok rfl] at left
          cases left
  · exact LogicSystem.answer?_unregistered known

/-- What a callback sends in front of a queue with room is the answer. -/
theorem answer?_of_reply {reply : Text × ℤ} (known : node.msgId = LogicSystem.msgHelloWorld)
    (room : size ≤ maxLength) (called : callBack json node size = .ok reply) :
    ∃ sent, newSendNode reply = some sent ∧ LogicSystem.answer? .coroutineService json node = some sent := by
  obtain ⟨sent, told, called⟩ := ok_of_bind called
  have told : LogicSystem.message .coroutineService node = .ok sent := HelloWorld.ok_of_mapError told
  dsimp only at called
  obtain ⟨reply', replied, called⟩ := ok_of_bind called
  have replied := HelloWorld.ok_of_mapError replied
  obtain ⟨pushed, built, called⟩ := ok_of_bind called
  cases called
  have built := HelloWorld.ok_of_mapError built
  obtain ⟨fresh, rfl⟩ := Option.isSome_iff_exists.mp (pushed_of_room room built)
  have made : newSendNode reply = some fresh := by
    rw [send_room room, built]
    rfl
  refine ⟨fresh, made, ?_⟩
  rw [LogicSystem.answer?_registered told known, replied, Except.toOption, Option.bind_some, LogicSystem.newSendNode,
    made]

end Answers

/-- What a coroutine has posted and the logic system has not got. -/
def underway (service : Service σ) : List (LogicNode σ) :=
  LogicSystem.locked service.logic.control ++ service.posting.toList

/-- What is known of a session: the worker only leaves it with nothing to write. -/
structure Routed (logic : LogicSystem σ) (uuid : σ) (started : Started Unit) : Prop where
  sending : ∃ fifo, Represents fifo started.sending
  deciding : started.sending.deciding ≠ [] → LogicSystem.Calling logic uuid

theorem Routed.idle {logic : LogicSystem σ} {uuid : σ} {started : Started Unit} (routed : Routed logic uuid started)
    (elsewhere : ∀ drain, logic.control ≠ .worker (.served drain)) : started.sending.deciding = [] := by
  by_contra deciding
  obtain ⟨drain, node, rest, place, -⟩ := routed.deciding deciding
  exact elsewhere drain place

variable [DecidableEq σ] {exact : Prop} {uuid : σ}

/-- What the sessions have posted, what of it the thread in `main` is about to push, and what they have queued. -/
def ledger (service : Service σ) : LogicSystem.Ledger σ SendNode where
  posted uuid :=
    match service.server.started uuid with
    | none => []
    | some started => started.posted
  posting uuid := LogicSystem.nodesOf uuid service.posting.toList
  queued uuid :=
    match service.server.started uuid with
    | none => []
    | some started => started.sending.enqueued

/-- The thread in `main` is not in `PostMsgToQue` and about to enter it. -/
structure Routes (exact : Prop) (json : JsonCpp) (service : Service σ) : Prop where
  nodes : LogicSystem.Routes exact (LogicSystem.answer? .coroutineService json) .coroutineService service.logic
    (ledger service)
  single : service.posting ≠ none → ∀ phase worker, service.logic.control ≠ .poster phase worker
  sessions : ∀ uuid started, service.server.started uuid = some started → Routed service.logic uuid started

theorem routes_main : Routes exact json (.main : Service σ) where
  nodes := LogicSystem.routes_created
  single := fun posting => absurd rfl posting
  sessions := fun _ _ found => by cases found

theorem posted_found {started : Started Unit} (found : service.server.started uuid = some started) :
    (ledger service).posted uuid = started.posted := by
  simp only [ledger, found]

theorem queued_found {started : Started Unit} (found : service.server.started uuid = some started) :
    (ledger service).queued uuid = started.sending.enqueued := by
  simp only [ledger, found]

/-- Every node has come from a session. -/
theorem Routes.known (routes : Routes exact json service) {node : LogicNode σ}
    (member : node ∈ service.logic.posted ++ underway service) :
    ∃ started, service.server.started node.session = some started := by
  cases found : service.server.started node.session with
  | some started => exact ⟨started, rfl⟩
  | none =>
    have posted := routes.nodes.posted node.session
    simp only [ledger, found] at posted
    rw [← LogicSystem.nodesOf_append, List.append_assoc] at posted
    have own : node.recvNode ∈ LogicSystem.nodesOf node.session (service.logic.posted ++ underway service) :=
      List.mem_map_of_mem (List.mem_filter.mpr ⟨member, decide_eq_true rfl⟩)
    have none := posted.symm ▸ own
    cases none

section Ledgers

variable {started next : Started Unit} {clears : Bool}

/-- What the sessions have posted behind a change of one of them. -/
theorem posted_handle (changed : target.server = service.server.handle uuid next clears)
    (found : service.server.started uuid = some started) {posts : List (RecvNode ℤ)}
    (posted : next.posted = started.posted ++ posts) (other : σ) :
    (ledger target).posted other =
      (ledger service).posted other ++ LogicSystem.nodesOf other (posts.map (LogicNode.mk uuid)) := by
  by_cases same : other = uuid
  · subst same
    rw [posted_found found, LogicSystem.nodesOf_self fun node member => by
      obtain ⟨post, -, rfl⟩ := List.mem_map.mp member
      rfl]
    simp only [ledger, changed, CServer.handle, Function.update_self, posted, List.map_map]
    exact congrArg _ (List.map_id _).symm
  · rw [LogicSystem.nodesOf_other fun node member => by
      obtain ⟨post, -, rfl⟩ := List.mem_map.mp member
      exact Ne.symm same, List.append_nil]
    simp only [ledger, changed, CServer.handle, Function.update_of_ne same]

/-- The answers that they have queued. -/
theorem queued_handle (changed : target.server = service.server.handle uuid next clears)
    (found : service.server.started uuid = some started) {more owed : List SendNode}
    (answered : ∀ owed, LogicSystem.Answered exact started.sending.enqueued owed →
      LogicSystem.Answered exact next.sending.enqueued (owed ++ more)) (other : σ)
    (before : LogicSystem.Answered exact ((ledger service).queued other) owed) :
    LogicSystem.Answered exact ((ledger target).queued other) (owed ++ if other = uuid then more else []) := by
  split_ifs with same
  · subst same
    rw [queued_found found] at before
    simp only [ledger, changed, CServer.handle, Function.update_self]
    exact answered owed before
  · rw [List.append_nil]
    simp only [ledger, changed, CServer.handle, Function.update_of_ne same] at before ⊢
    exact before

/-- They may also have queued nothing. -/
theorem queued_kept (changed : target.server = service.server.handle uuid next clears)
    (found : service.server.started uuid = some started)
    (kept : next.sending.enqueued = started.sending.enqueued) (other : σ) :
    (ledger target).queued other = (ledger service).queued other := by
  by_cases same : other = uuid
  · subst same
    simp only [ledger, changed, found, CServer.handle, Function.update_self, kept]
  · simp only [ledger, changed, CServer.handle, Function.update_of_ne same]

/-- The sessions behind a change of one of them. -/
theorem sessions_handle {logic : LogicSystem σ} (here : Routed logic uuid next)
    (others : ∀ other held, other ≠ uuid → service.server.started other = some held → Routed logic other held)
    (other : σ) (held : Started Unit)
    (found : (service.server.handle uuid next clears).started other = some held) : Routed logic other held := by
  by_cases same : other = uuid
  · subst same
    simp only [CServer.handle, Function.update_self] at found
    cases found
    exact here
  · simp only [CServer.handle, Function.update_of_ne same] at found
    exact others other held same found

end Ledgers

section Steps

omit [DecidableEq σ] in
theorem free_cases (free : service.free = true) :
    service.posting = none ∧ ∀ phase worker, service.logic.control ≠ .poster phase worker := by
  rw [Service.free] at free
  split at free
  · contradiction
  · contradiction
  · next posting elsewhere => exact ⟨posting, fun phase worker place => elsewhere phase worker place⟩

/-- The logic system moves while no callback has something to write. -/
private theorem Routes.moves (routes : Routes exact json service) {logic : LogicSystem σ}
    {posting : Option (LogicNode σ)} {escaped : Option Escape} {act : LogicSystem.Action σ}
    (moved : LogicSystem.Moved .coroutineService service.logic act logic)
    (running : logic.destructor = service.logic.destructor)
    (single : posting ≠ none → ∀ phase worker, logic.control ≠ .poster phase worker)
    (brought : LogicSystem.brings act ++ posting.toList = service.posting.toList)
    (unanswered : exact → ∀ uuid, (LogicSystem.nodesOf uuid (LogicSystem.passes service.logic act)).filterMap
      (LogicSystem.answer? .coroutineService json) = [])
    (idle : ∀ uuid started, service.server.started uuid = some started → started.sending.deciding = []) :
    Routes exact json { service with logic, posting, escaped } := by
  refine ⟨routes.nodes.moves moved running (fun uuid => rfl) (fun uuid => ?_) fun uuid owed answered =>
      answered.skip _ fun exactly => unanswered exactly uuid, single,
    fun uuid started found => ⟨(routes.sessions uuid started found).sending, fun deciding => ?_⟩⟩
  · simp only [ledger]
    rw [← LogicSystem.nodesOf_append, brought]
  · exact absurd (idle uuid started found) deciding

/-- A new session has posted and queued nothing. -/
private theorem Routes.accept (routes : Routes exact json service) {session : CSession}
    (unknown : service.server.started uuid = none) (dispatched : Bool) :
    Routes exact json { service with server := service.server.accept uuid session dispatched } := by
  obtain ⟨fresh, spawned⟩ : ∃ fresh, (if dispatched then (Started.spawn session : Started Unit).loopTop
      else .spawn session) = fresh := ⟨_, rfl⟩
  obtain ⟨posted, sending⟩ : fresh.posted = [] ∧ fresh.sending = .opened := by
    rw [← spawned]
    cases dispatched with
    | false => exact ⟨rfl, rfl⟩
    | true =>
      obtain ⟨posted, sending⟩ := ran_loopTop (Started.spawn session : Started Unit)
      exact ⟨posted, sending⟩
  have here : (service.server.accept uuid session dispatched).started uuid = some fresh := by
    simp only [CServer.accept, Function.update_self, spawned]
  have others {other : σ} (different : other ≠ uuid) :
      (service.server.accept uuid session dispatched).started other = service.server.started other := by
    simp only [CServer.accept, Function.update_of_ne different]
  refine ⟨routes.nodes.stays (fun other => ⟨[], ?_, (List.append_nil _).symm⟩) fun other owed before => ?_,
    routes.single, fun other started found => ?_⟩
  · rw [List.append_nil]
    by_cases same : other = uuid
    · subst same
      simp only [ledger, here, unknown, posted]
    · simp only [ledger, others same]
  · by_cases same : other = uuid
    · subst same
      simp only [ledger, unknown] at before
      simp only [ledger, here, sending]
      exact before
    · simp only [ledger, others same] at before ⊢
      exact before
  · by_cases same : other = uuid
    · subst same
      cases here.symm.trans found
      exact ⟨⟨.empty, sending ▸ represents_opened⟩, fun deciding => absurd (by rw [sending]; rfl) deciding⟩
    · exact routes.sessions other started ((others same).symm.trans found)

/-- A handler of a session posts a node, or moves its sends on. -/
private theorem Routes.handles (routes : Routes exact json service) {started next : Started Unit}
    {posts : List (RecvNode ℤ)} (free : service.free = true)
    (found : service.server.started uuid = some started) (single : posts.length ≤ 1)
    (posted : next.posted = started.posted ++ posts)
    (sending : ∃ fifo, Represents fifo next.sending)
    (enqueued : next.sending.enqueued = started.sending.enqueued)
    (deciding : next.sending.deciding ≠ [] → started.sending.deciding ≠ []) (clears : Bool)
    (unread : σ → List UInt8) :
    Routes exact json (handled service uuid started next clears unread) := by
  obtain ⟨nothing, elsewhere⟩ := free_cases free
  refine ⟨routes.nodes.stays (fun other => ⟨_, posted_handle rfl found posted other, ?_⟩) fun other owed before => ?_,
    fun _ => elsewhere, sessions_handle ⟨sending, fun decides => ?_⟩ fun other held _ => routes.sessions other held⟩
  · have underway : (handled service uuid started next clears unread).posting.toList =
        posts.map (LogicNode.mk uuid) := by
      simp only [handled, posted, Option.toList_map, head?_drop_posted single]
    simp only [ledger]
    rw [underway, nothing]
    exact (List.nil_append _).symm
  · rw [queued_kept rfl found enqueued]
    exact before
  · exact (routes.sessions uuid started found).deciding (deciding decides)

/-- The worker calls a callback, which sends on the session of its node. -/
private theorem Routes.calls (routes : Routes exact json service) {node : LogicNode σ}
    {logic : LogicSystem σ} {started : Started Unit} {sending : SendPipeline Unit SendNode}
    (serves : LogicSystem.callee? service.logic = some node)
    (moved : LogicSystem.Moved .coroutineService service.logic .dealMsg logic)
    (found : service.server.started node.session = some started)
    (represents : ∃ fifo, Represents fifo sending)
    (answered : ∀ owed, LogicSystem.Answered exact started.sending.enqueued owed →
      LogicSystem.Answered exact sending.enqueued
        (owed ++ (LogicSystem.answer? .coroutineService json node.recvNode).toList)) :
    Routes exact json (sends { service with logic } node.session started sending) := by
  obtain ⟨passed, known, -⟩ := LogicSystem.serving_of_callee serves
  obtain ⟨drain, rest, place, -, called, front⟩ := LogicSystem.called_of_callee serves moved
  refine ⟨routes.nodes.moves moved (LogicSystem.running_of_dealMsg moved) (fun other => ?_) (fun other => rfl)
      fun other owed before => ?_, fun _ => LogicSystem.not_poster_of_dealMsg moved,
    sessions_handle ⟨represents, fun _ => ⟨drain, node, rest, called, front, rfl⟩⟩ fun other held _ at_other => ?_⟩
  · have still : ({ started with sending } : Started Unit).posted = started.posted ++ [] :=
      (List.append_nil _).symm
    exact (posted_handle rfl found still other).trans (List.append_nil _)
  · have own : (LogicSystem.nodesOf other [node]).filterMap (LogicSystem.answer? .coroutineService json) =
        if other = node.session then (LogicSystem.answer? .coroutineService json node.recvNode).toList else [] := by
      split_ifs with same
      · rw [same, LogicSystem.nodesOf_self fun at_ member => by rw [List.mem_singleton.mp member], List.map_singleton]
        cases answered : LogicSystem.answer? .coroutineService json node.recvNode <;> simp [answered]
      · rw [LogicSystem.nodesOf_other fun at_ member => by
          rw [List.mem_singleton.mp member]
          exact Ne.symm same]
        rfl
    rw [LogicSystem.passes, passed, own]
    exact queued_handle rfl found answered other before
  · have routed := routes.sessions other held at_other
    refine ⟨routed.sending, fun deciding => absurd (routed.idle fun drain at_ => ?_) deciding⟩
    cases place.symm.trans at_

/-- The worker starts the write that it has decided on. -/
private theorem Routes.starts (routes : Routes exact json service) {started : Started Unit}
    {index : ℕ} {sending : SendPipeline Unit SendNode}
    (found : service.server.started uuid = some started)
    (stepped : started.sending.step newSendNode (.start index) = some sending) :
    Routes exact json (sends service uuid started sending) := by
  have routed := routes.sessions uuid started found
  have represents := represents_step routed.sending stepped
  obtain ⟨⟨thread, node⟩, decided, same⟩ := Option.map_eq_some_iff.mp stepped
  refine ⟨routes.nodes.stays (fun other => ⟨[], ?_, (List.append_nil _).symm⟩) fun other owed before => ?_,
    routes.single, sessions_handle ⟨represents, fun _ => routed.deciding fun none => ?_⟩
      fun other held _ => routes.sessions other held⟩
  · have still : ({ started with sending } : Started Unit).posted = started.posted ++ [] :=
      (List.append_nil _).symm
    exact posted_handle rfl found still other
  · have kept : ({ started with sending } : Started Unit).sending.enqueued = started.sending.enqueued := by
      rw [← same]
      rfl
    rw [queued_kept rfl found kept]
    exact before
  · rw [none] at decided
    cases decided

end Steps

/-- A callback finds room in the queue of its session. -/
def Roomy (service : Service σ) : Service.Action σ → Prop
  | .dealMsg => ∀ node started, LogicSystem.callee? service.logic = some node →
      service.server.started node.session = some started → started.sending.sendQue.length ≤ maxLength
  | _ => True

instance (service : Service σ) (action : Service.Action σ) : Decidable (Roomy service action) :=
  match action with
  | .dealMsg =>
    decidable_of_iff (∀ node ∈ LogicSystem.callee? service.logic, ∀ started ∈ service.server.started node.session,
      started.sending.sendQue.length ≤ maxLength)
      ⟨fun rooms node started serves found => rooms node serves started found,
        fun roomy node serves started found => roomy node started serves found⟩
  | .arrives _ _ | .accept _ _ | .acceptError | .resume _ | .read _ _ | .handleWrite _ _ _ | .lock
  | .push | .notify | .unlock | .wake | .asyncWrite _ _ => .isTrue trivial

/-- What a callback sends, or does not send, is what its node is owed. -/
private theorem answered_send {node : RecvNode ℤ} {started : Started Unit} {reply : Text × ℤ}
    {owed : List SendNode} (known : node.msgId = LogicSystem.msgHelloWorld)
    (room : exact → started.sending.sendQue.length ≤ maxLength)
    (called : callBack json node started.sending.sendQue.length = .ok reply)
    (answered : LogicSystem.Answered exact started.sending.enqueued owed) :
    LogicSystem.Answered exact (started.sending.send newSendNode () reply).enqueued
      (owed ++ (LogicSystem.answer? .coroutineService json node).toList) := by
  by_cases full : maxLength < started.sending.sendQue.length
  · rw [SendPipeline.send_full full]
    exact answered.skip _ fun exactly => absurd (room exactly) (Nat.not_le.mpr full)
  · obtain ⟨sent, made, same⟩ := answer?_of_reply known (Nat.not_lt.mp full) called
    have pushed : (started.sending.send newSendNode () reply).enqueued =
        started.sending.enqueued ++ [sent] := by
      by_cases empty : started.sending.sendQue = []
      · rw [SendPipeline.send_first made empty]
      · rw [SendPipeline.send_waiting (Nat.not_lt.mp full) made empty]
    rw [pushed, same]
    exact answered.append _

theorem Routes.step {action : Service.Action σ} (routes : Routes exact json service)
    (roomy : exact → Roomy service action) (taken : service.step json action = some target) :
    Routes exact json target := by
  obtain ⟨-, passes⟩ := passes_of_step taken
  cases passes with
  | arrives => exact ⟨routes.nodes, routes.single, routes.sessions⟩
  | accept free unknown built => exact routes.accept unknown _
  | acceptError _ => exact routes
  | @handles _ uuid event started next clears unread handler free found takes applied =>
    have routed := routes.sessions uuid started found
    cases takes with
    | written =>
      obtain ⟨posted, -, stepped⟩ := written_of_apply applied
      have represents := represents_step routed.sending stepped
      obtain ⟨enqueued, deciding⟩ := kept_of_written stepped
      have nothing : ([] : List (RecvNode ℤ)).length ≤ 1 := Nat.zero_le 1
      exact routes.handles free found nothing (posted.trans (List.append_nil _).symm) represents
        enqueued (fun decides => deciding ▸ decides) clears _
    | _ =>
      obtain ⟨posts, single, posted, sending⟩ := ran_of_apply (fun action same => by cases same) applied
      exact routes.handles free found single posted (sending ▸ routed.sending) (by rw [sending])
        (fun decides => sending ▸ decides) clears _
  | @lock node logic posting moved =>
    obtain ⟨elsewhere, running, passes⟩ := LogicSystem.elsewhere_of_moved moved trivial
    refine routes.moves moved running (fun posting => absurd rfl posting) ?_ (fun _ other => by rw [passes]; rfl)
      fun uuid started found => (routes.sessions uuid started found).idle fun drain => elsewhere _
    rw [posting]
    rfl
  | logic moves moved =>
    obtain ⟨off, nothing⟩ := offDuty_of_movesLogic moves
    obtain ⟨elsewhere, running, passes⟩ := LogicSystem.elsewhere_of_moved moved off
    refine routes.moves moved running
      (fun posting => LogicSystem.not_poster_of_moved moved off nothing (routes.single posting)) ?_
      (fun _ other => by rw [passes]; rfl)
      fun uuid started found => (routes.sessions uuid started found).idle fun drain => elsewhere _
    rw [nothing, List.nil_append]
  | @worker logic moved silent returned =>
    refine routes.moves moved (LogicSystem.running_of_dealMsg moved)
      (fun _ => LogicSystem.not_poster_of_dealMsg moved) rfl (fun _ uuid => ?_) fun uuid started found => ?_
    · rw [List.filterMap_eq_nil_iff]
      intro node member
      obtain ⟨logicNode, passed, rfl⟩ := List.mem_map.mp member
      exact LogicSystem.answer?_unregistered
        (LogicSystem.unregistered_of_silent silent _ (List.mem_filter.mp passed).1)
    · by_contra deciding
      obtain ⟨drain, node, rest, place, front, same⟩ :=
        (routes.sessions uuid started found).deciding deciding
      have done := returned drain node rest place front
      rw [Service.returned, same, found] at done
      exact deciding (List.isEmpty_iff.mp done)
  | @escapes node logic started escaped serves moved found left =>
    obtain ⟨passed, known, drain, rest, place, front⟩ := LogicSystem.serving_of_callee serves
    refine routes.moves moved (LogicSystem.running_of_dealMsg moved)
      (fun _ => LogicSystem.not_poster_of_dealMsg moved) rfl (fun exactly uuid => ?_)
      fun uuid started found => (routes.sessions uuid started found).idle fun drain at_ => by
        cases place.symm.trans at_
    rw [List.filterMap_eq_nil_iff]
    intro recvNode member
    obtain ⟨logicNode, among, rfl⟩ := List.mem_map.mp member
    rw [LogicSystem.passes, passed] at among
    rw [List.mem_singleton.mp (List.mem_filter.mp among).1]
    exact answer?_of_escape (roomy exactly node started serves found) left
  | @calls node logic started reply serves moved found called =>
    obtain ⟨fifo, represents⟩ := (routes.sessions _ started found).sending
    exact routes.calls serves moved found represents.send fun owed answered =>
      answered_send (LogicSystem.serving_of_callee serves).2.1
        (fun exactly => roomy exactly node started serves found) called answered
  | asyncWrite found stepped => exact routes.starts found stepped

end BoostLearn.Soundness.CoroutineService
