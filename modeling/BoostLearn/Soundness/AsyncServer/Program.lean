import BoostLearn.Soundness.AsyncServer.Removal
import BoostLearn.Soundness.AsyncServer.Steps
import BoostLearn.Soundness.LogicSystem.Answers
import BoostLearn.Soundness.Uncut

/-! # AsyncServer from the bytes of a peer to the answers it gets

The worker is the only thread that ever sends, so no session has the races that two senders have. Whatever the
threads of the pool do at the same time, what is written to a peer answers what its own session has posted, in
order and each at most once; and that are the frames it has sent, as long as no read has ended inside a body.
-/

namespace BoostLearn.Soundness.AsyncServer

open CInt Memory Framing Framing.Format Replay Model Model.Json Model.HandleRead Model.AsyncServer
open Soundness.HandleRead Queueing

variable {σ : Type} {json : JsonCpp}

section Answers

variable {node : RecvNode ℤ}

/-- What a callback calls `Send` with makes the answer. -/
theorem answer?_of_reply (known : node.msgId = LogicSystem.msgHelloWorld) {reply : Text × ℤ}
    (called : callBack json node = .ok reply) :
    LogicSystem.answer? .asyncServer json node = Server.newSendNode reply := by
  obtain ⟨sent, told, called⟩ := ok_of_bind called
  have told : LogicSystem.message .asyncServer node = .ok sent := HelloWorld.ok_of_mapError told
  have replied := HelloWorld.ok_of_mapError called
  rw [LogicSystem.answer?_registered told known, replied, Except.toOption, Option.bind_some, LogicSystem.newSendNode]

theorem answer?_of_escape {escaped : Escape} (left : callBack json node = .error escaped) :
    LogicSystem.answer? .asyncServer json node = none := by
  by_cases known : node.msgId = LogicSystem.msgHelloWorld
  · cases told : message node with
    | error fault => exact LogicSystem.answer?_unreadable told
    | ok sent =>
      have readable : LogicSystem.message .asyncServer node = .ok sent := told
      rw [callBack, told, Except.mapError, bind_of_ok rfl] at left
      dsimp only at left
      rw [LogicSystem.answer?_registered readable known]
      cases replied : LogicSystem.Server.asyncServer.reply json sent.2 with
      | error error => rfl
      | ok reply =>
        rw [replied] at left
        cases left
  · exact LogicSystem.answer?_unregistered known

/-- The worker reads a frame back out of its node. -/
theorem message_postedNode {bytes : List UInt8} {frame : ℤ × List UInt8}
    (member : frame ∈ (Spec.asyncServer.parse bytes).frames) : message (postedNode frame) = .ok frame := by
  obtain ⟨head, verdict⟩ := accepted_of_mem member
  obtain ⟨_, _, _, _, _, _, _, _, limit⟩ := Spec.asyncServer_accept verdict
  exact message_of_body frame.1 limit [some 0]

/-- The answers to the nodes of the frames. -/
theorem answers_frames (json : JsonCpp) (stream : List UInt8) :
    ((Spec.asyncServer.parse stream).frames.map postedNode).filterMap (LogicSystem.answer? .asyncServer json) =
      LogicSystem.owed .asyncServer json stream := by
  refine LogicSystem.filterMap_answer? ?_
  rw [List.map_map]
  exact List.map_congr_left fun frame member => message_postedNode member

end Answers

section Strands

/-- No read has ended inside a body. -/
def Uncut (completions : List Completion) : Prop :=
  ∀ count, Spec.asyncServer.openBody (stream (completions.take count)) = none

theorem uncut_append {completions : List Completion} {completion : Completion}
    (uncut : Uncut (completions ++ [completion])) :
    Uncut completions ∧ Spec.asyncServer.openBody (stream completions ++ completion.bytes) = none := by
  constructor
  · intro count
    have earlier := uncut (min count completions.length)
    rwa [List.take_append_of_le_length (Nat.min_le_right ..), ← List.take_take, List.take_length] at earlier
  · have whole := uncut (completions ++ [completion]).length
    rw [List.take_length, stream, List.flatMap_append, List.flatMap_singleton] at whole
    exact whole

/-- What is known of a session none of whose reads has ended inside a body: it has posted the frames of its
stream, and is ready for more of it while a read is outstanding. -/
structure Heard (strand : Strand) (started : Started Unit) : Prop where
  posted : strand.posted = (Spec.asyncServer.parse (stream strand.completions)).frames.map postedNode
  ready : started.reading = true → (Spec.asyncServer.parse (stream strand.completions)).rejected = none ∧
    reader.AtHead started.receiving (Spec.asyncServer.parse (stream strand.completions)).tail

/-- A read that does not end inside a body is gone through, or the head at its end is a fault. -/
theorem Heard.reads {strand : Strand} {started : Started Unit} (heard : Heard strand started)
    (reading : started.reading = true) {completion : Completion}
    (uncut : Spec.asyncServer.openBody (stream strand.completions ++ completion.bytes) = none) :
    codec.handleRead (completion.bytes.length + 1) started.receiving (some completion.bytes) ≠ none ∧
      ∀ done, codec.handleRead (completion.bytes.length + 1) started.receiving (some completion.bytes) =
          some (.ok done) →
        Heard
          { strand with
            completions := strand.completions ++ [completion]
            posted := strand.posted ++ (done.effects.filterMap Effect.out?).map postedNode }
          { started with receiving := done.session, reading := done.reading } := by
  obtain ⟨accepted, atHead⟩ := heard.ready reading
  have enough : completion.bytes.length < completion.bytes.length + 1 := Nat.lt_succ_self _
  constructor
  · obtain ⟨result, -, ran⟩ := Reader.handleRead_agrees atHead completion fun _ _ _ => trivial
    intro stuck
    cases (ran _ enough).symm.trans stuck
  · intro done returned
    have heads := Reader.heads_of_returns atHead accepted (fun _ => trivial) enough returned
    obtain ⟨same, ran, gains⟩ := Reader.handleRead_uncut atHead accepted heads uncut enough
    cases (returned.symm.trans ran)
    have whole : stream (strand.completions ++ [completion]) = stream strand.completions ++ completion.bytes := by
      rw [stream, List.flatMap_append, List.flatMap_singleton]
      rfl
    obtain ⟨frames, split, outs⟩ := gains.outs
    constructor
    · have told : done.effects.filterMap Effect.out? = frames := outs.trans (List.map_id _)
      dsimp only
      rw [heard.posted, told, whole, ← List.map_append]
      exact congrArg _ split.symm
    · intro going
      dsimp only
      rw [whole]
      have goesOn := Option.isNone_iff_eq_none.mp (gains.reading.symm.trans going)
      exact ⟨goesOn, gains.atHead goesOn⟩

end Strands

section Invariant

variable [DecidableEq σ] {program target : Program σ} {exact : Prop} {uuid : σ}

omit [DecidableEq σ] in
/-- What the sessions have posted, and the answers that they have queued or are about to. -/
def ledger (program : Program σ) : LogicSystem.Ledger σ SendNode where
  posted uuid := (program.strand uuid).posted
  posting uuid := (program.strand uuid).posting
  queued uuid :=
    match program.server.started uuid with
    | none => []
    | some started => admitted Server.newSendNode started.sending

/-- What is known of a session: the worker is its only sender, and only in the callback of one of its nodes. -/
structure Known (logic : LogicSystem σ) (strand : Strand) (uuid : σ) (started : Started Unit) : Prop where
  solo : Solo (started.cleared = true) started.sending
  calling : started.sending.idle = false → LogicSystem.Calling logic uuid
  heard : Uncut strand.completions → Heard strand started

/-- What is known of the program as a whole. -/
structure Serves (exact : Prop) (json : JsonCpp) (program : Program σ) : Prop where
  routes : LogicSystem.Routes exact (LogicSystem.answer? .asyncServer json) .asyncServer program.logic (ledger program)
  sessions : ∀ uuid started, program.server.started uuid = some started →
    Known program.logic (program.strand uuid) uuid started
  unknown : ∀ uuid, program.server.started uuid = none →
    (program.strand uuid).completions = [] ∧ (program.strand uuid).posted = []

theorem serves_main : Serves exact json (.main : Program σ) where
  routes := LogicSystem.routes_created
  sessions := fun _ _ found => by cases found
  unknown := fun _ _ => ⟨rfl, rfl⟩

theorem Heard.congr {strand other : Strand} {started : Started Unit} (heard : Heard strand started)
    (completions : other.completions = strand.completions) (posted : other.posted = strand.posted) :
    Heard other started := by
  obtain ⟨frames, ready⟩ := heard
  refine ⟨?_, ?_⟩
  · rw [posted, completions, frames]
  · rwa [completions]

/-- Away from the callbacks, nobody is in `Send`. -/
theorem Serves.idle (serves : Serves exact json program)
    (elsewhere : ∀ drain, program.logic.control ≠ .worker (.served drain)) {started : Started Unit}
    (found : program.server.started uuid = some started) : started.sending.idle = true := by
  by_contra busy
  obtain ⟨drain, node, rest, place, -⟩ :=
    (serves.sessions uuid started found).calling (Bool.eq_false_iff.mpr busy)
  exact elsewhere drain place

/-- The logic system moves while nobody is in `Send`. -/
theorem Serves.moves (serves : Serves exact json program) {logic : LogicSystem σ}
    {act : LogicSystem.Action σ} {strand : σ → Strand} {poster : Option σ} {escaped : Option Escape}
    (moved : LogicSystem.Moved .asyncServer program.logic act logic)
    (running : logic.destructor = program.logic.destructor)
    (idle : ∀ uuid started, program.server.started uuid = some started → started.sending.idle = true)
    (same : ∀ uuid, (strand uuid).completions = (program.strand uuid).completions ∧
      (strand uuid).posted = (program.strand uuid).posted)
    (posting : ∀ uuid, LogicSystem.nodesOf uuid (LogicSystem.brings act) ++ (strand uuid).posting =
      (program.strand uuid).posting)
    (unanswered : ∀ uuid, (LogicSystem.nodesOf uuid (LogicSystem.passes program.logic act)).filterMap
      (LogicSystem.answer? .asyncServer json) = []) :
    Serves exact json { program with logic, strand, poster, escaped } := by
  refine ⟨serves.routes.moves moved running (fun uuid => (same uuid).2) posting fun uuid owed answered => ?_,
    fun uuid started found => ?_, fun uuid absent => ?_⟩
  · rw [unanswered uuid, List.append_nil]
    exact answered
  · obtain ⟨solo, -, heard⟩ := serves.sessions uuid started found
    refine ⟨solo, fun busy => ?_, fun uncut => ?_⟩
    · cases (idle uuid started found).symm.trans busy
    · rw [(same uuid).1] at uncut
      exact (heard uncut).congr (same uuid).1 (same uuid).2
  · rw [(same uuid).1, (same uuid).2]
    exact serves.unknown uuid absent

/-- A new session has posted and queued nothing. -/
theorem Serves.accepts (serves : Serves exact json program) {server : Server σ Unit}
    (accepts : Accepts program.server server) : Serves exact json { program with server } := by
  refine ⟨serves.routes.stays (fun uuid => ⟨[], (List.append_nil _).symm, (List.append_nil _).symm⟩)
    fun uuid owed answered => ?_, fun uuid session found => ?_, fun uuid absent => ?_⟩
  · simp only [ledger] at answered ⊢
    obtain same | ⟨absent, sendPending, fresh, created, here⟩ := accepts uuid
    · rwa [same]
    · cases (newStarted_started sendPending).symm.trans created
      rw [absent] at answered
      rw [here]
      exact answered
  · obtain same | ⟨absent, sendPending, fresh, created, here⟩ := accepts uuid
    · exact serves.sessions uuid session (same.symm.trans found)
    · cases (newStarted_started sendPending).symm.trans created
      cases here.symm.trans found
      obtain ⟨completions, posted⟩ := serves.unknown uuid absent
      have parsed : Spec.asyncServer.parse (stream (program.strand uuid).completions) = ⟨[], none, []⟩ := by
        rw [completions]
        exact parse_nil
      refine ⟨solo_opened sendPending, fun busy => (by cases busy), fun _ => ⟨?_, fun _ => ?_⟩⟩
      · rw [posted, parsed]
        rfl
      · rw [parsed]
        exact ⟨rfl, fresh_atHead⟩
  · obtain same | ⟨-, sendPending, fresh, -, here⟩ := accepts uuid
    · exact serves.unknown uuid (same.symm.trans absent)
    · cases here.symm.trans absent

/-- A handler has run on the strand of a session. -/
theorem Serves.handled (serves : Serves exact json program) {started next : Started Unit}
    (found : program.server.started uuid = some started) (sending : next.sending = started.sending)
    (cleared : next.cleared = started.cleared) {completion : Option Completion}
    {effects : List (Effect (ℤ × List UInt8))} {endless : Bool}
    (heard : Uncut ((program.strand uuid).completions ++ completion.toList) →
      Heard ((program.handled uuid next completion effects endless).strand uuid) next) :
    Serves exact json (program.handled uuid next completion effects endless) := by
  obtain ⟨routes, sessions, unknown⟩ := serves
  have here : (program.handled uuid next completion effects endless).server.started uuid =
      some { next with cleared := next.cleared || effects.any Effect.isClear } := if_pos rfl
  have there {other : σ} (different : other ≠ uuid) :
      (program.handled uuid next completion effects endless).server.started other =
        program.server.started other := if_neg different
  have elsewhere {other : σ} (different : other ≠ uuid) :
      (program.handled uuid next completion effects endless).strand other = program.strand other :=
    Function.update_of_ne different ..
  have strand : (program.handled uuid next completion effects endless).strand uuid =
      { posting := (program.strand uuid).posting ++ (effects.filterMap Effect.out?).map postedNode
        endless
        completions := (program.strand uuid).completions ++ completion.toList
        posted := (program.strand uuid).posted ++ (effects.filterMap Effect.out?).map postedNode } :=
    Function.update_self ..
  refine ⟨routes.stays (fun other => ?_) fun other owed answered => ?_, fun other session at_other => ?_,
    fun other absent => ?_⟩
  · by_cases same : other = uuid
    · subst same
      simp only [ledger, strand]
      exact ⟨_, rfl, rfl⟩
    · simp only [ledger, elsewhere same]
      exact ⟨[], (List.append_nil _).symm, (List.append_nil _).symm⟩
  · simp only [ledger] at answered ⊢
    by_cases same : other = uuid
    · subst same
      rw [here]
      rw [found] at answered
      dsimp only at answered ⊢
      rwa [sending]
    · rwa [there same]
  · by_cases same : other = uuid
    · subst same
      cases here.symm.trans at_other
      obtain ⟨solo, calling, -⟩ := sessions other started found
      refine ⟨?_, fun busy => calling (by rwa [sending] at busy), fun uncut => ?_⟩
      · dsimp only
        rw [sending, cleared]
        exact solo.mono fun lost => by rw [lost, Bool.true_or]
      · rw [strand] at uncut
        obtain ⟨frames, ready⟩ := heard uncut
        exact ⟨frames, ready⟩
    · rw [elsewhere same]
      exact sessions other session ((there same).symm.trans at_other)
  · by_cases same : other = uuid
    · subst same
      cases here.symm.trans absent
    · rw [elsewhere same]
      exact unknown other ((there same).symm.trans absent)

/-- The worker, or a completion, changes what a session is sending. -/
theorem Serves.sends (serves : Serves exact json program) {started : Started Unit}
    (found : program.server.started uuid = some started) {logic : LogicSystem σ}
    {sending : SendPipeline Unit (List UInt8 × ℤ) SendNode} {clears : Bool} {escaped : Option Escape}
    (routes : LogicSystem.Routes exact (LogicSystem.answer? .asyncServer json) .asyncServer logic
      (ledger (AsyncServer.sends program uuid started sending clears)))
    (solo : Solo ((started.cleared || clears) = true) sending)
    (calling : sending.idle = false → LogicSystem.Calling logic uuid)
    (others : ∀ other session, other ≠ uuid → program.server.started other = some session →
      session.sending.idle = false → LogicSystem.Calling logic other) :
    Serves exact json
      { AsyncServer.sends { program with logic } uuid started sending clears with escaped } := by
  have here : (AsyncServer.sends program uuid started sending clears).server.started uuid =
      some { started with sending, cleared := started.cleared || clears } := if_pos rfl
  have there {other : σ} (different : other ≠ uuid) :
      (AsyncServer.sends program uuid started sending clears).server.started other =
        program.server.started other := if_neg different
  refine ⟨routes, fun other session at_other => ?_, fun other absent => ?_⟩
  · by_cases same : other = uuid
    · subst same
      cases here.symm.trans at_other
      have heard := (serves.sessions other started found).heard
      exact ⟨solo, calling, fun uncut => ⟨(heard uncut).posted, (heard uncut).ready⟩⟩
    · have at_before := (there same).symm.trans at_other
      obtain ⟨solo, -, heard⟩ := serves.sessions other session at_before
      exact ⟨solo, others other session same at_before, heard⟩
  · by_cases same : other = uuid
    · subst same
      cases here.symm.trans absent
    · exact serves.unknown other ((there same).symm.trans absent)

/-- A queued answer is lost only to a full queue. -/
def Roomy (program : Program σ) : Program.Action σ → Prop
  | .send uuid => ∀ started, program.server.started uuid = some started →
      ∀ action, started.sending.nextOfSend = some action → ¬ Refuses started.sending action
  | _ => True

instance (program : Program σ) (action : Program.Action σ) : Decidable (Roomy program action) :=
  match action with
  | .send uuid =>
    decidable_of_iff (∀ started ∈ program.server.started uuid,
      ∀ action ∈ started.sending.nextOfSend, ¬ Refuses started.sending action)
      ⟨fun rooms started found action next => rooms started found action next,
        fun roomy started found action next => roomy started found action next⟩
  | .start _ _ | .insert | .acceptError | .read _ _ _ | .handleWrite _ _ _ | .lock _ | .push | .notify | .unlock
  | .dealMsg | .wake => .isTrue trivial

/-- The queued answers behind a change of one session's sending. -/
theorem queued_sends {started : Started Unit} (found : program.server.started uuid = some started)
    (sending : SendPipeline Unit (List UInt8 × ℤ) SendNode) (clears : Bool) {owed : List SendNode}
    (more : List SendNode)
    (answered : ∀ owed, LogicSystem.Answered exact (admitted Server.newSendNode started.sending) owed →
      LogicSystem.Answered exact (admitted Server.newSendNode sending) (owed ++ more)) (other : σ)
    (before : LogicSystem.Answered exact ((ledger program).queued other) owed) :
    LogicSystem.Answered exact ((ledger (sends program uuid started sending clears)).queued other)
      (owed ++ if other = uuid then more else []) := by
  simp only [ledger] at before ⊢
  split_ifs with same
  · subst same
    have here : (sends program other started sending clears).server.started other =
        some { started with sending, cleared := started.cleared || clears } := if_pos rfl
    rw [here]
    rw [found] at before
    exact answered owed before
  · have there : (sends program uuid started sending clears).server.started other =
        program.server.started other := if_neg same
    rw [there, List.append_nil]
    exact before

/-- A read of a session, whatever comes of it. -/
theorem Serves.reads (serves : Serves exact json program) {started : Started Unit}
    (found : program.server.started uuid = some started) (reading : started.reading = true)
    (completion : Option Completion) (more : ℕ) :
    Serves exact json (program.handleRead uuid started completion more) := by
  have heard := (serves.sessions uuid started found).heard
  cases completion with
  | none =>
    rw [Program.handleRead]
    simp only [Codec.handleRead]
    refine serves.handled found ?_ ?_ fun uncut => ?_
    · rfl
    · rfl
    · rw [Option.toList_none, List.append_nil] at uncut
      obtain ⟨frames, -⟩ := heard uncut
      refine ⟨?_, fun going => (by cases going)⟩
      simp only [Program.handled, Function.update_self, Option.toList_none, List.append_nil]
      exact (List.append_nil _).trans frames
  | some completion =>
    rw [Program.handleRead]
    dsimp only [Option.map_some, Option.getD_some]
    cases ran : codec.handleRead (completion.bytes.length + 1) started.receiving (some completion.bytes) with
    | none =>
      refine serves.handled found ?_ ?_ fun uncut => ?_
      · rfl
      · rfl
      · obtain ⟨before, here⟩ := uncut_append uncut
        exact absurd ran ((heard before).reads reading here).1
    | some result =>
      cases result with
      | error fault => exact ⟨serves.routes, serves.sessions, serves.unknown⟩
      | ok done =>
        refine serves.handled found ?_ ?_ fun uncut => ?_
        · rfl
        · rfl
        · obtain ⟨before, here⟩ := uncut_append uncut
          obtain ⟨frames, ready⟩ := ((heard before).reads reading here).2 done ran
          refine ⟨?_, ?_⟩
          · simp only [Program.handled, Function.update_self]
            exact frames
          · simp only [Program.handled, Function.update_self]
            exact ready

/-- A step inside the pipeline of one session. -/
theorem Serves.sendsOn (serves : Serves exact json program) {started : Started Unit}
    (found : program.server.started uuid = some started)
    {sending : SendPipeline Unit (List UInt8 × ℤ) SendNode} {clears : Bool} {escaped : Option Escape}
    (answered : ∀ owed, LogicSystem.Answered exact (admitted Server.newSendNode started.sending) owed →
      LogicSystem.Answered exact (admitted Server.newSendNode sending) owed)
    (solo : Solo ((started.cleared || clears) = true) sending)
    (inside : sending.idle = false → started.sending.idle = false) :
    Serves exact json { AsyncServer.sends program uuid started sending clears with escaped } := by
  refine serves.sends found (serves.routes.stays
    (fun other => ⟨[], (List.append_nil _).symm, (List.append_nil _).symm⟩) fun other owed before => ?_) solo
    (fun busy => (serves.sessions uuid started found).calling (inside busy))
    fun other session _ at_other busy => (serves.sessions other session at_other).calling busy
  have behind := queued_sends found sending clears [] (fun owed before => by
    rw [List.append_nil]
    exact answered owed before) other before
  rwa [ite_self, List.append_nil] at behind

theorem Serves.step {action : Program.Action σ} (serves : Serves exact json program)
    (roomy : exact → Roomy program action) (taken : program.step json action = some target) :
    Serves exact json target := by
  obtain ⟨running, passes⟩ := passes_of_step taken
  cases passes with
  | accepts accepts => exact serves.accepts accepts
  | @reads uuid started completion more found reading free => exact serves.reads found reading completion more
  | @written uuid index started sending free found stepped =>
    have solo := (serves.sessions uuid started found).solo
    have kept := (admitted_step solo (fun _ _ same => by cases same) stepped).2 id
    have later := solo.step (fun _ _ same => by cases same) stepped
    refine serves.sendsOn found (fun owed before => by rwa [kept]) ?_ fun busy => ?_
    · rwa [Bool.or_false]
    · rwa [idle_written stepped] at busy
  | @fails uuid index started node free found outstanding =>
    have solo := (serves.sessions uuid started found).solo
    refine serves.sendsOn found (fun owed before => before) ?_ fun busy => busy
    exact (solo.writeError outstanding).mono fun _ => Bool.or_true _
  | @lock uuid node rest logic posting moved =>
    obtain ⟨elsewhere, running, passes⟩ := LogicSystem.elsewhere_of_moved moved trivial
    refine serves.moves moved running (fun other session => serves.idle fun drain => elsewhere _)
      (fun other => ?_) (fun other => ?_) fun other => by rw [passes]; rfl
    · by_cases same : other = uuid
      · subst same
        rw [Function.update_self]
        exact ⟨rfl, rfl⟩
      · rw [Function.update_of_ne same]
        exact ⟨rfl, rfl⟩
    · by_cases same : other = uuid
      · subst same
        rw [LogicSystem.brings, LogicSystem.nodesOf_self (fun node member => by rw [List.mem_singleton.mp member]),
          Function.update_self, posting]
        rfl
      · rw [LogicSystem.brings, LogicSystem.nodesOf_other fun node member => by
          rw [List.mem_singleton.mp member]
          exact Ne.symm same, Function.update_of_ne same]
        rfl
  | @logic action act logic poster moves moved =>
    obtain ⟨off, brings⟩ := offDuty_of_movesLogic moves
    obtain ⟨elsewhere, running, passes⟩ := LogicSystem.elsewhere_of_moved moved off
    refine serves.moves moved running (fun other session => serves.idle fun drain => elsewhere _)
      (fun other => ⟨rfl, rfl⟩) (fun other => ?_) fun other => by rw [passes]; rfl
    rw [brings]
    rfl
  | @worker logic moved silent returned =>
    refine serves.moves moved (LogicSystem.running_of_dealMsg moved) (fun other session found => ?_)
      (fun other => ⟨rfl, rfl⟩) (fun other => rfl) fun other => ?_
    · by_contra busy
      obtain ⟨drain, node, rest, place, front, rfl⟩ :=
        (serves.sessions other session found).calling (Bool.eq_false_iff.mpr busy)
      have done := returned drain node rest place front
      rw [Program.returned, found] at done
      exact busy done
    · rw [List.filterMap_eq_nil_iff]
      intro node member
      obtain ⟨logicNode, passed, rfl⟩ := List.mem_map.mp member
      exact LogicSystem.answer?_unregistered (LogicSystem.unregistered_of_silent silent _ (List.mem_filter.mp passed).1)
  | @escapes node logic escaped serving moved left =>
    obtain ⟨passed, known, drain, rest, place, front⟩ := LogicSystem.serving_of_callee serving
    refine serves.moves moved (LogicSystem.running_of_dealMsg moved)
      (fun other session => serves.idle fun drain at_ => by cases place.symm.trans at_) (fun other => ⟨rfl, rfl⟩)
      (fun other => rfl) fun other => ?_
    rw [List.filterMap_eq_nil_iff]
    intro recvNode member
    obtain ⟨logicNode, among, rfl⟩ := List.mem_map.mp member
    rw [LogicSystem.passes, passed] at among
    rw [List.mem_singleton.mp (List.mem_filter.mp among).1]
    exact answer?_of_escape left
  | @calls node logic started reply serving moved found idle called =>
    obtain ⟨passed, known, -⟩ := LogicSystem.serving_of_callee serving
    obtain ⟨drain, rest, place, -, at_callback, front⟩ := LogicSystem.called_of_callee serving moved
    have solo := (serves.sessions _ started found).solo
    refine serves.sends found (serves.routes.moves moved (LogicSystem.running_of_dealMsg moved) (fun other => rfl)
      (fun other => rfl) fun other owed before => ?_) ?_
      (fun _ => ⟨drain, node, rest, at_callback, front, rfl⟩) fun other session _ at_other busy => ?_
    · have behind := queued_sends found (started.sending.reset () reply) false
        (Server.newSendNode reply).toList
        (fun owed before => by rw [admitted_reset idle]; exact before.append _) other before
      have own : (LogicSystem.nodesOf other [node]).filterMap (LogicSystem.answer? .asyncServer json) =
          if other = node.session then (Server.newSendNode reply).toList else [] := by
        split_ifs with same
        · rw [same, LogicSystem.nodesOf_self fun at_ member => by rw [List.mem_singleton.mp member], List.map_singleton,
            ← answer?_of_reply known called]
          cases answered : LogicSystem.answer? .asyncServer json node.recvNode <;> simp [answered]
        · rw [LogicSystem.nodesOf_other fun at_ member => by
            rw [List.mem_singleton.mp member]
            exact Ne.symm same]
          rfl
      rw [LogicSystem.passes, passed, own]
      exact behind
    · rw [Bool.or_false]
      exact solo.reset idle () reply
    · have elsewhere := serves.idle (fun drain at_ => by cases place.symm.trans at_) at_other
      cases elsewhere.symm.trans busy
  | @send uuid started action sending found next stepped =>
    obtain ⟨busy, inside⟩ := nextOfSend_cases next
    have solo := (serves.sessions uuid started found).solo
    obtain ⟨fewer, same⟩ := admitted_step solo inside stepped
    have later := solo.step (fun thread message enters => absurd enters (inside thread message)) stepped
    refine serves.sendsOn found (fun owed before => ?_) ?_ fun _ => busy
    · refine ⟨fewer.trans before.1, fun exactly => ?_⟩
      rw [same (roomy exactly started found action next)]
      exact before.2 exactly
    · rwa [Bool.or_false]

end Invariant

section Sessions

variable {program : Program σ} {uuid : σ} {started : Started Unit} {exact : Prop}

/-- The session has one write at a time, of the front of its queue, and what it queues answers what it has posted,
in order: the frames that its peer has sent, unless a read has ended inside a body. -/
structure Pays (json : JsonCpp) (program : Program σ) (uuid : σ) (started : Started Unit) : Prop where
  single : started.sending.inflight.length ≤ 1
  ordered : started.sending.completed ++ started.sending.inflight <+: started.sending.enqueued
  front : started.cleared = false → started.sending.inflight <+: started.sending.sendQueue.take 1
  working : started.cleared = false → (∀ thread, started.sending.sendLock ≠ some (thread, .pushed)) →
    started.sending.inflight = started.sending.sendQueue.take 1
  posted : started.sending.enqueued.Sublist
    ((program.strand uuid).posted.filterMap (LogicSystem.answer? .asyncServer json))
  owed : Uncut (program.strand uuid).completions →
    started.sending.enqueued.Sublist (LogicSystem.owed .asyncServer json (stream (program.strand uuid).completions))

/-- Nothing of a session is on its way: not to the mutex, not to the worker, and not to its peer. -/
structure Settled (program : Program σ) (uuid : σ) (started : Started Unit) : Prop where
  posting : (program.strand uuid).posting = []
  passed : ∀ node ∈ program.logic.msgQue ++ LogicSystem.locked program.logic.control, node.session ≠ uuid
  written : started.sending.sendQueue = []

/-- The peer of a session is sent the answers to its frames without a gap, and all of them by the time the session
has settled. -/
structure PaysAll (json : JsonCpp) (program : Program σ) (uuid : σ) (started : Started Unit) : Prop where
  ordered : started.sending.completed ++ started.sending.inflight <+:
    LogicSystem.owed .asyncServer json (stream (program.strand uuid).completions)
  all : Settled program uuid started →
    started.sending.completed = LogicSystem.owed .asyncServer json (stream (program.strand uuid).completions)

theorem enqueued_front (sending : SendPipeline Unit (List UInt8 × ℤ) SendNode) :
    sending.enqueued <+: admitted Server.newSendNode sending := List.prefix_append _ _

theorem queued_found (found : program.server.started uuid = some started) :
    (ledger program).queued uuid = admitted Server.newSendNode started.sending := by
  simp only [ledger, found]

variable [DecidableEq σ]

/-- The answers to what an uncut session has posted are those to its frames. -/
theorem Serves.answers (serves : Serves exact json program) (found : program.server.started uuid = some started)
    (uncut : Uncut (program.strand uuid).completions) :
    (program.strand uuid).posted.filterMap (LogicSystem.answer? .asyncServer json) =
      LogicSystem.owed .asyncServer json (stream (program.strand uuid).completions) := by
  rw [((serves.sessions uuid started found).heard uncut).posted]
  exact answers_frames json _

theorem Serves.pays (serves : Serves exact json program) (found : program.server.started uuid = some started) :
    Pays json program uuid started := by
  have solo := (serves.sessions uuid started found).solo
  have posted : started.sending.enqueued.Sublist
      ((program.strand uuid).posted.filterMap (LogicSystem.answer? .asyncServer json)) := by
    have queued := serves.routes.queued_sublist uuid
    rw [queued_found found] at queued
    exact (enqueued_front started.sending).sublist.trans queued
  refine ⟨solo.single, solo.written_prefix, fun registered => solo.inflight_front (Bool.eq_false_iff.mp registered),
    fun registered => solo.writes_front (Bool.eq_false_iff.mp registered), posted, fun uncut => ?_⟩
  rw [← serves.answers found uncut]
  exact posted

theorem Serves.paysAll (serves : Serves True json program) (found : program.server.started uuid = some started)
    (uncut : Uncut (program.strand uuid).completions) : PaysAll json program uuid started := by
  have known := serves.sessions uuid started found
  constructor
  · have queued := serves.routes.queued_prefix trivial uuid
    rw [queued_found found] at queued
    rw [← serves.answers found uncut]
    exact (known.solo.written_prefix.trans (enqueued_front started.sending)).trans queued
  · intro settled
    have idle : started.sending.idle = true := by
      by_contra busy
      obtain ⟨drain, node, rest, -, front, same⟩ := known.calling (Bool.eq_false_iff.mpr busy)
      refine settled.passed node (List.mem_append_left _ ?_) same
      rw [front]
      exact List.mem_cons_self
    have queued := serves.routes.queued_all trivial settled.posting settled.passed
    rw [queued_found found, admitted_idle idle] at queued
    rw [known.solo.all_written settled.written, queued]
    exact serves.answers found uncut

end Sessions

/-- Whatever the threads do, each session writes one node at a time, and pays its own peer. -/
theorem pays_always [DecidableEq σ] (json : JsonCpp) (tape : List (Program.Action σ)) :
    Always (Program.step json) (fun program => ∀ uuid started,
      program.server.started uuid = some started → Pays json program uuid started) .main tape := by
  have preserved {source target : Program σ} {action : Program.Action σ} (serves : Serves False json source)
      (taken : source.step json action = some target) : Serves False json target :=
    serves.step False.elim taken
  exact (always_of_preserved preserved serves_main tape).imp fun _ serves _ _ => serves.pays

/-- And while no answer meets a full queue, it pays in full for what its reads have not cut. -/
theorem paysAll_of_roomy [DecidableEq σ] (json : JsonCpp) (tape : List (Program.Action σ))
    (roomy : Guarded (Program.step json) Roomy .main tape) :
    Always (Program.step json) (fun program => ∀ uuid started, program.server.started uuid = some started →
      Uncut (program.strand uuid).completions → PaysAll json program uuid started) .main tape := by
  have preserved {source target : Program σ} {action : Program.Action σ} (serves : Serves True json source)
      (roomy : Roomy source action) (taken : source.step json action = some target) : Serves True json target :=
    serves.step (fun _ => roomy) taken
  exact (always_of_guarded preserved serves_main roomy).imp fun _ serves _ _ => serves.paysAll

/-- JsonCpp on the empty object and on its answer. -/
def emptyObject : JsonCpp where
  parse text := if text = ascii "\x7b\x7d" then (true, .object []) else (false, .null)
  valueToString _ := []
  toStyledString _ :=
    ascii "\x7b\n\t\"data\" : \"server has received, msg data is \",\n\t\"id\" : null\n\x7d\n"

private theorem object_nonempty : 0 < ([3, 233, 0, 2, 123, 125] : List UInt8).length := by decide

private theorem object_bounded : ([3, 233, 0, 2, 123, 125] : List UInt8).length ≤ maxLength := by decide

/-- A peer sends the empty object in one read and is sent its answer. -/
def oneExchange : List (Program.Action ℕ) :=
  [.start 7 true, .insert, .read 7 (some ⟨[3, 233, 0, 2, 123, 125], object_nonempty, object_bounded⟩) 0, .lock 7, .push,
    .notify, .unlock, .dealMsg, .dealMsg, .dealMsg, .dealMsg, .send 7, .send 7, .send 7, .dealMsg,
    .handleWrite 7 0 true]

theorem paysAll_oneExchange :
    Always (Program.step emptyObject) (fun program => ∀ uuid started,
      program.server.started uuid = some started → Uncut (program.strand uuid).completions →
        PaysAll emptyObject program uuid started) .main oneExchange ∧
      ((replay? (Program.step emptyObject) .main oneExchange).bind (·.server.started 7)).map
        (·.sending.completed.length) = some 1 :=
  ⟨paysAll_of_roomy emptyObject oneExchange (by decide +kernel), by decide +kernel⟩

end BoostLearn.Soundness.AsyncServer
