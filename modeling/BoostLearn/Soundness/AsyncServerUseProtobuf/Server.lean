import BoostLearn.Model.AsyncServerUseProtobuf.Server
import BoostLearn.Soundness.AsyncServerUseProtobuf.Exchange
import BoostLearn.Soundness.Queueing
import BoostLearn.Soundness.Uncut

/-! # AsyncServer_useProtobuf answers all of its peers

As long as no read ends inside a body or brings a length that is negative, and the replies fit and find room
in the queue, the program goes on, and each session has queued the replies to the frames of its own stream, in
order. The map holds the sessions that still read and whose writes have not failed.
-/

namespace BoostLearn.Soundness.AsyncServerUseProtobuf

open CInt Memory Framing Framing.Format WireFormat Replay Model Model.Wire Model.HandleRead
open Model.AsyncServerUseProtobuf Soundness.HandleRead Soundness.Queueing Spec

variable {σ : Type} {protobuf : Protobuf} {started next : Started} {completion : Completion}

/-- The node of a reply. -/
def replyNode (protobuf : Protobuf) (body : List UInt8) : MsgNode :=
  let out := reply protobuf body
  ⟨0, (out.length + 2 : ℕ), (bigEndianBytes out.length ++ out).map some ++ [some 0]⟩

/-- The replies that a stream is owed. -/
def replies (protobuf : Protobuf) (stream : List UInt8) : List MsgNode :=
  (useProtobuf.parse stream).frames.map fun frame => replyNode protobuf frame.2

/-- A read that the server copes with: it does not end inside a body, a head that stops the parse is one that
the server refuses, and the replies fit into their frames and into the queue. -/
structure Manageable (protobuf : Protobuf) (started : Started) (completion : Completion) (more : ℕ) : Prop where
  uncut : useProtobuf.openBody (started.delivered ++ completion.bytes) = none
  heads : ∀ head, (useProtobuf.parse (started.delivered ++ completion.bytes)).rejected = some head →
    RefusedHead head
  fits : ∀ frame ∈ (useProtobuf.parse (started.delivered ++ completion.bytes)).frames,
    (reply protobuf frame.2).length ≤ maxLength
  room : (replies protobuf (started.delivered ++ completion.bytes)).length ≤ started.written.length + 1001
  enough : completion.bytes.length ≤ more

/-- What is known of a session: it has queued the replies to its stream, and it is ready for more of it while
a read is outstanding. -/
structure Answering (protobuf : Protobuf) (started : Started) : Prop where
  queued : started.queued = replies protobuf started.delivered
  fits : ∀ frame ∈ (useProtobuf.parse started.delivered).frames, (reply protobuf frame.2).length ≤ maxLength
  orderly : Orderly started.sending started.queued started.written
  ready : started.reading = true → (useProtobuf.parse started.delivered).rejected = none ∧
    (reader protobuf).AtHead started.receiving (useProtobuf.parse started.delivered).tail

theorem answering_opened (protobuf : Protobuf) (sendPending : Bool) {receiving : Session Unit}
    (fresh : startedSession = .ok receiving) : Answering protobuf (.opened sendPending receiving) := by
  have same : receiving = AsyncServerUseProtobuf.started := Except.ok.inj (fresh.symm.trans startedSession_started)
  have empty : useProtobuf.parse [] = ⟨[], none, []⟩ := Format.parse_nil
  refine ⟨?_, fun frame member => ?_, orderly_opened sendPending, fun _ => ⟨by rw [Started.opened, empty], ?_⟩⟩
  · rw [replies, Started.opened, empty]
    rfl
  · rw [Started.opened, empty] at member
    cases member
  · rw [Started.opened, empty, same]
    exact started_atHead protobuf

/-- A message whose node can be built is queued behind the others. -/
theorem send_of_built {msg : List UInt8} {node : MsgNode} (open_ : ¬ started.sending.Fulled maxSendque)
    (built : newSendNode msg (toShort msg.length) = .ok node)
    (orderly : Orderly started.sending started.queued started.written) :
    ∃ next, started.send msg = .ok next ∧ next.delivered = started.delivered ∧ next.written = started.written ∧
      next.queued = started.queued ++ [node] ∧
      next.sending.sendQueue.length = started.sending.sendQueue.length + 1 ∧
      Orderly next.sending next.queued next.written ∧ (Failed next.sending ↔ Failed started.sending) := by
  obtain ⟨longer, -⟩ := @send_of_node _ _ _ _ msg _ open_ (fun _ => some node) rfl
  have sent : started.send msg = .ok { started with
      sending := SendQueue.send maxSendque (fun _ => some node) started.sending msg
      queued := started.queued ++ [node] } := by
    rw [Started.send, if_neg open_, built]
    rfl
  refine ⟨_, sent, rfl, rfl, rfl, ?_, ?_, ?_⟩
  · rw [longer, List.length_append, List.length_singleton]
  · dsimp only
    exact orderly.sends open_ rfl
  · dsimp only
    exact failed_sends open_ rfl

theorem not_fulled {queue : SendQueue MsgNode} (room : queue.sendQueue.length ≤ 1000) :
    ¬ queue.Fulled maxSendque := by
  rw [SendQueue.Fulled, toInt_of_range (by omega) (by omega), maxSendque]
  omega

/-- As many replies as there is room for are queued, in order. -/
theorem sendAll_of_room {bodies : List (List UInt8)} (fits : ∀ body ∈ bodies, (reply protobuf body).length ≤ maxLength)
    (orderly : Orderly started.sending started.queued started.written)
    (room : started.sending.sendQueue.length + bodies.length ≤ 1001) :
    ∃ next, started.sendAll (bodies.map (reply protobuf)) = .ok next ∧ next.delivered = started.delivered ∧
      next.written = started.written ∧ next.queued = started.queued ++ bodies.map (replyNode protobuf) ∧
      Orderly next.sending next.queued next.written ∧ (Failed next.sending ↔ Failed started.sending) := by
  induction bodies generalizing started with
  | nil => exact ⟨started, rfl, rfl, rfl, (List.append_nil _).symm, orderly, Iff.rfl⟩
  | cons body rest ih =>
    rw [List.length_cons] at room
    have open_ := not_fulled (show started.sending.sendQueue.length ≤ 1000 by omega)
    have limit := fits body (.head _)
    have built : newSendNode (reply protobuf body) (toShort (reply protobuf body).length) =
        .ok (replyNode protobuf body) := by
      rw [toShort_of_limit limit]
      exact newSendNode_of_limit limit
    obtain ⟨middle, sent, delivered, written, queued, longer, orderly, failed⟩ := send_of_built open_ built orderly
    obtain ⟨next, sentAll, delivered', written', queued', orderly, failed'⟩ :=
      ih (fun other member => fits other (.tail _ member)) orderly (by omega)
    refine ⟨next, ?_, delivered'.trans delivered, written'.trans written, queued'.trans ?_, orderly,
      failed'.trans failed⟩
    · rw [List.map_cons, Started.sendAll, sent]
      exact sentAll
    · rw [queued, List.map_cons, List.append_assoc]
      rfl

/-- A read that the server copes with is answered, and its session goes on unless a head has been refused. -/
theorem Answering.reads (answering : Answering protobuf started) (reading : started.reading = true) {more : ℕ}
    (manageable : Manageable protobuf started completion more) :
    ∃ done next, (codec protobuf).handleRead (more + 1) started.receiving (some completion.bytes) = some (.ok done) ∧
      started.sendAll (done.effects.filterMap Effect.out?) = .ok next ∧ done.reading = !done.cleared ∧
      (Failed next.sending ↔ Failed started.sending) ∧
      Answering protobuf { next with
        receiving := done.session
        reading := done.reading
        delivered := next.delivered ++ completion.bytes } := by
  obtain ⟨accepted, atHead⟩ := answering.ready reading
  obtain ⟨done, ran, gains⟩ := Reader.handleRead_uncut atHead accepted manageable.heads manageable.uncut
    (Nat.lt_succ_of_le manageable.enough)
  obtain ⟨frames, split, outs⟩ := gains.outs
  have parsed : (useProtobuf.parse (started.delivered ++ completion.bytes)).frames =
      (useProtobuf.parse started.delivered).frames ++ frames := split
  have owed : replies protobuf (started.delivered ++ completion.bytes) =
      started.queued ++ (frames.map Prod.snd).map (replyNode protobuf) := by
    rw [replies, parsed, List.map_append, answering.queued, replies, List.map_map]
    rfl
  have fits : ∀ body ∈ frames.map Prod.snd, (reply protobuf body).length ≤ maxLength := by
    intro body member
    obtain ⟨frame, among, rfl⟩ := List.mem_map.mp member
    exact manageable.fits frame (by rw [parsed]; exact List.mem_append_right _ among)
  have room : started.sending.sendQueue.length + (frames.map Prod.snd).length ≤ 1001 := by
    have limit := manageable.room
    rw [owed, answering.orderly.split] at limit
    simp only [List.length_append, List.length_map] at limit ⊢
    omega
  obtain ⟨next, sent, delivered, written, queued, orderly, failed⟩ := sendAll_of_room fits answering.orderly room
  have called : done.effects.filterMap Effect.out? = (frames.map Prod.snd).map (reply protobuf) := by
    rw [outs, List.map_map]
    rfl
  refine ⟨done, next, ran, by rw [called]; exact sent, ?_, failed, ⟨?_, ?_, orderly, fun going => ?_⟩⟩
  · rw [gains.reading, gains.cleared]
    cases ((reader protobuf).format.parse (started.delivered ++ completion.bytes)).rejected <;> rfl
  · dsimp only
    rw [delivered, queued, owed]
  · dsimp only
    rw [delivered]
    exact manageable.fits
  · have goesOn : (useProtobuf.parse (started.delivered ++ completion.bytes)).rejected = none :=
      Option.isNone_iff_eq_none.mp (gains.reading.symm.trans going)
    dsimp only
    rw [delivered]
    exact ⟨goesOn, gains.atHead goesOn⟩

/-- The reads of all sessions are manageable. -/
def Managed (protobuf : Protobuf) (server : Server σ) : Server.Action σ → Prop
  | .read uuid (some completion) more =>
    ∀ started, server.started uuid = some started → Manageable protobuf started completion more
  | _ => True

/-- The program runs, its sessions answer, and the map holds those that read and have not failed to write. -/
structure Replying (protobuf : Protobuf) (server : Server σ) : Prop where
  running : server.ended = false
  answering : ∀ uuid started, server.started uuid = some started → Answering protobuf started
  registered : ∀ uuid, uuid ∈ server.sessions ↔
    ∃ started, server.started uuid = some started ∧ started.reading = true ∧ ¬ Failed started.sending

variable {server target : Server σ} {action : Server.Action σ} {uuid : σ}

theorem Replying.mem_iff (replying : Replying protobuf server) (found : server.started uuid = some started) :
    uuid ∈ server.sessions ↔ started.reading = true ∧ ¬ Failed started.sending := by
  rw [replying.registered, found]
  simp only [Option.some.injEq, exists_eq_left']

theorem replying_main (protobuf : Protobuf) : Replying protobuf (.main : Server σ) :=
  ⟨rfl, fun _ _ found => (by cases found), fun _ =>
    ⟨fun member => (by cases member), fun ⟨_, found, _⟩ => (by cases found)⟩⟩

variable [DecidableEq σ]

/-- A handler of a session leaves the others alone. -/
theorem Replying.handled (replying : Replying protobuf server) (answering : Answering protobuf next) {clears : Bool}
    (registered : uuid ∈ server.sessions ∧ clears = false ↔ next.reading = true ∧ ¬ Failed next.sending) :
    Replying protobuf (server.handled uuid next clears) := by
  refine ⟨replying.running, fun other started found => ?_, fun other => ?_⟩
  · by_cases same : other = uuid
    · rw [same, Server.handled_self] at found
      cases found
      exact answering
    · rw [Server.handled_other server next clears same] at found
      exact replying.answering other started found
  · rw [Server.mem_handled]
    by_cases same : other = uuid
    · subst same
      rw [Server.handled_self, show (clears = true → other ≠ other) ↔ clears = false by cases clears <;> simp,
        registered]
      simp only [Option.some.injEq, exists_eq_left']
    · rw [Server.handled_other server next clears same, replying.registered, and_iff_left fun _ => same]

theorem Replying.read (replying : Replying protobuf server) (found : server.started uuid = some started)
    (reading : started.reading = true) {more : ℕ} (manageable : Manageable protobuf started completion more) :
    Replying protobuf (server.handleRead protobuf uuid started (some completion.bytes) more) := by
  obtain ⟨done, next, ran, sent, opposite, failed, answering⟩ :=
    (replying.answering uuid started found).reads reading manageable
  rw [Server.handleRead]
  simp only [ran, sent]
  refine replying.handled answering ?_
  rw [replying.mem_iff found, reading]
  dsimp only
  rw [opposite, failed]
  cases done.cleared <;> simp

theorem Replying.step (replying : Replying protobuf server) (managed : Managed protobuf server action)
    (taken : server.step protobuf action = some target) : Replying protobuf target := by
  rw [Server.step, if_neg (by rw [replying.running]; exact Bool.false_ne_true)] at taken
  cases action with
  | accept uuid sendPending =>
    rw [Server.act] at taken
    split at taken
    · next receiving absent fresh =>
      cases taken
      have opened := answering_opened protobuf sendPending fresh
      refine ⟨replying.running, fun other started found => ?_, fun other => ?_⟩
      · by_cases same : other = uuid
        · subst same
          cases (Function.update_self ..).symm.trans found
          exact opened
        · exact replying.answering other started ((Function.update_of_ne same ..).symm.trans found)
      · rw [Server.mem_register, replying.registered]
        by_cases same : other = uuid
        · subst same
          refine ⟨fun _ => ⟨_, Function.update_self .., rfl, fun failed => failed.2 rfl⟩, fun _ => .inl rfl⟩
        · rw [or_iff_right same]
          dsimp only
          rw [Function.update_of_ne same]
    · cases taken
  | acceptError =>
    cases taken
    exact replying
  | read uuid completion more =>
    obtain ⟨started, found, taken⟩ := Option.bind_eq_some_iff.mp taken
    obtain ⟨reading, same⟩ := Option.ite_none_right_eq_some.mp taken
    cases same
    cases completion with
    | none =>
      have answering := replying.answering uuid started found
      have kept : Answering protobuf { started with reading := false, delivered := started.delivered ++ [] } := by
        rw [List.append_nil]
        exact ⟨answering.queued, answering.fits, answering.orderly, fun going => by cases going⟩
      exact replying.handled kept ⟨fun both => (by cases both.2), fun both => (by cases both.1)⟩
    | some completion => exact replying.read found reading (managed started found)
  | written uuid index success =>
    obtain ⟨started, found, taken⟩ := Option.bind_eq_some_iff.mp taken
    obtain ⟨node, present, rfl⟩ := Option.map_eq_some_iff.mp taken
    obtain ⟨queued, fits, orderly, ready⟩ := replying.answering uuid started found
    have registered := replying.mem_iff found
    cases success with
    | true =>
      obtain ⟨later, working⟩ := orderly.completes present
      have kept : Answering protobuf (started.handleWrite index node) := ⟨queued, fits, later, ready⟩
      refine replying.handled kept ?_
      have busy : ¬ Failed started.sending := by
        rintro ⟨idle, -⟩
        rw [idle] at present
        cases present
      rw [registered, and_iff_left rfl, and_iff_left busy]
      exact (and_iff_left working).symm
    | false =>
      obtain ⟨later, failed⟩ := orderly.fails present
      have kept : Answering protobuf (started.handleError index) := ⟨queued, fits, later, ready⟩
      exact replying.handled kept
        ⟨fun both => (by cases both.2), fun both => absurd failed both.2⟩

/-- Whatever protobuf does, the program goes on and all of its sessions reply. -/
theorem replies_of_managed {tape : List (Server.Action σ)}
    (managed : Guarded (Server.step protobuf) (Managed protobuf) .main tape) :
    Always (Server.step protobuf) (Replying protobuf) .main tape :=
  always_of_guarded Replying.step (replying_main protobuf) managed

/-- What SyncClient_useProtobuf makes of a node that has been written: the id of what was asked, and its data
behind the text. -/
def Understands (runtime : Runtime) (body : List UInt8) (node : MsgNode) : Prop :=
  let asked := (onRuntime runtime).parseFromString body
  ∃ wire out valid, readString node.data (toSizeT node.maxLen) = .ok wire ∧
    SyncClientUseProtobuf.received wire = .ok out ∧
    MsgData.parseFromString runtime out = some (⟨asked.id, replyPrefix ++ asked.data⟩, valid)

/-- What the peer of a session gets: nodes that it understands, one for each frame of its stream, in order. -/
structure Understanding (runtime : Runtime) (started : Started) : Prop where
  understood : List.Forall₂ (fun frame node => Understands runtime frame.2 node)
    (useProtobuf.parse started.delivered).frames started.queued
  ordered : started.written ++ started.sending.inflight <+: started.queued
  complete : ¬ Failed started.sending → started.sending.inflight = [] → started.written = started.queued

/-- The program runs, and every peer is understood and understands. -/
structure Satisfying (runtime : Runtime) (server : Server σ) : Prop where
  running : server.ended = false
  understanding : ∀ uuid started, server.started uuid = some started → Understanding runtime started
  registered : ∀ uuid, uuid ∈ server.sessions ↔
    ∃ started, server.started uuid = some started ∧ started.reading = true ∧ ¬ Failed started.sending

theorem understands_reply {runtime : Runtime} (lawful : runtime.Lawful) {body : List UInt8}
    (limit : (reply (onRuntime runtime) body).length ≤ maxLength) :
    Understands runtime body (replyNode (onRuntime runtime) body) := by
  obtain ⟨asked, valid, parsed, range⟩ := parses_any lawful body
  have same := onRuntime_of_parsed parsed
  have id : toInt (toSizeT asked.id) = asked.id := by
    have low := range.low
    have high := range.high
    simp only [toInt, toSizeT]
    omega
  have room : LeavesRoom asked := by
    have fits := limit
    rw [onRuntime_eq lawful] at fits
    have bound := (reply_length_iff (fieldsOf runtime) body).mp fits
    rwa [fieldsOf, same, id] at bound
  obtain ⟨frame, again, framed, received, understood⟩ := understood_reply lawful parsed range room
  have built := newSendNode_of_limit limit
  rw [sent, toShort_of_limit limit, bind_of_ok built] at framed
  rw [Understands, replyNode, same]
  dsimp only at framed ⊢
  exact ⟨frame, _, again, framed, received, understood⟩

/-- In every run whose reads are manageable, the program goes on, every peer gets an answer that it understands to
each of its frames, in order, and the map holds the sessions that read and have not failed to write. -/
theorem understands_of_managed {runtime : Runtime} (lawful : runtime.Lawful) {tape : List (Server.Action σ)}
    (managed : Guarded (Server.step (onRuntime runtime)) (Managed (onRuntime runtime)) .main tape) :
    Always (Server.step (onRuntime runtime)) (Satisfying runtime) .main tape := by
  refine (replies_of_managed managed).imp fun server replying => ?_
  refine ⟨replying.running, fun uuid started found => ?_, replying.registered⟩
  have answering := replying.answering uuid started found
  refine ⟨?_, answering.orderly.written_prefix, answering.orderly.all_written⟩
  rw [answering.queued, replies, List.forall₂_map_right_iff, List.forall₂_same]
  intro frame member
  exact understands_reply lawful (answering.fits frame member)

section Example

private theorem letter_nonempty : 0 < letterRequest.bytes.length := by decide

private theorem letter_bounded : letterRequest.bytes.length ≤ maxLength := by decide

/-- A session, one request in one read, and the reply that goes out. -/
def oneLetter : List (Server.Action ℕ) :=
  [.accept 7 true, .read 7 (some ⟨letterRequest.bytes, letter_nonempty, letter_bounded⟩) 100,
    .written 7 0 true]

theorem reply_letter : (reply (onRuntime plain) letterRequest.body).length ≤ maxLength := by
  have parsed : (onRuntime plain).parseFromString letterRequest.body = letter := by decide
  rw [onRuntime_eq lawful_plain]
  apply (reply_length_iff (fieldsOf plain) letterRequest.body).mpr
  have id : toInt (toSizeT letter.id) = 7 := by decide
  rw [fieldsOf, parsed, id]
  decide

theorem managed_oneLetter :
    Guarded (Server.step (onRuntime plain)) (Managed (onRuntime plain)) .main oneLetter := by
  intro accepted taken
  refine ⟨trivial, fun later _ => ⟨fun started found => ?_, fun _ _ => ⟨trivial, trivial⟩⟩⟩
  cases taken
  cases found
  have parsed := parse_requests [letterRequest]
  have whole := openBody_requests [letterRequest]
  rw [List.flatMap_singleton] at parsed whole
  have stream : [] ++ letterRequest.bytes = letterRequest.bytes := rfl
  refine ⟨?_, ?_, ?_, ?_, by decide⟩
  · exact whole
  · intro head stops
    cases (congrArg Parsed.rejected parsed).symm.trans stops
  · intro frame member
    have among : frame ∈ (useProtobuf.parse letterRequest.bytes).frames := member
    rw [parsed] at among
    rw [List.mem_singleton.mp among]
    exact reply_letter
  · have one : (replies (onRuntime plain) letterRequest.bytes).length = 1 := by
      rw [replies, parsed]
      rfl
    exact Nat.le_trans (Nat.le_of_eq one) (by decide)

theorem understands_of_managed_oneLetter :
    Always (Server.step (onRuntime plain)) (Satisfying plain) .main oneLetter :=
  understands_of_managed lawful_plain managed_oneLetter

end Example

end BoostLearn.Soundness.AsyncServerUseProtobuf
