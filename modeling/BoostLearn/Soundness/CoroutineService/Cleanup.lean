import BoostLearn.Model.CoroutineService.CServer

/-! # CoroutineService cleans up after its sessions

Every exit of the coroutine but one removes the session, and that one is taken when the flag is
set; whoever sets the flag removes the session in the same handler. So a session is in the map
exactly while its coroutine goes on and the flag is clear. A set flag is seen at the top of the
loop, which is at most one message away.
-/

namespace BoostLearn.Soundness.CoroutineService

open Memory Replay Model Model.CoroutineService

variable {σ τ : Type}

/-- What is known of a session that is in the map, or is not. -/
structure CleanedUp (registered : Prop) (started : Started τ) : Prop where
  returned : ∀ exit, started.phase = .returned exit → ¬ registered
  noted : started.session.bClose = true → started.closedAt.isSome = true
  quiet : ∀ reads posts, started.closedAt = some (reads, posts) →
    started.headReads = reads ∧ started.posted.length ≤ posts + 1
  removed : ¬ registered → (∃ exit, started.phase = .returned exit) ∨ started.session.bClose = true

/-- A session whose coroutine has returned is not in the map, the flag stops its reads and all but
one of its posts, and it is removed for one of these reasons only. -/
def CleansUp (server : CServer σ τ) : Prop :=
  ∀ uuid started, server.started uuid = some started → CleanedUp (uuid ∈ server.sessions) started

/-- A session whose coroutine has returned is not in the map, whatever happens from then on. -/
def StaysOut [DecidableEq σ] [DecidableEq τ] (server : CServer σ τ) : Prop :=
  ∀ uuid started exit, server.started uuid = some started → started.phase = .returned exit →
    ∀ tape, Always CServer.step (fun later => uuid ∉ later.sessions) server tape

/-- The coroutine goes on, or is stuck in a fault. -/
def Running (started : Started τ) : Prop := ∀ exit, started.phase ≠ .returned exit

/-- A session is in the map while its coroutine goes on and the flag is clear. The flag comes with
a note, behind which a message ends the coroutine. -/
structure Kept (registered : Prop) (started : Started τ) : Prop where
  member : registered ↔ started.session.bClose = false ∧ Running started
  noted : started.closedAt.isSome = started.session.bClose
  quiet : ∀ reads posts, started.closedAt = some (reads, posts) → started.headReads = reads ∧
    (started.posted.length = posts ∨ started.posted.length = posts + 1 ∧ ¬ Running started)

variable {registered : Prop} {started next : Started τ} {clears : Bool}

theorem Kept.cleanedUp (kept : Kept registered started) : CleanedUp registered started := by
  refine ⟨fun exit returned member => ?_, fun closed => ?_, fun reads posts noted => ?_, fun absent => ?_⟩
  · exact (kept.member.mp member).2 exit returned
  · rw [kept.noted, closed]
  · obtain ⟨reads, posts | ⟨posts, -⟩⟩ := kept.quiet reads posts noted
    · exact ⟨reads, by omega⟩
    · exact ⟨reads, by omega⟩
  · cases closed : started.session.bClose with
    | true => exact Or.inr rfl
    | false =>
      refine Or.inl (by_contra fun running => absent (kept.member.mpr ⟨closed, fun exit same => ?_⟩))
      exact running ⟨exit, same⟩

section Session

theorem not_running_leave (started : Started τ) (exit : Exit) : ¬ Running (started.leave exit) :=
  fun running => running exit rfl

/-- What a handler leaves behind, in the map unless the handler has called `ClearServer`. -/
def Leaves (registered : Prop) (outcome : Started τ × Bool) : Prop :=
  Kept (registered ∧ outcome.2 = false) outcome.1

theorem Kept.removed (kept : Kept False started) : Leaves registered (started, true) := by
  have absent : (registered ∧ true = false) = False := by simp
  rwa [Leaves, absent]

theorem Kept.stays (kept : Kept registered started) : Leaves registered (started, false) := by
  rwa [Leaves, and_iff_left rfl]

/-- The first `Close` is noted, and a later one changes nothing. -/
theorem Kept.close (kept : Kept registered started) : Kept False started.close := by
  refine ⟨iff_of_false id fun opened => ?_, rfl, fun reads posts noted => ?_⟩
  · cases opened.1
  · cases before : started.closedAt with
    | none =>
      simp only [Started.close, before, Option.getD_none, Option.some.injEq, Prod.mk.injEq] at noted
      exact ⟨noted.1, Or.inl noted.2⟩
    | some first =>
      simp only [Started.close, before, Option.getD_some, Option.some.injEq] at noted
      exact kept.quiet reads posts (before.trans (congrArg some noted))

theorem Kept.leave (kept : Kept registered started) (exit : Exit) : Kept False (started.leave exit) := by
  have ended := not_running_leave started exit
  refine ⟨iff_of_false id fun opened => ended opened.2, kept.noted, fun reads posts noted => ?_⟩
  obtain ⟨reads, posts | ⟨posts, -⟩⟩ := kept.quiet reads posts noted
  · exact ⟨reads, Or.inl posts⟩
  · exact ⟨reads, Or.inr ⟨posts, ended⟩⟩

theorem Kept.caught (kept : Kept registered started) (badArrayNewLength : Bool) :
    Leaves registered (started.caught badArrayNewLength) :=
  (kept.close.leave _).removed

theorem Kept.peerClosed (kept : Kept registered started) :
    Leaves registered started.peerClosed :=
  (kept.close.leave _).removed

/-- The coroutine goes on without a call that counts. -/
theorem Kept.goesOn (kept : Kept registered started) (running : Running started)
    (onward : Running next) (flag : next.session.bClose = started.session.bClose)
    (note : next.closedAt = started.closedAt) (reads : next.headReads = started.headReads)
    (posts : next.posted = started.posted) : Kept registered next := by
  refine ⟨?_, ?_, ?_⟩
  · rw [kept.member, flag]
    exact and_congr_right fun _ => iff_of_true running onward
  · rw [note, flag]
    exact kept.noted
  · rw [note, reads, posts]
    intro first last noted
    obtain ⟨same, posted | ⟨-, ended⟩⟩ := kept.quiet first last noted
    · exact ⟨same, Or.inl posted⟩
    · exact absurd running ended

theorem Kept.fail (kept : Kept registered started) (running : Running started) (fault : Fault) :
    Kept registered (started.fail fault) := by
  have onward : Running (started.fail fault) := fun exit same => by cases same
  exact kept.goesOn running onward rfl rfl rfl rfl

/-- At the top of the loop the flag is seen, or there is none and nothing is noted. -/
theorem kept_loopTop (member : registered ↔ started.session.bClose = false)
    (noted : started.closedAt.isSome = started.session.bClose)
    (quiet : ∀ reads posts, started.closedAt = some (reads, posts) → started.headReads = reads ∧
      (started.posted.length = posts ∨ started.posted.length = posts + 1)) :
    Kept registered started.loopTop := by
  rw [Started.loopTop]
  split_ifs with closed
  · have ended := not_running_leave started .closed
    refine ⟨?_, noted, fun reads posts note => ?_⟩
    · rw [member]
      refine iff_of_false (fun opened => ?_) fun opened => ended opened.2
      rw [closed] at opened
      cases opened
    · obtain ⟨same, posted | posted⟩ := quiet reads posts note
      · exact ⟨same, Or.inl posted⟩
      · exact ⟨same, Or.inr ⟨posted, ended⟩⟩
  · have opened : started.session.bClose = false := Bool.eq_false_iff.mpr closed
    have nothing : started.closedAt = none := by
      rw [opened] at noted
      exact Option.not_isSome_iff_eq_none.mp (by rw [noted]; exact Bool.false_ne_true)
    cases started.session.recvHeadNode.clear with
    | error fault =>
      refine ⟨?_, noted, fun reads posts note => ?_⟩
      · rw [member]
        exact iff_of_true opened ⟨opened, fun exit same => by cases same⟩
      · cases nothing.symm.trans note
    | ok head =>
      refine ⟨?_, noted, fun reads posts note => ?_⟩
      · rw [member]
        exact iff_of_true opened ⟨opened, fun exit same => by cases same⟩
      · cases nothing.symm.trans note

theorem kept_spawn {session : CSession} (opened : session.bClose = false) :
    Kept True (Started.spawn session : Started τ) := by
  refine ⟨iff_of_true trivial ⟨opened, fun exit same => ?_⟩, ?_, fun reads posts noted => ?_⟩
  · cases same
  · exact opened.symm
  · cases noted

/-- A body read is started, unless its node cannot be built. -/
theorem Kept.readBody (kept : Kept registered started) (running : Running started) (msgId : ℤ)
    (built : Except Fault MsgNode) :
    Leaves registered (started.readBody msgId built) := by
  cases built with
  | error fault =>
    cases fault with
    | badArrayNewLength => exact kept.caught true
    | _ => exact (kept.fail running _).stays
  | ok node =>
    have onward : Running (started.readBody msgId (.ok node)).1 := fun exit same => by cases same
    exact (kept.goesOn running onward rfl rfl rfl rfl).stays

theorem Kept.checkHeader (kept : Kept registered started) (running : Running started)
    (fields : Except Fault (ℤ × ℤ)) :
    Leaves registered (started.checkHeader fields) := by
  cases fields with
  | error fault => exact (kept.fail running fault).stays
  | ok fields =>
    obtain ⟨msgId, msgLen⟩ := fields
    rw [Started.checkHeader]
    split_ifs
    · exact (kept.leave .invalidLength).removed
    · exact kept.readBody running msgId _

theorem Kept.onHead (kept : Kept registered started) (running : Running started)
    (result : Option (List UInt8)) :
    Leaves registered (started.onHead result) := by
  cases result with
  | none => exact kept.caught false
  | some bytes =>
    rw [Started.onHead]
    split_ifs
    · exact kept.peerClosed
    · have still : Kept registered (started.fillHead bytes) := ⟨kept.member, kept.noted, kept.quiet⟩
      exact still.checkHeader running _

/-- The post of a message ends the coroutine when the flag is set. -/
theorem Kept.post (kept : Kept registered started) (running : Running started) (node : RecvNode ℤ)
    (stored : Except Fault Cells) :
    Leaves registered (started.post node stored) := by
  cases stored with
  | error fault => exact (kept.fail running fault).stays
  | ok data =>
    apply Kept.stays
    apply kept_loopTop
    · rw [kept.member]
      exact and_iff_left running
    · exact kept.noted
    · intro reads posts noted
      obtain ⟨same, posted | ⟨-, ended⟩⟩ := kept.quiet reads posts noted
      · refine ⟨same, Or.inr ?_⟩
        rw [List.length_append, posted]
        rfl
      · exact absurd running ended

theorem Kept.onBody (kept : Kept registered started) (running : Running started) (node : RecvNode ℤ)
    (result : Option (List UInt8)) :
    Leaves registered (started.onBody node result) := by
  cases result with
  | none => exact kept.caught false
  | some bytes =>
    rw [Started.onBody]
    split_ifs
    · exact kept.peerClosed
    · exact kept.post running node _

/-- A write that fails closes and removes its session; sending changes nothing else. -/
theorem Kept.handleWrite (kept : Kept registered started)
    (action : SendPipeline.Action τ (List UInt8 × ℤ)) :
    Leaves registered (started.handleWrite action) := by
  cases action with
  | written index success =>
    cases success with
    | false => exact kept.close.removed
    | true => exact kept.stays
  | _ => exact kept.stays

end Session

section Server

theorem Kept.apply [DecidableEq τ] (kept : Kept registered started) {event : Event τ}
    (applied : event.apply started = some (next, clears)) :
    Leaves registered (next, clears) := by
  cases event with
  | resume =>
    simp only [Event.apply] at applied
    split_ifs at applied with spawned
    cases applied
    have running : Running started := fun exit same => by
      rw [spawned] at same
      cases same
    apply Kept.stays
    apply kept_loopTop
    · rw [kept.member]
      exact and_iff_left running
    · exact kept.noted
    · intro reads posts noted
      obtain ⟨same, posted | ⟨posted, -⟩⟩ := kept.quiet reads posts noted
      · exact ⟨same, Or.inl posted⟩
      · exact ⟨same, Or.inr posted⟩
  | read result =>
    simp only [Event.apply] at applied
    split at applied
    · next _ _ reading =>
      have running : Running started := fun exit same => by
        rw [reading] at same
        cases same
      split_ifs at applied
      rw [← Option.some.inj applied]
      exact kept.onHead running result
    · next node reading _ =>
      have running : Running started := fun exit same => by
        rw [reading] at same
        cases same
      split_ifs at applied
      rw [← Option.some.inj applied]
      exact kept.onBody running node result
    · cases applied
  | sending action =>
    obtain ⟨sending, -, same⟩ := Option.map_eq_some_iff.mp applied
    have still : Kept registered { started with sending } := ⟨kept.member, kept.noted, kept.quiet⟩
    rw [← same]
    exact still.handleWrite action

def AllKept (server : CServer σ τ) : Prop :=
  ∀ uuid started, server.started uuid = some started → Kept (uuid ∈ server.sessions) started

theorem allKept_listening : AllKept (.listening : CServer σ τ) := by
  intro uuid started found
  cases found

/-- A new session, wherever its coroutine has got to inside `start`. -/
theorem kept_spawned {session : CSession} (opened : session.bClose = false) (dispatched : Bool) :
    Kept True (if dispatched then (Started.spawn session : Started τ).loopTop else .spawn session) := by
  have spawned : Kept True (Started.spawn session : Started τ) := kept_spawn opened
  cases dispatched with
  | true =>
    apply kept_loopTop (iff_of_true trivial opened) spawned.noted
    intro reads posts noted
    cases noted
  | false => exact spawned

variable [DecidableEq σ] {server target : CServer σ τ}

theorem allKept_accept (kept : AllKept server) {session : CSession} (opened : session.bClose = false)
    (uuid : σ) (dispatched : Bool) : AllKept (server.accept uuid session dispatched) := by
  intro other started found
  by_cases same : other = uuid
  · have present : (other ∈ (server.accept uuid session dispatched).sessions) = True := by
      rw [same]
      exact eq_true List.mem_insert_self
    simp only [CServer.accept, same, Function.update_self, Option.some.injEq] at found
    rw [present, ← found]
    exact kept_spawned opened dispatched
  · have unchanged : other ∈ (server.accept uuid session dispatched).sessions ↔
        other ∈ server.sessions := List.mem_insert_iff.trans (or_iff_right same)
    simp only [CServer.accept, Function.update_of_ne same] at found
    rw [unchanged]
    exact kept other started found

/-- A handler of a session leaves the other sessions where they are. -/
theorem allKept_handle (kept : AllKept server) {uuid : σ}
    (outcome : Leaves (uuid ∈ server.sessions) (started, clears)) :
    AllKept (server.handle uuid started clears) := by
  intro other held found
  have member : other ∈ (server.handle uuid started clears).sessions ↔
      other ∈ server.sessions ∧ ¬ (clears = true ∧ other = uuid) := by
    cases clears with
    | false => simp [CServer.handle]
    | true => simp [CServer.handle, CServer.clearServer]
  rw [member]
  by_cases same : other = uuid
  · simp only [CServer.handle, same, Function.update_self, Option.some.injEq] at found
    have here : (other ∈ server.sessions ∧ ¬ (clears = true ∧ other = uuid)) =
        (uuid ∈ server.sessions ∧ clears = false) := by
      simp [same]
    rw [here, ← found]
    exact outcome
  · simp only [CServer.handle, Function.update_of_ne same] at found
    have elsewhere : (other ∈ server.sessions ∧ ¬ (clears = true ∧ other = uuid)) =
        (other ∈ server.sessions) := by
      simp [same]
    rw [elsewhere]
    exact kept other held found

variable [DecidableEq τ]

theorem AllKept.step {action : CServer.Action σ τ} (kept : AllKept server)
    (taken : server.step action = some target) : AllKept target := by
  cases action with
  | accept uuid dispatched =>
    simp only [CServer.step] at taken
    split at taken
    · obtain ⟨session, created, rfl⟩ := Option.map_eq_some_iff.mp taken
      rw [newSession_eq] at created
      cases created
      exact allKept_accept kept rfl uuid dispatched
    · cases taken
  | acceptError =>
    cases taken
    exact kept
  | session uuid event =>
    obtain ⟨started, found, taken⟩ := Option.bind_eq_some_iff.mp taken
    obtain ⟨⟨next, clears⟩, applied, rfl⟩ := Option.map_eq_some_iff.mp taken
    exact allKept_handle kept ((kept uuid started found).apply applied)

/-- No handler goes on with a coroutine that has returned. -/
theorem returned_apply {exit : Exit} (ended : started.phase = .returned exit) {event : Event τ}
    (applied : event.apply started = some (next, clears)) : next.phase = .returned exit := by
  cases event with
  | resume =>
    simp only [Event.apply, ended] at applied
    cases applied
  | read result =>
    simp only [Event.apply, ended] at applied
    cases applied
  | sending action =>
    obtain ⟨sending, -, same⟩ := Option.map_eq_some_iff.mp applied
    have unchanged : ({ started with sending }.handleWrite action).1.phase = started.phase := by
      cases action with
      | written index success =>
        cases success with
        | false => rfl
        | true => rfl
      | _ => rfl
    rw [same] at unchanged
    exact unchanged.trans ended

/-- The coroutine of this session has returned. -/
def HasReturned (uuid : σ) (server : CServer σ τ) : Prop :=
  ∃ started exit, server.started uuid = some started ∧ started.phase = .returned exit

theorem hasReturned_step {uuid : σ} {action : CServer.Action σ τ} (ended : HasReturned uuid server)
    (taken : server.step action = some target) : HasReturned uuid target := by
  obtain ⟨started, exit, found, returned⟩ := ended
  cases action with
  | accept other dispatched =>
    simp only [CServer.step] at taken
    split at taken
    · next unknown =>
      obtain ⟨session, -, rfl⟩ := Option.map_eq_some_iff.mp taken
      have different : uuid ≠ other := fun same => by
        rw [same, unknown] at found
        cases found
      exact ⟨started, exit, (Function.update_of_ne different ..).trans found, returned⟩
    · cases taken
  | acceptError =>
    cases taken
    exact ⟨started, exit, found, returned⟩
  | session other event =>
    obtain ⟨held, known, taken⟩ := Option.bind_eq_some_iff.mp taken
    obtain ⟨⟨next, clears⟩, applied, rfl⟩ := Option.map_eq_some_iff.mp taken
    by_cases same : uuid = other
    · subst same
      cases found.symm.trans known
      exact ⟨next, exit, Function.update_self .., returned_apply returned applied⟩
    · exact ⟨started, exit, (Function.update_of_ne same ..).trans found, returned⟩

theorem AllKept.staysOut (kept : AllKept server) : StaysOut server := by
  intro uuid started exit found returned tape
  have always : Always CServer.step (fun later => AllKept later ∧ HasReturned uuid later) server tape := by
    apply always_of_preserved
    · exact fun held taken => ⟨held.1.step taken, hasReturned_step held.2 taken⟩
    · exact ⟨kept, started, exit, found, returned⟩
  apply always.imp
  rintro later ⟨kept, started, exit, found, returned⟩
  exact (kept uuid started found).cleanedUp.returned exit returned

/-- In every interleaving of the handlers, every session is cleaned up, for good. -/
theorem cleansUp_always (tape : List (CServer.Action σ τ)) :
    Always CServer.step (fun server => CleansUp server ∧ StaysOut server) (.listening : CServer σ τ)
      tape := by
  have always : Always CServer.step AllKept (.listening : CServer σ τ) tape :=
    always_of_preserved AllKept.step allKept_listening tape
  apply always.imp
  intro server kept
  exact ⟨fun uuid started found => (kept uuid started found).cleanedUp, kept.staysOut⟩

end Server

end BoostLearn.Soundness.CoroutineService
