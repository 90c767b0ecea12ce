import BoostLearn.Soundness.CoroutineService.Service

/-! # What can bring CoroutineService down

Two things leave the code: an exception or a fault out of a callback, and a store in front of a body
node whose header has the length `-1`. Both are in what some peer has sent. As long as all frames with
a callback can be answered and no peer sends such a header, the program goes on, whatever the order in
which everything else happens.
-/

namespace BoostLearn.Soundness.CoroutineService

open CInt Memory Framing Framing.Format Replay Model Model.Json Model.CoroutineService
open Spec.HelloWorld Soundness.HelloWorld

variable {σ : Type} [DecidableEq σ] {json : JsonCpp} {service target : Service σ}

/-- Each frame with a callback can be answered, also on an empty queue, and the stream does not stop
at the length `-1`. -/
structure Digestible (json : JsonCpp) (stream : List UInt8) : Prop where
  answerable : ∀ frame ∈ (Spec.coroutineService.parse stream).frames,
    frame.1 = LogicSystem.msgHelloWorld → Answerable .coroutineService json frame.2 0
  bounded : ¬ StopsAtMinusOne stream

/-- What a peer sends leaves its stream digestible. -/
def Digests (json : JsonCpp) (service : Service σ) : Service.Action σ → Prop
  | .arrives uuid bytes => Digestible json (service.arrived uuid ++ bytes)
  | _ => True

/-- What holds of the service as long as it digests everything. -/
structure Endures (json : JsonCpp) (service : Service σ) : Prop where
  serves : Serves False json service
  digestible : ∀ uuid, Digestible json (service.arrived uuid)
  nothing : service.escaped = none

omit [DecidableEq σ] in
theorem digestible_nil (json : JsonCpp) : Digestible json [] := by
  refine ⟨?_, ?_⟩
  · rw [parse_nil]
    exact nofun
  · rintro ⟨idHigh, idLow, lenHigh, lenLow, rejected, -⟩
    rw [parse_nil] at rejected
    cases rejected

theorem endures_main : Endures json (.main : Service σ) :=
  ⟨serves_main, fun _ => digestible_nil json, rfl⟩

/-- Room for a node on an empty queue is room on every queue. -/
theorem fits_of_empty {length queued : ℕ} (fits : Fits .coroutineService 0 length) :
    Fits .coroutineService queued length :=
  Or.inr (fits.resolve_left (Nat.not_lt_zero _))

/-- What can be answered does not leave the callback. -/
theorem callBack_of_answerable {node : RecvNode ℤ} {frame : ℤ × List UInt8}
    (told : message node = .ok frame) (answerable : Answerable .coroutineService json frame.2 0)
    (queued : ℕ) : ∃ reply, callBack json node queued = .ok reply := by
  obtain ⟨members, object, number, text, fits⟩ := answerable
  obtain ⟨sent, returned⟩ := returns_iff_answerable.mpr
    ⟨members, object, number, text, (fits_of_empty fits : Fits .coroutineService queued _)⟩
  obtain ⟨reply, replied, pushed⟩ := ok_of_bind returned
  refine ⟨reply, ?_⟩
  rw [callBack, told, Except.mapError, bind_of_ok rfl]
  dsimp only
  rw [bind_of_ok replied, bind_of_ok pushed]
  rfl

section Session

variable {τ : Type} {started : Started τ} {consumed : List UInt8}

theorem Reached.stops (reached : Reached consumed started) {fault : Fault}
    (faulted : started.phase = .faulted fault) : StopsAtMinusOne consumed := by
  cases reached with
  | spawned phase _ _ _ => cases faulted.symm.trans phase
  | head phase _ _ _ => cases faulted.symm.trans phase
  | body phase _ _ _ _ _ _ _ _ => cases faulted.symm.trans phase
  | ended finished _ _ =>
    rcases finished with ⟨exit, returned⟩ | ⟨_, -, stops⟩
    · cases faulted.symm.trans returned
    · exact stops

theorem StopsAtMinusOne.append (stops : StopsAtMinusOne consumed) (more : List UInt8) :
    StopsAtMinusOne (consumed ++ more) := by
  obtain ⟨idHigh, idLow, lenHigh, lenLow, rejected, edge⟩ := stops
  exact ⟨idHigh, idLow, lenHigh, lenLow, (parse_append_rejected rejected more).2, edge⟩

end Session

/-- A posted node holds a frame of its peer. -/
theorem Serves.frame_of_posted (serves : Serves False json service) {uuid : σ} {started : Started Unit}
    (found : service.server.started uuid = some started) {node : RecvNode ℤ}
    (posted : node ∈ started.posted) :
    ∃ frame ∈ (Spec.coroutineService.parse (service.arrived uuid)).frames, message node = .ok frame := by
  obtain ⟨consumed, split, reached⟩ := serves.hears.sessions uuid started found
  obtain ⟨frames, posts, ahead⟩ := reached.posts
  have told : message node ∈ started.posted.map message := List.mem_map_of_mem posted
  rw [posts] at told
  obtain ⟨frame, member, same⟩ := List.mem_map.mp told
  rw [split]
  exact ⟨frame, (parse_frames_later consumed _).subset (ahead.subset member), same.symm⟩

theorem Endures.step {action : Service.Action σ} (endures : Endures json service)
    (digests : Digests json service action) (taken : service.step json action = some target) :
    Endures json target := by
  obtain ⟨serves, digestible, nothing⟩ := endures
  have next := serves.step False.elim taken
  obtain ⟨-, passes⟩ := passes_of_step taken
  refine ⟨next, fun uuid => ?_, ?_⟩
  · cases passes with
    | @arrives from_ bytes =>
      by_cases same : uuid = from_
      · subst same
        simp only [Function.update_self]
        exact digests
      · simp only [Function.update_of_ne same]
        exact digestible uuid
    | _ => exact digestible uuid
  · cases passes with
    | @handles _ uuid event started after clears unread handler free found takes applied =>
      have here : (handled service uuid started after clears unread).server.started uuid = some after := by
        simp only [handled, CServer.handle, Function.update_self]
      obtain ⟨consumed, split, reached⟩ := next.hears.sessions uuid after here
      cases phase : after.phase with
      | faulted fault =>
        refine absurd ?_ (digestible uuid).bounded
        have arrived : service.arrived uuid = consumed ++ unread uuid := split
        rw [arrived]
        exact (reached.stops phase).append _
      | _ =>
        rw [handled, phase]
        rfl
    | @escapes node logic started escaped serving moved found left =>
      have posted := serves.routes.nodes.callee_posted serving
      rw [posted_found found] at posted
      obtain ⟨frame, member, told⟩ := serves.frame_of_posted found posted
      have readable : LogicSystem.message .coroutineService node.recvNode = .ok frame := told
      obtain ⟨-, known, -⟩ := LogicSystem.serving_of_callee serving
      have same := (LogicSystem.message_id readable).trans known
      have answerable := (digestible node.session).answerable frame member same
      obtain ⟨reply, called⟩ :=
        callBack_of_answerable told answerable started.sending.sendQue.length
      cases left.symm.trans called
    | _ => exact nothing

/-- The program is not brought down by peers whose streams are digestible. -/
theorem endures_of_digestible (json : JsonCpp) (tape : List (Service.Action σ))
    (digests : Guarded (Service.step json) (Digests json) .main tape) :
    Always (Service.step json) (fun service => service.escaped = none) .main tape :=
  (always_of_guarded Endures.step endures_main digests).imp fun _ endures => endures.nothing

private theorem digestible_emptyObject : Digestible emptyObject [3, 233, 0, 2, 123, 125] := by
  have accept : Spec.coroutineService.verdict [3, 233, 0, 2] =
    .accept 1001 ([123, 125] : List UInt8).length := by decide +kernel
  have parsed : Spec.coroutineService.parse [3, 233, 0, 2, 123, 125] = ⟨[(1001, [123, 125])], none, []⟩ :=
    @parse_whole _ _ Spec.coroutineService [3, 233, 0, 2] _ _ rfl accept
  constructor
  · intro frame member _
    rw [parsed, List.mem_singleton] at member
    rw [member]
    exact ⟨[], rfl, trivial, trivial, Or.inr (by decide +kernel)⟩
  · rintro ⟨idHigh, idLow, lenHigh, lenLow, rejected, -⟩
    rw [parsed] at rejected
    cases rejected

theorem endures_oneExchange :
    Always (Service.step emptyObject) (fun service => service.escaped = none) .main oneExchange := by
  apply endures_of_digestible
  refine fun next taken => ⟨digestible_emptyObject, guarded_of_forall fun action later source => ?_⟩
  cases action with
  | arrives uuid bytes => simp at later
  | _ => trivial

end BoostLearn.Soundness.CoroutineService
