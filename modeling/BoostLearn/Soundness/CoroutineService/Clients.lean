import BoostLearn.Soundness.CoroutineService.Service

/-! # What the JSON clients print

A peer of CoroutineService that writes requests as JsonClient or JsonClient_forTest does is answered by frames
that both of them read, and the lines they print carry the id and the data of its requests, in their order.
-/

namespace BoostLearn.Soundness.CoroutineService

open CInt Memory Framing Framing.Format Replay Model Model.Wire Model.Json Model.CoroutineService
open Soundness.LogicSystem

variable {σ : Type} [DecidableEq σ]

/-- In every run in which no answer meets a full queue, every session satisfies its client. -/
theorem satisfies_of_roomy (json : JsonCpp) (tape : List (Service.Action σ))
    (roomy : Guarded (Service.step json) Roomy .main tape) :
    Always (Service.step json) (fun service => ∀ uuid started (client : JsonClient.Client) datas sent,
      service.server.started uuid = some started → (∀ data ∈ datas, Handles .coroutineService json data) →
      List.Forall₂ (fun data bytes => client.written (requestText json data) = .ok bytes) datas sent →
      service.arrived uuid = sent.flatten →
      Satisfies .coroutineService json datas started.sending.completed (Settled service uuid started)) .main tape := by
  have preserved {source target : Service σ} {action : Service.Action σ} (serves : Serves True json source)
      (roomy : Roomy source action) (taken : source.step json action = some target) :
      Serves True json target := serves.step (fun _ => roomy) taken
  refine (always_of_guarded preserved serves_main roomy).imp fun service serves => ?_
  intro uuid started client datas sent found handles wrote arrived
  obtain ⟨ordered, all⟩ := serves.repaysAll found
  rw [arrived] at ordered all
  exact satisfies_of_owed handles wrote ordered all

section Example

/-- A client sends its request and is sent the reply. -/
def letterExchange : List (Service.Action ℕ) :=
  [.arrives 7 ([3, 233, 0, 32] ++ styled (ascii "1001") [65]), .accept 7 true, .read 7 false, .read 7 false, .lock,
    .push, .notify, .unlock, .dealMsg, .dealMsg, .dealMsg, .dealMsg, .asyncWrite 7 0, .dealMsg,
    .handleWrite 7 0 true]

theorem satisfies_letter :
    ∃ service started, replay? (Service.step (letterJson .coroutineService)) .main letterExchange = some service ∧
      service.server.started 7 = some started ∧ started.sending.completed.length = 1 ∧
      Satisfies .coroutineService (letterJson .coroutineService) [[65]] started.sending.completed
        (Settled service 7 started) := by
  have roomy : Guarded (Service.step (letterJson .coroutineService)) Roomy .main letterExchange := by decide +kernel
  have one : ((replay? (Service.step (letterJson .coroutineService)) .main letterExchange).bind fun service =>
      (service.server.started 7).map fun started => (started.sending.completed.length, service.arrived 7)) =
      some (1, [3, 233, 0, 32] ++ styled (ascii "1001") [65]) := by decide +kernel
  obtain ⟨service, run, later⟩ := Option.bind_eq_some_iff.mp one
  obtain ⟨started, found, counted⟩ := Option.map_eq_some_iff.mp later
  rw [Prod.mk.injEq] at counted
  have handles := handles_letter .coroutineService
  refine ⟨service, started, run, found, counted.1, ?_⟩
  refine (satisfies_of_roomy _ letterExchange roomy).replay run 7 started .jsonClient [[65]]
    [[3, 233, 0, 32] ++ styled (ascii "1001") [65]] found ?_
    (.cons (JsonClient.Client.jsonClient.written_of_room handles.room) .nil) counted.2
  intro data member
  cases List.mem_singleton.mp member
  exact handles

end Example

end BoostLearn.Soundness.CoroutineService
