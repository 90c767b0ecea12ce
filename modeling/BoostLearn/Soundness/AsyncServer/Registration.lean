import BoostLearn.Model.AsyncServer.Server

/-! # Which sessions stay registered

A session is in the map from the end of its accept to its removal, unless a handler removes it
before the accept inserts it: then it is in the map although it is given up.
-/

namespace BoostLearn.Soundness.AsyncServer

open Replay Model.AsyncServer Model.AsyncServer.Server

variable {σ τ : Type}

/-- A session that has been accepted is registered as long as no handler of it has removed it. -/
def Registers (server : Server σ τ) : Prop :=
  ∀ uuid ∈ server.accepted,
    (server.removed? uuid = some true → uuid ∉ server.sessions) ∧
      (server.removed? uuid = some false → uuid ∈ server.sessions)

/-- No handler of a session has removed it when it is inserted. -/
def Unremoved (server : Server σ τ) : Server.Action σ τ → Prop
  | .insert => ∀ uuid, server.accepting = some uuid → server.removed? uuid = some false
  | _ => True

/-- Exactly the sessions that have been accepted and not been removed are registered. -/
structure Keeps (server : Server σ τ) : Prop where
  registered : ∀ uuid, uuid ∈ server.sessions ↔
    uuid ∈ server.accepted ∧ server.removed? uuid = some false
  started : ∀ uuid, uuid ∈ server.accepted ∨ server.accepting = some uuid →
    server.removed? uuid ≠ none

variable {server target : Server σ τ}

theorem keeps_listening : Keeps (listening : Server σ τ) := by
  constructor
  · intro uuid
    exact ⟨nofun, fun held => absurd held.1 List.not_mem_nil⟩
  · rintro uuid (accepted | accepting)
    · exact absurd accepted List.not_mem_nil
    · contradiction

theorem Keeps.registers (keeps : Keeps server) : Registers server := by
  intro uuid accepted
  constructor
  · intro removed present
    have kept := ((keeps.registered uuid).mp present).2
    exact absurd (removed.symm.trans kept) nofun
  · intro kept
    exact (keeps.registered uuid).mpr ⟨accepted, kept⟩

section Steps

variable [DecidableEq σ]

/-- A session that is started is not registered yet. -/
theorem Keeps.start (keeps : Keeps server) {uuid : σ} (fresh : server.removed? uuid = none)
    {sendPending : Bool} {session : Started τ} (created : newStarted sendPending = some session) :
    Keeps (server.start uuid session) := by
  have different {other : σ} (accepted : other ∈ server.accepted) : other ≠ uuid := by
    intro same
    exact keeps.started other (Or.inl accepted) (same ▸ fresh)
  constructor
  · intro other
    rw [removed?_start server uuid other created]
    constructor
    · intro present
      obtain ⟨accepted, kept⟩ := (keeps.registered other).mp present
      rw [if_neg (different accepted)]
      exact ⟨accepted, kept⟩
    · rintro ⟨accepted, kept⟩
      rw [if_neg (different accepted)] at kept
      exact (keeps.registered other).mpr ⟨accepted, kept⟩
  · rintro other (accepted | accepting)
    · rw [removed?_start server uuid other created, if_neg (different accepted)]
      exact keeps.started other (Or.inl accepted)
    · cases accepting
      rw [removed?_start server uuid uuid created, if_pos rfl]
      exact Option.some_ne_none false

/-- An accept that ends before the session is removed registers it. -/
theorem Keeps.insert (keeps : Keeps server) {uuid : σ}
    (unremoved : server.removed? uuid = some false) : Keeps (server.insert uuid) := by
  constructor
  · intro other
    rw [Server.insert, mem_register, List.mem_cons, keeps.registered other]
    constructor
    · rintro (rfl | ⟨accepted, kept⟩)
      · exact ⟨Or.inl rfl, unremoved⟩
      · exact ⟨Or.inr accepted, kept⟩
    · rintro ⟨rfl | accepted, kept⟩
      · exact Or.inl rfl
      · exact Or.inr ⟨accepted, kept⟩
  · rintro other (accepted | accepting)
    · rcases List.mem_cons.mp accepted with rfl | accepted
      · exact fun unstarted => absurd (unremoved.symm.trans unstarted) nofun
      · exact keeps.started other (Or.inl accepted)
    · contradiction

/-- A handler takes its session out of the map when it removes it, and leaves the others alone. -/
theorem Keeps.handle (keeps : Keeps server) {uuid : σ} {session : Started τ} {clears : Bool}
    (held : server.removed? uuid = some session.cleared) :
    Keeps (server.handle uuid session clears) := by
  constructor
  · intro other
    have before := keeps.registered other
    rw [removed?_handle]
    by_cases same : other = uuid
    · subst same
      cases clears with
      | true => simp [Server.handle, mem_clearServer]
      | false => simp [Server.handle, before, held]
    · cases clears with
      | true => simp [Server.handle, mem_clearServer, same, before]
      | false => simp [Server.handle, same, before]
  · intro other started
    rw [removed?_handle]
    split_ifs
    · exact Option.some_ne_none _
    · exact keeps.started other started

variable [DecidableEq τ] {action : Server.Action σ τ}

/-- Every step but the insertion of a removed session keeps the map right. -/
theorem Keeps.step (keeps : Keeps server) (unremoved : Unremoved server action)
    (taken : Server.step server action = some target) : Keeps target := by
  cases action with
  | start uuid sendPending =>
    rw [Server.step] at taken
    split at taken
    · next idle fresh =>
      obtain ⟨session, created, rfl⟩ := Option.map_eq_some_iff.mp taken
      exact keeps.start (by rw [removed?, fresh]; rfl) created
    · contradiction
  | insert =>
    obtain ⟨uuid, accepting, rfl⟩ := Option.map_eq_some_iff.mp taken
    exact keeps.insert (unremoved uuid accepting)
  | acceptError =>
    rw [Server.step] at taken
    split at taken
    · cases taken
      exact keeps
    · contradiction
  | session uuid event =>
    obtain ⟨session, started, taken⟩ := Option.bind_eq_some_iff.mp taken
    obtain ⟨⟨next, clears⟩, applied, rfl⟩ := Option.map_eq_some_iff.mp taken
    exact keeps.handle (by rw [removed?, started, Event.apply_cleared applied]; rfl)

/-- The insertion of a removed session leaves it in the map. -/
theorem unremoved_of_registers (keeps : Keeps server)
    (taken : Server.step server action = some target) (registers : Registers target) :
    Unremoved server action := by
  cases action with
  | insert =>
    intro uuid accepting
    obtain ⟨other, same, rfl⟩ := Option.map_eq_some_iff.mp taken
    cases accepting.symm.trans same
    cases removed : server.removed? uuid with
    | none => exact absurd removed (keeps.started uuid (Or.inr accepting))
    | some flag =>
      cases flag with
      | false => rfl
      | true =>
        have present : uuid ∈ (server.insert uuid).sessions := mem_register.mpr (Or.inl rfl)
        exact absurd present ((registers uuid List.mem_cons_self).1 removed)
  | _ => trivial

/-- The map is right along a run exactly when no session is removed before it is inserted. -/
theorem registers_iff_unremoved (tape : List (Server.Action σ τ)) :
    Always Server.step Registers (listening : Server σ τ) tape ↔
      Guarded Server.step Unremoved listening tape := by
  apply always_iff_guarded _ Keeps.step unremoved_of_registers keeps_listening
  exact fun _ => Keeps.registers

end Steps

/-- The first read of a session fails while `handle_accept` is about to insert it. -/
def lateInsertion : List (Server.Action ℕ ℕ) := [.start 7 false, .session 7 (.handleRead none 0), .insert]

theorem not_registers : ¬ Always Server.step Registers (listening : Server ℕ ℕ) lateInsertion := by
  intro always
  have final : ((replay? Server.step listening lateInsertion).map fun server =>
    (server.accepted, server.sessions, server.removed? 7)) = some ([7], [7], some true) := by rfl
  obtain ⟨server, run, observed⟩ := Option.map_eq_some_iff.mp final
  injection observed with accepted observed
  injection observed with sessions removed
  have registers := always.replay run 7 (accepted ▸ List.mem_singleton_self 7)
  exact registers.1 removed (sessions ▸ List.mem_singleton_self 7)

end BoostLearn.Soundness.AsyncServer
