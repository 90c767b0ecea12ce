import BoostLearn.Core.Relay
import BoostLearn.Model.Coroutine.Echo

/-! # Coroutine sends every peer its own bytes back

Each connection is a relay of its own. While its coroutine runs, every byte that its peer has written is in
one of four places, in order; when the coroutine has ended, what comes back is still a front of what was
sent. A peer that does not read holds up its own coroutine only: when the thread has nothing left to do, all
the others have their bytes.
-/

namespace BoostLearn.Soundness.Coroutine

open Replay Model.Coroutine

/-- The bytes of a peer on their way round. -/
def bytes (connection : Connection) : Relay :=
  ⟨[], connection.toServer, connection.unsent, connection.toClient, connection.back⟩

structure Carries (connection : Connection) : Prop where
  front : connection.back ++ connection.toClient <+: connection.sent
  printed : connection.printed.flatten <+: connection.sent
  all : connection.running = true → (bytes connection).all = connection.sent
  read : connection.running = true → connection.printed.flatten ++ connection.toServer = connection.sent
  fits : connection.unsent.length ≤ maxLength

variable {capacity : ℕ} {connection changed : Connection} {event : Connection.Event} {program target : Program}
  {action : Program.Action}

theorem carries_spawned : Carries .spawned :=
  ⟨List.nil_prefix, List.nil_prefix, fun _ => rfl, fun _ => rfl, Nat.zero_le _⟩

theorem bytes_all (connection : Connection) :
    (bytes connection).all =
      connection.back ++ (connection.toClient ++ (connection.unsent ++ connection.toServer)) := by
  simp only [bytes, Relay.all, List.append_nil]

theorem Carries.apply (carries : Carries connection)
    (applied : connection.apply capacity event = some changed) : Carries changed := by
  cases event with
  | peerWrites more =>
    cases applied
    refine ⟨carries.front.trans (List.prefix_append _ _), carries.printed.trans (List.prefix_append _ _),
      fun running => ?_, fun running => ?_, carries.fits⟩
    · rw [bytes_all, ← carries.all running, bytes_all]
      simp only [List.append_assoc]
    · rw [← carries.read running, List.append_assoc]
  | peerReads count =>
    rw [Connection.apply] at applied
    split_ifs at applied with may
    cases applied
    have moved := @Relay.all_step maxLength capacity (bytes connection) _ (.get count) (if_pos ⟨rfl, may⟩)
    refine ⟨?_, carries.printed, fun running => moved.trans (carries.all running), carries.read, carries.fits⟩
    dsimp only
    rw [List.append_assoc, List.take_append_drop]
    exact carries.front
  | read count =>
    rw [Connection.apply] at applied
    split_ifs at applied with may
    cases applied
    obtain ⟨running, idle, positive, enough, fits⟩ := may
    have moved := @Relay.all_step maxLength capacity (bytes connection) _ (.take count)
      (if_pos ⟨idle, positive, enough, fits⟩)
    have printed : (connection.printed ++ [connection.toServer.take count]).flatten ++
        connection.toServer.drop count = connection.sent := by
      rw [List.flatten_append, List.flatten_singleton, List.append_assoc, List.take_append_drop,
        carries.read running]
    refine ⟨carries.front, ?_, fun running => moved.trans (carries.all running), fun _ => printed, ?_⟩
    · rw [← printed]
      exact List.prefix_append _ _
    · exact Nat.le_trans (List.length_take_le _ _) fits
  | wrote count =>
    rw [Connection.apply] at applied
    split_ifs at applied with may
    cases applied
    obtain ⟨running, positive, enough, room⟩ := may
    have moved := (@Relay.all_step maxLength capacity (bytes connection) _ (.give count)
      (if_pos ⟨positive, enough, room⟩)).trans (carries.all running)
    refine ⟨⟨_, (List.append_assoc ..).trans moved⟩, carries.printed, fun _ => moved, carries.read, ?_⟩
    rw [List.length_drop]
    exact Nat.le_trans (Nat.sub_le _ _) carries.fits
  | throws =>
    rw [Connection.apply] at applied
    split_ifs at applied
    cases applied
    exact ⟨carries.front, carries.printed, fun running => (by cases running),
      fun running => (by cases running), carries.fits⟩

/-- What is known of all connections at once. -/
def AllCarry (program : Program) : Prop := ∀ connection ∈ program.connections, Carries connection

theorem AllCarry.step (carry : AllCarry program) (taken : program.step capacity action = some target) :
    AllCarry target := by
  cases action with
  | accepted =>
    rw [Program.step] at taken
    split_ifs at taken
    cases taken
    intro connection member
    rcases List.mem_append.mp member with earlier | last
    · exact carry connection earlier
    · rw [List.mem_singleton.mp last]
      exact carries_spawned
  | acceptThrows =>
    rw [Program.step] at taken
    split_ifs at taken
    cases taken
    exact carry
  | signal =>
    rw [Program.step] at taken
    split_ifs at taken
    cases taken
    exact carry
  | happens index event =>
    rw [Program.step] at taken
    split_ifs at taken
    obtain ⟨connection, present, taken⟩ := Option.bind_eq_some_iff.mp taken
    obtain ⟨changed, applied, rfl⟩ := Option.map_eq_some_iff.mp taken
    intro other member
    rcases List.mem_or_eq_of_mem_set member with earlier | rfl
    · exact carry other earlier
    · exact (carry connection (List.mem_of_getElem? present)).apply applied

/-- In every run, over any number of connections, each peer gets its own bytes back and nothing else. -/
theorem echoes_always (capacity : ℕ) (tape : List Program.Action) :
    Always (Program.step capacity) AllCarry .main tape :=
  always_of_preserved AllCarry.step (fun _ member => by cases member) tape

/-- The steps of the thread that runs the coroutines, when nothing is thrown. -/
def Own (_ : Program) : Program.Action → Prop
  | .happens _ (.read _) | .happens _ (.wrote _) => True
  | _ => False

/-- A coroutine waits for its peer: all bytes have come back, or the peer has left no room for more. -/
def Waits (capacity : ℕ) (connection : Connection) : Prop :=
  connection.unsent = [] ∧ connection.toServer = [] ∧
      connection.back ++ connection.toClient = connection.sent ∨
    connection.unsent ≠ [] ∧ capacity ≤ connection.toClient.length

def AtRest (capacity : ℕ) (program : Program) : Prop :=
  program.stopped = true ∨
    ∀ connection ∈ program.connections, connection.running = true → Waits capacity connection

/-- How far the bytes of all peers have to go. -/
def work (program : Program) : ℕ := total (fun connection => (bytes connection).distance) program.connections

theorem work_step (own : Own program action) (taken : program.step capacity action = some target) :
    work target < work program := by
  cases action with
  | happens index event =>
    rw [Program.step] at taken
    split_ifs at taken
    obtain ⟨connection, present, taken⟩ := Option.bind_eq_some_iff.mp taken
    obtain ⟨changed, applied, rfl⟩ := Option.map_eq_some_iff.mp taken
    refine @total_set_lt _ (fun connection => (bytes connection).distance) _ _ _ _ present ?_
    cases event with
    | read count =>
      rw [Connection.apply] at applied
      split_ifs at applied with may
      cases applied
      exact @Relay.distance_step maxLength capacity (bytes connection) _ (.take count) (if_pos may.2)
    | wrote count =>
      rw [Connection.apply] at applied
      split_ifs at applied with may
      cases applied
      exact @Relay.distance_step maxLength capacity (bytes connection) _ (.give count) (if_pos may.2)
    | peerWrites | peerReads | throws => exact own.elim
  | accepted | acceptThrows | signal => exact own.elim

/-- A coroutine that does not wait for its peer can be resumed. -/
theorem Carries.resumes (carries : Carries connection) (running : connection.running = true)
    (busy : ¬ Waits capacity connection) :
    ∃ event changed, (event = .read 1 ∨ event = .wrote 1) ∧
      connection.apply capacity event = some changed := by
  by_cases idle : connection.unsent = []
  · have more : connection.toServer ≠ [] := by
      intro none
      have all := carries.all running
      rw [bytes_all, idle, none, List.append_nil, List.append_nil] at all
      exact busy (.inl ⟨idle, none, all⟩)
    have small : 1 ≤ maxLength := by decide
    exact ⟨.read 1, _, .inl rfl, if_pos ⟨running, idle, Nat.one_pos, List.length_pos_iff.mpr more, small⟩⟩
  · have room : connection.toClient.length < capacity := by
      apply Nat.not_le.mp
      intro full
      exact busy (.inr ⟨idle, full⟩)
    exact ⟨.wrote 1, _, .inr rfl, if_pos ⟨running, Nat.one_pos, List.length_pos_iff.mpr idle, room⟩⟩

theorem progress (carry : AllCarry program) (restless : ¬ AtRest capacity program) :
    ∃ action target, Own program action ∧ program.step capacity action = some target := by
  simp only [AtRest, not_or, not_forall] at restless
  obtain ⟨going, connection, member, running, busy⟩ := restless
  obtain ⟨index, present⟩ := List.getElem?_of_mem member
  obtain ⟨event, changed, kind, applied⟩ := (carry connection member).resumes running busy
  have taken : program.step capacity (.happens index event) =
      some { program with connections := program.connections.set index changed } := by
    rw [Program.step, if_neg fun stopped => going stopped.2, present, Option.bind_some, applied, Option.map_some]
  refine ⟨.happens index event, _, ?_, taken⟩
  obtain rfl | rfl := kind
  · trivial
  · trivial

/-- The steps that are left to a state, and where it is when there are none. -/
structure Settles (capacity : ℕ) (program : Program) : Prop where
  bounded : ∀ tape target, Guarded (Program.step capacity) Own program tape →
    replay? (Program.step capacity) program tape = some target → tape.length + work target ≤ work program
  rests : ∀ tape target, Guarded (Program.step capacity) Own program tape →
    replay? (Program.step capacity) program tape = some target →
      (∀ action next, Own target action → target.step capacity action ≠ some next) → AtRest capacity target

/-- From every state, the thread comes to rest without its peers, and leaves no peer out. -/
theorem rests_always (capacity : ℕ) (tape : List Program.Action) :
    Always (Program.step capacity) (Settles capacity) .main tape := by
  have owned {source target : Program} {action : Program.Action} (carry : AllCarry source)
      (_ : Own source action) (taken : source.step capacity action = some target) : AllCarry target :=
    carry.step taken
  refine (echoes_always capacity tape).imp fun program carry => ⟨?_, ?_⟩
  · intro later target own run
    exact length_le_measure owned (fun _ => work_step) carry own run
  · intro later target own run stuck
    exact rest_of_stuck owned progress carry own run stuck

end BoostLearn.Soundness.Coroutine
