import BoostLearn.Core.Relay
import BoostLearn.Model.SyncServer.Exchange
import Mathlib.Data.List.TakeWhile
import Mathlib.Tactic.SplitIfs

/-! # What SyncServer prints and sends back

The array of a session is printed as a C string, so a session reads behind it as soon as one read has
filled it without a zero. A line of testClient is too short for this: the session prints all of it and
the client gets it back, whichever way the bytes are cut. When the buffers hold a line the two do not
get stuck.
-/

namespace BoostLearn.Soundness.SyncServer

open Memory Replay Model.SyncServer Model.TestClient

/-- The session has not left its array. -/
def Faultless (session : Session) : Prop := ∀ fault, session.ended ≠ some (.fault fault)

/-- A read that leaves room for a zero in the array, or brings one. -/
def Terminated (_ : Session) : Event → Prop
  | .received bytes connected => connected = true → bytes.length < maxLength ∨ 0 ∈ bytes
  | _ => True

section Session

variable {session target : Session} {event : Event}

theorem Session.live (taken : session.step event = some target) : session.ended = none := by
  by_contra ended
  rw [Session.step.eq_def, if_pos ended] at taken
  cases taken

/-- Everything that a session can do. -/
theorem session_cases (taken : session.step event = some target) :
    (∃ bytes, event = .received bytes true ∧ session.unsent = [] ∧ 0 < bytes.length ∧
      bytes.length ≤ maxLength ∧ (bytes.length < maxLength ∨ 0 ∈ bytes) ∧
      target = { session with unsent := bytes, printed := session.printed ++ [bytes.takeWhile (· ≠ 0)] }) ∨
    (∃ bytes, event = .received bytes true ∧ ¬ (bytes.length < maxLength ∨ 0 ∈ bytes) ∧
      target = { session with ended := some (.fault .outOfBounds) }) ∨
    (∃ count, event = .wrote count ∧ 0 < count ∧ count ≤ session.unsent.length ∧
      target = { session with unsent := session.unsent.drop count }) ∨
    (event = .eof ∧ target = { session with ended := some .byPeer }) ∨
    ((event = .failed ∨ ∃ bytes, event = .received bytes false) ∧
      target = { session with ended := some .caught }) := by
  rw [Session.step.eq_def, if_neg (not_not.mpr (Session.live taken))] at taken
  cases event with
  | received bytes connected =>
    dsimp only at taken
    split_ifs at taken with may connected
    · obtain ⟨idle, some_, fits⟩ := may
      cases connected
      by_cases stops : bytes.length < maxLength ∨ 0 ∈ bytes
      · rw [round_terminated fits stops] at taken
        cases taken
        exact .inl ⟨bytes, rfl, idle, some_, fits, stops, rfl⟩
      · obtain ⟨full, whole⟩ := not_or.mp stops
        rw [round_overrun (Nat.le_antisymm fits (Nat.not_lt.mp full)) whole] at taken
        cases taken
        exact .inr (.inl ⟨bytes, rfl, stops, rfl⟩)
    · cases taken
      cases eq_false_of_ne_true connected
      exact .inr (.inr (.inr (.inr ⟨.inr ⟨bytes, rfl⟩, rfl⟩)))
  | eof =>
    dsimp only at taken
    split_ifs at taken
    cases taken
    exact .inr (.inr (.inr (.inl ⟨rfl, rfl⟩)))
  | failed =>
    cases taken
    exact .inr (.inr (.inr (.inr ⟨.inl rfl, rfl⟩)))
  | wrote count =>
    dsimp only at taken
    split_ifs at taken with may
    cases taken
    exact .inr (.inr (.inl ⟨count, rfl, may.1, may.2, rfl⟩))

theorem faultless_of_terminated (faultless : Faultless session) (terminated : Terminated session event)
    (taken : session.step event = some target) : Faultless target := by
  intro fault
  obtain ⟨bytes, rfl, -, -, -, -, rfl⟩ | ⟨bytes, rfl, stops, -⟩ | ⟨count, rfl, -, -, rfl⟩ | ⟨rfl, rfl⟩ |
    ⟨-, rfl⟩ := session_cases taken
  · exact faultless fault
  · exact absurd (terminated rfl) stops
  · exact faultless fault
  · exact fun same => by cases same
  · exact fun same => by cases same

theorem terminated_of_faultless (taken : session.step event = some target) (faultless : Faultless target) :
    Terminated session event := by
  obtain ⟨bytes, rfl, -, -, -, stops, -⟩ | ⟨bytes, rfl, -, rfl⟩ | ⟨count, rfl, -⟩ | ⟨rfl, -⟩ |
    ⟨rfl | ⟨bytes, rfl⟩, -⟩ := session_cases taken
  · exact fun _ => stops
  · exact absurd rfl (faultless .outOfBounds)
  · trivial
  · trivial
  · trivial
  · exact fun connected => nomatch connected

/-- In every run, the session stays in its array exactly when no read fills it without a zero. -/
theorem faultless_iff_terminated (tape : List Event) :
    Always Session.step Faultless .start tape ↔ Guarded Session.step Terminated .start tape :=
  @always_iff_guarded _ _ _ _ _ Faultless (fun _ faultless => faultless) faultless_of_terminated
    (fun _ => terminated_of_faultless) .start (fun _ => nofun) tape

end Session

section Exchange

variable {line : Line} {capacity : ℕ} {exchange target : Exchange} {action : Action}

/-- The bytes on their way round. -/
def bytes (exchange : Exchange) : Relay :=
  ⟨exchange.client.unsent, exchange.toServer, exchange.session.unsent, exchange.toClient, exchange.client.reply⟩

/-- What is known of a line and its bytes: while the session lives they are all on their way, and what
has gone round comes back in front. -/
structure Carries (line : Line) (exchange : Exchange) : Prop where
  faultless : Faultless exchange.session
  front : exchange.client.reply ++ exchange.toClient <+: line.letters
  all : exchange.session.ended = none → (bytes exchange).all = line.letters
  printed : exchange.session.printed.flatten <+: line.letters
  read : exchange.session.ended = none →
    exchange.session.printed.flatten ++ (exchange.toServer ++ exchange.client.unsent) = line.letters
  whole : exchange.client.stage = .printed → exchange.client.reply = line.letters

theorem carries_start (line : Line) : Carries line (.start line) where
  faultless := fun _ => nofun
  front := List.nil_prefix
  all _ := rfl
  printed := List.nil_prefix
  read _ := rfl
  whole := nofun

/-- A line is too short, and has no zero in it. -/
theorem short_of_carries (carries : Carries line exchange) (live : exchange.session.ended = none) :
    exchange.toServer.length < maxLength ∧ 0 ∉ exchange.toServer := by
  have read := carries.read live
  have short := line.short
  have plain := line.plain
  rw [← read] at short plain
  simp only [List.length_append, List.mem_append, not_or] at short plain
  exact ⟨by omega, plain.2.1⟩

theorem takeWhile_of_plain {text : List UInt8} (plain : 0 ∉ text) : text.takeWhile (· ≠ 0) = text := by
  apply List.takeWhile_eq_self_iff.mpr
  intro letter member
  rw [decide_eq_true_eq]
  rintro rfl
  exact plain member

/-- A session that ends leaves the client with what it has. -/
theorem Carries.ends (carries : Carries line exchange) (toServer : List UInt8) {ending : Ending}
    (sane : ∀ fault, ending ≠ .fault fault) :
    Carries line { exchange with
      toServer
      session := { exchange.session with ended := some ending } } where
  faultless fault same := sane fault (Option.some.inj same)
  front := carries.front
  all live := by cases live
  printed := carries.printed
  read live := by cases live
  whole := carries.whole

theorem Carries.step (carries : Carries line exchange)
    (taken : exchange.step line capacity action = some target) : Carries line target := by
  cases action with
  | clientWrites count =>
    rw [Exchange.step] at taken
    split_ifs at taken with may
    cases taken
    have moved := @Relay.all_step maxLength capacity (bytes exchange) _ (.send count) (if_pos may.2)
    refine ⟨carries.faultless, carries.front, fun live => moved.trans (carries.all live), carries.printed,
      fun live => ?_, carries.whole⟩
    · rw [← carries.read live]
      simp only [List.append_assoc, List.take_append_drop]
  | clientReads count =>
    rw [Exchange.step] at taken
    split_ifs at taken with may
    cases taken
    have moved := @Relay.all_step maxLength capacity (bytes exchange) _ (.get count)
      (if_pos ⟨may.2.1, may.2.2.2.1, may.2.2.2.2.1⟩)
    refine ⟨carries.faultless, ?_, fun live => moved.trans (carries.all live), carries.printed, carries.read,
      fun stage => ?_⟩
    · dsimp only
      rw [List.append_assoc, List.take_append_drop]
      exact carries.front
    · cases may.1.symm.trans stage
  | clientPrints =>
    rw [Exchange.step] at taken
    split_ifs at taken with may
    cases taken
    refine ⟨carries.faultless, carries.front, carries.all, carries.printed, carries.read, fun _ => ?_⟩
    have enough : line.letters.length ≤ exchange.client.reply.length := Nat.not_lt.mp may.2.2
    exact ((List.prefix_append _ _).trans carries.front).eq_of_length_le enough
  | clientCloses =>
    rw [Exchange.step] at taken
    split_ifs at taken
    cases taken
    exact ⟨carries.faultless, carries.front, carries.all, carries.printed, carries.read, fun stage => by cases stage⟩
  | sessionReads count connected =>
    rw [Exchange.step] at taken
    split_ifs at taken with enough
    obtain ⟨session, stepped, rfl⟩ := Option.map_eq_some_iff.mp taken
    have live := Session.live stepped
    obtain ⟨short, plain⟩ := short_of_carries carries live
    have plainFront : 0 ∉ exchange.toServer.take count := fun member => plain (List.mem_of_mem_take member)
    obtain ⟨read, same, idle, positive, fits, -, rfl⟩ | ⟨read, same, stops, -⟩ | ⟨_, same, -⟩ | ⟨same, -⟩ |
      ⟨-, rfl⟩ := session_cases stepped
    · cases same
      rw [List.length_take_of_le enough] at positive fits
      have moved := @Relay.all_step maxLength capacity (bytes exchange) _ (.take count)
        (if_pos ⟨idle, positive, enough, fits⟩)
      rw [takeWhile_of_plain plainFront]
      have printed : (exchange.session.printed ++ [exchange.toServer.take count]).flatten ++
          (exchange.toServer.drop count ++ exchange.client.unsent) = line.letters := by
        rw [← carries.read live, List.flatten_append, List.flatten_singleton, List.append_assoc,
          ← List.append_assoc (exchange.toServer.take count), List.take_append_drop]
      refine ⟨carries.faultless, carries.front, fun _ => moved.trans (carries.all live), ?_, fun _ => printed,
        carries.whole⟩
      rw [← printed]
      exact List.prefix_append _ _
    · cases same
      exact absurd (.inl (Nat.lt_of_le_of_lt (List.length_take_le' _ _) short)) stops
    · cases same
    · cases same
    · exact carries.ends _ fun _ same => by cases same
  | sessionWrites count =>
    rw [Exchange.step] at taken
    split_ifs at taken with room
    obtain ⟨session, stepped, rfl⟩ := Option.map_eq_some_iff.mp taken
    have live := Session.live stepped
    obtain ⟨_, same, -⟩ | ⟨_, same, -⟩ | ⟨_, same, positive, fits, rfl⟩ | ⟨same, -⟩ | ⟨same | ⟨_, same⟩, -⟩ :=
      session_cases stepped
    · cases same
    · cases same
    · cases same
      have all := (@Relay.all_step maxLength capacity (bytes exchange) _ (.give count)
        (if_pos ⟨positive, fits, room⟩)).trans (carries.all live)
      exact ⟨carries.faultless, ⟨_, (List.append_assoc ..).trans all⟩, fun _ => all, carries.printed,
        carries.read, carries.whole⟩
    · cases same
    · cases same
    · cases same
  | sessionSeesEof =>
    rw [Exchange.step] at taken
    split_ifs at taken
    obtain ⟨session, stepped, rfl⟩ := Option.map_eq_some_iff.mp taken
    obtain ⟨_, same, -⟩ | ⟨_, same, -⟩ | ⟨_, same, -⟩ | ⟨-, rfl⟩ | ⟨same | ⟨_, same⟩, -⟩ := session_cases stepped
    · cases same
    · cases same
    · cases same
    · exact carries.ends _ fun _ same => by cases same
    · cases same
    · cases same
  | sessionFails =>
    rw [Exchange.step] at taken
    obtain ⟨session, stepped, rfl⟩ := Option.map_eq_some_iff.mp taken
    obtain ⟨_, same, -⟩ | ⟨_, same, -⟩ | ⟨_, same, -⟩ | ⟨same, -⟩ | ⟨-, rfl⟩ := session_cases stepped
    · cases same
    · cases same
    · cases same
    · cases same
    · exact carries.ends _ fun _ same => by cases same

/-- Whatever either side does and however the line is cut, the session stays in its array, prints the
line from its front, and a client that prints a reply prints its line. -/
theorem carries_always (line : Line) (capacity : ℕ) (tape : List Action) :
    Always (Exchange.step line capacity) (Carries line) (.start line) tape :=
  always_of_preserved Carries.step (carries_start line) tape

/-- The steps in which nothing fails and nobody presses a key. -/
def Own (_ : Exchange) : Action → Prop
  | .clientWrites _ | .clientReads _ | .clientPrints | .sessionReads _ true | .sessionWrites _ => True
  | _ => False

/-- Neither side has ended. -/
structure Lives (line : Line) (exchange : Exchange) : Prop where
  carries : Carries line exchange
  session : exchange.session.ended = none
  client : exchange.client.stage ≠ .closed

/-- The client has printed its line, and the session waits for more. -/
structure Over (line : Line) (exchange : Exchange) : Prop where
  client : exchange.client = ⟨[], line.letters, .printed⟩
  session : exchange.session.unsent = [] ∧ exchange.session.ended = none
  printed : exchange.session.printed.flatten = line.letters
  buffers : exchange.toServer = [] ∧ exchange.toClient = []

/-- How far the bytes have to go, and the line that the client prints. -/
def left (exchange : Exchange) : ℕ :=
  (bytes exchange).distance + if exchange.client.stage = .exchanging then 1 else 0

/-- An own step moves bytes, or prints. -/
theorem own_cases (own : Own exchange action) (taken : exchange.step line capacity action = some target)
    (lives : Lives line exchange) :
    Lives line target ∧
      ((∃ move, (bytes exchange).step maxLength capacity move = some (bytes target)) ∧
          target.client.stage = exchange.client.stage ∨
        bytes target = bytes exchange ∧ exchange.client.stage = .exchanging ∧ target.client.stage = .printed) := by
  have carries := lives.carries.step taken
  cases action with
  | clientWrites count =>
    rw [Exchange.step] at taken
    split_ifs at taken with may
    cases taken
    exact ⟨⟨carries, lives.session, lives.client⟩,
      .inl ⟨⟨.send count, if_pos ⟨may.2.1, may.2.2.1, may.2.2.2⟩⟩, rfl⟩⟩
  | clientReads count =>
    rw [Exchange.step] at taken
    split_ifs at taken with may
    cases taken
    exact ⟨⟨carries, lives.session, lives.client⟩,
      .inl ⟨⟨.get count, if_pos ⟨may.2.1, may.2.2.2.1, may.2.2.2.2.1⟩⟩, rfl⟩⟩
  | clientPrints =>
    rw [Exchange.step] at taken
    split_ifs at taken with may
    cases taken
    exact ⟨⟨carries, lives.session, fun stage => by cases stage⟩, .inr ⟨rfl, may.1, rfl⟩⟩
  | sessionReads count connected =>
    cases connected with
    | false => exact own.elim
    | true =>
      rw [Exchange.step] at taken
      split_ifs at taken with enough
      obtain ⟨session, stepped, rfl⟩ := Option.map_eq_some_iff.mp taken
      obtain ⟨short, -⟩ := short_of_carries lives.carries lives.session
      have size : (exchange.toServer.take count).length = count := List.length_take_of_le enough
      obtain ⟨read, same, idle, positive, fits, -, rfl⟩ | ⟨read, same, stops, -⟩ | ⟨_, same, -⟩ | ⟨same, -⟩ |
        ⟨same | ⟨_, same⟩, -⟩ := session_cases stepped
      · cases same
        rw [size] at positive fits
        exact ⟨⟨carries, lives.session, lives.client⟩,
          .inl ⟨⟨.take count, if_pos ⟨idle, positive, enough, fits⟩⟩, rfl⟩⟩
      · cases same
        rw [size] at stops
        exact absurd (.inl (Nat.lt_of_le_of_lt enough short)) stops
      all_goals cases same
  | sessionWrites count =>
    rw [Exchange.step] at taken
    split_ifs at taken with room
    obtain ⟨session, stepped, rfl⟩ := Option.map_eq_some_iff.mp taken
    obtain ⟨_, same, -⟩ | ⟨_, same, -⟩ | ⟨_, same, positive, fits, rfl⟩ | ⟨same, -⟩ | ⟨same | ⟨_, same⟩, -⟩ :=
      session_cases stepped
    · cases same
    · cases same
    · cases same
      exact ⟨⟨carries, lives.session, lives.client⟩,
        .inl ⟨⟨.give count, if_pos ⟨positive, fits, room⟩⟩, rfl⟩⟩
    all_goals cases same
  | clientCloses | sessionSeesEof | sessionFails => exact own.elim

/-- Every move of the bytes is a step of one side. -/
theorem own_of_move {move : Relay.Move} {moved : Relay} (lives : Lives line exchange)
    (exchanging : exchange.client.stage = .exchanging)
    (taken : (bytes exchange).step maxLength capacity move = some moved) :
    ∃ action target, Own exchange action ∧ exchange.step line capacity action = some target := by
  have all := congrArg List.length (lives.carries.all lives.session)
  simp only [bytes, Relay.all, List.length_append] at all
  cases move with
  | send count =>
    rw [Relay.step] at taken
    split_ifs at taken with may
    exact ⟨.clientWrites count, _, trivial, if_pos ⟨exchanging, may⟩⟩
  | get count =>
    rw [Relay.step] at taken
    split_ifs at taken with may
    obtain ⟨unsent, positive, enough⟩ := may
    have lacks : Exchange.Lacks line exchange.client := by
      simp only [bytes] at enough
      rw [Exchange.Lacks]
      omega
    refine ⟨.clientReads count, _, trivial, if_pos ⟨exchanging, unsent, lacks, positive, enough, ?_⟩⟩
    simp only [bytes] at enough
    omega
  | take count =>
    rw [Relay.step] at taken
    split_ifs at taken with may
    obtain ⟨idle, positive, enough, fits⟩ := may
    have size : (exchange.toServer.take count).length = count := List.length_take_of_le enough
    obtain ⟨short, -⟩ := short_of_carries lives.carries lives.session
    have round := @round_terminated (exchange.toServer.take count) (by rw [size]; exact fits)
      (.inl (by rw [size]; exact Nat.lt_of_le_of_lt enough short))
    obtain ⟨session, stepped⟩ : ∃ session,
        exchange.session.step (.received (exchange.toServer.take count) true) = some session := by
      rw [Session.step.eq_def, if_neg (not_not.mpr lives.session)]
      dsimp only
      rw [if_pos ⟨idle, by rw [size]; exact positive, by rw [size]; exact fits⟩, if_pos rfl, round]
      exact ⟨_, rfl⟩
    exact ⟨.sessionReads count true, _, trivial, (if_pos enough).trans (congrArg _ stepped)⟩
  | give count =>
    rw [Relay.step] at taken
    split_ifs at taken with may
    obtain ⟨positive, enough, room⟩ := may
    have stepped : exchange.session.step (.wrote count) =
        some { exchange.session with unsent := exchange.session.unsent.drop count } := by
      rw [Session.step.eq_def, if_neg (not_not.mpr lives.session)]
      exact if_pos ⟨positive, enough⟩
    exact ⟨.sessionWrites count, _, trivial, (if_pos room).trans (congrArg _ stepped)⟩

theorem left_step (lives : Lives line exchange) (own : Own exchange action)
    (taken : exchange.step line capacity action = some target) : left target < left exchange := by
  obtain ⟨-, ⟨⟨move, moved⟩, stage⟩ | ⟨same, exchanging, printed⟩⟩ := own_cases own taken lives
  · have less := Relay.distance_step moved
    rw [left, left, stage]
    omega
  · rw [left, left, same, exchanging, printed]
    exact Nat.lt_succ_self _

theorem progress (room : line.letters.length ≤ capacity) (lives : Lives line exchange)
    (restless : ¬ Over line exchange) :
    ∃ action target, Own exchange action ∧ exchange.step line capacity action = some target := by
  have all := lives.carries.all lives.session
  by_cases missing : (bytes exchange).back = (bytes exchange).all
  · have back : exchange.client.reply = line.letters := missing.trans all
    have nothing : (bytes exchange).inbound ++ ((bytes exchange).held ++
        ((bytes exchange).outbound ++ (bytes exchange).unsent)) = [] := by
      rw [Relay.all] at missing
      exact List.self_eq_append_right.mp missing
    simp only [List.append_eq_nil_iff] at nothing
    obtain ⟨inbound, held, outbound, unsent⟩ := nothing
    cases stage : exchange.client.stage with
    | exchanging =>
      refine ⟨.clientPrints, _, trivial, if_pos ⟨stage, unsent, ?_⟩⟩
      rw [Exchange.Lacks, back]
      exact Nat.lt_irrefl _
    | printed =>
      refine absurd ⟨?_, ⟨held, lives.session⟩, ?_, ⟨outbound, inbound⟩⟩ restless
      · rw [← back, ← stage, ← show exchange.client.unsent = [] from unsent]
      · have read := lives.carries.read lives.session
        rwa [show exchange.toServer = [] from outbound, show exchange.client.unsent = [] from unsent,
          List.append_nil, List.append_nil] at read
    | closed => exact absurd stage lives.client
  · have exchanging : exchange.client.stage = .exchanging := by
      cases stage : exchange.client.stage with
      | exchanging => rfl
      | printed => exact absurd ((lives.carries.whole stage).trans all.symm) missing
      | closed => exact absurd stage lives.client
    have spacious : 0 < maxLength := by decide
    have whole : (bytes exchange).all.length ≤ capacity := by rwa [all]
    obtain ⟨move, moved, taken⟩ := Relay.progress spacious whole missing
    exact own_of_move lives exchanging taken

/-- When a buffer has room for the line, the client gets to print it: no run of the two is longer than
four steps for each byte and one more, and none stops before. -/
theorem settles_of_room {line : Line} {capacity : ℕ} (room : line.letters.length ≤ capacity)
    {tape : List Action} (own : Guarded (Exchange.step line capacity) Own (.start line) tape)
    {final : Exchange} (run : replay? (Exchange.step line capacity) (.start line) tape = some final) :
    tape.length ≤ 4 * line.letters.length + 1 ∧
      ((∀ action next, Own final action → final.step line capacity action ≠ some next) → Over line final) := by
  have lives : Lives line (.start line) := ⟨carries_start line, rfl, nofun⟩
  have preserved {source target : Exchange} {action : Action} (lives : Lives line source)
      (own : Own source action) (taken : source.step line capacity action = some target) : Lives line target :=
    (own_cases own taken lives).1
  refine ⟨?_, fun stuck => rest_of_stuck preserved (progress room) lives own run stuck⟩
  have bound := length_le_measure preserved left_step lives own run
  have start : left (.start line) = 4 * line.letters.length + 1 := rfl
  omega

section Example

theorem short_letter : ([65] : List UInt8).length < maxLength := by decide

theorem plain_letter : (0 : UInt8) ∉ ([65] : List UInt8) := by decide

def letter : Line := ⟨[65], short_letter, plain_letter⟩

/-- There and back. -/
def roundTrip : List Action :=
  [.clientWrites 1, .sessionReads 1 true, .sessionWrites 1, .clientReads 1, .clientPrints]

def returned : Exchange := ⟨⟨[], [65], .printed⟩, [], ⟨[], [[65]], none⟩, []⟩

theorem settles_letter : Over letter returned := by
  have own : Guarded (Exchange.step letter 1) Own (.start letter) roundTrip := by
    apply guarded_of_forall
    intro action member source
    simp only [roundTrip, List.mem_cons, List.not_mem_nil, or_false] at member
    rcases member with rfl | rfl | rfl | rfl | rfl <;> trivial
  have run : replay? (Exchange.step letter 1) (.start letter) roundTrip = some returned := by
    decide +kernel
  refine (settles_of_room (by decide) own run).2 fun action next own => ?_
  cases action with
  | clientWrites | clientReads | clientPrints => simp [Exchange.step, returned]
  | sessionReads count connected =>
    cases count <;> simp [Exchange.step, returned, Session.step]
  | sessionWrites count =>
    cases count <;> simp [Exchange.step, returned, Session.step]
  | clientCloses | sessionSeesEof | sessionFails => exact own.elim

end Example

end Exchange

end BoostLearn.Soundness.SyncServer
