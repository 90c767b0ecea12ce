import BoostLearn.Model.AsyncServer.Hearing
import BoostLearn.Soundness.AsyncServer.Removal
import BoostLearn.Soundness.Calls
import BoostLearn.Soundness.Termination

/-! # A session of AsyncServer does not go deaf

Every iteration of the receive loop goes on where the copies of the one before it have ended, and
the last one leaves the handler: it has copied what was left and arms a read, or removes the
session. The loop is never left by its condition, as a frame that uses up the bytes arms a read
itself. So between two handlers one read is outstanding, unless the session has been removed. The
counts behind this are those of a session that also sends, as long as its handlers return.
-/

namespace BoostLearn.Soundness.AsyncServer

open CInt Memory Replay Model Model.HandleRead Model.AsyncServer
open Soundness.HandleRead

/-- Copies that follow one another from one position to another. -/
def Covers : ℤ → ℤ → List (ℤ × ℤ) → Prop
  | start, stop, [] => start = stop
  | start, stop, (source, size) :: rest => source = start ∧ 0 ≤ size ∧ Covers (start + size) stop rest

/-- One read is armed, behind copies of all the bytes, and the session is not removed; or it is
removed once and no read is armed. -/
def Goes (start stop : ℤ) (copied : List (ℤ × ℤ)) (calls : List (Effect (ℤ × List UInt8))) : Prop :=
  (calls.countP Effect.isRead = 1 ∧ calls.getLast? = some .asyncReadSome ∧
    calls.countP Effect.isClear = 0 ∧ Covers start stop copied) ∨
  (calls.countP Effect.isClear = 1 ∧ calls.countP Effect.isRead = 0)

/-- Between two handlers a read is outstanding unless the session has been removed, and no handler
that comes next will change that. -/
structure Hears (hearing : Hearing) : Prop where
  single : hearing.outstanding ≤ 1
  deaf : hearing.outstanding = 0 → 0 < hearing.clears
  next : ∀ (completion : Option Completion) fuel done,
    codec.handleRead fuel hearing.session (completion.map (·.bytes)) = some (.ok done) →
      Goes 0 ((completion.map (·.bytes.length)).getD 0 : ℕ)
        (handlerCopies fuel hearing.session (completion.map (·.bytes))) done.effects

theorem covers_append {start middle stop : ℤ} {first second : List (ℤ × ℤ)}
    (one : Covers start middle first) (other : Covers middle stop second) :
    Covers start stop (first ++ second) := by
  induction first generalizing start with
  | nil =>
    obtain rfl : start = middle := one
    exact other
  | cons copy rest ih =>
    obtain ⟨source, size⟩ := copy
    obtain ⟨same, nonneg, later⟩ := one
    exact ⟨same, nonneg, ih later⟩

theorem covers_single {start size : ℤ} (nonneg : 0 ≤ size) :
    Covers start (start + size) [(start, size)] := ⟨rfl, nonneg, rfl⟩

/-- Outside of a body the head cursor is inside the header, and inside of one the two ends of the
body node are numbers of its type. -/
inductive Sane (session : Session ℤ) : Prop
  | head (flag : session.bHeadParse = false) (nonneg : 0 ≤ session.recvHeadNode.curLen)
    (inside : session.recvHeadNode.curLen < 4)
  | body (flag : session.bHeadParse = true)
    (maxLen : ∀ node, session.recvMsgNode = some node → -32768 ≤ node.maxLen ∧ node.maxLen < 32768)
    (curLen : ∀ node, session.recvMsgNode = some node → -32768 ≤ node.curLen ∧ node.curLen < 32768)

theorem sane_of_node {session : Session ℤ} {node : RecvNode ℤ} (flag : session.bHeadParse = true)
    (present : session.recvMsgNode = some node) (maxLen : -32768 ≤ node.maxLen ∧ node.maxLen < 32768)
    (curLen : -32768 ≤ node.curLen ∧ node.curLen < 32768) : Sane session := by
  apply Sane.body flag
  · intro other same
    cases present.symm.trans same
    exact maxLen
  · intro other same
    cases present.symm.trans same
    exact curLen

variable {data : Cells} {loop : ReceiveLoop} {result : Next ℤ (ℤ × List UInt8)} {msgLen : ℤ}

/-- Where an iteration leaves off with these copies. -/
def Leaves (loop : ReceiveLoop) (copied : List (ℤ × ℤ)) : Next ℤ (ℤ × List UInt8) → Prop
  | .again next => Sane next.session ∧ 0 < next.byteTransfered ∧
      next.byteTransfered ≤ loop.byteTransfered ∧
      next.copyLen + next.byteTransfered = loop.copyLen + loop.byteTransfered ∧
      Covers loop.copyLen next.copyLen copied
  | .returned done => Sane done.session ∧ (done.effects.getLast? = some .asyncReadSome →
      Covers loop.copyLen (loop.copyLen + loop.byteTransfered) copied)

/-- A frame that is done leaves behind what it has not used. -/
theorem leaves_frameDone {done : ReceiveLoop} {copied : List (ℤ × ℤ)} (sane : Sane done.session)
    (less : done.byteTransfered ≤ loop.byteTransfered)
    (total : done.copyLen + done.byteTransfered = loop.copyLen + loop.byteTransfered)
    (covers : Covers loop.copyLen done.copyLen copied) : Leaves loop copied done.frameDone := by
  rw [Loop.frameDone]
  split_ifs with used
  · have stop : done.copyLen = loop.copyLen + loop.byteTransfered := by omega
    exact ⟨sane, fun _ => stop ▸ covers⟩
  · exact ⟨sane, Nat.not_le.mp used, less, total, covers⟩

theorem copies_newNodeAccesses (msgLen : ℤ) : copies (newNodeAccesses msgLen) = [] := by
  rw [newNodeAccesses]
  split_ifs
  · rfl
  · rfl

theorem new_eq {node : MsgNode} (built : MsgNode.new msgLen = .ok node) :
    node.curLen = 0 ∧ node.maxLen = msgLen := by
  obtain ⟨cells, -, built⟩ := ok_of_bind built
  obtain ⟨terminated, -, built⟩ := ok_of_bind built
  cases built
  exact ⟨rfl, rfl⟩

theorem startBody_leaves {tag : ℤ} (small : loop.byteTransfered ≤ maxLength)
    (low : -32768 ≤ msgLen) (high : msgLen ≤ maxLength)
    (started : codec.startBody data loop tag msgLen = .ok result) :
    Leaves loop (copies (startBodyAccesses loop msgLen)) result := by
  have bound : loop.byteTransfered ≤ 2048 := small
  have limit : msgLen ≤ 2048 := high
  rw [Codec.startBody] at started
  obtain ⟨node, built, started⟩ := ok_of_bind started
  have new : MsgNode.new msgLen = .ok node := built
  obtain ⟨curLen, maxLen⟩ := new_eq new
  rw [startBodyAccesses, copies, List.filterMap_append, ← copies, copies_newNodeAccesses,
    List.nil_append, new, fillAccesses]
  split_ifs at started with unfinished
  · obtain ⟨filled, -, started⟩ := ok_of_bind started
    cases started
    dsimp only
    rw [if_pos unfinished]
    refine ⟨sane_of_node rfl rfl ?_ (toShort_range _), fun _ => covers_single (Int.natCast_nonneg _)⟩
    dsimp only
    omega
  · obtain ⟨filled, -, started⟩ := ok_of_bind started
    obtain ⟨terminated, -, started⟩ := ok_of_bind started
    obtain ⟨out, -, started⟩ := ok_of_bind started
    obtain ⟨head, cleared, started⟩ := ok_of_bind started
    obtain ⟨zeroed, -, cleared⟩ := ok_of_bind cleared
    cases cleared
    cases started
    have nonneg : 0 ≤ msgLen := nonneg_of_toSizeT (by omega) (by omega)
    rw [toSizeT_of_range nonneg (by omega)] at unfinished
    dsimp only
    rw [toSizeT_of_range nonneg (by omega), if_neg unfinished]
    apply leaves_frameDone
    · exact .head rfl (Int.le_refl 0) (by decide : (0 : ℤ) < 4)
    · dsimp only
      rw [toSizeT_of_range (by omega) (by omega)]
      omega
    · dsimp only
      rw [toSizeT_of_range (by omega) (by omega)]
      omega
    · exact covers_single nonneg

theorem continueBody_leaves {node : RecvNode ℤ} (small : loop.byteTransfered ≤ maxLength)
    (flag : loop.session.bHeadParse = true) (maxLen : -32768 ≤ node.maxLen ∧ node.maxLen < 32768)
    (curLen : -32768 ≤ node.curLen ∧ node.curLen < 32768)
    (continued : codec.continueBody data loop node = .ok result) :
    Leaves loop (copies (continueBodyAccesses loop node)) result := by
  have bound : loop.byteTransfered ≤ 2048 := small
  rw [Codec.continueBody] at continued
  dsimp only at continued
  rw [continueBodyAccesses]
  split_ifs at continued with unfinished
  · obtain ⟨filled, -, continued⟩ := ok_of_bind continued
    cases continued
    rw [if_pos unfinished]
    exact ⟨sane_of_node flag rfl maxLen (toShort_range _), fun _ => covers_single (Int.natCast_nonneg _)⟩
  · obtain ⟨filled, -, continued⟩ := ok_of_bind continued
    obtain ⟨out, -, continued⟩ := ok_of_bind continued
    cases continued
    have nonneg : 0 ≤ node.maxLen - node.curLen := nonneg_of_toSizeT (by omega) (by omega)
    rw [if_neg unfinished]
    rw [toSizeT_of_range nonneg (by omega)] at unfinished
    apply leaves_frameDone
    · exact sane_of_node flag rfl maxLen (toShort_range _)
    · dsimp only
      rw [toSizeT_of_range (by omega) (by omega)]
      omega
    · dsimp only
      rw [toSizeT_of_range (by omega) (by omega)]
      omega
    · exact covers_single nonneg

/-- The copies before an iteration leaves off, and those behind them. -/
theorem Leaves.prepend {next : ReceiveLoop} {size : ℤ} {copied : List (ℤ × ℤ)} (nonneg : 0 ≤ size)
    (moved : next.copyLen = loop.copyLen + size)
    (left : next.byteTransfered + size = loop.byteTransfered) (leaves : Leaves next copied result) :
    Leaves loop ((loop.copyLen, size) :: copied) result := by
  cases result with
  | again after =>
    obtain ⟨sane, unread, less, total, covers⟩ := leaves
    rw [moved] at total covers
    exact ⟨sane, unread, by omega, by omega, rfl, nonneg, covers⟩
  | returned done =>
    obtain ⟨sane, covers⟩ := leaves
    have stop : next.copyLen + next.byteTransfered = loop.copyLen + loop.byteTransfered := by omega
    rw [stop, moved] at covers
    exact ⟨sane, fun rearms => ⟨rfl, nonneg, covers rearms⟩⟩

theorem startFrame_leaves (small : loop.byteTransfered ≤ maxLength)
    (flag : loop.session.bHeadParse = false) (nonneg : 0 ≤ loop.session.recvHeadNode.curLen)
    (inside : loop.session.recvHeadNode.curLen < 4)
    (started : codec.startFrame data loop = .ok result) :
    Leaves loop (copies (startFrameAccesses data loop)) result := by
  have bound : loop.byteTransfered ≤ 2048 := small
  have headLen : toSizeT codec.headLen = 4 := by decide
  have headTotal : toSizeT headTotalLen = 4 := headLen
  have sum : toSizeT (loop.byteTransfered + loop.session.recvHeadNode.curLen) =
      (loop.byteTransfered + loop.session.recvHeadNode.curLen).toNat :=
    toSizeT_of_range (by omega) (by omega)
  rw [Codec.startFrame] at started
  rw [startFrameAccesses]
  dsimp only
  rw [headTotal, sum]
  dsimp only at started
  rw [headLen, sum] at started
  split_ifs at started with unfinished
  · obtain ⟨filled, -, started⟩ := ok_of_bind started
    cases started
    rw [if_pos unfinished]
    have cursor : codec.narrow (loop.session.recvHeadNode.curLen + loop.byteTransfered) =
        loop.session.recvHeadNode.curLen + loop.byteTransfered :=
      toShort_of_range (by omega) (by omega)
    refine ⟨.head flag ?_ ?_, fun _ => covers_single (Int.natCast_nonneg _)⟩
    · dsimp only
      rw [cursor]
      omega
    · dsimp only
      rw [cursor]
      omega
  · obtain ⟨filled, copied, started⟩ := ok_of_bind started
    obtain ⟨fields, judged, started⟩ := ok_of_bind started
    have four : codec.headLen = 4 := rfl
    have total : ((headTotalLen : ℕ) : ℤ) = 4 := rfl
    rw [four] at copied started
    have checked : header filled = .ok fields := judged
    rw [if_neg unfinished, total, copied, bind_of_ok rfl, checked]
    cases fields with
    | none =>
      cases started
      refine ⟨.head flag nonneg inside, fun rearms => ?_⟩
      rw [List.getLast?_concat] at rearms
      cases rearms
    | some fields =>
      obtain ⟨tag, msgLen⟩ := fields
      obtain ⟨low, high⟩ := asyncServer_limited.header judged
      dsimp only at started
      have left : toSizeT (loop.byteTransfered - (4 - loop.session.recvHeadNode.curLen)) +
          (4 - loop.session.recvHeadNode.curLen) = loop.byteTransfered := by
        rw [toSizeT_of_range (by omega) (by omega)]
        omega
      have leaves := startBody_leaves (by dsimp only; simp only [maxLength]; omega) low high started
      exact leaves.prepend (by omega) rfl left

theorem iteration_leaves (small : loop.byteTransfered ≤ maxLength) (sane : Sane loop.session)
    (step : codec.iteration data loop = .ok result) :
    Leaves loop (copies (iterationAccesses data loop)) result := by
  rw [Codec.iteration] at step
  rw [iterationAccesses]
  cases sane with
  | head flag nonneg inside =>
    rw [flag, if_neg Bool.false_ne_true] at step ⊢
    exact startFrame_leaves small flag nonneg inside step
  | body flag maxLen curLen =>
    rw [flag, if_pos rfl] at step ⊢
    cases present : loop.session.recvMsgNode with
    | none =>
      rw [present] at step
      cases step
    | some node =>
      rw [present] at step
      exact continueBody_leaves small flag (maxLen node present) (curLen node present) step

section Run

variable {done : Done ℤ (ℤ × List UInt8)} {fuel : ℕ}

/-- No read has been armed yet, and the session has not been removed. -/
def Silent (calls : List (Effect (ℤ × List UInt8))) : Prop :=
  calls.countP Effect.isRead = 0 ∧ calls.countP Effect.isClear = 0

/-- Behind them, only what comes next counts. -/
theorem Silent.counts {calls : List (Effect (ℤ × List UInt8))} (silent : Silent calls)
    (more : List (Effect (ℤ × List UInt8))) :
    (calls ++ more).countP Effect.isRead = more.countP Effect.isRead ∧
      (calls ++ more).countP Effect.isClear = more.countP Effect.isClear := by
  obtain ⟨reads, clears⟩ := silent
  constructor
  · rw [List.countP_append, reads, Nat.zero_add]
  · rw [List.countP_append, clears, Nat.zero_add]

/-- An iteration that leaves the handler makes the only call that counts. -/
theorem returned_goes (silent : Silent loop.effects) {copied : List (ℤ × ℤ)}
    (step : codec.iteration data loop = .ok (.returned done))
    (leaves : Leaves loop copied (.returned done)) :
    Goes loop.copyLen (loop.copyLen + loop.byteTransfered) copied done.effects := by
  obtain ⟨-, covers⟩ := leaves
  generalize same : Next.returned done = result at step
  cases iteration_calls step with
  | rearmed =>
    cases same
    obtain ⟨reads, clears⟩ := silent.counts [.asyncReadSome]
    exact .inl ⟨reads, List.getLast?_concat, clears, covers List.getLast?_concat⟩
  | cleared =>
    cases same
    obtain ⟨reads, clears⟩ := silent.counts [.clearServer]
    exact .inr ⟨clears, reads⟩
  | @finished session out after =>
    cases same
    obtain ⟨reads, clears⟩ := silent.counts [.emit out after, .asyncReadSome]
    have last : (loop.effects ++ [Effect.emit out after, Effect.asyncReadSome]).getLast? =
        some Effect.asyncReadSome := by
      simp
    exact .inl ⟨reads, last, clears, covers last⟩
  | again => cases same

/-- An iteration that goes round the loop again has only emitted. -/
theorem again_silent {next : ReceiveLoop} (silent : Silent loop.effects)
    (step : codec.iteration data loop = .ok (.again next)) : Silent next.effects := by
  cases iteration_calls step with
  | @again session byteTransfered copyLen out after => exact silent.counts [.emit out after]

/-- The copies of a loop that returns follow one another to the end. -/
theorem runLoop_goes (small : loop.byteTransfered ≤ maxLength) (unread : 0 < loop.byteTransfered)
    (sane : Sane loop.session) (silent : Silent loop.effects)
    (returned : codec.runLoop data fuel loop = some (.ok done)) :
    Sane done.session ∧ Goes loop.copyLen (loop.copyLen + loop.byteTransfered)
      (copies (runAccesses data fuel loop)) done.effects := by
  induction fuel generalizing loop with
  | zero => cases returned
  | succ fuel ih =>
    rw [Codec.runLoop, if_pos unread] at returned
    rw [runAccesses, if_pos unread, copies, List.filterMap_append]
    cases step : codec.iteration data loop with
    | error fault =>
      rw [step] at returned
      cases returned
    | ok result =>
      have leaves := iteration_leaves small sane step
      rw [step] at returned
      cases result with
      | returned last =>
        cases returned
        rw [List.filterMap_nil, List.append_nil]
        exact ⟨leaves.1, returned_goes silent step leaves⟩
      | again next =>
        obtain ⟨saneNext, unreadNext, less, total, covers⟩ := leaves
        obtain ⟨saneDone, goes⟩ := ih (Nat.le_trans less small) unreadNext saneNext
          (again_silent silent step) returned
        refine ⟨saneDone, ?_⟩
        rcases goes with ⟨reads, last, clears, rest⟩ | removed
        · rw [total] at rest
          exact .inl ⟨reads, last, clears, covers_append covers rest⟩
        · exact .inr removed

/-- A handler that returns has armed one read behind all its copies, or removed the session. -/
theorem handleRead_goes {session : Session ℤ} (sane : Sane session) (completion : Option Completion)
    (returned : codec.handleRead fuel session (completion.map (·.bytes)) = some (.ok done)) :
    Sane done.session ∧ Goes 0 ((completion.map (·.bytes.length)).getD 0 : ℕ)
      (handlerCopies fuel session (completion.map (·.bytes))) done.effects := by
  cases completion with
  | none =>
    cases returned
    exact ⟨sane, .inr ⟨rfl, rfl⟩⟩
  | some completion =>
    obtain ⟨saneDone, goes⟩ := runLoop_goes completion.bounded completion.nonempty sane ⟨rfl, rfl⟩ returned
    rw [Int.zero_add] at goes
    exact ⟨saneDone, goes⟩

end Run

/-- What a step preserves. -/
structure Listening (hearing : Hearing) : Prop where
  sane : Sane hearing.session
  single : hearing.outstanding ≤ 1
  deaf : hearing.outstanding = 0 → 0 < hearing.clears

theorem Listening.hears {hearing : Hearing} (listening : Listening hearing) : Hears hearing where
  single := listening.single
  deaf := listening.deaf
  next completion _ _ returned := (handleRead_goes listening.sane completion returned).2

theorem Listening.step {hearing target : Hearing} {event : Hearing.Event}
    (listening : Listening hearing) (taken : hearing.step event = some target) : Listening target := by
  obtain ⟨sane, single, deaf⟩ := listening
  rcases Hearing.step_cases taken with ⟨completion, fuel, done, -, armed, returned, rfl⟩ |
    ⟨clears, more, rfl⟩
  · obtain ⟨saneDone, goes⟩ := handleRead_goes sane completion returned
    have none : hearing.outstanding - 1 = 0 := by omega
    rcases goes with ⟨reads, -, -, -⟩ | ⟨removes, reads⟩
    · refine ⟨saneDone, ?_, fun nothing => ?_⟩
      · simp only [Hearing.returned, none, reads]
        exact Nat.le_refl 1
      · simp only [Hearing.returned, none, reads] at nothing
        omega
    · refine ⟨saneDone, ?_, fun _ => ?_⟩
      · simp only [Hearing.returned, none, reads]
        omega
      · simp only [Hearing.returned, removes]
        omega
  · exact ⟨sane, single, fun nothing => Nat.lt_of_lt_of_le (deaf nothing) more⟩

theorem listening_start : Listening (.start fresh) :=
  ⟨.head rfl (Int.le_refl 0) (by decide), Nat.le_refl 1, fun nothing => by cases nothing⟩

/-- In every run, a session hears until it has been removed. -/
theorem always_hears (tape : List Hearing.Event) : Always Hearing.step Hears (.start fresh) tape := by
  have preserved {source target : Hearing} {event : Hearing.Event} :
      Listening source → source.step event = some target → Listening target := Listening.step
  exact (always_of_preserved preserved listening_start tape).imp fun _ => Listening.hears

section Life

variable {τ : Type}

/-- The flags of a session say whether its counts are zero. -/
structure Counts (life : Life τ) (hearing : Hearing) : Prop where
  receiving : life.session.receiving = hearing.session
  reading : life.session.reading = decide (0 < hearing.outstanding)
  cleared : life.session.cleared = decide (0 < hearing.clears)

theorem any_eq_countP (calls : List (Effect (ℤ × List UInt8)))
    (kind : Effect (ℤ × List UInt8) → Bool) : calls.any kind = decide (0 < calls.countP kind) := by
  rw [Bool.eq_iff_iff, List.any_eq_true, decide_eq_true_iff, List.countP_pos_iff]

variable {life target : Life τ} {hearing : Hearing} {event : Life.Event τ}

theorem Counts.returned (counts : Counts life hearing) (listening : Listening hearing)
    (calls : List Call) (done : Done ℤ (ℤ × List UInt8)) :
    Counts ((life.called calls).behindRead (some (.ok done))) (hearing.returned done) := by
  obtain ⟨-, -, cleared⟩ := counts
  have none : hearing.outstanding - 1 = 0 := Nat.sub_eq_zero_of_le listening.single
  refine ⟨rfl, ?_, ?_⟩
  · simp only [Life.behindRead, Hearing.returned, none, Nat.zero_add]
    exact any_eq_countP ..
  · simp only [Life.behindRead, Life.called, Hearing.returned, cleared, Done.cleared, any_eq_countP,
      ← Bool.decide_or]
    exact decide_eq_decide.mpr (by omega)

/-- A session attends to its peer while its flags are its counts, and inside a body of length -1. -/
def Attends (life : Life τ) : Prop :=
  (∃ hearing, Listening hearing ∧ Counts life hearing) ∨
    Astray life.session.receiving ∧ (life.session.reading = true ∨ life.session.cleared = true)

/-- A read of a session that has not gone astray is one of its reading and removing part, or leads astray. -/
theorem Counts.read (counts : Counts life hearing) (listening : Listening hearing)
    (armed : life.session.reading = true) {completion : Option Completion} {more : ℕ}
    (elsewhere : strayCursor? life.session.receiving = none)
    (running : (life.handleRead (completion.map (·.bytes)) more).halted = false) :
    Attends (life.handleRead (completion.map (·.bytes)) more) := by
  have outstanding : 0 < hearing.outstanding := of_decide_eq_true (counts.reading.symm.trans armed)
  rw [life.handleRead_plain (.inr elsewhere)] at running ⊢
  rcases result : strayCodec.handleRead (more + 1) life.session.receiving (completion.map (·.bytes)) with
    _ | _ | done
  · rw [result] at running
    cases running
  · rw [result] at running
    cases running
  · rw [result]
    rcases handleRead_stray result with strict | ⟨astray, reading⟩
    · rw [counts.receiving] at strict
      have step : hearing.step (.handleRead completion (more + 1)) = some (hearing.returned done) := by
        simp only [Hearing.step, if_pos outstanding, strict]
      exact .inl ⟨_, listening.step step, counts.returned listening _ done⟩
    · exact .inr ⟨astray, .inl reading⟩

/-- A read inside a body of length -1 stays there. -/
theorem attends_of_astray (astray : Astray life.session.receiving) {completion : Option Completion} {more : ℕ}
    (running : (life.handleRead (completion.map (·.bytes)) more).halted = false) :
    Attends (life.handleRead (completion.map (·.bytes)) more) := by
  cases completion with
  | none => exact .inr ⟨astray, .inr (Bool.or_true _)⟩
  | some completion =>
    obtain ⟨curLen, inside⟩ := Option.isSome_iff_exists.mp astray
    rw [Option.map_some, life.handleRead_stray inside] at running ⊢
    cases cursor : (strayLoop (more + 1) completion.bytes.length curLen).2 with
    | none =>
      rw [cursor] at running
      cases running
    | some curLen => exact .inr ⟨astray.moved curLen, .inl rfl⟩

variable [DecidableEq τ]

theorem Attends.step (attends : Attends life) (taken : life.step event = some target)
    (running : target.halted = false) : Attends target := by
  simp only [Life.step] at taken
  split_ifs at taken
  cases event with
  | handleRead completion more =>
    simp only [Life.act] at taken
    split_ifs at taken with armed
    cases taken
    by_cases astray : Astray life.session.receiving
    · exact attends_of_astray astray running
    · rcases attends with ⟨hearing, listening, counts⟩ | ⟨gone, -⟩
      · exact counts.read listening armed (Option.not_isSome_iff_eq_none.mp astray) running
      · exact absurd gone astray
  | sending action =>
    obtain ⟨sending, -, rfl⟩ := Option.map_eq_some_iff.mp taken
    rcases attends with ⟨hearing, listening, receiving, reading, cleared⟩ | ⟨astray, hears⟩
    · exact .inl ⟨hearing, listening, receiving, reading, cleared⟩
    · exact .inr ⟨astray, hears⟩
  | writeError index =>
    obtain ⟨node, -, rfl⟩ := Option.map_eq_some_iff.mp taken
    rcases attends with ⟨hearing, listening, receiving, reading, -⟩ | ⟨astray, -⟩
    · refine .inl ⟨_, listening.step (rfl : hearing.step (.handleWrite true) = _), receiving, reading, ?_⟩
      exact (decide_eq_true (Nat.succ_pos _)).symm
    · exact .inr ⟨astray, .inr rfl⟩

/-- In every run of a session with its sends, it waits for a read until it has been removed. -/
theorem life_hears (sendPending : Bool) (tape : List (Life.Event τ)) :
    Always Life.step (fun life => life.halted = false →
      life.session.reading = true ∨ life.session.cleared = true) (.start (started sendPending)) tape := by
  have preserved {source target : Life τ} {event : Life.Event τ}
      (attends : source.halted = false → Attends source)
      (taken : source.step event = some target) (running : target.halted = false) : Attends target := by
    have going : source.halted = false := by
      rw [Life.step] at taken
      split_ifs at taken with halted
      exact Bool.eq_false_iff.mpr halted
    exact (attends going).step taken running
  apply (always_of_preserved preserved (fun _ => .inl ⟨_, listening_start, rfl, rfl, rfl⟩) tape).imp
  intro life attends running
  rcases attends running with ⟨hearing, listening, counts⟩ | ⟨-, hears⟩
  · rcases Nat.eq_zero_or_pos hearing.outstanding with nothing | armed
    · exact .inr (counts.cleared.trans (decide_eq_true (listening.deaf nothing)))
    · exact .inl (counts.reading.trans (decide_eq_true armed))
  · exact hears

end Life

end BoostLearn.Soundness.AsyncServer
