import BoostLearn.Model.AsyncServer.Server

/-! # One session of AsyncServer behind its removal

The strand runs the handlers of a session one after the other. `handle_write` on an error removes
the session from the map and leaves the outstanding read alone, and `handle_read` does not ask
whether the session has been removed. A handler that throws or does not return is the last one.

A header with the length -1 passes the checks, and `handle_read` goes on behind it: `new char[0]`
returns, and nothing stops the terminator in front of that array. What such a node overwrites is not
part of the model, which from there on follows the sizes that the loop compares.
-/

namespace BoostLearn.Model.AsyncServer

open CInt Memory HandleRead

/-- What removal should put an end to. -/
inductive Call where
  | postMsgToQue
  | asyncReadSome
deriving DecidableEq, Repr

def call? {ε : Type} : Effect ε → Option Call
  | .emit _ _ => some .postMsgToQue
  | .asyncReadSome => some .asyncReadSome
  | .clearServer => none

/-- What a handler has called since the session was removed. -/
def later {ε : Type} (cleared : Bool) (effects : List (Effect ε)) : List Call :=
  (if cleared then effects else (effects.dropWhile fun call => !call.isClear).tail).filterMap call?

section Stray

/-- `RecvNode::RecvNode`, which builds a node of length -1 as well. Its first copy goes to what lies
behind its array. -/
def strayNode (maxLen : ℤ) : Except Fault MsgNode :=
  if maxLen = -1 then .ok ⟨0, -1, List.replicate maxLength none⟩ else MsgNode.new maxLen

def strayCodec : Codec ℤ (ℤ × List UInt8) := { codec with newNode := strayNode }

/-- The cursor of a body node of length -1, while the session is inside that body. -/
def strayCursor? (session : HandleRead.Session ℤ) : Option ℤ :=
  if session.bHeadParse then
    session.recvMsgNode.bind fun node => if node.maxLen = -1 then some node.curLen else none
  else none

/-- The `while` loop inside such a body: what it calls, and the cursor when its handler returns. -/
def strayLoop : ℕ → ℕ → ℤ → List Call × Option ℤ
  | 0, _, _ => ([], none)
  | more + 1, byteTransfered, curLen =>
    let remindMsg := -1 - curLen
    if byteTransfered < toSizeT remindMsg then
      ([.asyncReadSome], some (toShort (curLen + byteTransfered)))
    else
      let curLen := toShort (curLen + remindMsg)
      let byteTransfered := toSizeT (byteTransfered - remindMsg)
      if byteTransfered ≤ 0 then ([.postMsgToQue, .asyncReadSome], some curLen)
      else
        let (calls, cursor) := strayLoop more byteTransfered curLen
        (.postMsgToQue :: calls, cursor)

end Stray

/-- A session that has been started, what its reads have called since its removal, and whether its
strand has come to a stop. -/
structure Life (τ : Type) where
  session : Started τ
  late : List Call
  halted : Bool

namespace Life

variable {τ : Type}

inductive Event (τ : Type) where
  /-- `handle_read`, with the bytes of the completion or with an error, and how many iterations
  behind the first one it has made. -/
  | handleRead (completion : Option Completion) (more : ℕ)
  /-- A thread inside `Send`, or `handle_write` without an error. -/
  | sending (action : SendPipeline.Action τ (List UInt8 × ℤ))
  /-- `handle_write` with an error. -/
  | writeError (index : ℕ)

def start (session : Started τ) : Life τ := ⟨session, [], false⟩

/-- These calls come behind the removal. -/
def called (life : Life τ) (calls : List Call) : Life τ := { life with late := life.late ++ calls }

/-- The session behind a handler that has returned, or has not. -/
def behindRead (life : Life τ) :
    Option (Except Fault (Done ℤ (ℤ × List UInt8))) → Life τ
  | some (.ok done) =>
    { life with
      session := { life.session with
        receiving := done.session
        reading := done.reading
        cleared := life.session.cleared || done.cleared } }
  | _ => { life with halted := true }

/-- The same inside a body of length -1. -/
def behindStray (life : Life τ) : Option ℤ → Life τ
  | some curLen =>
    { life with
      session := { life.session with
        receiving := { life.session.receiving with
          recvMsgNode := life.session.receiving.recvMsgNode.map fun node => { node with curLen } }
        reading := true } }
  | none => { life with halted := true }

/-- `Session::handle_read`. -/
def handleRead (life : Life τ) (completion : Option (List UInt8)) (more : ℕ) : Life τ :=
  match completion, strayCursor? life.session.receiving with
  | some bytes, some curLen =>
    let (calls, cursor) := strayLoop (more + 1) bytes.length curLen
    (life.called (if life.session.cleared then calls else [])).behindStray cursor
  | _, _ =>
    let calls := strayCodec.handleReadCalls (more + 1) life.session.receiving completion
    (life.called (later life.session.cleared calls)).behindRead
      (strayCodec.handleRead (more + 1) life.session.receiving completion)

/-- Inside a body of length -1 only the sizes count. -/
theorem handleRead_stray (life : Life τ) {curLen : ℤ}
    (inside : strayCursor? life.session.receiving = some curLen) (bytes : List UInt8) (more : ℕ) :
    life.handleRead (some bytes) more =
      (life.called (if life.session.cleared then (strayLoop (more + 1) bytes.length curLen).1 else [])).behindStray
        (strayLoop (more + 1) bytes.length curLen).2 := by
  simp only [handleRead, inside]

/-- A read with an error, or elsewhere than inside such a body. -/
theorem handleRead_plain (life : Life τ) {completion : Option (List UInt8)}
    (elsewhere : completion = none ∨ strayCursor? life.session.receiving = none) (more : ℕ) :
    life.handleRead completion more =
      (life.called (later life.session.cleared
        (strayCodec.handleReadCalls (more + 1) life.session.receiving completion))).behindRead
          (strayCodec.handleRead (more + 1) life.session.receiving completion) := by
  rcases elsewhere with rfl | none
  · rfl
  · simp only [handleRead, none]

theorem behindRead_late (life : Life τ) (result : Option (Except Fault (Done ℤ (ℤ × List UInt8)))) :
    (life.behindRead result).late = life.late := by
  rcases result with _ | _ | _ <;> rfl

theorem behindStray_late (life : Life τ) (cursor : Option ℤ) :
    (life.behindStray cursor).late = life.late := by
  cases cursor <;> rfl

def act [DecidableEq τ] (life : Life τ) : Event τ → Option (Life τ)
  | .handleRead completion more =>
    if life.session.reading then some (life.handleRead (completion.map (·.bytes)) more) else none
  | .sending action =>
    (life.session.sending.step Server.newSendNode action).map fun sending =>
      { life with session := { life.session with sending } }
  | .writeError index =>
    life.session.sending.inflight[index]?.map fun _ =>
      { life with session := { life.session with
        sending := { life.session.sending with
          inflight := life.session.sending.inflight.eraseIdx index }
        cleared := true } }

/-- Nothing goes on behind a handler that has not returned. -/
def step [DecidableEq τ] (life : Life τ) (event : Event τ) : Option (Life τ) :=
  if life.halted then none else life.act event

/-- What a step can be: a read, or one that leaves everything alone but sending and the removal. -/
theorem step_cases [DecidableEq τ] {life target : Life τ} {event : Event τ}
    (taken : life.step event = some target) :
    (∃ completion more, event = .handleRead completion more ∧ life.session.reading = true ∧
      target = life.handleRead (completion.map (·.bytes)) more) ∨
    ((∀ completion more, event ≠ .handleRead completion more) ∧
      target.session.receiving = life.session.receiving ∧
      target.session.reading = life.session.reading ∧ target.late = life.late) := by
  simp only [step] at taken
  split_ifs at taken
  cases event with
  | handleRead completion more =>
    simp only [act] at taken
    split_ifs at taken with reading
    exact .inl ⟨completion, more, rfl, reading, (Option.some.inj taken).symm⟩
  | sending action =>
    obtain ⟨sending, -, rfl⟩ := Option.map_eq_some_iff.mp taken
    exact .inr ⟨fun _ _ same => (by cases same), rfl, rfl, rfl⟩
  | writeError index =>
    obtain ⟨node, -, rfl⟩ := Option.map_eq_some_iff.mp taken
    exact .inr ⟨fun _ _ same => (by cases same), rfl, rfl, rfl⟩

end Life

end BoostLearn.Model.AsyncServer
