import BoostLearn.Core.Replay
import BoostLearn.Model.AsyncServer.Accesses
import BoostLearn.Model.AsyncServer.Removal

/-! # The reads of one session of AsyncServer

`Session::start` arms the first read. A handler runs when a read completes and may arm others, and
a handler of a read or of a write may call `ClearServer`. Here both are counted; a handler that
throws or does not return is the last one.
-/

namespace BoostLearn.Model.AsyncServer

open Memory HandleRead

/-- Which part of the receive buffer an access copies out of it. -/
def Access.source? : Access → Option (ℤ × ℤ)
  | .head _ source size => some (source, size)
  | .body _ _ source size => some (source, size)
  | _ => none

/-- The copies out of the receive buffer. -/
def copies (accesses : List Access) : List (ℤ × ℤ) := accesses.filterMap Access.source?

/-- The copies that a handler makes of the bytes of its completion. -/
def handlerCopies (fuel : ℕ) (session : Session ℤ) : Option (List UInt8) → List (ℤ × ℤ)
  | some bytes =>
    copies (runAccesses (Codec.receiveBuffer bytes) fuel ⟨session, bytes.length, 0, []⟩)
  | none => []

/-- The members that receiving uses, how many reads are outstanding, and how often `ClearServer` has
been called. -/
structure Hearing where
  session : Session ℤ
  outstanding : ℕ
  clears : ℕ

namespace Hearing

/-- A session behind `Session::start`. -/
def start (session : Session ℤ) : Hearing := ⟨session, 1, 0⟩

inductive Event where
  /-- `handle_read`, with the bytes of the completion or with an error. -/
  | handleRead (completion : Option Completion) (fuel : ℕ)
  /-- `handle_write`, with an error if there is one. -/
  | handleWrite (ec : Bool)

/-- A read completes, and its handler returns. -/
def returned (hearing : Hearing) (done : Done ℤ (ℤ × List UInt8)) : Hearing where
  session := done.session
  outstanding := hearing.outstanding - 1 + done.effects.countP Effect.isRead
  clears := hearing.clears + done.effects.countP Effect.isClear

def step (hearing : Hearing) : Event → Option Hearing
  | .handleRead completion fuel =>
    if 0 < hearing.outstanding then
      match codec.handleRead fuel hearing.session (completion.map (·.bytes)) with
      | some (.ok done) => some (hearing.returned done)
      | _ => none
    else none
  | .handleWrite ec => some { hearing with clears := if ec then hearing.clears + 1 else hearing.clears }

/-- What a step can be, and when. -/
theorem step_cases {hearing target : Hearing} {event : Event}
    (taken : hearing.step event = some target) :
    (∃ completion fuel done, event = .handleRead completion fuel ∧ 0 < hearing.outstanding ∧
      codec.handleRead fuel hearing.session (completion.map (·.bytes)) = some (.ok done) ∧
      target = hearing.returned done) ∨
    ∃ clears, hearing.clears ≤ clears ∧ target = { hearing with clears } := by
  cases event with
  | handleRead completion fuel =>
    simp only [step] at taken
    split_ifs at taken with armed
    split at taken
    · next done returned =>
      exact .inl ⟨completion, fuel, done, rfl, armed, returned, (Option.some.inj taken).symm⟩
    · cases taken
  | handleWrite ec =>
    cases ec with
    | false => exact .inr ⟨hearing.clears, Nat.le_refl _, (Option.some.inj taken).symm⟩
    | true => exact .inr ⟨hearing.clears + 1, Nat.le_succ _, (Option.some.inj taken).symm⟩

end Hearing

end BoostLearn.Model.AsyncServer
