import BoostLearn.Core.Memory

/-! # The session of SyncServer

A thread reads what there is into a zeroed array, prints the array as a C string, and writes the bytes
back until all of them are written. An error from `read_some` that is not the end of the stream is
thrown, like every error of `write` and of `remote_endpoint`, and caught outside the loop. The accepting
loop, which starts a thread for each connection, is not modelled.
-/

namespace BoostLearn.Model.SyncServer

open Memory

def maxLength : ℕ := 1024

/-- `std::ostream << const char*`: the letters in front of the first zero. -/
def cString : Cells → Except Fault (List UInt8)
  | [] => .error .outOfBounds
  | none :: _ => .error .indeterminate
  | some letter :: rest => if letter = 0 then .ok [] else (cString rest).map (letter :: ·)

/-- How `session` ends: by `break`, in its `catch`, or not as a C++ program. -/
inductive Ending where
  | byPeer
  | caught
  | fault (fault : Fault)
deriving DecidableEq, Repr

/-- `unsent` is what `asio::write` has still to write; without it the thread is in `read_some`. -/
structure Session where
  unsent : List UInt8
  printed : List (List UInt8)
  ended : Option Ending
deriving DecidableEq, Repr

/-- What comes back from a call on the socket. -/
inductive Event where
  /-- `read_some` has read, and `remote_endpoint` returns or throws. -/
  | received (bytes : List UInt8) (connected : Bool)
  | eof
  | failed
  /-- One of the writes in `asio::write` has taken some bytes. -/
  | wrote (count : ℕ)
deriving DecidableEq, Repr

def Session.start : Session := ⟨[], [], none⟩

/-- What one round prints and what it hands to `asio::write`. -/
def round (bytes : List UInt8) : Except Fault (List UInt8 × List UInt8) := do
  let data ← memset (List.replicate maxLength none) 0 maxLength
  let data ← memcpy data 0 (bytes.map some) 0 bytes.length
  let context ← cString data
  let unsent ← readString data bytes.length
  return (context, unsent)

/-- `session`, from one return of the socket to the next call. -/
def Session.step (session : Session) (event : Event) : Option Session :=
  if session.ended ≠ none then none
  else
    match event with
    | .received bytes connected =>
      if session.unsent = [] ∧ 0 < bytes.length ∧ bytes.length ≤ maxLength then
        if connected then
          match round bytes with
          | .ok (context, unsent) => some { session with unsent, printed := session.printed ++ [context] }
          | .error fault => some { session with ended := some (.fault fault) }
        else some { session with ended := some .caught }
      else none
    | .eof => if session.unsent = [] then some { session with ended := some .byPeer } else none
    | .failed => some { session with ended := some .caught }
    | .wrote count =>
      if 0 < count ∧ count ≤ session.unsent.length then
        some { session with unsent := session.unsent.drop count }
      else none

theorem cString_terminated {text : List UInt8} {rest : Cells}
    (stops : 0 ∈ text ∨ ∃ more, rest = some 0 :: more) :
    cString (text.map some ++ rest) = .ok (text.takeWhile (· ≠ 0)) := by
  induction text with
  | nil =>
    obtain ⟨more, rfl⟩ := stops.resolve_left List.not_mem_nil
    rfl
  | cons letter text ih =>
    rw [List.map_cons, List.cons_append, cString]
    by_cases zero : letter = 0
    · rw [if_pos zero, List.takeWhile_cons_of_neg (by simpa using zero)]
    · rw [List.mem_cons] at stops
      rw [if_neg zero, ih (stops.imp_left fun member => member.resolve_left (Ne.symm zero)),
        List.takeWhile_cons_of_pos (by simpa using zero)]
      rfl

theorem cString_unterminated {text : List UInt8} (whole : 0 ∉ text) :
    cString (text.map some) = .error .outOfBounds := by
  induction text with
  | nil => rfl
  | cons letter text ih =>
    rw [List.mem_cons, not_or] at whole
    rw [List.map_cons, cString, if_neg (Ne.symm whole.1), ih whole.2]
    rfl

/-- The array holds what has been read, and zeros behind it. -/
theorem round_eq {bytes : List UInt8} (fits : bytes.length ≤ maxLength) :
    round bytes = (cString (bytes.map some ++ List.replicate (maxLength - bytes.length) (some 0))).map
      fun context => (context, bytes) := by
  have zeroed : memset (List.replicate maxLength none) 0 maxLength = .ok (List.replicate maxLength (some 0)) := by
    have size : (List.replicate maxLength (none : Option UInt8)).length = maxLength := List.length_replicate
    rw [memset, if_pos (Nat.le_of_eq size.symm), List.drop_eq_nil_of_le (Nat.le_of_eq size), List.append_nil]
  have copied := memcpy_prefix [] bytes [] (List.replicate maxLength (some 0))
    (by rwa [List.length_replicate])
  rw [List.append_nil, List.drop_replicate] at copied
  rw [round, bind_of_ok zeroed]
  refine (bind_of_ok copied _).trans ?_
  rw [List.nil_append]
  cases cString (bytes.map some ++ List.replicate (maxLength - bytes.length) (some 0)) with
  | error fault => rfl
  | ok context =>
    refine (bind_of_ok rfl _).trans ?_
    refine (bind_of_ok (readString_map bytes _) _).trans ?_
    rfl

/-- A round that does not fill the array, or that has a zero in it, goes well. -/
theorem round_terminated {bytes : List UInt8} (fits : bytes.length ≤ maxLength)
    (stops : bytes.length < maxLength ∨ 0 ∈ bytes) :
    round bytes = .ok (bytes.takeWhile (· ≠ 0), bytes) := by
  rw [round_eq fits, cString_terminated]
  · rfl
  · refine stops.symm.imp_right fun short => ?_
    obtain ⟨more, rest⟩ : ∃ more, maxLength - bytes.length = more + 1 := ⟨maxLength - bytes.length - 1, by omega⟩
    exact ⟨List.replicate more (some 0), by rw [rest, List.replicate_succ]⟩

theorem round_overrun {bytes : List UInt8} (full : bytes.length = maxLength) (whole : 0 ∉ bytes) :
    round bytes = .error .outOfBounds := by
  rw [round_eq (Nat.le_of_eq full), full, Nat.sub_self, List.replicate_zero, List.append_nil,
    cString_unterminated whole]
  rfl

end BoostLearn.Model.SyncServer
