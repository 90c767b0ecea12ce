import BoostLearn.Core.Settling

/-! # Bytes that go to a relay and come back

One side writes all of its bytes and then reads until it has as many. The other side reads some bytes,
as many as it has room for, and writes all of them back before it reads again. Between the two there is
a buffer in each direction, and every read and every write may move fewer bytes than it was given. The
bytes keep their order wherever they are, and when the buffers have room for all of them the first
side gets them all back.
-/

namespace BoostLearn.Replay

/-- Where the bytes are, from the ones to be written to the ones that have come back. -/
structure Relay where
  unsent : List UInt8
  outbound : List UInt8
  held : List UInt8
  inbound : List UInt8
  back : List UInt8
deriving DecidableEq, Repr

namespace Relay

inductive Move where
  | send (count : ℕ)
  | take (count : ℕ)
  | give (count : ℕ)
  | get (count : ℕ)
deriving DecidableEq, Repr

/-- A move of some bytes from one place to the next one. -/
def step (room capacity : ℕ) (relay : Relay) : Move → Option Relay
  | .send count =>
    if 0 < count ∧ count ≤ relay.unsent.length ∧ relay.outbound.length + count ≤ capacity then
      some { relay with unsent := relay.unsent.drop count, outbound := relay.outbound ++ relay.unsent.take count }
    else none
  | .take count =>
    if relay.held = [] ∧ 0 < count ∧ count ≤ relay.outbound.length ∧ count ≤ room then
      some { relay with outbound := relay.outbound.drop count, held := relay.outbound.take count }
    else none
  | .give count =>
    if 0 < count ∧ count ≤ relay.held.length ∧ relay.inbound.length + count ≤ capacity then
      some { relay with held := relay.held.drop count, inbound := relay.inbound ++ relay.held.take count }
    else none
  | .get count =>
    if relay.unsent = [] ∧ 0 < count ∧ count ≤ relay.inbound.length then
      some { relay with inbound := relay.inbound.drop count, back := relay.back ++ relay.inbound.take count }
    else none

/-- All bytes, in the order in which they were to be written. -/
def all (relay : Relay) : List UInt8 :=
  relay.back ++ (relay.inbound ++ (relay.held ++ (relay.outbound ++ relay.unsent)))

def start (bytes : List UInt8) : Relay := ⟨bytes, [], [], [], []⟩

/-- How far the bytes still have to go. -/
def distance (relay : Relay) : ℕ :=
  4 * relay.unsent.length + 3 * relay.outbound.length + 2 * relay.held.length + relay.inbound.length

variable {room capacity : ℕ} {relay target : Relay} {move : Move}

/-- No byte is lost, doubled or overtaken. -/
theorem all_step (taken : relay.step room capacity move = some target) : target.all = relay.all := by
  cases move with
  | send count =>
    rw [step] at taken
    split_ifs at taken
    cases taken
    simp only [all, List.append_assoc, List.take_append_drop]
  | take count =>
    rw [step] at taken
    split_ifs at taken with may
    cases taken
    simp only [all, may.1, List.nil_append]
    rw [← List.append_assoc (relay.outbound.take count), List.take_append_drop]
  | give count =>
    rw [step] at taken
    split_ifs at taken
    cases taken
    simp only [all, List.append_assoc]
    rw [← List.append_assoc (relay.held.take count), List.take_append_drop]
  | get count =>
    rw [step] at taken
    split_ifs at taken
    cases taken
    simp only [all, List.append_assoc]
    rw [← List.append_assoc (relay.inbound.take count), List.take_append_drop]

theorem distance_step (taken : relay.step room capacity move = some target) :
    target.distance < relay.distance := by
  cases move with
  | _ count =>
    rw [step] at taken
    split_ifs at taken with may
    cases taken
    simp only [distance, List.length_append, List.length_take, List.length_drop]
    omega

/-- While some bytes have not come back, some byte can be moved. -/
theorem progress (spacious : 0 < room) (whole : relay.all.length ≤ capacity)
    (missing : relay.back ≠ relay.all) : ∃ move target, relay.step room capacity move = some target := by
  simp only [all, List.length_append] at whole
  by_cases unsent : relay.unsent = []
  · by_cases held : relay.held = []
    · by_cases outbound : relay.outbound = []
      · have inbound : relay.inbound ≠ [] := by
          intro inbound
          rw [all, unsent, held, outbound, inbound] at missing
          exact missing (by simp only [List.append_nil])
        have present := List.length_pos_iff.mpr inbound
        exact ⟨.get 1, _, if_pos ⟨unsent, Nat.zero_lt_one, present⟩⟩
      · have present := List.length_pos_iff.mpr outbound
        exact ⟨.take 1, _, if_pos ⟨held, Nat.zero_lt_one, present, spacious⟩⟩
    · have present := List.length_pos_iff.mpr held
      exact ⟨.give 1, _, if_pos ⟨Nat.zero_lt_one, present, by omega⟩⟩
  · have present := List.length_pos_iff.mpr unsent
    exact ⟨.send 1, _, if_pos ⟨Nat.zero_lt_one, present, by omega⟩⟩

end Relay

end BoostLearn.Replay
