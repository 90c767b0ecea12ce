import BoostLearn.Model.AsyncServer.Session
import BoostLearn.Soundness.Delivery
import BoostLearn.Spec.Frames

/-! # AsyncServer reads the frames of its protocol, except behind a cut body

Without a negative length, and without a cut inside a body that the stream goes beyond, a fresh
session posts the frames of the reference parse, however the stream is cut. In every other
delivery a handler fails or does not return.
-/

namespace BoostLearn.Soundness.AsyncServer

open CInt Memory Framing Framing.Format Model Model.Wire Model.HandleRead Model.AsyncServer
open Soundness.HandleRead

/-- The heads that the checks of `handle_read` refuse. -/
def RefusedHead : List UInt8 → Prop
  | [idHigh, idLow, lenHigh, lenLow] =>
    maxLength < bigEndianShort idHigh idLow ∨ maxLength < bigEndianShort lenHigh lenLow
  | _ => False

def reader : Reader ℤ (ℤ × List UInt8) where
  codec := codec
  format := Spec.asyncServer
  refused := RefusedHead
  faulty _ := True
  last := some 0
  early tag body := (tag, body)
  late tag body := (tag, body)
  headLen := rfl
  headLength_small := by decide
  narrow _ small := toShort_of_limit small
  accept_bound accept := by
    obtain ⟨_, _, _, _, _, _, _, _, bound⟩ := Spec.asyncServer_accept accept
    exact bound
  accept rest _ accept := by
    obtain ⟨_, _, _, _, rfl, rfl, small, length, bound⟩ := Spec.asyncServer_accept accept
    apply (header_of_fields ..).trans
    rw [if_neg (by omega), length, if_neg (by omega)]
  refuse rest whole _ refused := by
    obtain ⟨_, _, _, _, rfl⟩ := Spec.two_fields whole
    apply (header_of_fields ..).trans
    rcases refused with id | length
    · rw [if_pos id]
    · rw [if_pos length, ite_self]
  fault rest whole reject accepted _ := by
    obtain ⟨idHigh, idLow, lenHigh, lenLow, rfl⟩ := Spec.two_fields whole
    rcases Spec.asyncServer_reject.mp reject with id | negative | length
    · exact absurd (Or.inl id) accepted
    · obtain ⟨fault, failed⟩ := MsgNode.new_of_negative negative
      refine ⟨bigEndianShort idHigh idLow, _, fault, (header_of_fields ..).trans ?_, failed⟩
      rw [if_neg (fun id => accepted (Or.inl id)), if_neg (fun length => accepted (Or.inr length))]
    · exact absurd (Or.inr length) accepted
  newNode {length} _ := MsgNode.new_of_nonneg length
  complete tag {body} limit := message_of_body tag limit _
  continued tag {body} limit := message_of_body tag limit _

/-- A session as its constructor leaves it. -/
def fresh : Session ℤ := ⟨⟨0, 4, List.replicate 4 none ++ [some 0]⟩, false, none⟩

theorem newSession_fresh : newSession = .ok fresh := newSession_eq

theorem fresh_atHead : reader.AtHead fresh [] :=
  ⟨rfl, rfl, rfl, ⟨List.replicate 4 none ++ [some 0], rfl, rfl⟩, reader.format.headLength_pos⟩

/-- The messages of the posted nodes. -/
def posted (done : Done ℤ (ℤ × List UInt8)) : List (ℤ × List UInt8) :=
  done.effects.filterMap Effect.out?

/-- Every handler returns, the posted messages are the frames of the reference parse, and the
session is removed exactly when the parse stops at a rejected head. -/
def Decodes (completions : List Completion) : Prop :=
  ∃ done bound, (∀ fuel, bound < fuel →
      codec.deliver fuel ⟨fresh, []⟩ completions = some (.ok done)) ∧
    posted done = (Spec.asyncServer.parse (stream completions)).frames ∧
    done.cleared = (Spec.asyncServer.parse (stream completions)).rejected.isSome

theorem decodes_of_clean {completions : List Completion} (clean : reader.Clean [] completions) :
    Decodes completions := by
  rcases Reader.delivers fresh_atHead fun _ _ _ => trivial with ⟨-, next, extra, delivered, emits⟩ | ⟨dirty, -⟩
  · have outs := emits.outs fun _ _ => rfl
    exact ⟨⟨next, extra⟩, maxLength, delivered, outs.trans (List.map_id _), emits.cleared⟩
  · exact absurd clean dirty

theorem clean_of_decodes {completions : List Completion} (decodes : Decodes completions) :
    reader.Clean [] completions := by
  obtain ⟨done, bound, delivered, -⟩ := decodes
  rcases Reader.delivers fresh_atHead fun _ _ _ => trivial with ⟨clean, -⟩ | ⟨-, stuck⟩
  · exact clean
  · exact absurd (delivered (bound + maxLength + 1) (by omega)) (stuck _ (by omega) done)

/-- The decoder is the reference parse exactly when the head it stops at is one it refuses and
no cut falls inside a body that the stream goes beyond. -/
theorem decodes_iff (completions : List Completion) :
    Decodes completions ↔
      (∀ head, (Spec.asyncServer.parse (stream completions)).rejected = some head →
        RefusedHead head) ∧
      ∀ count missing, Spec.asyncServer.openBody (stream (completions.take count)) = some missing →
        (stream (completions.drop count)).length ≤ missing :=
  ⟨fun decodes => ⟨(clean_of_decodes decodes).heads, (clean_of_decodes decodes).cuts⟩,
    fun ⟨heads, cuts⟩ => decodes_of_clean ⟨heads, cuts⟩⟩

/-- Two one-byte messages, the first of them cut behind its header. -/
def cutBody : List Completion :=
  [⟨[3, 233, 0, 1], by decide, by decide⟩, ⟨[65, 3, 233, 0, 1, 66], by decide, by decide⟩]

/-- A header whose length field is negative. -/
def negativeLength : List Completion := [⟨[3, 233, 255, 255], by decide, by decide⟩]

theorem not_decodes : ¬ Decodes cutBody ∧ ¬ Decodes negativeLength := by
  constructor
  · intro decodes
    have accept : Spec.asyncServer.verdict [3, 233, 0, 1] = .accept 1001 1 := by decide +kernel
    have cut : Spec.asyncServer.openBody ([3, 233, 0, 1] ++ []) = some 1 :=
      openBody_open rfl accept (by decide)
    exact absurd ((clean_of_decodes decodes).cuts 1 1 cut) (by decide)
  · intro decodes
    have reject : Spec.asyncServer.verdict [3, 233, 255, 255] = .reject := by decide +kernel
    have rejected : (Spec.asyncServer.parse ([3, 233, 255, 255] ++ [])).rejected =
        some [3, 233, 255, 255] := by rw [parse_reject rfl reject]
    have refused : RefusedHead [3, 233, 255, 255] := (clean_of_decodes decodes).heads _ rejected
    rcases refused with id | length
    · exact absurd id (by decide +kernel)
    · exact absurd length (by decide +kernel)

end BoostLearn.Soundness.AsyncServer
