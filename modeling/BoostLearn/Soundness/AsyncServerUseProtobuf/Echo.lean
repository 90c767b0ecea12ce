import BoostLearn.Model.AsyncServerUseProtobuf.Session
import BoostLearn.Soundness.Delivery
import BoostLearn.Spec.Frames

/-! # AsyncServer_useProtobuf answers the requests whose bodies are not cut

A body that comes with its header is parsed and answered, and the decoder is reset behind it. A
body that a later read completes is sent back unparsed and leaves the flag set, so the replies and
the state agree exactly when no cut falls inside a body.
-/

namespace BoostLearn.Soundness.AsyncServerUseProtobuf

open CInt Memory Framing Framing.Format Model Model.Wire Model.HandleRead Model.AsyncServerUseProtobuf
open Soundness.HandleRead Spec

/-- The heads that the check of `handle_read` refuses. -/
def RefusedHead : List UInt8 → Prop
  | [lenHigh, lenLow] => maxLength < bigEndianShort lenHigh lenLow
  | _ => False

/-- The heads whose node cannot be allocated; a node for the length `-1` can be. -/
def FaultyHead : List UInt8 → Prop
  | [lenHigh, lenLow] => bigEndianShort lenHigh lenLow < -1
  | _ => False

def reader (protobuf : Protobuf) : Reader Unit (List UInt8) where
  codec := codec protobuf
  format := Spec.useProtobuf
  refused := RefusedHead
  faulty := FaultyHead
  last := none
  early _ body := reply protobuf body
  late _ body := body
  headLen := rfl
  headLength_small := by decide
  narrow _ small := toInt_of_limit small
  accept_bound accept := by
    obtain ⟨_, _, _, _, bound⟩ := useProtobuf_accept accept
    exact bound
  accept rest _ accept := by
    obtain ⟨_, _, rfl, length, bound⟩ := useProtobuf_accept accept
    apply (header_of_field ..).trans
    rw [length, if_neg (by omega)]
  refuse rest whole _ refused := by
    obtain ⟨_, _, rfl⟩ := one_field whole
    exact (header_of_field ..).trans (if_pos refused)
  fault rest whole _ accepted lowest := by
    obtain ⟨lenHigh, lenLow, rfl⟩ := one_field whole
    exact ⟨(), _, _, (header_of_field ..).trans (if_neg accepted), newMsgNode_of_negative lowest⟩
  newNode {length} _ := newMsgNode_of_nonneg length
  complete _ {body} limit := complete_of_body protobuf limit _
  continued _ {body} limit := continued_of_body limit _

/-- A session as `Session::start` leaves it. -/
def started : Session Unit := ⟨⟨0, 2, List.replicate 2 none ++ [none]⟩, false, none⟩

theorem startedSession_started : startedSession = .ok started := startedSession_eq

theorem started_atHead (protobuf : Protobuf) : (reader protobuf).AtHead started [] :=
  ⟨rfl, rfl, rfl, ⟨List.replicate 2 none ++ [none], rfl, rfl⟩, useProtobuf.headLength_pos⟩

/-- Completions that carry a given stream. -/
structure Cutting (bytes : List UInt8) where
  completions : List Completion
  whole : stream completions = bytes

variable {requests : List Request}

/-- Every handler returns, each request is answered once and in order, and each frame leaves the
flag, the head cursor and the terminator as a frame that came in one read does. -/
def Answers (protobuf : Protobuf) (cutting : Cutting (requests.flatMap Request.bytes)) : Prop :=
  ∃ done bound, (∀ fuel, bound < fuel →
      (codec protobuf).deliver fuel ⟨started, []⟩ cutting.completions = some (.ok done)) ∧
    done.effects.filterMap Effect.out? = requests.map (fun request => reply protobuf request.body) ∧
    ∀ after ∈ done.effects.filterMap Effect.frameEnd?, after = ⟨false, 0, some 0⟩

/-- No cut falls inside a body. -/
def WholeBodies (cutting : Cutting (requests.flatMap Request.bytes)) : Prop :=
  ∀ count, useProtobuf.openBody (stream (cutting.completions.take count)) = none

variable {protobuf : Protobuf} {cutting : Cutting (requests.flatMap Request.bytes)}

private theorem parsed (cutting : Cutting (requests.flatMap Request.bytes)) :
    useProtobuf.parse (stream cutting.completions) =
      ⟨requests.map fun request => ((), request.body), none, []⟩ := by
  rw [cutting.whole, parse_requests]

private theorem delivery (protobuf : Protobuf)
    (cutting : Cutting (requests.flatMap Request.bytes)) :
    (reader protobuf).Delivers ⟨started, []⟩ cutting.completions [] := by
  apply Reader.delivers (started_atHead protobuf)
  intro head stops
  have accepted : (useProtobuf.parse (stream cutting.completions)).rejected = some head := stops
  rw [parsed] at accepted
  contradiction

theorem answers_of_wholeBodies (whole : WholeBodies cutting) : Answers protobuf cutting := by
  have clean : (reader protobuf).Clean [] cutting.completions := by
    refine ⟨fun head stops => ?_, fun count missing cut => ?_⟩
    · have accepted : (useProtobuf.parse (stream cutting.completions)).rejected = some head := stops
      rw [parsed] at accepted
      contradiction
    · exact absurd ((whole count).symm.trans cut) (by simp)
  have uncut : ¬ (reader protobuf).Continued [] cutting.completions := by
    rintro ⟨count, missing, cut, -⟩
    exact absurd ((whole count).symm.trans cut) (by simp)
  rcases delivery protobuf cutting with ⟨-, next, extra, delivered, emits⟩ | ⟨dirty, -⟩
  · obtain ⟨outs, ends⟩ := emits.whole uncut
    refine ⟨⟨next, extra⟩, maxLength, delivered, outs.trans ?_, ends⟩
    change (useProtobuf.parse (stream cutting.completions)).frames.map _ = _
    rw [parsed, List.map_map]
    rfl
  · exact absurd clean dirty

/-- A cut inside a body either ends the stream with an unanswered body or goes round for ever. -/
theorem wholeBodies_of_answers (answers : Answers protobuf cutting) : WholeBodies cutting := by
  obtain ⟨done, bound, delivered, -, ends⟩ := answers
  have returned := delivered (bound + maxLength + 1) (by omega)
  rcases delivery protobuf cutting with ⟨clean, next, extra, ran, emits⟩ | ⟨-, stuck⟩
  swap
  · exact absurd returned (stuck _ (by omega) done)
  have same : done = ⟨next, extra⟩ := by
    have both := returned.symm.trans (ran (bound + maxLength + 1) (by omega))
    simpa only [List.nil_append, Option.some.injEq, Except.ok.injEq] using both
  intro count
  by_contra cut
  obtain ⟨missing, inside⟩ := Option.ne_none_iff_exists'.mp cut
  have fits := clean.cuts count missing inside
  obtain less | exact_end := Nat.lt_or_eq_of_le fits
  · -- The stream would end inside the body, but it is a concatenation of requests.
    have last := openBody_more inside less
    rw [stream_take_append_drop] at last
    obtain ⟨-, head, body, tag, length, split, whole, -⟩ := openBody_some last
    rw [parsed] at split
    have size := congrArg List.length split
    have := useProtobuf.headLength_pos
    simp only [List.length_nil, List.length_append] at size
    omega
  · obtain ⟨-, -, -, after, -, -, member, flag⟩ := emits.cut ⟨count, missing, inside, exact_end⟩
    rw [same] at ends
    rw [ends after member] at flag
    contradiction

/-- The two ways a body completes agree exactly when the second is not taken. -/
theorem answers_iff (protobuf : Protobuf) (requests : List Request)
    (cutting : Cutting (requests.flatMap Request.bytes)) :
    Answers protobuf cutting ↔
      ∀ count, useProtobuf.openBody (stream (cutting.completions.take count)) = none :=
  ⟨wholeBodies_of_answers, answers_of_wholeBodies⟩

/-- The message with id 1 and the data `A`. -/
def oneRequest : List Request := [⟨[8, 1, 18, 1, 65], by decide⟩]

/-- Its header and its body in two reads. -/
def twoReads : Cutting (oneRequest.flatMap Request.bytes) where
  completions := [⟨[0, 5], by decide, by decide⟩, ⟨[8, 1, 18, 1, 65], by decide, by decide⟩]
  whole := by decide

theorem not_answers : ¬ ∃ protobuf, Answers protobuf twoReads := by
  rintro ⟨protobuf, answers⟩
  have accept : useProtobuf.verdict [0, 5] = .accept () 5 := by decide +kernel
  have cut : useProtobuf.openBody ([0, 5] ++ []) = some 5 := openBody_open rfl accept (by decide)
  exact absurd (wholeBodies_of_answers answers 1) (by rw [show stream _ = [0, 5] ++ [] from rfl, cut]; simp)

end BoostLearn.Soundness.AsyncServerUseProtobuf
