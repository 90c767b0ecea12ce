import BoostLearn.Soundness.Delivery

/-! # Reads that do not end inside a body

While no read ends inside a body, a session is between two frames or inside a header behind every handler,
holding what the reference parse of its whole stream has left. A read then emits exactly the frames that the
parse gains, and arms the next one unless the parse stops.
-/

namespace BoostLearn.Soundness.HandleRead.Reader

open Framing Framing.Format Model Model.HandleRead

variable {τ ε : Type} {reader : Reader τ ε} {session : Session τ} {stream : List UInt8} {completion : Completion}

/-- What a read of a session that has read this stream leaves behind. -/
structure Gains (reader : Reader τ ε) (stream : List UInt8) (completion : Completion) (done : Done τ ε) : Prop where
  outs : ∃ frames, (reader.format.parse (stream ++ completion.bytes)).frames =
      (reader.format.parse stream).frames ++ frames ∧
    done.effects.filterMap Effect.out? = frames.map fun frame => reader.early frame.1 frame.2
  reading : done.reading = (reader.format.parse (stream ++ completion.bytes)).rejected.isNone
  cleared : done.cleared = (reader.format.parse (stream ++ completion.bytes)).rejected.isSome
  atHead : (reader.format.parse (stream ++ completion.bytes)).rejected = none →
    reader.AtHead done.session (reader.format.parse (stream ++ completion.bytes)).tail

/-- Inside a body there is an open one. -/
theorem atHead_of_holds {bytes : List UInt8} (accepted : (reader.format.parse bytes).rejected = none)
    (uncut : reader.format.openBody bytes = none)
    (holds : reader.Holds session (reader.format.parse bytes).tail) :
    reader.AtHead session (reader.format.parse bytes).tail := by
  obtain atHead | ⟨head, body, tag, length, split, whole, verdict, missing, -⟩ := holds
  · exact atHead
  · have open_ := openBody_open whole verdict missing
    have same := openBody_append accepted []
    rw [List.append_nil, List.append_nil, split, open_, uncut] at same
    cases same

theorem handleRead_uncut (atHead : reader.AtHead session (reader.format.parse stream).tail)
    (accepted : (reader.format.parse stream).rejected = none)
    (heads : ∀ head, (reader.format.parse (stream ++ completion.bytes)).rejected = some head → reader.refused head)
    (uncut : reader.format.openBody (stream ++ completion.bytes) = none) {fuel : ℕ}
    (enough : completion.bytes.length < fuel) :
    ∃ done, reader.codec.handleRead fuel session (some completion.bytes) = some (.ok done) ∧
      reader.Gains stream completion done := by
  have parsed := parse_append accepted completion.bytes
  have frames : (reader.format.parse (stream ++ completion.bytes)).frames = (reader.format.parse stream).frames ++
      (reader.format.parse ((reader.format.parse stream).tail ++ completion.bytes)).frames := by
    rw [parsed, Parsed.prepend_frames]
  have rejected : (reader.format.parse (stream ++ completion.bytes)).rejected =
      (reader.format.parse ((reader.format.parse stream).tail ++ completion.bytes)).rejected := by
    rw [parsed, Parsed.prepend_rejected]
  have tail : (reader.format.parse (stream ++ completion.bytes)).tail =
      (reader.format.parse ((reader.format.parse stream).tail ++ completion.bytes)).tail := by
    rw [parsed, Parsed.prepend_tail]
  have judged : reader.Judged ((reader.format.parse stream).tail ++ completion.bytes) :=
    fun head stops unrefused => absurd (heads head (rejected.trans stops)) unrefused
  obtain ⟨result, agrees, ran⟩ := handleRead_agrees atHead completion judged
  obtain ⟨outs, -, clears, reads⟩ := emitted_calls reader
    (reader.format.parse ((reader.format.parse stream).tail ++ completion.bytes)).frames
  rw [Agrees] at agrees
  split at agrees
  · next goesOn =>
    obtain ⟨next, rfl, holds⟩ := agrees
    refine ⟨_, ran fuel enough, ⟨_, frames, ?_⟩, ?_, ?_, fun going => ?_⟩
    · simp only [List.nil_append, List.filterMap_append, outs]
      exact List.append_nil _
    · rw [rejected, goesOn]
      simp [Done.reading, Effect.isRead]
    · rw [rejected, goesOn, Done.cleared, List.nil_append, List.any_append, clears]
      rfl
    · rw [← tail] at holds
      exact atHead_of_holds going uncut holds
  · next head stops =>
    obtain ⟨next, rfl⟩ := agrees.1 (heads head (rejected.trans stops))
    refine ⟨_, ran fuel enough, ⟨_, frames, ?_⟩, ?_, ?_, fun going => ?_⟩
    · simp only [List.nil_append, List.filterMap_append, outs]
      exact List.append_nil _
    · rw [rejected, stops, Done.reading, List.nil_append, List.any_append, reads]
      rfl
    · rw [rejected, stops]
      simp [Done.cleared, Effect.isClear]
    · cases (going.symm.trans rejected).trans stops

/-- Where every rejected head that is not refused is a fault, a handler that returns has met none of these. -/
theorem heads_of_returns (atHead : reader.AtHead session (reader.format.parse stream).tail)
    (accepted : (reader.format.parse stream).rejected = none) (faulty : ∀ head, reader.faulty head) {fuel : ℕ}
    (enough : completion.bytes.length < fuel) {done : Done τ ε}
    (returned : reader.codec.handleRead fuel session (some completion.bytes) = some (.ok done)) :
    ∀ head, (reader.format.parse (stream ++ completion.bytes)).rejected = some head → reader.refused head := by
  intro head stops
  by_contra unrefused
  have parsed := parse_append accepted completion.bytes
  have rejected : (reader.format.parse ((reader.format.parse stream).tail ++ completion.bytes)).rejected =
      some head := by
    rw [← stops, parsed, Parsed.prepend_rejected]
  obtain ⟨result, agrees, ran⟩ := handleRead_agrees atHead completion fun head _ _ => faulty head
  rw [Agrees, rejected] at agrees
  obtain ⟨fault, rfl⟩ := agrees.2 unrefused
  cases (ran fuel enough).symm.trans returned

end BoostLearn.Soundness.HandleRead.Reader
