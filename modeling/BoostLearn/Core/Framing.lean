import Mathlib.Data.List.Basic
import Mathlib.Tactic.Common

/-! # Length-prefixed framing of a byte stream

A framing reads a head of fixed size, which either is rejected or announces a tagged body of some
length. Parsing takes complete frames off the front of a stream until the head is rejected or the
bytes run out; what is left is the tail. The parse of a concatenation continues from the tail of
the first part, which is all a decoder that is fed the stream in pieces has to remember.
-/

namespace BoostLearn.Framing

variable {β τ : Type*}

/-- What a head says about the frame it starts. -/
inductive Verdict (τ : Type*) where
  | reject
  | accept (tag : τ) (length : ℕ)
deriving DecidableEq, Repr

structure Format (β τ : Type*) where
  headLength : ℕ
  headLength_pos : 0 < headLength
  verdict : List β → Verdict τ

/-- The complete frames of a stream, the head it was rejected at, and the bytes not consumed. -/
structure Parsed (β τ : Type*) where
  frames : List (τ × List β)
  rejected : Option (List β)
  tail : List β
deriving DecidableEq, Repr

namespace Parsed

def prepend (frames : List (τ × List β)) (parsed : Parsed β τ) : Parsed β τ :=
  { parsed with frames := frames ++ parsed.frames }

@[simp] theorem prepend_frames (frames : List (τ × List β)) (parsed : Parsed β τ) :
    (parsed.prepend frames).frames = frames ++ parsed.frames := rfl

@[simp] theorem prepend_rejected (frames : List (τ × List β)) (parsed : Parsed β τ) :
    (parsed.prepend frames).rejected = parsed.rejected := rfl

@[simp] theorem prepend_tail (frames : List (τ × List β)) (parsed : Parsed β τ) :
    (parsed.prepend frames).tail = parsed.tail := rfl

@[simp] theorem prepend_nil (parsed : Parsed β τ) : parsed.prepend [] = parsed := rfl

theorem prepend_prepend (first second : List (τ × List β)) (parsed : Parsed β τ) :
    (parsed.prepend second).prepend first = parsed.prepend (first ++ second) := by
  simp only [prepend, List.append_assoc]

end Parsed

namespace Format

variable (format : Format β τ)

/-- The reference parse of a stream. -/
def parse (bytes : List β) : Parsed β τ :=
  if bytes.length < format.headLength then ⟨[], none, bytes⟩
  else
    match format.verdict (bytes.take format.headLength) with
    | .reject => ⟨[], some (bytes.take format.headLength), bytes⟩
    | .accept tag length =>
      if format.headLength + length ≤ bytes.length then
        (parse (bytes.drop (format.headLength + length))).prepend
          [(tag, (bytes.drop format.headLength).take length)]
      else ⟨[], none, bytes⟩
termination_by bytes.length
decreasing_by
  have := format.headLength_pos
  simp only [List.length_drop]
  omega

/-- How many bytes of an announced body are missing, when the stream ends inside one. -/
def openBody (bytes : List β) : Option ℕ :=
  let parsed := format.parse bytes
  if parsed.rejected.isSome ∨ parsed.tail.length < format.headLength then none
  else
    match format.verdict (parsed.tail.take format.headLength) with
    | .reject => none
    | .accept _ length => some (format.headLength + length - parsed.tail.length)

/-- The stream begins with a head that is rejected. -/
def RejectsFirst (bytes : List β) : Prop :=
  ∃ head rest, bytes = head ++ rest ∧ head.length = format.headLength ∧ format.verdict head = .reject

variable {format}

theorem parse_short {bytes : List β} (short : bytes.length < format.headLength) :
    format.parse bytes = ⟨[], none, bytes⟩ := by
  rw [parse, if_pos short]

theorem parse_nil : format.parse [] = ⟨[], none, []⟩ :=
  parse_short format.headLength_pos

theorem parse_reject {head rest : List β} (whole : head.length = format.headLength)
    (verdict : format.verdict head = .reject) :
    format.parse (head ++ rest) = ⟨[], some head, head ++ rest⟩ := by
  rw [parse, if_neg (by simp only [List.length_append]; omega), List.take_left' whole, verdict]

theorem parse_open {head body : List β} {tag : τ} {length : ℕ}
    (whole : head.length = format.headLength) (verdict : format.verdict head = .accept tag length)
    (missing : body.length < length) :
    format.parse (head ++ body) = ⟨[], none, head ++ body⟩ := by
  rw [parse, if_neg (by simp only [List.length_append]; omega), List.take_left' whole, verdict]
  simp only [List.length_append]
  rw [if_neg (by omega)]

theorem parse_frame {head body rest : List β} {tag : τ}
    (whole : head.length = format.headLength)
    (verdict : format.verdict head = .accept tag body.length) :
    format.parse (head ++ (body ++ rest)) = (format.parse rest).prepend [(tag, body)] := by
  have dropped : (head ++ (body ++ rest)).drop (format.headLength + body.length) = rest := by
    rw [← List.append_assoc, List.drop_left' (by simp only [List.length_append]; omega)]
  rw [parse, if_neg (by simp only [List.length_append]; omega), List.take_left' whole, verdict]
  dsimp only
  rw [if_pos (by simp only [List.length_append]; omega), dropped, List.drop_left' whole,
    List.take_left' rfl]

/-- A stream that is exactly one frame. -/
theorem parse_whole {head body : List β} {tag : τ} (whole : head.length = format.headLength)
    (verdict : format.verdict head = .accept tag body.length) :
    format.parse (head ++ body) = ⟨[(tag, body)], none, []⟩ := by
  have frame : format.parse (head ++ (body ++ [])) = _ := parse_frame whole verdict
  rw [List.append_nil, parse_nil] at frame
  rw [frame]
  rfl

/-- Every stream begins in one of four ways, one for each way the parse goes on. -/
theorem stream_cases (format : Format β τ) (bytes : List β) :
    bytes.length < format.headLength ∨
    ∃ head rest, bytes = head ++ rest ∧ head.length = format.headLength ∧
      (format.verdict head = .reject ∨
        (∃ tag length, format.verdict head = .accept tag length ∧ rest.length < length) ∨
        ∃ tag body more, format.verdict head = .accept tag body.length ∧ rest = body ++ more) := by
  by_cases short : bytes.length < format.headLength
  · exact Or.inl short
  refine Or.inr ⟨bytes.take format.headLength, bytes.drop format.headLength,
    (List.take_append_drop ..).symm, by rw [List.length_take]; omega, ?_⟩
  generalize bytes.take format.headLength = head
  generalize bytes.drop format.headLength = rest
  cases verdict : format.verdict head with
  | reject => exact Or.inl rfl
  | accept tag length =>
    apply Or.inr
    by_cases missing : rest.length < length
    · exact Or.inl ⟨tag, length, rfl, missing⟩
    · have size : (rest.take length).length = length := by rw [List.length_take]; omega
      exact Or.inr ⟨tag, rest.take length, rest.drop length, by rw [size],
        (List.take_append_drop ..).symm⟩

/-- Induction along the frames of a stream. -/
theorem stream_induction (format : Format β τ) {motive : List β → Prop}
    (short : ∀ bytes, bytes.length < format.headLength → motive bytes)
    (reject : ∀ head rest, head.length = format.headLength → format.verdict head = .reject →
      motive (head ++ rest))
    (unfinished : ∀ head rest tag length, head.length = format.headLength →
      format.verdict head = .accept tag length → rest.length < length → motive (head ++ rest))
    (frame : ∀ head body rest tag, head.length = format.headLength →
      format.verdict head = .accept tag body.length → motive rest → motive (head ++ (body ++ rest)))
    (bytes : List β) : motive bytes := by
  induction size : bytes.length using Nat.strongRecOn generalizing bytes with
  | ind size ih =>
    rcases format.stream_cases bytes with less | ⟨head, rest, rfl, whole, verdict |
      ⟨tag, length, verdict, missing⟩ | ⟨tag, body, more, verdict, rfl⟩⟩
    · exact short bytes less
    · exact reject head rest whole verdict
    · exact unfinished head rest tag length whole verdict missing
    · have := format.headLength_pos
      refine frame head body more tag whole verdict (ih more.length ?_ more rfl)
      simp only [List.length_append] at size
      omega

/-- A parse without frames has consumed nothing. -/
theorem parse_frames_nil {bytes : List β} (accepted : (format.parse bytes).rejected = none)
    (nothing : (format.parse bytes).frames = []) : (format.parse bytes).tail = bytes := by
  rcases format.stream_cases bytes with less | ⟨head, rest, rfl, whole, verdict |
    ⟨tag, length, verdict, missing⟩ | ⟨tag, body, more, verdict, rfl⟩⟩
  · rw [parse_short less]
  · rw [parse_reject whole verdict] at accepted
    cases accepted
  · rw [parse_open whole verdict missing]
  · rw [parse_frame whole verdict] at nothing
    cases nothing

/-- The only stream that parses into one frame and nothing else is that frame. -/
theorem eq_of_parse_whole {bytes body : List β} {tag : τ}
    (parsed : format.parse bytes = ⟨[(tag, body)], none, []⟩) :
    ∃ head, bytes = head ++ body ∧ head.length = format.headLength ∧
      format.verdict head = .accept tag body.length := by
  rcases format.stream_cases bytes with less | ⟨head, rest, rfl, whole, verdict |
    ⟨tag, length, verdict, missing⟩ | ⟨tag', body', more, verdict, rfl⟩⟩
  · rw [parse_short less] at parsed
    cases parsed
  · rw [parse_reject whole verdict] at parsed
    cases parsed
  · rw [parse_open whole verdict missing] at parsed
    cases parsed
  · rw [parse_frame whole verdict] at parsed
    have frames := congrArg Parsed.frames parsed
    have accepted := congrArg Parsed.rejected parsed
    have tail := congrArg Parsed.tail parsed
    simp only [Parsed.prepend_frames, List.singleton_append, List.cons.injEq, Prod.mk.injEq] at frames
    simp only [Parsed.prepend_rejected, Parsed.prepend_tail] at accepted tail
    obtain ⟨⟨rfl, rfl⟩, nothing⟩ := frames
    have empty : more = [] := by
      have same := parse_frames_nil accepted nothing
      rw [tail] at same
      exact same.symm
    exact ⟨head, by rw [empty, List.append_nil], whole, verdict⟩

/-- A stream that is not rejected parses on from the tail of its first part. -/
theorem parse_append {first : List β} (accepted : (format.parse first).rejected = none)
    (second : List β) :
    format.parse (first ++ second) =
      (format.parse ((format.parse first).tail ++ second)).prepend (format.parse first).frames := by
  induction first using format.stream_induction with
  | short bytes less => rw [parse_short less, Parsed.prepend_nil]
  | reject head rest whole verdict => rw [parse_reject whole verdict] at accepted; contradiction
  | unfinished head rest tag length whole verdict missing =>
    rw [parse_open whole verdict missing, Parsed.prepend_nil]
  | frame head body rest tag whole verdict ih =>
    rw [parse_frame whole verdict] at accepted ⊢
    have step : (head ++ (body ++ rest)) ++ second = head ++ (body ++ (rest ++ second)) := by
      simp only [List.append_assoc]
    rw [step, parse_frame whole verdict, ih accepted]
    simp only [Parsed.prepend_prepend, Parsed.prepend_frames, Parsed.prepend_tail]

/-- Nothing after a rejected head changes the frames before it. -/
theorem parse_append_rejected {first head : List β}
    (rejected : (format.parse first).rejected = some head) (second : List β) :
    (format.parse (first ++ second)).frames = (format.parse first).frames ∧
      (format.parse (first ++ second)).rejected = some head := by
  induction first using format.stream_induction with
  | short bytes less => rw [parse_short less] at rejected; contradiction
  | reject head' rest whole verdict =>
    rw [parse_reject whole verdict] at rejected ⊢
    rw [List.append_assoc, parse_reject whole verdict]
    exact ⟨rfl, rejected⟩
  | unfinished head' rest tag length whole verdict missing =>
    rw [parse_open whole verdict missing] at rejected; contradiction
  | frame head' body rest tag whole verdict ih =>
    rw [parse_frame whole verdict] at rejected ⊢
    have step : (head' ++ (body ++ rest)) ++ second = head' ++ (body ++ (rest ++ second)) := by
      simp only [List.append_assoc]
    obtain ⟨frames, at_head⟩ := ih rejected
    rw [step, parse_frame whole verdict]
    exact ⟨by simp only [Parsed.prepend_frames, frames], at_head⟩

/-- What follows a whole number of frames is parsed on its own. -/
theorem parse_boundary {first : List β} {frames : List (τ × List β)}
    (parsed : format.parse first = ⟨frames, none, []⟩) (second : List β) :
    format.parse (first ++ second) = (format.parse second).prepend frames := by
  rw [parse_append (by rw [parsed]), parsed, List.nil_append]

/-- More of a stream adds frames at the end. -/
theorem parse_frames_later (first second : List β) :
    (format.parse first).frames <+: (format.parse (first ++ second)).frames := by
  cases rejected : (format.parse first).rejected with
  | none =>
    rw [parse_append rejected]
    exact List.prefix_append _ _
  | some head => exact ⟨[], by rw [List.append_nil, (parse_append_rejected rejected second).1]⟩

/-- Every frame has a head that the format accepts. -/
theorem accepted_of_mem {bytes : List β} {frame : τ × List β} (member : frame ∈ (format.parse bytes).frames) :
    ∃ head, format.verdict head = .accept frame.1 frame.2.length := by
  induction bytes using format.stream_induction with
  | short bytes less =>
    rw [parse_short less] at member
    cases member
  | reject head rest whole verdict =>
    rw [parse_reject whole verdict] at member
    cases member
  | unfinished head rest tag length whole verdict missing =>
    rw [parse_open whole verdict missing] at member
    cases member
  | frame head body rest tag whole verdict ih =>
    rw [parse_frame whole verdict] at member
    obtain rfl | later := List.mem_cons.mp member
    · exact ⟨head, verdict⟩
    · exact ih later

/-- What is not rejected has no part that is. -/
theorem parse_accepted {first second : List β}
    (accepted : (format.parse (first ++ second)).rejected = none) :
    (format.parse first).rejected = none := by
  cases rejected : (format.parse first).rejected with
  | none => rfl
  | some head =>
    rw [(parse_append_rejected rejected second).2] at accepted
    contradiction

/-- The tail is a suffix that the parse does not consume: parsing it again yields nothing. -/
theorem parse_tail {bytes : List β} (accepted : (format.parse bytes).rejected = none) :
    format.parse (format.parse bytes).tail = ⟨[], none, (format.parse bytes).tail⟩ := by
  induction bytes using format.stream_induction with
  | short bytes less => rw [parse_short less, parse_short less]
  | reject head rest whole verdict => rw [parse_reject whole verdict] at accepted; contradiction
  | unfinished head rest tag length whole verdict missing =>
    rw [parse_open whole verdict missing, parse_open whole verdict missing]
  | frame head body rest tag whole verdict ih =>
    rw [parse_frame whole verdict] at accepted ⊢
    exact ih accepted

/-- A tail is a partial head, or a head whose body has not arrived. -/
theorem tail_cases {bytes : List β} (accepted : (format.parse bytes).rejected = none) :
    (format.parse bytes).tail.length < format.headLength ∨
    ∃ head body tag length, (format.parse bytes).tail = head ++ body ∧
      head.length = format.headLength ∧ format.verdict head = .accept tag length ∧
      body.length < length := by
  have again := parse_tail accepted
  generalize (format.parse bytes).tail = tail at again
  rcases format.stream_cases tail with less | ⟨head, rest, rfl, whole, verdict |
    ⟨tag, length, verdict, missing⟩ | ⟨tag, body, more, verdict, rfl⟩⟩
  · exact Or.inl less
  · rw [parse_reject whole verdict] at again
    simp only [Parsed.mk.injEq, reduceCtorEq, false_and, and_false] at again
  · exact Or.inr ⟨head, rest, tag, length, rfl, whole, verdict, missing⟩
  · rw [parse_frame whole verdict] at again
    have impossible := congrArg Parsed.frames again
    simp only [Parsed.prepend_frames, List.cons_append, List.nil_append, reduceCtorEq] at impossible

/-- Nothing is missing where the tail is less than a head. -/
theorem openBody_of_tail {bytes : List β}
    (short : (format.parse bytes).tail.length < format.headLength) :
    format.openBody bytes = none := by
  simp only [openBody]
  rw [if_pos (Or.inr short)]

theorem openBody_short {bytes : List β} (short : bytes.length < format.headLength) :
    format.openBody bytes = none := by
  apply openBody_of_tail
  rwa [parse_short short]

theorem openBody_open {head body : List β} {tag : τ} {length : ℕ}
    (whole : head.length = format.headLength) (verdict : format.verdict head = .accept tag length)
    (missing : body.length < length) :
    format.openBody (head ++ body) = some (length - body.length) := by
  simp only [openBody, parse_open whole verdict missing]
  rw [if_neg (by simp only [Option.isSome_none, Bool.false_eq_true, false_or, List.length_append]; omega),
    List.take_left' whole, verdict]
  simp only [List.length_append, Option.some.injEq]
  omega

theorem openBody_rejected {bytes : List β} (rejected : (format.parse bytes).rejected.isSome) :
    format.openBody bytes = none := by
  simp only [openBody]
  rw [if_pos (Or.inl rejected)]

/-- Only the tail matters for what is missing. -/
theorem openBody_append {first : List β} (accepted : (format.parse first).rejected = none)
    (second : List β) :
    format.openBody (first ++ second) = format.openBody ((format.parse first).tail ++ second) := by
  simp only [openBody, parse_append accepted, Parsed.prepend_rejected, Parsed.prepend_tail]

/-- Inside a body, the tail is its head and what has come of it. -/
theorem openBody_some {bytes : List β} {missing : ℕ} (inside : format.openBody bytes = some missing) :
    (format.parse bytes).rejected = none ∧
      ∃ head body tag length, (format.parse bytes).tail = head ++ body ∧
        head.length = format.headLength ∧ format.verdict head = .accept tag length ∧
        body.length < length ∧ missing = length - body.length := by
  cases rejected : (format.parse bytes).rejected with
  | some head =>
    rw [openBody_rejected (by rw [rejected]; rfl)] at inside
    contradiction
  | none =>
    have same := openBody_append rejected []
    rw [List.append_nil, List.append_nil] at same
    rw [same] at inside
    rcases tail_cases rejected with short | ⟨head, body, tag, length, split, whole, verdict, missing'⟩
    · rw [openBody_short short] at inside
      contradiction
    · rw [split, openBody_open whole verdict missing', Option.some.injEq] at inside
      exact ⟨rfl, head, body, tag, length, split, whole, verdict, missing', inside.symm⟩

/-- Fewer bytes than are missing leave the body open. -/
theorem openBody_more {bytes more : List β} {missing : ℕ}
    (inside : format.openBody bytes = some missing) (less : more.length < missing) :
    format.openBody (bytes ++ more) = some (missing - more.length) := by
  obtain ⟨accepted, head, body, tag, length, split, whole, verdict, -, rfl⟩ := openBody_some inside
  rw [openBody_append accepted, split, List.append_assoc, openBody_open whole verdict
    (by rw [List.length_append]; omega), List.length_append, Nat.sub_sub]

end Format

end BoostLearn.Framing
