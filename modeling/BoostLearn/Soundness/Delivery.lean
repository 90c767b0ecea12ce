import BoostLearn.Soundness.HandleRead

/-! # Delivering a stream in pieces

A stream cut into completions reaches the reference parse exactly when two things do not happen:
the parse stops at a head the codec does not refuse, and a cut falls inside a body although the
stream goes on behind that body. In every other delivery each frame is emitted once and in order,
by the first completion branch unless the stream ends with a body that was cut.
-/

namespace BoostLearn.Soundness.HandleRead

open CInt Memory Framing Framing.Format Model Model.HandleRead

@[simp] theorem stream_nil : stream [] = [] := rfl

@[simp] theorem stream_cons (completion : Completion) (rest : List Completion) :
    stream (completion :: rest) = completion.bytes ++ stream rest := List.flatMap_cons ..

theorem stream_take_append_drop (count : ℕ) (completions : List Completion) :
    stream (completions.take count) ++ stream (completions.drop count) = stream completions := by
  rw [stream, stream, ← List.flatMap_append, List.take_append_drop, stream]

namespace Reader

variable {τ ε : Type} (reader : Reader τ ε)

/-- The parse stops only at a refused head, and nothing follows a body that was cut. -/
structure Clean (held : List UInt8) (completions : List Completion) : Prop where
  heads : ∀ head, (reader.format.parse (held ++ stream completions)).rejected = some head →
    reader.refused head
  cuts : ∀ count missing,
    reader.format.openBody (held ++ stream (completions.take count)) = some missing →
      (stream (completions.drop count)).length ≤ missing

/-- The stream ends exactly with a body that was cut. -/
def Continued (held : List UInt8) (completions : List Completion) : Prop :=
  ∃ count missing,
    reader.format.openBody (held ++ stream (completions.take count)) = some missing ∧
      (stream (completions.drop count)).length = missing

variable {reader} {held : List UInt8} {completion : Completion} {rest : List Completion}

theorem openBody_later (accepted : (reader.format.parse (held ++ completion.bytes)).rejected = none)
    (count : ℕ) :
    reader.format.openBody (held ++ stream ((completion :: rest).take (count + 1))) =
      reader.format.openBody
        ((reader.format.parse (held ++ completion.bytes)).tail ++ stream (rest.take count)) := by
  rw [List.take_succ_cons, stream_cons, ← List.append_assoc, openBody_append accepted]

theorem no_cut_at_head (short : held.length < reader.format.headLength)
    {completions : List Completion} {missing : ℕ} :
    reader.format.openBody (held ++ stream (completions.take 0)) ≠ some missing := by
  rw [List.take_zero, stream_nil, List.append_nil, openBody_short short]
  simp

/-- Both notions pass from the held bytes to the tail of a parse that goes on. -/
theorem clean_cons (short : held.length < reader.format.headLength)
    (accepted : (reader.format.parse (held ++ completion.bytes)).rejected = none) :
    reader.Clean held (completion :: rest) ↔
      reader.Clean (reader.format.parse (held ++ completion.bytes)).tail rest := by
  have whole : (reader.format.parse (held ++ stream (completion :: rest))).rejected =
      (reader.format.parse ((reader.format.parse (held ++ completion.bytes)).tail ++
        stream rest)).rejected := by
    rw [stream_cons, ← List.append_assoc, parse_append accepted, Parsed.prepend_rejected]
  constructor
  · rintro ⟨heads, cuts⟩
    rw [whole] at heads
    refine ⟨heads, fun count missing cut => cuts (count + 1) missing ?_⟩
    rwa [openBody_later accepted]
  · rintro ⟨heads, cuts⟩
    refine ⟨by rw [whole]; exact heads, ?_⟩
    rintro (_ | count) missing cut
    · exact absurd cut (no_cut_at_head short)
    · exact cuts count missing (by rwa [openBody_later accepted] at cut)

theorem continued_cons (short : held.length < reader.format.headLength)
    (accepted : (reader.format.parse (held ++ completion.bytes)).rejected = none) :
    reader.Continued held (completion :: rest) ↔
      reader.Continued (reader.format.parse (held ++ completion.bytes)).tail rest := by
  constructor
  · rintro ⟨_ | count, missing, cut, left⟩
    · exact absurd cut (no_cut_at_head short)
    · exact ⟨count, missing, by rwa [openBody_later accepted] at cut, left⟩
  · rintro ⟨count, missing, cut, left⟩
    exact ⟨count + 1, missing, by rwa [openBody_later accepted], left⟩

/-- A rejected read ends the parse, whatever is delivered after it. -/
theorem openBody_after_reject {head : List UInt8} (short : held.length < reader.format.headLength)
    (rejected : (reader.format.parse (held ++ completion.bytes)).rejected = some head) (count : ℕ) :
    reader.format.openBody (held ++ stream ((completion :: rest).take count)) = none := by
  cases count with
  | zero => rw [List.take_zero, stream_nil, List.append_nil, openBody_short short]
  | succ count =>
    rw [List.take_succ_cons, stream_cons, ← List.append_assoc]
    exact openBody_rejected (by rw [(parse_append_rejected rejected _).2]; rfl)

theorem clean_of_reject {head : List UInt8} (short : held.length < reader.format.headLength)
    (rejected : (reader.format.parse (held ++ completion.bytes)).rejected = some head) :
    reader.Clean held (completion :: rest) ↔ reader.refused head := by
  have whole : (reader.format.parse (held ++ stream (completion :: rest))).rejected = some head := by
    rw [stream_cons, ← List.append_assoc, (parse_append_rejected rejected _).2]
  constructor
  · exact fun clean => clean.heads head whole
  · refine fun refused => ⟨fun other at_other => ?_, fun count missing cut => ?_⟩
    · rw [whole, Option.some.injEq] at at_other
      exact at_other ▸ refused
    · rw [openBody_after_reject short rejected] at cut
      contradiction

section Open

variable {head body : List UInt8} {tag : τ} {length : ℕ} {completions : List Completion}

/-- With a body begun, what is left must not go beyond it. -/
theorem clean_open (whole : head.length = reader.format.headLength)
    (verdict : reader.format.verdict head = .accept tag length) (missing : body.length < length) :
    reader.Clean (head ++ body) completions ↔ (stream completions).length ≤ length - body.length := by
  constructor
  · intro clean
    apply clean.cuts 0
    rw [List.take_zero, stream_nil, List.append_nil, openBody_open whole verdict missing]
  · intro fits
    have parsed (bytes : List UInt8) (le : bytes.length ≤ length - body.length) :
        (reader.format.parse (head ++ body ++ bytes)).rejected = none ∧
          ∀ left, reader.format.openBody (head ++ body ++ bytes) = some left →
            left = length - body.length - bytes.length := by
      rw [List.append_assoc]
      by_cases unfinished : (body ++ bytes).length < length
      · rw [parse_open whole verdict unfinished, openBody_open whole verdict unfinished]
        refine ⟨rfl, fun left same => ?_⟩
        simp only [List.length_append, Option.some.injEq] at same
        omega
      · have size : length = (body ++ bytes).length := by
          simp only [List.length_append] at unfinished ⊢
          omega
        rw [size] at verdict
        have frame := parse_whole whole verdict
        have closed : reader.format.openBody (head ++ (body ++ bytes)) = none := by
          apply openBody_of_tail
          rw [frame]
          exact reader.format.headLength_pos
        exact ⟨by rw [frame], fun left same => by rw [closed] at same; contradiction⟩
    refine ⟨fun other at_other => ?_, fun count left cut => ?_⟩
    · rw [(parsed _ fits).1] at at_other
      contradiction
    · have split := congrArg List.length (stream_take_append_drop count completions)
      rw [List.length_append] at split
      rw [(parsed _ (by omega)).2 left cut]
      omega

/-- A begun body is continued to the end of the stream, or it stays unfinished. -/
theorem continued_open (whole : head.length = reader.format.headLength)
    (verdict : reader.format.verdict head = .accept tag length) (missing : body.length < length)
    (fits : (stream completions).length ≤ length - body.length) :
    reader.Continued (head ++ body) completions ↔
      (stream completions).length = length - body.length := by
  constructor
  · rintro ⟨count, left, cut, exact_end⟩
    have split := congrArg List.length (stream_take_append_drop count completions)
    rw [List.length_append] at split
    by_cases unfinished : (body ++ stream (completions.take count)).length < length
    · rw [List.append_assoc, openBody_open whole verdict unfinished] at cut
      simp only [List.length_append, Option.some.injEq] at cut
      omega
    · simp only [List.length_append] at unfinished
      omega
  · intro exact_end
    refine ⟨0, _, ?_, exact_end⟩
    rw [List.take_zero, stream_nil, List.append_nil, openBody_open whole verdict missing]

end Open

section Deliver

variable {session : Session τ} {tag : τ} {length fuel : ℕ} {body : List UInt8}
  {completions : List Completion} {effects : List (Effect ε)}

/-- A handler that re-arms hands its session and its calls on to the next completion. -/
private theorem deliver_reading {next : Done τ ε}
    (ran : reader.codec.handleRead fuel session (some completion.bytes) = some (.ok next))
    (reading : next.reading = true) :
    reader.codec.deliver fuel ⟨session, effects⟩ (completion :: rest) =
      reader.codec.deliver fuel ⟨next.session, effects ++ next.effects⟩ rest := by
  rw [Codec.deliver]
  simp only [ran, if_pos reading]

private theorem deliver_stopped {next : Done τ ε}
    (ran : reader.codec.handleRead fuel session (some completion.bytes) = some (.ok next))
    (stopped : next.reading = false) :
    reader.codec.deliver fuel ⟨session, effects⟩ (completion :: rest) =
      some (.ok ⟨next.session, effects ++ next.effects⟩) := by
  rw [Codec.deliver]
  simp only [ran, stopped, Bool.false_eq_true, if_false]

/-- A handler whose last call arms the next read. -/
theorem reading_of_rearm (next : Session τ) (calls : List (Effect ε)) :
    Done.reading (⟨next, [] ++ (calls ++ [.asyncReadSome])⟩ : Done τ ε) = true := by
  simp [Done.reading, Effect.isRead]

/-- Reads that do not end a begun body only re-arm. -/
theorem deliver_unfinished (effects : List (Effect ε)) (inBody : reader.InBody session tag length held)
    (missing : held.length + (stream completions).length < length) :
    ∃ next, ∀ fuel, 0 < fuel → reader.codec.deliver fuel ⟨session, effects⟩ completions =
      some (.ok ⟨next, effects ++ List.replicate completions.length .asyncReadSome⟩) := by
  induction completions generalizing session held effects with
  | nil => exact ⟨session, fun fuel _ => by simp [Codec.deliver]⟩
  | cons completion rest ih =>
    rw [stream_cons, List.length_append] at missing
    obtain ⟨next, holds, ran⟩ := handleRead_moreBody inBody completion (by omega)
    obtain ⟨last, delivered⟩ := ih (effects ++ [.asyncReadSome]) holds
      (by rw [List.length_append]; omega)
    refine ⟨last, fun fuel enough => ?_⟩
    rw [deliver_reading (ran fuel enough) rfl, delivered fuel enough, List.append_assoc,
      List.length_cons, List.replicate_succ, List.singleton_append]

/-- The reads of a begun body that ends with the stream emit it once, by the second branch. -/
theorem deliver_finished (effects : List (Effect ε)) (inBody : reader.InBody session tag length held)
    (missing : held.length < length)
    (ends : held.length + (stream completions).length = length) :
    ∃ next after reads, after.bHeadParse = true ∧ ∀ fuel, 0 < fuel →
      reader.codec.deliver fuel ⟨session, effects⟩ completions =
        some (.ok ⟨next, effects ++ (List.replicate reads .asyncReadSome ++
          [.emit (reader.late tag (held ++ stream completions)) after, .asyncReadSome])⟩) := by
  induction completions generalizing session held effects with
  | nil =>
    rw [stream_nil, List.length_nil] at ends
    omega
  | cons completion rest ih =>
    rw [stream_cons, List.length_append] at ends
    by_cases more : held.length + completion.bytes.length < length
    · obtain ⟨next, holds, ran⟩ := handleRead_moreBody inBody completion more
      obtain ⟨last, after, reads, flag, delivered⟩ := ih (effects ++ [.asyncReadSome]) holds
        (by rwa [List.length_append]) (by rw [List.length_append]; omega)
      refine ⟨last, after, reads + 1, flag, fun fuel enough => ?_⟩
      rw [deliver_reading (ran fuel enough) rfl, delivered fuel enough, List.replicate_succ,
        stream_cons]
      simp only [List.append_assoc, List.nil_append, List.cons_append]
    · have exhausted : rest = [] := by
        cases rest with
        | nil => rfl
        | cons next rest =>
          have := next.nonempty
          rw [stream_cons, List.length_append] at ends
          omega
      have whole : (held ++ completion.bytes).length = length := by
        rw [List.length_append]
        omega
      obtain ⟨next, after, flag, -, ran⟩ := handleRead_endBody completion (by rwa [whole])
      refine ⟨next, after, 0, flag, fun fuel enough => ?_⟩
      rw [exhausted, deliver_reading (ran fuel enough) rfl, stream_cons, stream_nil,
        List.append_nil]
      rfl

/-- A stream that goes on behind a begun body never comes to an end. -/
theorem deliver_past (fuel : ℕ) (inBody : reader.InBody session tag length held)
    (past : length < held.length + (stream completions).length) :
    reader.codec.deliver fuel ⟨session, effects⟩ completions = none := by
  induction completions generalizing session held effects with
  | nil =>
    have fits := inBody.held_le
    rw [stream_nil, List.length_nil] at past
    omega
  | cons completion rest ih =>
    rw [stream_cons, List.length_append] at past
    have diverged (stuck : reader.codec.handleRead fuel session (some completion.bytes) = none) :
        reader.codec.deliver fuel ⟨session, effects⟩ (completion :: rest) = none := by
      rw [Codec.deliver]
      simp only [stuck]
    obtain rfl | enough := Nat.eq_zero_or_pos fuel
    · exact diverged rfl
    rcases Nat.lt_trichotomy (held.length + completion.bytes.length) length with more | whole | beyond
    · obtain ⟨next, holds, ran⟩ := handleRead_moreBody inBody completion more
      rw [deliver_reading (ran fuel enough) rfl]
      exact ih holds (by rw [List.length_append]; omega)
    · obtain rfl : length = (held ++ completion.bytes).length := by rw [List.length_append, whole]
      obtain ⟨next, after, -, holds, ran⟩ := handleRead_endBody completion inBody
      rw [deliver_reading (ran fuel enough) rfl]
      exact ih holds (by rw [List.length_append]; omega)
    · exact diverged (handleRead_diverges fuel inBody completion beyond)

variable (reader) in
/-- What a clean delivery has called. Each frame is emitted once and in order and leaves the
decoder reset, except that the frame which ends a stream inside a cut body takes the other branch
and leaves the flag set. -/
structure Emits (extra : List (Effect ε)) (parsed : Parsed UInt8 τ) (continued : Prop) : Prop where
  cleared : extra.any Effect.isClear = parsed.rejected.isSome
  whole : ¬ continued →
    extra.filterMap Effect.out? = parsed.frames.map (fun frame => reader.early frame.1 frame.2) ∧
      ∀ after ∈ extra.filterMap Effect.frameEnd?, after = ⟨false, 0, some 0⟩
  cut : continued → ∃ frames tag body after, parsed.frames = frames ++ [(tag, body)] ∧
    extra.filterMap Effect.out? =
      frames.map (fun frame => reader.early frame.1 frame.2) ++ [reader.late tag body] ∧
    after ∈ extra.filterMap Effect.frameEnd? ∧ after.bHeadParse = true

/-- When both branches emit the same, so does a clean delivery, wherever the stream is cut. -/
theorem Emits.outs {extra : List (Effect ε)} {parsed : Parsed UInt8 τ} {continued : Prop}
    (emits : reader.Emits extra parsed continued)
    (same : ∀ tag body, reader.late tag body = reader.early tag body) :
    extra.filterMap Effect.out? = parsed.frames.map (fun frame => reader.early frame.1 frame.2) := by
  by_cases cut : continued
  · obtain ⟨frames, tag, body, after, split, outs, -⟩ := emits.cut cut
    rw [outs, split, same, List.map_append]
    rfl
  · exact (emits.whole cut).1

variable (reader) in
theorem emitted_calls (frames : List (τ × List UInt8)) :
    (reader.emitted frames).filterMap Effect.out? =
        frames.map (fun frame => reader.early frame.1 frame.2) ∧
      (∀ after ∈ (reader.emitted frames).filterMap Effect.frameEnd?, after = ⟨false, 0, some 0⟩) ∧
      (reader.emitted frames).any Effect.isClear = false ∧
      (reader.emitted frames).any Effect.isRead = false := by
  induction frames with
  | nil => simp [emitted]
  | cons frame rest ih =>
    obtain ⟨outs, ends, clears, reads⟩ := ih
    simp only [emitted] at outs ends clears reads ⊢
    simp only [List.map_cons, List.filterMap_cons, Effect.out?, outs, Effect.frameEnd?,
      List.mem_cons, forall_eq_or_imp, true_and, List.any_cons, Effect.isClear, Effect.isRead,
      Bool.false_or, clears, reads, and_true]
    exact ends

private theorem Emits.nothing {extra : List (Effect ε)} {tail : List UInt8} {continued : Prop}
    (silent : ∀ call ∈ extra, call = .asyncReadSome) (ended : ¬ continued) :
    reader.Emits extra ⟨[], none, tail⟩ continued := by
  have calls : extra.filterMap Effect.out? = [] ∧ extra.filterMap Effect.frameEnd? = [] ∧
      extra.any Effect.isClear = false := by
    induction extra with
    | nil => exact ⟨rfl, rfl, rfl⟩
    | cons call rest ih =>
      obtain ⟨outs, ends, clears⟩ := ih fun other at_other => silent other (.tail _ at_other)
      rw [silent call (.head _)]
      exact ⟨outs, ends, clears⟩
  refine ⟨by rw [calls.2.2]; rfl, fun _ => ⟨calls.1, ?_⟩, fun begun => absurd begun ended⟩
  rw [calls.2.1]
  simp

private theorem Emits.rejected {parsed : Parsed UInt8 τ} {frames : List (τ × List UInt8)}
    {continued : Prop} (same : parsed.frames = frames) (stops : parsed.rejected.isSome = true)
    (ended : ¬ continued) :
    reader.Emits (reader.emitted frames ++ [.clearServer]) parsed continued := by
  obtain ⟨outs, ends, -, -⟩ := emitted_calls reader frames
  refine ⟨?_, fun _ => ⟨?_, ?_⟩, fun begun => absurd begun ended⟩
  · rw [stops]
    simp [Effect.isClear]
  · rw [List.filterMap_append, outs, same]
    simp [Effect.out?]
  · intro after member
    rw [List.filterMap_append, List.mem_append] at member
    rcases member with earlier | last
    · exact ends after earlier
    · simp [Effect.frameEnd?] at last

/-- The frames of a handler that re-arms come before everything that is called later. -/
private theorem Emits.prepend {extra : List (Effect ε)} {parsed : Parsed UInt8 τ} {continued : Prop}
    (emits : reader.Emits extra parsed continued) (frames : List (τ × List UInt8)) :
    reader.Emits (reader.emitted frames ++ [.asyncReadSome] ++ extra) (parsed.prepend frames)
      continued := by
  obtain ⟨outs, ends, clears, -⟩ := emitted_calls reader frames
  constructor
  · simp only [List.any_append, clears, Bool.false_or]
    exact emits.cleared
  · intro whole
    obtain ⟨later, reset⟩ := emits.whole whole
    simp only [List.filterMap_append, outs, later, List.mem_append, Parsed.prepend_frames,
      List.map_append]
    refine ⟨by simp [Effect.out?], ?_⟩
    rintro after ((earlier | read) | later)
    · exact ends after earlier
    · simp [Effect.frameEnd?] at read
    · exact reset after later
  · intro cut
    obtain ⟨before, tag, body, after, split, later, member, flag⟩ := emits.cut cut
    refine ⟨frames ++ before, tag, body, after, ?_, ?_, ?_, flag⟩
    · rw [Parsed.prepend_frames, split, List.append_assoc]
    · simp only [List.filterMap_append, outs, later, List.map_append]
      simp [Effect.out?]
    · rw [List.filterMap_append]
      exact List.mem_append_right _ member

variable (reader) in
/-- The two ways a delivery ends. -/
def Delivers (start : Done τ ε) (completions : List Completion) (held : List UInt8) : Prop :=
  (reader.Clean held completions ∧ ∃ next extra,
    (∀ fuel, maxLength < fuel →
      reader.codec.deliver fuel start completions = some (.ok ⟨next, start.effects ++ extra⟩)) ∧
    reader.Emits extra (reader.format.parse (held ++ stream completions))
      (reader.Continued held completions)) ∨
  (¬ reader.Clean held completions ∧ ∀ fuel, maxLength < fuel →
    ∀ done, reader.codec.deliver fuel start completions ≠ some (.ok done))

private theorem delivers_body (inBody : reader.InBody session tag length body) {head : List UInt8}
    (whole : head.length = reader.format.headLength)
    (verdict : reader.format.verdict head = .accept tag length) (missing : body.length < length) :
    reader.Delivers ⟨session, effects⟩ completions (head ++ body) := by
  rcases Nat.lt_trichotomy (body.length + (stream completions).length) length with
    less | ends | past
  · have fits : (stream completions).length ≤ length - body.length := by omega
    obtain ⟨next, delivered⟩ := deliver_unfinished effects inBody less
    refine Or.inl ⟨(clean_open whole verdict missing).mpr fits, next, _,
      fun fuel enough => delivered fuel (by omega), ?_⟩
    rw [List.append_assoc, parse_open whole verdict (by rwa [List.length_append])]
    apply Emits.nothing (fun call member => List.eq_of_mem_replicate member)
    rw [continued_open whole verdict missing fits]
    omega
  · have fits : (stream completions).length ≤ length - body.length := by omega
    obtain ⟨next, after, reads, flag, delivered⟩ :=
      deliver_finished effects inBody missing ends
    refine Or.inl ⟨(clean_open whole verdict missing).mpr fits, next, _,
      fun fuel enough => delivered fuel (by omega), ?_⟩
    rw [← List.length_append] at ends
    rw [List.append_assoc, parse_whole whole (ends ▸ verdict)]
    have continued := (continued_open whole verdict missing fits).mpr (by
      simp only [List.length_append] at ends; omega)
    have silent : (List.replicate reads (Effect.asyncReadSome : Effect ε)).filterMap Effect.out? = [] := by
      simp [List.filterMap_replicate, Effect.out?]
    refine ⟨by simp [Effect.isClear], absurd continued, fun _ => ?_⟩
    refine ⟨[], tag, body ++ stream completions, after, rfl, ?_, ?_, flag⟩
    · rw [List.filterMap_append, silent]
      rfl
    · simp [Effect.frameEnd?]
  · refine Or.inr ⟨?_, fun fuel _ done => ?_⟩
    · rw [clean_open whole verdict missing]
      omega
    · rw [deliver_past _ inBody past]
      simp

/-- Nothing is delivered to a session at a head. -/
private theorem delivers_nothing (effects : List (Effect ε)) (atHead : reader.AtHead session held) :
    reader.Delivers ⟨session, effects⟩ [] held := by
  have short := atHead.short
  have closed : reader.format.openBody held = none := openBody_short short
  have cut_free (count : ℕ) :
      reader.format.openBody (held ++ stream (([] : List Completion).take count)) = none := by
    rw [List.take_nil, stream_nil, List.append_nil, closed]
  refine Or.inl ⟨⟨?_, ?_⟩, session, [], ?_, ?_⟩
  · rw [stream_nil, List.append_nil, parse_short short]
    simp
  · intro count missing cut
    rw [cut_free] at cut
    contradiction
  · intro fuel enough
    rw [Codec.deliver, List.append_nil]
  · rw [stream_nil, List.append_nil, parse_short short]
    apply Emits.nothing (by simp)
    rintro ⟨count, missing, cut, -⟩
    rw [cut_free] at cut
    contradiction

/-- A completion that brings a rejected head is the last one, or fails. -/
private theorem delivers_rejected (atHead : reader.AtHead session held) {completion : Completion}
    {result : Except Fault (Done τ ε)}
    (rejected : (reader.format.parse (held ++ completion.bytes)).rejected = some head)
    (agrees : reader.Agrees result [] (reader.format.parse (held ++ completion.bytes)))
    (ran : ∀ fuel, maxLength < fuel →
      reader.codec.handleRead fuel session (some completion.bytes) = some result) :
    reader.Delivers ⟨session, effects⟩ (completion :: rest) held := by
  have short := atHead.short
  rw [Agrees, rejected] at agrees
  by_cases refused : reader.refused head
  · obtain ⟨next, rfl⟩ := agrees.1 refused
    refine Or.inl ⟨(clean_of_reject short rejected).mpr refused, next, _, fun fuel enough =>
      deliver_stopped (ran fuel enough) ?_, ?_⟩
    · obtain ⟨-, -, -, reads⟩ := emitted_calls reader
        (reader.format.parse (held ++ completion.bytes)).frames
      simp only [Done.reading, List.any_append, reads]
      rfl
    · obtain ⟨frames, stops⟩ := parse_append_rejected rejected (stream rest)
      rw [List.append_assoc, ← stream_cons] at frames stops
      apply Emits.rejected frames (by rw [stops]; rfl)
      rintro ⟨count, missing, cut, -⟩
      rw [openBody_after_reject short rejected] at cut
      contradiction
  · obtain ⟨fault, rfl⟩ := agrees.2 refused
    refine Or.inr ⟨by rwa [clean_of_reject short rejected], fun fuel enough done => ?_⟩
    rw [Codec.deliver]
    simp [ran fuel enough]

/-- A completion without a rejected head emits its frames and leaves the rest to the next ones. -/
private theorem delivers_accepted {next : Session τ} (short : held.length < reader.format.headLength)
    {completion : Completion}
    (accepted : (reader.format.parse (held ++ completion.bytes)).rejected = none)
    (ran : ∀ fuel, maxLength < fuel →
      reader.codec.handleRead fuel session (some completion.bytes) = some (.ok ⟨next, [] ++
        (reader.emitted (reader.format.parse (held ++ completion.bytes)).frames ++
          [.asyncReadSome])⟩))
    (later : reader.Delivers
      ⟨next, effects ++ (reader.emitted (reader.format.parse (held ++ completion.bytes)).frames ++
        [.asyncReadSome])⟩ rest (reader.format.parse (held ++ completion.bytes)).tail) :
    reader.Delivers ⟨session, effects⟩ (completion :: rest) held := by
  rw [Delivers, clean_cons short accepted, continued_cons short accepted, stream_cons,
    ← List.append_assoc, parse_append accepted]
  apply later.imp
  · rintro ⟨clean, last, extra, delivered, emits⟩
    refine ⟨clean, last, _, fun fuel enough => ?_, emits.prepend _⟩
    rw [deliver_reading (ran fuel enough) (reading_of_rearm _ _), List.nil_append, delivered fuel enough,
      List.append_assoc]
  · rintro ⟨dirty, stuck⟩
    refine ⟨dirty, fun fuel enough => ?_⟩
    rw [deliver_reading (ran fuel enough) (reading_of_rearm _ _), List.nil_append]
    exact stuck fuel enough

/-- Whether a delivery is clean decides how it ends. -/
theorem delivers (atHead : reader.AtHead session held)
    (judged : reader.Judged (held ++ stream completions)) :
    reader.Delivers ⟨session, effects⟩ completions held := by
  induction completions generalizing session held effects with
  | nil => exact delivers_nothing effects atHead
  | cons completion rest ih =>
    have bounded := completion.bounded
    rw [stream_cons, ← List.append_assoc] at judged
    obtain ⟨result, agrees, returned⟩ := handleRead_agrees atHead completion
      fun head stops => judged head (parse_append_rejected stops _).2
    have ran (fuel : ℕ) (enough : maxLength < fuel) := returned fuel (by omega)
    cases rejected : (reader.format.parse (held ++ completion.bytes)).rejected with
    | some head => exact delivers_rejected atHead rejected agrees ran
    | none =>
      rw [Agrees, rejected] at agrees
      obtain ⟨next, rfl, holds⟩ := agrees
      apply delivers_accepted atHead.short rejected ran
      rcases holds with atNext | ⟨head, body, tag, length, split, whole, verdict, missing, inBody⟩
      · rw [Judged, parse_append rejected] at judged
        exact ih atNext judged
      · rw [split]
        exact delivers_body inBody whole verdict missing

/-- A stream that is never cut inside a body leaves the decoder at the head of a frame, and each
of its frames is emitted once and in order. -/
theorem deliver_uncut (effects : List (Effect ε)) (atHead : reader.AtHead session held)
    (accepted : (reader.format.parse (held ++ stream completions)).rejected = none)
    (uncut : ∀ count, reader.format.openBody (held ++ stream (completions.take count)) = none) :
    ∃ next extra, reader.AtHead next (reader.format.parse (held ++ stream completions)).tail ∧
      (∀ fuel, maxLength < fuel → reader.codec.deliver fuel ⟨session, effects⟩ completions =
        some (.ok ⟨next, effects ++ extra⟩)) ∧
      extra.filterMap Effect.out? = (reader.format.parse (held ++ stream completions)).frames.map
        fun frame => reader.early frame.1 frame.2 := by
  induction completions generalizing session held effects with
  | nil =>
    rw [stream_nil, List.append_nil, parse_short atHead.short]
    exact ⟨session, [], atHead, fun fuel _ => by rw [Codec.deliver, List.append_nil], rfl⟩
  | cons completion rest ih =>
    have bounded := completion.bounded
    rw [stream_cons, ← List.append_assoc] at accepted ⊢
    have first := parse_accepted accepted
    obtain ⟨result, agrees, returned⟩ := handleRead_agrees atHead completion fun head stops => by
      rw [first] at stops
      contradiction
    rw [Agrees, first] at agrees
    obtain ⟨next, rfl, holds⟩ := agrees
    have whole := uncut 1
    rw [List.take_succ_cons, List.take_zero, stream_cons, stream_nil, List.append_nil] at whole
    rcases holds with atNext | ⟨head, body, tag, length, split, size, verdict, missing, -⟩
    · rw [parse_append first] at accepted ⊢
      obtain ⟨last, extra, atLast, delivered, outs⟩ := ih (effects ++ (reader.emitted
        (reader.format.parse (held ++ completion.bytes)).frames ++ [.asyncReadSome])) atNext accepted
          fun count => by rw [← openBody_later first]; exact uncut (count + 1)
      refine ⟨last, reader.emitted (reader.format.parse (held ++ completion.bytes)).frames ++
        [.asyncReadSome] ++ extra, atLast, fun fuel enough => ?_, ?_⟩
      · rw [deliver_reading (returned fuel (by omega)) (reading_of_rearm _ _), List.nil_append,
          delivered fuel enough, List.append_assoc]
      · rw [List.filterMap_append, List.filterMap_append, outs, (emitted_calls reader _).1,
          Parsed.prepend_frames, List.map_append]
        simp [Effect.out?]
    · have inside := openBody_append first []
      rw [List.append_nil, List.append_nil, split, openBody_open size verdict missing, whole] at inside
      contradiction

end Deliver

end Reader

end BoostLearn.Soundness.HandleRead
