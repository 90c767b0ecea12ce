import BoostLearn.Model.CoroutineService.CSession
import BoostLearn.Spec.Frames

/-! # CoroutineService reads the frames of its protocol up to an empty body

The coroutine takes a body read of zero bytes for a closed peer, so it ends at the first empty
body, and a length of `-1` stores its terminator in front of the allocation. On every other stream
it posts the frames of the reference parse.
-/

namespace BoostLearn.Soundness.CoroutineService

open CInt Memory Framing Framing.Format Model Model.Wire Model.CoroutineService

/-- At the top of the loop, with an open session. -/
structure Ready (session : CSession) : Prop where
  opened : session.bClose = false
  size : session.recvHeadNode.maxLen = headTotalLen
  allocated : session.recvHeadNode.data.length = headTotalLen + 1

variable {session : CSession} {rest : List UInt8} {msgId : ℤ}

private theorem cleared (ready : Ready session) :
    ∃ head, session.recvHeadNode.clear = .ok head ∧ head.maxLen = headTotalLen ∧
      head.data.length = headTotalLen + 1 := by
  obtain ⟨-, size, allocated⟩ := ready
  refine ⟨⟨0, session.recvHeadNode.maxLen, List.replicate 4 (some 0) ++
    session.recvHeadNode.data.drop 4⟩, ?_, size, ?_⟩
  · simp only [headTotalLen] at size allocated
    rw [MsgNode.clear, size, toSizeT_of_range (by omega) (by omega), memset, if_pos (by omega)]
    rfl
  · simp only [headTotalLen] at allocated ⊢
    simp only [List.length_append, List.length_replicate, List.length_drop]
    omega

/-- The stream ends inside a header. -/
theorem iteration_eof (ready : Ready session) (short : rest.length < headTotalLen) :
    ∃ last, iteration session rest = .ok (.ended last (.thrown false)) := by
  obtain ⟨head, clears, size, allocated⟩ := cleared ready
  simp only [headTotalLen] at size allocated short
  have read : asyncRead head.data (toSizeT head.maxLen) rest = .ok none := by
    rw [size, toSizeT_of_range (by omega) (by omega)]
    exact asyncRead_eof (by omega) short
  simp only [iteration, clears, read, bind, Except.bind, ready.opened, Bool.false_eq_true, if_false]
  exact ⟨_, rfl⟩

private theorem iteration_of_read {head : MsgNode} {input : List UInt8} {data : Cells} {n : ℕ}
    {msgLen : ℤ} (opened : session.bClose = false) (clears : session.recvHeadNode.clear = .ok head)
    (read : asyncRead head.data (toSizeT head.maxLen) input = .ok (some (data, n, rest)))
    (counted : n ≠ 0) (fields : header data = .ok (msgId, msgLen)) :
    iteration session input =
      if msgLen > maxLength then
        .ok (.ended ⟨⟨head.curLen, head.maxLen, data⟩, session.recvMsgNode, false⟩ .invalidLength)
      else readBody ⟨⟨head.curLen, head.maxLen, data⟩, session.recvMsgNode, false⟩ msgId msgLen rest := by
  simp only [iteration, clears, read, fields, bind, Except.bind, pure, Except.pure, opened,
    Bool.false_eq_true, if_false, if_neg counted]

/-- A complete header leads to the length check and the body. -/
theorem iteration_head (rest : List UInt8) (ready : Ready session) (idHigh idLow lenHigh lenLow : UInt8) :
    ∃ next, Ready next ∧ iteration session ([idHigh, idLow, lenHigh, lenLow] ++ rest) =
      if bigEndianShort lenHigh lenLow > maxLength then .ok (.ended next .invalidLength)
      else readBody next (bigEndianShort idHigh idLow) (bigEndianShort lenHigh lenLow) rest := by
  obtain ⟨head, clears, size, allocated⟩ := cleared ready
  simp only [headTotalLen] at size allocated
  have read : asyncRead head.data (toSizeT head.maxLen) ([idHigh, idLow, lenHigh, lenLow] ++ rest) =
      .ok (some ([idHigh, idLow, lenHigh, lenLow].map some ++ head.data.drop 4, 4, rest)) := by
    rw [size, toSizeT_of_range (by omega) (by omega)]
    exact asyncRead_whole (show [idHigh, idLow, lenHigh, lenLow].length ≤ _ from by
      simp only [List.length_cons, List.length_nil]; omega) rest
  generalize filled : [idHigh, idLow, lenHigh, lenLow].map some ++ head.data.drop 4 = data at read
  have length : data.length = 5 := by
    rw [← filled]
    simp only [List.length_append, List.length_map, List.length_cons, List.length_nil,
      List.length_drop]
    omega
  have fields : header data =
      .ok (bigEndianShort idHigh idLow, bigEndianShort lenHigh lenLow) := by
    rw [← filled]
    exact header_of_fields ..
  rw [iteration_of_read ready.opened clears read (by decide) fields]
  refine ⟨_, ?_, rfl⟩
  exact ⟨rfl, size, length⟩

/-- A length of `-1` is stored outside the allocation; a lower one throws. -/
theorem readBody_negative {msgLen : ℤ} (negative : msgLen < 0) :
    readBody session msgId msgLen rest =
      if msgLen = -1 then .error .outOfBounds else .ok (.ended session.close (.thrown true)) := by
  by_cases edge : msgLen = -1
  · rw [if_pos edge, edge]
    rfl
  · have unallocated : MsgNode.new msgLen = .error .badArrayNewLength := by
      simp only [MsgNode.new, newChar_of_negative (by omega : msgLen + 1 < 0), bind, Except.bind]
    rw [if_neg edge]
    simp only [readBody, unallocated]
    rfl

/-- The stream ends inside a body. -/
theorem readBody_eof {length : ℕ} (limit : length ≤ maxLength) (short : rest.length < length) :
    ∃ last, readBody session msgId length rest = .ok (.ended last (.thrown false)) := by
  have read : asyncRead (List.replicate length none ++ [some 0]) length rest = .ok none :=
    asyncRead_eof (by simp) short
  simp only [readBody, MsgNode.new_of_nonneg, toSizeT_of_limit limit, read, bind, Except.bind]
  exact ⟨_, rfl⟩

/-- An empty body is taken for a closed peer. -/
theorem readBody_empty :
    ∃ last, readBody session msgId (0 : ℕ) rest = .ok (.ended last .peerClosed) := by
  have read : asyncRead (List.replicate 0 none ++ [some 0]) 0 rest = .ok (some ([some 0], 0, rest)) :=
    asyncRead_whole (show [].length ≤ _ from Nat.zero_le _) rest
  simp only [readBody, MsgNode.new_of_nonneg, toSizeT_of_limit (Nat.zero_le _), read, bind, Except.bind,
    if_true]
  exact ⟨_, rfl⟩

/-- A whole body that is not empty is posted. -/
theorem readBody_whole (ready : Ready session) {body : List UInt8}
    (limit : body.length ≤ maxLength) (nonempty : body ≠ []) :
    ∃ next, Ready next ∧ readBody session msgId body.length (body ++ rest) =
      .ok (.again next (msgId, body) rest) := by
  have room : (List.replicate body.length none ++ [some 0] : Cells).drop body.length = [some 0] :=
    List.drop_left' (List.length_replicate ..)
  have read : asyncRead (List.replicate body.length none ++ [some 0]) body.length (body ++ rest) =
      .ok (some (body.map some ++ [some 0], body.length, rest)) := by
    rw [asyncRead_whole (by simp) rest, room]
  have counted : body.length ≠ 0 := fun empty => nonempty (List.length_eq_zero_iff.mp empty)
  simp only [readBody, MsgNode.new_of_nonneg, toSizeT_of_limit limit, read, bind, Except.bind,
    if_neg counted, store_last, message_of_body msgId 0 limit]
  refine ⟨_, ?_, rfl⟩
  exact ⟨ready.opened, ready.size, ready.allocated⟩

/-- The exit says whether the parse rejected a head. -/
def ExitMatches (exit : Exit) (rejected : Option (List UInt8)) : Prop :=
  match rejected with
  | none => exit = .thrown false
  | some _ => exit = .invalidLength ∨ exit = .thrown true

/-- No frame is empty, and the parse stops at no head with the length `-1`. -/
structure Readable (parsed : Parsed UInt8 ℤ) : Prop where
  bodies : ∀ frame ∈ parsed.frames, frame.2 ≠ []
  heads : ∀ idHigh idLow lenHigh lenLow, parsed.rejected = some [idHigh, idLow, lenHigh, lenLow] →
    bigEndianShort lenHigh lenLow ≠ -1

/-- What a run yields, with what has been posted before it. -/
def Reads (result : Except Fault Ended) (posted : List (ℤ × List UInt8))
    (parsed : Parsed UInt8 ℤ) : Prop :=
  (Readable parsed → ∃ last exit, result = .ok ⟨last, posted ++ parsed.frames, exit⟩ ∧
    ExitMatches exit parsed.rejected) ∧
  (¬ Readable parsed → ∀ ended, result = .ok ended → ended.exit = .peerClosed)

theorem readable_prepend {parsed : Parsed UInt8 ℤ} {tag : ℤ} {body : List UInt8}
    (nonempty : body ≠ []) : Readable (parsed.prepend [(tag, body)]) ↔ Readable parsed := by
  constructor
  · rintro ⟨bodies, heads⟩
    exact ⟨fun frame member => bodies frame (List.mem_cons_of_mem _ member), heads⟩
  · rintro ⟨bodies, heads⟩
    refine ⟨fun frame member => ?_, heads⟩
    rcases List.mem_cons.mp member with rfl | later
    · exact nonempty
    · exact bodies frame later

theorem Reads.prepend {result : Except Fault Ended} {posted : List (ℤ × List UInt8)}
    {parsed : Parsed UInt8 ℤ} {tag : ℤ} {body : List UInt8} (nonempty : body ≠ [])
    (reads : Reads result (posted ++ [(tag, body)]) parsed) :
    Reads result posted (parsed.prepend [(tag, body)]) := by
  simpa only [Reads, readable_prepend nonempty, Parsed.prepend_frames, Parsed.prepend_rejected,
    List.append_assoc] using reads

section Run

variable {fuel : ℕ} {input : List UInt8} {posted : List (ℤ × List UInt8)}

/-- An iteration that does not go on decides the result, for every positive fuel. -/
theorem start_of_ended {last : CSession} {exit : Exit} (ready : Ready session)
    (step : iteration session input = .ok (.ended last exit)) (enough : 0 < fuel) :
    start fuel session posted input = some (.ok ⟨last, posted, exit⟩) := by
  obtain ⟨fuel, rfl⟩ : ∃ less, fuel = less + 1 := ⟨fuel - 1, by omega⟩
  rw [start, ready.opened, if_neg (by decide), step]

theorem start_of_fault {fault : Fault} (ready : Ready session)
    (step : iteration session input = .error fault) (enough : 0 < fuel) :
    start fuel session posted input = some (.error fault) := by
  obtain ⟨fuel, rfl⟩ : ∃ less, fuel = less + 1 := ⟨fuel - 1, by omega⟩
  rw [start, ready.opened, if_neg (by decide), step]

theorem start_of_again {next : CSession} {message : ℤ × List UInt8} (ready : Ready session)
    (step : iteration session input = .ok (.again next message rest)) :
    start (fuel + 1) session posted input = start fuel next (posted ++ [message]) rest := by
  rw [start, ready.opened, if_neg (by decide), step]

end Run

/-- A run that ends without a frame in front of a head it does not accept. -/
private theorem reads_ended {head : Option (List UInt8)} {tail : List UInt8} {last : CSession}
    {exit : Exit} {posted : List (ℤ × List UInt8)} (ends : ExitMatches exit head)
    (readable : Readable ⟨[], head, tail⟩) :
    Reads (.ok ⟨last, posted, exit⟩) posted ⟨[], head, tail⟩ :=
  ⟨fun _ => ⟨last, exit, by rw [List.append_nil], ends⟩, absurd readable⟩

/-- The coroutine ends at a rejected head, unless the head has the length `-1`. -/
private theorem start_rejected {head : List UInt8} {posted : List (ℤ × List UInt8)}
    (ready : Ready session) (whole : head.length = Spec.coroutineService.headLength)
    (verdict : Spec.coroutineService.verdict head = .reject) :
    ∃ result, Reads result posted (Spec.coroutineService.parse (head ++ rest)) ∧
      ∀ fuel, 0 < fuel → start fuel session posted (head ++ rest) = some result := by
  obtain ⟨idHigh, idLow, lenHigh, lenLow, rfl⟩ := Spec.two_fields whole
  obtain ⟨next, -, step⟩ := iteration_head rest ready idHigh idLow lenHigh lenLow
  have readable (low : bigEndianShort lenHigh lenLow ≠ -1) :
      Readable ⟨[], some [idHigh, idLow, lenHigh, lenLow], [idHigh, idLow, lenHigh, lenLow] ++ rest⟩ := by
    refine ⟨by simp, ?_⟩
    rintro _ _ _ _ ⟨⟩
    exact low
  rw [parse_reject whole verdict]
  rcases Spec.coroutineService_reject.mp verdict with negative | large
  · rw [if_neg (by omega), readBody_negative negative] at step
    by_cases edge : bigEndianShort lenHigh lenLow = -1
    · rw [if_pos edge] at step
      refine ⟨.error .outOfBounds, ⟨fun readable => absurd edge (readable.heads _ _ _ _ rfl), ?_⟩,
        fun fuel => start_of_fault ready step⟩
      simp
    · rw [if_neg edge] at step
      exact ⟨_, reads_ended (Or.inr rfl) (readable edge), fun fuel => start_of_ended ready step⟩
  · rw [if_pos large] at step
    exact ⟨_, reads_ended (Or.inl rfl) (readable (by omega)), fun fuel => start_of_ended ready step⟩

/-- The coroutine is the reference parse of its input, up to an empty body or a length of `-1`. -/
theorem start_reads (input : List UInt8) : ∀ {session : CSession} {posted : List (ℤ × List UInt8)},
    Ready session → ∃ result, Reads result posted (Spec.coroutineService.parse input) ∧
      ∀ fuel, input.length < fuel → start fuel session posted input = some result := by
  induction input using Spec.coroutineService.stream_induction with
  | short input less =>
    intro session posted ready
    obtain ⟨last, step⟩ := iteration_eof ready less
    rw [parse_short less]
    exact ⟨_, reads_ended rfl ⟨by simp, by simp⟩, fun fuel enough =>
      start_of_ended ready step (by omega)⟩
  | reject head rest whole verdict =>
    intro session posted ready
    obtain ⟨result, reads, returns⟩ := start_rejected ready whole verdict
    exact ⟨result, reads, fun fuel enough => returns fuel (by omega)⟩
  | unfinished head rest tag length whole verdict missing =>
    intro session posted ready
    obtain ⟨idHigh, idLow, lenHigh, lenLow, rfl, rfl, size, limit⟩ :=
      Spec.coroutineService_accept verdict
    obtain ⟨next, -, step⟩ := iteration_head rest ready idHigh idLow lenHigh lenLow
    obtain ⟨last, ends⟩ := readBody_eof limit missing
    rw [size, if_neg (by omega), ends] at step
    rw [parse_open whole verdict missing]
    exact ⟨_, reads_ended rfl ⟨by simp, by simp⟩, fun fuel enough =>
      start_of_ended ready step (by omega)⟩
  | frame head body rest tag whole verdict ih =>
    intro session posted ready
    obtain ⟨idHigh, idLow, lenHigh, lenLow, rfl, rfl, size, limit⟩ :=
      Spec.coroutineService_accept verdict
    obtain ⟨next, readyBody, step⟩ :=
      iteration_head (body ++ rest) ready idHigh idLow lenHigh lenLow
    rw [size, if_neg (by omega)] at step
    rw [parse_frame whole verdict]
    by_cases empty : body = []
    · subst empty
      obtain ⟨last, ends⟩ := readBody_empty
      refine ⟨_, ⟨fun readable => absurd rfl (readable.bodies _ (.head _)), fun _ ended same => ?_⟩,
        fun fuel enough => start_of_ended ready (step.trans ends) (by omega)⟩
      rw [← Except.ok.inj same]
    · obtain ⟨last, readyNext, posts⟩ := readBody_whole readyBody limit empty
      obtain ⟨result, reads, returns⟩ := ih readyNext
      refine ⟨result, reads.prepend empty, fun fuel enough => ?_⟩
      simp only [List.length_append] at enough
      obtain ⟨fuel, rfl⟩ : ∃ less, fuel = less + 1 := ⟨fuel - 1, by omega⟩
      rw [start_of_again ready (step.trans posts)]
      exact returns fuel (by simp only [List.length_cons] at enough; omega)

/-- A session as its constructor leaves it. -/
def fresh : CSession := ⟨⟨0, 4, List.replicate 4 none ++ [some 0]⟩, none, false⟩

theorem newSession_fresh : newSession = .ok fresh := newSession_eq

theorem fresh_ready : Ready fresh := ⟨rfl, rfl, rfl⟩

/-- The coroutine ends, has posted the frames of the reference parse, and ends for a rejected head
or else at the end of the stream. -/
def ReadsFrames (input : List UInt8) : Prop :=
  ∃ ended bound, (∀ fuel, bound < fuel → start fuel fresh [] input = some (.ok ended)) ∧
    ended.posted = (Spec.coroutineService.parse input).frames ∧
    ExitMatches ended.exit (Spec.coroutineService.parse input).rejected

theorem readsFrames_of_readable {input : List UInt8}
    (readable : Readable (Spec.coroutineService.parse input)) : ReadsFrames input := by
  obtain ⟨result, reads, returns⟩ := start_reads input fresh_ready
  obtain ⟨last, exit, rfl, ends⟩ := reads.1 readable
  exact ⟨_, input.length, returns, rfl, ends⟩

theorem readable_of_readsFrames {input : List UInt8} (readsFrames : ReadsFrames input) :
    Readable (Spec.coroutineService.parse input) := by
  by_contra unreadable
  obtain ⟨ended, bound, returned, -, ends⟩ := readsFrames
  obtain ⟨result, reads, returns⟩ := start_reads input fresh_ready
  have same : result = .ok ended := Option.some.inj
    ((returns (bound + input.length + 1) (by omega)).symm.trans (returned _ (by omega)))
  rw [reads.2 unreadable ended same] at ends
  cases rejected : (Spec.coroutineService.parse input).rejected with
  | none =>
    rw [rejected] at ends
    contradiction
  | some head =>
    rw [rejected] at ends
    rcases ends with invalid | thrown <;> contradiction

/-- The coroutine is the reference parse exactly when no frame is empty and the head it stops at
does not have the length `-1`. -/
theorem readsFrames_iff (input : List UInt8) :
    ReadsFrames input ↔
      (∀ frame ∈ (Spec.coroutineService.parse input).frames, frame.2 ≠ []) ∧
      ∀ idHigh idLow lenHigh lenLow,
        (Spec.coroutineService.parse input).rejected = some [idHigh, idLow, lenHigh, lenLow] →
          bigEndianShort lenHigh lenLow ≠ -1 :=
  ⟨fun readsFrames => ⟨(readable_of_readsFrames readsFrames).bodies,
    (readable_of_readsFrames readsFrames).heads⟩,
    fun ⟨bodies, heads⟩ => readsFrames_of_readable ⟨bodies, heads⟩⟩

/-- A message without payload, and a header with the length `-1`. -/
theorem not_readsFrames : ¬ ReadsFrames [3, 233, 0, 0] ∧ ¬ ReadsFrames [3, 233, 255, 255] := by
  constructor
  · intro readsFrames
    have accept : Spec.coroutineService.verdict [3, 233, 0, 0] =
      .accept 1001 ([] : List UInt8).length := by decide +kernel
    have parsed : Spec.coroutineService.parse ([3, 233, 0, 0] ++ ([] ++ [])) = _ :=
      parse_frame rfl accept
    have readable := (readable_of_readsFrames readsFrames).bodies (1001, [])
    apply readable _ rfl
    change (1001, []) ∈ (Spec.coroutineService.parse ([3, 233, 0, 0] ++ ([] ++ []))).frames
    rw [parsed]
    exact .head _
  · intro readsFrames
    have reject : Spec.coroutineService.verdict [3, 233, 255, 255] = .reject := by decide +kernel
    have rejected : (Spec.coroutineService.parse ([3, 233, 255, 255] ++ [])).rejected =
        some [3, 233, 255, 255] := by rw [parse_reject rfl reject]
    exact (readable_of_readsFrames readsFrames).heads 3 233 255 255 rejected (by decide +kernel)

end BoostLearn.Soundness.CoroutineService
