import BoostLearn.Model.CoroutineService.CServer

/-! # The coroutine step by step, on a stream

`start` runs the coroutine on everything that its peer sends; as a session of the server it goes on
with each read that completes. Fed with the reads that the stream gives it, and left alone by
`HandleWrite`, the session posts the same messages and ends in the same way.
-/

namespace BoostLearn.Soundness.CoroutineService

open CInt Memory Model Model.CoroutineService

variable {τ : Type} {started : Started τ} {session : CSession} {input : List UInt8}

/-- How the read of a buffer completes on a stream, and what it leaves of the stream. -/
def arrive (size : ℕ) (input : List UInt8) : Option (List UInt8) × List UInt8 :=
  if input.length < size then (none, []) else (some (input.take size), input.drop size)

/-- The size of the read that the coroutine waits for. -/
def wanted (started : Started τ) : Option ℕ :=
  match started.phase, started.session.recvMsgNode with
  | .readingHead, _ => some (toSizeT started.session.recvHeadNode.maxLen)
  | .readingBody, some node => some (toSizeT node.maxLen)
  | _, _ => none

/-- The reads of a stream take the coroutine to its end. -/
inductive Feeds [DecidableEq τ] : Started τ → List UInt8 → Started τ → Prop
  | ended {started : Started τ} {input : List UInt8} {exit : Exit}
    (returned : started.phase = .returned exit) : Feeds started input started
  | read {started next last : Started τ} {input : List UInt8} {size : ℕ} {clears : Bool}
    (wants : wanted started = some size)
    (applied : Event.apply started (.read (arrive size input).1) = some (next, clears))
    (later : Feeds next (arrive size input).2 last) : Feeds started input last

/-- The messages of the posted nodes. -/
def Posts (started : Started τ) (posted : List (ℤ × List UInt8)) : Prop :=
  started.posted.map message = posted.map Except.ok

/-- The session has ended as a run of the coroutine has. -/
structure EndsAs (last : Started τ) (ended : Ended) : Prop where
  returned : last.phase = .returned ended.exit
  session : last.session = ended.session
  posted : Posts last ended.posted

theorem Posts.append {next : Started τ} {posted : List (ℤ × List UInt8)} {node : RecvNode ℤ}
    {sent : ℤ × List UInt8} (posts : Posts started posted) (told : message node = .ok sent)
    (kept : next.posted = started.posted ++ [node]) : Posts next (posted ++ [sent]) := by
  rw [Posts, kept, List.map_append, posts, List.map_append, List.map_singleton, told]
  rfl

/-- The loop condition and the next read post nothing. -/
theorem Posts.loopTop {posted : List (ℤ × List UInt8)} (posts : Posts started posted) :
    Posts started.loopTop posted := by
  have same : started.loopTop.posted = started.posted := by
    rw [Started.loopTop]
    split_ifs
    · rfl
    · cases started.session.recvHeadNode.clear with
      | error fault => rfl
      | ok head => rfl
  rw [Posts, same]
  exact posts

theorem arrive_short {size : ℕ} (short : input.length < size) : arrive size input = (none, []) :=
  if_pos short

theorem arrive_whole {size : ℕ} (enough : ¬ input.length < size) :
    arrive size input = (some (input.take size), input.drop size) := if_neg enough

/-- What a read that the buffer has room for leaves in it. -/
theorem arrive_of_asyncRead {cells data : Cells} {size count : ℕ} {rest : List UInt8}
    (read : asyncRead cells size input = .ok (some (data, count, rest))) :
    arrive size input = (some (input.take size), rest) ∧ count = size ∧
      (input.take size).length = size ∧ data = (input.take size).map some ++ cells.drop (input.take size).length := by
  rw [asyncRead] at read
  split_ifs at read with small short
  · cases read
  · cases read
    have full : (input.take size).length = size := by
      rw [List.length_take]
      omega
    rw [full]
    exact ⟨arrive_whole short, rfl, rfl, rfl⟩

theorem arrive_of_eof {cells : Cells} {size : ℕ} (read : asyncRead cells size input = .ok none) :
    arrive size input = (none, []) := by
  rw [asyncRead] at read
  split_ifs at read with small short
  · exact arrive_short short
  · cases read

section Coroutine

variable [DecidableEq τ] {msgId msgLen : ℤ} {posted : List (ℤ × List UInt8)}

/-- The session goes on as an iteration has. -/
def Follows (started : Started τ) (input : List UInt8) : Next → Prop
  | .ended last exit => ∃ target : Started τ, Feeds started input target ∧
      target.phase = .returned exit ∧ target.session = last ∧ target.posted = started.posted
  | .again next posts rest => ∃ (target : Started τ) (node : RecvNode ℤ), target.session = next ∧
      message node = .ok posts ∧ target.posted = started.posted ++ [node] ∧
      ∀ last, Feeds target.loopTop rest last → Feeds started input last

theorem fits_arrive (node : MsgNode) (input : List UInt8) :
    Fits node (arrive (toSizeT node.maxLen) input).1 := by
  rw [arrive]
  split_ifs
  · exact fun bytes member => by cases member
  · intro bytes member
    cases member
    exact List.length_take_le ..

/-- The coroutine behind the read of a header. -/
theorem feeds_onHead (waits : started.phase = .readingHead) {result : Option (List UInt8)}
    {rest : List UInt8} {last : Started τ}
    (arrived : arrive (toSizeT started.session.recvHeadNode.maxLen) input = (result, rest))
    (later : Feeds (started.onHead result).1 rest last) : Feeds started input last := by
  have wants : wanted started = some (toSizeT started.session.recvHeadNode.maxLen) := by
    rw [wanted, waits]
  have fits := fits_arrive started.session.recvHeadNode input
  rw [arrived] at fits
  have applied : Event.apply started
      (.read (arrive (toSizeT started.session.recvHeadNode.maxLen) input).1) =
        some (started.onHead result) := by
    simp only [Event.apply, waits, arrived]
    exact if_pos fits
  refine .read wants applied ?_
  rw [arrived]
  exact later

/-- The coroutine behind the read of a body. -/
theorem feeds_onBody (waits : started.phase = .readingBody) {node : RecvNode ℤ}
    (present : started.session.recvMsgNode = some node) {result : Option (List UInt8)}
    {rest : List UInt8} {last : Started τ}
    (arrived : arrive (toSizeT node.maxLen) input = (result, rest))
    (later : Feeds (started.onBody node result).1 rest last) : Feeds started input last := by
  have wants : wanted started = some (toSizeT node.maxLen) := by
    simp only [wanted, waits, present]
  have fits := fits_arrive node.toMsgNode input
  rw [arrived] at fits
  have applied : Event.apply started (.read (arrive (toSizeT node.maxLen) input).1) =
      some (started.onBody node result) := by
    simp only [Event.apply, waits, present, arrived]
    exact if_pos fits
  refine .read wants applied ?_
  rw [arrived]
  exact later

/-- The read of a body, behind the construction of its node. -/
theorem follows_readingBody {node : MsgNode} {result : Next} (built : MsgNode.new msgLen = .ok node)
    (done : readBody started.session msgId msgLen input = .ok result) :
    Follows (started.readBody msgId (.ok node)).1 input result := by
  rw [CoroutineService.readBody, built] at done
  dsimp only at done
  obtain ⟨arrival, read, done⟩ := ok_of_bind done
  cases arrival with
  | none =>
    cases done
    exact ⟨_, feeds_onBody rfl rfl (arrive_of_eof read) (.ended rfl), rfl, rfl, rfl⟩
  | some arrival =>
    obtain ⟨data, count, rest⟩ := arrival
    obtain ⟨arrived, rfl, full, rfl⟩ := arrive_of_asyncRead read
    dsimp only at done
    split_ifs at done with empty
    · cases done
      have nothing := List.length_eq_zero_iff.mp (full.trans empty)
      rw [nothing] at arrived
      have answer : (started.readBody msgId (.ok node)).1.onBody { node with msgId } (some []) =
          (started.readBody msgId (.ok node)).1.peerClosed := rfl
      refine ⟨(started.readBody msgId (.ok node)).1.peerClosed.1, feeds_onBody rfl rfl arrived ?_, rfl, ?_,
        rfl⟩
      · rw [answer]
        exact .ended rfl
      · rw [nothing]
        rfl
    · obtain ⟨stored, kept, done⟩ := ok_of_bind done
      obtain ⟨posts, told, done⟩ := ok_of_bind done
      cases done
      have answer : (started.readBody msgId (.ok node)).1.onBody { node with msgId }
          (some (input.take (toSizeT node.maxLen))) =
            (started.readBody msgId (.ok node)).1.post { node with msgId } (.ok stored) := by
        rw [Started.onBody, if_neg (fun none => empty (full.symm.trans none)), kept]
      let posted : RecvNode ℤ := { node with data := stored, msgId }
      refine ⟨{ started with
        session := { started.session with recvMsgNode := some posted }
        phase := .readingBody
        posted := started.posted ++ [posted] }, posted, rfl, told, rfl, fun last later => ?_⟩
      apply feeds_onBody rfl rfl arrived
      rw [answer]
      exact later

/-- The read of a body. -/
theorem follows_readBody {result : Next}
    (done : readBody started.session msgId msgLen input = .ok result) :
    Follows (started.readBody msgId (MsgNode.new msgLen)).1 input result := by
  cases built : MsgNode.new msgLen with
  | error fault =>
    rw [CoroutineService.readBody, built] at done
    cases fault with
    | badArrayNewLength =>
      cases done
      exact ⟨_, .ended rfl, rfl, rfl, rfl⟩
    | _ => cases done
  | ok node => exact follows_readingBody built done

/-- What follows behind a read follows from before it. -/
theorem Follows.of_feeds {next : Started τ} {rest : List UInt8} {result : Next}
    (onward : ∀ last, Feeds next rest last → Feeds started input last)
    (posted : next.posted = started.posted) (follows : Follows next rest result) :
    Follows started input result := by
  cases result with
  | ended last exit =>
    obtain ⟨target, feeds, returned, same, posts⟩ := follows
    exact ⟨target, onward target feeds, returned, same, posts.trans posted⟩
  | again onwards posts left =>
    obtain ⟨target, node, same, told, posts, later⟩ := follows
    exact ⟨target, node, same, told, by rw [posts, posted], fun last feeds =>
      onward last (later last feeds)⟩

omit [DecidableEq τ] in
theorem checkHeader_posted (started : Started τ) (fields : Except Fault (ℤ × ℤ)) :
    (started.checkHeader fields).1.posted = started.posted := by
  cases fields with
  | error fault => rfl
  | ok fields =>
    rw [Started.checkHeader]
    split_ifs
    · rfl
    · cases MsgNode.new fields.2 with
      | error fault => cases fault <;> rfl
      | ok node => rfl

/-- The check of a header, and the read of its body. -/
theorem follows_checkHeader {result : Next}
    (done : (if msgLen > maxLength then return .ended started.session .invalidLength
      else readBody started.session msgId msgLen input) = Except.ok result) :
    Follows (started.checkHeader (.ok (msgId, msgLen))).1 input result := by
  rw [Started.checkHeader]
  split_ifs at done ⊢
  · cases done
    exact ⟨_, .ended rfl, rfl, rfl, rfl⟩
  · exact follows_readBody done

/-- An iteration of the coroutine. -/
theorem follows_iteration {result : Next} (opened : started.session.bClose = false)
    (done : iteration started.session input = .ok result) : Follows started.loopTop input result := by
  rw [iteration] at done
  obtain ⟨head, clears, done⟩ := ok_of_bind done
  have reading : started.loopTop = started.readHead (.ok head) := by
    rw [Started.loopTop, if_neg (by rw [opened]; exact Bool.false_ne_true), clears]
  rw [reading]
  dsimp only at done
  rw [if_neg (by rw [opened]; exact Bool.false_ne_true)] at done
  obtain ⟨arrival, read, done⟩ := ok_of_bind done
  cases arrival with
  | none =>
    cases done
    exact ⟨_, feeds_onHead rfl (arrive_of_eof read) (.ended rfl), rfl, rfl, rfl⟩
  | some arrival =>
    obtain ⟨data, count, rest⟩ := arrival
    obtain ⟨arrived, rfl, full, rfl⟩ := arrive_of_asyncRead read
    dsimp only at done
    split_ifs at done with empty
    · cases done
      have nothing := List.length_eq_zero_iff.mp (full.trans empty)
      rw [nothing] at arrived
      have answer : (started.readHead (.ok head)).onHead (some []) =
          (started.readHead (.ok head)).peerClosed := rfl
      refine ⟨(started.readHead (.ok head)).peerClosed.1, feeds_onHead rfl arrived ?_, rfl, ?_, rfl⟩
      · rw [answer]
        exact .ended rfl
      · rw [nothing]
        rfl
    · obtain ⟨⟨msgId, msgLen⟩, fields, done⟩ := ok_of_bind done
      have answer : (started.readHead (.ok head)).onHead (some (input.take (toSizeT head.maxLen))) =
          ((started.readHead (.ok head)).fillHead (input.take (toSizeT head.maxLen))).checkHeader
            (.ok (msgId, msgLen)) := by
        rw [Started.onHead, if_neg (fun none => empty (full.symm.trans none)), ← fields]
        rfl
      have onward (last : Started τ) (later : Feeds (((started.readHead (.ok head)).fillHead
          (input.take (toSizeT head.maxLen))).checkHeader (.ok (msgId, msgLen))).1 rest last) :
          Feeds (started.readHead (.ok head)) input last := by
        apply feeds_onHead rfl arrived
        rw [answer]
        exact later
      apply Follows.of_feeds onward
      · rw [checkHeader_posted]
        rfl
      · exact follows_checkHeader done

/-- What the coroutine does on a stream, a session does step by step. -/
theorem feeds_loopTop (fuel : ℕ) : ∀ {started : Started τ} {input : List UInt8}
    {posted : List (ℤ × List UInt8)} {ended : Ended}, Posts started posted →
      start fuel started.session posted input = some (.ok ended) →
        ∃ last, Feeds started.loopTop input last ∧ EndsAs last ended := by
  induction fuel with
  | zero =>
    intro started input posted ended posts returned
    cases returned
  | succ fuel ih =>
    intro started input posted ended posts returned
    rw [start] at returned
    split_ifs at returned with closed
    · cases returned
      rw [Started.loopTop, if_pos closed]
      exact ⟨_, .ended rfl, rfl, rfl, posts⟩
    · cases step : iteration started.session input with
      | error fault =>
        rw [step] at returned
        cases returned
      | ok result =>
        have follows := follows_iteration (Bool.eq_false_iff.mpr closed) step
        rw [step] at returned
        cases result with
        | ended session exit =>
          cases returned
          obtain ⟨last, feeds, exits, same, kept⟩ := follows
          refine ⟨last, feeds, exits, same, ?_⟩
          rw [Posts, kept]
          exact posts.loopTop
        | again session posted rest =>
          obtain ⟨target, node, rfl, told, kept, onward⟩ := follows
          have continued : Posts target _ := posts.loopTop.append told kept
          obtain ⟨last, feeds, ends⟩ := ih continued returned
          exact ⟨last, onward last feeds, ends⟩

/-- A session that is left alone posts what the coroutine posts on the stream of its peer, and ends
as it does. -/
theorem feeds_of_start {fuel : ℕ} {ended : Ended}
    (returned : start fuel session [] input = some (.ok ended)) :
    ∃ last : Started τ, Feeds (Started.spawn session).loopTop input last ∧ EndsAs last ended := by
  have nothing : Posts (Started.spawn session : Started τ) [] := rfl
  exact feeds_loopTop fuel nothing returned

end Coroutine

end BoostLearn.Soundness.CoroutineService
