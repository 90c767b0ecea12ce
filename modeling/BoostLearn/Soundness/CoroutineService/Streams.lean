import BoostLearn.Soundness.CoroutineService.Feeding
import BoostLearn.Soundness.CoroutineService.Steps
import BoostLearn.Spec.Frames

/-! # What a session of CoroutineService posts is what its peer has sent

Whatever the other sessions do, a coroutine that still reads is at the head of a frame, or behind a
head that it accepts, and has posted every frame before that. When it has ended, it has posted a part
of the frames from the front.
-/

namespace BoostLearn.Soundness.CoroutineService

open CInt Memory Framing Framing.Format Replay Model Model.Json Model.Wire Model.CoroutineService

variable {τ : Type} {started next : Started τ} {consumed bytes : List UInt8}
  {frames : List (ℤ × List UInt8)}

/-- The node of the headers has the size of a header. -/
structure Headed (session : CSession) : Prop where
  size : session.recvHeadNode.maxLen = headTotalLen
  allocated : session.recvHeadNode.data.length = headTotalLen + 1

/-- The parse stops at a head with the length `-1`, whose body node is terminated in front of its
allocation. -/
def StopsAtMinusOne (stream : List UInt8) : Prop :=
  ∃ idHigh idLow lenHigh lenLow,
    (Spec.coroutineService.parse stream).rejected = some [idHigh, idLow, lenHigh, lenLow] ∧
      bigEndianShort lenHigh lenLow = -1

/-- The coroutine does not go on. -/
def Over (consumed : List UInt8) (phase : Phase) : Prop :=
  (∃ exit, phase = .returned exit) ∨ ∃ fault, phase = .faulted fault ∧ StopsAtMinusOne consumed

/-- How far the coroutine is on what it has read. -/
inductive Reached (consumed : List UInt8) (started : Started τ) : Prop
  | spawned (phase : started.phase = .spawned) (nothing : consumed = []) (posted : started.posted = [])
      (headed : Headed started.session)
  | head {frames : List (ℤ × List UInt8)} (phase : started.phase = .readingHead)
      (parsed : Spec.coroutineService.parse consumed = ⟨frames, none, []⟩) (posts : Posts started frames)
      (headed : Headed started.session)
  | body {frames : List (ℤ × List UInt8)} {before front : List UInt8} {msgId : ℤ} {length : ℕ}
      (phase : started.phase = .readingBody) (split : consumed = before ++ front)
      (parsed : Spec.coroutineService.parse before = ⟨frames, none, []⟩)
      (whole : front.length = Spec.coroutineService.headLength)
      (verdict : Spec.coroutineService.verdict front = .accept msgId length) (limit : length ≤ maxLength)
      (node : started.session.recvMsgNode =
        some ⟨⟨0, length, List.replicate length none ++ [some 0]⟩, msgId⟩)
      (posts : Posts started frames) (headed : Headed started.session)
  | ended {frames : List (ℤ × List UInt8)} (finished : Over consumed started.phase) (posts : Posts started frames)
      (ahead : frames <+: (Spec.coroutineService.parse consumed).frames)

/-- In every case it has posted frames from the front. -/
theorem Reached.posts (reached : Reached consumed started) :
    ∃ frames, Posts started frames ∧ frames <+: (Spec.coroutineService.parse consumed).frames := by
  cases reached with
  | spawned _ nothing posted _ =>
    refine ⟨[], ?_, List.nil_prefix⟩
    rw [Posts, posted]
    rfl
  | head _ parsed posts _ =>
    rw [parsed]
    exact ⟨_, posts, List.prefix_rfl⟩
  | body _ split parsed _ _ _ _ posts _ =>
    rw [split, parse_boundary parsed, Parsed.prepend_frames]
    exact ⟨_, posts, List.prefix_append _ _⟩
  | ended _ posts ahead => exact ⟨_, posts, ahead⟩

/-- What the coroutine has read only depends on where it is and what it has posted. -/
theorem Reached.same (reached : Reached consumed started) (phase : next.phase = started.phase)
    (posted : next.posted = started.posted)
    (head : next.session.recvHeadNode = started.session.recvHeadNode)
    (body : next.session.recvMsgNode = started.session.recvMsgNode) : Reached consumed next := by
  have posts {frames : List (ℤ × List UInt8)} (posts : Posts started frames) : Posts next frames := by
    rw [Posts, posted]
    exact posts
  have headed (headed : Headed started.session) : Headed next.session :=
    ⟨by rw [head]; exact headed.size, by rw [head]; exact headed.allocated⟩
  cases reached with
  | spawned at_ nothing none fits => exact .spawned (phase.trans at_) nothing (posted.trans none) (headed fits)
  | head at_ parsed told fits => exact .head (phase.trans at_) parsed (posts told) (headed fits)
  | body at_ split parsed whole verdict limit node told fits =>
    exact .body (phase.trans at_) split parsed whole verdict limit (body.trans node) (posts told)
      (headed fits)
  | ended finished told ahead => exact .ended (phase ▸ finished) (posts told) ahead

section Coroutine

/-- The coroutine waits for a header, or ends. -/
theorem reached_loopTop (parsed : Spec.coroutineService.parse consumed = ⟨frames, none, []⟩)
    (posts : Posts started frames) (headed : Headed started.session) : Reached consumed started.loopTop := by
  have posts := posts.loopTop
  rw [Started.loopTop] at posts ⊢
  split_ifs at posts ⊢
  · exact .ended (.inl ⟨_, rfl⟩) posts ⟨[], by rw [parsed, List.append_nil]⟩
  · obtain ⟨size, allocated⟩ := headed
    simp only [headTotalLen] at size allocated
    have clears : started.session.recvHeadNode.clear = .ok ⟨0, started.session.recvHeadNode.maxLen,
        List.replicate 4 (some 0) ++ started.session.recvHeadNode.data.drop 4⟩ := by
      rw [MsgNode.clear, size, toSizeT_of_range (by omega) (by omega), memset, if_pos (by omega)]
      rfl
    rw [clears] at posts ⊢
    refine .head rfl parsed posts ⟨size, ?_⟩
    simp only [Started.readHead, List.length_append, List.length_replicate, List.length_drop, headTotalLen]
    omega

/-- The coroutine ends without another post. -/
private theorem reached_ended (finished : Over consumed next.phase) (posted : next.posted = started.posted)
    (posts : Posts started frames) (ahead : frames <+: (Spec.coroutineService.parse consumed).frames) :
    Reached consumed next := by
  refine .ended finished ?_ ahead
  rw [Posts, posted]
  exact posts

private theorem onHead_of_nonempty (nonempty : bytes.length ≠ 0) : started.onHead (some bytes) =
    (started.fillHead bytes).checkHeader (header (started.fillHead bytes).session.recvHeadNode.data) := by
  rw [Started.onHead, if_neg nonempty]

/-- A whole header is behind the frames before it. -/
private theorem reached_onHead (parsed : Spec.coroutineService.parse consumed = ⟨frames, none, []⟩)
    (posts : Posts started frames) (headed : Headed started.session)
    (whole : bytes.length = headTotalLen) :
    Reached (consumed ++ bytes) (started.onHead (some bytes)).1 := by
  obtain ⟨idHigh, idLow, lenHigh, lenLow, rfl⟩ := Spec.two_fields whole
  have ahead : frames <+: (Spec.coroutineService.parse
      (consumed ++ [idHigh, idLow, lenHigh, lenLow])).frames := by
    rw [parse_boundary parsed, Parsed.prepend_frames]
    exact List.prefix_append _ _
  obtain ⟨filled, told⟩ : ∃ filled, started.fillHead [idHigh, idLow, lenHigh, lenLow] = filled := ⟨_, rfl⟩
  have fields : header filled.session.recvHeadNode.data =
      .ok (bigEndianShort idHigh idLow, bigEndianShort lenHigh lenLow) := by
    rw [← told]
    exact header_of_fields ..
  have still : filled.posted = started.posted ∧ Headed filled.session := by
    rw [← told]
    refine ⟨rfl, headed.size, ?_⟩
    have := headed.allocated
    simp only [headTotalLen] at this
    simp only [Started.fillHead, List.length_append, List.length_map, List.length_drop, List.length_cons,
      List.length_nil, headTotalLen]
    omega
  have posts : Posts filled frames := by
    rw [Posts, still.1]
    exact posts
  have nonempty : [idHigh, idLow, lenHigh, lenLow].length ≠ 0 := Nat.succ_ne_zero 3
  rw [onHead_of_nonempty nonempty, told, fields, Started.checkHeader]
  by_cases large : bigEndianShort lenHigh lenLow > maxLength
  · rw [if_pos large]
    exact reached_ended (.inl ⟨_, rfl⟩) rfl posts ahead
  rw [if_neg large]
  by_cases negative : bigEndianShort lenHigh lenLow < 0
  · by_cases edge : bigEndianShort lenHigh lenLow = -1
    · have verdict : Spec.coroutineService.verdict [idHigh, idLow, lenHigh, lenLow] = .reject :=
        Spec.coroutineService_reject.mpr (.inl negative)
      have stops : StopsAtMinusOne (consumed ++ [idHigh, idLow, lenHigh, lenLow]) := by
        refine ⟨idHigh, idLow, lenHigh, lenLow, ?_, edge⟩
        have four : [idHigh, idLow, lenHigh, lenLow].length = Spec.coroutineService.headLength := rfl
        have rejected := @parse_reject _ _ _ _ [] four verdict
        rw [List.append_nil] at rejected
        rw [parse_boundary parsed, rejected, Parsed.prepend_rejected]
      have failed : MsgNode.new (bigEndianShort lenHigh lenLow) = .error .outOfBounds := by
        rw [edge]
        rfl
      rw [failed]
      exact reached_ended (.inr ⟨.outOfBounds, rfl, stops⟩) rfl posts ahead
    · have failed : MsgNode.new (bigEndianShort lenHigh lenLow) = .error .badArrayNewLength := by
        rw [MsgNode.new, newChar_of_negative (by omega)]
        rfl
      rw [failed]
      exact reached_ended (.inl ⟨_, rfl⟩) rfl posts ahead
  · obtain ⟨length, size⟩ := Int.eq_ofNat_of_zero_le (Int.not_lt.mp negative)
    have limit : length ≤ maxLength := by omega
    have verdict : Spec.coroutineService.verdict [idHigh, idLow, lenHigh, lenLow] =
        .accept (bigEndianShort idHigh idLow) length := by
      simp only [Spec.coroutineService]
      exact Spec.verdictOf_accept.mpr ⟨rfl, size, limit⟩
    rw [size, MsgNode.new_of_nonneg]
    exact .body rfl rfl parsed whole verdict limit rfl posts ⟨still.2.size, still.2.allocated⟩

/-- A whole body makes a frame, which is posted unless it is empty. -/
private theorem reached_onBody {before front : List UInt8} {msgId : ℤ} {node : RecvNode ℤ}
    (parsed : Spec.coroutineService.parse before = ⟨frames, none, []⟩)
    (whole : front.length = Spec.coroutineService.headLength)
    (verdict : Spec.coroutineService.verdict front = .accept msgId bytes.length)
    (limit : bytes.length ≤ maxLength)
    (fresh : node = ⟨⟨0, bytes.length, List.replicate bytes.length none ++ [some 0]⟩, msgId⟩)
    (posts : Posts started frames) (headed : Headed started.session) :
    Reached (before ++ front ++ bytes) (started.onBody node (some bytes)).1 := by
  have frame : Spec.coroutineService.parse (before ++ front ++ bytes) =
      ⟨frames ++ [(msgId, bytes)], none, []⟩ := by
    rw [List.append_assoc, parse_boundary parsed, parse_whole whole verdict]
    rfl
  rw [Started.onBody]
  by_cases empty : bytes.length = 0
  · rw [if_pos empty]
    refine reached_ended (.inl ⟨_, rfl⟩) rfl posts ?_
    rw [frame]
    exact List.prefix_append _ _
  · have room : (List.replicate bytes.length none ++ [some 0] : Cells).drop bytes.length = [some 0] :=
      List.drop_left' (List.length_replicate ..)
    have stored : store (bytes.map some ++ node.data.drop bytes.length) node.maxLen 0 =
        .ok (bytes.map some ++ [some 0]) := by
      rw [fresh, room]
      exact store_last bytes (some 0) 0
    rw [if_neg empty, stored]
    have told : message { node with data := bytes.map some ++ [some 0] } = .ok (msgId, bytes) := by
      rw [fresh]
      exact message_of_body msgId 0 limit _
    exact reached_loopTop frame (posts.append told rfl) ⟨headed.size, headed.allocated⟩

end Coroutine

section Events

variable [DecidableEq τ] {clears : Bool}

omit [DecidableEq τ] in
private theorem posts_nothing (posted : started.posted = []) : Posts started [] := by
  rw [Posts, posted]
  rfl

theorem Reached.resume (reached : Reached consumed started)
    (applied : Event.apply started .resume = some (next, clears)) : Reached consumed next := by
  simp only [Event.apply] at applied
  split_ifs at applied with place
  cases applied
  cases reached with
  | spawned _ nothing posted headed =>
    subst nothing
    exact reached_loopTop parse_nil (posts_nothing posted) headed
  | head phase _ _ _ => cases place.symm.trans phase
  | body phase _ _ _ _ _ _ _ _ => cases place.symm.trans phase
  | ended finished _ _ =>
    rw [place] at finished
    rcases finished with ⟨_, same⟩ | ⟨_, same, -⟩ <;> cases same

/-- A read that throws ends the coroutine. -/
theorem Reached.throws (reached : Reached consumed started)
    (applied : Event.apply started (.read none) = some (next, clears)) : Reached consumed next := by
  obtain ⟨frames, posts, ahead⟩ := reached.posts
  simp only [Event.apply] at applied
  split at applied
  · split_ifs at applied
    cases applied
    exact reached_ended (.inl ⟨_, rfl⟩) rfl posts ahead
  · split_ifs at applied
    cases applied
    exact reached_ended (.inl ⟨_, rfl⟩) rfl posts ahead
  · contradiction

/-- A read that fills its node takes the coroutine on by what it has read. -/
theorem Reached.reads (reached : Reached consumed started) {node : MsgNode}
    (fills : started.filling = some node) (whole : bytes.length = toSizeT node.maxLen)
    (applied : Event.apply started (.read (some bytes)) = some (next, clears)) :
    Reached (consumed ++ bytes) next := by
  cases reached with
  | spawned phase _ _ _ =>
    rw [Started.filling, phase] at fills
    cases fills
  | head phase parsed posts headed =>
    rw [Started.filling, phase] at fills
    cases fills
    rw [headed.size, toSizeT_natCast (by decide)] at whole
    simp only [Event.apply, phase] at applied
    split_ifs at applied
    have reached := reached_onHead parsed posts headed whole
    rwa [Option.some.inj applied] at reached
  | @body frames before front msgId length phase split parsed size verdict limit held posts headed =>
    rw [Started.filling, phase, held] at fills
    cases fills
    rw [toSizeT_of_limit limit] at whole
    subst whole
    simp only [Event.apply, phase, held] at applied
    split_ifs at applied
    have reached := reached_onBody parsed size verdict limit rfl posts headed
    rwa [Option.some.inj applied, ← split] at reached
  | ended finished _ _ =>
    rw [Started.filling] at fills
    rcases finished with ⟨_, same⟩ | ⟨_, same, -⟩ <;> rw [same] at fills <;> cases fills

theorem Reached.sending (reached : Reached consumed started)
    {action : SendPipeline.Action τ (List UInt8 × ℤ)}
    (applied : Event.apply started (.sending action) = some (next, clears)) : Reached consumed next := by
  obtain ⟨sending, -, same⟩ := Option.map_eq_some_iff.mp applied
  cases action with
  | written index success => cases success <;> cases same <;> exact reached.same rfl rfl rfl rfl
  | _ =>
    cases same
    exact reached.same rfl rfl rfl rfl

end Events

section Service

variable {σ : Type} [DecidableEq σ] {json : JsonCpp} {service target : Service σ}

/-- Of every peer, the bytes that its session has not read are what follows those that it has. -/
structure Hears (service : Service σ) : Prop where
  unknown : ∀ uuid, service.server.started uuid = none → service.arrived uuid = service.unread uuid
  sessions : ∀ uuid started, service.server.started uuid = some started →
    ∃ consumed, service.arrived uuid = consumed ++ service.unread uuid ∧ Reached consumed started

omit [DecidableEq σ] in
theorem hears_main : Hears (.main : Service σ) := ⟨fun _ _ => rfl, fun _ _ found => by cases found⟩

/-- A step that changes one session takes that session on. -/
private theorem Hears.update (hears : Hears service) (uuid : σ) (next : Started Unit)
    (others : ∀ other, other ≠ uuid → target.server.started other = service.server.started other ∧
      target.arrived other = service.arrived other ∧ target.unread other = service.unread other)
    (here : target.server.started uuid = some next)
    (reached : ∃ consumed, target.arrived uuid = consumed ++ target.unread uuid ∧
      Reached consumed next) : Hears target := by
  refine ⟨fun other absent => ?_, fun other held found => ?_⟩
  · have different : other ≠ uuid := fun same => by
      rw [same, here] at absent
      cases absent
    obtain ⟨started, arrived, unread⟩ := others other different
    rw [arrived, unread]
    exact hears.unknown other (started.symm.trans absent)
  · by_cases same : other = uuid
    · subst same
      cases here.symm.trans found
      exact reached
    · obtain ⟨started, arrived, unread⟩ := others other same
      rw [arrived, unread]
      exact hears.sessions other held (started.symm.trans found)

/-- The bytes of a peer that arrive are behind those that have. -/
private theorem Hears.arrives (hears : Hears service) (uuid : σ) (bytes : List UInt8) :
    Hears { service with
      unread := Function.update service.unread uuid (service.unread uuid ++ bytes)
      arrived := Function.update service.arrived uuid (service.arrived uuid ++ bytes) } := by
  refine ⟨fun other absent => ?_, fun other held found => ?_⟩
  · have before := hears.unknown other absent
    by_cases same : other = uuid
    · subst same
      simp only [Function.update_self, before]
    · simpa only [Function.update_of_ne same] using before
  · obtain ⟨consumed, split, reached⟩ := hears.sessions other held found
    refine ⟨consumed, ?_, reached⟩
    by_cases same : other = uuid
    · subst same
      simp only [Function.update_self, split, List.append_assoc]
    · simpa only [Function.update_of_ne same] using split

private theorem Hears.sends (hears : Hears service) {uuid : σ} {started : Started Unit}
    (found : service.server.started uuid = some started) (sending : SendPipeline Unit SendNode) :
    Hears (sends service uuid started sending) := by
  obtain ⟨consumed, split, reached⟩ := hears.sessions uuid started found
  apply hears.update uuid { started with sending }
  · intro other different
    simp only [CoroutineService.sends, CServer.handle, Function.update_of_ne different, and_self]
  · simp only [CoroutineService.sends, CServer.handle, Function.update_self]
  · exact ⟨consumed, split, reached.same rfl rfl rfl rfl⟩

theorem Hears.step {action : Service.Action σ} (hears : Hears service)
    (taken : service.step json action = some target) : Hears target := by
  obtain ⟨-, passes⟩ := passes_of_step taken
  cases passes with
  | arrives => exact hears.arrives _ _
  | @accept uuid dispatched session free unknown built =>
    have headed : Headed session := by
      rw [newSession_eq] at built
      cases built
      exact ⟨rfl, rfl⟩
    have fresh : Reached [] (if dispatched then (Started.spawn session : Started Unit).loopTop
        else .spawn session) := by
      cases dispatched with
      | false => exact .spawned rfl rfl rfl headed
      | true =>
        have nothing : Posts (Started.spawn session : Started Unit) [] := rfl
        exact reached_loopTop parse_nil nothing headed
    refine hears.update uuid _ (fun other different => ?_) ?_ ⟨[], hears.unknown uuid unknown, fresh⟩
    · simp only [CServer.accept, Function.update_of_ne different, and_self]
    · simp only [CServer.accept, Function.update_self]
  | acceptError _ => exact hears
  | @handles _ uuid event started next clears unread handler free found takes applied =>
    obtain ⟨consumed, split, reached⟩ := hears.sessions uuid started found
    have here : (handled service uuid started next clears unread).server.started uuid = some next := by
      simp only [handled, CServer.handle, Function.update_self]
    have others (other : σ) (different : other ≠ uuid) :
        (handled service uuid started next clears unread).server.started other =
          service.server.started other := by
      simp only [handled, CServer.handle, Function.update_of_ne different]
    cases takes with
    | resume =>
      exact hears.update uuid next (fun other different => ⟨others other different, rfl, rfl⟩) here
        ⟨consumed, split, reached.resume applied⟩
    | throws =>
      exact hears.update uuid next (fun other different => ⟨others other different, rfl, rfl⟩) here
        ⟨consumed, split, reached.throws applied⟩
    | @reads node bytes rest fills whole ahead =>
      refine hears.update uuid next (fun other different => ⟨others other different, rfl, ?_⟩) here
        ⟨consumed ++ bytes, ?_, reached.reads fills whole applied⟩
      · exact Function.update_of_ne different ..
      · simp only [handled, Function.update_self, split, ahead, List.append_assoc]
    | written =>
      exact hears.update uuid next (fun other different => ⟨others other different, rfl, rfl⟩) here
        ⟨consumed, split, reached.sending applied⟩
  | lock _ _ => exact ⟨hears.unknown, hears.sessions⟩
  | logic _ _ => exact ⟨hears.unknown, hears.sessions⟩
  | worker _ _ _ => exact ⟨hears.unknown, hears.sessions⟩
  | escapes _ _ _ _ => exact ⟨hears.unknown, hears.sessions⟩
  | @calls node logic started reply serves moved found called =>
    have still : Hears { service with logic } := ⟨hears.unknown, hears.sessions⟩
    exact still.sends found _
  | asyncWrite found stepped => exact hears.sends found _

end Service

end BoostLearn.Soundness.CoroutineService
