import BoostLearn.Model.AsyncServerUseProtobuf.MsgData
import BoostLearn.Soundness.AsyncServerUseProtobuf.Echo

/-! # How long the replies of AsyncServer_useProtobuf are

A reply is longer than its request by the text in front of its data, but only the length of the
request is checked. So a reply keeps to the limit exactly when the fields of its request leave room
for that text; then its frame carries its length, and the client has room for it.
-/

namespace BoostLearn.Soundness.AsyncServerUseProtobuf

open CInt Framing Framing.Format Model Model.Wire Model.HandleRead Model.AsyncServerUseProtobuf Spec

/-- A reply within the limit, which is framed by its exact length and read back from its frame. -/
structure Fits (reply : List UInt8) : Prop where
  limit : reply.length ≤ maxLength
  framed : sent reply = .ok (bigEndianBytes reply.length ++ reply)
  decoded : useProtobuf.parse (bigEndianBytes reply.length ++ reply) = ⟨[((), reply)], none, []⟩
  received : SyncClientUseProtobuf.received (bigEndianBytes reply.length ++ reply) = .ok reply

/-- How many bytes an `int32` takes in the field 1, its tag included. -/
def idSize (id : ℤ) : ℕ :=
  if id = 0 then 0
  else if id < 0 then 11
  else if id < 128 then 2
  else if id < 16384 then 3
  else if id < 2097152 then 4
  else if id < 268435456 then 5
  else 6

theorem fits_of_limit {reply : List UInt8} (limit : reply.length ≤ maxLength) : Fits reply := by
  refine ⟨limit, sent_of_limit limit, ?_, received_of_limit limit⟩
  obtain ⟨high, low, bytes, field⟩ := bigEndianShort_bytes reply.length
  rw [toShort_of_limit limit] at field
  have verdict : useProtobuf.verdict [high, low] = .accept () reply.length := by
    simp only [useProtobuf]
    exact verdictOf_accept.mpr ⟨rfl, field, limit⟩
  rw [bytes, parse_whole rfl verdict]

/-- The size of an id is that of its varint, which has 64 bits for a negative one. -/
theorem idSize_eq {id : ℤ} (low : -2147483648 ≤ id) (high : id < 2147483648) (present : id ≠ 0) :
    1 + (varint (toSizeT id)).length = idSize id := by
  rw [idSize, if_neg present]
  by_cases negative : id < 0
  · have wide : toSizeT id = (18446744073709551616 + id).toNat := by
      simp only [toSizeT]
      omega
    rw [if_pos negative, @length_varint_eq _ 8 (by rw [wide]; omega) (by rw [wide]; omega)]
  · have same : toSizeT id = id.toNat := toSizeT_of_range (by omega) (by omega)
    rw [if_neg negative, same]
    split_ifs
    · rw [varint_of_lt (by omega), List.length_singleton]
    · rw [@length_varint_eq _ 0 (by omega) (by omega)]
    · rw [@length_varint_eq _ 1 (by omega) (by omega)]
    · rw [@length_varint_eq _ 2 (by omega) (by omega)]
    · rw [@length_varint_eq _ 3 (by omega) (by omega)]

theorem idSize_le (id : ℤ) : idSize id ≤ 11 := by
  rw [idSize]
  split_ifs
  all_goals omega

/-- The text takes 37 bytes, and a string of a size that is near the limit has a length of two. -/
theorem reply_length_iff (fields : List UInt8 → ℕ × List UInt8) (body : List UInt8) :
    (reply (generated fields) body).length ≤ maxLength ↔
      (fields body).2.length + idSize (toInt (fields body).1) ≤ 2008 := by
  obtain ⟨low, high⟩ := toInt_range (fields body).1
  generalize parsed : toInt (fields body).1 = id at low high
  have replied : reply (generated fields) body =
      MsgData.internalSerialize ⟨id, replyPrefix ++ (fields body).2⟩ := by
    rw [← parsed]
    rfl
  have text : (replyPrefix ++ (fields body).2).length = 37 + (fields body).2.length := by
    rw [List.length_append]
    rfl
  have present : replyPrefix ++ (fields body).2 ≠ [] :=
    List.ne_nil_of_length_pos (by rw [text]; omega)
  have short := length_varint_le_iff (37 + (fields body).2.length) 0
  have medium := length_varint_le_iff (37 + (fields body).2.length) 1
  have positive := length_varint_pos (37 + (fields body).2.length)
  have bound := idSize_le id
  have size : (MsgData.internalSerialize ⟨id, replyPrefix ++ (fields body).2⟩).length =
      idSize id + (1 + ((varint (37 + (fields body).2.length)).length +
        (37 + (fields body).2.length))) := by
    rw [MsgData.length_internalSerialize, MsgData.byteSizeLong]
    dsimp only
    rw [if_pos present, text]
    split_ifs with nonzero
    · rw [← idSize_eq low high nonzero]
      omega
    · rw [not_not.mp nonzero]
      simp only [idSize, if_true]
  rw [replied, size, maxLength]
  omega

/-- A stream of requests whose bodies each come in one read. -/
structure Arrival (requests : List Request) extends Cutting (requests.flatMap Request.bytes) where
  uncut : ∀ count, useProtobuf.openBody (stream (completions.take count)) = none

/-- Every request is answered, in order, and every reply fits. -/
def RepliesFit (protobuf : Protobuf) {requests : List Request} (arrival : Arrival requests) : Prop :=
  ∃ done bound, (∀ fuel, bound < fuel →
      (codec protobuf).deliver fuel ⟨started, []⟩ arrival.completions = some (.ok done)) ∧
    done.effects.filterMap Effect.out? = requests.map (fun request => reply protobuf request.body) ∧
    ∀ out ∈ done.effects.filterMap Effect.out?, Fits out

/-- The replies fit exactly when every request leaves room for the text. -/
theorem repliesFit_iff (fields : List UInt8 → ℕ × List UInt8) (requests : List Request)
    (arrival : Arrival requests) :
    RepliesFit (generated fields) arrival ↔
      ∀ request ∈ requests,
        (fields request.body).2.length + idSize (toInt (fields request.body).1) ≤ 2008 := by
  constructor
  · rintro ⟨done, bound, -, outs, fit⟩ request member
    apply (reply_length_iff fields request.body).mp
    have sent : reply (generated fields) request.body ∈ done.effects.filterMap Effect.out? := by
      rw [outs]
      exact List.mem_map_of_mem member
    exact (fit _ sent).limit
  · intro leave
    have whole : WholeBodies arrival.toCutting := arrival.uncut
    obtain ⟨done, bound, delivered, outs, -⟩ :=
      @answers_of_wholeBodies _ (generated fields) _ whole
    refine ⟨done, bound, delivered, outs, fun out member => ?_⟩
    rw [outs] at member
    obtain ⟨request, asked, rfl⟩ := List.mem_map.mp member
    exact fits_of_limit ((reply_length_iff fields request.body).mpr (leave request asked))

section Example

/-- A message without an id and with 2042 letters. -/
def longRequest : Request := ⟨[18, 250, 15] ++ List.replicate 2042 97, by decide +kernel⟩

theorem openBody_requests (requests : List Request) :
    useProtobuf.openBody (requests.flatMap Request.bytes) = none := by
  apply openBody_of_tail
  rw [parse_requests]
  exact useProtobuf.headLength_pos

/-- It comes in one read. -/
def longArrival : Arrival [longRequest] where
  completions := [⟨longRequest.bytes, by decide +kernel, by decide +kernel⟩]
  whole := rfl
  uncut count := by
    cases count with
    | zero => exact openBody_short useProtobuf.headLength_pos
    | succ count =>
      rw [List.take_succ_cons, List.take_nil]
      exact openBody_requests [longRequest]

theorem not_repliesFit : ¬ RepliesFit (generated fun body => (0, body.drop 3)) longArrival := by
  rintro ⟨done, bound, -, outs, fit⟩
  have limit := (fit (reply (generated fun body => (0, body.drop 3)) longRequest.body)
    (by rw [outs]; exact List.mem_singleton_self _)).limit
  have room := (reply_length_iff (fun body => (0, body.drop 3)) longRequest.body).mp limit
  exact absurd room (by decide +kernel)

end Example

end BoostLearn.Soundness.AsyncServerUseProtobuf
