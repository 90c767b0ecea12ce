import BoostLearn.Model.HelloWorld

/-! # Which messages become frames

`Send` takes a string of any length, and the length passes through a `short` on its way into a
node. A message whose frame fits a `short` is encoded without loss. A longer one gets an array of
negative size or one that is too small, or loses its end in CoroutineService, where the parameter
of the inner `Send` has wrapped.
-/

namespace BoostLearn.Soundness.LogicSystem

open CInt Memory Model Model.Wire Model.LogicSystem

/-- The first test of `Send` refuses the message. -/
def Full (server : Server) (queued : ℕ) : Prop :=
  match server with
  | .asyncServer => AsyncServer.maxSendque < toInt queued
  | .coroutineService => maxLength < queued

/-- The values that the call converts to a `short`: the parameter `len` in CoroutineService, the
size of the node and the length field. -/
def narrowings (server : Server) (queued : ℕ) (msg : Text) : List ℤ :=
  match server with
  | .asyncServer =>
    if toInt queued > AsyncServer.maxSendque then []
    else [msg.length + headTotalLen, msg.length]
  | .coroutineService =>
    let msgLen := toSizeT (toShort msg.length)
    msg.length :: if queued > maxLength then [] else [msgLen + headTotalLen, msgLen]

/-- The node covers the frame and holds the id, the length and all of the message. -/
structure Framed (msg : Text) (msgId : ℤ) (node : SendNode) : Prop where
  size : node.maxLen = msg.length + headTotalLen
  covered : msg.length + headTotalLen ≤ node.data.length
  field : msg.length < 65536
  bytes : node.data.take (msg.length + headTotalLen) =
    (bigEndianBytes msgId ++ bigEndianBytes msg.length ++ msg).map some

/-- Nothing is pushed when the queue is full, or when the node cannot be allocated. -/
def Unsent (result : Except Fault (Option SendNode)) : Prop :=
  result = .ok none ∨ result = .error .badArrayNewLength

/-- `Send` pushes nothing or the frame of the message, and no conversion changes a value. -/
structure Encodes (server : Server) (queued : ℕ) (msg : Text) (msgId : ℤ) : Prop where
  framed : Unsent (server.send queued msg msgId) ∨
    ∃ node, server.send queued msg msgId = .ok (some node) ∧ Framed msg msgId node
  preserved : ∀ value ∈ narrowings server queued msg, toShort value = value

/-- The message is refused, or a `short` can hold the length of its frame; the parameter `len`
has to hold the length of the message in any case. -/
def Short (server : Server) (queued length : ℕ) : Prop :=
  match server with
  | .asyncServer => Full .asyncServer queued ∨ length + headTotalLen < 32768
  | .coroutineService =>
    length < 32768 ∧ (Full .coroutineService queued ∨ length + headTotalLen < 32768)

variable {server : Server} {queued : ℕ} {msg : Text} {msgId : ℤ}

theorem send_of_full (full : Full server queued) (msg : Text) (msgId : ℤ) :
    server.send queued msg msgId = .ok none := by
  cases server with
  | asyncServer =>
    simp only [Full] at full
    simp only [Server.send]
    rw [if_pos full]
    rfl
  | coroutineService =>
    simp only [Full] at full
    simp only [Server.send]
    rw [if_pos full]
    rfl

/-- A message that is not refused and fits is pushed as a frame with a terminator. -/
theorem send_of_short (room : ¬ Full server queued) (short : msg.length + headTotalLen < 32768)
    (msgId : ℤ) :
    server.send queued msg msgId = .ok (some {
      curLen := 0
      maxLen := (msg.length + headTotalLen : ℕ)
      data := (bigEndianBytes msgId ++ bigEndianBytes msg.length ++ msg).map some ++ [some 0]
      msgId }) := by
  have built := SendNode.new_of_fits (Nat.le_refl msg.length) short msgId
  rw [List.take_length] at built
  cases server with
  | asyncServer =>
    simp only [Full] at room
    simp only [Server.send]
    rw [if_neg room, bind_of_ok built]
    rfl
  | coroutineService =>
    have length : toSizeT (toShort msg.length) = msg.length := by
      rw [toShort_of_range (by omega) (by omega), toSizeT_natCast (by omega)]
    simp only [Full] at room
    simp only [Server.send]
    rw [if_neg room, length, bind_of_ok built]
    rfl

/-- The node of a short message is written as its frame. -/
theorem written_of_short (room : ¬ Full server queued) (short : msg.length + headTotalLen < 32768)
    (msgId : ℤ) :
    ∃ node, server.send queued msg msgId = .ok (some node) ∧
      node.written = .ok (bigEndianBytes msgId ++ bigEndianBytes msg.length ++ msg) := by
  obtain ⟨node, built, written⟩ := SendNode.written_of_fits (Nat.le_refl msg.length) short msgId
  have same := (SendNode.new_of_fits (Nat.le_refl msg.length) short msgId).symm.trans built
  rw [List.take_length] at same written
  cases same
  exact ⟨_, send_of_short room short msgId, written⟩

private theorem narrowings_of_full (full : Full .asyncServer queued) (msg : Text) :
    narrowings .asyncServer queued msg = [] := by
  simp only [Full] at full
  simp only [narrowings]
  rw [if_pos full]

private theorem narrowings_of_room (room : ¬ Full .asyncServer queued) (msg : Text) :
    narrowings .asyncServer queued msg = [(msg.length : ℤ) + headTotalLen, (msg.length : ℤ)] := by
  simp only [Full] at room
  simp only [narrowings]
  rw [if_neg room]

private theorem narrowings_of_refused (full : Full .coroutineService queued) (msg : Text) :
    narrowings .coroutineService queued msg = [(msg.length : ℤ)] := by
  simp only [Full] at full
  simp only [narrowings]
  rw [if_pos full]

private theorem narrowings_of_pushed (room : ¬ Full .coroutineService queued)
    (small : msg.length < 32768) :
    narrowings .coroutineService queued msg =
      [(msg.length : ℤ), (msg.length : ℤ) + headTotalLen, (msg.length : ℤ)] := by
  simp only [Full] at room
  simp only [narrowings]
  rw [if_neg room, toShort_of_range (by omega) (by omega), toSizeT_natCast (by omega)]

/-- A value that survives the conversion is in the range of its target. -/
private theorem lt_of_preserved {length : ℕ} (same : toShort length = length) : length < 32768 := by
  have range := toShort_range length
  omega

/-- The frame of a short message is in the node, from its first byte to its last. -/
theorem framed_of_short (room : ¬ Full server queued) (short : msg.length + headTotalLen < 32768)
    (msgId : ℤ) :
    ∃ node, server.send queued msg msgId = .ok (some node) ∧ Framed msg msgId node := by
  refine ⟨_, send_of_short room short msgId, ?_, ?_, by omega, ?_⟩
  · exact Int.natCast_add _ _
  · simp only [List.length_append, List.length_map, bigEndianBytes, List.length_cons,
      List.length_nil, headTotalLen]
    omega
  · apply List.take_left'
    simp only [List.length_map, List.length_append, bigEndianBytes, List.length_cons,
      List.length_nil, headTotalLen]
    omega

private theorem preserved_of_short (short : Short server queued msg.length) :
    ∀ value ∈ narrowings server queued msg, toShort value = value := by
  have kept {value : ℤ} (low : 0 ≤ value) (high : value < 32768) : toShort value = value :=
    toShort_of_range (by omega) high
  intro value member
  by_cases full : Full server queued
  · cases server with
    | asyncServer =>
      rw [narrowings_of_full full] at member
      cases member
    | coroutineService =>
      rw [narrowings_of_refused full, List.mem_singleton] at member
      rw [member]
      exact kept (by omega) (by have := short.1; omega)
  · cases server with
    | asyncServer =>
      have fits := short.resolve_left full
      simp only [narrowings_of_room full, List.mem_cons, List.not_mem_nil, or_false] at member
      rcases member with rfl | rfl
      · exact kept (by omega) (by omega)
      · exact kept (by omega) (by omega)
    | coroutineService =>
      have fits := short.2.resolve_left full
      simp only [narrowings_of_pushed full short.1, List.mem_cons, List.not_mem_nil, or_false] at member
      rcases member with rfl | rfl | rfl
      · exact kept (by omega) (by omega)
      · exact kept (by omega) (by omega)
      · exact kept (by omega) (by omega)

theorem encodes_of_short (short : Short server queued msg.length) (msgId : ℤ) :
    Encodes server queued msg msgId := by
  refine ⟨?_, preserved_of_short short⟩
  by_cases full : Full server queued
  · exact Or.inl (Or.inl (send_of_full full msg msgId))
  · apply Or.inr
    cases server with
    | asyncServer => exact framed_of_short full (short.resolve_left full) msgId
    | coroutineService => exact framed_of_short full (short.2.resolve_left full) msgId

theorem short_of_encodes (encodes : Encodes server queued msg msgId) :
    Short server queued msg.length := by
  have preserved := encodes.preserved
  cases server with
  | asyncServer =>
    refine Classical.or_iff_not_imp_left.mpr fun room => ?_
    rw [narrowings_of_room room] at preserved
    apply lt_of_preserved
    rw [Int.natCast_add]
    exact preserved _ List.mem_cons_self
  | coroutineService =>
    have small : msg.length < 32768 := lt_of_preserved (preserved _ List.mem_cons_self)
    refine ⟨small, Classical.or_iff_not_imp_left.mpr fun room => ?_⟩
    rw [narrowings_of_pushed room small] at preserved
    apply lt_of_preserved
    rw [Int.natCast_add]
    exact preserved _ (List.mem_cons_of_mem _ List.mem_cons_self)

/-- The encoder loses nothing exactly on the messages that a `short` can count. -/
theorem encodes_iff_short (server : Server) (queued : ℕ) (msg : Text) (msgId : ℤ) :
    Encodes server queued msg msgId ↔ Short server queued msg.length :=
  ⟨short_of_encodes, fun short => encodes_of_short short msgId⟩

/-- The size of the frame wraps to zero in AsyncServer, the length of the message in
CoroutineService. -/
theorem not_encodes :
    ¬ Encodes .asyncServer 0 (List.replicate 65532 0) 1001 ∧
      ¬ Encodes .coroutineService 0 (List.replicate 65536 0) 1001 := by
  constructor
  · intro encodes
    have short := short_of_encodes encodes
    rw [List.length_replicate] at short
    rcases short with full | short
    · simp only [Full] at full
      exact absurd full (by decide +kernel)
    · exact absurd short (by decide)
  · intro encodes
    have short := short_of_encodes encodes
    rw [List.length_replicate] at short
    exact absurd short.1 (by decide)

end BoostLearn.Soundness.LogicSystem
