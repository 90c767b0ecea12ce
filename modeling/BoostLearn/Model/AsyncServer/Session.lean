import BoostLearn.Model.HandleRead

/-! # Receiving in AsyncServer -/

namespace BoostLearn.Model.AsyncServer

open CInt Memory Wire HandleRead

/-- `Session::Session`: an empty head node and no body node. -/
def newSession : Except Fault (Session ℤ) := do
  let head ← MsgNode.new headTotalLen
  return ⟨head, false, none⟩

/-- The header fields of `handle_read`, each checked as soon as it is read. -/
def header (cells : Cells) : Except Fault (Option (ℤ × ℤ)) := do
  let msgId := toShort (networkToHostShort (← loadShort cells 0))
  if msgId > maxLength then return none
  let msgLen := toShort (networkToHostShort (← loadShort cells 2))
  if msgLen > maxLength then return none
  return some (msgId, msgLen)

/-- The id and the payload that the worker reads out of a posted node. -/
def message (node : RecvNode ℤ) : Except Fault (ℤ × List UInt8) := do
  let payload ← readString node.data (toSizeT node.curLen)
  return (node.msgId, payload)

/-- Both completion branches post the node itself. -/
def codec : Codec ℤ (ℤ × List UInt8) where
  headLen := headTotalLen
  narrow := toShort
  header := header
  newNode := MsgNode.new
  complete := message
  continued := message

theorem newSession_eq :
    newSession = .ok ⟨⟨0, 4, List.replicate 4 none ++ [some 0]⟩, false, none⟩ := rfl

theorem message_of_body (tag : ℤ) {body : List UInt8} (limit : body.length ≤ maxLength) (rest : Cells) :
    message ⟨⟨body.length, body.length, body.map some ++ rest⟩, tag⟩ = .ok (tag, body) := by
  rw [message, toSizeT_of_limit limit, bind_of_ok (readString_map body rest)]
  rfl

private theorem header_of_loads {cells : Cells} {first second : ℤ}
    (msgId : loadShort cells 0 = .ok first) (msgLen : loadShort cells 2 = .ok second) :
    header cells =
      if toShort (networkToHostShort first) > maxLength then .ok none
      else if toShort (networkToHostShort second) > maxLength then .ok none
      else .ok (some (toShort (networkToHostShort first), toShort (networkToHostShort second))) := by
  rw [header, msgId]
  simp only [msgLen, bind, Except.bind, pure, Except.pure]

theorem header_of_fields (idHigh idLow lenHigh lenLow : UInt8) (rest : Cells) :
    header ([idHigh, idLow, lenHigh, lenLow].map some ++ rest) =
      if bigEndianShort idHigh idLow > maxLength then .ok none
      else if bigEndianShort lenHigh lenLow > maxLength then .ok none
      else .ok (some (bigEndianShort idHigh idLow, bigEndianShort lenHigh lenLow)) := by
  have msgId : loadShort ([idHigh, idLow, lenHigh, lenLow].map some ++ rest) 0 =
    .ok (toShort (idHigh.toNat + 256 * idLow.toNat)) := loadShort_of_bytes rfl rfl
  have msgLen : loadShort ([idHigh, idLow, lenHigh, lenLow].map some ++ rest) 2 =
    .ok (toShort (lenHigh.toNat + 256 * lenLow.toNat)) := loadShort_of_bytes rfl rfl
  rw [header_of_loads msgId msgLen, networkToHostShort_load, networkToHostShort_load]

end BoostLearn.Model.AsyncServer
