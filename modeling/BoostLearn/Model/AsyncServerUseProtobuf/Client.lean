import BoostLearn.Model.AsyncServerUseProtobuf.MsgData

/-! # The request of SyncClient_useProtobuf

The client copies the serialized message behind its length into an array, and writes as much of the
array as it has filled. Nobody compares the size of the message with that of the array. Its `MsgData`
calls the second field `dara`, which the wire does not show; the message is a parameter here.
-/

namespace BoostLearn.Model

open CInt Memory Wire AsyncServerUseProtobuf

namespace SyncClientUseProtobuf

/-- What `main` writes for a message. -/
def written (msgdata : MsgData) : Except Fault (List UInt8) := do
  let request := msgdata.internalSerialize
  let requestLength := toShort request.length
  let sendData := List.replicate maxLength (some 0)
  let sendData ← storeShort sendData 0 (toShort (hostToNetworkShort requestLength))
  let sendData ← memcpy sendData headLength ((request ++ [0]).map some) 0 (toSizeT requestLength)
  readString sendData (min maxLength (toSizeT (requestLength + 2)))

/-- A request that fits is written behind its length. -/
theorem written_of_room {msgdata : MsgData} (room : msgdata.internalSerialize.length + 2 ≤ maxLength) :
    written msgdata =
      .ok (bigEndianBytes msgdata.internalSerialize.length ++ msgdata.internalSerialize) := by
  generalize serialized : msgdata.internalSerialize = request at room
  have small : request.length + 2 ≤ 2048 := room
  have limit : request.length ≤ maxLength := Nat.le_trans (Nat.le_add_right _ 2) room
  have size : (List.replicate maxLength (some (0 : UInt8))).length = 2048 := List.length_replicate
  have head : storeShort (List.replicate maxLength (some 0)) 0 (toShort (hostToNetworkShort request.length)) =
      .ok ((bigEndianBytes request.length).map some ++ (List.replicate maxLength (some 0)).drop 2) := by
    rw [storeShort_hostToNetworkShort]
    have stored := memcpy_prefix [] (bigEndianBytes request.length) [] (List.replicate maxLength (some 0))
      (by rw [size]; exact Nat.le_of_ble_eq_true rfl)
    rwa [List.append_nil] at stored
  have body := memcpy_prefix (bigEndianBytes request.length) request [0]
    ((List.replicate maxLength (some 0)).drop 2) (by rw [List.length_drop, size]; omega)
  have front : ((bigEndianBytes request.length).length : ℤ) = headLength := rfl
  have count : min maxLength (toSizeT ((request.length : ℤ) + 2)) =
      (bigEndianBytes request.length ++ request).length := by
    have length : (bigEndianBytes request.length ++ request).length = request.length + 2 := by
      rw [List.length_append, Nat.add_comm]
      rfl
    rw [length, toSizeT_of_range (by omega) (by omega), Nat.min_eq_right (by simp only [maxLength]; omega)]
    omega
  rw [front] at body
  rw [written, serialized, toShort_of_limit limit, bind_of_ok head, toSizeT_of_limit limit, bind_of_ok body, count]
  exact readString_map _ _

end SyncClientUseProtobuf

end BoostLearn.Model
