import BoostLearn.Model.Json
import BoostLearn.Model.Wire

/-! # The clients of the JSON servers

JsonClient writes one request and reads one reply; JsonClient_forTest does the same again and again on
each of its connections. The data of the request is a parameter. Both copy the request into an array
without comparing sizes, and read the reply into an array whose size bounds the buffer that is read. They
differ in the type of the request's length, in the length of the text that is parsed, and in what they print.
-/

namespace BoostLearn.Model.JsonClient

open CInt Memory Wire Json

def maxLength : ℕ := 2048

def headTotalLen : ℕ := 4

inductive Client where
  | jsonClient
  | jsonClientForTest
deriving DecidableEq, Repr

/-- The variable `request_length`. -/
def Client.requestLength (client : Client) (length : ℕ) : ℤ :=
  match client with
  | .jsonClient => toShort length
  | .jsonClientForTest => length

/-- `root["id"] = 1001; root["data"] = data`. -/
def request (data : Text) : Except LogicError Value := do
  let root ← Value.null.assign (ascii "id") (.int 1001)
  root.assign (ascii "data") (.string data)

/-- What the client writes for the text of a request. -/
def Client.written (client : Client) (request : Text) : Except Fault (List UInt8) := do
  let requestLength := client.requestLength request.length
  let sendData := List.replicate maxLength (some 0)
  let sendData ← storeShort sendData 0 (toShort (hostToNetworkShort 1001))
  let sendData ← storeShort sendData 2 (toShort (hostToNetworkShort requestLength))
  let sendData ← memcpy sendData headTotalLen ((request ++ [0]).map some) 0 (toSizeT requestLength)
  readString sendData (min maxLength (toSizeT (requestLength + headTotalLen)))

/-- The length of the string that is parsed: JsonClient takes the variable `msg_len`, JsonClient_forTest the
number of the bytes it has read. -/
def Client.parsedLength (client : Client) (msgLen : ℤ) : ℕ :=
  match client with
  | .jsonClient => toSizeT msgLen
  | .jsonClientForTest => min maxLength (toSizeT msgLen)

/-- What the client parses of the bytes that it receives. -/
def Client.received (client : Client) (bytes : List UInt8) : Except Fault Text := do
  let replyHead := (bytes.take headTotalLen).map some
  let msgLen := toShort (networkToHostShort (← loadShort replyHead 2))
  let msg := List.replicate maxLength (some 0)
  let msg ← memcpy msg 0 ((bytes.drop headTotalLen).map some) 0 (min maxLength (toSizeT msgLen))
  readString msg (client.parsedLength msgLen)

/-- What a client prints: JsonClient an integer and a string, JsonClient_forTest the two members as JSON. -/
inductive Line where
  | converted (id : ℤ) (data : Text)
  | values (id data : Value)

/-- The line with an id and data that need no conversion. -/
def Client.line (client : Client) (id : ℤ) (data : Text) : Line :=
  match client with
  | .jsonClient => .converted id data
  | .jsonClientForTest => .values (.int id) (.string data)

/-- What the client prints of `root["id"]` and `root["data"]`. -/
def Client.printed (client : Client) (json : JsonCpp) (msg : Text) : Except LogicError Line := do
  let (_, root) := json.parse msg
  let (root, id) ← root.subscript (ascii "id")
  let (_, data) ← root.subscript (ascii "data")
  match client with
  | .jsonClient => return .converted (← id.asInt) (← data.asString json)
  | .jsonClientForTest => return .values id data

/-- A request that fits is written behind its id and its length. -/
theorem Client.written_of_room (client : Client) {request : Text} (room : request.length + 4 ≤ maxLength) :
    client.written request = .ok (bigEndianBytes 1001 ++ bigEndianBytes request.length ++ request) := by
  have small : request.length + 4 ≤ 2048 := room
  have zeros : (List.replicate maxLength (some (0 : UInt8))).length = 2048 := List.length_replicate
  have length : client.requestLength request.length = request.length := by
    cases client with
    | jsonClient => exact toShort_of_range (by omega) (by omega)
    | jsonClientForTest => rfl
  have id : storeShort (List.replicate maxLength (some 0)) 0 (toShort (hostToNetworkShort 1001)) =
      .ok ((bigEndianBytes 1001).map some ++ (List.replicate maxLength (some 0)).drop 2) := by
    have stored := memcpy_prefix [] (bigEndianBytes 1001) [] (List.replicate maxLength (some 0))
      (by rw [zeros]; exact Nat.le_of_ble_eq_true rfl)
    rw [List.append_nil] at stored
    exact (storeShort_hostToNetworkShort ..).trans stored
  have field : storeShort ((bigEndianBytes 1001).map some ++ (List.replicate maxLength (some 0)).drop 2) 2
      (toShort (hostToNetworkShort request.length)) =
      .ok ((bigEndianBytes 1001 ++ bigEndianBytes request.length).map some ++
        ((List.replicate maxLength (some 0)).drop 2).drop 2) := by
    have stored := memcpy_prefix (bigEndianBytes 1001) (bigEndianBytes request.length) []
      ((List.replicate maxLength (some 0)).drop 2) (by rw [List.length_drop, zeros]; exact Nat.le_of_ble_eq_true rfl)
    rw [List.append_nil] at stored
    exact (storeShort_hostToNetworkShort ..).trans stored
  have body := memcpy_prefix (bigEndianBytes 1001 ++ bigEndianBytes request.length) request [0]
    (((List.replicate maxLength (some 0)).drop 2).drop 2)
    (by rw [List.length_drop, List.length_drop, zeros]; omega)
  have front : ((bigEndianBytes 1001 ++ bigEndianBytes request.length).length : ℤ) = headTotalLen := rfl
  have size : (bigEndianBytes 1001 ++ bigEndianBytes request.length ++ request).length = request.length + 4 := by
    rw [List.length_append, Nat.add_comm]
    rfl
  have count : min maxLength (toSizeT ((request.length : ℤ) + headTotalLen)) =
      (bigEndianBytes 1001 ++ bigEndianBytes request.length ++ request).length := by
    rw [size, toSizeT_of_range (by omega) (by simp only [headTotalLen]; omega),
      Nat.min_eq_right (by simp only [maxLength, headTotalLen]; omega)]
    simp only [headTotalLen]
    omega
  rw [front] at body
  rw [Client.written, length, bind_of_ok id, bind_of_ok field, toSizeT_natCast (by omega), bind_of_ok body, count]
  exact readString_map _ _

/-- A frame is received as it was written. -/
theorem Client.received_of_room (client : Client) {msg : Text} (room : msg.length ≤ maxLength) (msgId : ℤ) :
    client.received (bigEndianBytes msgId ++ bigEndianBytes msg.length ++ msg) = .ok msg := by
  have small : msg.length ≤ 2048 := room
  obtain ⟨idHigh, idLow, idBytes, -⟩ := bigEndianShort_bytes msgId
  obtain ⟨high, low, lenBytes, field⟩ := bigEndianShort_bytes msg.length
  rw [toShort_of_range (by omega) (by omega)] at field
  have loaded : loadShort ([idHigh, idLow, high, low].map some) 2 =
      .ok (toShort (high.toNat + 256 * low.toNat)) := loadShort_of_bytes rfl rfl
  have size : toSizeT (msg.length : ℤ) = msg.length := toSizeT_natCast (by omega)
  have parsed : client.parsedLength msg.length = msg.length := by
    cases client with
    | jsonClient => exact size
    | jsonClientForTest => rw [parsedLength, size, Nat.min_eq_right room]
  have copied : memcpy (List.replicate maxLength (some 0)) 0 (msg.map some) 0 msg.length =
      .ok (msg.map some ++ (List.replicate maxLength (some 0)).drop msg.length) := by
    have whole := memcpy_prefix [] msg [] (List.replicate maxLength (some 0))
      (by rwa [List.length_replicate])
    rwa [List.append_nil] at whole
  have read := readString_map msg ((List.replicate maxLength (some 0)).drop msg.length)
  rw [received, idBytes, lenBytes]
  change (do
    let field ← loadShort ([idHigh, idLow, high, low].map some) 2
    let cells ← memcpy (List.replicate maxLength (some 0)) 0 (msg.map some) 0
      (min maxLength (toSizeT (toShort (networkToHostShort field))))
    readString cells (client.parsedLength (toShort (networkToHostShort field)))) = .ok msg
  rw [bind_of_ok loaded, networkToHostShort_load, field, size, Nat.min_eq_right room, bind_of_ok copied, parsed]
  exact read

end BoostLearn.Model.JsonClient
