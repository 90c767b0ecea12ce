import BoostLearn.Core.WireFormat
import BoostLearn.Model.AsyncServerUseProtobuf.MsgData

/-! # The generated parser of MsgData

`ParseFromString` clears the message, runs the generated loop, and says whether it has got to the end
of the bytes; nobody looks at what it says, and the fields that were set before an error stay set. The
set of unknown fields is not modelled.
-/

namespace BoostLearn.Model

open CInt WireFormat

namespace AsyncServerUseProtobuf

/-- `MsgData::Clear`. -/
def MsgData.clear : MsgData := ⟨0, []⟩

/-- `MsgData::MergeImpl`. -/
def MsgData.mergeImpl (to_msg from_msg : MsgData) : MsgData :=
  let to_msg := if from_msg.data ≠ [] then { to_msg with data := from_msg.data } else to_msg
  if from_msg.id ≠ 0 then { to_msg with id := from_msg.id } else to_msg

/-- The switch in `MsgData::_InternalParse`. -/
def MsgData.switch (runtime : Runtime) : Switch MsgData := fun tag msg ptr =>
  match tag / 8 with
  | 1 =>
    if tag % 256 = 8 then
      let (value, ptr) := runtime.readVarint32 ptr
      some ({ msg with id := toInt value }, ptr)
    else none
  | 2 =>
    if tag % 256 = 18 then
      let (str, ptr) := runtime.stringParser ptr
      let msg := { msg with data := str }
      some (msg, ptr.bind fun ptr => if runtime.verifyUtf8 str then some ptr else none)
    else none
  | _ => none

/-- `MsgData::_InternalParse`. -/
def MsgData.internalParse (runtime : Runtime) : ℕ → MsgData → List UInt8 → Option (MsgData × Ended) :=
  WireFormat.internalParse runtime (MsgData.switch runtime)

/-- `ParseFromString`, with the result that nobody looks at. -/
def MsgData.parseFromString (runtime : Runtime) (body : List UInt8) : Option (MsgData × Bool) :=
  (MsgData.internalParse runtime (body.length + 1) .clear body).map fun (msg, ended) =>
    (msg, ended == .endOfStream)

/-- The calls of the generated code, on a runtime. -/
def onRuntime (runtime : Runtime) : Protobuf where
  parseFromString body := ((MsgData.parseFromString runtime body).map Prod.fst).getD .clear
  serializeToString := MsgData.internalSerialize

end AsyncServerUseProtobuf

end BoostLearn.Model
