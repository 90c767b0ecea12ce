import BoostLearn.Core.Framing
import BoostLearn.Model.MsgNode

/-! # The framings of the three servers

A field is a signed 16-bit number with its high byte first, and a length is valid in the range
from zero to `MAX_LENGTH`. AsyncServer also bounds the message id, CoroutineService takes every
id, and AsyncServer_useProtobuf has no id at all.
-/

namespace BoostLearn.Spec

open CInt Framing Model Model.Wire

/-- A body of this length, unless the length is out of range. -/
def verdictOf {τ : Type} (tag : τ) (length : ℤ) : Verdict τ :=
  if 0 ≤ length ∧ length ≤ maxLength then .accept tag length.toNat else .reject

theorem verdictOf_accept {τ : Type} {tag tag' : τ} {value : ℤ} {length : ℕ} :
    verdictOf tag value = .accept tag' length ↔
      tag = tag' ∧ value = length ∧ length ≤ maxLength := by
  rw [verdictOf]
  by_cases range : 0 ≤ value ∧ value ≤ maxLength
  · rw [if_pos range, Verdict.accept.injEq, and_congr_right_iff]
    omega
  · rw [if_neg range]
    simp only [reduceCtorEq, false_iff]
    omega

theorem verdictOf_reject {τ : Type} {tag : τ} {value : ℤ} :
    verdictOf tag value = .reject ↔ value < 0 ∨ maxLength < value := by
  rw [verdictOf]
  by_cases range : 0 ≤ value ∧ value ≤ maxLength
  · rw [if_pos range]
    simp only [reduceCtorEq, false_iff]
    omega
  · rw [if_neg range]
    simp only [true_iff]
    omega

def asyncServer : Format UInt8 ℤ where
  headLength := headTotalLen
  headLength_pos := by decide
  verdict
    | [idHigh, idLow, lenHigh, lenLow] =>
      if bigEndianShort idHigh idLow > maxLength then .reject
      else verdictOf (bigEndianShort idHigh idLow) (bigEndianShort lenHigh lenLow)
    | _ => .reject

def coroutineService : Format UInt8 ℤ where
  headLength := headTotalLen
  headLength_pos := by decide
  verdict
    | [idHigh, idLow, lenHigh, lenLow] =>
      verdictOf (bigEndianShort idHigh idLow) (bigEndianShort lenHigh lenLow)
    | _ => .reject

def useProtobuf : Format UInt8 Unit where
  headLength := 2
  headLength_pos := by decide
  verdict
    | [lenHigh, lenLow] => verdictOf () (bigEndianShort lenHigh lenLow)
    | _ => .reject

theorem asyncServer_accept {head : List UInt8} {tag : ℤ} {length : ℕ}
    (accept : asyncServer.verdict head = .accept tag length) :
    ∃ idHigh idLow lenHigh lenLow, head = [idHigh, idLow, lenHigh, lenLow] ∧
      bigEndianShort idHigh idLow = tag ∧ tag ≤ maxLength ∧
      bigEndianShort lenHigh lenLow = length ∧ length ≤ maxLength := by
  simp only [asyncServer] at accept
  split at accept
  · next idHigh idLow lenHigh lenLow =>
    by_cases large : bigEndianShort idHigh idLow > maxLength
    · rw [if_pos large] at accept
      simp only [reduceCtorEq] at accept
    · rw [if_neg large] at accept
      obtain ⟨rfl, same, bound⟩ := verdictOf_accept.mp accept
      exact ⟨idHigh, idLow, lenHigh, lenLow, rfl, rfl, Int.not_lt.mp large, same, bound⟩
  · contradiction

theorem asyncServer_reject {idHigh idLow lenHigh lenLow : UInt8} :
    asyncServer.verdict [idHigh, idLow, lenHigh, lenLow] = .reject ↔
      maxLength < bigEndianShort idHigh idLow ∨
        bigEndianShort lenHigh lenLow < 0 ∨ maxLength < bigEndianShort lenHigh lenLow := by
  simp only [asyncServer]
  by_cases large : bigEndianShort idHigh idLow > maxLength
  · simp only [if_pos large, true_iff]
    exact Or.inl large
  · rw [if_neg large, verdictOf_reject, or_iff_right large]

theorem coroutineService_accept {head : List UInt8} {tag : ℤ} {length : ℕ}
    (accept : coroutineService.verdict head = .accept tag length) :
    ∃ idHigh idLow lenHigh lenLow, head = [idHigh, idLow, lenHigh, lenLow] ∧
      bigEndianShort idHigh idLow = tag ∧ bigEndianShort lenHigh lenLow = length ∧
      length ≤ maxLength := by
  simp only [coroutineService] at accept
  split at accept
  · next idHigh idLow lenHigh lenLow =>
    exact ⟨idHigh, idLow, lenHigh, lenLow, rfl, verdictOf_accept.mp accept⟩
  · contradiction

theorem coroutineService_reject {idHigh idLow lenHigh lenLow : UInt8} :
    coroutineService.verdict [idHigh, idLow, lenHigh, lenLow] = .reject ↔
      bigEndianShort lenHigh lenLow < 0 ∨ maxLength < bigEndianShort lenHigh lenLow := by
  simp only [coroutineService]
  exact verdictOf_reject

section Limits

variable {id : ℤ} {length : ℕ}

/-- A head of two fields is accepted when both are in the range of the protocol. -/
theorem asyncServer_of_limits (low : -32768 ≤ id) (high : id ≤ maxLength) (limit : length ≤ maxLength) :
    asyncServer.verdict (bigEndianBytes id ++ bigEndianBytes length) = .accept id length := by
  obtain ⟨idHigh, idLow, idBytes, idField⟩ := bigEndianShort_bytes id
  obtain ⟨lenHigh, lenLow, lenBytes, lenField⟩ := bigEndianShort_bytes length
  rw [toShort_of_limit limit] at lenField
  rw [toShort_of_range low (by simp only [maxLength] at high; omega)] at idField
  rw [idBytes, lenBytes]
  simp only [asyncServer, List.cons_append, List.nil_append, idField, lenField]
  rw [if_neg (by omega)]
  exact verdictOf_accept.mpr ⟨rfl, rfl, limit⟩

/-- CoroutineService has no limit on the id. -/
theorem coroutineService_of_limits (low : -32768 ≤ id) (high : id < 32768)
    (limit : length ≤ maxLength) :
    coroutineService.verdict (bigEndianBytes id ++ bigEndianBytes length) = .accept id length := by
  obtain ⟨idHigh, idLow, idBytes, idField⟩ := bigEndianShort_bytes id
  obtain ⟨lenHigh, lenLow, lenBytes, lenField⟩ := bigEndianShort_bytes length
  rw [toShort_of_limit limit] at lenField
  rw [toShort_of_range low high] at idField
  rw [idBytes, lenBytes]
  simp only [coroutineService, List.cons_append, List.nil_append, idField, lenField]
  exact verdictOf_accept.mpr ⟨rfl, rfl, limit⟩

end Limits

theorem useProtobuf_accept {head : List UInt8} {tag : Unit} {length : ℕ}
    (accept : useProtobuf.verdict head = .accept tag length) :
    ∃ lenHigh lenLow, head = [lenHigh, lenLow] ∧ bigEndianShort lenHigh lenLow = length ∧
      length ≤ maxLength := by
  simp only [useProtobuf] at accept
  split at accept
  · next lenHigh lenLow =>
    obtain ⟨-, same, bound⟩ := verdictOf_accept.mp accept
    exact ⟨lenHigh, lenLow, rfl, same, bound⟩
  · contradiction

theorem useProtobuf_reject {lenHigh lenLow : UInt8} :
    useProtobuf.verdict [lenHigh, lenLow] = .reject ↔
      bigEndianShort lenHigh lenLow < 0 ∨ maxLength < bigEndianShort lenHigh lenLow := by
  simp only [useProtobuf]
  exact verdictOf_reject

/-- A body of valid length, as a client of AsyncServer_useProtobuf frames it. -/
structure Request where
  body : List UInt8
  bounded : body.length ≤ maxLength

def Request.bytes (request : Request) : List UInt8 :=
  [UInt8.ofNat (request.body.length / 256), UInt8.ofNat request.body.length] ++ request.body

/-- A concatenation of requests parses into them. -/
theorem parse_requests (requests : List Request) :
    useProtobuf.parse (requests.flatMap Request.bytes) =
      ⟨requests.map fun request => ((), request.body), none, []⟩ := by
  induction requests with
  | nil => exact Format.parse_nil
  | cons request rest ih =>
    have bounded := request.bounded
    have verdict : useProtobuf.verdict [UInt8.ofNat (request.body.length / 256),
        UInt8.ofNat request.body.length] = .accept () request.body.length := by
      simp only [useProtobuf]
      exact verdictOf_accept.mpr ⟨rfl, bigEndianShort_ofNat
        (by simp only [maxLength] at bounded; omega), bounded⟩
    rw [List.flatMap_cons, Request.bytes, List.append_assoc, Format.parse_frame rfl verdict, ih]
    rfl

/-- A header of the four-byte framings is two fields. -/
theorem two_fields {head : List UInt8} (whole : head.length = headTotalLen) :
    ∃ idHigh idLow lenHigh lenLow, head = [idHigh, idLow, lenHigh, lenLow] :=
  match head, whole with
  | [idHigh, idLow, lenHigh, lenLow], _ => ⟨idHigh, idLow, lenHigh, lenLow, rfl⟩

theorem one_field {head : List UInt8} (whole : head.length = 2) :
    ∃ lenHigh lenLow, head = [lenHigh, lenLow] :=
  match head, whole with
  | [lenHigh, lenLow], _ => ⟨lenHigh, lenLow, rfl⟩

end BoostLearn.Spec
