import BoostLearn.Model.AsycApi.Session

/-! # When the reader of AsycApi keeps its node

One callback drops the node and clears the flag after every completion, also when it has just asked
for the rest; the other does so only when it has asked for the rest, and keeps both when the node
is full. So the first survives only reads that fill the node at once, and the second none.
-/

namespace BoostLearn.Soundness.AsycApi

open CInt Memory Replay Model.AsycApi

/-- The flag says whether a read is outstanding, at most one is, it fills the live node from its
cursor to its end, and a full node holds what has arrived and leaves the session ready. -/
structure Receives (receiver : Receiver) : Prop where
  pending : receiver.recvPending = true ↔ receiver.reads ≠ []
  single : receiver.reads.length ≤ 1
  offered : ∀ read ∈ receiver.reads, ∃ node, receiver.recvNode = some (read.array, node) ∧
    read.offset = node.curLen ∧ read.size = node.totalLen - node.curLen
  sound : receiver.fault = none
  filled : receiver.arrived.length = recvSize →
    receiver.stored = receiver.arrived.map some ∧ receiver.reads = [] ∧ receiver.recvPending = false

/-- A read completes only in the first pair, and fills the node at once. -/
def Filling (pair : ReadPair) (_ : Receiver) : Receiver.Action → Prop
  | .call => True
  | .completed _ bytes => pair = .read ∧ bytes.length = recvSize

/-- No read is outstanding and the last node was filled at once, or a new node is being filled. -/
inductive Fresh : Receiver → Prop
  | idle {arrays : ℕ} {bytes : List UInt8} {stored : Cells}
    (filled : bytes.length = recvSize → stored = bytes.map some) :
    Fresh ⟨false, none, [], arrays, bytes, stored, none⟩
  | reading {array arrays : ℕ} {stored : Cells} :
    Fresh ⟨true, some (array, ⟨List.replicate recvSize none, recvSize, 0⟩), [⟨array, 0, recvSize⟩],
      arrays, [], stored, none⟩

variable {pair : ReadPair} {receiver target : Receiver} {action : Receiver.Action}

theorem fresh_opened : Fresh .opened := .idle fun filled => by cases filled

theorem Fresh.receives (fresh : Fresh receiver) : Receives receiver := by
  cases fresh with
  | idle filled =>
    refine ⟨by simp, Nat.zero_le _, fun read member => ?_, rfl, fun full => ⟨filled full, rfl, rfl⟩⟩
    cases member
  | reading =>
    refine ⟨by simp, Nat.le_refl _, fun read member => ?_, rfl, fun full => by cases full⟩
    cases List.mem_singleton.mp member
    exact ⟨_, rfl, rfl, rfl⟩

theorem ofSize_recvSize :
    MsgNode.ofSize recvSize = .ok ⟨List.replicate recvSize none, recvSize, 0⟩ := by
  have allocated : newChar (recvSize : ℤ) = .ok (List.replicate recvSize none) :=
    newChar_of_nonneg (Int.natCast_nonneg recvSize)
  rw [MsgNode.ofSize, bind_of_ok allocated]
  rfl

theorem Fresh.start (fresh : Fresh receiver) : Fresh receiver.start := by
  cases fresh with
  | idle filled =>
    rw [Receiver.start, if_neg Bool.false_ne_true, ofSize_recvSize]
    exact Fresh.reading
  | reading =>
    rw [Receiver.start, if_pos rfl]
    exact Fresh.reading

/-- The first bytes of a node go to its front. -/
private theorem memcpy_front {bytes : List UInt8} (fits : bytes.length ≤ recvSize) :
    memcpy (List.replicate recvSize none) 0 (bytes.map some) 0 bytes.length =
      .ok (bytes.map some ++ List.replicate (recvSize - bytes.length) none) := by
  have copied := memcpy_prefix [] bytes [] (List.replicate recvSize none)
    (by rwa [List.length_replicate])
  rw [List.append_nil, List.drop_replicate] at copied
  exact copied

variable {array arrays : ℕ} {stored : Cells} {bytes : List UInt8}

/-- The receiver when a read of a new node has completed, before its callback. -/
private def receiving (array arrays : ℕ) (stored : Cells) : Receiver :=
  ⟨true, some (array, ⟨List.replicate recvSize none, recvSize, 0⟩), [], arrays, [], stored, none⟩

/-- The node as its callback sees it. -/
private def filledNode (bytes : List UInt8) : MsgNode :=
  ⟨bytes.map some ++ List.replicate (recvSize - bytes.length) none, recvSize, 0⟩

private theorem fill_receiving (fits : bytes.length ≤ recvSize) :
    (receiving array arrays stored).fill pair ⟨array, 0, recvSize⟩ bytes =
      Receiver.callBack
        ⟨true, some (array, ⟨List.replicate recvSize none, recvSize, 0⟩), [], arrays, bytes,
          (filledNode bytes).msg, none⟩ pair array (filledNode bytes) bytes.length := by
  have live : (receiving array arrays stored).recvNode =
      some (array, ⟨List.replicate recvSize none, recvSize, 0⟩) := rfl
  exact @Receiver.fill_of_live pair (receiving array arrays stored) ⟨array, 0, recvSize⟩ bytes _ _ live
    (memcpy_front fits)

private theorem cursor (fits : bytes.length ≤ recvSize) :
    toInt ((filledNode bytes).curLen + bytes.length) = bytes.length := by
  simp only [filledNode, recvSize] at fits ⊢
  rw [Int.zero_add, toInt_of_range (by omega) (by omega)]

/-- A read that does not fill the node is followed by another, which nothing remembers. -/
private theorem fill_short (short : bytes.length < recvSize) :
    ((receiving array arrays stored).fill pair ⟨array, 0, recvSize⟩ bytes).recvPending = false ∧
      ((receiving array arrays stored).fill pair ⟨array, 0, recvSize⟩ bytes).reads ≠ [] := by
  have less : (bytes.length : ℤ) < (filledNode bytes).totalLen := Int.ofNat_lt.mpr short
  rw [fill_receiving (Nat.le_of_lt short)]
  cases pair with
  | read =>
    simp only [Receiver.callBack, Receiver.readCallBack, cursor (Nat.le_of_lt short), if_pos less]
    exact ⟨rfl, List.cons_ne_nil _ _⟩
  | readAll =>
    simp only [Receiver.callBack, Receiver.readAllCallBack, cursor (Nat.le_of_lt short), if_pos less]
    exact ⟨rfl, List.cons_ne_nil _ _⟩

/-- A full node is dropped by the first callback and kept, with the flag set, by the second. -/
private theorem fill_full (full : bytes.length = recvSize) :
    (receiving array arrays stored).fill .read ⟨array, 0, recvSize⟩ bytes =
        ⟨false, none, [], arrays, bytes, bytes.map some, none⟩ ∧
      ((receiving array arrays stored).fill .readAll ⟨array, 0, recvSize⟩ bytes).recvPending = true ∧
      ((receiving array arrays stored).fill .readAll ⟨array, 0, recvSize⟩ bytes).reads = [] := by
  have same : ¬ (bytes.length : ℤ) < (filledNode bytes).totalLen := by
    rw [full]
    exact Int.lt_irrefl _
  have msg : (filledNode bytes).msg = bytes.map some := by
    simp only [filledNode, full, Nat.sub_self, List.replicate_zero, List.append_nil]
  rw [fill_receiving (Nat.le_of_eq full), fill_receiving (Nat.le_of_eq full)]
  constructor
  · simp only [Receiver.callBack, Receiver.readCallBack, cursor (Nat.le_of_eq full), if_neg same, msg]
    rfl
  · simp only [Receiver.callBack, Receiver.readAllCallBack, cursor (Nat.le_of_eq full), if_neg same,
      and_self]

/-- The only outstanding read fills a new node from its front. -/
theorem Fresh.outstanding (fresh : Fresh receiver) {index : ℕ} {read : Read}
    (present : receiver.reads[index]? = some read) :
    ∃ arrays stored, read = ⟨read.array, 0, recvSize⟩ ∧
      { receiver with reads := receiver.reads.eraseIdx index } = receiving read.array arrays stored := by
  cases fresh with
  | idle => cases present
  | reading =>
    match index, present with
    | 0, present =>
      cases present
      exact ⟨_, _, rfl, rfl⟩

theorem Fresh.step (fresh : Fresh receiver) (filling : Filling pair receiver action)
    (taken : receiver.step pair action = some target) : Fresh target := by
  rcases Receiver.step_cases taken with ⟨-, same⟩ | ⟨index, bytes, read, rfl, present, -, -, same⟩
  · rw [same]
    exact fresh.start
  · obtain ⟨rfl, full⟩ := filling
    obtain ⟨arrays, stored, whole, live⟩ := fresh.outstanding present
    rw [same, live, whole, (fill_full full).1]
    exact Fresh.idle fun _ => rfl

theorem filling_of_receives (fresh : Fresh receiver) (taken : receiver.step pair action = some target)
    (receives : Receives target) : Filling pair receiver action := by
  rcases Receiver.step_cases taken with ⟨rfl, -⟩ |
    ⟨index, bytes, read, rfl, present, -, reported, same⟩
  · trivial
  · obtain ⟨arrays, stored, whole, live⟩ := fresh.outstanding present
    have pending := receives.pending
    rw [whole] at reported
    rw [same, live, whole] at pending
    rcases Nat.lt_or_eq_of_le (Int.ofNat_le.mp reported) with short | full
    · obtain ⟨clear, outstanding⟩ := @fill_short pair read.array arrays stored bytes short
      rw [pending.mpr outstanding] at clear
      cases clear
    · cases pair with
      | read => exact ⟨rfl, full⟩
      | readAll =>
        obtain ⟨-, flag, nothing⟩ := @fill_full read.array arrays stored bytes full
        exact absurd nothing (pending.mp flag)

/-- The first pair keeps its node exactly while every read fills it at once, the second while no
read completes. -/
theorem receives_iff_filling (pair : ReadPair) (tape : List Receiver.Action) :
    Always (Receiver.step pair) Receives .opened tape ↔
      Guarded (Receiver.step pair) (Filling pair) .opened tape := by
  apply always_iff_guarded _ Fresh.step filling_of_receives fresh_opened
  exact fun _ => Fresh.receives

/-- The first byte arrives alone. -/
def shortRead : List Receiver.Action := [.call, .completed 0 [65]]

/-- All bytes arrive at once. -/
def fullRead : List Receiver.Action := [.call, .completed 0 (List.replicate recvSize 65)]

theorem not_receives :
    ¬ Always (Receiver.step .read) Receives .opened shortRead ∧
      ¬ Always (Receiver.step .readAll) Receives .opened shortRead ∧
      ¬ Always (Receiver.step .readAll) Receives .opened fullRead := by
  have dropped (pair : ReadPair) : ¬ Always (Receiver.step pair) Receives .opened shortRead := by
    intro always
    have final : (replay? (Receiver.step pair) .opened shortRead).map
        (fun receiver => (receiver.recvPending, receiver.reads.length)) = some (false, 1) := by
      cases pair <;> decide +kernel
    obtain ⟨receiver, run, observed⟩ := Option.map_eq_some_iff.mp final
    injection observed with clear outstanding
    have flag := (always.replay run).pending.mpr (by
      rintro nothing
      rw [nothing] at outstanding
      cases outstanding)
    rw [clear] at flag
    cases flag
  refine ⟨dropped _, dropped _, fun always => ?_⟩
  have final : (replay? (Receiver.step .readAll) .opened fullRead).map
      (fun receiver => (receiver.recvPending, receiver.reads)) = some (true, []) := by
    decide +kernel
  obtain ⟨receiver, run, observed⟩ := Option.map_eq_some_iff.mp final
  injection observed with flag nothing
  exact (always.replay run).pending.mp flag nothing

end BoostLearn.Soundness.AsycApi
