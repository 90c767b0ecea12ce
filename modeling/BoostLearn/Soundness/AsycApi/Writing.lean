import BoostLearn.Model.AsycApi.Session

/-! # When the queued writer of AsycApi writes what it is given

The pending flag is never set, so a call starts a write also while one is outstanding, and a
callback drops the front of the queue however little of it was written. Nothing goes wrong only
while every call finds the socket idle and every write takes its whole buffer.
-/

namespace BoostLearn.Soundness.AsycApi

open CInt Memory Replay Model.AsycApi

/-- The bytes written are a prefix of the submitted ones, all of them when no write is outstanding,
and nothing else goes wrong. -/
structure Writes (sender : Sender) : Prop where
  single : sender.writes.length ≤ 1
  popped : sender.poppedEmpty = false
  sound : sender.fault = none
  ordered : sender.written <+: sender.submitted.flatten
  finished : sender.writes = [] → sender.written = sender.submitted.flatten

/-- No write is outstanding, and the length of the message, as an `int`, is one of a node. -/
def Free (sender : Sender) (buf : List UInt8) : Prop :=
  sender.writes = [] ∧ 0 ≤ toInt buf.length ∧ toInt buf.length ≤ recvSize

/-- A call finds the socket free for its message, and a completion reports the whole buffer. -/
def Unqueued (sender : Sender) : Sender.Action → Prop
  | .writeToSocket buf => Free sender buf
  | .writeAllToSocket buf => Free sender buf
  | .written index count => ∀ write, sender.writes[index]? = some write → count = write.buffer.length
  | .failed _ => False

/-- No write is outstanding and none is due, or the only message of the queue is being written. -/
inductive Alone : Sender → Prop
  | idle {submitted : List (List UInt8)} : Alone ⟨[], false, [], submitted, submitted.flatten, false, none⟩
  | writing {node : MsgNode} {submitted : List (List UInt8)} {buffer : List UInt8} :
    Alone ⟨[node], false, [⟨buffer, .writeCallBack⟩], submitted ++ [buffer], submitted.flatten, false,
      none⟩

variable {sender target : Sender} {action : Sender.Action}

theorem alone_opened : Alone .opened := @Alone.idle []

theorem Alone.writes (alone : Alone sender) : Writes sender := by
  cases alone with
  | idle => exact ⟨Nat.zero_le _, rfl, rfl, List.prefix_refl _, fun _ => rfl⟩
  | writing =>
    refine ⟨Nat.le_refl _, rfl, rfl, ?_, fun nothing => ?_⟩
    · rw [List.flatten_append]
      exact List.prefix_append ..
    · cases nothing

/-- A call that finds no write outstanding starts one. -/
theorem submit_idle {submitted : List (List UInt8)} {buf : List UInt8} (nonneg : 0 ≤ toInt buf.length)
    (fits : toInt buf.length ≤ recvSize) :
    Alone (Sender.submit ⟨[], false, [], submitted, submitted.flatten, false, none⟩ buf) := by
  have source : toInt buf.length ≤ buf.length := by
    simp only [toInt] at nonneg ⊢
    omega
  obtain ⟨node, built⟩ := MsgNode.ofBytes_of_fits nonneg fits source
  rw [Sender.submit_of_clear built rfl]
  exact Alone.writing

/-- A buffer that does not fit its node overflows it, and a second write is one too many. -/
theorem free_of_submit (alone : Alone sender) {buf : List UInt8}
    (writes : Writes (sender.submit buf)) : Free sender buf := by
  cases built : MsgNode.ofBytes buf (toInt buf.length) with
  | error fault =>
    rw [Sender.submit_of_fault built] at writes
    cases writes.sound
  | ok node =>
    refine ⟨?_, MsgNode.fits_of_ofBytes (toInt_range _) built⟩
    cases alone with
    | idle => rfl
    | writing =>
      rw [Sender.submit_of_clear built rfl] at writes
      have two : 2 ≤ 1 := writes.single
      omega

/-- The only outstanding write is the first one. -/
theorem Alone.outstanding (alone : Alone sender) {index : ℕ} {write : Write}
    (present : sender.writes[index]? = some write) :
    ∃ node submitted, index = 0 ∧ write.callBack = .writeCallBack ∧
      sender = ⟨[node], false, [write], submitted ++ [write.buffer], submitted.flatten, false, none⟩ := by
  cases alone with
  | idle => cases present
  | @writing node submitted buffer =>
    match index, present with
    | 0, present =>
      cases present
      exact ⟨node, submitted, rfl, rfl, rfl⟩

/-- A completed write empties the queue, whatever it has written. -/
private theorem complete_outstanding (node : MsgNode) (submitted : List (List UInt8)) {write : Write}
    (bound : write.callBack = .writeCallBack) (count : ℕ) :
    Sender.complete
        ⟨[node], false, [write], submitted ++ [write.buffer], submitted.flatten, false, none⟩ 0 write
        count false =
      ⟨[], false, [], submitted ++ [write.buffer], submitted.flatten ++ write.buffer.take count, false,
        none⟩ := by
  rw [Sender.complete, bound]
  rfl

private theorem complete_failed (node : MsgNode) (submitted : List (List UInt8)) {write : Write}
    (bound : write.callBack = .writeCallBack) :
    Sender.complete
        ⟨[node], false, [write], submitted ++ [write.buffer], submitted.flatten, false, none⟩ 0 write 0
        true =
      ⟨[node], false, [], submitted ++ [write.buffer], submitted.flatten ++ [], false, none⟩ := by
  rw [Sender.complete, bound]
  rfl

theorem Alone.step (alone : Alone sender) (unqueued : Unqueued sender action)
    (taken : sender.step action = some target) : Alone target := by
  rcases Sender.step_cases taken with ⟨buf, called, same⟩ |
    ⟨index, count, write, rfl, present, -, rfl⟩ | ⟨index, write, rfl, -⟩
  · have free : Free sender buf := by
      rcases called with rfl | rfl
      · exact unqueued
      · exact unqueued
    obtain ⟨nothing, nonneg, fits⟩ := free
    rw [same]
    cases alone with
    | idle => exact submit_idle nonneg fits
    | writing => cases nothing
  · have whole := unqueued write present
    obtain ⟨node, submitted, rfl, bound, rfl⟩ := alone.outstanding present
    have all : submitted.flatten ++ write.buffer.take count = (submitted ++ [write.buffer]).flatten := by
      rw [whole, List.take_length]
      simp
    rw [complete_outstanding node submitted bound, all]
    exact Alone.idle
  · exact absurd unqueued id

theorem unqueued_of_writes (alone : Alone sender) (taken : sender.step action = some target)
    (writes : Writes target) : Unqueued sender action := by
  rcases Sender.step_cases taken with ⟨buf, called, same⟩ |
    ⟨index, count, write, rfl, present, reported, rfl⟩ | ⟨index, write, rfl, present, missing, rfl⟩
  · rw [same] at writes
    have free := free_of_submit alone writes
    rcases called with rfl | rfl
    · exact free
    · exact free
  · intro other same
    cases present.symm.trans same
    obtain ⟨node, submitted, rfl, bound, rfl⟩ := alone.outstanding present
    rw [complete_outstanding node submitted bound] at writes
    have all := congrArg List.length (writes.finished rfl)
    simp only [List.length_append, List.length_take, List.flatten_append, List.flatten_cons,
      List.flatten_nil, List.length_nil] at all
    omega
  · obtain ⟨node, submitted, rfl, bound, rfl⟩ := alone.outstanding present
    rw [complete_failed node submitted bound] at writes
    have all := congrArg List.length (writes.finished rfl)
    have := List.length_pos_of_ne_nil missing
    simp only [List.length_append, List.flatten_append, List.flatten_cons,
      List.flatten_nil, List.length_nil] at all
    omega

/-- The bytes on the wire are the submitted ones exactly in the runs that need neither the queue
nor the rest of a message. -/
theorem writes_iff_unqueued (tape : List Sender.Action) :
    Always Sender.step Writes .opened tape ↔ Guarded Sender.step Unqueued .opened tape := by
  apply always_iff_guarded _ Alone.step unqueued_of_writes alone_opened
  exact fun _ => Alone.writes

/-- The second call comes while the write of the first is outstanding. -/
def twoCalls : List Sender.Action := [.writeToSocket [65], .writeToSocket [66]]

/-- The write takes one byte of two. -/
def shortWrite : List Sender.Action := [.writeToSocket [65, 66], .written 0 1]

theorem not_writes :
    ¬ Always Sender.step Writes .opened twoCalls ∧ ¬ Always Sender.step Writes .opened shortWrite := by
  constructor
  · intro always
    have final : (replay? Sender.step .opened twoCalls).map (·.writes.length) = some 2 := by
      decide +kernel
    obtain ⟨sender, run, outstanding⟩ := Option.map_eq_some_iff.mp final
    have single := (always.replay run).single
    omega
  · intro always
    have final : (replay? Sender.step .opened shortWrite).map
        (fun sender => (sender.writes, sender.written, sender.submitted.flatten)) =
          some ([], [65], [65, 66]) := by
      decide +kernel
    obtain ⟨sender, run, observed⟩ := Option.map_eq_some_iff.mp final
    injection observed with idle observed
    injection observed with written submitted
    have finished := (always.replay run).finished idle
    rw [written, submitted] at finished
    exact absurd finished (by decide)

end BoostLearn.Soundness.AsycApi
