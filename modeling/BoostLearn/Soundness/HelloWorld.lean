import BoostLearn.Spec.HelloWorld

/-! # What the callback does with a payload

It answers every request there is a node for, whether or not the text was well formed, and is left
by an exception or a fault on everything else.
-/

namespace BoostLearn.Soundness.HelloWorld

open CInt Memory Model Model.Json Model.LogicSystem Spec.HelloWorld

variable {server : Server} {json : JsonCpp} {data : Text} {queued : ℕ}
  {members : List (Text × Value)} {root : Value}

section Accesses

private theorem subscript_of_members (object : root.members = .ok members) (key : Text) :
    root.subscript key = .ok (.object (touch key members), member key members) := by
  rw [Value.subscript, bind_of_ok object]
  rfl

private theorem subscript_object (members : List (Text × Value)) (key : Text) :
    (Value.object members).subscript key = .ok (.object (touch key members), member key members) := rfl

private theorem assign_object (members : List (Text × Value)) (key : Text) (value : Value) :
    (Value.object members).assign key value = .ok (.object (insert key value members)) := rfl

private theorem id_ne_data : ascii "id" ≠ ascii "data" := by decide

end Accesses

theorem ok_of_mapError {ε ε' α : Type} {result : Except ε α} {wrap : ε → ε'} {value : α}
    (done : result.mapError wrap = .ok value) : result = .ok value := by
  cases result with
  | error _ => contradiction
  | ok _ =>
    cases done
    rfl

/-- The text of a root that is no object is refused by the first access. -/
theorem reply_of_notObject {error : LogicError} (failed : (json.parse data).2.members = .error error) :
    server.reply json data = .error error := by
  have access : (json.parse data).2.subscript (ascii "id") = .error error := by
    rw [Value.subscript, bind_of_error failed]
  exact bind_of_error access _

/-- The other accesses read the members as they were: what they add is null. -/
theorem reply_of_members (object : (json.parse data).2.members = .ok members) :
    server.reply json data = do
      let id ← (member (ascii "id") members).asInt
      let _ ← (member (ascii "data") members).asString json
      return (answer server json members, toShort id) := by
  rw [Server.reply]
  generalize json.parse data = parsed at object ⊢
  obtain ⟨success, root⟩ := parsed
  dsimp only at object ⊢
  rw [bind_of_ok (subscript_of_members object _)]
  dsimp only
  rw [bind_of_ok (subscript_object _ _), bind_of_ok (subscript_object _ _)]
  simp only [member_touch]
  cases number : (member (ascii "id") members).asInt with
  | error error => rfl
  | ok id =>
    rw [bind_of_ok rfl, bind_of_ok rfl]
    by_cases convertible : HasText (member (ascii "data") members)
    · have string := asString_of_hasText json convertible
      rw [bind_of_ok string, bind_of_ok string, bind_of_ok string, bind_of_ok (assign_object _ _ _),
        insert_touch, insert_touch, bind_of_ok (subscript_object _ _)]
      simp only [member_insert_ne id_ne_data, member_touch, number]
      rfl
    · have failed := asString_of_not_hasText json convertible
      rw [bind_of_error failed, bind_of_error failed]

section Send

variable {msg : Text}

theorem send_of_fits (fits : Fits server queued msg.length) (msgId : ℤ) :
    ∃ sent, server.send queued msg msgId = .ok sent := by
  cases server with
  | asyncServer =>
    simp only [Server.send]
    by_cases full : AsyncServer.maxSendque < toInt queued
    · rw [if_pos full]
      exact ⟨none, rfl⟩
    · have short := fits.resolve_left full
      rw [if_neg full, bind_of_ok (SendNode.new_of_fits (Nat.le_refl msg.length) short msgId)]
      exact ⟨_, rfl⟩
  | coroutineService =>
    simp only [Server.send]
    by_cases full : maxLength < queued
    · rw [if_pos full]
      exact ⟨none, rfl⟩
    · obtain ⟨nonneg, short⟩ := fits.resolve_left full
      have size : toSizeT (toShort msg.length) = (toShort msg.length).toNat :=
        toSizeT_of_range nonneg (by have := toShort_range msg.length; omega)
      have source : toSizeT (toShort msg.length) ≤ msg.length := by
        rw [size, toShort]
        omega
      rw [if_neg full, bind_of_ok (SendNode.new_of_fits source (by omega) msgId)]
      exact ⟨_, rfl⟩

theorem fits_of_send {sent : Option SendNode} {msgId : ℤ}
    (pushed : server.send queued msg msgId = .ok sent) : Fits server queued msg.length := by
  by_contra unfit
  cases server with
  | asyncServer =>
    obtain ⟨room, long⟩ := not_or.mp unfit
    obtain ⟨fault, failed⟩ := SendNode.new_of_long (Nat.not_lt.mp long) msg msgId
    simp only [Server.send] at pushed
    rw [if_neg room, bind_of_error failed] at pushed
    cases pushed
  | coroutineService =>
    obtain ⟨room, wrapped⟩ := not_or.mp unfit
    have range := toShort_range msg.length
    have long : 32768 ≤ toSizeT (toShort msg.length) + headTotalLen := by
      by_cases negative : toShort msg.length < 0
      · have := toSizeT_of_negative (by omega) negative
        omega
      · rw [toSizeT_of_range (by omega) (by omega)]
        omega
    obtain ⟨fault, failed⟩ := SendNode.new_of_long long msg msgId
    simp only [Server.send] at pushed
    rw [if_neg room, bind_of_error failed] at pushed
    cases pushed

end Send

/-- A reply is the answer to a request. -/
theorem request_of_reply {returnStr : Text} {msgId : ℤ}
    (replied : server.reply json data = .ok (returnStr, msgId)) :
    ∃ members, (json.parse data).2.members = .ok members ∧ HasInt (member (ascii "id") members) ∧
      HasText (member (ascii "data") members) ∧ returnStr = answer server json members := by
  cases object : (json.parse data).2.members with
  | error error =>
    rw [reply_of_notObject object] at replied
    contradiction
  | ok members =>
    rw [reply_of_members object] at replied
    obtain ⟨id, number, replied⟩ := ok_of_bind replied
    obtain ⟨string, text, replied⟩ := ok_of_bind replied
    refine ⟨members, rfl, ?_, ?_, congrArg Prod.fst (Except.ok.inj replied).symm⟩
    · by_contra convertible
      obtain ⟨error, failed⟩ := asInt_of_not_hasInt convertible
      exact absurd (number.symm.trans failed) nofun
    · by_contra convertible
      exact absurd (text.symm.trans (asString_of_not_hasText json convertible)) nofun

/-- The callback returns on exactly the requests there is a node for. -/
theorem returns_iff_answerable :
    (∃ sent, server.helloWorldCallBack json data queued = .ok sent) ↔
      Answerable server json data queued := by
  constructor
  · rintro ⟨sent, returned⟩
    obtain ⟨⟨returnStr, msgId⟩, replied, pushed⟩ := ok_of_bind returned
    obtain ⟨members, object, number, string, rfl⟩ := request_of_reply (ok_of_mapError replied)
    exact ⟨members, object, number, string, fits_of_send (ok_of_mapError pushed)⟩
  · rintro ⟨members, object, number, string, fits⟩
    obtain ⟨id, number⟩ := asInt_of_hasInt number
    have replied : server.reply json data = .ok (answer server json members, toShort id) := by
      rw [reply_of_members object, bind_of_ok number, bind_of_ok (asString_of_hasText json string)]
      rfl
    obtain ⟨sent, pushed⟩ := send_of_fits fits (toShort id)
    refine ⟨sent, ?_⟩
    rw [Server.helloWorldCallBack, replied]
    exact congrArg (Except.mapError Escape.node) pushed

end BoostLearn.Soundness.HelloWorld
