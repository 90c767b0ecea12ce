import BoostLearn.Core.JsonText
import BoostLearn.Soundness.BeastHttpServer.Answering

/-! # What beast_http_server answers to an email

The answer to a body that does not parse is followed by the one to a body that does, so it is two
documents in a row and says both that there was an error and that there was none. An answer tells
the truth exactly when its body has parsed.
-/

namespace BoostLearn.Soundness.BeastHttpServer

open JsonText Memory Model Model.Json Model.BeastHttpServer

/-- A root that is written as one document, which parses back to the root. -/
structure Styled (json : JsonCpp) (root : Value) : Prop where
  single : OneObject (json.toStyledString root)
  parses : json.parse (json.toStyledString root) = (true, root)

/-- The member of a root without members is null. -/
def emailOf : Value → Value
  | .object members => member (ascii "email") members
  | _ => .null

/-- The answer to a body that does not parse, as long as nothing follows it. -/
def refusal : Value := .object (insert (ascii "error") (.int 1001) [])

def acceptance (email : Value) : Value :=
  .object (insert (ascii "msg") (.string (ascii "receive email post success"))
    (insert (ascii "email") email (insert (ascii "error") (.int 0) [])))

/-- The answer is one document, whose error says whether the body has parsed and which then returns
the email; the length that is sent with it is its own. -/
structure Truthful (json : JsonCpp) (body : Text) (sent : Response) : Prop where
  single : OneObject sent.body
  root : ∃ members, json.parse sent.body = (true, .object members) ∧
    (member (ascii "error") members = .int 0 ↔ (json.parse body).1 = true) ∧
    ((json.parse body).1 = true →
      ∀ srcMembers, (json.parse body).2 = .object srcMembers →
        member (ascii "email") members = member (ascii "email") srcMembers)
  length : sent.contentLength = some sent.body.length

/-- A post of this body. -/
def emailPost (version : ℕ) (body : Text) : Request := ⟨version, .post, ascii "/email", body⟩

/-- The connection that has just read a request. -/
def received (request : Request) : HttpConnect :=
  { HttpConnect.start with reading := false, request := some request }

/-- The email is answered by one write, and truthfully. -/
def AnswersEmail (json : JsonCpp) (version count : ℕ) (now : ℤ) (body : Text) : Prop :=
  ∃ connect counted sent,
    (received (emailPost version body)).processRequest json count now (emailPost version body) =
      .ok (connect, counted) ∧
    connect.written = [sent] ∧ Truthful json body sent

variable {json : JsonCpp} {version count : ℕ} {now : ℤ} {body : Text}

/-- What is appended to the body of the response. -/
def appended (json : JsonCpp) (parseSuccess : Bool) (srcRoot : Value) : Text :=
  (if parseSuccess then [] else json.toStyledString refusal) ++
    json.toStyledString (acceptance (emailOf srcRoot))

/-- The access to the email of what parsing leaves. -/
theorem subscript_of_shape {srcRoot : Value} (shape : NullOrObject srcRoot) :
    ∃ accessed, srcRoot.subscript (ascii "email") = .ok (accessed, emailOf srcRoot) := by
  cases srcRoot with
  | null => exact ⟨_, rfl⟩
  | object members => exact ⟨_, rfl⟩
  | _ => exact absurd shape id

/-- The three members are assigned to whatever root has been made before. -/
theorem answerEmail_of_parsed {parseSuccess : Bool} {srcRoot root : Value} {response sent : Response}
    {members : List (Text × Value)} (made : parsed json parseSuccess response = .ok (root, sent))
    (present : root.members = .ok members) (shape : NullOrObject srcRoot) :
    answerEmail json parseSuccess srcRoot response =
      .ok (sent.append (json.toStyledString
        (.object (insert (ascii "msg") (.string (ascii "receive email post success"))
          (insert (ascii "email") (emailOf srcRoot) (insert (ascii "error") (.int 0) members)))))) := by
  obtain ⟨accessed, subscript⟩ := subscript_of_shape shape
  rw [answerEmail, bind_of_ok made]
  dsimp only
  rw [bind_of_ok (assign_of_members present ..), bind_of_ok subscript]
  dsimp only
  rw [bind_of_ok (assign_of_members rfl ..), bind_of_ok (assign_of_members rfl ..)]
  rfl

/-- The error of a refusal is overwritten, but the refusal has been sent. -/
theorem answerEmail_of_shape {srcRoot : Value} (shape : NullOrObject srcRoot) (json : JsonCpp)
    (parseSuccess : Bool) (response : Response) :
    answerEmail json parseSuccess srcRoot response =
      .ok (response.append (appended json parseSuccess srcRoot)) := by
  cases parseSuccess with
  | true =>
    have made : parsed json true response = .ok (.null, response) := rfl
    rw [answerEmail_of_parsed made rfl shape]
    rfl
  | false =>
    have made : parsed json false response =
        .ok (refusal, response.append (json.toStyledString refusal)) := rfl
    rw [answerEmail_of_parsed made rfl shape, insert_insert]
    simp only [Response.append, appended, List.append_assoc]
    rfl

/-- The response to an email, before its length is set. -/
def answer (json : JsonCpp) (version : ℕ) (body : Text) : Response :=
  ⟨version, false, .ok, some (ascii "Beast"), some (ascii "text/json"), none,
    appended json (json.parse body).1 (json.parse body).2⟩

theorem processRequest_of_shape (shape : NullOrObject (json.parse body).2) :
    (received (emailPost version body)).processRequest json count now (emailPost version body) =
      .ok ((received (emailPost version body)).writeResponse (answer json version body), count) := by
  have created : ∀ response, createPostResponse json (emailPost version body) response =
      .ok ({ response with contentType := some (ascii "text/json") }.append
        (appended json (json.parse body).1 (json.parse body).2)) :=
    fun response => (if_pos rfl).trans (answerEmail_of_shape shape ..)
  have responded : HttpConnect.respond json count now (emailPost version body)
      (received (emailPost version body)).response = .ok (answer json version body, count) :=
    bind_of_ok (created _) _
  rw [HttpConnect.processRequest, bind_of_ok responded]
  rfl

theorem answersEmail_of_parsed
    (object : ∃ srcMembers, (json.parse body).2 = .object srcMembers)
    (styled : Styled json (acceptance (emailOf (json.parse body).2)))
    (parses : (json.parse body).1 = true) : AnswersEmail json version count now body := by
  obtain ⟨srcMembers, root⟩ := object
  have shape : NullOrObject (json.parse body).2 := by
    rw [root]
    trivial
  have text : appended json (json.parse body).1 (json.parse body).2 =
      json.toStyledString (acceptance (emailOf (json.parse body).2)) := by
    rw [parses]
    rfl
  refine ⟨_, _, _, processRequest_of_shape shape, rfl, ?_, ?_, rfl⟩
  · change OneObject (appended ..)
    rw [text]
    exact styled.single
  · refine ⟨_, (congrArg json.parse text).trans styled.parses, iff_of_true ?_ parses, ?_⟩
    · rw [member_insert_ne (by decide), member_insert_ne (by decide), member_insert_self]
    · intro _ members same
      rw [member_insert_ne (by decide), member_insert_self, same]
      rfl

/-- The refusal and the answer behind it are two documents. -/
theorem not_answersEmail_of_unparsed (refused : Styled json refusal)
    (styled : Styled json (acceptance (emailOf (json.parse body).2)))
    (unparsed : (json.parse body).1 = false) : ¬ AnswersEmail json version count now body := by
  rintro ⟨connect, counted, sent, processed, written, truthful⟩
  have shape : NullOrObject (json.parse body).2 := by
    obtain ⟨⟨answered, count⟩, responded, -⟩ := ok_of_bind processed
    exact respond_iff.mp ⟨_, responded⟩ rfl rfl
  obtain ⟨rfl, rfl⟩ := Prod.mk.inj (Except.ok.inj ((processRequest_of_shape shape).symm.trans processed))
  obtain rfl := List.singleton_inj.mp written
  apply not_oneObject_append refused.single styled.single
  have single : OneObject (appended ..) := truthful.single
  rwa [appended, unparsed] at single

/-- An email, unparseable or an object, is answered truthfully exactly when it parses. -/
theorem answersEmail_iff
    (object : (json.parse body).1 = true → ∃ srcMembers, (json.parse body).2 = .object srcMembers)
    (refused : Styled json refusal)
    (styled : Styled json (acceptance (emailOf (json.parse body).2))) :
    AnswersEmail json version count now body ↔ (json.parse body).1 = true := by
  refine ⟨fun answers => ?_, fun parses => answersEmail_of_parsed (object parses) styled parses⟩
  by_contra unparsed
  exact not_answersEmail_of_unparsed refused styled (Bool.eq_false_iff.mpr unparsed) answers

section Example

def refusalText : Text := ascii "\x7b\n\t\"error\" : 1001\n\x7d\n"

def acceptanceText (email : String) : Text :=
  ascii "\x7b\n\t\"email\" : " ++ ascii email ++
    ascii ",\n\t\"error\" : 0,\n\t\"msg\" : \"receive email post success\"\n\x7d\n"

/-- An object with the email `a`. -/
def goodBody : Text := ascii "\x7b\"email\":\"a\"\x7d"

def badBody : Text := ascii "a@b"

/-- The documents that are read and sent for these two bodies. -/
def mailDocuments : List (Text × Value) :=
  [(goodBody, .object [(ascii "email", .string (ascii "a"))]), (refusalText, refusal),
    (acceptanceText "null", acceptance .null),
    (acceptanceText "\"a\"", acceptance (.string (ascii "a")))]

/-- JsonCpp on them. -/
def mailJson : JsonCpp where
  parse text :=
    match mailDocuments.lookup text with
    | some root => (true, root)
    | none => (false, .null)
  valueToString _ := []
  toStyledString
    | .object [_] => refusalText
    | .object [(_, .null), _, _] => acceptanceText "null"
    | _ => acceptanceText "\"a\""

theorem mailJson_refusal : Styled mailJson refusal := ⟨by decide +kernel, by rfl⟩

theorem mailJson_null : Styled mailJson (acceptance .null) := ⟨by decide +kernel, by rfl⟩

theorem mailJson_string : Styled mailJson (acceptance (.string (ascii "a"))) :=
  ⟨by decide +kernel, by rfl⟩

theorem mailJson_good :
    mailJson.parse goodBody = (true, .object [(ascii "email", .string (ascii "a"))]) := by rfl

theorem mailJson_bad : mailJson.parse badBody = (false, .null) := by rfl

theorem answersEmail_good : AnswersEmail mailJson 11 0 0 goodBody :=
  (answersEmail_iff (fun _ => ⟨_, congrArg Prod.snd mailJson_good⟩) mailJson_refusal
    (by rw [mailJson_good]; exact mailJson_string)).mpr (congrArg Prod.fst mailJson_good)

theorem not_answersEmail_bad : ¬ AnswersEmail mailJson 11 0 0 badBody :=
  not_answersEmail_of_unparsed mailJson_refusal (by rw [mailJson_bad]; exact mailJson_null)
    (congrArg Prod.fst mailJson_bad)

end Example

end BoostLearn.Soundness.BeastHttpServer
