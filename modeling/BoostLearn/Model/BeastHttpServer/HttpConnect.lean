import BoostLearn.Model.Json

/-! # The connection of beast_http_server

A connection reads one request and answers it. What the library keeps of a request is its method,
its target and its body; the response is built field by field and handed to one write. The printed
lines are not modelled.
-/

namespace BoostLearn.Model.BeastHttpServer

open CInt Json

/-- `http::verb`; a method that is not known also has a name. -/
inductive Verb where
  | get
  | post
  | other (methodString : Text)
deriving DecidableEq, Repr

/-- `http::status`, as far as it is used. -/
inductive Status where
  | ok
  | badRequest
  | notFound
deriving DecidableEq, Repr

/-- `http::request<http::dynamic_body>`. -/
structure Request where
  version : ℕ
  method : Verb
  target : Text
  body : Text
deriving DecidableEq, Repr

/-- `http::response<http::dynamic_body>`. -/
structure Response where
  version : ℕ
  keepAlive : Bool
  result : Status
  server : Option Text
  contentType : Option Text
  contentLength : Option ℕ
  body : Text
deriving DecidableEq, Repr

namespace Response

/-- A response before anything is set. -/
def empty : Response := ⟨11, true, .ok, none, none, none, []⟩

/-- `beast::ostream(response_.body()) << text`. -/
def append (response : Response) (text : Text) : Response :=
  { response with body := response.body ++ text }

/-- The answer to a target that does not exist. -/
def fileNotFound (response : Response) : Response :=
  { response with
    result := .notFound
    contentType := some (ascii "text/plain") }.append (ascii "File not found\r\n")

end Response

/-- `my_program_state::request_count`. -/
def requestCount (count : ℕ) : ℕ := toSizeT (count + 1)

/-- `http_connect::create_response`, with the count and the time of the program. -/
def createResponse (count : ℕ) (now : ℤ) (request : Request) (response : Response) : Response × ℕ :=
  if request.target = ascii "/count" then
    let count := requestCount count
    let response := { response with contentType := some (ascii "text/html") }
    (response.append
      (ascii "<html>\n<head><title>Request count</title></head>\n<body>\n<h1>Request count</h1>\n" ++
        ascii "<p>There have been " ++ ascii (toString count) ++
        ascii " requests so far.</p>\n</body>\n</html>\n"), count)
  else if request.target = ascii "/time" then
    let response := { response with contentType := some (ascii "text/html") }
    (response.append
      (ascii "<html>\n<head><title>Request time</title></head>\n<body>\n<h1>Current time</h1>\n" ++
        ascii "<p>The current time is " ++ ascii (toString now) ++
        ascii " seconds since the epoch</p>\n</body>\n</html>\n"), count)
  else (response.fileNotFound, count)

/-- The root of the answer to an email, and what has been written before it: the code goes on
behind the answer to a body that does not parse. -/
def parsed (json : JsonCpp) (parseSuccess : Bool) (response : Response) :
    Except LogicError (Value × Response) :=
  if parseSuccess then return (.null, response)
  else do
    let root ← Value.null.assign (ascii "error") (.int 1001)
    return (root, response.append (json.toStyledString root))

/-- The branch for `/email` behind the parse. -/
def answerEmail (json : JsonCpp) (parseSuccess : Bool) (srcRoot : Value) (response : Response) :
    Except LogicError Response := do
  let (root, response) ← parsed json parseSuccess response
  let root ← root.assign (ascii "error") (.int 0)
  let (_, email) ← srcRoot.subscript (ascii "email")
  let root ← root.assign (ascii "email") email
  let root ← root.assign (ascii "msg") (.string (ascii "receive email post success"))
  return response.append (json.toStyledString root)

/-- `http_connect::create_post_response`. -/
def createPostResponse (json : JsonCpp) (request : Request) (response : Response) :
    Except LogicError Response :=
  if request.target = ascii "/email" then
    let (parseSuccess, srcRoot) := json.parse request.body
    answerEmail json parseSuccess srcRoot { response with contentType := some (ascii "text/json") }
  else return response.fileNotFound

/-- The members of `http_connect` and what is under way for it: the read of its request, the write
of its response and its deadline. The history is what the write was started with. -/
structure HttpConnect where
  isOpen : Bool
  reading : Bool
  writing : Bool
  deadline : Bool
  request : Option Request
  response : Response
  written : List Response
deriving DecidableEq, Repr

namespace HttpConnect

/-- `http_connect::start`. -/
def start : HttpConnect := ⟨true, true, false, true, none, .empty, []⟩

/-- `http_connect::write_response`. -/
def writeResponse (connect : HttpConnect) (response : Response) : HttpConnect :=
  let response := { response with contentLength := some response.body.length }
  { connect with
    response
    writing := true
    written := connect.written ++ [response] }

/-- The response of `http_connect::process_request` before it is written, and the count behind it. -/
def respond (json : JsonCpp) (count : ℕ) (now : ℤ) (request : Request) (response : Response) :
    Except LogicError (Response × ℕ) :=
  let response := { response with version := request.version, keepAlive := false }
  match request.method with
  | .get =>
    let response := { response with result := .ok, server := some (ascii "Beast") }
    return createResponse count now request response
  | .post => do
    let response := { response with result := .ok, server := some (ascii "Beast") }
    return (← createPostResponse json request response, count)
  | .other methodString =>
    let response := { response with
      contentType := some (ascii "text/plain")
      result := .badRequest }
    return (response.append (ascii "Invalid request method '" ++ methodString ++ ascii "'"), count)

/-- `http_connect::process_request`. -/
def processRequest (json : JsonCpp) (count : ℕ) (now : ℤ) (connect : HttpConnect) (request : Request) :
    Except LogicError (HttpConnect × ℕ) := do
  let (response, count) ← respond json count now request connect.response
  return (connect.writeResponse response, count)

end HttpConnect

end BoostLearn.Model.BeastHttpServer
