import RecipeFlow.Http.Status
import RecipeFlow.Json.Read
import RecipeFlow.Json.Write
import RecipeFlow.Url.Parse

/-! Requests to servers and what comes back. -/
namespace RecipeFlow.Http

inductive Method where
  | get
  | post
  | delete
  deriving DecidableEq, Repr

def Method.text : Method → String
  | get => "GET"
  | post => "POST"
  | delete => "DELETE"

structure Request where
  method : Method
  url : Url
  /-- A JSON document that is sent along. -/
  body : Option Json

/-- The locator of a request as it is sent. -/
def Request.target (r : Request) : String := r.url.requestText

structure Response where
  status : Nat
  body : String
  deriving DecidableEq, Repr

/-- Why a request brings no document. -/
inductive Failure where
  /-- The text is no locator. -/
  | badUrl
  /-- Nothing can be requested at the locator. -/
  | unsendable (url : Url)
  | unanswered (url : Url)
  /-- The status of the answer is one of an error. -/
  | refused (status : Nat) (url : Url)
  /-- The answer holds another document than expected. -/
  | undecodable

/-- A locator in messages: without user and password. -/
def shown (u : Url) : String :=
  u.requestText ++ match u.fragment with
    | some f => "#" ++ String.ofList f
    | none => ""

def Failure.text : Failure → String
  | badUrl => "builder error"
  | unsendable u => "builder error for url (" ++ shown u ++ ")"
  | unanswered u => "error sending request for url (" ++ shown u ++ ")"
  | refused status u =>
    "HTTP status " ++ (if status < 500 then "client" else "server") ++ " error (" ++
      statusText status ++ ") for url (" ++ shown u ++ ")"
  | undecodable => "error decoding response body"

/-- The characters that a host may hold on the way. -/
def isHostChar (c : Char) : Bool :=
  !(['"', '\x60', '\x7b', '\x7d'].contains c)

/-- Whether something can be requested at a locator: it names a host of the web. -/
def isSendable (u : Url) : Bool :=
  (u.scheme = "http".toList || u.scheme = "https".toList) && u.hasHost &&
    u.host.all (·.all isHostChar) && (shown u).length ≤ 65534

/-- A locator at which something can be requested. -/
def locate (text : String) : Except Failure Url :=
  match Url.parse text with
  | .error _ => .error .badUrl
  | .ok u => if isSendable u then .ok u else .error (.unsendable u)

/-- A network carries requests; an answer may not come, and each request may change its state. -/
structure Network (ν : Type) where
  exchange : Request → ν → Option Response × ν

/-- Sends a request. -/
def Network.send {ν : Type} (net : Network ν) (r : Request) (s : ν) : Except Failure Response × ν :=
  match net.exchange r s with
  | (some a, s) => (.ok a, s)
  | (none, s) => (.error (.unanswered r.url), s)

def Response.isSuccess (r : Response) : Bool :=
  200 ≤ r.status && r.status < 300

/-- Refuses an answer with the status of an error. -/
def Response.accepted (r : Response) (u : Url) : Except Failure Response :=
  if 400 ≤ r.status && r.status < 600 then .error (.refused r.status u) else .ok r

/-- The document of an answer. -/
def Response.decode {α : Type} (r : Response) (read? : Json → Option α) : Except Failure α :=
  match (Json.parse? r.body).bind read? with
  | some a => .ok a
  | none => .error .undecodable

/-- A network with answers in store, one for each request in order. -/
structure Script where
  responses : List Response
  /-- The requests so far. -/
  requests : List Request

/-- Answers as long as there are answers in store. -/
def Network.scripted : Network Script where
  exchange r s := (s.responses.head?, ⟨s.responses.drop 1, s.requests ++ [r]⟩)

/-- A network on which nobody answers. -/
def Network.silent (ν : Type) : Network ν where
  exchange _ s := (none, s)

end RecipeFlow.Http
