import Pickpoint.Core.TokenSession

/-!
# Transport

`do_request` of the HTTP client: apply the auth, send, and look at the answer,
again after a network error or a server error while attempts are left, and once
more after a `401` that a refresh could help.

A call of `do_request` is cut at its awaits like the calls of a token session, and
where it awaits the session it carries the session's task. The requests of one
transport share its session, so the machine runs over the shared state of
`Core.TokenSession`. What a request carries besides its token, and how long it
sleeps, plays no part in what becomes of it and is left out.

A token is named by how many pairs had been stored when it became the session's:
the initial one is 0. `Request.sentWith` is the token of the last send, and
`Request.accounts` are the tokens the request refreshed on account of, because it
found them due or was refused with them. A refresh keeps the token it is made on
account of as its `Caller.since`. No step reads these.

## Main definitions

* `Lib`: What other crates decide about headers and bodies.
* `AuthKind`, `Transport`, `RequestOpts`: How requests are made.
* `messageFromBody`, `statusResult`: What a response comes to.
* `Call`, `Call.act`: A suspended `do_request`, and its next step.
* `transport`: The requests of a transport as a machine.
-/

namespace Pickpoint

namespace Http

open Interleave Auth

/-- What other crates decide: which strings are header values, the `message` and
    `error` of a JSON body, and the reason of a status. -/
structure Lib where
  headerOk : String → Bool
  parseMsg : Bytes → Option (Option String × Option String)
  canonicalReason : Nat → Option String

/-- How requests are authorized. The session of `clientAuth` is the shared
    state; a static session has one token. -/
inductive AuthKind where
  | apiKey (key : String)
  | staticToken (accessToken : String)
  | clientAuth

/-- `is_bearer`. -/
def AuthKind.isBearer : AuthKind → Bool
  | .apiKey _ => false
  | .staticToken _ | .clientAuth => true

structure Transport where
  auth : AuthKind
  maxRetries : Nat

inductive OnClientError where
  | throw
  | empty
  deriving DecidableEq, Repr

structure RequestOpts where
  onClientError : OnClientError
  empty : Option Bytes := none
  deriving DecidableEq, Repr

/-! ## Responses -/

/-- `http_status_text`. -/
def httpStatusText (lib : Lib) (status : Nat) : String :=
  (lib.canonicalReason status).getD "unknown"

/-- `message_from_body`. -/
def messageFromBody (lib : Lib) (raw : Bytes) (status : Nat) : String :=
  match lib.parseMsg raw with
  | none => httpStatusText lib status
  -- `message` comes before `error`, and an empty text counts as none.
  | some (message, error) =>
    match message.filter (fun s => s ≠ "") with
    | some message => message
    | none => (error.filter fun s => s ≠ "").getD (httpStatusText lib status)

/-- The error of a request that got no response. -/
def networkError (e : String) : ApiError := ⟨0, "NETWORK", s!"network error: {e}", []⟩

/-- The error of a `401` that no refresh helps. -/
def unauthorizedError (raw : Bytes) : ApiError := ⟨401, "API_AUTH", "auth failed (401)", raw⟩

/-- The error of a server error when no attempt is left. -/
def serverError (status : Nat) (raw : Bytes) : ApiError :=
  ⟨status, "SERVER_ERROR", "server error after retries", raw⟩

/-- What the other statuses lead to. -/
def statusResult (lib : Lib) (opts : RequestOpts) (status : Nat) (raw : Bytes) :
    Except ApiError Bytes :=
  if status = 402 ∨ status = 403 then .error ⟨status, "API_AUTH", "auth failed", raw⟩
  -- No content is an empty body, whatever the options say.
  else if status = 204 then .ok []
  -- Before the options are looked at.
  else if status = 409 then .error ⟨409, "CONFLICT", messageFromBody lib raw 409, raw⟩
  else if status = 400 ∨ (404 ≤ status ∧ status ≤ 499) then
    if opts.onClientError = .empty then .ok (opts.empty.getD [])
    else .error ⟨status, if status = 404 then "NOT_FOUND" else "CLIENT_ERROR",
      messageFromBody lib raw status, raw⟩
  else if 200 ≤ status ∧ status ≤ 299 then .ok raw
  -- Every status from 400 to 499 has been handled above.
  else if 400 ≤ status ∧ status < 500 ∧ opts.onClientError = .empty then .ok (opts.empty.getD [])
  else .error ⟨status, "CLIENT_ERROR", messageFromBody lib raw status, raw⟩

/-! ## Calls -/

/-- The locals of a `do_request`, and two things it does not keep: the token it was
    last sent with, and those it has refreshed for. -/
structure Request where
  opts : RequestOpts
  attempt : Nat := 0
  authRetried : Bool := false
  /-- The token of the last send. -/
  sentWith : Option Nat := none
  /-- The tokens it refreshed on account of, newest first. -/
  accounts : List Nat := []
  deriving DecidableEq, Repr

/-- A suspended `do_request`. While it asks the session for a token or for a refresh
    it has a task of the session inside. -/
inductive Call where
  | applying (req : Request) (auth : Auth.Task)
  | sending (req : Request)
  | reading (req : Request) (status : Nat)
  | refreshing (req : Request) (raw : Bytes) (auth : Auth.Task)
  | sleeping (req : Request)
  | returned (req : Request) (r : Except ApiError Bytes)
  | dropped
  deriving DecidableEq

/-- The steps on the shared state: those of the session, and reading its token
    together with the token's name. -/
inductive Section (β : Type) : Type where
  | auth (op : Auth.Section β)
  | readToken (h : β = (String × Nat))

/-- What a step does. -/
def Section.run {β : Type} : Section β → Auth.Shared → Auth.Shared × β
  | .auth op, s => op.run s
  | .readToken h, s => (s, cast h.symm (s.inner.accessToken, s.stored.length))

namespace Call

/-- `apply` with a bearer token. -/
def bearer (lib : Lib) (req : Request) (accessToken : String) (token : Nat) : Call :=
  if lib.headerOk ("Bearer " ++ accessToken) then .sending { req with sentWith := some token }
  else .returned req (.error ⟨0, "INVALID_TOKEN", "access token is not a valid header", []⟩)

/-- `apply` after its session task went from one place to the next. -/
def applied (req : Request) : Auth.Task → Auth.Task → Call
  -- The access token was found due.
  | .token, .refresh who pc =>
    .applying { req with accounts := who.since :: req.accounts } (.refresh who pc)
  | _, .returned (.token (.error e)) => .returned req (.error e)
  | _, .dropped => .dropped
  | _, auth => .applying req auth

/-- `do_request` after the session task of its refresh went on. -/
def refreshed (req : Request) (raw : Bytes) : Auth.Task → Call
  | .returned (.unauthorized true) => .applying { req with authRetried := true } .token
  | .returned _ => .returned req (.error (unauthorizedError raw))
  | .dropped => .dropped
  | auth => .refreshing req raw auth

/-- A send that got no response. -/
def unanswered (tr : Transport) (req : Request) (e : String) : Call :=
  if tr.maxRetries ≤ req.attempt then .returned req (.error (networkError e)) else .sleeping req

/-- The `match` on the status of a response. -/
def received (tr : Transport) (lib : Lib) (req : Request) (status : Nat) (raw : Bytes) : Call :=
  if status = 401 then
    -- One refresh for each request.
    if ¬ req.authRetried ∧ tr.auth.isBearer then
      match tr.auth with
      | .clientAuth =>
        let token := req.sentWith.getD 0
        .refreshing { req with accounts := token :: req.accounts } raw
          (.refresh (.unauthorized token) .lock)
      -- A static session has nothing to refresh.
      | _ => .returned req (.error (unauthorizedError raw))
    else .returned req (.error (unauthorizedError raw))
  else if 500 ≤ status ∧ status ≤ 599 then
    if tr.maxRetries ≤ req.attempt then .returned req (.error (serverError status raw))
    else .sleeping req
  else .returned req (statusResult lib req.opts status raw)

/-- `apply`. Only the client session awaits anything. -/
def applyAct (parse : Bytes → Except String ClientAuth) (lib : Lib) (tr : Transport)
    (req : Request) (auth : Auth.Task) (c : Input) : Option (Act Section Call) :=
  match tr.auth, auth, c with
  | .apiKey key, .token, .go =>
    some ⟨.auth .nop, fun _ =>
      (if lib.headerOk key then .sending req
        else .returned req (.error (invalidConfig "api_key contains invalid header characters")),
        [])⟩
  | .staticToken accessToken, .token, .go =>
    some ⟨.auth .nop, fun _ => (bearer lib req accessToken 0, [])⟩
  -- Instead of the end of `token`, to keep the name of what it reads.
  | .clientAuth, .tokenRead _, .go =>
    some ⟨.readToken rfl, fun (r : String × Nat) => (bearer lib req r.1 r.2, [])⟩
  | .clientAuth, auth, c =>
    (auth.act parse c).map fun a => ⟨.auth a.op, fun x => (applied req auth (a.next x).1, [])⟩
  | _, _, _ => none

/-- The step a `do_request` takes when resumed, and what follows it. -/
def act (parse : Bytes → Except String ClientAuth) (lib : Lib) (tr : Transport) :
    Call → Input → Option (Act Section Call)
  | .applying req auth, c => applyAct parse lib tr req auth c
  | .sending req, .failed e => some ⟨.auth .nop, fun _ => (unanswered tr req e, [])⟩
  | .sending req, .responded status => some ⟨.auth .nop, fun _ => (.reading req status, [])⟩
  -- A body that could not be read counts as an empty one.
  | .reading req status, .body raw =>
    some ⟨.auth .nop, fun _ => (received tr lib req status raw, [])⟩
  | .refreshing req raw auth, c =>
    (auth.act parse c).map fun a => ⟨.auth a.op, fun x => (refreshed req raw (a.next x).1, [])⟩
  | .sleeping req, .go =>
    some ⟨.auth .nop, fun _ => (.applying { req with attempt := req.attempt + 1 } .token, [])⟩
  | .sending _, .drop | .reading _ _, .drop | .sleeping _, .drop =>
    some ⟨.auth .drop, fun _ => (.dropped, [])⟩
  | _, _ => none

/-- A request comes in with nothing tried yet. -/
def isCall : Call → Bool
  | .applying req .token => req == { opts := req.opts }
  | _ => false

end Call

/-- The requests of a transport. They come in at any time. -/
def transport (parse : Bytes → Except String ClientAuth) (lib : Lib) (tr : Transport) :
    Machine Auth.Shared Call Input where
  Op := Section
  run := Section.run
  act := Call.act parse lib tr
  entry _ t := t.isCall

/-- The pools a transport with a client session starts from. -/
def Started (initial : ClientAuth) (p : Pool Auth.Shared Call) : Prop :=
  ∃ now, newSession initial now = .ok p.shared ∧ p.tasks = []

end Http

end Pickpoint
