import Pickpoint.Interleave.Machine

/-!
# Token Sessions

The client-auth session of the HTTP client: a pair of tokens under a lock, and
the single-flight refresh its callers share.

A caller that finds `refreshing` unset sets it, posts the refresh token, stores
the pair of the answer, unsets the flag and wakes everybody who waits. A caller
that finds it set releases the lock, makes a `Notified` and awaits it, and then
looks at the flag again.

As for the tracking client, a task is what remains of a call between two
steps. `RefreshPc.gap` and `RefreshPc.notify` are places without an await: the
call is running there, between two steps of its thread. At every other place
the call awaits something and may be dropped, which `Input.drop` does.

`notify_waiters` wakes the `Notified`s made before it and nothing else, so a
`Notified` is the number of calls to `notify_waiters` it was made after.
`stored` keeps the pairs stored so far, and a caller keeps how many there were
when its call began. No section reads these.

The JSON decoder is a parameter. Milliseconds and the half of the lifetime are
exact, as the `f64` product is up to `2 ^ 53`.

## Main definitions

* `ClientAuth`, `ClientAuthInner`, `Shared`: The session.
* `needsProactiveRefresh`: Whether the access token is due.
* `refreshReply`: What `do_refresh` makes of a response.
* `Section`, `Task`, `Input`: Its steps, suspended calls and what resumes them.
* `tokenSession`: The session as a machine.
-/

namespace Pickpoint

namespace Auth

open Interleave

/-- Raw bytes. -/
abbrev Bytes := List UInt8

/-- A reading of the monotonic clock, in nanoseconds. -/
abbrev Instant := Nat

/-- A pair of tokens; `expiresAt` is unix time in milliseconds. -/
structure ClientAuth where
  accessToken : String
  refreshToken : String
  expiresAt : Int
  deriving DecidableEq, Repr

/-- An error of the HTTP client. -/
structure ApiError where
  status : Nat
  code : String
  message : String
  body : Bytes
  deriving DecidableEq, Repr

/-- `is_auth`. -/
def ApiError.isAuth (e : ApiError) : Bool := e.code == "API_AUTH" || e.code == "REFRESH_FAILED"

def ApiError.isNotFound (e : ApiError) : Bool := e.code == "NOT_FOUND"

def ApiError.isConflict (e : ApiError) : Bool := e.code == "CONFLICT"

def ApiError.isInvalidConfig (e : ApiError) : Bool := e.code == "INVALID_CONFIG"

def invalidConfig (message : String) : ApiError := ⟨0, "INVALID_CONFIG", message, []⟩

/-- What the session keeps under its lock: the pair, when it was stored by the
    monotonic clock, and the flag of the refresh under way. -/
structure ClientAuthInner where
  accessToken : String
  refreshToken : String
  expiresAt : Int
  issuedAt : Instant
  refreshing : Bool
  deriving DecidableEq, Repr

/-- The shared state. -/
structure Shared where
  inner : ClientAuthInner
  /-- How often `notify_waiters` was called. -/
  notifyCalls : Nat := 0
  /-- The pairs stored so far, newest first. -/
  stored : List ClientAuth := []
  deriving DecidableEq, Repr

/-- `ClientAuthSession::new` at time `now`. -/
def newSession (initial : ClientAuth) (now : Instant) : Except ApiError Shared :=
  if initial.accessToken = "" ∨ initial.refreshToken = "" ∨ initial.expiresAt = 0 then
    .error (invalidConfig
      "client_auth requires access_token, refresh_token, and expires_at (unix ms)")
  else
    .ok
      { inner :=
          { accessToken := initial.accessToken
            refreshToken := initial.refreshToken
            expiresAt := initial.expiresAt
            issuedAt := now
            refreshing := false } }

/-- Whether half of the access token's lifetime is over. The wall clock reads
    `nowMs`, the monotonic one `now` and later `now'`. -/
def needsProactiveRefresh (inner : ClientAuthInner) (nowMs : Int) (now now' : Instant) : Bool :=
  -- When the pair was stored, by the wall clock: what has passed since, taken off.
  let issuedMs := nowMs - ((now - inner.issuedAt) / 1000000 : Nat)
  let ttlMs := inner.expiresAt - issuedMs
  -- Expired when it was stored, by the local clock: due half a minute before its end.
  if ttlMs ≤ 0 then decide (inner.expiresAt - 30000 ≤ nowMs)
  else decide (inner.issuedAt + (ttlMs / 2).toNat * 1000000 ≤ now')

/-! ## Locked blocks -/

/-- The block at the head of the loop of `refresh`: take the flag and the
    refresh token, unless somebody refreshes already. -/
def refreshLock (s : Shared) : Shared × Option String :=
  if s.inner.refreshing then (s, none)
  else ({ s with inner := { s.inner with refreshing := true } }, some s.inner.refreshToken)

/-- Last block of `do_refresh`. -/
def storePair (pair : ClientAuth) (now : Instant) (s : Shared) : Shared :=
  { s with
    inner :=
      { s.inner with
        accessToken := pair.accessToken
        refreshToken := pair.refreshToken
        expiresAt := pair.expiresAt
        issuedAt := now }
    stored := pair :: s.stored }

/-- Block of `refresh` after `do_refresh`. -/
def clearRefreshing (s : Shared) : Shared :=
  { s with inner := { s.inner with refreshing := false } }

def notifyWaiters (s : Shared) : Shared := { s with notifyCalls := s.notifyCalls + 1 }

/-- Whether a `Notified` made after `calls` calls has been woken. -/
def isNotified (calls : Nat) (s : Shared) : Bool := decide (calls < s.notifyCalls)

/-- The error of a refresh that got no response. -/
def refreshNetworkError (e : String) : ApiError :=
  ⟨0, "REFRESH_FAILED", s!"client token refresh network error: {e}", []⟩

/-- What `do_refresh` makes of a response. -/
def refreshReply (parse : Bytes → Except String ClientAuth) (status : Nat) (raw : Bytes) :
    Except ApiError ClientAuth :=
  if ¬ (200 ≤ status ∧ status < 300) then
    .error ⟨status, "REFRESH_FAILED", s!"client token refresh failed ({status})", raw⟩
  else
    -- A body that could not be read is parsed as an empty one.
    match parse raw with
    | .error e => .error ⟨0, "INVALID_TOKEN", s!"refresh returned invalid JSON: {e}", raw⟩
    -- All three fields have to be given.
    | .ok pair =>
      if pair.accessToken = "" ∨ pair.refreshToken = "" ∨ pair.expiresAt = 0 then
        .error ⟨0, "INVALID_TOKEN", "refresh returned invalid clientAuth pair", raw⟩
      else .ok pair

/-! ## Steps -/

/-- The steps on the shared state, indexed by what they return. -/
inductive Section : Type → Type where
  | nop : Section Unit
  | drop : Section Unit
  | check (nowMs : Int) (now now' : Instant) : Section (Bool × Nat)
  | readToken : Section String
  | refreshLock : Section (Option String)
  | storePair (pair : ClientAuth) (now : Instant) : Section Unit
  | clearRefreshing : Section Unit
  | notifyWaiters : Section Unit
  | notified : Section Nat
  | isNotified (calls : Nat) : Section Bool
  | readRefreshing : Section Bool

/-- What a step does. -/
def Section.run : {α : Type} → Section α → Shared → Shared × α
  | _, .nop, s => (s, ())
  | _, .drop, s => (s, ())
  | _, .check nowMs now now', s =>
    (s, needsProactiveRefresh s.inner nowMs now now', s.stored.length)
  | _, .readToken, s => (s, s.inner.accessToken)
  | _, .refreshLock, s => Auth.refreshLock s
  | _, .storePair pair now, s => (Auth.storePair pair now s, ())
  | _, .clearRefreshing, s => (Auth.clearRefreshing s, ())
  | _, .notifyWaiters, s => (Auth.notifyWaiters s, ())
  | _, .notified, s => (s, s.notifyCalls)
  | _, .isNotified calls, s => (s, Auth.isNotified calls s)
  | _, .readRefreshing, s => (s, s.inner.refreshing)

/-! ## Calls -/

/-- What resumes a call. -/
inductive Input where
  /-- The lock is free, or the thread runs on. -/
  | go
  /-- The same, with readings of the wall clock and the monotonic clock. -/
  | clock (nowMs : Int) (now now' : Instant)
  /-- The request failed. -/
  | failed (e : String)
  /-- A response arrived. -/
  | responded (status : Nat)
  /-- Its body was read; empty when that failed. -/
  | body (raw : Bytes)
  /-- The future of the call is dropped. -/
  | drop

/-- Who called `refresh`, and how many pairs had been stored then. -/
inductive Caller where
  | token (since : Nat)
  | unauthorized (since : Nat)
  deriving DecidableEq, Repr

/-- How many pairs had been stored when `refresh` was called. -/
def Caller.since : Caller → Nat
  | .token since => since
  | .unauthorized since => since

/-- Where `refresh` is, `do_refresh` included. `gap` is where a waiter has released
    the lock and has no `Notified` yet. -/
inductive RefreshPc where
  | lock
  | posting (refreshTok : String)
  | reading (status : Nat)
  | store (pair : ClientAuth)
  | clear (r : Except ApiError Unit)
  | notify (r : Except ApiError Unit)
  | gap
  | waiting (calls : Nat)
  | recheck
  deriving DecidableEq

/-- What a finished call returned. -/
inductive Ret where
  | token (r : Except ApiError String)
  | unauthorized (ok : Bool)
  deriving DecidableEq

/-- A suspended call. `tokenRead` is the end of `token`, with the pairs stored
    when it called `refresh` if it did. -/
inductive Task where
  | token
  | refresh (who : Caller) (pc : RefreshPc)
  | tokenRead (due : Option Nat)
  | returned (r : Ret)
  | dropped
  deriving DecidableEq

/-- What becomes of the result of `refresh`. -/
def Caller.done : Caller → Except ApiError Unit → Task
  | .token since, .ok _ => .tokenRead (some since)
  | .token _, .error e => .returned (.token (.error e))
  | .unauthorized _, r => .returned (.unauthorized r.isOk)

namespace Task

/-- Whether a call awaits something, so that it can be dropped. -/
def awaits : Task → Bool
  | .token | .tokenRead _ => true
  | .refresh _ .gap | .refresh _ (.notify _) => false
  | .refresh _ _ => true
  | .returned _ | .dropped => false

/-- `refresh` and `do_refresh`. -/
def refreshAct (parse : Bytes → Except String ClientAuth) (who : Caller) :
    RefreshPc → Input → Option (Act Section Task)
  -- The head of the loop.
  | .lock, .go =>
    some ⟨.refreshLock, fun
      | some refreshTok => (.refresh who (.posting refreshTok), [])
      | none => (.refresh who .gap, [])⟩
  -- The request of `do_refresh`, and its answer.
  | .posting _, .failed e =>
    some ⟨.nop, fun _ => (.refresh who (.clear (.error (refreshNetworkError e))), [])⟩
  | .posting _, .responded status => some ⟨.nop, fun _ => (.refresh who (.reading status), [])⟩
  | .reading status, .body raw =>
    some ⟨.nop, fun _ =>
      (.refresh who (match refreshReply parse status raw with
        | .error e => .clear (.error e)
        | .ok pair => .store pair), [])⟩
  | .store pair, .clock _ now _ =>
    some ⟨.storePair pair now, fun _ => (.refresh who (.clear (.ok ())), [])⟩
  -- Two sections: in between the flag is unset and nobody has been woken.
  | .clear r, .go => some ⟨.clearRefreshing, fun _ => (.refresh who (.notify r), [])⟩
  | .notify r, .go => some ⟨.notifyWaiters, fun _ => (who.done r, [])⟩
  -- The lock has been released; only now the waiter gets its `Notified`.
  | .gap, .go => some ⟨.notified, fun calls => (.refresh who (.waiting calls), [])⟩
  | .waiting calls, .go =>
    some ⟨.isNotified calls, fun woken =>
      (.refresh who (if woken then .recheck else .waiting calls), [])⟩
  -- A waiter that finds the flag unset takes that for success.
  | .recheck, .go =>
    some ⟨.readRefreshing, fun refreshing =>
      (if refreshing then .refresh who .lock else who.done (.ok ()), [])⟩
  | _, _ => none

/-- The step a call takes when resumed, and what follows it. -/
def act (parse : Bytes → Except String ClientAuth) : Task → Input → Option (Act Section Task)
  | t, .drop => if t.awaits then some ⟨.drop, fun _ => (.dropped, [])⟩ else none
  | .token, .clock nowMs now now' =>
    some ⟨.check nowMs now now', fun
      | (due, since) => (if due then .refresh (.token since) .lock else .tokenRead none, [])⟩
  | .refresh who pc, c => refreshAct parse who pc c
  -- Whatever token is there now is returned.
  | .tokenRead _, .go =>
    some ⟨.readToken, fun accessToken => (.returned (.token (.ok accessToken)), [])⟩
  | _, _ => none

end Task

/-- The calls a holder of the session makes: `token`, and
    `refresh_after_unauthorized` when `stored` pairs have been stored. -/
def isCall (stored : Nat) : Task → Bool
  | .token => true
  | .refresh (.unauthorized since) .lock => since == stored
  | _ => false

/-- The session. Calls come in at any time. -/
def tokenSession (parse : Bytes → Except String ClientAuth) : Machine Shared Task Input where
  Op := Section
  run := Section.run
  act := Task.act parse
  entry s t := isCall s.stored.length t

/-- The pools a session starts from. -/
def Started (initial : ClientAuth) (p : Pool Shared Task) : Prop :=
  ∃ now, newSession initial now = .ok p.shared ∧ p.tasks = []

end Auth

end Pickpoint
