import Pickpoint.Core.Geocoding
import Mathlib.Data.List.DropRight

/-!
# Client

How a client of the public API is built from a configuration: which credential it
uses, and the values that take the place of those left out or out of range.

A client carries what `Client::new` makes sure of. Of the configuration, the HTTP
client and its timeout are left out; they belong to another crate.

## Main definitions

* `Config`: What a client is built from.
* `resolveAuth`: The credential it uses.
* `trimSlash`: An address without slashes at its end.
* `Client`: A client, with what holds of it.
* `Client.new`: How it is built.
-/

namespace Pickpoint

namespace Http

open Auth

/-- A span of time, in nanoseconds. -/
abbrev Duration := Nat

def millisecond : Duration := 1000000

def defaultBaseUrl : String := "https://api.pickpoint.io"

def defaultMaxRetries : Nat := 3

/-- One second. -/
def defaultRetryBase : Duration := 1000 * millisecond

def minRetryBase : Duration := 200 * millisecond

/-- How many requests of a batch may be in flight. -/
def maxConcurrency : Nat := 20

def defaultConcurrency : Nat := 20

/-- What a client is built from. A field that is left out takes its default when the
    client is made, and the credentials are checked against each other there. -/
structure Config where
  apiKey : Option String := none
  clientAuth : Option ClientAuth := none
  accessToken : Option String := none
  baseUrl : Option String := none
  maxRetries : Option Nat := none
  retryBase : Option Duration := none
  concurrency : Option Nat := none

namespace Config

def withApiKey (apiKey : String) : Config := { apiKey := some apiKey }

def withClientAuth (auth : ClientAuth) : Config := { clientAuth := some auth }

def withAccessToken (token : String) : Config := { accessToken := some token }

end Config

/-! ## Credentials -/

/-- An optional text that is there and not empty. -/
def given (s : Option String) : Bool := s.any fun s => decide (s ≠ "")

/-- How many credentials there are. -/
def credentials (cfg : Config) : Nat :=
  (if given cfg.apiKey then 1 else 0) + (if cfg.clientAuth.isSome then 1 else 0) +
    (if given cfg.accessToken then 1 else 0)

/-- `resolve_auth` at time `now`, with the session that goes with a client pair. -/
def resolveAuth (cfg : Config) (now : Instant) : Except ApiError (AuthKind × Option Shared) :=
  if 1 < credentials cfg then
    .error (invalidConfig "provide only one of: api_key | client_auth | access_token")
  else if credentials cfg = 0 then
    .error (invalidConfig "auth required: api_key, client_auth, or access_token")
  -- An empty key is no key.
  else if given cfg.apiKey then .ok (.apiKey (cfg.apiKey.getD ""), none)
  else
    match cfg.clientAuth with
    | some auth =>
      -- A pair with an empty field is refused here.
      match newSession auth now with
      | .error e => .error e
      | .ok session => .ok (.clientAuth, some session)
    | none => .ok (.staticToken (cfg.accessToken.getD ""), none)

/-! ## Clients -/

/-- `trim_slash`. -/
def trimSlash (s : String) : String := String.ofList (s.toList.rdropWhile fun c => c == '/')

/-- The retry base a client uses. -/
def retryBaseOf (cfg : Config) : Duration := max (cfg.retryBase.getD defaultRetryBase) minRetryBase

/-- Zero asks for the default concurrency. -/
def orDefault (n : Nat) : Nat := if n = 0 then defaultConcurrency else n

def atMost (n : Nat) : Nat := if maxConcurrency < n then maxConcurrency else n

/-- The concurrency a client uses. -/
def concurrencyOf (cfg : Config) : Nat :=
  atMost (orDefault (cfg.concurrency.getD defaultConcurrency))

/-- A client of the public API. What `Client::new` checks or clamps is a field here,
    so that no client can be made with a base that ends in a slash or with a
    concurrency out of range. -/
structure Client where
  baseUrl : String
  transport : Transport
  /-- What the session of a client pair starts from. -/
  session : Option Shared
  retryBase : Duration
  concurrency : Nat
  /-- There is a session just when requests are authorized by one. -/
  session_iff : session.isSome = true ↔ transport.auth = .clientAuth
  /-- No path begins with two slashes. -/
  trimmed : baseUrl.toList.getLast? ≠ some '/'
  retryBase_ge : minRetryBase ≤ retryBase
  concurrency_pos : 0 < concurrency
  concurrency_le : concurrency ≤ maxConcurrency

theorem trimSlash_trimmed (s : String) : (trimSlash s).toList.getLast? ≠ some '/' := by
  rw [trimSlash, String.toList_ofList]
  intro hlast
  -- Nothing is left, or what is left does not end in a slash.
  by_cases hne : (s.toList.rdropWhile fun c => c == '/') = []
  · rw [hne] at hlast
    cases hlast
  · have hkept := List.rdropWhile_last_not (fun c => c == '/') s.toList hne
    rw [List.getLast?_eq_some_getLast hne, Option.some.injEq] at hlast
    rw [hlast] at hkept
    exact hkept rfl

theorem orDefault_pos (n : Nat) : 0 < orDefault n := by
  unfold orDefault
  by_cases h : n = 0
  · rw [if_pos h]
    decide
  · rw [if_neg h]
    omega

theorem atMost_eq (n : Nat) : atMost n = min maxConcurrency n := by
  unfold atMost
  by_cases h : maxConcurrency < n
  · rw [if_pos h]
    omega
  · rw [if_neg h]
    omega

theorem concurrencyOf_pos (cfg : Config) : 0 < concurrencyOf cfg := by
  rw [concurrencyOf, atMost_eq]
  exact Nat.lt_min.mpr ⟨by decide, orDefault_pos _⟩

theorem concurrencyOf_le (cfg : Config) : concurrencyOf cfg ≤ maxConcurrency := by
  rw [concurrencyOf, atMost_eq]
  exact Nat.min_le_left _ _

/-- A session comes with a client pair, and with nothing else. -/
theorem resolveAuth_session (cfg : Config) (now : Instant) (auth : AuthKind)
    (session : Option Shared) (h : resolveAuth cfg now = .ok (auth, session)) :
    session.isSome = true ↔ auth = .clientAuth := by
  -- Too many, none, a key, a pair or a token.
  unfold resolveAuth at h
  split at h
  · cases h
  split at h
  · cases h
  split at h
  · cases h
    exact ⟨by rintro ⟨⟩, by rintro ⟨⟩⟩
  split at h
  · split at h
    · cases h
    · cases h
      exact ⟨fun _ => rfl, fun _ => rfl⟩
  · cases h
    exact ⟨by rintro ⟨⟩, by rintro ⟨⟩⟩

/-- `Client::new` at time `now`. -/
def Client.new (cfg : Config) (now : Instant) : Except ApiError Client :=
  match h : resolveAuth cfg now with
  | .error e => .error e
  | .ok (auth, session) =>
    .ok
      { baseUrl := trimSlash (cfg.baseUrl.getD defaultBaseUrl)
        transport := { auth := auth, maxRetries := cfg.maxRetries.getD defaultMaxRetries }
        session := session
        retryBase := retryBaseOf cfg
        concurrency := concurrencyOf cfg
        session_iff := resolveAuth_session cfg now auth session h
        trimmed := trimSlash_trimmed _
        retryBase_ge := Nat.le_max_right _ _
        concurrency_pos := concurrencyOf_pos cfg
        concurrency_le := concurrencyOf_le cfg }

end Http

end Pickpoint
