import Pickpoint.Core.Transport
import Pickpoint.Streaming.Buffered

/-!
# Geocoding

The queries of the geocoding service, and `run_batch`: a future for every query,
some of them in flight at a time, and the results put where the queries stand.

The stream is `buffer_unordered`, from another crate. It is a parameter: given its
limit and the futures, it says in what order futures start and results come out.
A future stands for what it comes to.

A query asks for an empty body in place of the error of a client status, and reads
what it gets as JSON. What the JSON crate makes of bytes is a parameter too
(`Json`), and so is the `do_request` of the transport (`Send`).

## Main definitions

* `Json`, `Send`: What a query is given.
* `forward`, `reverse`, `lookup`: The queries.
* `forwardBatch`, `reverseBatch`, `lookupBatch`: Their batches.
* `futures`: The futures of a batch.
* `batchLoop`: The loop that reads the stream.
* `runBatch`: `run_batch`, and what the stream has done when it returns.
-/

namespace Pickpoint

namespace Geocoding

open Streaming

open Auth (ApiError Bytes)

open Http (RequestOpts)

/-- A query string. -/
abbrev Query := List (String × String)

/-! ## Queries -/

/-- An error of the service. -/
inductive Error where
  | api (e : ApiError)
  | json (e : String)
  deriving DecidableEq

/-- JSON values, and how bytes are read as an array of them and as one. -/
structure Json (V : Type) where
  parseArray : Bytes → Option (List V)
  parseValue : Bytes → Except String V
  isNull : V → Bool

/-- `do_request` for a path and a query. -/
abbrev Send := String → Query → RequestOpts → Except ApiError Bytes

def queryPairs (q : Query) : Query := q.filter fun p => p.2 ≠ ""

/-- The body `[]`. -/
def emptyArray : Bytes := [0x5b, 0x5d]

/-- The body `null`. -/
def nullBody : Bytes := [0x6e, 0x75, 0x6c, 0x6c]

variable {V : Type}

def decodeJsonArray (json : Json V) (raw : Bytes) : Except Error (List V) :=
  if raw = [] then .ok []
  else
    match json.parseArray raw with
    | some out => .ok out
    -- A single value counts as an array of it, and `null` as an empty one.
    | none =>
      match json.parseValue raw with
      | .error e => .error (.json e)
      | .ok one => .ok (if json.isNull one then [] else [one])

/-- A query that is answered with an array. -/
def search (path : String) (json : Json V) (send : Send) (q : Query) : Except Error (List V) :=
  match send path (queryPairs q) { onClientError := .empty, empty := some emptyArray } with
  | .error e => .error (.api e)
  | .ok raw => decodeJsonArray json raw

def forward (json : Json V) (send : Send) (q : Query) : Except Error (List V) :=
  search "/v2/geocode/forward" json send q

def lookup (json : Json V) (send : Send) (q : Query) : Except Error (List V) :=
  search "/v2/address/lookup" json send q

def reverse (json : Json V) (send : Send) (q : Query) : Except Error (Option V) :=
  match send "/v2/geocode/reverse" (queryPairs q)
      { onClientError := .empty, empty := some nullBody } with
  | .error e => .error (.api e)
  | .ok raw =>
    if raw = [] ∨ raw = nullBody then .ok none
    else
      match json.parseValue raw with
      | .error e => .error (.json e)
      | .ok v => .ok (some v)

/-! ## Batches -/

/-- What comes of a batch: its result, or a panic from a slot that is missing or
    empty. -/
inductive BatchResult (ε α : Type) where
  | returned (r : Except ε (List α))
  | panicked
  deriving DecidableEq

/-- What a future of the stream comes to: the index, and the result of the query. -/
abbrev Item (ε α : Type) := Nat × Except ε α

variable {ε α : Type}

/-- The futures of a batch; `fn i q` is what `fn_` makes of the query `q` at `i`. -/
def futures (fn : Nat → Query → Except ε α) (inputs : List Query) : List (Item ε α) :=
  inputs.mapIdx fun i q => (i, fn i q)

/-- Every slot with `expect("filled")`. -/
def expectFilled (out : List (Option α)) : BatchResult ε α :=
  match out.mapM id with
  | some vs => .returned (.ok vs)
  | none => .panicked

/-- The loop over the stream, which is about to do `evs`, and all that follows the
    loop. The events are those the stream is polled for. -/
def batchLoop : List (Option α) → List (Event (Item ε α)) →
    List (Event (Item ε α)) × BatchResult ε α
  | out, [] => ([], expectFilled out)
  | out, .started k :: evs => (.started k :: (batchLoop out evs).1, (batchLoop out evs).2)
  | out, .yielded k (i, res) :: evs =>
    match res with
    | .ok v =>
      -- An index past the end panics.
      if i < out.length then
        (.yielded k (i, .ok v) :: (batchLoop (out.set i (some v)) evs).1,
          (batchLoop (out.set i (some v)) evs).2)
      else ([.yielded k (i, .ok v)], .panicked)
    -- The stream is dropped, and with it what is in flight.
    | .error e => ([.yielded k (i, .error e)], .returned (.error e))

/-- `run_batch`. -/
def runBatch (bufferUnordered : Nat → List (Item ε α) → List (Event (Item ε α)))
    (concurrency : Nat) (inputs : List Query) (fn : Nat → Query → Except ε α) :
    List (Event (Item ε α)) × BatchResult ε α :=
  let concurrency := max concurrency 1
  let n := inputs.length
  -- No stream is made for no queries.
  if n = 0 then ([], .returned (.ok []))
  else batchLoop (List.replicate n none) (bufferUnordered concurrency (futures fn inputs))

/-- What the stream of a batch is taken from. -/
abbrev Buffer (ε α : Type) := Nat → List (Item ε α) → List (Event (Item ε α))

/-- `forward_batch`, where `send i` is the `do_request` of the query at `i`. -/
def forwardBatch (json : Json V) (buffer : Buffer Error (List V)) (concurrency : Nat)
    (qs : List Query) (send : Nat → Send) :
    List (Event (Item Error (List V))) × BatchResult Error (List V) :=
  runBatch buffer concurrency qs fun i q => forward json (send i) q

/-- `reverse_batch`. -/
def reverseBatch (json : Json V) (buffer : Buffer Error (Option V)) (concurrency : Nat)
    (qs : List Query) (send : Nat → Send) :
    List (Event (Item Error (Option V))) × BatchResult Error (Option V) :=
  runBatch buffer concurrency qs fun i q => reverse json (send i) q

/-- `lookup_batch`. -/
def lookupBatch (json : Json V) (buffer : Buffer Error (List V)) (concurrency : Nat)
    (qs : List Query) (send : Nat → Send) :
    List (Event (Item Error (List V))) × BatchResult Error (List V) :=
  runBatch buffer concurrency qs fun i q => lookup json (send i) q

end Geocoding

end Pickpoint
