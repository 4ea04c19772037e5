import Pickpoint.Core.Client
import Pickpoint.Percent.Target

/-!
# Services

What the services of the public API ask for, what they make of the answer, and the
form in which the transport sends it.

A service hands a request to `do_request`, here the parameter `perform`, and reads the
body that comes back as JSON. Geocoding has a module of its own; its requests stand
here with the others. A device and the other results are whatever the JSON crate reads
them as, so they are parameters too. What a caller gives as JSON is passed on as it is;
the objects the client makes itself are kept with their fields.

How text is written in an address is up to two other crates, and base64 to a third
(`UrlLib`). `UrlLib.Documented` is what the first two say they do.

## Main definitions

* `ApiRequest`: What a service asks of `do_request`.
* `Address.search`, `Routing.post`, `Devices.list` and the others: The services.
* `mintClientTokens`: Token pairs for clients, without a transport.
* `Operation`, `Operation.request`: All there is to ask for.
* `requestUrl`, `httpRequest`: The form of a request.
-/

namespace Pickpoint

namespace Http

open Auth

open Geocoding (Query Error)

inductive Method where
  | get
  | post
  | patch
  | delete
  deriving DecidableEq, Repr

/-- A value of a field. -/
inductive Field where
  | str (s : String)
  | strs (ss : List String)
  | int (n : Int)
  deriving DecidableEq

/-- JSON given by the caller, or an object made here. -/
inductive Body (V : Type) where
  | value (v : V)
  | object (fields : List (String × Field))
  deriving DecidableEq

/-- `RequestOpts`, all of it: what `do_request` looks at, and what makes up the
    request that goes out. -/
structure ApiRequest (V : Type) extends RequestOpts where
  method : Method
  path : String
  query : Query := []
  body : Option (Body V) := none

/-- What other crates make of text and of bytes: a part of a path, the pairs of a
    query, and base64. -/
structure UrlLib where
  encode : String → String
  serialize : List (String × String) → String
  base64 : Bytes → String

/-- The bytes of a text. -/
def utf8 (s : String) : List UInt8 := s.toList.flatMap String.utf8EncodeChar

/-- What `urlencoding` and `form_urlencoded` say they do. -/
structure UrlLib.Documented (lib : UrlLib) : Prop where
  encode : ∀ s, (lib.encode s).toList = Percent.encode Percent.unreserved (utf8 s)
  serialize : ∀ ps, (lib.serialize ps).toList =
    Percent.serialize (ps.map fun p => (utf8 p.1, utf8 p.2))

/-! ## Answers -/

variable {V R : Type}

/-- A request that lets every error through. -/
def throwing (method : Method) (path : String) (query : Query) (body : Option (Body V)) :
    ApiRequest V :=
  { method := method, path := path, query := query, body := body, onClientError := .throw }

/-- A query of the geocoding service. -/
def geocoding (path : String) (empty : Bytes) (q : Query) : ApiRequest V :=
  { method := .get, path := path, query := Geocoding.queryPairs q, onClientError := .empty,
    empty := some empty }

/-- Read the body that came as JSON. -/
def answered (parse : Bytes → Except String R) : Except ApiError Bytes → Except Error R
  | .error e => .error (.api e)
  | .ok raw =>
    match parse raw with
    | .error e => .error (.json e)
    | .ok v => .ok v

/-! ## Address search -/

namespace Address

def searchRequest (q : Query) : ApiRequest V :=
  throwing .get "/v2/address/search" (q.filter fun p => p.2 ≠ "") none

def search (parse : Bytes → Except String R) (perform : ApiRequest V → Except ApiError Bytes)
    (q : Query) : Except Error R :=
  answered parse (perform (searchRequest q))

end Address

/-! ## Routing -/

namespace Routing

def postRequest (path : String) (body : V) : ApiRequest V :=
  throwing .post path [] (some (.value body))

/-- An empty body is the value `null`. -/
def post (parse : Bytes → Except String V) (null : V)
    (perform : ApiRequest V → Except ApiError Bytes) (path : String) (body : V) :
    Except Error V :=
  match perform (postRequest path body) with
  | .error e => .error (.api e)
  | .ok raw => if raw = [] then .ok null else answered parse (.ok raw)

section

variable (parse : Bytes → Except String V) (null : V)
  (perform : ApiRequest V → Except ApiError Bytes)

def route (body : V) : Except Error V := post parse null perform "/v2/route" body

def optimized (body : V) : Except Error V := post parse null perform "/v2/route/optimized" body

def matrix (body : V) : Except Error V := post parse null perform "/v2/route/matrix" body

def locate (body : V) : Except Error V := post parse null perform "/v2/route/locate" body

def elevation (body : V) : Except Error V := post parse null perform "/v2/route/elevation" body

end

end Routing

/-! ## Devices -/

structure DeviceListQuery where
  skip : Option Int := none
  take : Option Int := none
  search : Option String := none
  idle : Bool := false

structure DeviceInput where
  name : String
  type : String
  description : Option String := none
  metadata : Option String := none

/-- `serde_json::to_value`. -/
def DeviceInput.toValue (input : DeviceInput) : Body V :=
  .object ([("name", .str input.name), ("type", .str input.type)] ++
    (input.description.map fun s => ("description", Field.str s)).toList ++
    (input.metadata.map fun s => ("metadata", Field.str s)).toList)

/-- The query of a list. Numbers count from one. -/
def DeviceListQuery.pairs (q : DeviceListQuery) : Query :=
  ((q.skip.filter fun v => 0 < v).map fun v => ("skip", toString v)).toList ++
    ((q.take.filter fun v => 0 < v).map fun v => ("take", toString v)).toList ++
    ((q.search.filter fun s => s ≠ "").map fun s => ("search", s)).toList ++
    if q.idle then [("idle", "1")] else []

namespace Devices

variable (lib : UrlLib)

def devicePath (uid : String) : String := "/v2/devices/" ++ lib.encode uid

def listRequest (q : DeviceListQuery) : ApiRequest V := throwing .get "/v2/devices" q.pairs none

def getRequest (uid : String) : ApiRequest V := throwing .get (devicePath lib uid) [] none

def createRequest (input : DeviceInput) : ApiRequest V :=
  throwing .post "/v2/devices" [] (some input.toValue)

def updateRequest (uid : String) (input : DeviceInput) : ApiRequest V :=
  throwing .patch (devicePath lib uid) [] (some input.toValue)

def deleteRequest (uid : String) : ApiRequest V := throwing .delete (devicePath lib uid) [] none

def commandRequest (uid : String) (payload : Bytes) : ApiRequest V :=
  throwing .post (devicePath lib uid ++ "/command") []
    (some (.object [("payload", .str (lib.base64 payload))]))

section

variable (parse : Bytes → Except String R) (perform : ApiRequest V → Except ApiError Bytes)

def list (q : DeviceListQuery) : Except Error R := answered parse (perform (listRequest q))

def get (uid : String) : Except Error R := answered parse (perform (getRequest lib uid))

def create (input : DeviceInput) : Except Error R := answered parse (perform (createRequest input))

def update (uid : String) (input : DeviceInput) : Except Error R :=
  answered parse (perform (updateRequest lib uid input))

/-- The body is not looked at. -/
def delete (uid : String) : Except Error Unit :=
  match perform (deleteRequest lib uid) with
  | .error e => .error (.api e)
  | .ok _ => .ok ()

def command (uid : String) (payload : Bytes) : Except Error R :=
  answered parse (perform (commandRequest lib uid payload))

end

end Devices

/-! ## Operations -/

/-- What a client is asked to do. A batch is a query for each of its inputs. -/
inductive Operation (V : Type) where
  | forward (q : Query)
  | reverse (q : Query)
  | lookup (q : Query)
  | search (q : Query)
  | route (body : V)
  | optimized (body : V)
  | matrix (body : V)
  | locate (body : V)
  | elevation (body : V)
  | list (q : DeviceListQuery)
  | get (uid : String)
  | create (input : DeviceInput)
  | update (uid : String) (input : DeviceInput)
  | delete (uid : String)
  | command (uid : String) (payload : Bytes)

/-- What it asks of `do_request`. -/
def Operation.request (lib : UrlLib) : Operation V → ApiRequest V
  | .forward q => geocoding "/v2/geocode/forward" Geocoding.emptyArray q
  | .reverse q => geocoding "/v2/geocode/reverse" Geocoding.nullBody q
  | .lookup q => geocoding "/v2/address/lookup" Geocoding.emptyArray q
  | .search q => Address.searchRequest q
  | .route body => Routing.postRequest "/v2/route" body
  | .optimized body => Routing.postRequest "/v2/route/optimized" body
  | .matrix body => Routing.postRequest "/v2/route/matrix" body
  | .locate body => Routing.postRequest "/v2/route/locate" body
  | .elevation body => Routing.postRequest "/v2/route/elevation" body
  | .list q => Devices.listRequest q
  | .get uid => Devices.getRequest lib uid
  | .create input => Devices.createRequest input
  | .update uid input => Devices.updateRequest lib uid input
  | .delete uid => Devices.deleteRequest lib uid
  | .command uid payload => Devices.commandRequest lib uid payload

/-! ## Requests -/

/-- A request as it is sent, with its headers in the order in which they are set. -/
structure HttpRequest (V : Type) where
  method : Method
  url : String
  headers : List (String × String)
  body : Option (Body V)

/-- The address of a request. -/
def requestUrl (lib : UrlLib) (baseUrl : String) (req : ApiRequest V) : String :=
  let url := baseUrl ++ req.path
  if req.query = [] then url
  else
    let q := lib.serialize (req.query.filter fun p => p.2 ≠ "")
    if q = "" then url else url ++ "?" ++ q

/-- The headers `apply` inserts; `token` is the session's. -/
def AuthKind.headers (kind : AuthKind) (token : String) : List (String × String) :=
  ("accept", "application/json") ::
    match kind with
    | .apiKey key => [("x-api-key", key)]
    | .staticToken accessToken => [("authorization", "Bearer " ++ accessToken)]
    | .clientAuth => [("authorization", "Bearer " ++ token)]

/-- A request of `do_request`. -/
def httpRequest (lib : UrlLib) (c : Client) (token : String) (req : ApiRequest V) :
    HttpRequest V where
  method := req.method
  url := requestUrl lib c.baseUrl req
  headers := c.transport.auth.headers token ++
    if req.body.isSome then [("content-type", "application/json")] else []
  body := req.body

/-- The request of `do_refresh`, which carries no credential in its headers. -/
def refreshRequest (c : Client) (refreshToken : String) : HttpRequest V where
  method := .post
  url := c.baseUrl ++ "/v2/client-tokens/refresh"
  headers := [("accept", "application/json"), ("content-type", "application/json")]
  body := some (.object [("refreshToken", .str refreshToken)])

/-! ## Token pairs -/

def mintRequest (cfg : Config) (apiKey : String) (scopes : List String) (ttlSec : Option Int) :
    HttpRequest V where
  method := .post
  url := trimSlash (cfg.baseUrl.getD defaultBaseUrl) ++ "/v2/client-tokens"
  headers := [("accept", "application/json"), ("content-type", "application/json"),
    ("x-api-key", apiKey)]
  body := some (.object (("scopes", .strs scopes) ::
    ((ttlSec.filter fun t => 0 < t).map fun t => ("ttlSec", Field.int t)).toList))

/-- `mint_client_tokens`, where `send` is what becomes of the request. -/
def mintClientTokens (parse : Bytes → Except String R) (cfg : Config) (scopes : List String)
    (ttlSec : Option Int) (send : HttpRequest V → Except String (Nat × Bytes)) : Except Error R :=
  match cfg.apiKey.filter fun s => s ≠ "" with
  | none => .error (.api (invalidConfig "mint_client_tokens requires api_key"))
  | some apiKey =>
    match send (mintRequest cfg apiKey scopes ttlSec) with
    | .error e => .error (.api ⟨0, "NETWORK", s!"mint client tokens network error: {e}", []⟩)
    | .ok (status, raw) =>
      if 200 ≤ status ∧ status < 300 then answered parse (.ok raw)
      else
        .error (.api ⟨status, "CLIENT_ERROR", s!"mint client tokens failed ({status})", raw⟩)

end Http

end Pickpoint
