import Mathlib.Data.List.Infix
import Pickpoint.Core.Inner

/-!
# Addresses of Sockets

`build_ws_url`: the address a dial connects to, made of the endpoint and the credentials
the configuration has at that moment.

Parsing and setting a path are up to another crate (`UrlCrate`). An address is what its
accessors show of it. The path of a socket is an option of its own, and never changes.

## Main definitions

* `WsUrl`, `UrlCrate`: Addresses, and what is made of text.
* `trim`: An endpoint without spaces at its ends.
* `credentialPairs`: The pairs that say who connects.
* `buildWsUrl`: The address.
-/

namespace Pickpoint

namespace Tracking

/-- An address: what `scheme`, `authority`, `path` and `query_pairs` say. -/
structure WsUrl where
  scheme : String
  authority : String
  path : String
  pairs : List (String × String)
  deriving DecidableEq

/-- `Url::parse`, and the path that `set_path` leaves: the crate's part of
    `build_ws_url`, which is a parameter. -/
structure UrlCrate where
  parse : String → Except String WsUrl
  setPath : String → String

def defaultWsPath : String := "/v2/ws"

/-- The white space of Unicode. -/
def isWhitespace (c : Char) : Bool :=
  (decide (9 ≤ c.toNat) && decide (c.toNat ≤ 13)) ||
    (decide (0x2000 ≤ c.toNat) && decide (c.toNat ≤ 0x200a)) ||
    [0x20, 0x85, 0xa0, 0x1680, 0x2028, 0x2029, 0x202f, 0x205f, 0x3000].contains c.toNat

def trim (s : String) : String :=
  String.ofList (((s.toList.dropWhile isWhitespace).reverse.dropWhile isWhitespace).reverse)

/-- The endpoint as it is parsed. -/
def rawEndpoint (endpoint : String) : String :=
  -- A scheme may be left out.
  let raw := trim endpoint
  if "://".toList <:+: raw.toList then raw else "ws://" ++ raw

/-- The scheme of a socket. -/
def wsScheme (scheme : String) : Option String :=
  if scheme = "http" then some "ws"
  else if scheme = "https" then some "wss"
  else if scheme = "ws" ∨ scheme = "wss" then some scheme
  else none

/-- A device comes before a listener. -/
def credentialPairs (device : Option DeviceAuth) (listener : Option ListenerAuth) :
    List (String × String) :=
  match device, listener with
  | some d, _ => [("client-id", d.clientId), ("client-secret", d.clientSecret)]
  | none, some l => [("access-token", l.accessToken)]
  | none, none => []

/-- `build_ws_url`. -/
def buildWsUrl (lib : UrlCrate) (wsPath : String) (cfg : Config) : Except String WsUrl :=
  if trim cfg.endpoint = "" then .error "tracking: Endpoint is required"
  else
    match lib.parse (rawEndpoint cfg.endpoint) with
    | .error e => .error s!"tracking: bad endpoint: {e}"
    | .ok u =>
      match wsScheme u.scheme with
      -- Only the four schemes are known.
      | none => .error s!"tracking: unsupported scheme \"{u.scheme}\""
      | some scheme =>
        .ok
          -- The pairs the endpoint came with stay in front.
          { u with
            scheme := scheme
            path := lib.setPath (if wsPath = "" then defaultWsPath else wsPath)
            pairs := u.pairs ++ credentialPairs cfg.device cfg.listener }

end Tracking

end Pickpoint
