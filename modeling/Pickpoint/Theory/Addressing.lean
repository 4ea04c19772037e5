import Pickpoint.Core.Services

/-!
# Addressing

What a server reads out of a request: the method, the parts of the path behind those
it is mounted at, the pairs of the query, the body, and the credential.

Device ids are any text, so they are written with percent signs where they have to be,
and queries drop the pairs that have no value. A server gets what was asked for, but
for the ids `.` and `..`: an address with one of those names another path, that of a
request nobody made (`received_iff`).

## Main definitions

* `Received`, `received`: What a server reads.
* `Operation.target`, `Operation.pairs`, `Operation.uid`: What an operation is about.
* `Operation.asked`: What a server is meant to read.

## Theorems

* `request_path`, `requestUrl_target`: The path and the address of a request.
* `credential_headers`: Whose request it is.
* `received_written`: What is read of a written address.
* `received_iff`: What is asked for arrives.
-/

namespace Pickpoint

namespace Http

open Auth

open Geocoding (Query Send)

variable {V : Type}

/-! ## Readings -/

inductive Credential where
  | key (apiKey : String)
  | bearer (accessToken : String)
  deriving DecidableEq, Repr

/-- What a server reads. -/
structure Received (V : Type) where
  method : Method
  parts : List (List UInt8)
  pairs : List (List UInt8 × List UInt8)
  credential : Option Credential
  body : Option (Body V)
  deriving DecidableEq

def scheme : String := "Bearer "

/-- The credential among the headers of a request. -/
def credential (headers : List (String × String)) : Option Credential :=
  match headers.lookup "x-api-key" with
  | some apiKey => some (.key apiKey)
  | none =>
    match headers.lookup "authorization" with
    | some value =>
      if scheme.toList <+: value.toList then
        some (.bearer (String.ofList (value.toList.drop scheme.length)))
      else none
    | none => none

/-- Read a request that was sent to `origin`: the target is read back from the URL,
    and the credential and the body are taken as they stand. -/
def received (origin : String) (r : HttpRequest V) : Option (Received V) :=
  if origin.toList <+: r.url.toList then
    match Percent.readTarget (r.url.toList.drop origin.length) with
    | some (parts, pairs) => some ⟨r.method, parts, pairs, credential r.headers, r.body⟩
    | none => none
  else none

/-! ## Operations -/

/-- The parts of the path of an operation. -/
def Operation.target : Operation V → List String
  | .forward _ => ["v2", "geocode", "forward"]
  | .reverse _ => ["v2", "geocode", "reverse"]
  | .lookup _ => ["v2", "address", "lookup"]
  | .search _ => ["v2", "address", "search"]
  | .route _ => ["v2", "route"]
  | .optimized _ => ["v2", "route", "optimized"]
  | .matrix _ => ["v2", "route", "matrix"]
  | .locate _ => ["v2", "route", "locate"]
  | .elevation _ => ["v2", "route", "elevation"]
  | .list _ | .create _ => ["v2", "devices"]
  | .get uid | .update uid _ | .delete uid => ["v2", "devices", uid]
  | .command uid _ => ["v2", "devices", uid, "command"]

/-- The pairs of its query that have a value. -/
def Operation.pairs : Operation V → Query
  | .forward q | .reverse q | .lookup q | .search q => q.filter fun p => p.2 ≠ ""
  | .list q => q.pairs
  | _ => []

/-- The device it is about. -/
def Operation.uid : Operation V → Option String
  | .get uid | .update uid _ | .delete uid | .command uid _ => some uid
  | _ => none

/-- The credential of a client whose session has `token`. -/
def AuthKind.credential (token : String) : AuthKind → Credential
  | .apiKey key => .key key
  | .staticToken accessToken => .bearer accessToken
  | .clientAuth => .bearer token

/-- The bytes of a pair. -/
def utf8Pair (p : String × String) : List UInt8 × List UInt8 := (utf8 p.1, utf8 p.2)

/-- What a server mounted at `mount` is meant to read. -/
def Operation.asked (lib : UrlLib) (mount : List String) (kind : AuthKind) (token : String)
    (op : Operation V) : Received V where
  method := (op.request lib).method
  parts := (mount ++ op.target).map utf8
  pairs := op.pairs.map utf8Pair
  credential := some (kind.credential token)
  body := (op.request lib).body

/-- The parts of a path as they are written. -/
def pathOf (parts : List String) : List Char :=
  Percent.joinPath ((parts.map utf8).map (Percent.encode Percent.unreserved))

/-- `do_request` as the geocoding service calls it. -/
def getting (perform : ApiRequest V → Except ApiError Bytes) : Send := fun path q opts =>
  perform { toRequestOpts := opts, method := .get, path := path, query := q }

/-- What the queries of the geocoding service ask `do_request` for, and what they make
    of its answer. -/
theorem geocoding_asks (lib : UrlLib) (json : Geocoding.Json V)
    (perform : ApiRequest V → Except ApiError Bytes) (q : Query) :
    (Geocoding.forward json (getting perform) q =
        match perform ((Operation.forward q).request lib) with
        | .error e => .error (.api e)
        | .ok raw => Geocoding.decodeJsonArray json raw) ∧
      (Geocoding.lookup json (getting perform) q =
        match perform ((Operation.lookup q).request lib) with
        | .error e => .error (.api e)
        | .ok raw => Geocoding.decodeJsonArray json raw) ∧
      Geocoding.reverse json (getting perform) q =
        match perform ((Operation.reverse q).request lib) with
        | .error e => .error (.api e)
        | .ok raw =>
          if raw = [] ∨ raw = Geocoding.nullBody then .ok none
          else
            match json.parseValue raw with
            | .error e => .error (.json e)
            | .ok v => .ok (some v) :=
  ⟨rfl, rfl, rfl⟩

/-! ## Paths -/

theorem utf8_inj (s t : String) (h : utf8 s = utf8 t) : s = t := by
  rw [← String.toByteArray_inj, ← String.utf8Encode_toList, ← String.utf8Encode_toList,
    List.utf8Encode, List.utf8Encode]
  exact congrArg List.toByteArray h

theorem dotted_iff (s : String) : Percent.dotted (utf8 s) = true ↔ s = "." ∨ s = ".." := by
  have hone : utf8 "." = [46] := by decide +kernel
  have htwo : utf8 ".." = [46, 46] := by decide +kernel
  rw [Percent.dotted, Bool.or_eq_true, beq_iff_eq, beq_iff_eq]
  refine or_congr ⟨fun h => utf8_inj s _ (h.trans hone.symm), fun h => ?_⟩
    ⟨fun h => utf8_inj s _ (h.trans htwo.symm), fun h => ?_⟩
  · rw [h, hone]
  · rw [h, htwo]

theorem pathOf_append (xs ys : List String) : pathOf (xs ++ ys) = pathOf xs ++ pathOf ys := by
  rw [pathOf, Percent.joinPath, List.map_append, List.map_append, List.flatMap_append]
  rfl

theorem devicePath_toList (lib : UrlLib) (hlib : lib.Documented) (uid : String) :
    (Devices.devicePath lib uid).toList = pathOf ["v2", "devices", uid] := by
  have hfixed : "/v2/devices/".toList = pathOf ["v2", "devices"] ++ ['/'] := by decide +kernel
  rw [Devices.devicePath, String.toList_append, hlib.encode, hfixed, List.append_assoc]
  rw [show ["v2", "devices", uid] = ["v2", "devices"] ++ [uid] from rfl, pathOf_append]
  simp only [pathOf, Percent.joinPath, List.map_cons, List.map_nil, List.flatMap_cons,
    List.flatMap_nil, List.append_nil, List.singleton_append]

/-- The path of a request names the parts of the operation. -/
theorem request_path (lib : UrlLib) (hlib : lib.Documented) (op : Operation V) :
    (op.request lib).path.toList = pathOf op.target := by
  cases op with
  | get uid => exact devicePath_toList lib hlib uid
  | update uid input => exact devicePath_toList lib hlib uid
  | delete uid => exact devicePath_toList lib hlib uid
  | command uid payload =>
      have hcommand : "/command".toList = pathOf ["command"] := by decide +kernel
      rw [Operation.target, show ["v2", "devices", uid, "command"] =
        ["v2", "devices", uid] ++ ["command"] from rfl, pathOf_append, ← hcommand,
        ← devicePath_toList lib hlib uid]
      exact String.toList_append
  | _ =>
      simp only [Operation.request, Operation.target, geocoding, Address.searchRequest,
        Routing.postRequest, Devices.listRequest, Devices.createRequest, throwing]
      decide +kernel

/-! ## Addresses -/

/-- No pair of a list is without a value. -/
theorem pairs_given (q : DeviceListQuery) (p : String × String) (h : p ∈ q.pairs) : p.2 ≠ "" := by
  have hnumber : ∀ (name : String) (o : Option Int),
      p ∈ ((o.filter fun v => 0 < v).map fun v => (name, toString v)).toList → p.2 ≠ "" := by
    intro name o hp
    rcases Option.map_eq_some_iff.mp (Option.mem_toList.mp hp) with ⟨v, hv, rfl⟩
    have hpos := of_decide_eq_true (Option.filter_eq_some_iff.mp hv).2
    cases v with
    | ofNat n => exact Nat.repr_ne_empty
    | negSucc n => exact absurd hpos (by omega)
  rcases List.mem_append.mp h with h | h
  · rcases List.mem_append.mp h with h | h
    · rcases List.mem_append.mp h with h | h
      · exact hnumber "skip" q.skip h
      · exact hnumber "take" q.take h
    · rcases Option.map_eq_some_iff.mp (Option.mem_toList.mp h) with ⟨v, hv, rfl⟩
      exact of_decide_eq_true (Option.filter_eq_some_iff.mp hv).2
  · by_cases hidle : q.idle = true
    · rw [if_pos hidle, List.mem_singleton] at h
      rw [h]
      decide
    · rw [if_neg hidle] at h
      cases h

/-- A query asks for the pairs that have a value. -/
theorem request_query (lib : UrlLib) (op : Operation V) :
    ((op.request lib).query.filter fun p => p.2 ≠ "") = op.pairs := by
  have htwice : ∀ q : Query, ((q.filter fun p => p.2 ≠ "").filter fun p => p.2 ≠ "") =
      q.filter fun p => p.2 ≠ "" := fun q => List.filter_filter.trans (by simp)
  cases op with
  | forward q => exact htwice q
  | reverse q => exact htwice q
  | lookup q => exact htwice q
  | search q => exact htwice q
  | list q =>
      exact List.filter_eq_self.mpr fun p hp => decide_eq_true (pairs_given q p hp)
  | _ => rfl

/-- The address of a request: a base, the path and the pairs. -/
theorem requestUrl_target (lib : UrlLib) (hlib : lib.Documented) (base : String)
    (op : Operation V) :
    (requestUrl lib base (op.request lib)).toList = base.toList ++
      Percent.writeTarget (op.target.map utf8) (op.pairs.map utf8Pair) := by
  have hpath : (base ++ (op.request lib).path).toList =
      base.toList ++ Percent.joinPath ((op.target.map utf8).map
        (Percent.encode Percent.unreserved)) := by
    rw [String.toList_append, request_path lib hlib, pathOf]
  have hpairs := request_query lib op
  have hserial : (lib.serialize op.pairs).toList = Percent.serialize (op.pairs.map utf8Pair) :=
    hlib.serialize op.pairs
  unfold requestUrl Percent.writeTarget
  by_cases hquery : (op.request lib).query = []
  · rw [hquery, List.filter_nil] at hpairs
    have hempty : Percent.serialize [] = [] := rfl
    simp only [if_pos hquery, ← hpairs, List.map_nil, if_pos hempty, List.append_nil, hpath]
  · simp only [if_neg hquery, hpairs]
    by_cases hnone : lib.serialize op.pairs = ""
    · have hnil : Percent.serialize (op.pairs.map utf8Pair) = [] := by
        rw [← hserial, hnone]
        rfl
      rw [if_pos hnone, if_pos hnil, List.append_nil, hpath]
    · have hsome : Percent.serialize (op.pairs.map utf8Pair) ≠ [] := by
        rw [← hserial]
        exact fun h => hnone (String.toList_eq_nil_iff.mp h)
      rw [if_neg hnone, if_neg hsome, String.toList_append, String.toList_append, hpath, hserial,
        List.append_assoc, List.append_assoc]
      rfl

/-! ## Readings of requests -/

theorem credential_bearer (accessToken : String) (rest : List (String × String))
    (hrest : rest.lookup "x-api-key" = none) :
    credential (("accept", "application/json") ::
      ("authorization", "Bearer " ++ accessToken) :: rest) = some (.bearer accessToken) := by
  have hvalue : ("Bearer " ++ accessToken).toList = scheme.toList ++ accessToken.toList :=
    String.toList_append
  have hkey : (("accept", "application/json") ::
      ("authorization", "Bearer " ++ accessToken) :: rest).lookup "x-api-key" = none := by
    rw [List.lookup_cons, List.lookup_cons, hrest]
    rfl
  have hbearer : (("accept", "application/json") ::
      ("authorization", "Bearer " ++ accessToken) :: rest).lookup "authorization" =
      some ("Bearer " ++ accessToken) := by
    rw [List.lookup_cons, List.lookup_cons]
    rfl
  simp only [credential, hkey, hbearer]
  rw [if_pos (hvalue ▸ List.prefix_append _ _), hvalue, ← String.length_toList,
    List.drop_left, String.ofList_toList]

/-- The headers of a request say whose it is. -/
theorem credential_headers (kind : AuthKind) (token : String) (rest : List (String × String))
    (hrest : rest.lookup "x-api-key" = none) :
    credential (kind.headers token ++ rest) = some (kind.credential token) := by
  cases kind with
  | apiKey key => rfl
  | staticToken accessToken => exact credential_bearer accessToken rest hrest
  | clientAuth => exact credential_bearer token rest hrest

/-- A device id is the only part of a path that can be dots. -/
theorem target_steady (op : Operation V) :
    (∀ part ∈ op.target, part ≠ "." ∧ part ≠ "..") ↔ op.uid ≠ some "." ∧ op.uid ≠ some ".." := by
  cases op <;> simp [Operation.target, Operation.uid]

/-- What is read of a request whose address was written from parts and pairs. -/
theorem received_written (origin : String) (r : HttpRequest V) (parts : List (List UInt8))
    (pairs : List (List UInt8 × List UInt8))
    (hurl : r.url.toList = origin.toList ++ Percent.writeTarget parts pairs) :
    received origin r = (Percent.readTarget (Percent.writeTarget parts pairs)).map fun x =>
      ⟨r.method, x.1, x.2, credential r.headers, r.body⟩ := by
  rw [received, hurl, if_pos (List.prefix_append _ _), ← String.length_toList, List.drop_left]
  cases Percent.readTarget (Percent.writeTarget parts pairs) <;> rfl

/-- What is asked for arrives, unless it is about the device `.` or `..`: the URL
    crate takes such a part for a step in the path, whether its dots are written as
    they are or escaped. -/
theorem received_iff (lib : UrlLib) (hlib : lib.Documented) (c : Client) (origin : String)
    (mount : List String) (hbase : c.baseUrl.toList = origin.toList ++ pathOf mount)
    (hmount : ∀ m ∈ mount, m ≠ "." ∧ m ≠ "..") (token : String) (op : Operation V) :
    received origin (httpRequest lib c token (op.request lib)) =
        some (op.asked lib mount c.transport.auth token) ↔
      op.uid ≠ some "." ∧ op.uid ≠ some ".." := by
  -- The URL is the origin with the written path and the written pairs.
  have hurl : (requestUrl lib c.baseUrl (op.request lib)).toList = origin.toList ++
      Percent.writeTarget ((mount ++ op.target).map utf8) (op.pairs.map utf8Pair) := by
    have hpath := pathOf_append mount op.target
    unfold pathOf at hpath
    rw [requestUrl_target lib hlib, hbase, Percent.writeTarget, Percent.writeTarget, hpath, pathOf,
      List.append_assoc, List.append_assoc]
  -- The credential stands in the headers, with a body or without one.
  have hcredential : credential (httpRequest lib c token (op.request lib)).headers =
      some (c.transport.auth.credential token) := by
    refine credential_headers c.transport.auth token _ ?_
    by_cases hbody : (op.request lib).body.isSome = true
    · rw [if_pos hbody]
      rfl
    · rw [if_neg hbody]
      rfl
  have hread := received_written origin (httpRequest lib c token (op.request lib)) _ _ hurl
  rw [hcredential] at hread
  -- Only the identifier of a device can make a part that is dots.
  have hparts : (∀ part ∈ (mount ++ op.target).map utf8, Percent.dotted part = false) ↔
      op.uid ≠ some "." ∧ op.uid ≠ some ".." := by
    rw [← target_steady op]
    constructor
    · intro h part hpart
      have hsteady := h (utf8 part) (List.mem_map_of_mem (List.mem_append_right mount hpart))
      exact not_or.mp fun hdots =>
        Bool.noConfusion (hsteady.symm.trans ((dotted_iff part).mpr hdots))
    · intro h part hpart
      rcases List.mem_map.mp hpart with ⟨name, hname, rfl⟩
      have hplain : name ≠ "." ∧ name ≠ ".." := by
        rcases List.mem_append.mp hname with hname | hname
        · exact hmount name hname
        · exact h name hname
      exact Bool.eq_false_iff.mpr fun hdots => not_or.mpr hplain ((dotted_iff name).mp hdots)
  -- What is written is read back just when no part is dots.
  rw [hread, ← hparts, ← Percent.readTarget_writeTarget _ (op.pairs.map utf8Pair)]
  constructor
  · intro h
    rcases Option.map_eq_some_iff.mp h with ⟨r, hr, heq⟩
    have hpart : r.1 = (mount ++ op.target).map utf8 := congrArg Received.parts heq
    have hpair : r.2 = op.pairs.map utf8Pair := congrArg Received.pairs heq
    rw [hr, ← hpart, ← hpair]
  · intro h
    rw [h]
    rfl

/-- The other crates, as they say they are, with the base64 of `hi`. -/
def standardLib : UrlLib where
  encode s := String.ofList (Percent.encode Percent.unreserved (utf8 s))
  serialize ps := String.ofList (Percent.serialize (ps.map utf8Pair))
  base64 bs := if bs = [104, 105] then "aGk=" else ""

theorem standardLib_documented : standardLib.Documented where
  encode _ := String.toList_ofList
  serialize _ := String.toList_ofList

/-- A client of the default server with an API key. -/
def keyClient : Client where
  baseUrl := defaultBaseUrl
  transport := { auth := .apiKey "secret", maxRetries := defaultMaxRetries }
  session := none
  retryBase := defaultRetryBase
  concurrency := defaultConcurrency
  session_iff := ⟨by rintro ⟨⟩, by rintro ⟨⟩⟩
  trimmed := by decide +kernel
  retryBase_ge := by decide
  concurrency_pos := by decide
  concurrency_le := by decide

/-- A command to a device with a slash in its id. -/
def slashCommand : Operation Unit := .command "a/b" [104, 105]

theorem received_slashCommand :
    received defaultBaseUrl (httpRequest standardLib keyClient ""
        (slashCommand.request standardLib)) =
      some (slashCommand.asked standardLib [] (.apiKey "secret") "") :=
  (received_iff standardLib standardLib_documented keyClient defaultBaseUrl []
    (List.append_nil _).symm (fun _ hm => absurd hm List.not_mem_nil) "" slashCommand).mpr
    ⟨by decide, by decide⟩

/-- The command to a device `.` is posted to another path. -/
example : received defaultBaseUrl (httpRequest standardLib keyClient ""
      ((Operation.command "." [104, 105] : Operation Unit).request standardLib)) =
    some
      { method := .post
        parts := ["v2", "devices", "command"].map utf8
        pairs := []
        credential := some (.key "secret")
        body := some (.object [("payload", .str "aGk=")]) } := by
  decide +kernel

end Http

end Pickpoint
