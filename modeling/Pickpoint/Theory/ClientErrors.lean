import Pickpoint.Theory.BatchOrder
import Pickpoint.Theory.Histories

/-!
# Client Errors in Batches

A query of the geocoding service asks `do_request` for an empty body in place of
the error of a client status, so that a place that is not found does not cost a
batch the other results. The status of the last response decides, after whatever
was tried again before it.

One client status is not covered. The arm for `409` comes before the one that
looks at `on_client_error`, and returns its error whatever was asked for; the test
for a client status in the last arm is never reached. So a batch succeeds exactly
when none of its queries ends in a `409` (`batches_friendly_iff`).

## Main definitions

* `IsClientError`, `Acceptable`: The responses a history may end in.
* `Json.Documented`: What the JSON crate makes of arrays.
* `perform`: The `do_request` of a query.
* `Answers`: What a query makes of the last status.
* `Scheduled`, `Friendly`: A batch, and one that no client error has aborted.

## Theorems

* `statusResult_conflict`, `statusResult_empty`, `statusResult_success`: What a
  response comes to.
* `search_answers`, `reverse_answers`: What a query makes of it.
* `friendly_iff`: When a batch is friendly.
* `batches_friendly_iff`: The batches of the service.
* `conflict_aborts`: Not every batch is friendly.
-/

namespace Pickpoint

namespace Geocoding

open Streaming

open Auth (ApiError Bytes)

open Http (EndsIn Lib RequestOpts Round Transport ends_result requestResult statusResult)

/-- A client status that is not one of auth. -/
abbrev IsClientError (status : Nat) : Prop :=
  400 ≤ status ∧ status ≤ 499 ∧ status ≠ 401 ∧ status ≠ 402 ∧ status ≠ 403

/-- What the JSON crate makes of arrays: `[]` is one, and an array is a value. -/
structure Json.Documented {V : Type} (json : Json V) : Prop where
  emptyArray : json.parseArray emptyArray = some []
  array_value : ∀ raw vs, json.parseArray raw = some vs → ∃ v, json.parseValue raw = .ok v

/-- The responses with which a history may end: an array, or a client error. Others
    fail the batch in any case, and the comment of the source says nothing of them. -/
def Acceptable {V : Type} (json : Json V) (status : Nat) (raw : Bytes) : Prop :=
  (200 ≤ status ∧ status ≤ 299 ∧ ∃ vs, json.parseArray raw = some vs) ∨ IsClientError status

/-- The `do_request` of a query that meets `w`. -/
def perform (tr : Transport) (lib : Lib) (w : Nat → Round) : Send :=
  fun _ _ opts => requestResult tr lib opts w

/-- What a query makes of the status it ends in: an error of a conflict, and
    otherwise a value, which is `empty` for a client error. -/
def Answers {α : Type} (status : Nat) (empty : α) (r : Except Error α) : Prop :=
  (status = 409 → ∃ e, r = .error e) ∧
    (status ≠ 409 → ∃ v, r = .ok v ∧ (IsClientError status → v = empty))

/-- What a batch does is something `buffer_unordered` may do. -/
abbrev Scheduled {α : Type} (buffer : Buffer Error α) (concurrency : Nat) (qs : List Query)
    (fn : Nat → Query → Except Error α) : Prop :=
  Buffered (max concurrency 1) (futures fn qs) 0 [] (schedule buffer concurrency qs fn)

/-- A batch returns a value for each of `n` queries, which is `empty` for those
    that end in a client error. -/
def Friendly {α : Type} (r : BatchResult Error α) (n : Nat) (status : Nat → Nat) (empty : α) :
    Prop :=
  ∃ out, r = .returned (.ok out) ∧ out.length = n ∧
    ∀ i < n, IsClientError (status i) → out[i]? = some empty

/-! ## Responses -/

section Responses

variable (lib : Lib) (empty : Bytes)

/-- The options of a query. -/
abbrev orEmpty : RequestOpts := { onClientError := .empty, empty := some empty }

/-- A conflict is an error, whatever was asked for. -/
theorem statusResult_conflict (opts : RequestOpts) (raw : Bytes) :
    ∃ e, statusResult lib opts 409 raw = .error e := by
  refine ⟨⟨409, "CONFLICT", Http.messageFromBody lib raw 409, raw⟩, ?_⟩
  simp [statusResult]

/-- Every other client error comes to the empty body. -/
theorem statusResult_empty (status : Nat) (raw : Bytes) (h : IsClientError status)
    (h409 : status ≠ 409) : statusResult lib (orEmpty empty) status raw = .ok empty := by
  rcases h with ⟨hlo, hhi, h401, h402, h403⟩
  rw [statusResult, if_neg (by omega), if_neg (by omega), if_neg h409, if_pos (by omega),
    if_pos rfl, Option.getD_some]

/-- A success comes to its body, and to nothing if there is none. -/
theorem statusResult_success (opts : RequestOpts) (status : Nat) (raw : Bytes)
    (hlo : 200 ≤ status) (hhi : status ≤ 299) :
    statusResult lib opts status raw = .ok (if status = 204 then [] else raw) := by
  rw [statusResult, if_neg (by omega)]
  by_cases h204 : status = 204
  · rw [if_pos h204, if_pos h204]
  · rw [if_neg h204, if_neg h204, if_neg (by omega), if_neg (by omega), if_pos ⟨hlo, hhi⟩]

end Responses

/-! ## Queries -/

section Queries

variable {V : Type} (json : Json V) (hjson : json.Documented) (tr : Transport) (lib : Lib)

theorem acceptable_final (status : Nat) (raw : Bytes) (h : Acceptable json status raw) :
    status ≠ 401 ∧ ¬ (500 ≤ status ∧ status ≤ 599) := by
  rcases h with ⟨hlo, hhi, _⟩ | ⟨hlo, hhi, h401, _⟩
  · omega
  · omega

/-- A query whose history ends performs as its last response. -/
theorem perform_eq (w : Nat → Round) (status : Nat) (raw : Bytes) (hends : EndsIn tr w status raw)
    (hok : Acceptable json status raw) (path : String) (q : Query) (opts : RequestOpts) :
    perform tr lib w path q opts = statusResult lib opts status raw := by
  rcases acceptable_final json status raw hok with ⟨h401, h500⟩
  exact ends_result tr lib opts w status raw hends h401 h500

theorem decodeJsonArray_array (raw : Bytes) (vs : List V) (h : json.parseArray raw = some vs) :
    ∃ out, decodeJsonArray json raw = .ok out := by
  rw [decodeJsonArray, h]
  split
  · exact ⟨[], rfl⟩
  · exact ⟨vs, rfl⟩

variable (w : Nat → Round) (status : Nat) (raw : Bytes) (hends : EndsIn tr w status raw)
  (hok : Acceptable json status raw)

include hjson hends hok

/-- A query for an array returns one, which is empty for a client error. -/
theorem search_answers (path : String) (q : Query) :
    Answers status [] (search path json (perform tr lib w) q) := by
  rw [search, perform_eq json tr lib w status raw hends hok]
  refine ⟨?_, fun h409 => ?_⟩
  · rintro rfl
    rcases statusResult_conflict lib (orEmpty emptyArray) raw with ⟨e, he⟩
    exact ⟨.api e, by rw [he]⟩
  · rcases hok with ⟨hlo, hhi, vs, hvs⟩ | hclient
    · rw [statusResult_success lib _ status raw hlo hhi]
      have hnot : ¬ IsClientError status := fun h => absurd h.1 (by omega)
      have hout : ∃ out, decodeJsonArray json (if status = 204 then [] else raw) = .ok out := by
        split
        · exact ⟨[], rfl⟩
        · exact decodeJsonArray_array json raw vs hvs
      rcases hout with ⟨out, hout⟩
      exact ⟨out, hout, fun h => absurd h hnot⟩
    · rw [statusResult_empty lib emptyArray status raw hclient h409]
      refine ⟨[], ?_, fun _ => rfl⟩
      show decodeJsonArray json emptyArray = .ok []
      rw [decodeJsonArray, if_neg (by decide), hjson.emptyArray]

/-- A reverse query returns a value, or nothing for a client error. -/
theorem reverse_answers (q : Query) :
    Answers status none (reverse json (perform tr lib w) q) := by
  rw [reverse, perform_eq json tr lib w status raw hends hok]
  refine ⟨?_, fun h409 => ?_⟩
  · rintro rfl
    rcases statusResult_conflict lib (orEmpty nullBody) raw with ⟨e, he⟩
    exact ⟨.api e, by rw [he]⟩
  · rcases hok with ⟨hlo, hhi, vs, hvs⟩ | hclient
    · rw [statusResult_success lib _ status raw hlo hhi]
      have hnot : ¬ IsClientError status := fun h => absurd h.1 (by omega)
      rcases hjson.array_value raw vs hvs with ⟨v, hv⟩
      dsimp only
      -- Nothing is read of an empty body or a `null`, and any other is an array.
      by_cases h204 : status = 204
      · rw [if_pos h204]
        exact ⟨none, if_pos (Or.inl rfl), fun h => absurd h hnot⟩
      · rw [if_neg h204, hv]
        by_cases hnull : raw = [] ∨ raw = nullBody
        · exact ⟨none, if_pos hnull, fun h => absurd h hnot⟩
        · exact ⟨some v, if_neg hnull, fun h => absurd h hnot⟩
    · rw [statusResult_empty lib nullBody status raw hclient h409]
      exact ⟨none, if_pos (Or.inr rfl), fun _ => rfl⟩

end Queries

/-! ## Batches -/

/-- A batch is friendly if and only if none of its queries ends in a conflict. -/
theorem friendly_iff {α : Type} (buffer : Buffer Error α) (concurrency : Nat) (qs : List Query)
    (fn : Nat → Query → Except Error α) (status : Nat → Nat) (empty : α)
    (hsched : Scheduled buffer concurrency qs fn)
    (hanswers : ∀ i q, qs[i]? = some q → Answers (status i) empty (fn i q)) :
    Friendly (runBatch buffer concurrency qs fn).2 qs.length status empty ↔
      ∀ i < qs.length, status i ≠ 409 := by
  constructor
  -- A query in conflict fails, and with it the batch.
  · rintro ⟨out, hout, _, _⟩ i hi h409
    have hq : qs[i]? = some qs[i] := List.getElem?_eq_getElem hi
    rcases (hanswers i _ hq).1 h409 with ⟨e, he⟩
    rcases runBatch_cases hsched with ⟨vs, hvs, _⟩ | ⟨_, _, _, _, _, _, hrun⟩
    · -- Every query has a value, the one in conflict among them.
      rcases results_line vs hvs i _ hq with ⟨v, _, hv⟩
      rw [he] at hv
      cases hv
    · rw [hrun] at hout
      cases hout
  -- Without one every query has a value.
  · intro hnone
    rcases runBatch_cases hsched with ⟨vs, hvs, _, hret⟩ | ⟨_, k, e, hk, _, _, _⟩
    · refine ⟨vs, hret, ?_, fun i hi hclient => ?_⟩
      · rw [← results_length fn qs, hvs, List.length_map]
      · have hq : qs[i]? = some qs[i] := List.getElem?_eq_getElem hi
        rcases (hanswers i _ hq).2 (hnone i hi) with ⟨v, hv, hempty⟩
        rcases results_line vs hvs i _ hq with ⟨v', hget, hv'⟩
        rw [hv] at hv'
        cases hv'
        rw [hget, hempty hclient]
    · -- The error is that of a query, which has none.
      rcases (results_get fn qs k _).mp hk with ⟨q, hq, hfail⟩
      rcases (hanswers k q hq).2 (hnone k (List.getElem?_eq_some_iff.mp hq).1) with ⟨v, hv, _⟩
      rw [hfail] at hv
      cases hv

/-- When the histories of the queries end in arrays and client errors, the batches
    of the service return a value for each query, and an empty one for each client
    error, if and only if no query ends in a `409`. -/
theorem batches_friendly_iff {V : Type} (json : Json V) (hjson : json.Documented)
    (tr : Transport) (lib : Lib) (concurrency : Nat) (qs : List Query) (w : Nat → Nat → Round)
    (status : Nat → Nat) (raw : Nat → Bytes)
    (hends : ∀ i < qs.length, EndsIn tr (w i) (status i) (raw i) ∧
      Acceptable json (status i) (raw i))
    (buffer : Buffer Error (List V)) (buffer' : Buffer Error (Option V))
    (hforward : Scheduled buffer concurrency qs fun i q => forward json (perform tr lib (w i)) q)
    (hlookup : Scheduled buffer concurrency qs fun i q => lookup json (perform tr lib (w i)) q)
    (hreverse : Scheduled buffer' concurrency qs fun i q =>
      reverse json (perform tr lib (w i)) q) :
    (Friendly (forwardBatch json buffer concurrency qs fun i => perform tr lib (w i)).2 qs.length
      status [] ↔ ∀ i < qs.length, status i ≠ 409) ∧
    (Friendly (lookupBatch json buffer concurrency qs fun i => perform tr lib (w i)).2 qs.length
      status [] ↔ ∀ i < qs.length, status i ≠ 409) ∧
    (Friendly (reverseBatch json buffer' concurrency qs fun i => perform tr lib (w i)).2 qs.length
      status none ↔ ∀ i < qs.length, status i ≠ 409) := by
  have hlt : ∀ i q, qs[i]? = some q → i < qs.length :=
    fun i q hq => (List.getElem?_eq_some_iff.mp hq).1
  refine ⟨friendly_iff buffer concurrency qs _ status [] hforward fun i q hq => ?_,
    friendly_iff buffer concurrency qs _ status [] hlookup fun i q hq => ?_,
    friendly_iff buffer' concurrency qs _ status none hreverse fun i q hq => ?_⟩
  · rcases hends i (hlt i q hq) with ⟨hend, hok⟩
    exact search_answers json hjson tr lib (w i) (status i) (raw i) hend hok _ q
  · rcases hends i (hlt i q hq) with ⟨hend, hok⟩
    exact search_answers json hjson tr lib (w i) (status i) (raw i) hend hok _ q
  · rcases hends i (hlt i q hq) with ⟨hend, hok⟩
    exact reverse_answers json hjson tr lib (w i) (status i) (raw i) hend hok q

/-- The body `[1]`. -/
def oneBody : Bytes := [0x5b, 0x31, 0x5d]

/-- JSON values as text, of which three bodies are known. -/
def smallJson : Json String where
  parseArray raw :=
    if raw = emptyArray then some [] else if raw = oneBody then some ["1"] else none
  parseValue raw :=
    if raw = emptyArray then .ok "[]"
    else if raw = oneBody then .ok "[1]"
    else if raw = nullBody then .ok "null"
    else .error "expected value at line 1 column 1"
  isNull v := v == "null"

theorem smallJson_documented : smallJson.Documented where
  emptyArray := rfl
  array_value raw vs h := by
    by_cases hraw : raw = emptyArray
    · exact ⟨"[]", if_pos hraw⟩
    · by_cases hone : raw = oneBody
      · exact ⟨"[1]", (if_neg hraw).trans (if_pos hone)⟩
      · cases ((if_neg hraw).trans (if_neg hone)).symm.trans h

/-- Headers are taken as they are, and bodies without a message. -/
def plainLib : Lib where
  headerOk _ := true
  parseMsg _ := none
  canonicalReason status := if status = 409 then some "Conflict" else none

/-- A key, and two retries. -/
def keyed : Transport := { auth := .apiKey "key", maxRetries := 2 }

/-- A server error, and then a response. -/
def unavailableThen (status : Nat) (raw : Bytes) (k : Nat) : Round :=
  ⟨.ok (), .responded (if k = 0 then 503 else status) raw, false⟩

theorem unavailableThen_ends (status : Nat) (raw : Bytes) :
    EndsIn keyed (unavailableThen status raw) status raw :=
  ⟨1, fun _ _ => rfl, fun k hk => Or.inl (by rw [Nat.lt_one_iff.mp hk]; rfl),
    Nat.le_of_ble_eq_true rfl, Nat.le_of_ble_eq_true rfl, rfl⟩

/-- Of two tasks, the second one ends first. -/
def secondFirst {ε α : Type} : Buffer ε α
  | _, [x, y] => [.started 0, .started 1, .yielded 1 y, .yielded 0 x]
  | _, xs => inTurn 0 xs

theorem secondFirst_scheduled {α : Type} (q q' : Query) (fn : Nat → Query → Except Error α) :
    Scheduled secondFirst 2 [q, q'] fn :=
  .start 0 [] _ Nat.zero_lt_two (by decide) (.start 1 [0] _ Nat.one_lt_two (by decide)
    (.yield 2 1 [1, 0] _ _ (by decide) rfl (.yield 2 0 [0] _ _ (by decide) rfl .ended)))

/-- The statuses of two queries: a place that is not found, and one that is. -/
def foundSecond (i : Nat) : Nat := if i = 0 then 404 else 200

/-- The second query finds its place and ends first; the first one, which finds
    none after a retry, leaves the batch an empty array in its own slot. -/
theorem batches_friendly_iff_missing :
    Friendly (forwardBatch smallJson secondFirst 2 [[("q", "nowhere")], [("q", "Paris")]]
      fun i => perform keyed plainLib (unavailableThen (foundSecond i) oneBody)).2 2
      foundSecond [] ∧
    (forwardBatch smallJson secondFirst 2 [[("q", "nowhere")], [("q", "Paris")]]
      fun i => perform keyed plainLib (unavailableThen (foundSecond i) oneBody)).2 =
        .returned (.ok [[], ["1"]]) := by
  have hends : ∀ i < 2, EndsIn keyed (unavailableThen (foundSecond i) oneBody) (foundSecond i)
      oneBody ∧ Acceptable smallJson (foundSecond i) oneBody := by
    intro i _
    refine ⟨unavailableThen_ends (foundSecond i) oneBody, ?_⟩
    by_cases hi : i = 0
    · rw [foundSecond, if_pos hi]
      exact Or.inr (by decide)
    · rw [foundSecond, if_neg hi]
      exact Or.inl ⟨by decide, by decide, _, rfl⟩
  have hnone : ∀ i < 2, foundSecond i ≠ 409 := by
    intro i _
    unfold foundSecond
    split <;> decide
  exact ⟨(batches_friendly_iff smallJson smallJson_documented keyed plainLib 2
    [[("q", "nowhere")], [("q", "Paris")]] (fun i => unavailableThen (foundSecond i) oneBody)
    foundSecond (fun _ => oneBody) hends secondFirst secondFirst (secondFirst_scheduled _ _ _)
    (secondFirst_scheduled _ _ _) (secondFirst_scheduled _ _ _)).1.mpr hnone, rfl⟩

/-- A conflict aborts the batch. -/
theorem conflict_aborts : ¬ ∀ (V : Type) (json : Json V) (tr : Transport) (lib : Lib)
    (concurrency : Nat) (qs : List Query) (w : Nat → Nat → Round) (status : Nat → Nat)
    (raw : Nat → Bytes) (buffer : Buffer Error (List V)), json.Documented →
    (∀ i < qs.length, EndsIn tr (w i) (status i) (raw i) ∧ Acceptable json (status i) (raw i)) →
    (Scheduled buffer concurrency qs fun i q => forward json (perform tr lib (w i)) q) →
    Friendly (forwardBatch json buffer concurrency qs fun i => perform tr lib (w i)).2 qs.length
      status [] := by
  intro h
  have hfriendly := h String smallJson keyed plainLib 1 [[("q", "nowhere")]]
    (fun _ => unavailableThen 409 []) (fun _ => 409) (fun _ => []) (fun _ => inTurn 0)
    smallJson_documented (fun _ _ => ⟨unavailableThen_ends 409 [], Or.inr (by decide)⟩)
    (inTurn_buffered Nat.one_pos [] _)
  have hresult : (forwardBatch smallJson (fun _ => inTurn 0) 1 [[("q", "nowhere")]]
      fun _ => perform keyed plainLib (unavailableThen 409 [])).2 =
        .returned (.error (.api ⟨409, "CONFLICT", "Conflict", []⟩)) := rfl
  rcases hfriendly with ⟨out, hout, _⟩
  rw [hresult] at hout
  cases hout

end Geocoding

end Pickpoint
