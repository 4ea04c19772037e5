import Pickpoint.Theory.StaleTokens

/-!
# Classes of Errors

What a caller can tell from the error of a request.

`is_auth` and its siblings look at the code of an error, and the codes are given out
in many places: where the headers are made, where a refresh fails, and where a
response is sorted by its status. `Arises` lists these places. A request keeps its
options and the transport its key throughout, so the errors of a whole run are of the
classes their statuses say (`reach_classified`), but for those of a refresh. One
that got no answer, or was refused, is an error of the credentials, whatever status
it carries. One that was answered with an invalid body has no class at all.

## Main definitions

* `RefreshRefused`, `Unrefreshed`: The errors of a refresh.
* `Arises`: Where an error comes from.
* `Call.sound`: Where one is on its way.
* `Classified`: What can be told from it.

## Theorems

* `statusResult_error`: The errors among the responses.
* `arises_classified`: What each place gives out.
* `steps_sound`: A step keeps to these places.
* `reach_classified`: The errors of a run.
-/

namespace Pickpoint

namespace Http

open Interleave Auth

/-- The error of a refresh that got no answer, or one that is no success whatever its
    body says. -/
def RefreshRefused (e : ApiError) : Prop :=
  (∃ msg, e = refreshNetworkError msg) ∨
    ∃ status raw, ¬ (200 ≤ status ∧ status < 300) ∧
      ∀ parse, refreshReply parse status raw = .error e

/-- An error a refresh ends with: it was refused, or its body was invalid. -/
def Unrefreshed (e : ApiError) : Prop :=
  RefreshRefused e ∨ (e.code = "INVALID_TOKEN" ∧ e.status = 0)

theorem refused_code (e : ApiError) (h : RefreshRefused e) : e.code = "REFRESH_FAILED" := by
  rcases h with ⟨msg, rfl⟩ | ⟨status, raw, hstatus, hreply⟩
  · rfl
  · have herror := hreply fun _ => .error ""
    unfold refreshReply at herror
    rw [if_pos hstatus] at herror
    cases herror
    rfl

section Classes

variable (parse : Bytes → Except String ClientAuth) (lib : Lib) (tr : Transport)

/-- The key of the transport, if it uses one, can be sent. -/
def Sendable : Prop := ∀ key, tr.auth = .apiKey key → lib.headerOk key = true

/-- Where an error comes from: one case for each place at which a request can fail,
    with what is known there. -/
inductive Arises (opts : RequestOpts) : ApiError → Prop where
  | badKey (key : String) (h : tr.auth = .apiKey key) (hkey : lib.headerOk key = false) :
      Arises opts (invalidConfig "api_key contains invalid header characters")
  | badToken (h : Sendable lib tr) :
      Arises opts ⟨0, "INVALID_TOKEN", "access token is not a valid header", []⟩
  | unrefreshed (e : ApiError) (h : Sendable lib tr) (he : Unrefreshed e) : Arises opts e
  | unanswered (msg : String) (h : Sendable lib tr) : Arises opts (networkError msg)
  | unauthorized (raw : Bytes) (h : Sendable lib tr) : Arises opts (unauthorizedError raw)
  | exhausted (status : Nat) (raw : Bytes) (h : Sendable lib tr)
      (hstatus : 500 ≤ status ∧ status ≤ 599) : Arises opts (serverError status raw)
  | refused (status : Nat) (raw : Bytes) (e : ApiError) (h : Sendable lib tr)
      (hstatus : status ≠ 401) (he : statusResult lib opts status raw = .error e) :
      Arises opts e

/-- The session's call carries an error of a refresh, if any. -/
def carriesUnrefreshed : Auth.Task → Prop
  | .refresh _ (.clear (.error e)) | .refresh _ (.notify (.error e)) => Unrefreshed e
  | .returned (.token (.error e)) => Unrefreshed e
  | _ => True

/-- A request that got past its headers has a key that can be sent, and one that
    returns an error has it from one of these places. -/
def Call.sound : Call → Prop
  | .applying _ auth => carriesUnrefreshed auth
  | .returned req (.error e) => Arises lib tr req.opts e
  | .returned _ (.ok _) | .dropped => True
  | _ => Sendable lib tr

/-- What can be told from an error, by the four questions its type answers, and what
    the options make of client errors. -/
structure Classified (opts : RequestOpts) (e : ApiError) : Prop where
  auth : e.isAuth = true ↔
    RefreshRefused e ∨ e.status = 401 ∨ e.status = 402 ∨ e.status = 403
  notFound : e.isNotFound = true ↔ ¬ RefreshRefused e ∧ e.status = 404
  conflict : e.isConflict = true ↔ ¬ RefreshRefused e ∧ e.status = 409
  invalid : e.isInvalidConfig = true ↔ ¬ Sendable lib tr
  /-- A request that takes an empty body for a client error gets none. -/
  empty : opts.onClientError = .empty → 400 ≤ e.status → e.status ≤ 499 →
    e.isAuth = true ∨ e.isConflict = true

/-! ## Places -/

/-- The errors among the responses have the status of the response and one of four
    codes, by the status. -/
theorem statusResult_error (opts : RequestOpts) (status : Nat) (raw : Bytes) (e : ApiError)
    (h : statusResult lib opts status raw = .error e) :
    e.status = status ∧
      ((e.code = "API_AUTH" ∧ (status = 402 ∨ status = 403)) ∨
        (e.code = "CONFLICT" ∧ status = 409) ∨
        (e.code = "NOT_FOUND" ∧ status = 404 ∧ opts.onClientError ≠ .empty) ∨
        (e.code = "CLIENT_ERROR" ∧ status ≠ 402 ∧ status ≠ 403 ∧ status ≠ 404 ∧ status ≠ 409 ∧
          (opts.onClientError = .empty → status = 401 ∨ status < 400 ∨ 499 < status))) := by
  unfold statusResult at h
  -- The branches of the match on the status, in the order the source tries them.
  by_cases hauth : status = 402 ∨ status = 403
  · rw [if_pos hauth] at h
    cases h
    exact ⟨rfl, Or.inl ⟨rfl, hauth⟩⟩
  rw [if_neg hauth] at h
  -- Three branches return no error: 204, an empty answer for a client error, and 2xx.
  by_cases hnone : status = 204
  · rw [if_pos hnone] at h
    cases h
  rw [if_neg hnone] at h
  by_cases hconflict : status = 409
  · rw [if_pos hconflict] at h
    cases h
    exact ⟨hconflict.symm, Or.inr (Or.inl ⟨rfl, hconflict⟩)⟩
  rw [if_neg hconflict] at h
  by_cases hclient : status = 400 ∨ (404 ≤ status ∧ status ≤ 499)
  · rw [if_pos hclient] at h
    -- A client error, as the options say.
    by_cases hempty : opts.onClientError = .empty
    · rw [if_pos hempty] at h
      cases h
    rw [if_neg hempty] at h
    cases h
    refine ⟨rfl, Or.inr (Or.inr ?_)⟩
    by_cases hmissing : status = 404
    · exact Or.inl ⟨if_pos hmissing, hmissing, hempty⟩
    · exact Or.inr ⟨if_neg hmissing, by omega, by omega, hmissing, hconflict,
        fun he => absurd he hempty⟩
  rw [if_neg hclient] at h
  by_cases hok : 200 ≤ status ∧ status ≤ 299
  · rw [if_pos hok] at h
    cases h
  rw [if_neg hok] at h
  -- What is left of the statuses, unless it counts as a client error.
  by_cases hrest : 400 ≤ status ∧ status < 500 ∧ opts.onClientError = .empty
  · rw [if_pos hrest] at h
    cases h
  rw [if_neg hrest] at h
  cases h
  refine ⟨rfl, Or.inr (Or.inr (Or.inr ⟨rfl, ?_⟩))⟩
  refine ⟨by omega, by omega, by omega, hconflict, fun hempty => ?_⟩
  -- With empty answers asked for, a 4xx cannot have come this far.
  have hrange : ¬ (400 ≤ status ∧ status < 500) := fun hr => hrest ⟨hr.1, hr.2, hempty⟩
  omega

theorem refreshReply_unrefreshed (status : Nat) (raw : Bytes) (e : ApiError)
    (h : refreshReply parse status raw = .error e) : Unrefreshed e := by
  unfold refreshReply at h
  split at h
  · rename_i hstatus
    exact Or.inl (Or.inr ⟨status, raw, hstatus, fun _ => (if_pos hstatus).trans h⟩)
  split at h
  · cases h
    exact Or.inr ⟨rfl, rfl⟩
  split at h
  · cases h
    exact Or.inr ⟨rfl, rfl⟩
  · cases h

/-- An error of no class, with a status of none. -/
theorem classified_other (opts : RequestOpts) (e : ApiError) (hs : Sendable lib tr)
    (hcode : e.code ∉ ["API_AUTH", "REFRESH_FAILED", "NOT_FOUND", "CONFLICT", "INVALID_CONFIG"])
    (hstatus : e.status ∉ [401, 402, 403, 404, 409])
    (hempty : opts.onClientError = .empty → ¬ (400 ≤ e.status ∧ e.status ≤ 499)) :
    Classified lib tr opts e := by
  simp only [List.mem_cons, List.not_mem_nil, or_false, not_or] at hcode hstatus
  rcases hcode with ⟨hauth, hrefresh, hmissing, hconflict, hconfig⟩
  rcases hstatus with ⟨h401, h402, h403, h404, h409⟩
  have hrefused : ¬ RefreshRefused e := fun he => hrefresh (refused_code e he)
  exact
    { auth := by simp only [ApiError.isAuth, Bool.or_eq_true, beq_iff_eq, hauth, hrefresh,
        hrefused, h401, h402, h403, or_self]
      notFound := by simp only [ApiError.isNotFound, beq_iff_eq, hmissing, h404, and_false]
      conflict := by simp only [ApiError.isConflict, beq_iff_eq, hconflict, h409, and_false]
      invalid := by simp only [ApiError.isInvalidConfig, beq_iff_eq, hconfig, hs, not_true_eq_false]
      empty := fun hopts hlow hhigh => absurd ⟨hlow, hhigh⟩ (hempty hopts) }

/-- An error of one class, with a status of it. -/
theorem classified_of (opts : RequestOpts) (e : ApiError) (hs : Sendable lib tr)
    (hcode : (e.code = "API_AUTH" ∧ (e.status = 401 ∨ e.status = 402 ∨ e.status = 403)) ∨
      RefreshRefused e ∨ (e.code = "CONFLICT" ∧ e.status = 409) ∨
      (e.code = "NOT_FOUND" ∧ e.status = 404 ∧ opts.onClientError ≠ .empty)) :
    Classified lib tr opts e := by
  -- An error with another code is none of a refused refresh.
  have hother : e.code ≠ "REFRESH_FAILED" → ¬ RefreshRefused e :=
    fun hne he => hne (refused_code e he)
  rcases hcode with ⟨hcode, hstatus⟩ | hrefused | ⟨hcode, hstatus⟩ | ⟨hcode, hstatus, hopts⟩
  · exact
      { auth := by simp [ApiError.isAuth, hcode, hstatus]
        notFound := by simp [ApiError.isNotFound, hcode]; omega
        conflict := by simp [ApiError.isConflict, hcode]; omega
        invalid := by simp [ApiError.isInvalidConfig, hcode, hs]
        empty := fun _ _ _ => Or.inl (by simp [ApiError.isAuth, hcode]) }
  · have hcode := refused_code e hrefused
    exact
      { auth := by simp [ApiError.isAuth, hcode, hrefused]
        notFound := by simp [ApiError.isNotFound, hcode, hrefused]
        conflict := by simp [ApiError.isConflict, hcode, hrefused]
        invalid := by simp [ApiError.isInvalidConfig, hcode, hs]
        empty := fun _ _ _ => Or.inl (by simp [ApiError.isAuth, hcode]) }
  · have hrefused := hother (by simp [hcode])
    exact
      { auth := by simp [ApiError.isAuth, hcode, hstatus, hrefused]
        notFound := by simp [ApiError.isNotFound, hcode, hstatus, hrefused]
        conflict := by simp [ApiError.isConflict, hcode, hstatus, hrefused]
        invalid := by simp [ApiError.isInvalidConfig, hcode, hs]
        empty := fun _ _ _ => Or.inr (by simp [ApiError.isConflict, hcode]) }
  · have hrefused := hother (by simp [hcode])
    exact
      { auth := by simp [ApiError.isAuth, hcode, hstatus, hrefused]
        notFound := by simp [ApiError.isNotFound, hcode, hstatus, hrefused]
        conflict := by simp [ApiError.isConflict, hcode, hstatus, hrefused]
        invalid := by simp [ApiError.isInvalidConfig, hcode, hs]
        empty := fun hempty _ _ => absurd hempty hopts }

/-- What each place gives out is of the class its status says. -/
theorem arises_classified (opts : RequestOpts) (e : ApiError) (h : Arises lib tr opts e) :
    Classified lib tr opts e := by
  cases h with
  -- The one error without a status that is neither about the token nor about the network.
  | badKey key h hkey =>
      have hbad : ¬ Sendable lib tr := fun hs => by
        rw [hs key h] at hkey
        cases hkey
      have hrefused :
          ¬ RefreshRefused (invalidConfig "api_key contains invalid header characters") :=
        fun he => absurd (refused_code _ he) (by simp [invalidConfig])
      simp only [invalidConfig] at hrefused
      exact
        { auth := by simp [invalidConfig, ApiError.isAuth, hrefused]
          notFound := by simp [invalidConfig, ApiError.isNotFound]
          conflict := by simp [invalidConfig, ApiError.isConflict]
          invalid := by simp [invalidConfig, ApiError.isInvalidConfig, hbad]
          empty := fun _ hlow _ => absurd hlow (by simp [invalidConfig]) }
  | badToken hs =>
      exact classified_other lib tr opts _ hs (by simp) (by simp) fun _ => by simp
  -- A refresh that failed: refused, or answered with something that is no pair.
  | unrefreshed _ hs he =>
      rcases he with he | ⟨hcode, hstatus⟩
      · exact classified_of lib tr opts e hs (Or.inr (Or.inl he))
      · exact classified_other lib tr opts e hs (by simp [hcode]) (by simp [hstatus])
          fun _ => by simp [hstatus]
  | unanswered msg hs =>
      exact classified_other lib tr opts _ hs (by simp [networkError]) (by simp [networkError])
        fun _ => by simp [networkError]
  | unauthorized raw hs =>
      exact classified_of lib tr opts _ hs (Or.inl ⟨rfl, Or.inl rfl⟩)
  -- The last answer was one that is retried, and no such status is named by a class.
  | exhausted status raw hs hstatus =>
      refine classified_other lib tr opts _ hs (by simp [serverError]) ?_ fun _ => ?_
      · simp only [serverError, List.mem_cons, List.not_mem_nil, or_false]
        omega
      · simp only [serverError]
        omega
  -- An answer that is not retried becomes the error its status says.
  | refused status raw _ hs hstatus he =>
      rcases statusResult_error lib opts status raw e he with ⟨heq, h | h | h | h⟩
      · exact classified_of lib tr opts e hs (Or.inl ⟨h.1, by omega⟩)
      · exact classified_of lib tr opts e hs (Or.inr (Or.inr (Or.inl ⟨h.1, by omega⟩)))
      · exact classified_of lib tr opts e hs
          (Or.inr (Or.inr (Or.inr ⟨h.1, by omega, h.2.2⟩)))
      · rcases h with ⟨hcode, h402, h403, h404, h409, hempty⟩
        refine classified_other lib tr opts e hs (by simp [hcode]) ?_ fun hopts => ?_
        · simp only [List.mem_cons, List.not_mem_nil, or_false]
          omega
        · have hrange := hempty hopts
          omega

/-! ## Steps -/

theorem moves_carries (s s' : Auth.Shared) (auth auth' : Auth.Task)
    (hm : Moves parse s auth s' auth') (h : carriesUnrefreshed auth) :
    carriesUnrefreshed auth' := by
  cases hm with
  | unanswered => exact Or.inl (Or.inl ⟨_, rfl⟩)
  | refused who status raw e hreply => exact refreshReply_unrefreshed parse status raw e hreply
  | cleared who r =>
      cases r with
      | ok => trivial
      | error e => exact h
  | notified who r => cases who <;> cases r <;> first | exact h | trivial
  | settled who => cases who <;> trivial
  | _ => trivial

theorem bearer_sound (req : Request) (accessToken : String) (token : Nat)
    (hs : Sendable lib tr) : (Call.bearer lib req accessToken token).sound lib tr := by
  unfold Call.bearer
  by_cases h : lib.headerOk ("Bearer " ++ accessToken) = true
  · rw [if_pos h]
    exact hs
  · rw [if_neg h]
    exact .badToken hs

/-- The response of a request that could send its key. -/
theorem received_sound (req : Request) (status : Nat) (raw : Bytes) (hs : Sendable lib tr) :
    (Call.received tr lib req status raw).sound lib tr := by
  unfold Call.received
  by_cases hauth : status = 401
  · rw [if_pos hauth]
    split
    · split
      · exact hs
      · exact .unauthorized raw hs
    · exact .unauthorized raw hs
  rw [if_neg hauth]
  by_cases hserver : 500 ≤ status ∧ status ≤ 599
  · rw [if_pos hserver]
    split
    · exact .exhausted status raw hs hserver
    · exact hs
  rw [if_neg hserver]
  rcases hr : statusResult lib req.opts status raw with e | body
  · exact .refused status raw e hs hauth hr
  · trivial

/-- A step keeps to these places. -/
theorem steps_sound (s s' : Auth.Shared) (t t' : Call) (hs : Steps parse lib tr s t s' t')
    (h : t.sound lib tr) : t'.sound lib tr := by
  -- A transport without a key has none that cannot be sent.
  have hkeyless : (∀ key, tr.auth ≠ .apiKey key) → Sendable lib tr :=
    fun hno key hkey => absurd hkey (hno key)
  cases hs with
  | keyed req key hkind =>
      by_cases hkey : lib.headerOk key = true
      · rw [if_pos hkey]
        intro key' hkey'
        rw [hkind] at hkey'
        cases hkey'
        exact hkey
      · rw [if_neg hkey]
        exact .badKey key hkind (Bool.eq_false_iff.mpr hkey)
  | fixed req accessToken hkind =>
      exact bearer_sound lib tr req accessToken 0 (hkeyless fun key => by simp [hkind])
  | bearer req due hkind => exact bearer_sound lib tr req _ _ (hkeyless fun key => by simp [hkind])
  | applying req auth auth' _ hkind hm =>
      have hcarries := moves_carries parse s s' auth auth' hm h
      unfold Call.applied
      split
      · trivial
      · exact .unrefreshed _ (hkeyless fun key => by simp [hkind]) hcarries
      · trivial
      · exact hcarries
  | unanswered req e =>
      unfold Call.unanswered
      split
      · exact .unanswered e h
      · exact h
  | responded => exact h
  | received req status raw => exact received_sound lib tr req status raw h
  | refreshing req raw auth auth' _ hm =>
      unfold Call.refreshed
      split
      · trivial
      · exact .unauthorized raw h
      · trivial
      · exact h
  | slept => trivial
  | dropped => trivial

/-! ## Runs -/

/-- The errors of a run are of the classes their statuses say, whatever the other
    requests of the session do meanwhile. -/
theorem reach_classified (p : Pool Auth.Shared Call)
    (hrun : (transport parse lib tr).Reach (fun p => p.tasks = []) Machine.anyStep p)
    (i : Nat) (req : Request) (e : ApiError)
    (ht : p.tasks[i]? = some (.returned req (.error e))) : Classified lib tr req.opts e := by
  have hsound := ((transport parse lib tr).reach_tasks (fun p => p.tasks = [])
    (fun _ _ _ _ => True) (fun _ => True) (fun _ t => t.sound lib tr) ?_ ?_ ?_ ?_ p
    ((transport parse lib tr).reach_any _ p hrun)).2 i _ ht
  · exact arises_classified lib tr req.opts e hsound
  · intro p hp
    rw [hp]
    exact ⟨trivial, fun t ht => absurd ht List.not_mem_nil⟩
  · intro s t _ hent
    rcases isCall_auth t hent with ⟨opts, rfl⟩
    trivial
  · intro p i c t a _ ha _ _ ht _
    rcases act_steps parse lib tr t c a p.shared ha with ⟨hsteps, hspawned⟩
    rw [hspawned]
    exact ⟨trivial, steps_sound parse lib tr _ _ _ _ hsteps ht,
      fun u hu => absurd hu List.not_mem_nil⟩
  · exact fun _ _ _ _ _ _ _ _ _ _ _ _ _ _ hu => hu

end Classes

/-- The reason of one status. -/
def reasonLib : Lib :=
  { someLib with canonicalReason := fun status => if status = 404 then some "Not Found" else none }

def keyTransport : Transport := { auth := .apiKey "secret", maxRetries := 0 }

/-- A response `404` is an error of its class. -/
theorem classified_missing :
    ∃ (p : Pool Auth.Shared Call) (e : ApiError),
      p.tasks[0]? = some (.returned { opts := ⟨.throw, none⟩ } (.error e)) ∧
      e.isNotFound = true := by
  rcases (transport someParse reasonLib keyTransport).exists_reach (fun p => p.tasks = [])
    (fun _ _ => true) Machine.anyStep (fun _ _ _ => trivial)
    [.spawn (.applying { opts := ⟨.throw, none⟩ } .token), .resume 0 .go,
      .resume 0 (.responded 404), .resume 0 (.body [])]
    freshTransport rfl
    (fun p => decide (p.tasks[0]? = some (Call.returned { opts := ⟨.throw, none⟩ }
      (.error ⟨404, "NOT_FOUND", "Not Found", []⟩))))
    (by decide +kernel) with ⟨p, hrun, hend⟩
  have htask := of_decide_eq_true hend
  exact ⟨p, _, htask, (reach_classified someParse reasonLib keyTransport p hrun 0 _ _
    htask).notFound.mpr ⟨fun he => absurd (refused_code _ he) (by decide), rfl⟩⟩

end Http

end Pickpoint
