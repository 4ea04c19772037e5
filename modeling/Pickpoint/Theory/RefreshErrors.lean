import Pickpoint.Theory.StaleTokens

/-!
# Errors of a Refresh

What a request returns when the refresh it ran has failed.

A refresh fails in one place, `do_refresh`, and with a code of its own: a
network failure and a status outside 200 to 299 are `REFRESH_FAILED`, a body
that is no complete pair is `INVALID_TOKEN`. From there are two ways to the
caller. A refresh after a `401` comes back as `false`, and the `401` becomes
an `API_AUTH`. A refresh that `token` ran, as the access token was due, comes
back through `apply` as it is, and `is_auth` does not know `INVALID_TOKEN`.

`noteFailure` logs the refreshes that fail, with what started them and the
status that came back, if one did. A request whose refresh has failed is on
its way to the error, and goes nowhere else (`FailsWith`).

## Main definitions

* `Failure`, `noteFailure`: The refreshes that fail.
* `FailsWith`: Where their requests can be.
* `Call.triggered`: What a refresh was started by.

## Theorems

* `refreshReply_isAuth`: Which errors of `do_refresh` are auth errors.
* `steps_failsWith`: The way to the caller.
* `failed_refresh_isAuth_iff`: Which failures surface as auth errors.
* `proactive_invalid`: One that does not.
-/

namespace Pickpoint

namespace Http

open Interleave Auth

/-- A refresh that failed: whose it was, whether the request ran it because its
    token was due, the status of the response if there was one, and the error. -/
structure Failure where
  request : Nat
  proactive : Bool
  status : Option Nat
  error : ApiError
  deriving DecidableEq

/-- The response a failed refresh got, if any, was a 2xx. -/
def Failure.accepted (f : Failure) : Bool :=
  f.status.any fun status => decide (200 ≤ status ∧ status < 300)

/-- The place of `do_refresh` at which a failure shows, with the status. -/
def exchanging : Auth.Task → Option (Option Nat)
  | .refresh _ (.posting _) => some none
  | .refresh _ (.reading status) => some (some status)
  | _ => none

/-- The error a refresh has failed with. -/
def failedWith : Auth.Task → Option ApiError
  | .refresh _ (.clear (.error e)) => some e
  | _ => none

/-- `token` runs the session's call, in `apply`. -/
def Call.isApplying : Call → Bool
  | .applying _ _ => true
  | _ => false

/-- Note a refresh when it fails. -/
def noteFailure (parse : Bytes → Except String ClientAuth) (lib : Lib) (tr : Transport)
    (p : Pool Auth.Shared Call) (i : Nat) (t : Call) (a : Act Section Call)
    (log : List Failure) : List Failure :=
  match exchanging t.auth, failedWith ((transport parse lib tr).heir a p.shared).auth with
  | some status, some e => ⟨i, t.isApplying, status, e⟩ :: log
  | _, _ => log

/-- A refresh in `apply` is run by `token`, and one after a `401` is not. -/
def Call.triggered : Call → Prop
  | .applying _ (.refresh who _) => ∃ since, who = .token since
  | .refreshing _ _ auth => ∃ since pc, auth = .refresh (.unauthorized since) pc
  | _ => True

/-- Where a request can be whose refresh has failed. -/
inductive FailsWith (f : Failure) : Call → Prop where
  | applying (req : Request) (since : Nat) (pc : RefreshPc) (h : f.proactive = true)
      (hpc : pc = .clear (.error f.error) ∨ pc = .notify (.error f.error)) :
      FailsWith f (.applying req (.refresh (.token since) pc))
  | refreshing (req : Request) (raw : Bytes) (since : Nat) (pc : RefreshPc)
      (h : f.proactive = false)
      (hpc : pc = .clear (.error f.error) ∨ pc = .notify (.error f.error)) :
      FailsWith f (.refreshing req raw (.refresh (.unauthorized since) pc))
  | passedOn (req : Request) (h : f.proactive = true) : FailsWith f (.returned req (.error f.error))
  | replaced (req : Request) (raw : Bytes) (h : f.proactive = false) :
      FailsWith f (.returned req (.error (unauthorizedError raw)))
  | dropped : FailsWith f .dropped

section Errors

variable (parse : Bytes → Except String ClientAuth) (lib : Lib) (tr : Transport)

/-- An error of `do_refresh` with a response is an auth error unless the status is
    a 2xx. -/
theorem refreshReply_isAuth (status : Nat) (raw : Bytes) (e : ApiError)
    (h : refreshReply parse status raw = .error e) :
    e.isAuth = !decide (200 ≤ status ∧ status < 300) := by
  unfold refreshReply at h
  by_cases hstatus : 200 ≤ status ∧ status < 300
  · rw [if_neg (not_not.mpr hstatus)] at h
    rw [decide_eq_true hstatus]
    split at h
    · cases h
      rfl
    · split at h
      · cases h
        rfl
      · cases h
  · rw [if_pos hstatus] at h
    rw [decide_eq_false hstatus]
    cases h
    rfl

/-- A refresh goes on for whom it was run. -/
theorem moves_who (s s' : Auth.Shared) (t : Auth.Task) (who : Caller) (pc : RefreshPc)
    (h : Moves parse s t s' (.refresh who pc)) :
    (t = .token ∧ who = .token s.stored.length) ∨ ∃ pc', t = .refresh who pc' := by
  generalize hu : Task.refresh who pc = u at h
  cases h with
  | due =>
      cases hu
      exact Or.inl ⟨rfl, rfl⟩
  | notified who' r => exact absurd hu (done_not_refresh who' who pc r)
  | settled who' => exact absurd hu (done_not_refresh who' who pc _)
  | _ =>
      cases hu <;> exact Or.inr ⟨_, rfl⟩

theorem bearer_triggered (req : Request) (accessToken : String) (token : Nat) :
    (Call.bearer lib req accessToken token).triggered := by
  unfold Call.bearer
  split <;> trivial

theorem steps_triggered (s s' : Auth.Shared) (t t' : Call) (hs : Steps parse lib tr s t s' t')
    (h : t.triggered) : t'.triggered := by
  -- Only `apply` and a `401` run a refresh; elsewhere there is nothing to show.
  cases hs with
  | keyed req key => split <;> trivial
  | fixed req accessToken => exact bearer_triggered lib req accessToken 0
  | bearer req due => exact bearer_triggered lib req _ _
  | applying req auth auth' _ _ hm =>
      have hwho : ∀ who pc, auth' = .refresh who pc → ∃ since, who = .token since := by
        rintro who pc rfl
        rcases moves_who parse s s' auth who pc hm with ⟨_, hwho⟩ | ⟨pc', rfl⟩
        · exact ⟨_, hwho⟩
        · exact h
      unfold Call.applied
      split
      · exact hwho _ _ rfl
      · trivial
      · trivial
      · rcases auth' with _ | ⟨who, pc⟩ | _ | _ | _ <;> try trivial
        exact hwho who pc rfl
  | unanswered req e =>
      unfold Call.unanswered
      split <;> trivial
  | received req status raw =>
      unfold Call.received
      split
      · split
        · split
          · exact ⟨_, _, rfl⟩
          · trivial
        · trivial
      · split
        · split <;> trivial
        · trivial
  | refreshing req raw auth auth' _ hm =>
      rcases h with ⟨since, pc, rfl⟩
      rcases moves_unauthorized parse s s' since pc auth' hm with ⟨pc', rfl⟩ | ⟨ok, rfl⟩ | rfl
      · exact ⟨since, pc', rfl⟩
      · rcases ok with _ | _ <;> trivial
      · trivial
  | _ => trivial

/-- A refresh that fails brings its request on the way, with an error that depends
    on the response alone. -/
theorem steps_fails (s s' : Auth.Shared) (t t' : Call) (hs : Steps parse lib tr s t s' t')
    (htrig : t.triggered) (i : Nat) (status : Option Nat) (e : ApiError)
    (hstatus : exchanging t.auth = some status) (he : failedWith t'.auth = some e) :
    FailsWith ⟨i, t.isApplying, status, e⟩ t' ∧
      e.isAuth = !Failure.accepted ⟨i, t.isApplying, status, e⟩ := by
  -- A refresh fails without a response, or with one that `do_refresh` refuses.
  cases hs with
  | applying req auth auth' _ _ hm =>
      cases hm with
      | unanswered who refreshTok msg =>
          cases hstatus
          cases he
          rcases htrig with ⟨since, rfl⟩
          exact ⟨.applying req since _ rfl (Or.inl rfl), rfl⟩
      | refused who code raw e' hreply =>
          cases hstatus
          cases he
          rcases htrig with ⟨since, rfl⟩
          exact ⟨.applying req since _ rfl (Or.inl rfl),
            refreshReply_isAuth parse code raw e hreply⟩
      | answered => cases he
      | granted => cases he
      | drop => cases auth <;> cases he
      | _ => cases hstatus
  | refreshing req raw auth auth' _ hm =>
      rcases htrig with ⟨since, pc, rfl⟩
      cases hm with
      | unanswered who refreshTok msg =>
          cases hstatus
          cases he
          exact ⟨.refreshing req raw since _ rfl (Or.inl rfl), rfl⟩
      | refused who code body e' hreply =>
          cases hstatus
          cases he
          exact ⟨.refreshing req raw since _ rfl (Or.inl rfl),
            refreshReply_isAuth parse code body e hreply⟩
      | answered => cases he
      | granted => cases he
      | drop => cases he
      | _ => cases hstatus
  | dropped t hover =>
      rw [hover] at hstatus
      cases hstatus
  | _ => cases hstatus

/-- From there it goes to the error, or is dropped. -/
theorem steps_failsWith (s s' : Auth.Shared) (t t' : Call) (hs : Steps parse lib tr s t s' t')
    (f : Failure) (h : FailsWith f t) : FailsWith f t' := by
  -- One place after the other: the flag is cleared, the waiters are woken, and
  -- the request gets the error or its own.
  cases h with
  | applying req since pc hf hpc =>
      cases hs with
      | applying _ _ auth' _ _ hm =>
          rcases hpc with rfl | rfl
          · cases hm with
            | drop => exact .dropped
            | cleared => exact .applying req since _ hf (Or.inr rfl)
          · cases hm with
            | drop => exact .dropped
            | notified => exact .passedOn req hf
      | dropped _ hover => exact .dropped
  | refreshing req raw since pc hf hpc =>
      cases hs with
      | refreshing _ _ _ auth' _ hm =>
          rcases hpc with rfl | rfl
          · cases hm with
            | drop => exact .dropped
            | cleared => exact .refreshing req raw since _ hf (Or.inr rfl)
          · cases hm with
            | drop => exact .dropped
            | notified => exact .replaced req raw hf
      | dropped _ hover => exact .dropped
  | passedOn => cases hs with
      | dropped => exact .dropped
  | replaced => cases hs with
      | dropped => exact .dropped
  | dropped => cases hs with
      | dropped => exact .dropped

/-- The failures in the log have brought their requests on the way. -/
structure Failing (p : Pool Auth.Shared Call) (log : List Failure) : Prop where
  triggered : ∀ (i : Nat) t, p.tasks[i]? = some t → t.triggered
  way : ∀ f ∈ log, ∃ t, p.tasks[f.request]? = some t ∧ FailsWith f t
  code : ∀ f ∈ log, f.error.isAuth = !f.accepted

theorem step_failing (p : Pool Auth.Shared Call) (i : Nat) (c : Input) (t : Call)
    (a : Act Section Call) (log : List Failure) (ht : p.tasks[i]? = some t)
    (ha : t.act parse lib tr c = some a) (h : Failing p log) :
    Failing ((transport parse lib tr).resumed p i a) (noteFailure parse lib tr p i t a log) := by
  rcases act_steps parse lib tr t c a p.shared ha with ⟨hs, hspawned⟩
  have hself := (transport parse lib tr).resumed_get_self p i a t ht
  -- The failures of before go on with their requests.
  have hold : ∀ f ∈ log, ∃ t', ((transport parse lib tr).resumed p i a).tasks[f.request]? =
      some t' ∧ FailsWith f t' := by
    intro f hf
    rcases h.way f hf with ⟨u, hu, hway⟩
    by_cases hi : f.request = i
    · rw [hi, ht, Option.some.injEq] at hu
      rw [hi]
      exact ⟨_, hself, steps_failsWith parse lib tr _ _ _ _ hs f (hu ▸ hway)⟩
    · exact ⟨u, (transport parse lib tr).resumed_get_other p i f.request a u hi hu, hway⟩
  have htriggered : ∀ (j : Nat) u, ((transport parse lib tr).resumed p i a).tasks[j]? = some u →
      u.triggered := by
    intro j u hu
    rcases (transport parse lib tr).resumed_get_cases p i j a t u ht hu with
      ⟨_, rfl⟩ | ⟨_, hu'⟩ | ⟨_, hu'⟩
    · exact steps_triggered parse lib tr _ _ _ _ hs (h.triggered i t ht)
    · exact h.triggered j u hu'
    · rw [hspawned] at hu'
      cases hu'
  unfold noteFailure
  split
  · next status e hstatus he =>
    rcases steps_fails parse lib tr _ _ _ _ hs (h.triggered i t ht) i status e hstatus he with
      ⟨hway, hcode⟩
    refine ⟨htriggered, fun f hf => ?_, fun f hf => ?_⟩
    · rcases List.mem_cons.mp hf with rfl | hf
      · exact ⟨_, hself, hway⟩
      · exact hold f hf
    · rcases List.mem_cons.mp hf with rfl | hf
      · exact hcode
      · exact h.code f hf
  · exact ⟨htriggered, hold, h.code⟩

theorem enter_failing (p : Pool Auth.Shared Call) (t : Call) (log : List Failure)
    (hent : t.isCall = true) (h : Failing p log) :
    Failing { p with tasks := p.tasks ++ [t] } log := by
  refine ⟨fun i u hu => ?_, fun f hf => ?_, h.code⟩
  · rcases Machine.entered_get_cases p.tasks t u i hu with hu' | rfl
    · exact h.triggered i u hu'
    · rcases isCall_auth u hent with ⟨opts, rfl⟩
      trivial
  · rcases h.way f hf with ⟨u, hu, hway⟩
    exact ⟨u, Machine.entered_get_old p.tasks t u f.request hu, hway⟩

variable (initial : ClientAuth)

/-- Which failed refreshes surface as auth errors. In every run, when a request
    whose refresh has failed returns, it returns an error; and `is_auth` is true
    of it just when the refresh followed a `401`, or failed without a response or
    with a status that is no 2xx. -/
theorem failed_refresh_isAuth_iff (p : Pool Auth.Shared Call) (log : List Failure)
    (h : (transport parse lib tr).Tallied (Started initial) (fun _ _ _ _ _ => True)
      (noteFailure parse lib tr) [] p log)
    (f : Failure) (hf : f ∈ log) (req : Request) (r : Except ApiError Bytes)
    (hr : p.tasks[f.request]? = some (.returned req r)) :
    (∃ e, r = .error e) ∧
      ((∃ e, r = .error e ∧ e.isAuth = true) ↔ (f.proactive = false ∨ f.accepted = false)) := by
  have hfailing : Failing p log := by
    refine (transport parse lib tr).tallied_inv _ _ _ _ (fun _ => True) (fun _ _ => trivial)
      Failing ?_ ?_ ?_ p log h
    · intro p hp
      refine ⟨fun i t ht => ?_, by rintro f ⟨⟩, by rintro f ⟨⟩⟩
      rw [(started_pool initial p hp).2.2] at ht
      cases ht
    · exact fun p i c t a b ht ha _ _ hI => step_failing parse lib tr p i c t a b ht ha hI
    · exact fun p t b hent _ hI => enter_failing p t b hent hI
  rcases hfailing.way f hf with ⟨t, ht, hway⟩
  rw [hr, Option.some.injEq] at ht
  rw [← ht] at hway
  -- A request that has returned is at one of the two ends of the way.
  cases hway with
  | passedOn _ hproactive =>
      refine ⟨⟨_, rfl⟩, ?_⟩
      have hcode := hfailing.code f hf
      constructor
      · rintro ⟨e, he, hauth⟩
        rw [← Except.error.inj he, hcode] at hauth
        exact Or.inr (Bool.not_eq_true' _ |>.mp hauth)
      · rintro (hf | haccepted)
        · rw [hproactive] at hf
          cases hf
        · exact ⟨_, rfl, by rw [hcode, haccepted]; rfl⟩
  | replaced _ raw hf => exact ⟨⟨_, rfl⟩, iff_of_true ⟨_, rfl, rfl⟩ (Or.inl hf)⟩

end Errors

/-! ## Concrete runs -/

def sessionTransport : Transport := { auth := .clientAuth, maxRetries := 0 }

/-- A request that refreshes on account of the initial token. -/
def refreshingRequest : Request := { opts := ⟨.throw, none⟩, accounts := [0] }

/-- The refresh of request 0 gets a 2xx with no pair in it. -/
def refreshFails : List (Label Call Input) :=
  [.resume 0 .go, .resume 0 (.responded 200), .resume 0 (.body []), .resume 0 .go, .resume 0 .go]

/-- After a `401` the caller gets an auth error. -/
theorem failed_refresh_unauthorized :
    ∃ (p : Pool Auth.Shared Call) (e : ApiError),
      p.tasks[0]? = some (.returned { refreshingRequest with sentWith := some 0 } (.error e)) ∧
      ∃ e', (.error e : Except ApiError Bytes) = .error e' ∧ e'.isAuth = true := by
  rcases (transport someParse someLib sessionTransport).exists_tallied (Started somePair)
    (fun _ _ _ _ _ => True) (noteFailure someParse someLib sessionTransport) []
    (fun _ _ _ _ _ => true) (fun _ _ _ _ _ _ => trivial)
    ([.spawn (.applying { opts := ⟨.throw, none⟩ } .token)] ++ sends 0 ++
      [.resume 0 (.responded 401), .resume 0 (.body [])] ++ refreshFails)
    freshTransport started_freshTransport
    (fun p log => decide (p.tasks[0]? = some (Call.returned
        { refreshingRequest with sentWith := some 0 } (.error (unauthorizedError []))) ∧
      log = [⟨0, false, some 200,
        ⟨0, "INVALID_TOKEN", "refresh returned invalid JSON: unexpected token", []⟩⟩]))
    (by decide +kernel) with ⟨p, log, hrun, hend⟩
  rcases of_decide_eq_true hend with ⟨htask, hlog⟩
  exact ⟨p, _, htask, (failed_refresh_isAuth_iff someParse someLib sessionTransport somePair p log
    hrun _ (hlog ▸ List.mem_singleton_self _) _ _ htask).2.mpr (Or.inl rfl)⟩

/-- When the token was due, it gets one that is not. -/
theorem proactive_invalid :
    ¬ ∀ p log, (transport someParse someLib sessionTransport).Tallied (Started somePair)
      (fun _ _ _ _ _ => True) (noteFailure someParse someLib sessionTransport) [] p log →
      ∀ f ∈ log, ∀ req r, p.tasks[f.request]? = some (Call.returned req r) →
        ∃ e, r = .error e ∧ e.isAuth = true := by
  intro hall
  rcases (transport someParse someLib sessionTransport).exists_tallied (Started somePair)
    (fun _ _ _ _ _ => True) (noteFailure someParse someLib sessionTransport) []
    (fun _ _ _ _ _ => true) (fun _ _ _ _ _ _ => trivial)
    ([.spawn (.applying { opts := ⟨.throw, none⟩ } .token),
      .resume 0 (.clock 0 0 1000000000000)] ++ refreshFails)
    freshTransport started_freshTransport
    (fun p log => decide (p.tasks[0]? = some (Call.returned refreshingRequest (.error
        ⟨0, "INVALID_TOKEN", "refresh returned invalid JSON: unexpected token", []⟩)) ∧
      log = [⟨0, true, some 200,
        ⟨0, "INVALID_TOKEN", "refresh returned invalid JSON: unexpected token", []⟩⟩]))
    (by decide +kernel) with ⟨p, log, hrun, hend⟩
  rcases of_decide_eq_true hend with ⟨htask, hlog⟩
  rcases hall p log hrun _ (hlog ▸ List.mem_singleton_self _) _ _ htask with ⟨e, he, hauth⟩
  rw [← Except.error.inj he] at hauth
  exact absurd hauth (by decide)

end Http

end Pickpoint
