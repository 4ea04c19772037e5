import Pickpoint.Core.Transport
import Pickpoint.Theory.Outcomes
import Pickpoint.Theory.Rotation
import Pickpoint.Theory.Wakeups

/-!
# Requests

The steps of a `do_request`, and what its session makes of them.

`Steps` lists them. Where a request awaits its session it takes the step of the
session's call (`Auth.Moves`), and `steps_auth` is the refinement: seen from the
session, every step of a request is a step of one of its calls, or a call that
is over makes room for a new one. What is known of sessions then holds of the
requests that share one (`requests_holders`, `requests_awake`).

## Main definitions

* `Steps`: The steps of a request.
* `Call.auth`, `sessions`: The requests as calls of their session.
* `Task.idle`: Calls that may make room for others.

## Theorems

* `act_steps`: Every step is one of `Steps`.
* `steps_auth`: What the session sees of a step.
* `requests_holders`: One request at most refreshes.
* `requests_awake`: No wakeup is lost by a step.
-/

namespace Pickpoint

namespace Http

open Interleave Auth

/-- The session's call a request has under way, if any. -/
def Call.auth : Call → Auth.Task
  | .applying _ auth => auth
  | .refreshing _ _ auth => auth
  | _ => .dropped

section Requests

variable (parse : Bytes → Except String ClientAuth) (lib : Lib) (tr : Transport)

/-- The steps of a request: from the session and the request before to those
    after. -/
inductive Steps (s : Auth.Shared) : Call → Auth.Shared → Call → Prop where
  | keyed (req : Request) (key : String) (h : tr.auth = .apiKey key) :
      Steps s (.applying req .token) s
        (if lib.headerOk key then .sending req
          else .returned req (.error (invalidConfig "api_key contains invalid header characters")))
  | fixed (req : Request) (accessToken : String) (h : tr.auth = .staticToken accessToken) :
      Steps s (.applying req .token) s (Call.bearer lib req accessToken 0)
  | bearer (req : Request) (due : Option Nat) (h : tr.auth = .clientAuth) :
      Steps s (.applying req (.tokenRead due)) s
        (Call.bearer lib req s.inner.accessToken s.stored.length)
  | applying (req : Request) (auth auth' : Auth.Task) (s' : Auth.Shared)
      (h : tr.auth = .clientAuth) (hm : Moves parse s auth s' auth') :
      Steps s (.applying req auth) s' (Call.applied req auth auth')
  | unanswered (req : Request) (e : String) :
      Steps s (.sending req) s (Call.unanswered tr req e)
  | responded (req : Request) (status : Nat) : Steps s (.sending req) s (.reading req status)
  | received (req : Request) (status : Nat) (raw : Bytes) :
      Steps s (.reading req status) s (Call.received tr lib req status raw)
  | refreshing (req : Request) (raw : Bytes) (auth auth' : Auth.Task) (s' : Auth.Shared)
      (hm : Moves parse s auth s' auth') :
      Steps s (.refreshing req raw auth) s' (Call.refreshed req raw auth')
  | slept (req : Request) :
      Steps s (.sleeping req) s (.applying { req with attempt := req.attempt + 1 } .token)
  | dropped (t : Call) (h : t.auth = .dropped) : Steps s t s .dropped

/-- Every step is one of `Steps`, and no request spawns another. -/
theorem act_steps (t : Call) (c : Input) (a : Act Section Call) (s : Auth.Shared)
    (h : t.act parse lib tr c = some a) :
    Steps parse lib tr s t ((transport parse lib tr).after a s)
        ((transport parse lib tr).heir a s) ∧
      (transport parse lib tr).spawned a s = [] := by
  cases t with
  | applying req auth =>
      -- Which credential is applied depends on the kind of the transport.
      have happly : Call.applyAct parse lib tr req auth c = some a := h
      unfold Call.applyAct at happly
      split at happly
      · rename_i key hkind
        cases happly
        exact ⟨.keyed req key hkind, rfl⟩
      · rename_i accessToken hkind
        cases happly
        exact ⟨.fixed req accessToken hkind, rfl⟩
      · rename_i due hkind
        cases happly
        exact ⟨.bearer req due hkind, rfl⟩
      · rename_i auth c _ _ _ hkind _
        rcases Option.map_eq_some_iff.mp happly with ⟨b, hb, rfl⟩
        exact ⟨.applying req auth _ _ hkind (act_moves parse auth c b s hb).1, rfl⟩
      · cases happly
  | sending req =>
      cases c <;> cases h
      · exact ⟨.unanswered req _, rfl⟩
      · exact ⟨.responded req _, rfl⟩
      · exact ⟨.dropped _ rfl, rfl⟩
  | reading req status =>
      cases c <;> cases h
      · exact ⟨.received req status _, rfl⟩
      · exact ⟨.dropped _ rfl, rfl⟩
  | refreshing req raw auth =>
      -- A request that refreshes does what its session call does.
      have hrefresh : (auth.act parse c).map (fun b =>
          (⟨.auth b.op, fun x => (Call.refreshed req raw (b.next x).1, [])⟩ :
            Act Section Call)) = some a := by
        cases c <;> exact h
      rcases Option.map_eq_some_iff.mp hrefresh with ⟨b, hb, rfl⟩
      exact ⟨.refreshing req raw auth _ _ (act_moves parse auth c b s hb).1, rfl⟩
  | sleeping req =>
      cases c <;> cases h
      · exact ⟨.slept req, rfl⟩
      · exact ⟨.dropped _ rfl, rfl⟩
  | returned req r => cases c <;> cases h
  | dropped => cases c <;> cases h

/-! ## Sessions -/

/-- The requests as calls of their session. -/
def sessions (p : Pool Auth.Shared Call) : Pool Auth.Shared Auth.Task :=
  { shared := p.shared, tasks := p.tasks.map Call.auth }

/-- The call neither holds the flag nor waits for who does, and wakes nobody, so
    another one may take its place. -/
def idle : Auth.Task → Bool
  | .refresh _ .lock => true
  | .refresh _ _ => false
  | _ => true

theorem idle_holds (u : Auth.Task) (h : idle u = true) : u.holds = false := by
  cases u with
  | refresh who pc => cases pc <;> first | rfl | cases h
  | _ => rfl

theorem idle_notifies (u : Auth.Task) (h : idle u = true) : u.notifies = false := by
  cases u with
  | refresh who pc => cases pc <;> first | rfl | cases h
  | _ => rfl

theorem idle_waiting (u : Auth.Task) (h : idle u = true) (who : Caller) (calls : Nat) :
    .refresh who (.waiting calls) ≠ u := by
  rintro rfl
  cases h

theorem bearer_auth (req : Request) (accessToken : String) (token : Nat) :
    (Call.bearer lib req accessToken token).auth = .dropped := by
  unfold Call.bearer
  split <;> rfl

theorem unanswered_auth (req : Request) (e : String) :
    (Call.unanswered tr req e).auth = .dropped := by
  unfold Call.unanswered
  split <;> rfl

/-- A response either ends the request's part in the session or makes it
    refresh. -/
theorem received_auth (req : Request) (status : Nat) (raw : Bytes) :
    idle (Call.received tr lib req status raw).auth = true := by
  unfold Call.received
  split
  · split
    · split <;> rfl
    · rfl
  · split
    · split <;> rfl
    · rfl

/-- What follows the session's call is that call, or one of the two is idle. -/
theorem applied_auth (req : Request) (auth auth' : Auth.Task) :
    (Call.applied req auth auth').auth = auth' ∨
      (idle auth' = true ∧ idle (Call.applied req auth auth').auth = true) := by
  unfold Call.applied
  split
  · exact Or.inl rfl
  · exact Or.inr ⟨rfl, rfl⟩
  · exact Or.inl rfl
  · exact Or.inl rfl

theorem refreshed_auth (req : Request) (raw : Bytes) (auth' : Auth.Task) :
    (Call.refreshed req raw auth').auth = auth' ∨
      (idle auth' = true ∧ idle (Call.refreshed req raw auth').auth = true) := by
  unfold Call.refreshed
  split
  · exact Or.inr ⟨rfl, rfl⟩
  · exact Or.inr ⟨rfl, rfl⟩
  · exact Or.inl rfl
  · exact Or.inl rfl

/-- Seen from the session, a step of a request is a step of its call, which may
    be over then and make room for another; or it is no step, and an idle call
    makes room for another. -/
theorem steps_auth (s s' : Auth.Shared) (t t' : Call) (h : Steps parse lib tr s t s' t') :
    (∃ u, Moves parse s t.auth s' u ∧
        (t'.auth = u ∨ (idle u = true ∧ idle t'.auth = true))) ∨
      (s' = s ∧ idle t.auth = true ∧ idle t'.auth = true) := by
  cases h with
  | keyed req key =>
      refine Or.inr ⟨rfl, rfl, ?_⟩
      split <;> rfl
  | fixed req accessToken => exact Or.inr ⟨rfl, rfl, by rw [bearer_auth]; rfl⟩
  | bearer req due => exact Or.inr ⟨rfl, rfl, by rw [bearer_auth]; rfl⟩
  | applying req auth auth' _ _ hm => exact Or.inl ⟨auth', hm, applied_auth req auth auth'⟩
  | unanswered req e => exact Or.inr ⟨rfl, rfl, by rw [unanswered_auth]; rfl⟩
  | responded => exact Or.inr ⟨rfl, rfl, rfl⟩
  | received req status raw => exact Or.inr ⟨rfl, rfl, received_auth lib tr req status raw⟩
  | refreshing req raw auth auth' _ hm => exact Or.inl ⟨auth', hm, refreshed_auth req raw auth'⟩
  | slept => exact Or.inr ⟨rfl, rfl, rfl⟩
  | dropped t hover => exact Or.inr ⟨rfl, by rw [hover]; rfl, rfl⟩

/-- A request holds the flag when its call does. -/
def Call.holds (t : Call) : Bool := t.auth.holds

theorem steps_flagStep (s s' : Auth.Shared) (t t' : Call) (h : Steps parse lib tr s t s' t') :
    FlagStep s.inner.refreshing s'.inner.refreshing t.holds t'.holds := by
  unfold Call.holds
  rcases steps_auth parse lib tr s s' t t' h with ⟨u, hm, hu | ⟨hu, hu'⟩⟩ | ⟨rfl, ht, ht'⟩
  · rw [hu]
    exact moves_flagStep parse s s' t.auth u hm
  · rw [idle_holds _ hu', ← idle_holds u hu]
    exact moves_flagStep parse s s' t.auth u hm
  · exact .keep rfl fun hhold => absurd hhold (by rw [idle_holds _ ht']; rintro ⟨⟩)

/-- A request comes in with nothing under way. -/
theorem isCall_auth (t : Call) (h : t.isCall = true) :
    ∃ opts, t = .applying { opts := opts } .token := by
  cases t with
  | applying req auth =>
      cases auth <;> first | exact ⟨req.opts, by rw [← eq_of_beq h]⟩ | cases h
  | _ => cases h

variable (initial : ClientAuth)

theorem started_pool (p : Pool Auth.Shared Call) (h : Started initial p) :
    p.shared.inner.refreshing = false ∧ p.shared.stored = [] ∧ p.tasks = [] := by
  rcases h with ⟨now, hnew, htasks⟩
  rcases Auth.started_pool initial ⟨p.shared, []⟩ ⟨now, hnew, rfl⟩ with ⟨hflag, hstored, _⟩
  exact ⟨hflag, hstored, htasks⟩

/-- One request at most is between setting the flag and clearing it. -/
theorem requests_holders (p : Pool Auth.Shared Call)
    (h : (transport parse lib tr).Reach (Started initial)
      ((transport parse lib tr).whenever fun _ _ _ _ => True) p) :
    Machine.Exclusive (fun s => s.inner.refreshing) Call.holds p := by
  refine (transport parse lib tr).reach_exclusive _ _ (Started initial) _ ?_ ?_ ?_ p h
  · intro p hp t ht
    rw [(started_pool initial p hp).2.2] at ht
    cases ht
  · intro s t hent
    rcases isCall_auth t hent with ⟨opts, rfl⟩
    rfl
  · intro p i c t a _ ha _
    rcases act_steps parse lib tr t c a p.shared ha with ⟨hsteps, hspawned⟩
    refine ⟨steps_flagStep parse lib tr _ _ _ _ hsteps, ?_⟩
    rw [hspawned]
    rintro v ⟨⟩

/-- A step keeps the session's callers awake, if it makes its `Notified` in
    time. -/
theorem requests_awake (p : Pool Auth.Shared Call) (i : Nat) (t t' : Call) (s' : Auth.Shared)
    (ht : p.tasks[i]? = some t) (h : Steps parse lib tr p.shared t s' t')
    (hparks : ∀ who, t.auth = .refresh who .gap →
      p.shared.inner.refreshing = true ∨ ∃ u ∈ p.tasks, u.auth.notifies = true)
    (hI : Awake (sessions p)) : Awake (sessions ⟨s', p.tasks.set i t'⟩) := by
  have ht₀ : (sessions p).tasks[i]? = some t.auth := by
    show (p.tasks.map Call.auth)[i]? = _
    rw [List.getElem?_map, ht, Option.map_some]
  -- Seen as sessions, the pool with a call replaced is the pool with its session replaced.
  have hset : ∀ u : Call, (p.tasks.set i u).map Call.auth = (sessions p).tasks.set i u.auth :=
    fun u => List.map_set
  have hparks' : ∀ who, t.auth = .refresh who .gap → (sessions p).shared.inner.refreshing = true ∨
      ∃ u ∈ (sessions p).tasks, u.notifies = true := by
    intro who hgap
    rcases hparks who hgap with hflag | ⟨u, hu, hnotifies⟩
    · exact Or.inl hflag
    · exact Or.inr ⟨u.auth, List.mem_map_of_mem hu, hnotifies⟩
  have hi : i < (sessions p).tasks.length := (List.getElem?_eq_some_iff.mp ht₀).1
  show Awake ⟨s', (p.tasks.set i t').map Call.auth⟩
  rw [hset]
  rcases steps_auth parse lib tr _ _ _ _ h with ⟨u, hm, hu⟩ | ⟨rfl, hidle, hidle'⟩
  · have hnext := moves_awake parse (sessions p) i t.auth u s' ht₀ hm hparks' hI
    rcases hu with hu | ⟨hu, hu'⟩
    · rw [hu]
      exact hnext
    · -- The call is over, and another one takes its place.
      have hagain := awake_recast ⟨s', (sessions p).tasks.set i u⟩ i u t'.auth
        (List.getElem?_set_self hi) (idle_notifies u hu) (idle_waiting _ hu') hnext
      rw [show ((sessions p).tasks.set i u).set i t'.auth = (sessions p).tasks.set i t'.auth from
        List.set_set ..] at hagain
      exact hagain
  · exact awake_recast (sessions p) i t.auth t'.auth ht₀ (idle_notifies _ hidle)
      (idle_waiting _ hidle') hI

end Requests

end Http

end Pickpoint
