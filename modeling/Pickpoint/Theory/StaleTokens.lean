import Pickpoint.Theory.Requests

/-!
# Stale Tokens

How many refreshes a stale token costs.

Requests that were refused with one token, or found it due, are meant to share
one refresh. What they share is the flag, not the token: a request that comes to
the flag after the refresh has ended posts again, with a refresh token that
belongs to a newer pair (`refused_late`).

When every request comes to the flag while the token it comes for is still the
session's, and not between the store of a new pair and the end of the refresh
that stored it (`comesInTime`), each token costs exactly one refresh, and every
request that came for it goes out with a newer one (`reach_oneRefresh`).

## Main definitions

* `notePost`: The tokens on whose account a refresh was posted.
* `goesWell`: Refreshes succeed, and their tokens are accepted.
* `comesInTime`: Who comes to the flag comes in time.
* `OneRefresh`: One refresh for each token, and everybody goes on.
* `Paid`: What holds along a run.

## Theorems

* `moves_onAccount`: What a step of the session makes of that.
* `step_paid`: What a step of a request makes of it.
* `reach_oneRefresh`: One refresh for each stale token.
* `refused_late`: Not so in general.
-/

namespace Pickpoint

namespace Http

open Interleave Auth

/-! ## One refresh -/

/-- The token a call of the session refreshes on account of. -/
def accountOf : Auth.Task → Option Nat
  | .refresh who _ => some who.since
  | _ => none

/-- The call comes to the flag next. -/
def comesFor : Auth.Task → Option Nat
  | .refresh who .lock => some who.since
  | _ => none

/-- The call has stored its pair, or failed to, and clears the flag next. -/
def clears : Auth.Task → Bool
  | .refresh _ (.clear _) => true
  | _ => false

/-- The request of a call. -/
def Call.accounts : Call → List Nat
  | .applying req _ | .sending req | .reading req _ | .refreshing req _ _ | .sleeping req
  | .returned req _ => req.accounts
  | .dropped => []

/-- The token a request was sent with last, once its auth is applied. -/
def Call.sent : Call → Option (Option Nat)
  | .sending req | .reading req _ | .sleeping req | .returned req _ => some req.sentWith
  | _ => none

/-- A call that takes the flag posts a refresh. -/
def postNote : Auth.Task → Auth.Task → List Nat → List Nat
  | .refresh who .lock, .refresh _ (.posting _), posts => who.since :: posts
  | _, _, posts => posts

/-- One refresh for each token, and everybody who came for it goes on: a request is
    sent again with a token newer than all it came for. -/
structure OneRefresh (p : Pool Auth.Shared Call) (posts : List Nat) : Prop where
  /-- No token costs two refreshes. -/
  once : posts.Nodup
  /-- A token that a request has come for costs one. -/
  posted : ∀ t ∈ p.tasks, ∀ n ∈ t.accounts, n ∈ posts ∨ comesFor t.auth = some n
  /-- A request goes out, and ends, with a token newer than all it came for. -/
  retried : ∀ t ∈ p.tasks, ∀ last, t.sent = some last → ∀ n ∈ t.accounts,
    ∃ m, last = some m ∧ n < m
  /-- A refresh that others wait for is under way, or has woken them. -/
  goesOn : ∀ t ∈ p.tasks, ∀ who calls, t.auth = .refresh who (.waiting calls) →
    (∃ u ∈ p.tasks, u.holds = true) ∨ calls < p.shared.notifyCalls ∨
      ∃ u ∈ p.tasks, u.auth.notifies = true

section Requests

variable (parse : Bytes → Except String ClientAuth) (lib : Lib) (maxRetries : Nat)

/-- The requests of a client whose session refreshes. -/
abbrev clientRequests : Machine Auth.Shared Call Input :=
  transport parse lib { auth := .clientAuth, maxRetries := maxRetries }

def notePost (p : Pool Auth.Shared Call) (_ : Nat) (t : Call) (a : Act Section Call)
    (posts : List Nat) : List Nat :=
  postNote t.auth ((clientRequests parse lib maxRetries).heir a p.shared).auth posts

/-- A refresh that goes well has the flag, or clears it with a pair stored. -/
def onCourse : Auth.Task → Bool
  | .refresh _ (.posting _) | .refresh _ (.reading _) | .refresh _ (.store _)
  | .refresh _ (.clear (.ok _)) | .refresh _ (.notify (.ok _)) => true
  | _ => false

/-- A new pair's access token can be sent, and is accepted. -/
def accepted : Call → Bool
  | .reading req status => !(status == 401 && req.authRetried)
  | t =>
    match t.auth with
    | .refresh _ (.store pair) => lib.headerOk ("Bearer " ++ pair.accessToken)
    | _ => true

/-- No refresh fails or is dropped, and new tokens are accepted. -/
def goesWell (p : Pool Auth.Shared Call) (_ : Nat) (t : Call) (a : Act Section Call) : Bool :=
  (!t.holds || onCourse ((clientRequests parse lib maxRetries).heir a p.shared).auth) &&
    accepted lib t

/-- Whoever comes to the flag comes for the session's token, and not while a
    request that has stored a pair is about to clear the flag; whoever finds it
    set makes its `Notified` in time. -/
def comesInTime (p : Pool Auth.Shared Call) (_ : Nat) (t : Call) (_ : Act Section Call) : Bool :=
  match t.auth with
  | .refresh who .lock =>
    who.since == p.shared.stored.length && !p.tasks.any fun u => clears u.auth
  | .refresh _ .gap => p.shared.inner.refreshing || p.tasks.any fun u => u.auth.notifies
  | _ => true

/-! ## What a step makes of it -/

/-- What a call of the session knows of the token it refreshes on account of, when
    `stored` pairs have been stored and `posts` refreshes were posted. -/
def onAccount (stored posts : Nat) : Auth.Task → Prop
  | .refresh who (.posting _) | .refresh who (.reading _) | .refresh who (.store _) =>
    who.since = stored
  | .refresh who (.clear r) | .refresh who (.notify r) => r = .ok () ∧ who.since < stored
  | .refresh who .gap | .refresh who (.waiting _) | .refresh who .recheck => who.since < posts
  | .tokenRead (some since) => since < stored
  | .returned (.token (.error _)) | .returned (.unauthorized false) => False
  | _ => True

/-- What a request knows of the tokens it came for. -/
def Call.settled (stored : Nat) : Call → Prop
  | .applying req auth => ∀ n ∈ req.accounts, n < stored ∨ accountOf auth = some n
  | .refreshing req _ auth =>
    (∃ since pc, auth = .refresh (.unauthorized since) pc) ∧
      ∀ n ∈ req.accounts, n < stored ∨ accountOf auth = some n
  | .sending req | .reading req _ | .sleeping req =>
    ∃ m, req.sentWith = some m ∧ m ≤ stored ∧ ∀ n ∈ req.accounts, n < m
  | .returned req _ => ∀ n ∈ req.accounts, ∃ m, req.sentWith = some m ∧ m ≤ stored ∧ n < m
  | .dropped => True

/-- An idle call does not refresh. -/
theorem idle_onCourse (u : Auth.Task) (h : idle u = true) : onCourse u = false := by
  cases u with
  | refresh who pc => cases pc <;> first | rfl | cases h
  | _ => rfl

/-- A request on course follows a call on course. -/
theorem onCourse_back (u v : Auth.Task) (huv : v = u ∨ (idle u = true ∧ idle v = true))
    (h : onCourse v = true) : onCourse u = true := by
  rcases huv with rfl | ⟨_, hidle⟩
  · exact h
  · cases (idle_onCourse v hidle).symm.trans h

/-- Later on it knows no less. -/
theorem onAccount_mono (stored stored' posts posts' : Nat) (u : Auth.Task) (hp : posts ≤ posts')
    (hs : stored ≤ stored') (hkeep : u.mayStore = true → stored' = stored)
    (h : onAccount stored posts u) : onAccount stored' posts' u := by
  cases u with
  | refresh who pc =>
      cases pc with
      -- Before the store the number of pairs is that of the tokens posted.
      | posting => exact (hkeep rfl).symm ▸ h
      | reading => exact (hkeep rfl).symm ▸ h
      | store => exact (hkeep rfl).symm ▸ h
      -- After it the bounds only get weaker.
      | clear => exact ⟨h.1, Nat.lt_of_lt_of_le h.2 hs⟩
      | notify => exact ⟨h.1, Nat.lt_of_lt_of_le h.2 hs⟩
      | gap => exact Nat.lt_of_lt_of_le h hp
      | waiting => exact Nat.lt_of_lt_of_le h hp
      | recheck => exact Nat.lt_of_lt_of_le h hp
      | lock => trivial
  | tokenRead due =>
      cases due with
      | some since => exact Nat.lt_of_lt_of_le h hs
      | none => trivial
  | returned r =>
      cases r with
      | token r => cases r <;> exact h
      | unauthorized ok => cases ok <;> exact h
  | token => trivial
  | dropped => trivial

theorem settled_mono (stored stored' : Nat) (t : Call) (hs : stored ≤ stored')
    (h : t.settled stored) : t.settled stored' := by
  -- A token is accounted for by the one that replaced it, or by the call itself.
  have hauth : ∀ (ns : List Nat) (u : Auth.Task),
      (∀ n ∈ ns, n < stored ∨ accountOf u = some n) →
      ∀ n ∈ ns, n < stored' ∨ accountOf u = some n := by
    intro ns u hold n hn
    rcases hold n hn with hlt | hacc
    · exact Or.inl (Nat.lt_of_lt_of_le hlt hs)
    · exact Or.inr hacc
  cases t with
  | applying req auth => exact hauth _ _ h
  | refreshing req raw auth => exact ⟨h.1, hauth _ _ h.2⟩
  | sending req => exact h.imp fun m hm => ⟨hm.1, Nat.le_trans hm.2.1 hs, hm.2.2⟩
  | reading req => exact h.imp fun m hm => ⟨hm.1, Nat.le_trans hm.2.1 hs, hm.2.2⟩
  | sleeping req => exact h.imp fun m hm => ⟨hm.1, Nat.le_trans hm.2.1 hs, hm.2.2⟩
  | returned => exact fun n hn => (h n hn).imp fun m hm => ⟨hm.1, Nat.le_trans hm.2.1 hs, hm.2.2⟩
  | dropped => trivial

/-- What a refresh that ended in `Ok` leaves. -/
theorem done_onAccount (stored posts : Nat) (who : Caller) (h : who.since < stored) :
    onAccount stored posts (who.done (.ok ())) := by
  cases who with
  | token since => exact h
  | unauthorized since => trivial

/-- What a step of the session tells its call: a token it comes for is still the
    session's, so a refresh it finds under way is for that one, and a flag that
    is free means that every refresh posted has stored its pair. -/
theorem moves_onAccount (s s' : Auth.Shared) (t u : Auth.Task) (posts posts' : Nat)
    (h : Moves parse s t s' u)
    (hlock : ∀ who, t = .refresh who .lock → who.since = s.stored.length ∧
      (s.inner.refreshing = true → s.stored.length < posts))
    (hfree : s.inner.refreshing = false → posts = s.stored.length)
    (hcourse : t.holds = true → onCourse u = true) (hp : posts ≤ posts')
    (hI : onAccount s.stored.length posts t) :
    onAccount s'.stored.length posts' u ∧
      ∀ n, accountOf t = some n → u = .dropped ∨ accountOf u = some n ∨ n < s'.stored.length := by
  cases h with
  | drop => exact ⟨trivial, fun _ _ => Or.inl rfl⟩
  | due => exact ⟨trivial, by rintro n ⟨⟩⟩
  | current => exact ⟨trivial, by rintro n ⟨⟩⟩
  | took who hflag => exact ⟨(hlock who rfl).1, fun n hn => Or.inr (Or.inl hn)⟩
  | busy who hflag =>
      refine ⟨?_, fun n hn => Or.inr (Or.inl hn)⟩
      rcases hlock who rfl with ⟨hsince, hlt⟩
      show who.since < posts'
      rw [hsince]
      exact Nat.lt_of_lt_of_le (hlt hflag) hp
  -- A refresh that fails is not on course.
  | unanswered => cases hcourse rfl
  | refused => cases hcourse rfl
  | answered => exact ⟨hI, fun n hn => Or.inr (Or.inl hn)⟩
  | granted => exact ⟨hI, fun n hn => Or.inr (Or.inl hn)⟩
  | stored who pair now =>
      exact ⟨⟨rfl, Nat.lt_succ_of_le (Nat.le_of_eq hI)⟩, fun n hn => Or.inr (Or.inl hn)⟩
  | cleared who r => exact ⟨hI, fun n hn => Or.inr (Or.inl hn)⟩
  | notified who r =>
      rcases hI with ⟨rfl, hlt⟩
      refine ⟨done_onAccount _ _ who hlt, fun n hn => Or.inr (Or.inr ?_)⟩
      cases hn
      exact hlt
  | parked => exact ⟨Nat.lt_of_lt_of_le hI hp, fun n hn => Or.inr (Or.inl hn)⟩
  | asleep => exact ⟨Nat.lt_of_lt_of_le hI hp, fun n hn => Or.inr (Or.inl hn)⟩
  | woken => exact ⟨Nat.lt_of_lt_of_le hI hp, fun n hn => Or.inr (Or.inl hn)⟩
  | again => exact ⟨trivial, fun n hn => Or.inr (Or.inl hn)⟩
  | settled who hflag =>
      have hlt : who.since < s.stored.length := hfree hflag ▸ hI
      refine ⟨done_onAccount _ _ who hlt, fun n hn => Or.inr (Or.inr ?_)⟩
      cases hn
      exact hlt
  | read => exact ⟨trivial, by rintro n ⟨⟩⟩

/-- A request that found its token due, or went on, still knows the tokens it
    came for. -/
theorem applied_paid (stored stored' posts : Nat) (req : Request) (auth u : Auth.Task)
    (hs : stored ≤ stored') (hI : (Call.applying req auth).settled stored)
    (hu : onAccount stored' posts u)
    (hacc : ∀ n, accountOf auth = some n → u = .dropped ∨ accountOf u = some n ∨ n < stored') :
    onAccount stored' posts (Call.applied req auth u).auth ∧
      (Call.applied req auth u).settled stored' := by
  -- Where the request applies its auth, before and after.
  have hkeep : u ≠ .dropped → (Call.applying req u).settled stored' := by
    intro hlive n hn
    rcases hI n hn with hlt | hold
    · exact Or.inl (Nat.lt_of_lt_of_le hlt hs)
    · rcases hacc n hold with hdrop | hsame | hlt
      · exact absurd hdrop hlive
      · exact Or.inr hsame
      · exact Or.inl hlt
  unfold Call.applied
  split
  · rename_i who pc
    refine ⟨hu, fun n hn => ?_⟩
    rcases List.mem_cons.mp hn with rfl | hn
    · exact Or.inr rfl
    · exact hkeep (by rintro ⟨⟩) n hn
  · exact absurd hu id
  · exact ⟨trivial, trivial⟩
  · rename_i hdropped _
    exact ⟨hu, hkeep hdropped⟩

/-- What becomes of a call that refreshes after a `401`. -/
theorem moves_unauthorized (s s' : Auth.Shared) (since : Nat) (pc : RefreshPc) (u : Auth.Task)
    (h : Moves parse s (.refresh (.unauthorized since) pc) s' u) :
    (∃ pc', u = .refresh (.unauthorized since) pc') ∨ (∃ ok, u = .returned (.unauthorized ok)) ∨
      u = .dropped := by
  cases h with
  | drop => exact Or.inr (Or.inr rfl)
  | notified who r => exact Or.inr (Or.inl ⟨_, rfl⟩)
  | settled => exact Or.inr (Or.inl ⟨_, rfl⟩)
  | _ => exact Or.inl ⟨_, rfl⟩

/-- A refresh that ended well lets the request go out again. -/
theorem refreshed_paid (s s' : Auth.Shared) (posts : Nat) (req : Request) (raw : Bytes)
    (auth u : Auth.Task) (hm : Moves parse s auth s' u)
    (hs : s.stored.length ≤ s'.stored.length)
    (hI : (Call.refreshing req raw auth).settled s.stored.length)
    (hu : onAccount s'.stored.length posts u)
    (hacc : ∀ n, accountOf auth = some n →
      u = .dropped ∨ accountOf u = some n ∨ n < s'.stored.length) :
    onAccount s'.stored.length posts (Call.refreshed req raw u).auth ∧
      (Call.refreshed req raw u).settled s'.stored.length := by
  rcases hI with ⟨⟨since, pc, rfl⟩, hold⟩
  -- What the request came for is replaced, or its session call still comes for it.
  have hkeep : ∀ n ∈ req.accounts, u = .dropped ∨ accountOf u = some n ∨ n < s'.stored.length := by
    intro n hn
    rcases hold n hn with hlt | hsame
    · exact Or.inr (Or.inr (Nat.lt_of_lt_of_le hlt hs))
    · exact hacc n hsame
  rcases moves_unauthorized parse s s' since pc u hm with ⟨pc', rfl⟩ | ⟨ok, rfl⟩ | rfl
  · refine ⟨hu, ⟨since, pc', rfl⟩, fun n hn => ?_⟩
    rcases hkeep n hn with hdrop | hsame | hlt
    · cases hdrop
    · exact Or.inr hsame
    · exact Or.inl hlt
  · -- The refresh has returned, and what the request came for is replaced.
    cases ok with
    | false => exact absurd hu id
    | true =>
        refine ⟨trivial, fun n hn => Or.inl ?_⟩
        rcases hkeep n hn with hdrop | hsame | hlt
        · cases hdrop
        · cases hsame
        · exact hlt
  · exact ⟨trivial, trivial⟩

/-- A request that reads its token goes out with it. -/
theorem bearer_paid (stored posts : Nat) (req : Request) (accessToken : String)
    (hheader : 0 < stored → lib.headerOk ("Bearer " ++ accessToken) = true)
    (hI : ∀ n ∈ req.accounts, n < stored) :
    onAccount stored posts (Call.bearer lib req accessToken stored).auth ∧
      (Call.bearer lib req accessToken stored).settled stored := by
  unfold Call.bearer
  by_cases hok : lib.headerOk ("Bearer " ++ accessToken) = true
  · rw [if_pos hok]
    exact ⟨trivial, stored, rfl, Nat.le_refl _, hI⟩
  · -- Only the initial token can be bad, and nobody came for an older one.
    rw [if_neg hok]
    refine ⟨trivial, fun n hn => ?_⟩
    exact absurd (hheader (Nat.lt_of_le_of_lt (Nat.zero_le n) (hI n hn))) hok

/-- A response ends the request, or makes it come for the token it was sent
    with. -/
theorem received_paid (stored posts : Nat) (req : Request) (status : Nat) (raw : Bytes)
    (hI : (Call.reading req status).settled stored) :
    onAccount stored posts
        (Call.received { auth := .clientAuth, maxRetries := maxRetries } lib req status raw).auth ∧
      (Call.received { auth := .clientAuth, maxRetries := maxRetries } lib req status raw).settled
        stored := by
  rcases hI with ⟨m, hsent, hle, hlt⟩
  have hover : ∀ r, (Call.returned req r).settled stored := fun r n hn => ⟨m, hsent, hle, hlt n hn⟩
  unfold Call.received
  split
  · split
    · rw [hsent, Option.getD_some]
      -- It comes for the token it was sent with; those before are settled.
      refine ⟨trivial, ⟨m, .lock, rfl⟩, fun n hn => ?_⟩
      rcases List.mem_cons.mp hn with rfl | hn
      · exact Or.inr rfl
      · exact Or.inl (Nat.lt_of_lt_of_le (hlt n hn) hle)
    · exact ⟨trivial, hover _⟩
  · split
    · split
      · exact ⟨trivial, hover _⟩
      · exact ⟨trivial, m, hsent, hle, hlt⟩
    · exact ⟨trivial, hover _⟩

/-- What a step makes of what its own request knows. -/
theorem steps_paid (s s' : Auth.Shared) (t t' : Call) (posts posts' : Nat)
    (h : Steps parse lib { auth := .clientAuth, maxRetries := maxRetries } s t s' t')
    (hlock : ∀ who, t.auth = .refresh who .lock → who.since = s.stored.length ∧
      (s.inner.refreshing = true → s.stored.length < posts))
    (hfree : s.inner.refreshing = false → posts = s.stored.length)
    (hcourse : t.holds = true → onCourse t'.auth = true) (hp : posts ≤ posts')
    (hheader : 0 < s.stored.length → lib.headerOk ("Bearer " ++ s.inner.accessToken) = true)
    (hacc : onAccount s.stored.length posts t.auth) (hI : t.settled s.stored.length) :
    onAccount s'.stored.length posts' t'.auth ∧ t'.settled s'.stored.length := by
  cases h with
  | keyed _ _ hkind => cases hkind
  | fixed _ _ hkind => cases hkind
  -- The token is read when no refresh stands between, so all it came for is older.
  | bearer req due =>
      refine bearer_paid lib _ posts' req _ hheader fun n hn => ?_
      rcases hI n hn with hlt | hsame
      · exact hlt
      · cases hsame
  -- Both ways of refreshing go through the session, which keeps the account.
  | applying req auth u _ _ hm =>
      have hon : auth.holds = true → onCourse u = true := fun hhold =>
        onCourse_back u _ (applied_auth req auth u) (hcourse hhold)
      rcases moves_onAccount parse s s' auth u posts posts' hm hlock hfree hon hp hacc with
        ⟨hu, hkeep⟩
      exact applied_paid _ _ posts' req auth u (moves_stored_le parse _ _ _ _ hm) hI hu hkeep
  -- A request that is sent again keeps its account.
  | unanswered req e =>
      rcases hI with ⟨m, hsent, hle, hlt⟩
      unfold Call.unanswered
      split
      · exact ⟨trivial, fun n hn => ⟨m, hsent, hle, hlt n hn⟩⟩
      · exact ⟨trivial, m, hsent, hle, hlt⟩
  | responded => exact ⟨trivial, hI⟩
  | received req status raw => exact received_paid lib maxRetries _ posts' req status raw hI
  | refreshing req raw auth u _ hm =>
      have hon : auth.holds = true → onCourse u = true := fun hhold =>
        onCourse_back u _ (refreshed_auth req raw u) (hcourse hhold)
      rcases moves_onAccount parse s s' auth u posts posts' hm hlock hfree hon hp hacc with
        ⟨hu, hkeep⟩
      exact refreshed_paid parse s s' posts' req raw auth u hm
        (moves_stored_le parse _ _ _ _ hm) hI hu hkeep
  | slept req =>
      rcases hI with ⟨m, hsent, hle, hlt⟩
      exact ⟨trivial, fun n hn => Or.inl (Nat.lt_of_lt_of_le (hlt n hn) hle)⟩
  | dropped => exact ⟨trivial, trivial⟩

/-- A token a request came for has been replaced, unless its call still refreshes
    on account of it. -/
theorem settled_accounts (stored : Nat) (t : Call) (h : t.settled stored) (n : Nat)
    (hn : n ∈ t.accounts) : n < stored ∨ accountOf t.auth = some n := by
  have hsent : ∀ req : Request, n ∈ req.accounts →
      (∃ m, req.sentWith = some m ∧ m ≤ stored ∧ ∀ n ∈ req.accounts, n < m) → n < stored := by
    rintro req hn ⟨m, _, hle, hlt⟩
    exact Nat.lt_of_lt_of_le (hlt n hn) hle
  cases t with
  | applying req auth => exact h n hn
  | refreshing req raw auth => exact h.2 n hn
  | sending req => exact Or.inl (hsent req hn h)
  | reading req => exact Or.inl (hsent req hn h)
  | sleeping req => exact Or.inl (hsent req hn h)
  | returned req =>
      rcases h n hn with ⟨m, _, hle, hlt⟩
      exact Or.inl (Nat.lt_of_lt_of_le hlt hle)
  | dropped => cases hn

/-- A request that went out last went out with a token newer than all it came
    for. -/
theorem settled_sent (stored : Nat) (t : Call) (h : t.settled stored) (last : Option Nat)
    (hlast : t.sent = some last) (n : Nat) (hn : n ∈ t.accounts) : ∃ m, last = some m ∧ n < m := by
  cases t with
  | sending req =>
      cases hlast
      exact h.imp fun m hm => ⟨hm.1, hm.2.2 n hn⟩
  | reading req =>
      cases hlast
      exact h.imp fun m hm => ⟨hm.1, hm.2.2 n hn⟩
  | sleeping req =>
      cases hlast
      exact h.imp fun m hm => ⟨hm.1, hm.2.2 n hn⟩
  | returned req =>
      cases hlast
      exact (h n hn).imp fun m hm => ⟨hm.1, hm.2.2⟩
  | _ => cases hlast

/-- A refresh on account of a token was posted, is under way for the session's
    own, or is about to look at the flag. -/
theorem onAccount_posted (stored posts : Nat) (u : Auth.Task) (n : Nat)
    (h : onAccount stored posts u) (hfor : accountOf u = some n) (hle : stored ≤ posts) :
    n < posts ∨ (u.mayStore = true ∧ n = stored) ∨ comesFor u = some n := by
  cases u with
  | refresh who pc =>
      cases hfor
      cases pc with
      -- At the lock nothing was posted for it, and from the gap on it was.
      | lock => exact Or.inr (Or.inr rfl)
      | posting => exact Or.inr (Or.inl ⟨rfl, h⟩)
      | reading => exact Or.inr (Or.inl ⟨rfl, h⟩)
      | store => exact Or.inr (Or.inl ⟨rfl, h⟩)
      | clear => exact Or.inl (Nat.lt_of_lt_of_le h.2 hle)
      | notify => exact Or.inl (Nat.lt_of_lt_of_le h.2 hle)
      | gap => exact Or.inl h
      | waiting => exact Or.inl h
      | recheck => exact Or.inl h
  | _ => cases hfor

/-! ## The posts -/

theorem postNote_idle (a u : Auth.Task) (posts : List Nat) (h : idle u = true) :
    postNote a u posts = posts := by
  unfold postNote
  split
  · cases h
  · rfl

theorem idle_mayStore (u : Auth.Task) (h : idle u = true) : u.mayStore = false := by
  cases u with
  | refresh who pc => cases pc <;> first | rfl | cases h
  | _ => rfl

theorem free_mayStore (u : Auth.Task) (h : u.holds = false) : u.mayStore = false := by
  by_contra hmay
  rw [Bool.not_eq_false] at hmay
  cases (mayStore_holds u hmay).symm.trans h

/-- A step of a session posts a refresh and takes the flag, stores a pair, or
    does neither. -/
inductive Posting (s s' : Auth.Shared) (t u : Auth.Task) (posts : List Nat) : Prop where
  | same (hnote : postNote t u posts = posts) (hlen : s'.stored.length = s.stored.length)
      (hmay : (t.holds = true → onCourse u = true) → u.mayStore = t.mayStore)
  | took (who : Caller) (hlock : t = .refresh who .lock)
      (hnote : postNote t u posts = who.since :: posts) (hfree : s.inner.refreshing = false)
      (hlen : s'.stored.length = s.stored.length) (hmay : u.mayStore = true)
  | stored (hnote : postNote t u posts = posts) (hlen : s'.stored.length = s.stored.length + 1)
      (hmay : t.mayStore = true) (hmay' : u.mayStore = false)

theorem moves_posting (s s' : Auth.Shared) (t u : Auth.Task) (posts : List Nat)
    (h : Moves parse s t s' u) : Posting s s' t u posts := by
  cases h with
  | took who hflag => exact .took who rfl rfl hflag rfl rfl
  | stored => exact .stored rfl rfl rfl rfl
  | drop t =>
      refine .same (postNote_idle t _ posts rfl) rfl fun hcourse => ?_
      rcases hhold : t.holds with _ | _
      · exact (free_mayStore t hhold).symm
      · cases hcourse hhold
  | unanswered => exact .same rfl rfl fun hcourse => by cases hcourse rfl
  | refused => exact .same rfl rfl fun hcourse => by cases hcourse rfl
  | notified who r => exact .same rfl rfl fun _ => by cases who <;> cases r <;> rfl
  | settled who => exact .same rfl rfl fun _ => by cases who <;> rfl
  | _ => exact .same rfl rfl fun _ => rfl

/-- It does not matter which idle call follows. -/
theorem posting_recast (s s' : Auth.Shared) (t u v : Auth.Task) (posts : List Nat)
    (hu : idle u = true) (hv : idle v = true) (h : Posting s s' t u posts) :
    Posting s s' t v posts := by
  cases h with
  | same _ hlen _ =>
      refine .same (postNote_idle t v posts hv) hlen fun hcourse => ?_
      rw [idle_mayStore v hv]
      rcases hhold : t.holds with _ | _
      · exact (free_mayStore t hhold).symm
      · cases (hcourse hhold).symm.trans (idle_onCourse v hv)
  | took _ _ _ _ _ hmay => cases hmay.symm.trans (idle_mayStore u hu)
  | stored _ hlen hmay _ =>
      exact .stored (postNote_idle t v posts hv) hlen hmay (idle_mayStore v hv)

/-- Pairs and posts only grow in number. -/
theorem posting_mono (s s' : Auth.Shared) (t u : Auth.Task) (posts : List Nat)
    (h : Posting s s' t u posts) :
    s.stored.length ≤ s'.stored.length ∧ posts.length ≤ (postNote t u posts).length := by
  cases h with
  | same hnote hlen => exact ⟨Nat.le_of_eq hlen.symm, Nat.le_of_eq (congrArg _ hnote.symm)⟩
  | took _ _ hnote _ hlen =>
      refine ⟨Nat.le_of_eq hlen.symm, ?_⟩
      rw [hnote]
      exact Nat.le_succ _
  | stored hnote hlen => exact ⟨hlen ▸ Nat.le_succ _, Nat.le_of_eq (congrArg _ hnote.symm)⟩

variable (tr : Transport)

theorem steps_posting (s s' : Auth.Shared) (t t' : Call) (posts : List Nat)
    (h : Steps parse lib tr s t s' t') : Posting s s' t.auth t'.auth posts := by
  rcases steps_auth parse lib tr s s' t t' h with ⟨u, hm, hu | ⟨hu, hu'⟩⟩ | ⟨rfl, ht, ht'⟩
  · rw [hu]
    exact moves_posting parse s s' t.auth u posts hm
  · exact posting_recast s s' t.auth u t'.auth posts hu hu' (moves_posting parse s s' _ u posts hm)
  · exact .same (postNote_idle _ _ _ ht') rfl fun _ =>
      (idle_mayStore _ ht').trans (idle_mayStore _ ht).symm

/-- A request that refreshes on course holds the flag until it clears it. -/
theorem steps_course (s s' : Auth.Shared) (t t' : Call) (h : Steps parse lib tr s t s' t')
    (hcourse : t.holds = true → onCourse t'.auth = true) (hflag : s'.inner.refreshing = true) :
    t'.holds = true ∨ (t.holds = false ∧ s.inner.refreshing = true) := by
  unfold Call.holds at hcourse ⊢
  rcases steps_auth parse lib tr s s' t t' h with ⟨u, hm, hu⟩ | ⟨rfl, ht, _⟩
  -- Whoever is on course does not give the flag up.
  · have hback := fun hhold => onCourse_back u _ hu (hcourse hhold)
    have hsame : t'.auth.holds = u.holds := by
      rcases hu with hu | ⟨hu, hu'⟩
      · rw [hu]
      · rw [idle_holds _ hu, idle_holds _ hu']
    rw [hsame]
    rcases hhold : t.auth.holds with _ | _
    · rcases moves_flag parse _ _ _ _ hm with hkept | ⟨_, htook⟩ | ⟨hheld, _⟩
      · exact Or.inr ⟨rfl, hkept.symm.trans hflag⟩
      · exact Or.inl htook
      · cases hhold.symm.trans hheld
    · rcases moves_holds parse _ _ _ _ hm hhold with hkept | hclear | rfl
      · exact Or.inl hkept
      · cases hclear.symm.trans hflag
      · cases hback hhold
  · exact Or.inr ⟨idle_holds _ ht, hflag⟩

/-- The access token changes when a pair is stored. -/
theorem steps_header (s s' : Auth.Shared) (t t' : Call) (h : Steps parse lib tr s t s' t') :
    (s'.inner.accessToken = s.inner.accessToken ∧ s'.stored.length = s.stored.length) ∨
      ∃ who pair, t.auth = .refresh who (.store pair) ∧
        s'.inner.accessToken = pair.accessToken := by
  rcases steps_auth parse lib tr s s' t t' h with ⟨u, hm, _⟩ | ⟨rfl, _, _⟩
  · generalize t.auth = a at hm ⊢
    cases hm with
    | stored who pair now => exact Or.inr ⟨who, pair, rfl, rfl⟩
    | _ => exact Or.inl ⟨rfl, rfl⟩
  · exact Or.inl ⟨rfl, rfl⟩

/-! ## The run -/

/-- A request may still get a pair when its call may. -/
def Call.mayStore (t : Call) : Bool := t.auth.mayStore

/-- Every token up to the session's has been posted for once, and the session's
    own while a refresh for it is under way. -/
structure Paid (p : Pool Auth.Shared Call) (posts : List Nat) : Prop where
  posts_eq :
    posts = (List.range (p.shared.stored.length + p.tasks.countP Call.mayStore)).reverse
  attended : p.shared.inner.refreshing = true → ∃ u ∈ p.tasks, u.holds = true
  header : 0 < p.shared.stored.length →
    lib.headerOk ("Bearer " ++ p.shared.inner.accessToken) = true
  accounts : ∀ (i : Nat) t, p.tasks[i]? = some t →
    onAccount p.shared.stored.length posts.length t.auth ∧ t.settled p.shared.stored.length
  awake : Awake (sessions p)

theorem Paid.length (p : Pool Auth.Shared Call) (posts : List Nat) (h : Paid lib p posts) :
    posts.length = p.shared.stored.length + p.tasks.countP Call.mayStore := by
  rw [h.posts_eq, List.length_reverse, List.length_range]

/-- While the flag is free every refresh posted has stored its pair. -/
theorem Paid.settled (p : Pool Auth.Shared Call) (posts : List Nat) (h : Paid lib p posts)
    (hex : Machine.Exclusive (fun s => s.inner.refreshing) Call.holds p)
    (hfree : p.shared.inner.refreshing = false) : posts.length = p.shared.stored.length := by
  have hnone : p.tasks.countP Call.mayStore = 0 := by
    refine List.countP_eq_zero.mpr fun u hu hmay => ?_
    rcases List.mem_iff_getElem?.mp hu with ⟨j, hj⟩
    cases (mayStore_holds u.auth hmay).symm.trans (hex.free _ _ hfree j u hj)
  rw [h.length, hnone, Nat.add_zero]

/-- A refresh under way that has not stored its pair is for the session's
    token. -/
theorem Paid.underWay (p : Pool Auth.Shared Call) (posts : List Nat) (h : Paid lib p posts)
    (hflag : p.shared.inner.refreshing = true) (hnone : ∀ u ∈ p.tasks, clears u.auth = false) :
    p.shared.stored.length < posts.length := by
  rcases h.attended hflag with ⟨u, hu, hhold⟩
  have hmay : u.mayStore = true := by
    have hclears := hnone u hu
    unfold Call.holds at hhold
    unfold Call.mayStore
    generalize u.auth = a at hhold hclears ⊢
    cases a with
    | refresh who pc => cases pc <;> first | rfl | (cases hhold; done) | cases hclears
    | _ => cases hhold
  have hpos : 0 < p.tasks.countP Call.mayStore := List.countP_pos_iff.mpr ⟨u, hu, hmay⟩
  rw [h.length]
  omega

/-- The posts after a step that went well and came in time. -/
theorem step_posts (p : Pool Auth.Shared Call) (i : Nat) (c : Input) (t : Call)
    (a : Act Section Call) (posts : List Nat) (ht : p.tasks[i]? = some t)
    (ha : t.act parse lib { auth := .clientAuth, maxRetries := maxRetries } c = some a)
    (hcourse : t.holds = true →
      onCourse ((clientRequests parse lib maxRetries).heir a p.shared).auth = true)
    (htime : comesInTime p i t a = true)
    (hex : Machine.Exclusive (fun s => s.inner.refreshing) Call.holds p)
    (hI : Paid lib p posts) :
    notePost parse lib maxRetries p i t a posts =
      (List.range (((clientRequests parse lib maxRetries).after a p.shared).stored.length +
        ((clientRequests parse lib maxRetries).resumed p i a).tasks.countP
          Call.mayStore)).reverse := by
  rcases act_steps parse lib _ t c a p.shared ha with ⟨hsteps, hspawned⟩
  have hcount := (clientRequests parse lib maxRetries).resumed_countP p i a t ht Call.mayStore
  rw [hspawned, List.countP_nil, Nat.add_zero] at hcount
  unfold notePost
  cases steps_posting parse lib _ _ _ _ _ posts hsteps with
  | same hnote hlen hmay =>
      have hsame : Call.mayStore ((clientRequests parse lib maxRetries).heir a p.shared) =
        t.mayStore := hmay hcourse
      rw [hsame] at hcount
      rw [hnote, hI.posts_eq, hlen, Nat.add_right_cancel hcount]
  | took who hlock hnote hfree hlen hmay =>
      have hnew : Call.mayStore ((clientRequests parse lib maxRetries).heir a p.shared) = true :=
        hmay
      have hold : t.mayStore = false := by
        unfold Call.mayStore
        rw [hlock]
        rfl
      have hsettled := hI.settled lib p posts hex hfree
      rw [hI.length] at hsettled
      have hnone : p.tasks.countP Call.mayStore = 0 := Nat.add_eq_left.mp hsettled
      -- It posts on account of the session's token, the only one not posted for.
      have hsince : who.since = p.shared.stored.length := by
        simp only [comesInTime, hlock, Bool.and_eq_true, beq_iff_eq] at htime
        exact htime.1
      rw [hnew, hold, hnone] at hcount
      simp only [Bool.false_eq_true, if_false, if_true, Nat.add_zero, Nat.zero_add] at hcount
      rw [hnote, hsince, hI.posts_eq, hnone, hlen, hcount, Nat.add_zero, List.range_succ,
        List.reverse_append, List.reverse_singleton, List.singleton_append]
  | stored hnote hlen hmay hmay' =>
      have hold : t.mayStore = true := hmay
      have hnew : Call.mayStore ((clientRequests parse lib maxRetries).heir a p.shared) = false :=
        hmay'
      rw [hold, hnew] at hcount
      simp only [Bool.false_eq_true, if_false, if_true, Nat.add_zero] at hcount
      rw [hnote, hI.posts_eq, hlen, ← hcount, Nat.add_assoc, Nat.add_comm 1]

/-- Who refreshes holds the flag on, and everybody else goes on holding it. -/
theorem step_attended (p : Pool Auth.Shared Call) (i : Nat) (c : Input) (t : Call)
    (a : Act Section Call) (posts : List Nat) (ht : p.tasks[i]? = some t)
    (ha : t.act parse lib { auth := .clientAuth, maxRetries := maxRetries } c = some a)
    (hcourse : t.holds = true →
      onCourse ((clientRequests parse lib maxRetries).heir a p.shared).auth = true)
    (hI : Paid lib p posts) :
    ((clientRequests parse lib maxRetries).after a p.shared).inner.refreshing = true →
      ∃ u ∈ ((clientRequests parse lib maxRetries).resumed p i a).tasks, u.holds = true := by
  have hsteps := (act_steps parse lib _ t c a p.shared ha).1
  refine (clientRequests parse lib maxRetries).step_held (fun s => s.inner.refreshing) Call.holds
    p i a t ht ?_ hI.attended
  exact steps_course parse lib _ _ _ _ _ hsteps hcourse

/-- A pair that is stored has an access token that can be sent. -/
theorem step_header (p : Pool Auth.Shared Call) (i : Nat) (c : Input) (t : Call)
    (a : Act Section Call) (posts : List Nat)
    (ha : t.act parse lib { auth := .clientAuth, maxRetries := maxRetries } c = some a)
    (hwell : goesWell parse lib maxRetries p i t a = true) (hI : Paid lib p posts)
    (hpos : 0 < ((clientRequests parse lib maxRetries).after a p.shared).stored.length) :
    lib.headerOk ("Bearer " ++
      ((clientRequests parse lib maxRetries).after a p.shared).inner.accessToken) = true := by
  have hsteps := (act_steps parse lib _ t c a p.shared ha).1
  have haccepted := (Bool.and_eq_true_iff.mp hwell).2
  -- The token is the one from before, or that of a pair which is accepted.
  rcases steps_header parse lib _ _ _ _ _ hsteps with ⟨htok, hsame⟩ | ⟨who, pair, hstore, htok⟩
  · rw [htok]
    exact hI.header (hsame ▸ hpos)
  · rw [htok]
    cases t with
    | applying req auth =>
        have hauth : auth = .refresh who (.store pair) := hstore
        rw [hauth] at haccepted
        exact haccepted
    | refreshing req raw auth =>
        have hauth : auth = .refresh who (.store pair) := hstore
        rw [hauth] at haccepted
        exact haccepted
    | _ => cases hstore

/-- Every request still has its accounts settled. -/
theorem step_accounts (p : Pool Auth.Shared Call) (i : Nat) (c : Input) (t : Call)
    (a : Act Section Call) (posts : List Nat) (ht : p.tasks[i]? = some t)
    (ha : t.act parse lib { auth := .clientAuth, maxRetries := maxRetries } c = some a)
    (hcourse : t.holds = true →
      onCourse ((clientRequests parse lib maxRetries).heir a p.shared).auth = true)
    (htime : comesInTime p i t a = true)
    (hex : Machine.Exclusive (fun s => s.inner.refreshing) Call.holds p) (hI : Paid lib p posts)
    (j : Nat) (u : Call)
    (hu : ((clientRequests parse lib maxRetries).resumed p i a).tasks[j]? = some u) :
    onAccount ((clientRequests parse lib maxRetries).after a p.shared).stored.length
        (notePost parse lib maxRetries p i t a posts).length u.auth ∧
      u.settled ((clientRequests parse lib maxRetries).after a p.shared).stored.length := by
  rcases act_steps parse lib _ t c a p.shared ha with ⟨hsteps, hspawned⟩
  have hposting := steps_posting parse lib _ _ _ _ _ posts hsteps
  rcases posting_mono _ _ _ _ posts hposting with ⟨hlen, hmono⟩
  rcases (clientRequests parse lib maxRetries).resumed_get_cases p i j a t u ht hu with
    ⟨_, rfl⟩ | ⟨hji, hu'⟩ | ⟨_, hu'⟩
  · rcases hI.accounts i t ht with ⟨hacc, hset⟩
    refine steps_paid parse lib maxRetries _ _ _ _ posts.length _ hsteps ?_
      (hI.settled lib p posts hex) hcourse hmono hI.header hacc hset
    intro who hlock
    simp only [comesInTime, hlock, Bool.and_eq_true, beq_iff_eq, Bool.not_eq_true'] at htime
    refine ⟨htime.1, fun hflag => hI.underWay lib p posts hflag fun v hv => ?_⟩
    exact Bool.not_eq_true _ ▸ fun hclears =>
      absurd (List.any_eq_true.mpr ⟨v, hv, hclears⟩) (by rw [htime.2]; rintro ⟨⟩)
  · rcases hI.accounts j u hu' with ⟨hacc, hset⟩
    refine ⟨onAccount_mono _ _ _ _ _ hmono hlen ?_ hacc, settled_mono _ _ u hlen hset⟩
    intro hmay
    -- Nobody else stores a pair while this one may.
    cases hposting with
    | same _ hsame => exact hsame
    | took _ _ _ _ hsame => exact hsame
    | stored _ _ hstores =>
        have hother := hex.others _ _ i j t u ht (mayStore_holds t.auth hstores) hu' hji
        cases (mayStore_holds u.auth hmay).symm.trans hother
  · rw [hspawned] at hu'
    cases hu'

/-- A step that goes well and comes in time keeps the accounts. -/
theorem step_paid (p : Pool Auth.Shared Call) (i : Nat) (c : Input) (t : Call)
    (a : Act Section Call) (posts : List Nat) (ht : p.tasks[i]? = some t)
    (ha : t.act parse lib { auth := .clientAuth, maxRetries := maxRetries } c = some a)
    (hwell : goesWell parse lib maxRetries p i t a = true) (htime : comesInTime p i t a = true)
    (hex : Machine.Exclusive (fun s => s.inner.refreshing) Call.holds p)
    (hI : Paid lib p posts) :
    Paid lib ((clientRequests parse lib maxRetries).resumed p i a)
      (notePost parse lib maxRetries p i t a posts) := by
  rcases act_steps parse lib _ t c a p.shared ha with ⟨hsteps, hspawned⟩
  -- Nobody who holds the flag fails or is dropped.
  have hcourse : t.holds = true →
      onCourse ((clientRequests parse lib maxRetries).heir a p.shared).auth = true := by
    intro hhold
    have hkeeps := (Bool.and_eq_true_iff.mp hwell).1
    rw [hhold, Bool.not_true, Bool.false_or] at hkeeps
    exact hkeeps
  constructor
  · exact step_posts parse lib maxRetries p i c t a posts ht ha hcourse htime hex hI
  · exact step_attended parse lib maxRetries p i c t a posts ht ha hcourse hI
  · exact step_header parse lib maxRetries p i c t a posts ha hwell hI
  · exact step_accounts parse lib maxRetries p i c t a posts ht ha hcourse htime hex hI
  · have hnext := requests_awake parse lib _ p i t _ _ ht hsteps (by
      intro who hgap
      simp only [comesInTime, hgap, Bool.or_eq_true, List.any_eq_true] at htime
      exact htime) hI.awake
    rw [← List.append_nil (p.tasks.set i _), ← hspawned] at hnext
    exact hnext

variable (initial : ClientAuth)

/-- The accounts are kept along a run whose steps go well and come in time. -/
theorem reach_paid (p : Pool Auth.Shared Call) (posts : List Nat)
    (h : (clientRequests parse lib maxRetries).Tallied (Started initial)
      (fun _ p i t a => (goesWell parse lib maxRetries p i t a && comesInTime p i t a) = true)
      (notePost parse lib maxRetries) [] p posts) : Paid lib p posts := by
  refine (clientRequests parse lib maxRetries).tallied_inv (Started initial) _ _ _ _
    (requests_holders parse lib _ initial) (Paid lib) ?_ ?_ ?_ p posts h
  · intro p hp
    rcases started_pool initial p hp with ⟨hflag, hstored, htasks⟩
    refine ⟨?_, ?_, ?_, ?_, ?_⟩
    -- Nothing was stored or posted yet, and nobody has called.
    · rw [hstored, htasks]
      rfl
    · intro hset
      cases hset.symm.trans hflag
    · intro hpos
      rw [hstored] at hpos
      cases hpos
    · intro i t ht
      rw [htasks] at ht
      cases ht
    · constructor <;>
        (intro who calls hmem
         have hmem' : Task.refresh who (.waiting calls) ∈ p.tasks.map Call.auth := hmem
         rw [htasks] at hmem'
         cases hmem')
  · intro p i c t a posts ht ha hok hex hI
    rcases Bool.and_eq_true_iff.mp hok with ⟨hwell, htime⟩
    exact step_paid parse lib maxRetries p i c t a posts ht ha hwell htime hex hI
  -- A request that comes in has no session call under way and owes nothing.
  · intro p t posts hent _ hI
    rcases isCall_auth t hent with ⟨opts, rfl⟩
    refine ⟨?_, ?_, hI.header, ?_, ?_⟩
    · have hposts := hI.posts_eq
      rw [hposts]
      show _ = (List.range (_ + (p.tasks ++ _).countP Call.mayStore)).reverse
      rw [List.countP_append]
      rfl
    · intro hflag
      rcases hI.attended hflag with ⟨u, hu, hhold⟩
      exact ⟨u, List.mem_append_left _ hu, hhold⟩
    · intro j u hu
      rcases List.mem_append.mp (List.mem_of_getElem? hu) with hu' | hu'
      · rcases List.mem_iff_getElem?.mp hu' with ⟨k, hk⟩
        exact hI.accounts k u hk
      · rw [List.mem_singleton.mp hu']
        exact ⟨trivial, by rintro n ⟨⟩⟩
    · have hnext := awake_spawn (sessions p) .token (by rintro who calls ⟨⟩) hI.awake
      have hmap : sessions { p with tasks := p.tasks ++ [.applying { opts := opts } .token] } =
          { sessions p with tasks := (sessions p).tasks ++ [.token] } := by
        unfold sessions
        rw [List.map_append]
        rfl
      rw [hmap]
      exact hnext

/-- In every run in which refreshes go well and whoever comes to the flag comes in
    time, each token costs one refresh, and every request that came for it goes out
    with a newer one. Out of time comes a request whose `401` is processed when the
    refresh is over: it does not compare its token with the one that is stored, and
    refreshes again. -/
theorem reach_oneRefresh (p : Pool Auth.Shared Call) (posts : List Nat)
    (h : (clientRequests parse lib maxRetries).Tallied (Started initial)
      (fun _ p i t a => (goesWell parse lib maxRetries p i t a && comesInTime p i t a) = true)
      (notePost parse lib maxRetries) [] p posts) : OneRefresh p posts := by
  have hI := reach_paid parse lib maxRetries initial p posts h
  -- The tokens posted are all numbers below the count of posts.
  have hmem : ∀ n, n < posts.length → n ∈ posts := by
    intro n hn
    rw [hI.length] at hn
    rw [hI.posts_eq, List.mem_reverse, List.mem_range]
    exact hn
  have hle : p.shared.stored.length ≤ posts.length := hI.length ▸ Nat.le_add_right _ _
  have hcalls : ∀ t ∈ p.tasks,
      onAccount p.shared.stored.length posts.length t.auth ∧ t.settled p.shared.stored.length := by
    intro t ht
    rcases List.mem_iff_getElem?.mp ht with ⟨i, hi⟩
    exact hI.accounts i t hi
  constructor
  · rw [hI.posts_eq]
    exact (List.reverse_perm _).nodup_iff.mpr List.nodup_range
  · intro t ht n hn
    rcases hcalls t ht with ⟨hacc, hset⟩
    rcases settled_accounts _ t hset n hn with hlt | hfor
    · exact Or.inl (hmem n (Nat.lt_of_lt_of_le hlt hle))
    · rcases onAccount_posted _ _ t.auth n hacc hfor hle with hlt | hmay | hcomes
      · exact Or.inl (hmem n hlt)
      · -- Its own refresh is under way.
        have hpos : 0 < p.tasks.countP Call.mayStore := List.countP_pos_iff.mpr ⟨t, ht, hmay.1⟩
        refine Or.inl (hmem n ?_)
        rw [hmay.2, hI.length]
        omega
      · exact Or.inr hcomes
  · intro t ht last hlast n hn
    exact settled_sent _ t (hcalls t ht).2 last hlast n hn
  -- A caller that waits is attended, or has been woken, or is about to be.
  · intro t ht who calls hwaits
    have hwaiting : Task.refresh who (.waiting calls) ∈ (sessions p).tasks :=
      List.mem_map.mpr ⟨t, ht, hwaits⟩
    rcases hI.awake.issued who calls hwaiting with hflag | hlt | ⟨u, hu, hnotifies⟩
    · exact Or.inl (hI.attended hflag)
    · exact Or.inr (Or.inl hlt)
    · rcases List.mem_map.mp hu with ⟨v, hv, rfl⟩
      exact Or.inr (Or.inr ⟨v, hv, hnotifies⟩)

end Requests

/-! ## Concrete runs -/

def someLib : Lib :=
  { headerOk := fun _ => true, parseMsg := fun _ => none, canonicalReason := fun _ => none }

/-- What a transport starts from with `somePair`. -/
def freshTransport : Pool Auth.Shared Call := { shared := freshSession.shared, tasks := [] }

theorem started_freshTransport : Started somePair freshTransport :=
  ⟨0, by decide, rfl⟩

/-- Request `i` applies the session's token and is sent. -/
def sends (i : Nat) : List (Label Call Input) := [.resume i (.clock 0 0 0), .resume i .go]

/-- Two requests go out with the initial token, and are refused. -/
def bothRefused : List (Label Call Input) :=
  [.spawn (.applying { opts := ⟨.throw, none⟩ } .token),
    .spawn (.applying { opts := ⟨.throw, none⟩ } .token)] ++ sends 0 ++ sends 1 ++
    [.resume 0 (.responded 401), .resume 1 (.responded 401)]

/-- The first one comes to refresh, and posts. -/
def firstPosts : List (Label Call Input) := [.resume 0 (.body []), .resume 0 .go]

/-- Its refresh succeeds and ends. -/
def firstStores : List (Label Call Input) :=
  [.resume 0 (.responded 200), .resume 0 (.body [1]), .resume 0 (.clock 0 0 0), .resume 0 .go,
    .resume 0 .go]

/-- Request `i` was refused with the initial token and answered with the next. -/
def answeredAgain : Call :=
  .returned ⟨⟨.throw, none⟩, 0, true, some 1, [0]⟩ (.ok [2])

/-- The second one comes while the first one posts: one refresh serves both, and
    both are answered. -/
theorem reach_oneRefresh_shared :
    ∃ p posts, posts = [0] ∧ p.tasks = [answeredAgain, answeredAgain] ∧ OneRefresh p posts := by
  rcases (clientRequests someParse someLib 0).exists_tallied (Started somePair)
    (fun _ p i t a => (goesWell someParse someLib 0 p i t a && comesInTime p i t a) = true)
    (notePost someParse someLib 0) []
    (fun _ p i t a => goesWell someParse someLib 0 p i t a && comesInTime p i t a)
    (fun _ _ _ _ _ h => h)
    (bothRefused ++ firstPosts ++ [.resume 1 (.body []), .resume 1 .go, .resume 1 .go] ++
      firstStores ++ [.resume 1 .go, .resume 1 .go] ++ sends 0 ++ sends 1 ++
      [.resume 0 (.responded 200), .resume 0 (.body [2]), .resume 1 (.responded 200),
        .resume 1 (.body [2])]) freshTransport started_freshTransport
    (fun p posts => decide (posts = [0] ∧ p.tasks = [answeredAgain, answeredAgain]))
    (by decide) with ⟨p, posts, hp, hrun⟩
  rcases of_decide_eq_true hrun with ⟨hposts, htasks⟩
  exact ⟨p, posts, hposts, htasks, reach_oneRefresh someParse someLib 0 somePair p posts hp⟩

/-- The second one's answer is processed when the refresh is over: it posts
    another one on account of the same token. -/
theorem refused_late :
    ¬ ∀ p posts, (clientRequests someParse someLib 0).Tallied (Started somePair)
      (fun _ p i t a => goesWell someParse someLib 0 p i t a = true)
      (notePost someParse someLib 0) [] p posts → OneRefresh p posts := by
  intro hall
  rcases (clientRequests someParse someLib 0).exists_tallied (Started somePair)
    (fun _ p i t a => goesWell someParse someLib 0 p i t a = true)
    (notePost someParse someLib 0) [] (fun _ p i t a => goesWell someParse someLib 0 p i t a)
    (fun _ _ _ _ _ h => h)
    (bothRefused ++ firstPosts ++ firstStores ++ [.resume 1 (.body []), .resume 1 .go])
    freshTransport started_freshTransport
    (fun _ posts => decide (posts = [0, 0])) (by decide) with ⟨p, posts, hp, hrun⟩
  have hnodup := (hall p posts hp).once
  rw [of_decide_eq_true hrun] at hnodup
  exact absurd hnodup (by decide)

end Http

end Pickpoint
