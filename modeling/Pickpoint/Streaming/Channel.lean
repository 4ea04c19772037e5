import Mathlib.Data.List.Forall2
import Mathlib.Data.List.Infix

/-!
# Bounded Channels

A bounded first-in first-out channel whose senders do not wait: what is offered
while the channel is full is lost.

`Entry` is what happens to such a channel, and `Chan.run` what a list of entries
makes of it. Values are tagged with their source, and a receiver's name goes with
what it took, so that what arrived can be told apart by where it came from.

Everything the channel let in is either taken or still queued (`Chan.kept`), in
the order in which it was offered. What is lost is lost on the way in and nowhere
else.

## Main definitions

* `Entry`: A value is offered, or a receiver takes the oldest one.
* `Chan`, `Chan.step`, `Chan.run`: The channel.
* `Chan.kept`: What was let in.
* `offered`: What was offered.
* `Roomy`: No offer came while the channel was full.

## Theorems

* `run_concat`: One entry more.
* `run_bounded`: No more is queued than fits.
* `run_kept`: What was let in was offered, in order.
* `run_lossless`: With room for every offer nothing is lost.
* `taken_sublist`, `taken_offered`: What was taken was offered, in order.
* `forall₂_sublist`: Part of a list has its part in a related one.
-/

namespace Streaming

/-- Something happens to a channel. -/
inductive Entry (ι ρ α : Type) where
  | offer (source : ι) (x : α)
  | take (receiver : ρ)
  deriving DecidableEq

/-- What is queued in a channel, and what was taken from it, oldest first, with the
    source of each message and the receiver that took it. -/
structure Chan (ι ρ α : Type) where
  queue : List (ι × α) := []
  taken : List (ρ × ι × α) := []
  deriving DecidableEq

variable {ι ρ α : Type}

namespace Chan

/-- What an entry makes of a channel with room for `cap` values. -/
def step (cap : Nat) (c : Chan ι ρ α) : Entry ι ρ α → Chan ι ρ α
  | .offer source x =>
    if c.queue.length < cap then { c with queue := c.queue ++ [(source, x)] } else c
  | .take receiver =>
    match c.queue with
    | [] => c
    | x :: xs => { queue := xs, taken := c.taken ++ [(receiver, x)] }

/-- What a list of entries makes of an empty channel. -/
def run (cap : Nat) (log : List (Entry ι ρ α)) : Chan ι ρ α := log.foldl (step cap) {}

/-- What a channel let in. -/
def kept (c : Chan ι ρ α) : List (ι × α) := c.taken.map Prod.snd ++ c.queue

end Chan

/-- What was offered. -/
def offered (log : List (Entry ι ρ α)) : List (ι × α) :=
  log.filterMap fun
    | .offer source x => some (source, x)
    | .take _ => none

/-- No offer came while the channel was full. -/
def Roomy (cap : Nat) (log : List (Entry ι ρ α)) : Prop :=
  ∀ before source x after, log = before ++ .offer source x :: after →
    (Chan.run cap before).queue.length < cap

section Run

variable (cap : Nat) (log : List (Entry ι ρ α))

theorem run_concat (e : Entry ι ρ α) :
    Chan.run cap (log ++ [e]) = (Chan.run cap log).step cap e := by
  rw [Chan.run, List.foldl_append]
  rfl

theorem offered_concat (e : Entry ι ρ α) : offered (log ++ [e]) = offered log ++ offered [e] :=
  List.filterMap_append

/-- An entry keeps what was let in, and lets one value in or none. -/
theorem step_kept (c : Chan ι ρ α) (e : Entry ι ρ α) :
    (c.step cap e).kept = c.kept ∨ (c.step cap e).kept = c.kept ++ offered [e] := by
  cases e with
  | offer source x =>
      -- What is offered is kept if there is room.
      by_cases hroom : c.queue.length < cap
      · refine Or.inr ?_
        simp only [Chan.step, if_pos hroom, Chan.kept, offered, List.filterMap_cons,
          List.filterMap_nil, List.append_assoc]
      · exact Or.inl (by simp only [Chan.step, if_neg hroom])
  | take receiver =>
      -- What is taken moves from the queue to the receivers, and stays.
      refine Or.inl ?_
      rcases hq : c.queue with _ | ⟨x, xs⟩
      · simp only [Chan.step, hq]
      · simp only [Chan.step, hq, Chan.kept, List.map_append, List.map_cons, List.map_nil,
          List.append_assoc, List.singleton_append]

/-- An offer that finds room is let in. -/
theorem step_offer (c : Chan ι ρ α) (source : ι) (x : α) (hroom : c.queue.length < cap) :
    (c.step cap (.offer source x)).kept = c.kept ++ [(source, x)] := by
  simp only [Chan.step, if_pos hroom, Chan.kept, List.append_assoc]

/-- No more is queued than fits. -/
theorem run_bounded : (Chan.run cap log).queue.length ≤ cap := by
  induction log using List.reverseRecOn with
  | nil => exact Nat.zero_le _
  | append_singleton log e ih =>
      rw [run_concat]
      cases e with
      | offer source x =>
          by_cases hroom : (Chan.run cap log).queue.length < cap
          · simp only [Chan.step, if_pos hroom, List.length_append, List.length_singleton]
            omega
          · simpa only [Chan.step, if_neg hroom] using ih
      | take receiver =>
          rcases hq : (Chan.run cap log).queue with _ | ⟨x, xs⟩
          · simp only [Chan.step, hq, List.length_nil, Nat.zero_le]
          · rw [hq, List.length_cons] at ih
            simp only [Chan.step, hq]
            omega

/-- What was let in was offered, in order. -/
theorem run_kept : (Chan.run cap log).kept.Sublist (offered log) := by
  induction log using List.reverseRecOn with
  | nil => exact List.Sublist.slnil
  | append_singleton log e ih =>
      rw [run_concat, offered_concat]
      rcases step_kept cap (Chan.run cap log) e with h | h
      · rw [h]
        exact ih.trans (List.sublist_append_left _ _)
      · rw [h]
        exact ih.append (List.Sublist.refl _)

/-- With room for every offer nothing is lost. -/
theorem run_lossless (h : Roomy cap log) : (Chan.run cap log).kept = offered log := by
  induction log using List.reverseRecOn with
  | nil => rfl
  | append_singleton log e ih =>
      -- There was room before each offer of the shorter log, too.
      have hbefore : Roomy cap log := by
        rintro before source x after rfl
        exact h before source x (after ++ [e]) (by rw [List.append_assoc, List.cons_append])
      rw [run_concat, offered_concat]
      cases e with
      | offer source x =>
          rw [step_offer cap _ source x (h log source x [] rfl), ih hbefore]
          rfl
      | take receiver =>
          rcases step_kept cap (Chan.run cap log) (.take receiver) with hk | hk
          · rw [hk, ih hbefore]
            exact (List.append_nil _).symm
          · rw [hk, ih hbefore]

/-- What was taken was offered, in order. -/
theorem taken_sublist : ((Chan.run cap log).taken.map Prod.snd).Sublist (offered log) :=
  (List.sublist_append_left _ _).trans (run_kept cap log)

variable [DecidableEq ι]

/-- What one source offered. -/
def offeredBy (source : ι) (log : List (Entry ι ρ α)) : List α :=
  ((offered log).filter fun o => o.1 = source).map Prod.snd

/-- What was taken of what one source offered. -/
def takenFrom (source : ι) (c : Chan ι ρ α) : List α :=
  ((c.taken.map Prod.snd).filter fun o => o.1 = source).map Prod.snd

/-- What was taken from one source was offered by it, in order. -/
theorem taken_offered (source : ι) :
    (takenFrom source (Chan.run cap log)).Sublist (offeredBy source log) :=
  ((taken_sublist cap log).filter _).map _

theorem offeredBy_concat (source : ι) (e : Entry ι ρ α) :
    offeredBy source (log ++ [e]) = offeredBy source log ++ offeredBy source [e] := by
  simp only [offeredBy, offered_concat, List.filter_append, List.map_append]

theorem offeredBy_offer (source source' : ι) (x : α) :
    offeredBy source [(.offer source' x : Entry ι ρ α)] = if source' = source then [x] else [] := by
  by_cases h : source' = source
  · simp only [offeredBy, offered, h, List.filterMap_cons, List.filterMap_nil, decide_true,
      List.filter_cons_of_pos, List.filter_nil, List.map_cons, List.map_nil, if_true]
  · simp only [offeredBy, offered, h, List.filterMap_cons, List.filterMap_nil, decide_false,
      Bool.false_eq_true, not_false_eq_true, List.filter_cons_of_neg, List.filter_nil,
      List.map_nil, if_false]

end Run

/-- Part of a list has its part in a related one. -/
theorem forall₂_sublist {β : Type} (R : α → β → Prop) (xs : List α) (ys zs : List β)
    (h : List.Forall₂ R xs ys) (hz : zs.Sublist ys) :
    ∃ ws, ws.Sublist xs ∧ List.Forall₂ R ws zs := by
  -- Induction on the sublist: what it leaves out is left out of `xs`, too.
  induction hz generalizing xs with
  | slnil => exact ⟨[], List.nil_sublist _, .nil⟩
  | cons y _ ih =>
      cases h with
      | cons hxy hrest =>
          rcases ih _ hrest with ⟨ws, hws, hall⟩
          exact ⟨ws, hws.cons _, hall⟩
  | cons_cons y _ ih =>
      cases h with
      | cons hxy hrest =>
          rcases ih _ hrest with ⟨ws, hws, hall⟩
          exact ⟨_, hws.cons_cons _, .cons hxy hall⟩

end Streaming
