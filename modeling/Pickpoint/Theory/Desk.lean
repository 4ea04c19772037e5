import Mathlib.Data.Set.Insert
import Mathlib.Logic.Function.Basic

/-!
# Subscription Desks

Two parties who agree on a set of subscriptions by messages. One of them wants
devices and asks for them; the other gives out a fresh handle for each request,
in order, and keeps it until it is told to drop it.

A `Desk` is what the two know together, with what is on its way between them:
requests about to be sent or not yet answered, and handles about to be dropped.
Devices and handles are arbitrary.

`Desk.Move` lists what may happen. A device may be given up only when all its
requests have been answered and it has one handle at most that is not being
dropped already. Then `Desk.Balanced` is kept: a device is wanted exactly when
somebody will have a handle for it in the end. When nothing is on its way, the
devices with a handle are the wanted ones.

## Main definitions

* `Desk`: What both parties know, and what is on its way.
* `Desk.Kept`: A handle that is not being dropped.
* `Desk.Move`: What may happen.
* `Desk.Balanced`: Wanted devices are those that are, or will be, handed out.

## Theorems

* `kept_answer`, `kept_unsubscribe`, `kept_drop`: What the moves keep.
* `move_balanced`: Moves keep the balance.
* `balanced_settled`: When nothing is on its way, both parties agree.
-/

namespace Pickpoint

/-- A desk for devices `δ` and handles `η`: what subscriptions are about, without
    sockets and tasks. Devices are wanted and asked for, and the handles given out
    for them are kept until they are dropped. -/
@[ext]
structure Desk (δ η : Type) where
  wanted : Set δ
  /-- The handle known for a device. -/
  handle : δ → Option η
  /-- The requests not yet answered, oldest first. -/
  asked : List δ
  /-- The handles given out and not dropped. -/
  live : List (η × δ)
  /-- The requests about to be sent. -/
  sending : Set δ
  /-- The handles about to be dropped. -/
  dropping : Set η

namespace Desk

variable {δ η : Type}

/-- The device has a handle that is not being dropped. -/
def Kept (k : Desk δ η) (x : η) (d : δ) : Prop := (x, d) ∈ k.live ∧ x ∉ k.dropping

/-- What may happen at a desk. -/
inductive Move [DecidableEq δ] [DecidableEq η] : Desk δ η → Desk δ η → Prop where
  | idle (k : Desk δ η) : Move k k
  | subscribe (k : Desk δ η) (d : δ) :
      Move k { k with wanted := insert d k.wanted, sending := insert d k.sending }
  | send (k : Desk δ η) (d : δ) (rest : Set δ) (h : k.sending = insert d rest) :
      Move k { k with asked := k.asked ++ [d], sending := rest }
  | answer (k : Desk δ η) (x : η) (d : δ) (rest : List δ) (h : k.asked = d :: rest)
      (hfresh : ∀ e, (x, e) ∉ k.live) :
      Move k
        { k with
          asked := rest, live := (x, d) :: k.live
          handle := Function.update k.handle d (some x) }
  | unsubscribe (k : Desk δ η) (d : δ) (hasked : d ∉ k.asked) (hsending : d ∉ k.sending)
      (hone : ∀ x y, k.Kept x d → k.Kept y d → x = y) :
      Move k
        { k with
          wanted := k.wanted \ {d}, handle := Function.update k.handle d none
          dropping := k.dropping ∪ {x | k.handle d = some x} }
  | drop (k : Desk δ η) (x : η) (rest : Set η) (h : k.dropping = insert x rest)
      (hx : x ∉ rest) :
      Move k { k with live := k.live.filter fun e => e.1 ≠ x, dropping := rest }

/-- A device is wanted exactly when it has a handle or is being asked for, and
    the handle known for a device is one it keeps. -/
structure Balanced (k : Desk δ η) : Prop where
  wanted : ∀ d, d ∈ k.wanted ↔ (∃ x, k.Kept x d) ∨ d ∈ k.asked ∨ d ∈ k.sending
  known : ∀ d x, k.handle d = some x → k.Kept x d
  found : ∀ d x, k.Kept x d → k.handle d ≠ none
  unique : ∀ x d e, (x, d) ∈ k.live → (x, e) ∈ k.live → d = e
  dropping : ∀ x ∈ k.dropping, ∃ d, (x, d) ∈ k.live

/-- When nothing is on its way, the wanted devices are those with a handle. -/
theorem balanced_settled (k : Desk δ η) (h : k.Balanced) (hasked : k.asked = [])
    (hsending : k.sending = ∅) (hdropping : k.dropping = ∅) (d : δ) :
    d ∈ k.wanted ↔ ∃ x, (x, d) ∈ k.live := by
  rw [h.wanted d, hasked, hsending]
  constructor
  · rintro (⟨x, hx, _⟩ | hd | hd)
    · exact ⟨x, hx⟩
    · exact absurd hd List.not_mem_nil
    · exact absurd hd (Set.notMem_empty d)
  · rintro ⟨x, hx⟩
    refine Or.inl ⟨x, hx, ?_⟩
    rw [hdropping]
    exact Set.notMem_empty x

/-- A device that is newly wanted is about to be asked for. -/
theorem subscribe_balanced (k : Desk δ η) (d : δ) (hk : k.Balanced) :
    ({ k with
        wanted := insert d k.wanted
        sending := insert d k.sending } : Desk δ η).Balanced where
  wanted e := by
    simp only [Set.mem_insert_iff, hk.wanted e]
    constructor
    · rintro (rfl | h | h | h)
      · exact Or.inr (Or.inr (Or.inl rfl))
      · exact Or.inl h
      · exact Or.inr (Or.inl h)
      · exact Or.inr (Or.inr (Or.inr h))
    · rintro (h | h | h | h)
      · exact Or.inr (Or.inl h)
      · exact Or.inr (Or.inr (Or.inl h))
      · exact Or.inl h
      · exact Or.inr (Or.inr (Or.inr h))
  known := hk.known
  found := hk.found
  unique := hk.unique
  dropping := hk.dropping

/-- A request goes from those about to be sent to those not yet answered. -/
theorem send_balanced (k : Desk δ η) (d : δ) (rest : Set δ) (h : k.sending = insert d rest)
    (hk : k.Balanced) :
    ({ k with asked := k.asked ++ [d], sending := rest } : Desk δ η).Balanced where
  wanted e := by
    rw [hk.wanted e, h, List.mem_append, List.mem_singleton, Set.mem_insert_iff]
    constructor
    · rintro (h | h | h | h)
      · exact Or.inl h
      · exact Or.inr (Or.inl (Or.inl h))
      · exact Or.inr (Or.inl (Or.inr h))
      · exact Or.inr (Or.inr h)
    · rintro (h | (h | h) | h)
      · exact Or.inl h
      · exact Or.inr (Or.inl h)
      · exact Or.inr (Or.inr (Or.inl h))
      · exact Or.inr (Or.inr (Or.inr h))
  known := hk.known
  found := hk.found
  unique := hk.unique
  dropping := hk.dropping

/-- A handle that is dropped was not kept any more. -/
theorem kept_drop [DecidableEq η] (k : Desk δ η) (x : η) (rest : Set η)
    (h : k.dropping = insert x rest) (y : η) (e : δ) :
    ({ k with live := k.live.filter fun e => e.1 ≠ x, dropping := rest } : Desk δ η).Kept y e ↔
      k.Kept y e := by
  simp only [Kept, List.mem_filter, h, Set.mem_insert_iff, not_or, ne_eq, decide_not,
    Bool.not_eq_true', decide_eq_false_iff_not]
  exact and_assoc

/-- A handle that is dropped leaves what is kept alone. -/
theorem drop_balanced [DecidableEq η] (k : Desk δ η) (x : η) (rest : Set η)
    (h : k.dropping = insert x rest) (hx : x ∉ rest) (hk : k.Balanced) :
    ({ k with live := k.live.filter fun e => e.1 ≠ x, dropping := rest } : Desk δ η).Balanced where
  wanted e := by
    simp only [kept_drop k x rest h]
    exact hk.wanted e
  known e y hy := (kept_drop k x rest h y e).mpr (hk.known e y hy)
  found e y hy := hk.found e y ((kept_drop k x rest h y e).mp hy)
  unique y d e hd he := hk.unique y d e (List.mem_filter.mp hd).1 (List.mem_filter.mp he).1
  dropping y hy := by
    -- The other handles about to be dropped are still there.
    have hyx : y ≠ x := by
      rintro rfl
      exact hx hy
    rcases hk.dropping y (h ▸ Set.mem_insert_of_mem x hy) with ⟨d, hd⟩
    exact ⟨d, List.mem_filter.mpr ⟨hd, decide_eq_true hyx⟩⟩

variable [DecidableEq δ]

/-- A fresh handle changes what is kept by itself only. -/
theorem kept_answer (k : Desk δ η) (x : η) (d : δ) (rest : List δ) (hk : k.Balanced)
    (hfresh : ∀ e, (x, e) ∉ k.live) (y : η) (e : δ) :
    ({ k with
        asked := rest, live := (x, d) :: k.live
        handle := Function.update k.handle d (some x) } : Desk δ η).Kept y e ↔
      (y = x ∧ e = d) ∨ k.Kept y e := by
  have hx : x ∉ k.dropping := by
    intro hx
    rcases hk.dropping x hx with ⟨e, he⟩
    exact hfresh e he
  simp only [Kept, List.mem_cons, Prod.mk.injEq]
  constructor
  · rintro ⟨⟨rfl, rfl⟩ | hy, hdrop⟩
    · exact Or.inl ⟨rfl, rfl⟩
    · exact Or.inr ⟨hy, hdrop⟩
  · rintro (⟨rfl, rfl⟩ | ⟨hy, hdrop⟩)
    · exact ⟨Or.inl ⟨rfl, rfl⟩, hx⟩
    · exact ⟨Or.inr hy, hdrop⟩

/-- A request that is answered turns into a handle that is kept. -/
theorem answer_balanced (k : Desk δ η) (x : η) (d : δ) (rest : List δ) (h : k.asked = d :: rest)
    (hfresh : ∀ e, (x, e) ∉ k.live) (hk : k.Balanced) :
    ({ k with
        asked := rest, live := (x, d) :: k.live
        handle := Function.update k.handle d (some x) } : Desk δ η).Balanced where
  wanted e := by
    simp only [kept_answer k x d rest hk hfresh]
    rw [hk.wanted e, h, List.mem_cons]
    constructor
    · rintro (⟨y, hy⟩ | (rfl | he) | he)
      · exact Or.inl ⟨y, Or.inr hy⟩
      · exact Or.inl ⟨x, Or.inl ⟨rfl, rfl⟩⟩
      · exact Or.inr (Or.inl he)
      · exact Or.inr (Or.inr he)
    · rintro (⟨y, ⟨_, rfl⟩ | hy⟩ | he | he)
      · exact Or.inr (Or.inl (Or.inl rfl))
      · exact Or.inl ⟨y, hy⟩
      · exact Or.inr (Or.inl (Or.inr he))
      · exact Or.inr (Or.inr he)
  known e y hy := by
    refine (kept_answer k x d rest hk hfresh y e).mpr ?_
    by_cases hed : e = d
    · subst hed
      simp only [Function.update_self, Option.some.injEq] at hy
      exact Or.inl ⟨hy.symm, rfl⟩
    · simp only [Function.update_of_ne hed] at hy
      exact Or.inr (hk.known e y hy)
  found e y hy := by
    by_cases hed : e = d
    · subst hed
      simp only [Function.update_self]
      rintro ⟨⟩
    · simp only [Function.update_of_ne hed]
      rcases (kept_answer k x d rest hk hfresh y e).mp hy with ⟨_, hd⟩ | hy
      · exact absurd hd hed
      · exact hk.found e y hy
  unique y d' e hd' he := by
    -- Two entries of one handle are the new one twice, or both were there before.
    rcases List.mem_cons.mp hd' with hd' | hd'
    · rcases List.mem_cons.mp he with he | he
      · exact (Prod.mk.inj hd').2.trans (Prod.mk.inj he).2.symm
      · rw [(Prod.mk.inj hd').1] at he
        exact absurd he (hfresh e)
    · rcases List.mem_cons.mp he with he | he
      · rw [(Prod.mk.inj he).1] at hd'
        exact absurd hd' (hfresh d')
      · exact hk.unique y d' e hd' he
  dropping y hy := by
    rcases hk.dropping y hy with ⟨e, he⟩
    exact ⟨e, List.mem_cons_of_mem _ he⟩

/-- Giving a device up takes its handle from what is kept, and no other. -/
theorem kept_unsubscribe (k : Desk δ η) (d : δ) (hk : k.Balanced)
    (hone : ∀ x y, k.Kept x d → k.Kept y d → x = y) (y : η) (e : δ) :
    ({ k with
        wanted := k.wanted \ {d}, handle := Function.update k.handle d none
        dropping := k.dropping ∪ {x | k.handle d = some x} } : Desk δ η).Kept y e ↔
      e ≠ d ∧ k.Kept y e := by
  simp only [Kept, Set.mem_union, Set.mem_ofPred_eq, not_or]
  constructor
  · rintro ⟨hlive, hdrop, hhandle⟩
    refine ⟨?_, hlive, hdrop⟩
    rintro rfl
    -- The device would keep a handle that is not the one known for it.
    rcases hh : k.handle e with _ | x
    · exact hk.found e y ⟨hlive, hdrop⟩ hh
    · have hxy := hone x y (hk.known e x hh) ⟨hlive, hdrop⟩
      exact hhandle (hh.trans (congrArg some hxy))
  · rintro ⟨hne, hlive, hdrop⟩
    refine ⟨hlive, hdrop, fun hh => hne ?_⟩
    exact hk.unique y e d hlive (hk.known d y hh).1

/-- A device that is given up is not on its way any more. -/
theorem unsubscribe_balanced (k : Desk δ η) (d : δ) (hasked : d ∉ k.asked)
    (hsending : d ∉ k.sending) (hone : ∀ x y, k.Kept x d → k.Kept y d → x = y)
    (hk : k.Balanced) :
    ({ k with
        wanted := k.wanted \ {d}, handle := Function.update k.handle d none
        dropping := k.dropping ∪ {x | k.handle d = some x} } : Desk δ η).Balanced where
  wanted e := by
    -- The handle of `d` was the only one kept for it, so without it the others are kept as
    -- before.
    simp only [Set.mem_sdiff, Set.mem_singleton_iff, hk.wanted e,
      kept_unsubscribe k d hk hone]
    constructor
    · rintro ⟨⟨y, hy⟩ | he | he, hne⟩
      · exact Or.inl ⟨y, hne, hy⟩
      · exact Or.inr (Or.inl he)
      · exact Or.inr (Or.inr he)
    · rintro (⟨y, hne, hy⟩ | he | he)
      · exact ⟨Or.inl ⟨y, hy⟩, hne⟩
      · refine ⟨Or.inr (Or.inl he), ?_⟩
        -- Nobody is asking for `d`, by assumption.
        rintro rfl
        exact hasked he
      · refine ⟨Or.inr (Or.inr he), ?_⟩
        rintro rfl
        exact hsending he
  known e y hy := by
    by_cases hed : e = d
    · subst hed
      simp only [Function.update_self, reduceCtorEq] at hy
    · simp only [Function.update_of_ne hed] at hy
      exact (kept_unsubscribe k d hk hone y e).mpr ⟨hed, hk.known e y hy⟩
  found e y hy := by
    rcases (kept_unsubscribe k d hk hone y e).mp hy with ⟨hed, hy⟩
    simp only [Function.update_of_ne hed]
    exact hk.found e y hy
  unique := hk.unique
  dropping y hy := by
    -- The handle that is being dropped was known before.
    rcases hy with hy | hy
    · exact hk.dropping y hy
    · exact ⟨d, (hk.known d y hy).1⟩

variable [DecidableEq η]

/-- Moves keep the balance. -/
theorem move_balanced (k k' : Desk δ η) (hm : Move k k') (hk : k.Balanced) : k'.Balanced := by
  cases hm with
  | idle => exact hk
  | subscribe d => exact subscribe_balanced k d hk
  | send d rest h => exact send_balanced k d rest h hk
  | answer x d rest h hfresh => exact answer_balanced k x d rest h hfresh hk
  | unsubscribe d hasked hsending hone => exact unsubscribe_balanced k d hasked hsending hone hk
  | drop x rest h hx => exact drop_balanced k x rest h hx hk

end Desk

end Pickpoint
