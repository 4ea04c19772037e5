import Mathlib.Data.List.Basic

/-!
# Transcripts

A component that answers every input at once and remembers something in
between, and what has been said to it and by it.

A law about such a component relates an answer to everything that was said
before, and the component itself only to what it remembers. The two meet in an
invariant between a transcript and a state: if every answer keeps it, then every
answer in a transcript was given in a state that the transcript before it
describes (`transcript_rule`).

## Main definitions

* `Reaction`: What a component does with an input.
* `transcript`: Inputs and answers.

## Theorems

* `transcript_inputs`: The inputs of a transcript.
* `transcript_rule`: An answer and the transcript before it.
* `transcript_sublist`: What a component passes on.
-/

namespace Looping

/-- What a component does with an input: its next state and its answer. -/
abbrev Reaction (σ ι ο : Type) := σ → ι → σ × ο

variable {σ ι ο : Type} (react : Reaction σ ι ο)

/-- The inputs, each with its answer. -/
def transcript : σ → List ι → List (ι × ο)
  | _, [] => []
  | s, x :: xs => (x, (react s x).2) :: transcript (react s x).1 xs

theorem transcript_inputs (s : σ) (xs : List ι) : (transcript react s xs).map Prod.fst = xs := by
  induction xs generalizing s with
  | nil => rfl
  | cons x xs ih => rw [transcript, List.map_cons, ih]

/-- What holds of a transcript and the state it leads to holds at every answer, of
    the transcript before it and the state it was given in. -/
theorem transcript_rule (I : List (ι × ο) → σ → Prop)
    (hstep : ∀ l s x, I l s → I (l ++ [(x, (react s x).2)]) (react s x).1)
    (l : List (ι × ο)) (s : σ) (h : I l s) (xs : List ι) (before after : List (ι × ο)) (x : ι)
    (y : ο) (hsplit : transcript react s xs = before ++ (x, y) :: after) :
    ∃ s', I (l ++ before) s' ∧ (react s' x).2 = y := by
  induction xs generalizing l s before with
  | nil => exact absurd hsplit (List.append_ne_nil_of_right_ne_nil _ (List.cons_ne_nil _ _)).symm
  | cons z zs ih =>
      rw [transcript] at hsplit
      rcases before with _ | ⟨b, before⟩
      · rw [List.nil_append, List.cons.injEq, Prod.mk.injEq] at hsplit
        rcases hsplit with ⟨⟨rfl, hy⟩, _⟩
        exact ⟨s, by rwa [List.append_nil], hy⟩
      · rw [List.cons_append, List.cons.injEq] at hsplit
        rcases ih _ _ (hstep l s z h) before hsplit.2 with ⟨s', hI, hy⟩
        rw [List.append_assoc, List.singleton_append, hsplit.1] at hI
        exact ⟨s', hI, hy⟩

/-- Every answer was given in some state. -/
theorem transcript_mem (s : σ) (xs : List ι) (ev : ι × ο) (h : ev ∈ transcript react s xs) :
    ∃ s', (react s' ev.1).2 = ev.2 := by
  rcases List.append_of_mem h with ⟨before, after, hsplit⟩
  rcases transcript_rule react (fun _ _ => True) (fun _ _ _ _ => trivial) [] s trivial xs before
    after ev.1 ev.2 hsplit with ⟨s', _, hout⟩
  exact ⟨s', hout⟩

/-- A component that passes inputs on or drops them keeps their order, and passes
    each on once at most. -/
theorem transcript_sublist {β : Type} (react : Reaction σ ι (Option β)) (value : ι → Option β)
    (hpass : ∀ s x, (react s x).2 = none ∨ (react s x).2 = value x) (s : σ) (xs : List ι) :
    ((transcript react s xs).filterMap Prod.snd).Sublist (xs.filterMap value) := by
  induction xs generalizing s with
  | nil => exact List.Sublist.slnil
  | cons x xs ih =>
      have hrest := ih (react s x).1
      rw [transcript, List.filterMap_cons, List.filterMap_cons]
      rcases hpass s x with hout | hout
      · rw [hout]
        cases value x with
        | none => exact hrest
        | some b => exact hrest.cons b
      · rw [hout]
        cases value x with
        | none => exact hrest
        | some b => exact hrest.cons_cons b

end Looping
