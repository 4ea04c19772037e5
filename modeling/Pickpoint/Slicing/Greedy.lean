import Mathlib.Data.List.Chain

/-!
# Greedy Slicing

Cutting a list into slices, where a slice has to be `ok` and every part of an
`ok` list is `ok` too (`Hereditary`).

A cut is greedy when no slice could also take the first element of the next
one. Such a cut has as few slices as any. It stays ahead: take a greedy cut of
what another cut has still to cut, or of less (`Greedy.length_le`). Either all of
it comes after the first slice of the other, or it begins inside that slice; and
then its own first slice reaches at least as far, because all it leaves of the
slice of the other would have been `ok` to take. So one slice of the other is
left behind for one slice of the greedy cut at most.

## Main definitions

* `Hereditary`: A part of an `ok` list is `ok`.
* `Cuts`: A list is cut into `ok` slices, none of which is empty.
* `Greedy`: No slice could take one element more.
* `Fewest`: A cut has as few slices as any.

## Theorems

* `Greedy.reaches`: The first slice reaches the end of the other's.
* `Greedy.length_le`: A greedy cut stays ahead.
* `Greedy.fewest`: It has as few slices as any.
-/

namespace Slicing

variable {α : Type}

/-- A part of an `ok` list is `ok`. -/
def Hereditary (ok : List α → Prop) : Prop := ∀ ys xs, ys <:+: xs → ok xs → ok ys

/-- The list `xs` cut into `ok` slices, none of which is empty: put together they
    are `xs` again. -/
structure Cuts (ok : List α → Prop) (xs : List α) (cut : List (List α)) : Prop where
  whole : cut.flatten = xs
  slice : ∀ c ∈ cut, c ≠ [] ∧ ok c

/-- No slice could also take the first element of the next one. -/
def Greedy (ok : List α → Prop) (cut : List (List α)) : Prop :=
  cut.IsChain fun c d => ∀ x, d.head? = some x → ¬ ok (c ++ [x])

/-- A cut with as few slices as any. -/
def Fewest (ok : List α → Prop) (xs : List α) (cut : List (List α)) : Prop :=
  Cuts ok xs cut ∧ ∀ other, Cuts ok xs other → cut.length ≤ other.length

section

variable {ok : List α → Prop}

/-- What begins inside an `ok` list loses all the rest of it to the first slice. -/
theorem Greedy.reaches (hok : Hereditary ok) (c t rest : List α) (cs : List (List α))
    (hgreedy : Greedy ok (c :: cs)) (hne : ∀ d ∈ cs, d ≠ []) (ht : ok t)
    (hflat : c ++ cs.flatten = t ++ rest) : cs.flatten <:+ rest := by
  rcases List.append_eq_append_iff.mp hflat with ⟨a, rfl, hrest⟩ | ⟨a, rfl, hrest⟩
  · rcases a with _ | ⟨x, a⟩
    · exact ⟨[], hrest⟩
    -- Otherwise the slice has left out an element it could have taken.
    · exfalso
      rcases cs with _ | ⟨d, ds⟩
      · cases hrest
      · have hhead : d.head? = some x := by
          rcases d with _ | ⟨y, d⟩
          · exact absurd rfl (hne [] List.mem_cons_self)
          · rw [List.flatten_cons, List.cons_append, List.cons_append, List.cons.injEq] at hrest
            rw [List.head?_cons, hrest.1]
        have hpart : c ++ [x] <:+: c ++ x :: a := ⟨[], a, by simp⟩
        exact (List.isChain_cons_cons.mp hgreedy).1 x hhead (hok _ _ hpart ht)
  · exact ⟨a, hrest.symm⟩

/-- A greedy cut of what is left of a list, or of less, has no more slices than
    are left of any cut. -/
theorem Greedy.length_le (hok : Hereditary ok) (cut other : List (List α))
    (hgreedy : Greedy ok cut) (hne : ∀ c ∈ cut, c ≠ []) (hother : ∀ c ∈ other, ok c)
    (hleft : cut.flatten <:+ other.flatten) : cut.length ≤ other.length := by
  -- Induction on the other cut; the greedy one loses its first slice or none.
  induction other generalizing cut with
  | nil =>
      rcases cut with _ | ⟨c, cs⟩
      · exact Nat.le_refl _
      · rw [List.flatten_nil, List.suffix_nil, List.flatten_cons, List.append_eq_nil_iff] at hleft
        exact absurd hleft.1 (hne c List.mem_cons_self)
  | cons o os ih =>
      have hos : ∀ c ∈ os, ok c := fun c hc => hother c (List.mem_cons_of_mem o hc)
      rw [List.flatten_cons] at hleft
      rcases List.suffix_or_suffix_of_suffix hleft (List.suffix_append o os.flatten) with
        hin | ⟨t, ht⟩
      · exact Nat.le_succ_of_le (ih cut hgreedy hne hos hin)
      · rcases cut with _ | ⟨c, cs⟩
        · exact Nat.zero_le _
        · -- What is left begins with the end of `o`.
          have hsuffix : t <:+ o := by
            rw [← ht] at hleft
            exact (List.suffix_append_inj_of_length_eq rfl).mp hleft |>.1
          have htok : ok t := hok t o hsuffix.isInfix (hother o List.mem_cons_self)
          have hcs : ∀ d ∈ cs, d ≠ [] := fun d hd => hne d (List.mem_cons_of_mem c hd)
          have hrest := hgreedy.reaches hok c t os.flatten cs hcs htok ht.symm
          exact Nat.succ_le_succ (ih cs (List.isChain_cons.mp hgreedy).2 hcs hos hrest)

/-- A greedy cut has as few slices as any. -/
theorem Greedy.fewest (hok : Hereditary ok) (xs : List α) (cut : List (List α))
    (hgreedy : Greedy ok cut) (hcut : Cuts ok xs cut) : Fewest ok xs cut := by
  refine ⟨hcut, fun other hother => ?_⟩
  have hleft : cut.flatten <:+ other.flatten :=
    ⟨[], by rw [List.nil_append, hcut.whole, hother.whole]⟩
  exact hgreedy.length_le hok cut other (fun c hc => (hcut.slice c hc).1)
    (fun c hc => (hother.slice c hc).2) hleft

end

end Slicing
