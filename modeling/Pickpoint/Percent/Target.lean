import Pickpoint.Percent.Coding
import Mathlib.Data.List.TakeWhile

/-!
# Targets

What an address asks of a server, as it is written and as it is read: the parts of a
path, and behind a question mark the pairs of a form.

Readers follow a path as they read it. A part that is one dot is where they are, and
two dots take them back by one part, whether or not the dots are written as they are.
A dot may stand for itself, and writing it with a percent sign would not help. So what
is written is read back just when no part is one or two dots (`readTarget_writeTarget`).

## Main definitions

* `dotted`: The parts that are lost.
* `removeDots`: How a path is followed.
* `writeTarget`, `readTarget`: A path with its pairs.

## Theorems

* `removeDots_plain`: A path without dots is followed as it is.
* `removeDots_rid`: Dots are nowhere in what is read.
* `readTarget_writeTarget`: What is read back.
-/

namespace Percent

/-- One dot or two. -/
def dotted (bs : List UInt8) : Bool := bs == [46] || bs == [46, 46]

/-- Follow the parts of a path, behind those of `out`, which are in reverse. -/
def removeDots : List (List Char) → List (List Char) → List (List Char)
  | out, [] => out.reverse
  | out, part :: parts =>
    if decode part = some [46, 46] then
      -- Dots at the end leave an empty part there.
      if parts = [] then ([] :: out.tail).reverse else removeDots out.tail parts
    else if decode part = some [46] then
      if parts = [] then ([] :: out).reverse else removeDots out parts
    else removeDots (part :: out) parts

/-- Write parts and pairs. -/
def writeTarget (parts : List (List UInt8)) (pairs : List (List UInt8 × List UInt8)) : List Char :=
  joinPath (parts.map (encode unreserved)) ++
    if serialize pairs = [] then [] else '?' :: serialize pairs

/-- Read parts and pairs. A fragment is left out. -/
def readTarget (cs : List Char) : Option (List (List UInt8) × List (List UInt8 × List UInt8)) :=
  let sent := cs.takeWhile fun c => c != '#'
  let path := sent.takeWhile fun c => c != '?'
  let query := (sent.dropWhile fun c => c != '?').tail
  match (removeDots [] (splitPath path)).mapM decode, parsePairs query with
  | some parts, some pairs => some (parts, pairs)
  | _, _ => none

/-! ## Dots -/

/-- The part is followed as it is. -/
def Steady (part : List Char) : Prop := ∀ bs, decode part = some bs → dotted bs = false

theorem removeDots_plain (out parts : List (List Char)) (h : ∀ part ∈ parts, Steady part) :
    removeDots out parts = out.reverse ++ parts := by
  induction parts generalizing out with
  | nil => rw [removeDots, List.append_nil]
  | cons part parts ih =>
      have hpart := h part List.mem_cons_self
      have htwo : decode part ≠ some [46, 46] := fun heq => Bool.noConfusion (hpart _ heq)
      have hone : decode part ≠ some [46] := fun heq => Bool.noConfusion (hpart _ heq)
      rw [removeDots, if_neg htwo, if_neg hone, ih _ fun p hp => h p (List.mem_cons_of_mem _ hp),
        List.reverse_cons, List.append_assoc, List.singleton_append]

theorem removeDots_rid (out parts : List (List Char)) (hout : ∀ part ∈ out, Steady part) :
    ∀ part ∈ removeDots out parts, Steady part := by
  have hempty : Steady [] := by
    intro bs hbs
    cases hbs
    rfl
  induction parts generalizing out with
  | nil => simpa only [removeDots, List.mem_reverse] using hout
  | cons part parts ih =>
      have htail : ∀ p ∈ out.tail, Steady p := fun p hp => hout p (List.mem_of_mem_tail hp)
      rw [removeDots]
      by_cases htwo : decode part = some [46, 46]
      · rw [if_pos htwo]
        by_cases hend : parts = []
        · simp only [if_pos hend, List.mem_reverse, List.forall_mem_cons]
          exact ⟨hempty, htail⟩
        · rw [if_neg hend]
          exact ih out.tail htail
      rw [if_neg htwo]
      by_cases hone : decode part = some [46]
      · rw [if_pos hone]
        by_cases hend : parts = []
        · simp only [if_pos hend, List.mem_reverse, List.forall_mem_cons]
          exact ⟨hempty, hout⟩
        · rw [if_neg hend]
          exact ih out hout
      rw [if_neg hone]
      refine ih (part :: out) fun p hp => ?_
      rcases List.mem_cons.mp hp with rfl | hp
      · intro bs hbs
        -- What is read of the part is neither of the two.
        by_cases hdots : dotted bs = true
        · rcases Bool.or_eq_true_iff.mp hdots with h | h
          · exact absurd (eq_of_beq h ▸ hbs) hone
          · exact absurd (eq_of_beq h ▸ hbs) htwo
        · exact Bool.eq_false_iff.mpr hdots
      · exact hout p hp

/-! ## Reading -/

theorem mapM_decode_encode (parts : List (List UInt8)) :
    (parts.map (encode unreserved)).mapM decode = some parts := by
  induction parts with
  | nil => rfl
  | cons part parts ih =>
      simp only [List.map_cons, List.mapM_cons, decode_encode unreserved unreserved_plain, ih]
      rfl

/-- Whatever is read stood in what it was read from. -/
theorem mapM_mem {α β : Type} (f : α → Option β) (xs : List α) (ys : List β)
    (h : xs.mapM f = some ys) (y : β) (hy : y ∈ ys) : ∃ x ∈ xs, f x = some y := by
  induction xs generalizing ys with
  | nil =>
      cases h
      cases hy
  | cons x xs ih =>
      rw [List.mapM_cons] at h
      rcases hx : f x with _ | z
      · rw [hx] at h
        cases h
      rcases hxs : xs.mapM f with _ | zs
      · rw [hx, hxs] at h
        cases h
      · rw [hx, hxs] at h
        cases h
        rcases List.mem_cons.mp hy with rfl | hy
        · exact ⟨x, List.mem_cons_self, hx⟩
        · rcases ih zs hxs hy with ⟨x', hmem, heq⟩
          exact ⟨x', List.mem_cons_of_mem _ hmem, heq⟩

theorem joinPath_avoids (parts : List (List UInt8)) (n : UInt8) (hn : n.toNat < 128)
    (hpercent : n ≠ 37) (hslash : n ≠ 47) (hother : (alphanumeric n || unreserved n) = false) :
    Char.ofNat n.toNat ∉ joinPath (parts.map (encode unreserved)) := by
  intro h
  rcases List.mem_flatMap.mp h with ⟨cs, hcs, hc⟩
  rcases List.mem_map.mp hcs with ⟨part, _, rfl⟩
  rcases List.mem_cons.mp hc with heq | hc
  · have hchar := toNat_ofNat_ascii n.toNat hn
    rw [heq] at hchar
    exact hslash (UInt8.toNat_inj.mp hchar.symm)
  · exact encode_avoids unreserved unreserved_plain part n hn hpercent hother hc

theorem serialize_avoids (pairs : List (List UInt8 × List UInt8)) : '#' ∉ serialize pairs := by
  have hpart : ∀ bs, '#' ∉ formEncode bs := fun bs =>
    formEncode_avoids bs 35 (by decide) (by decide) (by decide) (by decide)
  have hpair : ∀ p, '#' ∉ formPair p := by
    intro p h
    rcases List.mem_append.mp h with h | h
    · exact hpart p.1 h
    rcases List.mem_cons.mp h with h | h
    · cases h
    · exact hpart p.2 h
  induction pairs with
  | nil => exact List.not_mem_nil
  | cons p pairs ih =>
      cases pairs with
      | nil =>
          rw [serialize, List.map_singleton, List.intercalate_singleton]
          exact hpair p
      | cons q pairs =>
          intro h
          rw [serialize, List.map_cons, List.map_cons, List.intercalate_cons_cons,
            List.append_assoc, List.singleton_append] at h
          rcases List.mem_append.mp h with h | h
          · exact hpair p h
          rcases List.mem_cons.mp h with h | h
          · cases h
          · exact ih h

/-- The two halves of a text at its first `c`. -/
theorem cut_at (c : Char) (before after : List Char) (h : c ∉ before) :
    (before ++ c :: after).takeWhile (fun d => d != c) = before ∧
      (before ++ c :: after).dropWhile (fun d => d != c) = c :: after := by
  have hkept : ∀ d ∈ before, (d != c) = true := fun d hd => bne_iff_ne.mpr fun heq => h (heq ▸ hd)
  constructor
  · rw [List.takeWhile_append_of_pos hkept, List.takeWhile_cons_of_neg (by simp), List.append_nil]
  · rw [List.dropWhile_append_of_pos hkept, List.dropWhile_cons_of_neg (by simp)]

theorem cut_none (c : Char) (cs : List Char) (h : c ∉ cs) :
    cs.takeWhile (fun d => d != c) = cs ∧ cs.dropWhile (fun d => d != c) = [] := by
  have hkept : ∀ d ∈ cs, (d != c) = true := fun d hd => bne_iff_ne.mpr fun heq => h (heq ▸ hd)
  exact ⟨List.takeWhile_eq_self_iff.mpr hkept, List.dropWhile_eq_nil_iff.mpr hkept⟩

/-- What a reader makes of what is written, but for the dots. -/
theorem readTarget_eq (parts : List (List UInt8)) (pairs : List (List UInt8 × List UInt8)) :
    readTarget (writeTarget parts pairs) =
      ((removeDots [] (parts.map (encode unreserved))).mapM decode).map fun ps => (ps, pairs) := by
  -- No written part holds a delimiter, so the three cuts fall where the writer put them.
  have hpath : '?' ∉ joinPath (parts.map (encode unreserved)) :=
    joinPath_avoids parts 63 (by decide) (by decide) (by decide) (by decide)
  have hfragment : '#' ∉ writeTarget parts pairs := by
    intro h
    rcases List.mem_append.mp h with h | h
    · exact joinPath_avoids parts 35 (by decide) (by decide) (by decide) (by decide) h
    · by_cases hnone : serialize pairs = []
      · rw [if_pos hnone] at h
        cases h
      · rw [if_neg hnone] at h
        rcases List.mem_cons.mp h with h | h
        · cases h
        · exact serialize_avoids pairs h
  have hsplit : splitPath (joinPath (parts.map (encode unreserved))) =
      parts.map (encode unreserved) := by
    refine splitPath_joinPath _ fun cs hcs => ?_
    rcases List.mem_map.mp hcs with ⟨part, _, rfl⟩
    exact encode_avoids unreserved unreserved_plain part 47 (by decide) (by decide) (by decide)
  -- With the pairs read back, what is left is to decode the parts.
  have hread : ∀ q, parsePairs q = some pairs →
      (match (removeDots [] (parts.map (encode unreserved))).mapM decode, parsePairs q with
        | some parts, some pairs => some (parts, pairs)
        | _, _ => none) =
      ((removeDots [] (parts.map (encode unreserved))).mapM decode).map fun ps => (ps, pairs) := by
    intro q hq
    rw [hq]
    cases (removeDots [] (parts.map (encode unreserved))).mapM decode <;> rfl
  have hback := parsePairs_serialize pairs
  unfold readTarget
  simp only [(cut_none '#' _ hfragment).1]
  unfold writeTarget
  -- A target without pairs is written without its question mark.
  by_cases hnone : serialize pairs = []
  · rw [hnone] at hback
    simp only [if_pos hnone, List.append_nil, (cut_none '?' _ hpath).1, (cut_none '?' _ hpath).2,
      hsplit, List.tail_nil]
    exact hread [] hback
  · simp only [if_neg hnone, (cut_at '?' _ (serialize pairs) hpath).1,
      (cut_at '?' _ (serialize pairs) hpath).2, hsplit, List.tail_cons]
    exact hread _ hback

/-- What is written is read back just when no part is one or two dots. -/
theorem readTarget_writeTarget (parts : List (List UInt8))
    (pairs : List (List UInt8 × List UInt8)) :
    readTarget (writeTarget parts pairs) = some (parts, pairs) ↔
      ∀ part ∈ parts, dotted part = false := by
  rw [readTarget_eq]
  constructor
  · intro h part hpart
    rcases hread : (removeDots [] (parts.map (encode unreserved))).mapM decode with _ | ps
    · rw [hread] at h
      cases h
    rw [hread] at h
    cases h
    rcases mapM_mem decode _ _ hread part hpart with ⟨cs, hcs, hdecode⟩
    exact removeDots_rid [] _ (fun p hp => absurd hp List.not_mem_nil) cs hcs part hdecode
  · intro h
    rw [removeDots_plain, List.reverse_nil, List.nil_append, mapM_decode_encode, Option.map_some]
    intro cs hcs bs hbs
    rcases List.mem_map.mp hcs with ⟨part, hpart, rfl⟩
    rw [decode_encode unreserved unreserved_plain, Option.some.injEq] at hbs
    exact hbs ▸ h part hpart

end Percent
