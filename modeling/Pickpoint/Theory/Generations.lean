import Pickpoint.Theory.Lineage

/-!
# Dial Generations

Every dial takes its own generation. The generation of a dial that has not
installed its socket yet is held by that dial alone: no other dial holds it
and no socket has it. So an install always brings a new generation, and the
connection of every pool reached is sound in the sense of `Link.Sound`.

The results hold for every run, whatever the network and the server do, and
are stated for the runs of an arbitrary step condition so that later
invariants can be conditional.

## Main definitions

* `Task.dialing`: The generation of a dial that has no socket yet.
* `Dialed`: What holds of the generations of a pool.

## Theorems

* `reach_dialing_le`: No dial is ahead of `dialGen`.
* `reach_dialing_distinct`: No two dials share a generation.
* `reach_dialed`: No socket has the generation of a pending dial, and the
  connection is sound.
-/

namespace Pickpoint

namespace Tracking

open Interleave

/-- The generation of a dial that has no socket yet. -/
def Task.dialing : Task → Option Nat
  | .dial _ (.connecting gen _) | .dial _ (.hello gen _) | .dial _ (.install gen _) => some gen
  | _ => none

theorem dialing_of_kind (t : Task) (h : t.kind ≠ .dial) : t.dialing = none := by
  cases t with
  | dial owner pc => exact absurd rfl h
  | _ => rfl

theorem call_dialing (t : Task) (h : t.isCall = true) : t.dialing = none :=
  dialing_of_kind t (call_kind t h).1

section Client

variable (geo : Geo)

/-- The step of a task moves the connection as its section does. -/
theorem after_moves (a : Act Section Task) (s : Shared) :
    Link.Move a.op.drive s.link ((client geo).after a s).link := run_moves geo a.op s

theorem after_begin (a : Act Section Task) (s : Shared) (h : a.op.drive = .begin) :
    ((client geo).after a s).inner.dialGen = s.inner.dialGen + 1 ∧
      ((client geo).after a s).gens = s.gens ∧
      ((client geo).after a s).inner.sessionReady = false ∧
      ((client geo).after a s).inner.state ≠ .open :=
  move_begin _ _ (h ▸ after_moves geo a s)

theorem after_dialGen_le (a : Act Section Task) (s : Shared) :
    s.inner.dialGen ≤ ((client geo).after a s).inner.dialGen :=
  move_dialGen_le _ _ _ (after_moves geo a s)

theorem after_gens (a : Act Section Task) (s : Shared) :
    ((client geo).after a s).gens = s.gens ∨
      (a.op.drive = .install s.inner.dialGen ∧
        ((client geo).after a s).gens = s.gens ++ [s.inner.dialGen]) :=
  move_gens _ _ _ (after_moves geo a s)

theorem after_gens_get (a : Act Section Task) (s : Shared) (k gen : Nat)
    (h : s.gens[k]? = some gen) : ((client geo).after a s).gens[k]? = some gen := by
  rcases after_gens geo a s with hg | ⟨_, hg⟩
  · rw [hg]
    exact h
  · rw [hg, List.getElem?_append_left (List.getElem?_eq_some_iff.mp h).1]
    exact h

/-- Nothing a task spawns is a dial with a generation of its own. -/
theorem spawned_dialing (t : Task) (c : Input) (a : Act Section Task) (s : Shared)
    (h : t.act c = some a) (u : Task) (hu : u ∈ (client geo).spawned a s) :
    u.dialing = none := by
  rcases spawned_cases geo t c a s h u hu with
    ⟨_, _, _, _, rfl | rfl⟩ | ⟨_, _, _, rfl | rfl | ⟨_, rfl⟩⟩ | ⟨_, _, _, rfl⟩ <;> rfl

/-- A dial keeps its generation until it installs or gives up; the block that
    begins it takes the next one. -/
theorem heir_dialing (t : Task) (c : Input) (a : Act Section Task) (s : Shared)
    (h : t.act c = some a) (gen : Nat) (hg : ((client geo).heir a s).dialing = some gen) :
    (t.dialing = some gen ∧ a.op.drive = .idle) ∨
      (a.op.drive = .begin ∧ gen = s.inner.dialGen + 1) := by
  have hnot : ∀ u : Task, u.kind ≠ .dial → u.dialing ≠ some gen := by
    intro u hu
    rw [dialing_of_kind u hu]
    rintro ⟨⟩
  -- Only a dial holds a generation, and it takes one where it begins.
  rcases heir_kind geo t c a s h with hk | hk | ⟨_, _, _, _, hk⟩
  · cases t with
    | dial owner pc =>
        revert hg
        unfold Machine.heir
        revert h
        simp only [Task.act]
        fun_cases Task.dialAct owner pc c <;> intro h <;> cases h
        case dial.case1.refl gen' resume =>
          intro hg
          exact Or.inr ⟨rfl, (Option.some.inj hg).symm⟩
        case dial.case2.refl gen' resume => exact fun hg => Or.inl ⟨hg, rfl⟩
        case dial.case4.refl gen' resume msg =>
          cases msg with
          | hello version nodeId shard =>
            dsimp only [Task.helloReply]
            split
            · exact fun hg => Or.inl ⟨hg, rfl⟩
            · rintro ⟨⟩
          | _ => rintro ⟨⟩
        all_goals
          dsimp only
          (try split) <;> (try split) <;> rintro ⟨⟩
    | _ => exact absurd hg (hnot _ (by rw [hk]; rintro ⟨⟩))
  · exact absurd hg (hnot _ (by rw [hk]; rintro ⟨⟩))
  · rw [hk] at hg
    cases hg

/-! ## Runs -/

variable (cfg : Config) (C : Pool Shared Task → Nat → Task → Act Section Task → Prop)

/-- No pending dial is ahead of `dialGen`. -/
theorem reach_dialing_le (p : Pool Shared Task)
    (h : (client geo).Reach (Started cfg) ((client geo).whenever C) p) :
    ∀ (j : Nat) u, p.tasks[j]? = some u → ∀ gen, u.dialing = some gen →
      gen ≤ p.shared.inner.dialGen := by
  refine ((client geo).reach_tasks (Started cfg) C (fun _ => True)
    (fun s t => ∀ gen, t.dialing = some gen → gen ≤ s.inner.dialGen)
    ?_ ?_ ?_ ?_ p h).2
  · intro p hp
    rcases started_pool cfg p hp with ⟨now, rfl⟩
    refine ⟨trivial, fun t ht gen hgen => ?_⟩
    rw [List.mem_singleton.mp ht] at hgen
    cases hgen
  · intro s t _ hent gen hgen
    rw [call_dialing t ((entry_iff geo s t).mp hent).2] at hgen
    cases hgen
  · -- A task that dials holds its generation from before, or has just taken the next.
    intro p i c t a ht ha _ _ hQ _
    refine ⟨trivial, fun gen hgen => ?_, fun u hu gen hgen => ?_⟩
    · rcases heir_dialing geo t c a p.shared ha gen hgen with ⟨hold, _⟩ | ⟨hbegin, rfl⟩
      · exact Nat.le_trans (hQ gen hold) (after_dialGen_le geo a p.shared)
      · exact Nat.le_of_eq (after_begin geo a p.shared hbegin).1.symm
    · rw [spawned_dialing geo t c a p.shared ha u hu] at hgen
      cases hgen
  · intro p i j c t u a _ _ _ _ _ _ _ hu gen hgen
    exact Nat.le_trans (hu gen hgen) (after_dialGen_le geo a p.shared)

/-- No two pending dials share a generation. -/
theorem reach_dialing_distinct (p : Pool Shared Task)
    (h : (client geo).Reach (Started cfg) ((client geo).whenever C) p) :
    Machine.Distinct (fun t u => ∀ gen, t.dialing = some gen → u.dialing ≠ some gen) p := by
  have hreach := (client geo).reach_knowing (Started cfg) C _
    (fun p h => reach_dialing_le geo cfg C p h) p h
  refine (client geo).reach_distinct (Started cfg) _
    (fun t u => ∀ gen, t.dialing = some gen → u.dialing ≠ some gen)
    ?_ ?_ ?_ ?_ ?_ ?_ p hreach
  · exact fun t u hD gen hu ht => hD gen ht hu
  -- At the start there is one task.
  · intro p hp i j t u hij ht hu
    rcases started_pool cfg p hp with ⟨now, rfl⟩
    have hi := (List.getElem?_eq_some_iff.mp ht).1
    have hj := (List.getElem?_eq_some_iff.mp hu).1
    rw [List.length_singleton] at hi hj
    omega
  · intro s t u hent gen hgen
    rw [call_dialing t ((entry_iff geo s t).mp hent).2] at hgen
    cases hgen
  · intro p i j c t u a _ hu _ ha hC hD gen hgen
    rcases heir_dialing geo t c a p.shared ha gen hgen with ⟨hold, _⟩ | ⟨_, rfl⟩
    · exact hD gen hold
    · -- The generation just taken is beyond every one held.
      intro hgen'
      have := hC.2 j u hu _ hgen'
      omega
  · intro p i j c t u a _ _ _ ha _ _ n hn gen hgen
    rw [spawned_dialing geo t c a p.shared ha n hn] at hgen
    cases hgen
  -- Spawned tasks hold no generation at all.
  · intro p i c t a _ ha _
    have hspawned := fun n hn => spawned_dialing geo t c a p.shared ha n hn
    refine List.pairwise_cons.mpr ⟨fun n hn gen _ hgen => ?_, ?_⟩
    · rw [hspawned n hn] at hgen
      cases hgen
    · refine List.Pairwise.imp_of_mem (R := fun _ _ => True) ?_
        (List.pairwise_of_forall fun _ _ => trivial)
      intro n n' hn _ _ gen hgen
      rw [hspawned n hn] at hgen
      cases hgen

/-- What holds of the generations of a pool. -/
structure Dialed (p : Pool Shared Task) : Prop where
  sound : p.shared.link.Sound
  le : ∀ (j : Nat) u, p.tasks[j]? = some u → ∀ gen, u.dialing = some gen →
    gen ≤ p.shared.inner.dialGen
  fresh : ∀ (j : Nat) u, p.tasks[j]? = some u → ∀ gen, u.dialing = some gen →
    gen ∉ p.shared.gens
  distinct : Machine.Distinct
    (fun t u => ∀ gen, t.dialing = some gen → u.dialing ≠ some gen) p

/-- Generations are never shared. -/
theorem reach_dialed (p : Pool Shared Task)
    (h : (client geo).Reach (Started cfg) ((client geo).whenever C) p) : Dialed p := by
  have hreach := (client geo).reach_knowing (Started cfg) C _
    (fun p h => And.intro (reach_dialing_le geo cfg C p h)
      (reach_dialing_distinct geo cfg C p h)) p h
  have hfresh := (client geo).reach_tasks (Started cfg) _ (fun s => s.link.Sound)
    (fun s t => ∀ gen, t.dialing = some gen → gen ∉ s.gens) ?_ ?_ ?_ ?_ p hreach
  · exact ⟨hfresh.1, reach_dialing_le geo cfg C p h, hfresh.2,
      reach_dialing_distinct geo cfg C p h⟩
  · intro p hp
    rcases started_pool cfg p hp with ⟨now, rfl⟩
    refine ⟨⟨fun g hg => absurd hg List.not_mem_nil, by rintro k ⟨⟩, by rintro k ⟨⟩⟩,
      fun t ht gen hgen => ?_⟩
    rw [List.mem_singleton.mp ht] at hgen
    cases hgen
  · intro s t _ hent gen hgen
    rw [call_dialing t ((entry_iff geo s t).mp hent).2] at hgen
    cases hgen
  -- The step of a dial: an install keeps the connection sound, as its generation is fresh.
  · intro p i c t a ht ha _ hsound hQ _
    refine ⟨move_sound _ _ _ (after_moves geo a p.shared) hsound ?_,
      fun gen hgen => ?_, fun u hu gen hgen => ?_⟩
    · intro gen hinst
      have hby := act_madeBy t c a ha
      rw [hinst] at hby
      rcases hby with ⟨owner, resume, rfl⟩
      exact hQ gen rfl
    · rcases heir_dialing geo t c a p.shared ha gen hgen with ⟨hold, hidle⟩ | ⟨hbegin, rfl⟩
      · rcases after_gens geo a p.shared with hg | ⟨hinst, _⟩
        · rw [hg]
          exact hQ gen hold
        · rw [hidle] at hinst
          cases hinst
      · -- A generation just taken is beyond those of the sockets.
        rw [(after_begin geo a p.shared hbegin).2.1]
        intro hmem
        exact absurd (hsound.gens_le _ hmem) (Nat.not_le_of_lt (Nat.lt_succ_self _))
    · rw [spawned_dialing geo t c a p.shared ha u hu] at hgen
      cases hgen
  · intro p i j c t u a ht hu hji ha hC _ _ hQu gen hgen
    rcases after_gens geo a p.shared with hg | ⟨hinst, hg⟩
    · rw [hg]
      exact hQu gen hgen
    · -- The new socket belongs to a dial whose generation only that dial holds.
      have hby := act_madeBy t c a ha
      rw [hinst] at hby
      rcases hby with ⟨owner, resume, rfl⟩
      rw [hg, List.mem_append, List.mem_singleton]
      rintro (hold | rfl)
      · exact hQu gen hgen hold
      · exact hC.2.2 j i u _ hji hu ht _ hgen rfl

end Client

end Tracking

end Pickpoint
