import Pickpoint.Theory.Generations

/-!
# Readers

Every socket has at most one reader, and a reader's socket exists. The install
of a socket spawns its reader, and no other step makes one.

With it the events on a wire are dispatched one after the other: while the
reader of a socket is busy with one, no other event of that socket is looked
at.

## Main definitions

* `Task.reads`: The socket a task reads.
* `OneReader`: What holds of the readers of a pool.

## Theorems

* `heir_reads`, `spawned_reads`: Where readers come from.
* `reach_oneReader`: Every socket has at most one reader.
-/

namespace Pickpoint

namespace Tracking

open Interleave

/-- The socket a task reads. -/
def Task.reads : Task → Option Nat
  | .reader sock _ _ => some sock
  | _ => none

theorem reads_of_kind (t : Task) (h : t.kind ≠ .reader) : t.reads = none := by
  cases t with
  | reader sock gen pc => exact absurd rfl h
  | _ => rfl

theorem reads_iff (t : Task) (k : Nat) :
    t.reads = some k ↔ ∃ gen pc, t = .reader k gen pc := by
  constructor
  · intro h
    cases t with
    | reader sock gen pc =>
        cases h
        exact ⟨gen, pc, rfl⟩
    | _ => cases h
  · rintro ⟨gen, pc, rfl⟩
    rfl

/-- An install that is not refused brings a socket and makes it current. -/
theorem move_install (l l' : Link) (hm : Link.Move (.install l.dialGen) l l')
    (hint : l.intentional = false) :
    l'.current = some l.gens.length ∧ l'.gens = l.gens ++ [l.dialGen] := by
  generalize hd : Drive.install l.dialGen = d at hm
  cases hm with
  | superseded _ gen hgen =>
      rcases hgen with hgen | hgen
      · exact absurd (Drive.install.inj hd).symm hgen
      · cases hgen.symm.trans hint
  | install => exact ⟨rfl, rfl⟩
  | _ => cases hd

section Client

variable (geo : Geo)

/-- A reader keeps its socket, and nothing becomes a reader. -/
theorem heir_reads (t : Task) (c : Input) (a : Act Section Task) (s : Shared)
    (h : t.act c = some a) (k : Nat) (hk : ((client geo).heir a s).reads = some k) :
    t.reads = some k := by
  have hkind := heir_kind geo t c a s h
  have hheir : ((client geo).heir a s).kind = .reader := by
    rcases (reads_iff _ k).mp hk with ⟨gen, pc, hr⟩
    rw [hr]
    rfl
  rcases hkind with hkind | hkind | ⟨_, _, _, _, hdial⟩
  · rw [hheir] at hkind
    revert hk
    unfold Machine.heir
    revert h
    cases t with
    | reader sock gen pc =>
        simp only [Task.act]
        fun_cases Task.readerAct sock gen pc c <;> intro h <;> cases h
        -- After a frame the reader goes on, whatever the dispatcher leaves it to do.
        case reader.case1.refl msg =>
          rcases dispatchAct_next sock gen msg
            ((client geo).run (Task.dispatchAct sock gen msg).op s).2 with ⟨pc', hpc⟩
          rw [hpc]
          exact id
        all_goals
          dsimp only
          (try split) <;> first | exact id | rintro ⟨⟩
    | _ => cases hkind
  · cases hheir.symm.trans hkind
  · rw [hdial] at hk
    cases hk

/-- A new reader reads the socket that is installed with it. -/
theorem spawned_reads (t : Task) (c : Input) (a : Act Section Task) (s : Shared)
    (h : t.act c = some a) (u : Task) (hu : u ∈ (client geo).spawned a s) (k : Nat)
    (hk : u.reads = some k) :
    t.kind = .dial ∧ k = s.sockets.length ∧
      ((client geo).after a s).gens = s.gens ++ [s.inner.dialGen] := by
  rcases spawned_cases geo t c a s h u hu with
    ⟨owner, resume, rfl, hint, rfl | rfl⟩ | ⟨_, _, _, rfl | rfl | ⟨_, rfl⟩⟩ | ⟨_, _, _, rfl⟩
  · cases hk
  · cases hk
    have hdrive : a.op.drive = .install s.inner.dialGen := by
      cases c <;> cases h
      rfl
    have hm : Link.Move (.install s.link.dialGen) s.link ((client geo).after a s).link :=
      hdrive ▸ after_moves geo a s
    exact ⟨rfl, rfl, (move_install _ _ hm hint).2⟩
  · cases hk
  · cases hk
  · cases hk
  · cases hk

/-- What is spawned holds at most one reader. -/
theorem spawned_pairwise (t : Task) (c : Input) (a : Act Section Task) (s : Shared)
    (h : t.act c = some a) :
    ((client geo).spawned a s).Pairwise fun u v => ∀ k, u.reads = some k → v.reads ≠ some k := by
  unfold Machine.spawned
  revert h
  cases t with
  | dial owner pc =>
      simp only [Task.act]
      fun_cases Task.dialAct owner pc c <;> intro h <;> cases h
      case dial.case6.refl gen resume =>
        dsimp only
        split
        · exact .nil
        · -- The writer comes first.
          refine .cons ?_ (List.pairwise_singleton _ _)
          intro v _ k hk
          cases hk
      all_goals
        dsimp only
        (try split) <;> first | exact .nil | exact List.pairwise_singleton _ _
  | reader sock gen pc =>
      simp only [Task.act]
      fun_cases Task.readerAct sock gen pc c <;> intro h <;> cases h
      -- What a dispatcher spawns reads from no socket.
      case reader.case1.refl msg =>
        refine List.pairwise_of_forall_mem_list fun u hu v _ k hk => ?_
        rcases dispatchAct_spawned sock gen msg _ u hu with rfl | ⟨_, rfl⟩ <;> cases hk
      all_goals
        dsimp only
        (try split) <;> first | exact .nil | exact List.pairwise_singleton _ _
  | _ =>
      intro h
      refine List.pairwise_of_forall_mem_list fun u hu v _ k hk => ?_
      cases (spawned_reads geo _ c a s h u hu k hk).1

/-- Sockets are never forgotten. -/
theorem after_sockets_le (a : Act Section Task) (s : Shared) :
    s.sockets.length ≤ ((client geo).after a s).sockets.length := by
  have hlen := gens_length s
  have hlen' := gens_length ((client geo).after a s)
  rcases move_gens _ _ _ (after_moves geo a s) with hg | ⟨_, hg⟩
  · rw [hg] at hlen'
    omega
  · rw [hg, List.length_append] at hlen'
    omega

variable (cfg : Config) (C : Pool Shared Task → Nat → Task → Act Section Task → Prop)

/-- What holds of the readers of a pool. -/
structure OneReader (p : Pool Shared Task) : Prop where
  lt : ∀ (j : Nat) u, p.tasks[j]? = some u → ∀ k, u.reads = some k → k < p.shared.sockets.length
  distinct : Machine.Distinct (fun t u => ∀ k, t.reads = some k → u.reads ≠ some k) p

theorem reach_reads_lt (p : Pool Shared Task)
    (h : (client geo).Reach (Started cfg) ((client geo).whenever C) p) :
    ∀ (j : Nat) u, p.tasks[j]? = some u → ∀ k, u.reads = some k →
      k < p.shared.sockets.length := by
  refine ((client geo).reach_tasks (Started cfg) C (fun _ => True)
    (fun s t => ∀ k, t.reads = some k → k < s.sockets.length) ?_ ?_ ?_ ?_ p h).2
  · intro p hp
    rcases started_pool cfg p hp with ⟨now, rfl⟩
    refine ⟨trivial, fun t ht k hk => ?_⟩
    rw [List.mem_singleton.mp ht] at hk
    cases hk
  · intro s t _ hent k hk
    rw [reads_of_kind t (call_kind t ((entry_iff geo s t).mp hent).2).2.1] at hk
    cases hk
  · intro p i c t a _ ha _ _ hQ _
    refine ⟨trivial, fun k hk => ?_, fun u hu k hk => ?_⟩
    · exact Nat.lt_of_lt_of_le (hQ k (heir_reads geo t c a p.shared ha k hk))
        (after_sockets_le geo a p.shared)
    · rcases spawned_reads geo t c a p.shared ha u hu k hk with ⟨_, rfl, hgens⟩
      have hlen := congrArg List.length hgens
      rw [List.length_append, List.length_singleton, Shared.gens, Shared.gens, List.length_map,
        List.length_map] at hlen
      omega
  · intro p i j c t u a _ _ _ _ _ _ _ hu k hk
    exact Nat.lt_of_lt_of_le (hu k hk) (after_sockets_le geo a p.shared)

theorem reach_reads_distinct (p : Pool Shared Task)
    (h : (client geo).Reach (Started cfg) ((client geo).whenever C) p) :
    Machine.Distinct (fun t u => ∀ k, t.reads = some k → u.reads ≠ some k) p := by
  have hreach := (client geo).reach_knowing (Started cfg) C _
    (fun p h => reach_reads_lt geo cfg C p h) p h
  refine (client geo).reach_distinct (Started cfg) _
    (fun t u => ∀ k, t.reads = some k → u.reads ≠ some k) ?_ ?_ ?_ ?_ ?_ ?_ p hreach
  · exact fun t u hD k hu ht => hD k ht hu
  · intro p hp i j t u hij ht hu
    rcases started_pool cfg p hp with ⟨now, rfl⟩
    have hi := (List.getElem?_eq_some_iff.mp ht).1
    have hj := (List.getElem?_eq_some_iff.mp hu).1
    rw [List.length_singleton] at hi hj
    omega
  · intro s t u hent k hk
    rw [reads_of_kind t (call_kind t ((entry_iff geo s t).mp hent).2).2.1] at hk
    cases hk
  · intro p i j c t u a _ _ _ ha _ hD k hk
    exact hD k (heir_reads geo t c a p.shared ha k hk)
  · intro p i j c t u a _ hu _ ha hC _ n hn k hk hk'
    -- A new socket is none that somebody reads already.
    rcases spawned_reads geo t c a p.shared ha n hn k hk with ⟨_, rfl, _⟩
    exact absurd (hC.2 j u hu _ hk') (Nat.lt_irrefl _)
  · intro p i c t a _ ha _
    refine List.pairwise_cons.mpr ⟨fun n hn k hk hk' => ?_, spawned_pairwise geo t c a p.shared ha⟩
    have hkind := (spawned_reads geo t c a p.shared ha n hn k hk').1
    rcases (reads_iff t k).mp (heir_reads geo t c a p.shared ha k hk) with ⟨gen, pc, rfl⟩
    cases hkind

/-- Every socket has at most one reader. -/
theorem reach_oneReader (p : Pool Shared Task)
    (h : (client geo).Reach (Started cfg) ((client geo).whenever C) p) : OneReader p :=
  ⟨reach_reads_lt geo cfg C p h, reach_reads_distinct geo cfg C p h⟩

end Client

end Tracking

end Pickpoint
