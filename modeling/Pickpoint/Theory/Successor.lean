import Pickpoint.Theory.Server

/-!
# Superseded Dials

What the failure of an old dial or socket does to a session that a later dial
has taken over.

A failing dial changes nothing by itself. What could hurt is the close handler
that runs afterwards, and it is guarded by the generation it is called with.
The reader of a closed socket passes the generation of that socket. The
reconnect task, when its dial fails, passes the generation it reads from the
session at that moment. If a later dial has begun by then this is the later
dial's generation, the guard lets the handler through, and it takes the
successor's session down (`superseded_dial_kills_successor`).

As long as no reconnect dial fails with a later dial under way, the handler
always carries the generation that failed, and a later session is safe
(`reach_successorsSafe`).

## Main definitions

* `Fails`: A step that is part of a failure of a given generation.
* `Superseded`: A later dial has made its socket current.
* `KeepsSession`: The later session is left alone.
* `SuccessorsSafe`: Failures leave later sessions alone.
* `retriesOwnGeneration`: No reconnect dial fails with a later dial under way.

## Theorems

* `failed_dial_keeps`: A dial that ends in an error changes nothing.
* `reach_lost_own`: Close handlers carry the generation that failed.
* `reach_successorsSafe`: Failures leave later sessions alone.
* `superseded_dial_kills_successor`: Not so in general.
-/

namespace Pickpoint

namespace Tracking

open Interleave

/-- A step that is part of the failure of the dial or socket of generation
    `gen`: the dial ends in an error, its owner handles the error, the reader
    sees the socket close, or the close handler or its timer runs. -/
def Fails (geo : Geo) (s : Shared) (t : Task) (c : Input) (a : Act Section Task) (gen : Nat) :
    Prop :=
  (∃ owner e, (client geo).heir a s = .dial owner (.finished gen (.error e))) ∨
    (∃ owner e, t = .dial owner (.finished gen (.error e))) ∨
    (∃ sock, t = .reader sock gen .reading ∧ c = .eof) ∨
    (∃ gen', t = .socketClosed gen gen') ∨ ∃ resume, t = .reconnectSleep gen resume

/-- A dial of a later generation has made its socket current. -/
def Superseded (s : Shared) (gen : Nat) : Prop :=
  s.inner.state = .open ∧
    ∃ k later, s.inner.outTx = some k ∧ s.gens[k]? = some later ∧ gen < later

/-- What belongs to the session of the current socket is left alone: its state and
    socket, whether it is bound, its handles and the backoff. -/
structure KeepsSession (s s' : Shared) : Prop where
  state : s'.inner.state = s.inner.state
  outTx : s'.inner.outTx = s.inner.outTx
  sessionReady : s'.inner.sessionReady = s.inner.sessionReady
  subByDevice : s'.inner.subByDevice = s.inner.subByDevice
  deviceBySub : s'.inner.deviceBySub = s.inner.deviceBySub
  backoff : s'.inner.backoff = s.inner.backoff

theorem KeepsSession.refl (s : Shared) : KeepsSession s s := ⟨rfl, rfl, rfl, rfl, rfl, rfl⟩

/-- Failures leave later sessions alone: the close handler that a failed dial or a
    lost socket brings on acts on the generation that failed, and on no later one. -/
def SuccessorsSafe (geo : Geo) (p : Pool Shared Task) : Prop :=
  ∀ (i : Nat) c t a gen, p.tasks[i]? = some t → t.act c = some a →
    Fails geo p.shared t c a gen → Superseded p.shared gen →
      KeepsSession p.shared ((client geo).after a p.shared)

/-- When the reconnect task reads the generation after its dial failed, no
    later dial has begun. -/
def retriesOwnGeneration (p : Pool Shared Task) (_ : Nat) (t : Task) (_ : Act Section Task) :
    Bool :=
  match t with
  | .dial .reconnect (.finished gen (.error _)) => decide (p.shared.inner.dialGen = gen)
  | _ => true

section Client

variable (geo : Geo)

/-- A dial that ends in an error changes nothing. -/
theorem failed_dial_keeps (t : Task) (c : Input) (a : Act Section Task) (s : Shared)
    (h : t.act c = some a) (owner : Owner) (gen : Nat) (e : Error)
    (hheir : (client geo).heir a s = .dial owner (.finished gen (.error e))) :
    (client geo).after a s = s := by
  rcases heir_kind geo t c a s h with hk | hk | ⟨_, _, _, _, hk⟩
  · rw [hheir] at hk
    cases t with
    | dial owner' pc =>
        revert hheir
        unfold Machine.heir Machine.after
        revert h
        simp only [Task.act]
        -- A dial that ends with an error has just read the state or been refused.
        fun_cases Task.dialAct owner' pc c <;> intro h <;> cases h
        case dial.case6.refl gen' resume =>
          have hrun : (client geo).run (Section.dialInstall gen') s = dialInstall gen' s := rfl
          rcases dialInstall_cases gen' s with ⟨_, hi⟩ | ⟨_, _, hi⟩
          · simp only [hrun, hi, implies_true]
          · simp only [hrun, hi]
            split <;> rintro ⟨⟩
        case dial.case11.refl gen' cell uid seq =>
          have hrun : (client geo).run (Section.sendBin (.cmd (.resume uid seq)) none) s =
              sendBin (.cmd (.resume uid seq)) none s := rfl
          rcases sendBin_cases (.cmd (.resume uid seq)) none s with ⟨_, hi⟩ | ⟨_, _, _, hi⟩
          · simp only [hrun, hi, implies_true]
          · simp only [hrun, hi]
            rintro ⟨⟩
        all_goals
          first
          | exact fun _ => rfl
          | dsimp only
            (try split) <;> rintro ⟨⟩
    | _ => cases hk
  · rw [hheir] at hk
    cases hk
  · rw [hheir] at hk
    cases hk

/-- The close handler of an older generation does nothing. -/
theorem stale_close_keeps (gen : Nat) (random : ℚ) (s : Shared) (hsound : s.link.Sound)
    (hsup : Superseded s gen) : socketClosed gen random s = (s, none) := by
  rcases hsup with ⟨_, k, later, _, hk, hlt⟩
  have hle : later ≤ s.inner.dialGen := hsound.gens_le later (List.mem_of_getElem? hk)
  rcases socketClosed_cases gen random s with ⟨_, h⟩ | ⟨rfl, _⟩
  · exact h
  · omega

variable (cfg : Config)

/-- Close handlers carry the generation that failed. -/
theorem reach_lost_own (p : Pool Shared Task)
    (h : (client geo).Reach (Started cfg)
      ((client geo).whenever fun p i t a => retriesOwnGeneration p i t a = true) p) :
    ∀ (j : Nat) u, p.tasks[j]? = some u → ∀ cause gen, u = .socketClosed cause gen →
      cause = gen := by
  refine ((client geo).reach_tasks (Started cfg) _ (fun _ => True)
    (fun _ t => ∀ cause gen, t = .socketClosed cause gen → cause = gen) ?_ ?_ ?_ ?_ p h).2
  · intro p hp
    rcases started_pool cfg p hp with ⟨now, rfl⟩
    refine ⟨trivial, fun t ht cause gen hcg => ?_⟩
    rw [List.mem_singleton.mp ht] at hcg
    cases hcg
  · rintro s t _ hent cause gen rfl
    cases ((entry_iff geo s _).mp hent).2
  · intro p i c t a ht ha hC _ hQ _
    refine ⟨trivial, fun cause gen hheir => ?_, ?_⟩
    · exact absurd hheir (heir_ne_socketClosed geo t c a p.shared ha cause gen)
    · rintro u hu cause gen rfl
      -- Only a writer or a reader that is done reports a lost socket, and the condition says
      -- whose.
      rcases spawned_cases geo t c a p.shared ha _ hu with
        ⟨_, _, _, _, h | h⟩ | ⟨_, _, _, h | h | ⟨_, h⟩⟩ | ⟨g, e, rfl, h⟩
      · cases h
      · cases h
      · cases h
        rfl
      · cases h
      · cases h
      · cases h
        exact (of_decide_eq_true hC).symm
  · intro p i j c t u a _ _ _ _ _ _ _ hu
    exact hu

/-- Failures leave later sessions alone, in every run in which no reconnect dial
    fails with a later dial under way. The close handler itself compares
    generations. The reconnect task reads the generation again after its dial
    failed, and then reports the later one as lost. -/
theorem reach_successorsSafe (p : Pool Shared Task)
    (h : (client geo).Reach (Started cfg)
      ((client geo).whenever fun p i t a => retriesOwnGeneration p i t a = true) p) :
    SuccessorsSafe geo p := by
  have hsound := (reach_dialed geo cfg _ p h).sound
  intro i c t a gen ht ha hfails hsup
  rcases hfails with ⟨owner, e, hheir⟩ | ⟨owner, e, rfl⟩ | ⟨sock, rfl, rfl⟩ | ⟨gen', rfl⟩ |
    ⟨resume, rfl⟩
  · rw [failed_dial_keeps geo t c a p.shared ha owner gen e hheir]
    exact .refl _
  · -- The owner of a failed dial only reads, or says that `connect` failed.
    cases c <;> cases owner <;> cases ha <;> exact ⟨rfl, rfl, rfl, rfl, rfl, rfl⟩
  · cases ha
    exact .refl _
  · cases c <;> cases ha
    have hown := reach_lost_own geo cfg p h i _ ht gen gen' rfl
    subst hown
    show KeepsSession p.shared (socketClosed gen _ p.shared).1
    rw [stale_close_keeps gen _ p.shared hsound hsup]
    exact .refl _
  · cases c <;> cases ha
    exact .refl _

end Client

/-- The first socket closes after a Relocate has moved the session: its close
    handler finds the later session and leaves it alone. -/
theorem reach_successorsSafe_relocated :
    ∃ p : Pool Shared Task, p.tasks[6]? = some (.socketClosed 1 1) ∧ Superseded p.shared 1 ∧
      KeepsSession p.shared (socketClosed 1 0 p.shared).1 := by
  rcases reach_of_watched retriesOwnGeneration
    (opening ++ [.resume 2 (.frame (.relocate "wss://b" 0)), .resume 3 .go, .resume 3 .go] ++
      dialSteps 3 ++ [.resume 2 .eof])
    (fun p => decide (p.tasks[6]? = some (Task.socketClosed 1 1) ∧
      p.shared.inner.state = .open ∧ p.shared.inner.outTx = some 1 ∧
      p.shared.gens[1]? = some 2))
    (by decide +kernel) with ⟨p, hp, hrun⟩
  rcases of_decide_eq_true hrun with ⟨htask, hopen, hout, hgen⟩
  have hsup : Superseded p.shared 1 := ⟨hopen, 1, 2, hout, hgen, by decide⟩
  exact ⟨p, htask, hsup, reach_successorsSafe flatGeo someConfig p hp 6 (.random 0)
    (.socketClosed 1 1) _ 1 htask rfl (Or.inr (Or.inr (Or.inr (Or.inl ⟨1, rfl⟩)))) hsup⟩

/-- A Relocate arrives, the socket closes, and the reconnect task begins its
    dial. -/
def redialing : List (Label Task Input) :=
  opening ++ [.resume 2 (.frame (.relocate "wss://b" 0)), .resume 2 .eof,
    .resume 4 (.random 0), .resume 4 .go, .resume 4 .go]

/-- Meanwhile the Relocate dials in turn and installs its socket. -/
def overtaken : List (Label Task Input) :=
  redialing ++ [.resume 3 .go, .resume 3 .go] ++ dialSteps 3

/-- The reconnect dial fails, and its owner reads the generation again. -/
def retriedLate : List (Label Task Input) :=
  overtaken ++ [.resume 4 (.failed (newError .tryAgain "ws dial")), .resume 4 .go]

/-- A failed reconnect dial takes down the session of the dial that overtook
    it: the close handler it calls carries the later generation. -/
theorem superseded_dial_kills_successor :
    ¬ ∀ p, (client flatGeo).Reach (Started someConfig) Machine.anyStep p →
      SuccessorsSafe flatGeo p := by
  intro hsafe
  rcases reach_of_opening retriedLate
    (fun p => decide (p.tasks[7]? = some (Task.socketClosed 2 3) ∧ p.shared.inner.state = .open ∧
      p.shared.inner.outTx = some 1 ∧ p.shared.gens[1]? = some 3 ∧
      (socketClosed 3 0 p.shared).1.inner.state = .reconnecting))
    (by decide +kernel) with ⟨p, hp, hrun⟩
  rcases of_decide_eq_true hrun with ⟨htask, hopen, hout, hgen, hafter⟩
  have hkeeps := hsafe p hp 7 (.random 0) (.socketClosed 2 3) _ 2 htask rfl
    (Or.inr (Or.inr (Or.inr (Or.inl ⟨3, rfl⟩)))) ⟨hopen, 1, 3, hout, hgen, by decide⟩
  have hstate : (socketClosed 3 0 p.shared).1.inner.state = p.shared.inner.state := hkeeps.state
  rw [hafter, hopen] at hstate
  cases hstate

end Tracking

end Pickpoint
