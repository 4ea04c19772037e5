import Pickpoint.Theory.Recovery
import Pickpoint.Theory.Readers
import Pickpoint.Theory.Roster
import Pickpoint.Theory.Ledger

/-!
# The First Socket

What a session looks like until it opens its second socket.

Before the first socket there is a single task, the dial of `connect`, which
has no track to resume, or nothing at all once `connect` has failed. So the
dial that installs the first socket is that one, and it goes on to
`resubscribe` at once. Calls come in only after it has ended.

## Main definitions

* `DialPc.unopened`: Where the dial of `connect` can be before the first socket.
* `Early`: A session without sockets.
* `OneSocket`: A session whose only socket is open.
* `FirstDial`: Who may have installed a socket up to the second one.
* `Beginning`: What holds up to the second socket.

## Theorems

* `reach_calling`: Calls come in once `connect` has returned.
* `reach_early`: Before the first socket.
* `reach_firstDial`: Who installs the first socket.
* `reach_beginning`: All of these at once.
* `step_oneSocket`: How the first socket becomes current, and stays so.
-/

namespace Pickpoint

namespace Tracking

open Interleave

/-- The places of a dial with nothing to resume that has not installed its
    socket. -/
def DialPc.unopened : DialPc → Bool
  | .begin _ resume | .connecting _ resume | .hello _ resume | .install _ resume
  | .relocate _ _ resume | .relocateSleep _ resume | .relocateCheck _ resume => !resume
  | .finished _ (.error _) => true
  | _ => false

/-- The dial has installed its socket and is not done. -/
def DialPc.installed : DialPc → Bool
  | .resumeLock _ | .resumeSend _ _ _ _ | .resumeReply _ _ | .resumeSleep _ | .resubscribe _
  | .subscribing _ _ => true
  | _ => false

/-- The dial sends the subscriptions. -/
def DialPc.subscribes : DialPc → Bool
  | .resubscribe _ | .subscribing _ _ => true
  | _ => false

/-- A task of `subscribe` or `unsubscribe`. -/
def Task.calls (t : Task) : Prop := t.kind = .subscribe ∨ t.kind = .unsubscribe

/-- A session without sockets: the dial of `connect` is alone, or `connect` has
    failed. -/
def Early (p : Pool Shared Task) : Prop :=
  p.shared.sockets = [] →
    p.shared.inner.trackUid = "" ∧ p.shared.inner.subByDevice = (fun _ => none) ∧
      ((∃ pc, p.tasks = [.dial .connect pc] ∧ pc.unopened = true ∧
          p.shared.connected = none) ∨
        (∃ r, p.tasks = [.returned r] ∧ p.shared.connected = some false))

/-- Up to the second socket only the dial of `connect` has installed one, and it
    has nothing to resume. -/
def FirstDial (p : Pool Shared Task) : Prop :=
  p.shared.sockets.length ≤ 1 → ∀ (j : Nat) owner pc, p.tasks[j]? = some (.dial owner pc) →
    pc.installed = true → owner = .connect ∧ pc.subscribes = true

/-- The only socket of a session is open, and current. -/
structure OneSocket (s : Shared) : Prop where
  count : s.sockets.length = 1
  current : s.inner.outTx = some 0
  state : s.inner.state = .open
  writing : s.writing 0 = true

theorem calls_not_dial (t : Task) (h : t.calls) (owner : Owner) (pc : DialPc) :
    t ≠ .dial owner pc := by
  rintro rfl
  rcases h with h | h <;> cases h

/-- An open socket that is current was so before, unless it is new. -/
theorem move_single (d : Drive) (l l' : Link) (hm : Link.Move d l l') (k : Nat)
    (hlen : l'.gens.length = l.gens.length) (hcur : l'.current = some k)
    (hopen : l'.state = .open) : l.current = some k ∧ l.state = .open := by
  cases hm with
  | begin =>
      dsimp only at hopen
      split at hopen <;> cases hopen
  | install =>
      rw [List.length_append, List.length_singleton] at hlen
      omega
  | refresh => cases hcur
  | lose => cases hcur
  | shut => cases hopen
  | _ => exact ⟨hcur, hopen⟩

theorem helloReply_installed (gen : Nat) (resume : Bool) (msg : ServerEvt) :
    (Task.helloReply gen resume msg).installed = false := by
  cases msg with
  | hello version nodeId shard =>
      dsimp only [Task.helloReply]
      split <;> rfl
  | _ => rfl

theorem helloReply_unopened (gen : Nat) (msg : ServerEvt) :
    (Task.helloReply gen false msg).unopened = true := by
  cases msg with
  | hello version nodeId shard =>
      dsimp only [Task.helloReply]
      split <;> rfl
  | _ => rfl

section Client

variable (geo : Geo)

/-- Nothing becomes a call. -/
theorem heir_calls (t : Task) (c : Input) (a : Act Section Task) (s : Shared)
    (h : t.act c = some a) (hc : ((client geo).heir a s).calls) : t.calls := by
  rcases heir_kind geo t c a s h with hk | hk | ⟨_, _, _, _, hk⟩
  · rw [Task.calls, hk] at hc
    exact hc
  · rw [Task.calls, hk] at hc
    rcases hc with hc | hc <;> cases hc
  · exact absurd hk (calls_not_dial _ hc _ _)

theorem spawned_calls (t : Task) (c : Input) (a : Act Section Task) (s : Shared)
    (h : t.act c = some a) (u : Task) (hu : u ∈ (client geo).spawned a s) : ¬ u.calls := by
  rintro hc
  rcases spawned_cases geo t c a s h u hu with
    ⟨_, _, _, _, rfl | rfl⟩ | ⟨_, _, _, rfl | rfl | ⟨_, rfl⟩⟩ | ⟨_, _, _, rfl⟩ <;>
    rcases hc with hc | hc <;> cases hc

/-- A dial installs its socket at its install step. -/
theorem heir_installed (t : Task) (c : Input) (a : Act Section Task) (s : Shared)
    (h : t.act c = some a) (owner : Owner) (pc : DialPc)
    (hheir : (client geo).heir a s = .dial owner pc) (hpc : pc.installed = true) :
    (∃ pc', t = .dial owner pc' ∧ pc'.installed = true ∧
      (pc'.subscribes = true → pc.subscribes = true)) ∨
      ∃ gen resume, t = .dial owner (.install gen resume) ∧
        (pc.subscribes = !resume) ∧
        ((client geo).after a s).sockets.length = s.sockets.length + 1 := by
  have hkind := heir_kind geo t c a s h
  rw [hheir] at hkind
  rcases hkind with hk | hk | ⟨_, _, _, _, hd⟩
  · revert hheir
    unfold Machine.heir
    revert h
    cases t with
    | dial owner' pc' =>
        -- What a dial becomes keeps its owner, and only the install opens it.
        have hstay : ∀ pc'' : DialPc, Task.dial owner' pc'' = .dial owner pc →
            pc'.installed = true → (pc'.subscribes = true → pc''.subscribes = true) →
            (∃ pc₀, Task.dial owner' pc' = .dial owner pc₀ ∧ pc₀.installed = true ∧
              (pc₀.subscribes = true → pc.subscribes = true)) := by
          intro pc'' hd hin hsub
          cases hd
          exact ⟨pc', rfl, hin, hsub⟩
        simp only [Task.act]
        fun_cases Task.dialAct owner' pc' c <;> intro h <;> cases h
        case dial.case6.refl gen resume =>
          have hrun : (client geo).run (Section.dialInstall gen) s = dialInstall gen s := rfl
          -- The install: superseded it ends the dial, otherwise the socket is new.
          rcases dialInstall_cases gen s with ⟨_, hi⟩ | ⟨_, _, hi⟩
          · simp only [hrun, hi]
            rintro ⟨⟩
            cases hpc
          · simp only [Machine.after, hrun, hi]
            intro hd
            cases hd
            refine Or.inr ⟨gen, resume, rfl, ?_, List.length_append⟩
            cases resume <;> rfl
        -- The reply to `hello` leads to the install and not past it.
        case dial.case4.refl gen resume msg =>
          intro hd
          cases hd
          cases (helloReply_installed gen resume msg).symm.trans hpc
        all_goals
          dsimp only
          (try split) <;> (try split) <;> intro hd <;> first
            | (cases hd; done)
            | (cases hd; cases hpc; done)
            | exact Or.inl (hstay _ hd rfl id)
            | exact Or.inl (hstay _ hd rfl fun _ => rfl)
    | _ => cases hk
  · cases hk
  · cases hd
    cases hpc

/-! ## Runs -/

/-- The step of the only task of a session without sockets. -/
theorem early_step (pc : DialPc) (c : Input) (a : Act Section Task) (s : Shared)
    (h : (Task.dial .connect pc).act c = some a) (hpc : pc.unopened = true)
    (huid : s.inner.trackUid = "") (hnone : ((client geo).after a s).sockets = s.sockets) :
    (client geo).spawned a s = [] ∧
      ((client geo).after a s).inner.trackUid = s.inner.trackUid ∧
      ((client geo).after a s).inner.subByDevice = s.inner.subByDevice ∧
      ((∃ pc', (client geo).heir a s = .dial .connect pc' ∧ pc'.unopened = true ∧
          ((client geo).after a s).connected = s.connected) ∨
        (∃ r, (client geo).heir a s = .returned r ∧
          ((client geo).after a s).connected = some false)) := by
  -- Before the install a dial without a track goes on, ends with an error, or takes
  -- the redirect of a relocation; the places of a resume do not come up.
  cases pc with
  | begin gen resume =>
      cases c <;> cases h
      exact ⟨rfl, rfl, rfl, Or.inl ⟨_, rfl, hpc, rfl⟩⟩
  | connecting gen resume =>
      cases c <;> cases h
      · exact ⟨rfl, rfl, rfl, Or.inl ⟨_, rfl, hpc, rfl⟩⟩
      · exact ⟨rfl, rfl, rfl, Or.inl ⟨_, rfl, rfl, rfl⟩⟩
  | hello gen resume =>
      cases resume
      · cases c <;> cases h
        · exact ⟨rfl, rfl, rfl, Or.inl ⟨_, rfl, rfl, rfl⟩⟩
        · exact ⟨rfl, rfl, rfl, Or.inl ⟨_, rfl, helloReply_unopened gen _, rfl⟩⟩
      · cases hpc
  | install gen resume =>
      cases c <;> cases h
      have hrun : (client geo).run (Section.dialInstall gen) s = dialInstall gen s := rfl
      rcases dialInstall_cases gen s with ⟨_, hi⟩ | ⟨_, _, hi⟩
      · simp only [Machine.after, Machine.spawned, Machine.heir, hrun, hi]
        exact ⟨trivial, trivial, trivial, Or.inl ⟨_, rfl, rfl, trivial⟩⟩
      · simp only [Machine.after, hrun, hi] at hnone
        have hlen := congrArg List.length hnone
        -- The install would have opened a socket.
        rw [List.length_append, List.length_singleton] at hlen
        omega
  | relocate gen rel resume =>
      cases c <;> cases h
      have hrun : (client geo).run (Section.relocateEndpoint rel.endpoint) s =
          (relocateEndpoint rel.endpoint s, ()) := rfl
      simp only [Machine.after, Machine.spawned, Machine.heir, hrun, relocateEndpoint_eq]
      refine ⟨trivial, trivial, trivial, Or.inl ⟨_, rfl, ?_, trivial⟩⟩
      split <;> exact hpc
  | relocateSleep gen resume =>
      cases c <;> cases h
      exact ⟨rfl, rfl, rfl, Or.inl ⟨_, rfl, hpc, rfl⟩⟩
  | relocateCheck gen resume =>
      cases resume
      · cases c <;> cases h
        have hrun : (client geo).run (Section.relocateCheck false) s = (s, relocateCheck false s) :=
          rfl
        -- Without a track `want_resume` stays unset.
        simp only [Machine.after, Machine.spawned, Machine.heir, hrun, relocateCheck, huid, ne_eq,
          not_true_eq_false, decide_false, Bool.or_self]
        refine ⟨trivial, trivial, trivial, Or.inl ⟨_, rfl, ?_, trivial⟩⟩
        split <;> rfl
      · cases hpc
  | finished gen r =>
      cases r with
      | ok _ => cases hpc
      | error e =>
          cases c <;> cases h
          exact ⟨rfl, rfl, rfl, Or.inr ⟨_, rfl, rfl⟩⟩
  | _ => cases hpc

variable (cfg : Config) (C : Pool Shared Task → Nat → Task → Act Section Task → Prop)

/-- Before the first socket there is the dial of `connect` at most. -/
theorem reach_early (p : Pool Shared Task)
    (h : (client geo).Reach (Started cfg) ((client geo).whenever C) p) : Early p := by
  refine (client geo).reach_pool (Started cfg) _ Early ?_ ?_ ?_ p h
  · intro p hp _
    rcases started_pool cfg p hp with ⟨now, rfl⟩
    exact ⟨rfl, rfl, Or.inl ⟨_, rfl, rfl, rfl⟩⟩
  · intro p i c t a ht ha _ hI hnone
    have hnone' : ((client geo).after a p.shared).sockets = [] := hnone
    have hle := after_sockets_le geo a p.shared
    have hold : p.shared.sockets = [] := by
      refine List.length_eq_zero_iff.mp ?_
      rw [hnone'] at hle
      exact Nat.le_zero.mp hle
    -- There is one task: the dial of `connect`, or what is left of it.
    rcases hI hold with ⟨huid, hmap, ⟨pc, htasks, hpc, hconn⟩ | ⟨r, htasks, _⟩⟩
    · have hi0 : i = 0 ∧ t = .dial .connect pc := by
        rw [htasks] at ht
        have hi := (List.getElem?_eq_some_iff.mp ht).1
        rw [List.length_singleton] at hi
        have hi0 : i = 0 := by omega
        subst hi0
        exact ⟨rfl, (Option.some.inj ht).symm⟩
      rcases hi0 with ⟨rfl, rfl⟩
      rcases early_step geo pc c a p.shared ha hpc huid (hnone'.trans hold.symm) with
        ⟨hspawned, huid', hmap', hheir⟩
      have htasks' : ((client geo).resumed p 0 a).tasks = [(client geo).heir a p.shared] := by
        show p.tasks.set 0 ((client geo).heir a p.shared) ++ (client geo).spawned a p.shared = _
        rw [htasks, hspawned]
        rfl
      refine ⟨huid'.trans huid, hmap'.trans hmap, ?_⟩
      rcases hheir with ⟨pc', hheir, hpc', hconn'⟩ | ⟨r, hheir, hconn'⟩
      · exact Or.inl ⟨pc', htasks'.trans (congrArg (fun u => [u]) hheir), hpc',
          hconn'.trans hconn⟩
      · exact Or.inr ⟨r, htasks'.trans (congrArg (fun u => [u]) hheir), hconn'⟩
    · -- A task that has returned does not step.
      rw [htasks] at ht
      have hr := List.mem_singleton.mp (List.mem_of_getElem? ht)
      subst hr
      cases c <;> cases ha
  · intro p t hent hI hnone
    -- A call needs a client, and `connect` has returned none yet.
    have hconn := ((entry_iff geo p.shared t).mp hent).1
    rcases hI hnone with ⟨_, _, ⟨_, _, _, hc⟩ | ⟨_, _, hc⟩⟩
    · cases hc.symm.trans hconn
    · cases hc.symm.trans hconn

/-- Calls are there only once `connect` has returned a session. -/
theorem reach_calling (p : Pool Shared Task)
    (h : (client geo).Reach (Started cfg) ((client geo).whenever C) p) :
    ∀ (j : Nat) u, p.tasks[j]? = some u → u.calls → p.shared.connected = some true := by
  have hreach := (client geo).reach_knowing (Started cfg) C _
    (fun p h => reach_connecting geo cfg C p h) p h
  refine ((client geo).reach_tasks (Started cfg) _ (fun _ => True)
    (fun s t => t.calls → s.connected = some true) ?_ ?_ ?_ ?_ p hreach).2
  · intro p hp
    rcases started_pool cfg p hp with ⟨now, rfl⟩
    refine ⟨trivial, fun t ht hc => ?_⟩
    rw [List.mem_singleton.mp ht] at hc
    rcases hc with hc | hc <;> cases hc
  · intro s t _ hent _
    exact ((entry_iff geo s t).mp hent).1
  · intro p i c t a ht ha hC _ hQ _
    refine ⟨trivial, fun hc => ?_, fun u hu hc => absurd hc (spawned_calls geo t c a _ ha u hu)⟩
    have hcalls := heir_calls geo t c a p.shared ha hc
    rcases after_connected geo t c a p.shared ha with hsame | ⟨⟨pc, rfl⟩, _⟩
    · exact hsame.trans (hQ hcalls)
    · exact absurd rfl (calls_not_dial _ hcalls .connect pc)
  · intro p i j c t u a ht _ _ ha hC _ _ hQ hc
    rcases after_connected geo t c a p.shared ha with hsame | ⟨⟨pc, rfl⟩, _⟩
    · exact hsame.trans (hQ hc)
    · -- `connect` has not returned while its dial lasts.
      cases (hC.2 i pc ht).2.symm.trans (hQ hc)

/-- Up to the second socket only the dial of `connect` has installed one. -/
theorem reach_firstDial (p : Pool Shared Task)
    (h : (client geo).Reach (Started cfg) ((client geo).whenever C) p) : FirstDial p := by
  have hreach := (client geo).reach_knowing (Started cfg) C _
    (fun p h => reach_early geo cfg C p h) p h
  refine (client geo).reach_pool (Started cfg) _ FirstDial ?_ ?_ ?_ p hreach
  · intro p hp _ j owner pc hj hpc
    rcases started_pool cfg p hp with ⟨now, rfl⟩
    cases List.mem_singleton.mp (List.mem_of_getElem? hj)
    cases hpc
  · intro p i c t a ht ha hC hI
    -- Early holds of the pool before the step, so of the install of the first socket.
    have hearly : Early p := hC.2
    intro hlen j owner pc hj hpc
    have hlen' : ((client geo).after a p.shared).sockets.length ≤ 1 := hlen
    have hle := after_sockets_le geo a p.shared
    rcases (client geo).resumed_get_cases p i j a t _ ht hj with
      ⟨rfl, hheir⟩ | ⟨_, hu⟩ | ⟨_, hu⟩
    · rcases heir_installed geo t c a p.shared ha owner pc hheir.symm hpc with
        ⟨pc', rfl, hpc', hsub⟩ | ⟨gen, resume, rfl, hsub, hnew⟩
      · rcases hI (by omega) j owner pc' ht hpc' with ⟨howner, hs⟩
        exact ⟨howner, hsub hs⟩
      · -- The first socket belongs to the only task there is.
        have hold : p.shared.sockets = [] := List.length_eq_zero_iff.mp (by omega)
        rcases hearly hold with ⟨_, _, ⟨pc', htasks, hun, _⟩ | ⟨r, htasks, _⟩⟩
        · rw [htasks] at ht
          cases List.mem_singleton.mp (List.mem_of_getElem? ht)
          exact ⟨rfl, hsub.trans hun⟩
        · rw [htasks] at ht
          cases List.mem_singleton.mp (List.mem_of_getElem? ht)
    · exact hI (by omega) j owner pc hu hpc
    · rcases spawned_cases geo t c a p.shared ha _ (List.mem_of_getElem? hu) with
        ⟨_, _, _, _, hs | hs⟩ | ⟨_, _, _, hs | hs | ⟨_, hs⟩⟩ | ⟨_, _, _, hs⟩ <;>
        cases hs
      cases hpc
  · intro p t hent hI hlen j owner pc hj hpc
    rcases List.mem_append.mp (List.mem_of_getElem? hj) with hj' | hj'
    · rcases List.mem_iff_getElem?.mp hj' with ⟨m, hm⟩
      exact hI hlen m owner pc hm hpc
    · have hcall := ((entry_iff geo p.shared t).mp hent).2
      rw [← List.mem_singleton.mp hj'] at hcall
      cases hcall

/-- What holds up to the second socket. -/
structure Beginning (p : Pool Shared Task) : Prop where
  early : Early p
  first : FirstDial p
  connecting : Connecting p
  calling : ∀ (j : Nat) u, p.tasks[j]? = some u → u.calls → p.shared.connected = some true
  readers : OneReader p
  nodup : p.shared.inner.subscriptions.Nodup

theorem reach_beginning (p : Pool Shared Task)
    (h : (client geo).Reach (Started cfg) ((client geo).whenever C) p) : Beginning p :=
  ⟨reach_early geo cfg C p h, reach_firstDial geo cfg C p h, reach_connecting geo cfg C p h,
    reach_calling geo cfg C p h, reach_oneReader geo cfg C p h, reach_wanted_nodup geo cfg C p h⟩

/-- The first socket becomes current with the install by the dial of `connect`,
    and a step that finds it current keeps it so or loses it for good. -/
theorem step_oneSocket (p : Pool Shared Task) (i : Nat) (c : Input) (t : Task)
    (a : Act Section Task) (ht : p.tasks[i]? = some t) (ha : t.act c = some a)
    (hearly : Early p) (h : OneSocket ((client geo).after a p.shared)) :
    OneSocket p.shared ∨
      (p.shared.sockets = [] ∧ i = 0 ∧ a.op.drive = .install p.shared.inner.dialGen ∧
        ∃ gen, p.tasks = [.dial .connect (.install gen false)]) := by
  have hle := after_sockets_le geo a p.shared
  rw [h.count] at hle
  -- The socket is opened by this step, or it was there and stays the only one.
  by_cases hnone : p.shared.sockets = []
  · refine Or.inr ⟨hnone, ?_⟩
    rcases move_gens _ _ _ (after_moves geo a p.shared) with hg | ⟨hdrive, _⟩
    · -- A socket has come.
      have hlen := congrArg List.length hg
      rw [gens_length, gens_length, h.count, hnone] at hlen
      cases hlen
    · have hby := act_madeBy t c a ha
      rw [hdrive] at hby
      rcases hby with ⟨owner, resume, rfl⟩
      -- Whoever installs is the one task there is.
      rcases hearly hnone with ⟨_, _, ⟨pc, htasks, hpc, _⟩ | ⟨r, htasks, _⟩⟩
      · have hi : i < 1 := by
          have := (List.getElem?_eq_some_iff.mp ht).1
          rwa [htasks, List.length_singleton] at this
        have hd := ht
        rw [htasks] at hd
        cases List.mem_singleton.mp (List.mem_of_getElem? hd)
        cases resume
        · exact ⟨by omega, hdrive, _, htasks⟩
        · cases hpc
      · rw [htasks] at ht
        cases List.mem_singleton.mp (List.mem_of_getElem? ht)
  · refine Or.inl ?_
    have hpos : 0 < p.shared.sockets.length := List.length_pos_iff.mpr hnone
    have hcount : p.shared.sockets.length = 1 := by omega
    have hlen : ((client geo).after a p.shared).link.gens.length = p.shared.link.gens.length := by
      rw [gens_length, gens_length, h.count, hcount]
    rcases move_single _ _ _ (after_moves geo a p.shared) 0 hlen h.current h.state with
      ⟨hcur, hstate⟩
    refine ⟨hcount, hcur, hstate, ?_⟩
    rcases run_writing geo a.op p.shared 0 h.writing with hw | hzero
    · exact hw
    · omega

end Client

end Tracking

end Pickpoint
