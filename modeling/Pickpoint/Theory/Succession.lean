import Pickpoint.Theory.Generations
import Pickpoint.Theory.Shutdown

/-!
# Succession of Sockets

A session goes through many sockets. Several dials may be under way at a time and
readers of old sockets go on reading, but only one socket is spoken to: the newest.

On the level of links this is `Link.Latest`. The current socket, if there is one,
is the last that was installed, and the generations of the sockets increase, so no
two sockets are of one generation. An install takes a generation that is fresh and
the latest there is, and no other move names a socket (`move_latest`).

For the wires it says that a socket that has a successor is handed nothing any
more, whatever happens (`reach_soleSpeaker`). It may still be read from.

The succession ends with the session. Once it is over and has hung up, no socket is
installed any more, and a call that comes in is refused where it would hand its
command over, so it does not get to wait and does not return an answer
(`closed_refuses`).

## Main definitions

* `Link.Latest`: The current socket is the newest one.
* `handedTo`: What a socket was handed.
* `SoleSpeaker`: Only the newest socket is spoken to.
* `Task.served`: Places a call gets to once its command was accepted.
* `Section.ends`: The sections that end the session and hang up.
* `RefusesAll`: No call is served.

## Theorems

* `move_latest`: Moves keep the newest socket current.
* `reach_soleSpeaker`: Only the newest socket is spoken to, in every run.
* `heir_served`: Nobody is served without a socket.
* `closed_refuses`: After the end no call is served.
-/

namespace Pickpoint

namespace Tracking

open Interleave

/-! ## The newest socket -/

/-- The current socket is the newest one, and no two are of one generation. -/
structure Link.Latest (l : Link) : Prop where
  current : ∀ k, l.current = some k → k + 1 = l.gens.length
  increasing : l.gens.Pairwise (· < ·)

/-- Moves keep the newest socket current, provided no socket has the generation
    that a dial installs. -/
theorem move_latest (d : Drive) (l l' : Link) (hm : Link.Move d l l') (hs : l.Sound)
    (hfresh : ∀ gen, d = .install gen → gen ∉ l.gens) (h : l.Latest) : l'.Latest := by
  cases hm with
  | install hint =>
      refine ⟨?_, ?_⟩
      · intro k hk
        cases hk
        rw [List.length_append, List.length_singleton]
      · refine List.pairwise_append.mpr ⟨h.increasing, List.pairwise_singleton _ _, ?_⟩
        intro g hg g' hg'
        rw [List.mem_singleton.mp hg']
        refine Nat.lt_of_le_of_ne (hs.gens_le g hg) ?_
        rintro rfl
        exact hfresh _ rfl hg
  | refresh => exact ⟨by rintro k ⟨⟩, h.increasing⟩
  | lose => exact ⟨by rintro k ⟨⟩, h.increasing⟩
  | shut _ current _ hcur =>
      rcases hcur with rfl | rfl
      · exact ⟨h.current, h.increasing⟩
      · exact ⟨by rintro k ⟨⟩, h.increasing⟩
  | _ => exact ⟨h.current, h.increasing⟩

/-- Whether an entry of a wire was handed to the socket. -/
def Traffic.isHanded : Traffic → Bool
  | .sent _ _ => true
  | .got _ => false

/-- What a socket was handed, newest first. -/
def handedTo (k : Nat) (s : Shared) : List Traffic := (s.wire k).filter Traffic.isHanded

/-- Only the newest socket is spoken to. -/
structure SoleSpeaker (s s' : Shared) : Prop where
  latest : s.link.Latest
  /-- What happens later hands nothing to a socket that has a successor. -/
  silent : ∀ k, k + 1 < s.sockets.length → handedTo k s' = handedTo k s

section Client

variable (geo : Geo) (cfg : Config)

/-- A step speaks to the newest socket. -/
theorem step_handedTo {α : Type} (op : Section α) (s : Shared) (h : s.link.Latest) (k : Nat)
    (hk : k + 1 < s.sockets.length) : handedTo k (op.run geo s).1 = handedTo k s := by
  rcases run_wire geo op s k with hw | ⟨evt, _, hw⟩ | ⟨out, ticket, _, hcur, _, _⟩
  · rw [handedTo, hw, handedTo]
  · rw [handedTo, hw, handedTo]
    rfl
  · have hlast := h.current k hcur
    rw [gens_length] at hlast
    omega

theorem reach_latest (p : Pool Shared Task)
    (h : (client geo).Reach (Started cfg) Machine.anyStep p) : p.shared.link.Latest := by
  have hreach := (client geo).reach_knowing (Started cfg) _ _
    (fun p h => reach_dialed geo cfg _ p h) p ((client geo).reach_any _ p h)
  refine (client geo).reach_shared (Started cfg) _ (fun s => s.link.Latest) ?_ ?_ p hreach
  · intro p hp
    rcases started_pool cfg p hp with ⟨now, rfl⟩
    exact ⟨by rintro k ⟨⟩, List.Pairwise.nil⟩
  · intro p i c t a ht ha hC hI
    refine move_latest _ _ _ (after_moves geo a p.shared) hC.2.sound ?_ hI
    intro gen hinst
    have hby := act_madeBy t c a ha
    rw [hinst] at hby
    rcases hby with ⟨owner, resume, rfl⟩
    exact hC.2.fresh i _ ht gen rfl

/-- Only the newest socket is spoken to, in every run: whoever hands a frame over
    takes the current socket, which is the one installed last, and generations grow
    from one install to the next. -/
theorem reach_soleSpeaker (p q : Pool Shared Task)
    (hp : (client geo).Reach (Started cfg) Machine.anyStep p)
    (hq : (client geo).Reach (fun x => x = p) Machine.anyStep q) :
    SoleSpeaker p.shared q.shared := by
  refine ⟨reach_latest geo cfg p hp, fun k hk => ?_⟩
  -- Sockets are never forgotten, so a socket that has a successor goes on having one.
  suffices hkept : p.shared.sockets.length ≤ q.shared.sockets.length ∧
      handedTo k q.shared = handedTo k p.shared from hkept.2
  induction hq with
  | init q hq => exact hq ▸ ⟨Nat.le_refl _, rfl⟩
  | step r q l hr _ hs ih =>
      have hlatest := reach_latest geo cfg r
        ((client geo).reach_trans _ _ p r hp hr)
      cases l with
      | resume i c =>
          rcases ((client geo).step_resume_iff r q i c).mp hs with ⟨t, a, _, _, rfl⟩
          have hgrow : r.shared.sockets.length ≤
              ((client geo).resumed r i a).shared.sockets.length := by
            rw [← gens_length, ← gens_length]
            rcases move_gens _ _ _ (after_moves geo a r.shared) with hg | ⟨_, hg⟩
            · exact Nat.le_of_eq (congrArg List.length hg.symm)
            · refine Nat.le_trans (Nat.le_succ _) (Nat.le_of_eq ?_)
              exact (List.length_append.symm.trans (congrArg List.length hg.symm))
          exact ⟨Nat.le_trans ih.1 hgrow, (step_handedTo geo a.op r.shared hlatest k
            (Nat.lt_of_lt_of_le hk ih.1)).trans ih.2⟩
      | spawn t =>
          rcases ((client geo).step_spawn_iff r q t).mp hs with ⟨_, rfl⟩
          exact ih

end Client

/-- A Relocate brings a second socket, and the first is not spoken to any more. -/
theorem reach_soleSpeaker_relocated :
    ∃ p q : Pool Shared Task, SoleSpeaker p.shared q.shared ∧ p.shared.sockets.length = 2 ∧
      (handedTo 1 q.shared).length = 1 := by
  rcases reach_of_opening (opening ++ [.resume 2 (.frame (.relocate "wss://b" 0)),
      .resume 3 .go, .resume 3 .go] ++ dialSteps 3)
    (fun p => p.shared.sockets.length == 2 &&
      ((client flatGeo).replay (fun _ _ => true) p
        [.spawn (.subscribe "A"), .resume 6 .go, .resume 6 .go]).any fun q =>
          (handedTo 1 q.shared).length == 1)
    (by decide +kernel) with ⟨p, hp, hrun⟩
  rcases Bool.and_eq_true_iff.mp hrun with ⟨htwo, hsteps⟩
  rcases Option.any_eq_true _ _ |>.mp hsteps with ⟨q, hq, hone⟩
  have hreach := (client flatGeo).reach_of_replay (fun x => x = p) _ Machine.anyStep
    (fun _ _ _ => trivial) _ p q (.init p rfl) hq
  exact ⟨p, q, reach_soleSpeaker flatGeo someConfig p q hp hreach, beq_iff_eq.mp htwo,
    beq_iff_eq.mp hone⟩

/-! ## After the end -/

/-- Places a call gets to once its command was accepted: it waits for the reply, or
    has returned with one. -/
def Task.served : Task → Bool
  | .startTrack (.reply _) | .stopTrack (.reply _) => true
  | .resume _ _ (.reply _) | .resume _ _ .sleep => true
  | .returned (.startTrack (.ok _)) | .returned (.resume (.ok _)) => true
  | _ => false

/-- The sections that end the session and hang up: the last block of `close`, and of
    an auth error for which there is no callback that could refresh it. A callback that
    fails ends the session, too, but leaves the current socket to later calls. -/
def Section.ends : {α : Type} → Section α → Bool
  | _, .closeFinal => true
  | _, .authClose => true
  | _, _ => false

/-- The session is over, has the sockets it had, and serves none of the calls that
    come in from the `n`th task on. -/
structure RefusesAll (n : Nat) (s : Shared) (r : Pool Shared Task) : Prop where
  ended : r.shared.inner.intentional = true
  sockets : r.shared.gens = s.gens
  unserved : ∀ (j : Nat) u, n ≤ j → r.tasks[j]? = some u → u.served = false

section Client

variable (geo : Geo)

theorem ends_mute {α : Type} (op : Section α) (s : Shared) (h : op.ends = true) :
    (op.run geo s).1.link.Mute ∧ (op.run geo s).1.gens = s.gens := by
  have hgens := run_gens geo op s
  cases op with
  | closeFinal => exact ⟨closeFinal_mute s, hgens fun gen hd => by cases hd⟩
  | authClose =>
      refine ⟨⟨?_, ?_⟩, hgens fun gen hd => by cases hd⟩
      · show (authClose s).inner.intentional = true
        rw [(authClose_frame s).1]
      · show (authClose s).inner.outTx = none
        rw [(authClose_frame s).1]
  | _ => cases h

omit geo in
theorem served_kind (t : Task) (h : t.served = true) (hr : t.kind ≠ .returned) :
    t.kind = .startTrack ∨ t.kind = .stopTrack ∨ t.kind = .resume := by
  cases t with
  | startTrack pc => exact Or.inl rfl
  | stopTrack pc => exact Or.inr (Or.inl rfl)
  | resume uid seq pc => exact Or.inr (Or.inr rfl)
  | returned r => exact absurd rfl hr
  | _ => cases h

omit geo in
theorem served_gives (t : Task) (h : t.served = true) (hr : t.kind = .returned) :
    t.gives = some .startTrack ∨ t.gives = some .resume := by
  cases t with
  | returned r =>
      cases r with
      | startTrack r => exact Or.inl rfl
      | resume r => exact Or.inr rfl
      | _ => cases h
  | _ => cases hr

omit geo in
theorem call_served (t : Task) (h : t.isCall = true) : t.served = false := by
  cases t with
  | startTrack pc => cases pc <;> first | rfl | cases h
  | stopTrack pc => cases pc <;> first | rfl | cases h
  | resume uid seq pc => cases pc <;> first | rfl | cases h
  | returned r => cases h
  | _ => rfl

/-- The sections that end the session are the last of their tasks. -/
theorem ends_spawned (t : Task) (c : Input) (a : Act Section Task) (s : Shared)
    (h : t.act c = some a) (hends : a.op.ends = true) : (client geo).spawned a s = [] := by
  refine List.eq_nil_iff_forall_not_mem.mpr fun u hu => ?_
  have hissuer : a.op.issuer = some .close ∨ a.op.issuer = some .auth := by
    rcases a with ⟨op, next⟩
    cases op <;> first | exact Or.inl rfl | exact Or.inr rfl | cases hends
  have hkind : t.kind = .close ∨ t.kind = .auth :=
    hissuer.imp (act_issuer t c a h _) (act_issuer t c a h _)
  rcases spawned_cases geo t c a s h u hu with
    ⟨_, _, rfl, _⟩ | ⟨_, _, rfl, _⟩ | ⟨_, _, rfl, _⟩ <;> rcases hkind with hk | hk <;> cases hk

/-- Nobody is served without a socket: a call gets to wait for a reply only by having its
    command accepted, and gets a reply only by having waited for it. -/
theorem heir_served (t : Task) (c : Input) (a : Act Section Task) (s : Shared)
    (h : t.act c = some a) (hmute : s.link.Mute)
    (hserved : ((client geo).heir a s).served = true) : t.served = true := by
  have hout : s.inner.outTx = none := hmute.current
  -- Without a socket every command is refused.
  have hsend : ∀ frame ticket, ∃ e, (client geo).run (Section.sendBin frame ticket) s =
      (s, .error e) := by
    intro frame ticket
    rcases sendBin_cases frame ticket s with he | ⟨k, hk, _⟩
    · exact he
    · cases hout.symm.trans hk
  -- A task becomes one of the three calls, or returns as one, only by having been it.
  have hkind : t.kind = .startTrack ∨ t.kind = .stopTrack ∨ t.kind = .resume := by
    by_cases hret : ((client geo).heir a s).kind = .returned
    · rcases served_gives _ hserved hret with hgives | hgives
      · exact Or.inl (heir_gives geo t c a s h _ hgives)
      · exact Or.inr (Or.inr (heir_gives geo t c a s h _ hgives))
    · rcases heir_kind geo t c a s h with hk | hk | ⟨_, _, _, _, hk⟩
      · exact hk ▸ served_kind _ hserved hret
      · exact absurd hk hret
      · rw [hk] at hserved
        cases hserved
  revert hserved
  unfold Machine.heir
  revert h
  cases t with
  | startTrack pc =>
      simp only [Task.act]
      fun_cases Task.startTrackAct pc c <;> intro h <;> cases h
      -- The command is handed over here, and refused.
      case startTrack.case2.refl =>
        dsimp only
        rcases hsend _ none with ⟨e, he⟩
        rw [he]
        rintro ⟨⟩
      -- The call was already waiting for its reply.
      case startTrack.case4.refl => exact fun _ => rfl
      all_goals rintro ⟨⟩
  | stopTrack pc =>
      simp only [Task.act]
      fun_cases Task.stopTrackAct pc c <;> intro h <;> cases h
      -- As above; a call of `stop_track` that returns counts as no longer served.
      case stopTrack.case3.refl =>
        dsimp only
        rcases hsend _ none with ⟨e, he⟩
        rw [he]
        rintro ⟨⟩
      case stopTrack.case5.refl => exact fun _ => rfl
      all_goals
        dsimp only
        (try split) <;> (try split) <;> rintro ⟨⟩
  | resume uid seq pc =>
      simp only [Task.act]
      fun_cases Task.resumeAct uid seq pc c <;> intro h <;> cases h
      case resume.case2.refl =>
        dsimp only
        rcases hsend _ none with ⟨e, he⟩
        rw [he]
        rintro ⟨⟩
      -- The sleep between two tries belongs to a call that waits, too.
      case resume.case4.refl => exact fun _ => rfl
      case resume.case5.refl => exact fun _ => rfl
      all_goals rintro ⟨⟩
  | _ => rcases hkind with hk | hk | hk <;> cases hk

/-- A session that is over and has hung up serves nobody new. -/
theorem reach_refuses (n : Nat) (q r : Pool Shared Task) (hq : q.shared.link.Mute)
    (hlen : q.tasks.length ≤ n) (h : (client geo).Reach (fun x => x = q) Machine.anyStep r) :
    RefusesAll n q.shared r := by
  suffices hall : r.shared.link.Mute ∧ RefusesAll n q.shared r from hall.2
  refine (client geo).reach_pool (fun x => x = q) _
    (fun r => r.shared.link.Mute ∧ RefusesAll n q.shared r) ?_ ?_ ?_ r
    ((client geo).reach_any _ r h)
  · rintro _ rfl
    refine ⟨hq, hq.intentional, rfl, fun j u hj hu => ?_⟩
    have := (List.getElem?_eq_some_iff.mp hu).1
    omega
  · rintro p i c t a ht ha _ ⟨hmute, hI⟩
    rcases move_mute _ _ _ (after_moves geo a p.shared) hmute with ⟨hmute', hgens⟩
    refine ⟨hmute', hmute'.intentional, hgens.trans hI.sockets, fun j u hj hu => ?_⟩
    rcases (client geo).resumed_get_cases p i j a t u ht hu with ⟨rfl, rfl⟩ | ⟨_, hu'⟩ | ⟨_, hu'⟩
    · by_contra hserved
      rw [Bool.not_eq_false] at hserved
      have hbefore := heir_served geo t c a p.shared ha hmute hserved
      cases hbefore.symm.trans (hI.unserved j t hj ht)
    · exact hI.unserved j u hj hu'
    · rcases spawned_cases geo t c a p.shared ha u (List.mem_of_getElem? hu') with
        ⟨_, _, _, _, rfl | rfl⟩ | ⟨_, _, _, rfl | rfl | ⟨_, rfl⟩⟩ | ⟨_, _, _, rfl⟩ <;> rfl
  · rintro p t hent ⟨hmute, hI⟩
    refine ⟨hmute, hI.ended, hI.sockets, fun j u hj hu => ?_⟩
    rcases Machine.entered_get_cases p.tasks t u j hu with hu' | rfl
    · exact hI.unserved j u hj hu'
    · exact call_served u ((entry_iff geo p.shared u).mp hent).2

/-- Once a `close` or an auth error has ended the session, it stays over, no socket is
    installed any more, and no call that comes in is served. -/
theorem closed_refuses (p q r : Pool Shared Task) (i : Nat) (c : Input) (t : Task)
    (a : Act Section Task) (ht : p.tasks[i]? = some t) (ha : t.act c = some a)
    (hends : a.op.ends = true) (hs : (client geo).step p (.resume i c) = some q)
    (hr : (client geo).Reach (fun x => x = q) Machine.anyStep r) :
    RefusesAll p.tasks.length p.shared r := by
  have hq : q = (client geo).resumed p i a := by
    rcases ((client geo).step_resume_iff p q i c).mp hs with ⟨t', a', ht', ha', hq⟩
    cases ht.symm.trans ht'
    cases ha.symm.trans ha'
    exact hq
  subst hq
  rcases ends_mute geo a.op p.shared hends with ⟨hmute, hgens⟩
  have hnone : (client geo).spawned a p.shared = [] := ends_spawned geo t c a p.shared ha hends
  have hlen : ((client geo).resumed p i a).tasks.length ≤ p.tasks.length := by
    have htasks := (client geo).resumed_tasks p i a
    rw [hnone, List.append_nil] at htasks
    exact Nat.le_of_eq ((congrArg List.length htasks).trans List.length_set)
  have h := reach_refuses geo p.tasks.length _ r hmute hlen hr
  exact ⟨h.ended, h.sockets.trans hgens, h.unserved⟩

end Client

/-- A call of `start_track` comes in after `close` and returns an error. -/
theorem closed_refuses_start :
    ∃ p r : Pool Shared Task, RefusesAll p.tasks.length p.shared r ∧
      r.tasks[4]? = some (.returned (.startTrack (.error (newError .invalid "closed")))) := by
  rcases reach_of_opening (opening ++ [.spawn (.close .read), .resume 3 .go])
    (fun p => p.tasks[3]? == some (Task.close .final) &&
      ((client flatGeo).step p (.resume 3 .go)).any fun q =>
        ((client flatGeo).replay (fun _ _ => true) q
          [.spawn (.startTrack (.start none [] [])), .resume 4 (.clock 0 0),
            .resume 4 (.clock 0 0), .resume 4 .go]).any fun r =>
            r.tasks[4]? ==
              some (Task.returned (.startTrack (.error (newError .invalid "closed")))))
    (by decide +kernel) with ⟨p, _, hrun⟩
  rcases Bool.and_eq_true_iff.mp hrun with ⟨htask, hsteps⟩
  rcases Option.any_eq_true _ _ |>.mp hsteps with ⟨q, hq, hrest⟩
  rcases Option.any_eq_true _ _ |>.mp hrest with ⟨r, hr, hdone⟩
  have hreach := (client flatGeo).reach_of_replay (fun x => x = q) _ Machine.anyStep
    (fun _ _ _ => trivial) _ q r (.init q rfl) hr
  exact ⟨p, r, closed_refuses flatGeo p q r 3 .go (.close .final) _ (beq_iff_eq.mp htask) rfl rfl
    hq hreach, beq_iff_eq.mp hdone⟩

end Tracking

end Pickpoint
