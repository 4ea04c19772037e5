import Pickpoint.Theory.Server

/-!
# Shutting Down

`close` marks the session as over and sets its state to `Closed`. The tasks
that dial look at the mark before they do, but in a locked section of their
own; a `close` that falls between the look and the dial is overwritten by the
first block of `dial_inner`, which sets the state without looking
(`dial_reopens`).

Nothing else takes `Closed` back: as long as no dial begins on a session that
is over, its state stays `Closed` (`closed_stays`).

Nothing leaves, whatever the state says. A dial that got through is refused at
its install, which looks at the mark in the same locked section, so there is
no current socket any more and nothing can be handed over (`closed_silent`).

## Main definitions

* `Link.Ended`: The session is over and says so.
* `keepsClosed`: No dial begins on a session that is over.
* `StaysClosed`: After `close` the state is `Closed` for good.
* `Link.Mute`: The session is over and has no socket.
* `StaysSilent`: After `close` nothing but the `Close` leaves.

## Theorems

* `move_ended`: Only a dial that begins ends the end.
* `closed_stays`: `Closed` stays.
* `dial_reopens`: Not so in general.
* `move_mute`: A session without a socket gets none after its end.
* `closed_silent`: Nothing leaves.
-/

namespace Pickpoint

namespace Tracking

open Interleave

/-- The session is over and says so. -/
structure Link.Ended (l : Link) : Prop where
  intentional : l.intentional = true
  state : l.state = .closed

def Section.begins : {α : Type} → Section α → Bool
  | _, .dialBegin => true
  | _, _ => false

/-- No dial begins on a session that is over. Those that are under way when `close`
    comes may go on: the sections behind the first do look at `intentional`. -/
def keepsClosed (p : Pool Shared Task) (_ : Nat) (_ : Task) (a : Act Section Task) : Bool :=
  !(p.shared.inner.intentional && a.op.begins)

/-- Once the last block of a `close` has run, the state is `Closed` in every
    pool reached from there by steps that satisfy `ok`. -/
def StaysClosed (geo : Geo) (ok : Pool Shared Task → Label Task Input → Prop)
    (p : Pool Shared Task) : Prop :=
  ∀ (i : Nat) q r, p.tasks[i]? = some (.close .final) →
    (client geo).step p (.resume i .go) = some q →
    (client geo).Reach (fun x => x = q) ok r → r.shared.inner.state = .closed

/-- Only a dial that begins takes a session that is over out of `Closed`: an
    install needs a session that is not over, and the close handler knows the
    mark. -/
theorem move_ended (d : Drive) (l l' : Link) (hm : Link.Move d l l') (hd : d ≠ .begin)
    (h : l.Ended) : l'.Ended := by
  cases hm with
  | begin => exact absurd rfl hd
  | install _ hint =>
      -- The mark would have stopped this install.
      have hbad : false = true := hint.symm.trans h.intentional
      cases hbad
  | lose _ state _ hint => exact ⟨h.intentional, hint h.intentional⟩
  | shut => exact ⟨rfl, rfl⟩
  | _ => exact ⟨h.intentional, h.state⟩

theorem begins_drive {α : Type} (op : Section α) (h : op.begins = false) : op.drive ≠ .begin := by
  intro hd
  cases op <;> cases hd
  cases h

section Client

variable (geo : Geo)

/-- The last block of `close` ends the session. -/
theorem closeFinal_ended (s : Shared) : (closeFinal s).link.Ended := by
  refine ⟨?_, ?_⟩
  · show (closeFinal s).inner.intentional = true
    rw [(closeFinal_frame s).1]
  · show (closeFinal s).inner.state = .closed
    rw [(closeFinal_frame s).1]

/-- A session that is over stays over while no dial begins. -/
theorem reach_ended (q r : Pool Shared Task) (hq : q.shared.link.Ended)
    (h : (client geo).Reach (fun x => x = q)
      ((client geo).whenever fun p i t a => keepsClosed p i t a = true) r) :
    r.shared.link.Ended := by
  refine (client geo).reach_shared (fun x => x = q) _ (fun s => s.link.Ended) ?_ ?_ r h
  · intro p hp
    rw [hp]
    exact hq
  · intro p i c t a _ _ hcond hI
    refine move_ended _ _ _ (after_moves geo a p.shared) (begins_drive a.op ?_) hI
    have hint : p.shared.inner.intentional = true := hI.intentional
    simp only [keepsClosed, hint, Bool.true_and, Bool.not_eq_true'] at hcond
    exact hcond

/-- After `close` the state is `Closed` for good, in every run in which no dial
    begins on a session that is over. The first section of a dial sets `Connecting`
    without a look at `intentional`. -/
theorem closed_stays (p : Pool Shared Task) :
    StaysClosed geo ((client geo).whenever fun p i t a => keepsClosed p i t a = true) p := by
  intro i q r ht hs hr
  rcases ((client geo).step_resume_iff p q i .go).mp hs with ⟨t, a, ht', ha, rfl⟩
  rw [ht, Option.some.injEq] at ht'
  rw [← ht'] at ha
  cases ha
  exact (reach_ended geo _ r (closeFinal_ended p.shared) hr).state

end Client

/-- `close` has returned, the socket has closed and its close handler has run:
    the state is still `Closed`. -/
theorem closed_stays_hungUp :
    ∃ r : Pool Shared Task, r.tasks[4]? = some (.returned .none) ∧
      r.shared.inner.state = .closed := by
  -- A `close` on an open session; then the reader finds the end of the socket.
  rcases reach_of_opening (opening ++ [.spawn (.close .read), .resume 3 .go])
    (fun p => p.tasks[3]? == some (Task.close .final) &&
      ((client flatGeo).step p (.resume 3 .go)).any fun q =>
        ((client flatGeo).replay ((client flatGeo).watch keepsClosed) q
          [.resume 2 .eof, .resume 4 (.random 0)]).any fun r =>
            r.tasks[4]? == some (Task.returned .none))
    (by decide +kernel) with ⟨p, _, hrun⟩
  rcases Bool.and_eq_true_iff.mp hrun with ⟨htask, hsteps⟩
  rcases Option.any_eq_true _ _ |>.mp hsteps with ⟨q, hq, hrest⟩
  rcases Option.any_eq_true _ _ |>.mp hrest with ⟨r, hr, hdone⟩
  have hreach := (client flatGeo).reach_of_replay (fun x => x = q) _ _
    ((client flatGeo).whenever_of_watch keepsClosed) _ q r (.init q rfl) hr
  exact ⟨r, beq_iff_eq.mp hdone, closed_stays flatGeo p 3 q r (beq_iff_eq.mp htask) hq hreach⟩

/-- A Relocate has seen that the session goes on and is about to dial; `close`
    is about to run its last block. -/
def closingBeforeDial : List (Label Task Input) :=
  opening ++ [.resume 2 (.frame (.relocate "wss://b" 0)), .resume 3 .go, .resume 3 .go,
    .spawn (.close .read), .resume 4 .go]

/-- The dial takes the closed session back to `Connecting`. -/
theorem dial_reopens :
    ¬ ∀ p, (client flatGeo).Reach (Started someConfig) Machine.anyStep p →
      StaysClosed flatGeo Machine.anyStep p := by
  intro hall
  rcases reach_of_opening closingBeforeDial
    (fun p => p.tasks[4]? == some (Task.close .final) &&
      ((client flatGeo).step p (.resume 4 .go)).any fun q =>
        ((client flatGeo).step q (.resume 3 .go)).any fun r =>
          r.shared.inner.state == .connecting)
    (by decide +kernel) with ⟨p, hp, hrun⟩
  rcases Bool.and_eq_true_iff.mp hrun with ⟨htask, hsteps⟩
  rcases Option.any_eq_true _ _ |>.mp hsteps with ⟨q, hq, hrest⟩
  rcases Option.any_eq_true _ _ |>.mp hrest with ⟨r, hr, hstate⟩
  have hreach : (client flatGeo).Reach (fun x => x = q) Machine.anyStep r :=
    .step q r (.resume 3 .go) (.init q rfl) trivial hr
  -- The state is `Connecting` one step after `close` set it to `Closed`.
  have hclosed := hall p hp 4 q r (beq_iff_eq.mp htask) hq hreach
  rw [beq_iff_eq.mp hstate] at hclosed
  cases hclosed

/-! ## Nothing leaves -/

/-- The session is over and has no socket. -/
structure Link.Mute (l : Link) : Prop where
  intentional : l.intentional = true
  current : l.current = none

/-- What a wire may still see after a `close`: what the server had under way,
    and the `Close` itself. -/
def Traffic.parting : Traffic → Bool
  | .got _ => true
  | .sent .close _ => true
  | .sent (.bin _) _ => false

/-- Nothing but parting traffic was added to the wires of `s`, and no socket. -/
structure Parted (s s' : Shared) : Prop where
  sockets : s'.sockets.length = s.sockets.length
  wires : ∀ k, ∃ new, s'.wire k = new ++ s.wire k ∧ ∀ t ∈ new, t.parting = true

/-- From the last block of a `close` on, there is no current socket, no socket
    is installed, and no frame is handed to any; only a `Close` is. -/
def StaysSilent (geo : Geo) (p : Pool Shared Task) : Prop :=
  ∀ (i : Nat) q r, p.tasks[i]? = some (.close .final) →
    (client geo).step p (.resume i .go) = some q →
    (client geo).Reach (fun x => x = q) Machine.anyStep r →
      r.shared.inner.outTx = none ∧ Parted p.shared r.shared

/-- An install looks at the mark, so nothing brings a socket back. -/
theorem move_mute (d : Drive) (l l' : Link) (hm : Link.Move d l l') (h : l.Mute) :
    l'.Mute ∧ l'.gens = l.gens := by
  cases hm with
  | install _ hint =>
      have hbad : false = true := hint.symm.trans h.intentional
      cases hbad
  | refresh => exact ⟨⟨h.intentional, rfl⟩, rfl⟩
  | lose => exact ⟨⟨h.intentional, rfl⟩, rfl⟩
  | shut _ current _ hcur =>
      rcases hcur with rfl | rfl
      · exact ⟨⟨rfl, h.current⟩, rfl⟩
      · exact ⟨⟨rfl, rfl⟩, rfl⟩
  | _ => exact ⟨⟨h.intentional, h.current⟩, rfl⟩

theorem Parted.refl (s : Shared) : Parted s s :=
  ⟨rfl, fun _ => ⟨[], rfl, fun _ ht => absurd ht (List.not_mem_nil)⟩⟩

theorem Parted.trans (s s' s'' : Shared) (h : Parted s s') (h' : Parted s' s'') :
    Parted s s'' := by
  refine ⟨h'.sockets.trans h.sockets, fun k => ?_⟩
  rcases h.wires k with ⟨new, hnew, hpart⟩
  rcases h'.wires k with ⟨new', hnew', hpart'⟩
  refine ⟨new' ++ new, by rw [hnew', hnew, List.append_assoc], ?_⟩
  intro t ht
  rcases List.mem_append.mp ht with ht | ht
  · exact hpart' t ht
  · exact hpart t ht

section Client

variable (geo : Geo)

/-- A section parts when it adds no socket and has no frame to hand over, or no
    socket to hand it to. -/
theorem run_parted {α : Type} (op : Section α) (s : Shared)
    (hgens : (op.run geo s).1.gens = s.gens)
    (hands : s.inner.outTx = none ∨ ∀ out ticket, op.hands = some (out, ticket) → out = .close) :
    Parted s (op.run geo s).1 := by
  refine ⟨?_, fun k => ?_⟩
  · rw [← gens_length, ← gens_length]
    exact congrArg List.length hgens
  rcases run_wire geo op s k with h | ⟨evt, _, h⟩ | ⟨out, ticket, hop, hk, _, h⟩
  · exact ⟨[], h, fun _ ht => absurd ht List.not_mem_nil⟩
  · refine ⟨[.got evt], h, fun t ht => ?_⟩
    rw [List.mem_singleton.mp ht]
    rfl
  · -- A message was handed over, so there was a socket and it is the `Close`.
    rcases hands with hnone | hclose
    · rw [hnone] at hk
      cases hk
    · refine ⟨[.sent out ticket], h, fun t ht => ?_⟩
      rw [List.mem_singleton.mp ht, hclose out ticket hop]
      rfl

theorem closeFinal_mute (s : Shared) : (closeFinal s).link.Mute := by
  refine ⟨?_, ?_⟩
  · show (closeFinal s).inner.intentional = true
    rw [(closeFinal_frame s).1]
  · show (closeFinal s).inner.outTx = none
    rw [(closeFinal_frame s).1]

/-- The last block of `close` hands over a `Close` and nothing else. -/
theorem closeFinal_parted (s : Shared) : Parted s ((Section.closeFinal).run geo s).1 := by
  refine run_parted geo .closeFinal s (run_gens geo .closeFinal s ?_) (Or.inr ?_)
  · rintro gen ⟨⟩
  · rintro out ticket ⟨⟩
    rfl

/-- A session that is over and has no socket stays so, and nothing leaves. -/
theorem reach_parted (q r : Pool Shared Task) (hq : q.shared.link.Mute)
    (h : (client geo).Reach (fun x => x = q) Machine.anyStep r) :
    r.shared.link.Mute ∧ Parted q.shared r.shared := by
  refine (client geo).reach_shared (fun x => x = q) _
    (fun s => s.link.Mute ∧ Parted q.shared s) ?_ ?_ r ((client geo).reach_any _ r h)
  · intro p hp
    rw [hp]
    exact ⟨hq, Parted.refl q.shared⟩
  · rintro p i c t a _ _ _ ⟨hmute, hparted⟩
    rcases move_mute _ _ _ (after_moves geo a p.shared) hmute with ⟨hmute', hgens⟩
    exact ⟨hmute', hparted.trans _ _ _ (run_parted geo a.op p.shared hgens
      (Or.inl hmute.current))⟩

/-- Nothing leaves after `close`: there is no socket to hand a frame to, and none is
    installed any more, whatever the tasks do that are still under way. -/
theorem closed_silent (p : Pool Shared Task) : StaysSilent geo p := by
  intro i q r ht hs hr
  rcases ((client geo).step_resume_iff p q i .go).mp hs with ⟨t, a, ht', ha, rfl⟩
  rw [ht, Option.some.injEq] at ht'
  rw [← ht'] at ha
  cases ha
  rcases reach_parted geo _ r (closeFinal_mute p.shared) hr with ⟨hmute, hparted⟩
  exact ⟨hmute.current, (closeFinal_parted geo p.shared).trans _ _ _ hparted⟩

end Client

/-- The dial of a Relocate runs through after `close` and is refused, and the
    server's last `Ack` is the newest thing on the wire. -/
theorem closed_silent_dialed :
    ∃ r : Pool Shared Task, r.tasks[3]? = some (.dial .relocate (.finished 2
        (.error (newError .invalid "dial superseded")))) ∧
      (r.shared.wire 0).head? = some (.got (.ack 1)) ∧ r.shared.inner.outTx = none := by
  rcases reach_of_opening closingBeforeDial
    (fun p => p.tasks[4]? == some (Task.close .final) &&
      ((client flatGeo).step p (.resume 4 .go)).any fun q =>
        ((client flatGeo).replay (fun _ _ => true) q
          (dialSteps 3 ++ [.resume 2 (.frame (.ack 1))])).any fun r =>
            r.tasks[3]? == some (Task.dial .relocate (.finished 2
              (.error (newError .invalid "dial superseded")))) &&
            (r.shared.wire 0).head? == some (.got (.ack 1)))
    (by decide +kernel) with ⟨p, _, hrun⟩
  rcases Bool.and_eq_true_iff.mp hrun with ⟨htask, hsteps⟩
  rcases Option.any_eq_true _ _ |>.mp hsteps with ⟨q, hq, hrest⟩
  rcases Option.any_eq_true _ _ |>.mp hrest with ⟨r, hr, hdone⟩
  rcases Bool.and_eq_true_iff.mp hdone with ⟨hdial, hack⟩
  have hreach := (client flatGeo).reach_of_replay (fun x => x = q) _ Machine.anyStep
    (fun _ _ _ => trivial) _ q r (.init q rfl) hr
  exact ⟨r, beq_iff_eq.mp hdial, beq_iff_eq.mp hack,
    (closed_silent flatGeo p 4 q r (beq_iff_eq.mp htask) hq hreach).1⟩

end Tracking

end Pickpoint
