import Pickpoint.Theory.Server

/-!
# Data After Binding

`sessionReady` is documented as "bound after TrackStarted / ResumeOk on this
socket", and Loc and Event frames are built only while it is set. What goes
over the wire of a socket should then start with one of the two events.

Two things break this. A frame is built under one lock and handed over under
another, so it may meet a socket that became current in between
(`data_before_binding`). And a reader of an old socket dispatches its events
without a look at the generation, so an old `ResumeOk` can set `sessionReady`
for a new socket.

If frames are handed to the socket they were built for, and `TrackStarted`
and `ResumeOk` are taken only from the socket of the current generation, data
follows binding on every socket (`reach_bindsFirst`).

## Main definitions

* `bound`: A `TrackStarted` or `ResumeOk` came over a wire.
* `bindsFirst`: Every data frame on a wire comes after one.
* `Task.ticket`: The ticket of a data frame a task is about to send.
* `staysOnSocket`: Frames and events meet the socket they belong to.

## Theorems

* `act_hands`: Data frames are sent with the ticket they were built with.
* `heir_ticket`: Where tickets come from.
* `reach_bound`: A ready session is bound, and so is every ticket's socket.
* `reach_bindsFirst`: Data follows binding.
* `data_before_binding`: Not so in general.
-/

namespace Pickpoint

namespace Tracking

open Interleave

/-- `TrackStarted` or `ResumeOk`. -/
def Traffic.binds (t : Traffic) : Bool := t.isTrackStarted || t.isResumeOk

/-- A Loc frame or an `Event` frame. -/
def Frame.isData : Frame → Bool
  | .loc _ => true
  | .cmd (.locationAdd _ _ _) => true
  | .cmd (.locationBatch _ _ _) => true
  | .cmd (.event _ _ _) => true
  | .cmd _ => false

def Traffic.isData : Traffic → Bool
  | .sent (.bin frame) _ => frame.isData
  | _ => false

/-- The socket has been bound. -/
def bound (w : List Traffic) : Bool := w.any Traffic.binds

/-- Every data frame on the wire was handed over after the socket was bound. -/
def bindsFirst : List Traffic → Bool
  | [] => true
  | t :: w => (!t.isData || bound w) && bindsFirst w

/-- The ticket of a data frame a task is about to send. -/
def Task.ticket : Task → Option Ticket
  | .reader _ _ (.sending ticket _ _ _ _) => some ticket
  | .publish (.send _ _ ticket) => some ticket
  | .sendEvent (.send _ ticket) => some ticket
  | _ => none

/-- Data frames are handed to the socket they were built for, and the events
    that bind a session come from the socket of the current generation. -/
def Section.onSocket (s : Shared) : {α : Type} → Section α → Bool
  | _, .sendBin _ (some ticket) =>
    decide (s.inner.outTx = none ∨ ticket.sock = s.inner.outTx)
  | _, .dispatchResumeOk sock _ _ => decide (s.gens[sock]? = some s.inner.dialGen)
  | _, .dispatchTrackStarted sock _ _ => decide (s.gens[sock]? = some s.inner.dialGen)
  | _, _ => true

def staysOnSocket (p : Pool Shared Task) (_ : Nat) (_ : Task) (a : Act Section Task) : Bool :=
  a.op.onSocket p.shared

theorem call_ticket (t : Task) (h : t.isCall = true) : t.ticket = none := by
  cases t with
  | reader sock gen pc => cases h
  | publish pc => cases pc <;> first | rfl | cases h
  | sendEvent pc => cases pc <;> first | rfl | cases h
  | _ => rfl

section Client

variable (geo : Geo)

/-- Data frames are sent with the ticket they were built with. -/
theorem act_hands (t : Task) (c : Input) (a : Act Section Task) (h : t.act c = some a)
    (frame : Frame) (ticket : Option Ticket) (hop : a.op.hands = some (.bin frame, ticket)) :
    (ticket = none ∧ frame.isData = false) ∨ (t.ticket = ticket ∧ ticket.isSome = true) := by
  cases act_sends t c a h frame ticket hop with
  | readerFlush => exact Or.inr ⟨rfl, rfl⟩
  | publish => exact Or.inr ⟨rfl, rfl⟩
  | sendEvent => exact Or.inr ⟨rfl, rfl⟩
  | _ => exact Or.inl ⟨rfl, rfl⟩

/-- A ticket is made by a section that finds the session ready. -/
theorem heir_ticket (t : Task) (c : Input) (a : Act Section Task) (s : Shared)
    (h : t.act c = some a) (ticket : Ticket)
    (hheir : ((client geo).heir a s).ticket = some ticket) :
    t.ticket = some ticket ∨ (ticket = s.ticket ∧ s.inner.sessionReady = true) := by
  have hnot : ∀ u : Task, u.kind ≠ .reader → u.kind ≠ .publish → u.kind ≠ .sendEvent →
      u.ticket ≠ some ticket := by
    intro u h₁ h₂ h₃
    cases u with
    | reader => exact absurd rfl h₁
    | publish => exact absurd rfl h₂
    | sendEvent => exact absurd rfl h₃
    | _ => rintro ⟨⟩
  -- A ticket is taken from the state where the code has checked `session_ready`.
  revert hheir
  rcases heir_kind geo t c a s h with hk | hk | ⟨_, _, _, _, hk⟩
  · unfold Machine.heir at hk ⊢
    revert h
    cases t with
    | reader sock gen pc =>
        simp only [Task.act]
        fun_cases Task.readerAct sock gen pc c <;> intro h <;> cases h
        case reader.case1.refl msg => cases msg <;> rintro ⟨⟩
        case reader.case3.refl cell r forward =>
          have hrun : (client geo).run Section.flush s = flush s := rfl
          rcases flush_cases s with hf | ⟨hready, _, _, hf⟩
          · simp only [hrun, hf]
            rintro ⟨⟩
          · simp only [hrun, hf]
            split
            · rintro ⟨⟩
            · next ticket' f fs heq =>
              intro hheir
              cases hheir
              have hticket : s.ticket = ticket := congrArg Prod.fst heq
              simp only [flushReady, Bool.and_eq_true] at hready
              exact Or.inr ⟨hticket.symm, hready.1.1.1⟩
        case reader.case4.refl ticket' f fs cell r forward =>
          dsimp only
          split
          · rintro ⟨⟩
          · exact Or.inl
        all_goals rintro ⟨⟩
    | publish pc =>
        simp only [Task.act]
        fun_cases Task.publishAct pc c <;> intro h <;> cases h
        case publish.case4.refl point now wall =>
          have hrun : (client geo).run (Section.publishWork now wall point) s =
              publishWork geo now wall point s := rfl
          rcases publishWork_cases geo now wall point s with
            hw | ⟨_, _, hw | ⟨emitted, ⟨_, hw⟩ | ⟨hlive, hw⟩⟩⟩
          · simp only [hrun, hw]
            rintro ⟨⟩
          · simp only [hrun, hw]
            rintro ⟨⟩
          · simp only [hrun, hw]
            rintro ⟨⟩
          · simp only [hrun, hw, publishLive]
            intro hheir
            cases hheir
            have hready := goesLive_open geo now wall point s.inner hlive
            simp only [publishOpen, Bool.and_eq_true] at hready
            exact Or.inr ⟨rfl, hready.1.1.1⟩
        all_goals
          dsimp only
          (try split) <;> rintro ⟨⟩
    | sendEvent pc =>
        simp only [Task.act]
        fun_cases Task.sendEventAct pc c <;> intro h <;> cases h
        case sendEvent.case2.refl payload now wall hlen =>
          have hrun : (client geo).run (Section.sendEvent now) s = sendEvent now s := rfl
          rcases sendEvent_cases now s with ⟨_, _, ⟨r, hr⟩ | ⟨hready, _, hr⟩⟩
          · simp only [hrun, hr]
            rintro ⟨⟩
          · simp only [hrun, hr]
            intro hheir
            cases hheir
            exact Or.inr ⟨rfl, hready⟩
        all_goals rintro ⟨⟩
    | _ =>
        intro _ hheir
        exact absurd hheir (hnot _ (by rw [hk]; rintro ⟨⟩) (by rw [hk]; rintro ⟨⟩)
          (by rw [hk]; rintro ⟨⟩))
  · intro hheir
    exact absurd hheir (hnot _ (by rw [hk]; rintro ⟨⟩) (by rw [hk]; rintro ⟨⟩)
      (by rw [hk]; rintro ⟨⟩))
  · rw [hk]
    rintro ⟨⟩

theorem bound_mono (a : Act Section Task) (s : Shared) (k : Nat)
    (h : bound (s.wire k) = true) : bound (((client geo).after a s).wire k) = true := by
  rcases List.any_eq_true.mp h with ⟨t, ht, hbinds⟩
  exact List.any_eq_true.mpr ⟨t, run_wire_mem geo a.op s k t ht, hbinds⟩

theorem spawned_ticket (t : Task) (c : Input) (a : Act Section Task) (s : Shared)
    (h : t.act c = some a) (u : Task) (hu : u ∈ (client geo).spawned a s) : u.ticket = none := by
  rcases spawned_cases geo t c a s h u hu with
    ⟨_, _, _, _, rfl | rfl⟩ | ⟨_, _, _, rfl | rfl | ⟨_, rfl⟩⟩ | ⟨_, _, _, rfl⟩ <;> rfl

/-- What the invariant says of the shared state: a ready session is bound on
    the socket of the current generation, and data follows binding. -/
structure Bound (s : Shared) : Prop where
  ready : s.inner.sessionReady = true →
    ∃ k : Nat, s.gens[k]? = some s.inner.dialGen ∧ bound (s.wire k) = true
  wires : ∀ k, bindsFirst (s.wire k) = true

/-- An event that binds the session is on the wire of its socket. -/
theorem bind_hears {α : Type} (op : Section α) (sock : Nat) (h : op.drive = .bind sock) :
    ∃ evt, op.hears = some (sock, evt) ∧ (Traffic.got evt).binds = true ∧
      ∀ s, op.onSocket s = decide (s.gens[sock]? = some s.inner.dialGen) := by
  cases op with
  | dispatchResumeOk => cases h; exact ⟨_, rfl, rfl, fun _ => rfl⟩
  | dispatchTrackStarted => cases h; exact ⟨_, rfl, rfl, fun _ => rfl⟩
  | _ => cases h

theorem hands_onSocket {α : Type} (op : Section α) (frame : Frame) (ticket : Ticket)
    (hop : op.hands = some (.bin frame, some ticket)) (s : Shared) (h : op.onSocket s = true) :
    s.inner.outTx = none ∨ ticket.sock = s.inner.outTx := by
  cases op <;> cases hop
  exact of_decide_eq_true h

variable (cfg : Config)

/-- In a run that stays on socket, a ready session is bound, a ticket's socket
    is bound, and data follows binding. -/
theorem reach_bound (p : Pool Shared Task)
    (h : (client geo).Reach (Started cfg)
      ((client geo).whenever fun p i t a => staysOnSocket p i t a = true) p) :
    Bound p.shared ∧ ∀ (j : Nat) u, p.tasks[j]? = some u → ∀ ticket k, u.ticket = some ticket →
      ticket.sock = some k → bound (p.shared.wire k) = true := by
  have hreach := (client geo).reach_knowing (Started cfg) _ Dialed
    (fun p h => reach_dialed geo cfg _ p h) p h
  refine (client geo).reach_tasks (Started cfg) _ Bound
    (fun s t => ∀ ticket k, t.ticket = some ticket → ticket.sock = some k →
      bound (s.wire k) = true) ?_ ?_ ?_ ?_ p hreach
  · intro p hp
    rcases started_pool cfg p hp with ⟨now, rfl⟩
    refine ⟨⟨by rintro ⟨⟩, fun _ => rfl⟩, fun t ht ticket k hticket => ?_⟩
    rw [List.mem_singleton.mp ht] at hticket
    cases hticket
  · intro s t _ hent ticket k hticket
    have hcall := ((entry_iff geo s t).mp hent).2
    rw [call_ticket t hcall] at hticket
    cases hticket
  · rintro p i c t a ht ha ⟨hcond, hdialed⟩ hI hQ _
    refine ⟨⟨fun hready => ?_, fun k => ?_⟩, fun ticket k hticket hk => ?_,
      fun u hu ticket k hticket => ?_⟩
    · rcases move_ready _ _ _ (after_moves geo a p.shared) hready with
        ⟨hgen, hold | ⟨sock, hdrive⟩⟩
      · rcases hI.ready hold with ⟨k, hk, hb⟩
        refine ⟨k, ?_, bound_mono geo a p.shared k hb⟩
        exact after_gens_get geo a p.shared k _ (hk.trans (congrArg some hgen.symm))
      · -- The event came from the socket of the current generation.
        rcases bind_hears a.op sock hdrive with ⟨evt, hhears, hbinds, hon⟩
        have hsock : p.shared.gens[sock]? = some p.shared.inner.dialGen :=
          of_decide_eq_true ((hon p.shared).symm.trans hcond)
        have hlt : sock < p.shared.sockets.length := by
          have := (List.getElem?_eq_some_iff.mp hsock).1
          rwa [Shared.gens, List.length_map] at this
        refine ⟨sock, after_gens_get geo a p.shared sock _
          (hsock.trans (congrArg some hgen.symm)), ?_⟩
        have hwire : ((client geo).after a p.shared).wire sock = _ :=
          run_hears geo a.op p.shared sock evt hhears hlt
        rw [hwire]
        exact List.any_eq_true.mpr ⟨_, List.mem_cons_self, hbinds⟩
    · -- A frame handed over without a ticket is a plain one; one with a ticket goes to
      -- the socket of the ticket, which is bound.
      rcases run_wire geo a.op p.shared k with hw | ⟨evt, _, hw⟩ | ⟨out, ticket, hop, hk, _, hw⟩
      · exact hw ▸ hI.wires k
      · exact hw ▸ hI.wires k
      · have hwire : ((client geo).after a p.shared).wire k = _ := hw
        rw [hwire]
        refine Bool.and_eq_true_iff.mpr ⟨?_, hI.wires k⟩
        rcases out with frame | _
        · rcases act_hands t c a ha frame ticket hop with ⟨_, hplain⟩ | ⟨hticket, hsome⟩
          · exact Bool.or_eq_true_iff.mpr (Or.inl (congrArg Bool.not hplain))
          · rcases Option.isSome_iff_exists.mp hsome with ⟨tk, rfl⟩
            have hsock := hands_onSocket a.op frame tk hop p.shared hcond
            rcases hsock with hnone | hsock
            · cases hnone.symm.trans hk
            · exact Bool.or_eq_true_iff.mpr (Or.inr (hQ tk k hticket (hsock.trans hk)))
        · rfl
    · rcases heir_ticket geo t c a p.shared ha ticket hticket with hold | ⟨rfl, hready⟩
      · exact bound_mono geo a p.shared k (hQ ticket k hold hk)
      · rcases hI.ready hready with ⟨j, hj, hb⟩
        -- The bound socket of this generation is the current one.
        rcases hdialed.sound.latest j hj with hcur | hcur
        · have hjk : j = k := Option.some.inj (hcur.symm.trans hk)
          exact bound_mono geo a p.shared k (hjk ▸ hb)
        · cases hcur.symm.trans hk
    · rw [spawned_ticket geo t c a p.shared ha u hu] at hticket
      cases hticket
  · intro p i j c t u a _ _ _ _ _ _ _ hQu ticket k hticket hk
    exact bound_mono geo a p.shared k (hQu ticket k hticket hk)

/-- Data follows binding on every socket, in every run that stays on socket: a data
    frame is handed to the socket it was built for, and the event that binds the
    session is read from the current one. -/
theorem reach_bindsFirst (p : Pool Shared Task)
    (h : (client geo).Reach (Started cfg)
      ((client geo).whenever fun p i t a => staysOnSocket p i t a = true) p) (k : Nat) :
    bindsFirst (p.shared.wire k) = true :=
  (reach_bound geo cfg p h).1.wires k

end Client

/-- A point published while the first socket is current goes out there, after
    the `TrackStarted` that bound it. -/
theorem reach_bindsFirst_published :
    ∃ p : Pool Shared Task, (p.shared.wire 0).any Traffic.isData = true ∧
      bindsFirst (p.shared.wire 0) = true := by
  rcases reach_of_watched staysOnSocket (tracking ++ publishSteps 4 1000 ++ [.resume 4 .go])
    (fun p => (p.shared.wire 0).any Traffic.isData) (by decide +kernel) with ⟨p, hp, hdata⟩
  exact ⟨p, hdata, reach_bindsFirst flatGeo someConfig p hp 0⟩

/-- A point is numbered for the first socket; before it is handed over, a
    Relocate makes another socket current. -/
def publishedLate : List (Label Task Input) :=
  tracking ++ publishSteps 4 1000 ++
    [.resume 2 (.frame (.relocate "wss://b" 0)), .resume 5 .go, .resume 5 .go] ++ dialSteps 5 ++
    [.resume 4 .go]

/-- The point goes out on a socket that nothing has bound. -/
theorem data_before_binding :
    ¬ ∀ p, (client flatGeo).Reach (Started someConfig) Machine.anyStep p →
      ∀ k, bindsFirst (p.shared.wire k) = true := by
  intro hall
  rcases reach_of_opening publishedLate (fun p => !bindsFirst (p.shared.wire 1))
    (by decide +kernel) with ⟨p, hp, hrun⟩
  rw [hall p hp 1] at hrun
  cases hrun

end Tracking

end Pickpoint
