import Pickpoint.Theory.Numbering

/-!
# Redials

What was sent on a lost socket has to go out again on the next one. For that
the close handler calls `markUnsent`, which clears every `sent` flag and the
send window. But a Relocate and a credential refresh dial while the old socket
is still up, and the new generation disarms its close handler. The next
`ResumeOk` then finds points that count as sent and window slots of frames that
no `Ack` will ever free (`relocate_keeps_sent`).

If a socket is installed only when nothing counts as sent, the flags and the
window speak about the current socket only, and `ResumeOk` leaves everything
to be sent again (`reach_retransmits`).

## Main definitions

* `Retransmits`: What `ResumeOk` from the current socket leaves.
* `installsClean`: A socket is installed with nothing counting as sent.
* `Renewed`: Flags and window speak about one socket.

## Theorems

* `ledger_renewed`: The sections keep it so.
* `reach_retransmits`: `ResumeOk` leaves everything to be sent again.
* `relocate_keeps_sent`: Not so in general.
-/

namespace Pickpoint

namespace Tracking

open Interleave

/-- Nothing counts as sent. -/
def OfflineQueue.clean (q : OfflineQueue) : Bool :=
  q.inflight.all (fun p => !p.sent) && q.sentFrameSeqs.isEmpty

/-- `ResumeOk` from the current socket, if no frame was built for it yet, leaves
    only unsent points beyond its number; and every entry of the window stands
    for a frame that was built for this socket. -/
def Retransmits (s : Shared) : Prop :=
  ∀ (k : Nat) (uid : String) (acked : Nat), s.inner.outTx = some k →
    ((∀ b ∈ s.built, b.ticket.sock ≠ some k) →
      ∀ q ∈ (dispatchResumeOk k uid acked s).1.inner.queue.inflight,
        acked < q.seq ∧ q.sent = false) ∧
    ∀ n ∈ (dispatchResumeOk k uid acked s).1.inner.queue.sentFrameSeqs,
      ∃ b ∈ s.built, b.ticket.sock = some k ∧ b.frame.seq = truncU32 n

/-- A socket is installed only when nothing counts as sent. -/
def Section.installsClean (s : Shared) : {α : Type} → Section α → Bool
  | _, .dialInstall gen =>
    decide (gen ≠ s.inner.dialGen) || s.inner.intentional || s.inner.queue.clean
  | _, _ => true

def installsClean (p : Pool Shared Task) (_ : Nat) (_ : Task) (a : Act Section Task) : Bool :=
  a.op.installsClean p.shared

/-- Flags and window speak about socket `k` only: while no frame was built for it
    nothing counts as sent, and every entry of the window stands for a frame that
    was. -/
structure Renewed (k : Nat) (l : Ledger) : Prop where
  unsent : (∀ b ∈ l.built, b.ticket.sock ≠ some k) → ∀ q ∈ l.queue.inflight, q.sent = false
  window : ∀ n ∈ l.queue.sentFrameSeqs,
    ∃ b ∈ l.built, b.ticket.sock = some k ∧ b.frame.seq = truncU32 n

theorem renewed_clean (k : Nat) (l : Ledger) (h : l.queue.clean = true) : Renewed k l := by
  rcases Bool.and_eq_true_iff.mp h with ⟨hall, hempty⟩
  refine ⟨fun _ q hq => ?_, fun n hn => ?_⟩
  · exact Bool.not_eq_true' _ |>.mp (List.all_eq_true.mp hall q hq)
  · rw [List.isEmpty_iff.mp hempty] at hn
    exact absurd hn List.not_mem_nil

/-- Points and window entries may leave. -/
theorem renewed_sub (k : Nat) (l l' : Ledger) (hb : l'.built = l.built)
    (hq : ∀ q ∈ l'.queue.inflight, q ∈ l.queue.inflight)
    (hn : ∀ n ∈ l'.queue.sentFrameSeqs, n ∈ l.queue.sentFrameSeqs) (h : Renewed k l) :
    Renewed k l' := by
  refine ⟨?_, ?_⟩
  · rw [hb]
    exact fun hnone q hmem => h.unsent hnone q (hq q hmem)
  · rw [hb]
    exact fun n hmem => h.window n (hn n hmem)

/-- A flush for the current socket records frames it builds for it. -/
theorem flush_renewed (s : Shared) (k : Nat) (hk : s.inner.outTx = some k) (last : QueuedPoint)
    (h : Renewed k s.ledger) :
    Renewed k { s.ledger with
      queue := (flushFrames s.inner last.seq).1
      last := (flushPoints s.inner).1.lastAssignedSeq
      built := s.ledger.built ++ Shared.carry s.ticket (flushPoints s.inner).2
        (flushFrames s.inner last.seq).2 } := by
  rcases flushFrames_eq s.inner last.seq with ⟨⟨j, htake⟩, hq⟩
  have hticket := carry_ticket s.ticket (flushPoints s.inner).2 (flushFrames s.inner last.seq).2
  have hframe := carry_frame s.ticket (flushPoints s.inner).2 (flushFrames s.inner last.seq).2
  refine ⟨fun hnone q hmem => ?_, fun n hn => ?_⟩
  · -- Nothing was built for the socket, so this flush built nothing either.
    have hnil : Shared.carry s.ticket (flushPoints s.inner).2
        (flushFrames s.inner last.seq).2 = [] := by
      refine List.eq_nil_iff_forall_not_mem.mpr fun b hb => ?_
      refine hnone b (List.mem_append_right _ hb) ?_
      rw [hticket b hb]
      exact hk
    -- With no frame there is nothing to mark.
    have hmark := flushFrames_inflight s.inner last.seq
    rw [hnil] at hframe
    rw [← hframe, List.map_nil] at hmark
    have hmem' : q ∈ mark (fun _ => false) (flushPoints s.inner).1.queue.inflight := hmark ▸ hmem
    rw [mark_false] at hmem'
    rcases hs : q.sent with _ | _
    · rfl
    · have hold := flushPoints_sent s.inner q hmem' hs
      have hunsent := h.unsent (fun b hb => hnone b (List.mem_append_left _ hb)) q hold
      cases hunsent.symm.trans hs
  · rw [hq] at hn
    rcases List.mem_append.mp hn with hn | hn
    · -- A number in the window was there before, or belongs to a frame just built.
      rw [flushPoints_window] at hn
      rcases h.window n hn with ⟨b, hb, hsock, hseq⟩
      exact ⟨b, List.mem_append_left _ hb, hsock, hseq⟩
    · rcases List.mem_map.mp hn with ⟨f, hf, rfl⟩
      have hfits : truncU32 f.seq = f.seq := by
        rw [htake] at hf
        exact frameChunks_seq _ _ _ f (List.mem_of_mem_take hf)
      rw [← hframe] at hf
      rcases List.mem_map.mp hf with ⟨b, hb, rfl⟩
      refine ⟨b, List.mem_append_right _ hb, ?_, hfits.symm⟩
      rw [hticket b hb]
      exact hk

/-- A live point is framed for the current socket. -/
theorem goLive_renewed (geo : Geo) (k : Nat) (l : Ledger) (ticket : Ticket) (point : LatLng)
    (hticket : ticket.sock = some k) (h : Renewed k l) :
    Renewed k (l.goLive geo ticket point) := by
  refine ⟨fun hnone => absurd hticket (hnone _ List.mem_concat_self), fun n hn => ?_⟩
  rcases l.queue.enqueue_inflight geo (l.last + 1) point with ⟨_, _, hwindow⟩
  rw [Ledger.goLive, OfflineQueue.recordFrame_eq, hwindow] at hn
  rcases List.mem_append.mp hn with hn | hn
  · rcases h.window n hn with ⟨b, hb, hsock, hseq⟩
    exact ⟨b, List.mem_append_left _ hb, hsock, hseq⟩
  · rw [List.mem_singleton.mp hn]
    exact ⟨_, List.mem_concat_self, hticket, rfl⟩

section Client

variable (geo : Geo)

/-- The sections keep flags and window to the current socket. -/
theorem ledger_renewed {α : Type} (op : Section α) (s : Shared) (l' : Ledger) (k : Nat)
    (hstep : LedgerStep geo s op l') (hk : s.inner.outTx = some k) (h : Renewed k s.ledger) :
    Renewed k l' := by
  -- Fewer entries, with nothing new built, stay renewed.
  have hsub : ∀ l : Ledger, l.built = s.ledger.built →
      (∀ q ∈ l.queue.inflight, q ∈ s.ledger.queue.inflight) →
      (∀ n ∈ l.queue.sentFrameSeqs, n ∈ s.ledger.queue.sentFrameSeqs) → Renewed k l :=
    fun l hb hq hn => renewed_sub k s.ledger l hb hq hn h
  cases hstep with
  | resumeOk =>
      exact hsub _ rfl (fun q hq => List.mem_of_mem_filter hq) fun n hn => List.mem_of_mem_filter hn
  | ack =>
      exact hsub _ rfl (fun q hq => List.mem_of_mem_filter hq) fun n hn => List.mem_of_mem_filter hn
  | stopped => exact renewed_clean k _ rfl
  | startTrack => exact renewed_clean k _ rfl
  | publishStart => exact renewed_clean k _ rfl
  | error sock e uid queue starting hdrop =>
      rcases hdrop with ⟨_, rfl⟩ | ⟨_, rfl⟩
      · exact hsub _ rfl (fun q hq => hq) fun n hn => hn
      · exact renewed_clean k _ rfl
  -- The redial marks every point unsent.
  | closed =>
      refine renewed_clean k _ (Bool.and_eq_true_iff.mpr ⟨List.all_eq_true.mpr ?_, rfl⟩)
      intro q hq
      rcases List.mem_map.mp hq with ⟨q₀, _, rfl⟩
      rfl
  | flush last hready hlast => exact flush_renewed s k hk last h
  -- The cap may take points out of InFlight, and puts none in.
  | publishStaged now wall point emitted =>
      rcases s.inner.queue.pushStaging_inflight geo emitted with ⟨j, hj, hwin⟩
      exact hsub _ rfl (fun q hq => List.mem_of_mem_drop (hj ▸ hq)) fun n hn => hwin ▸ hn
  | publishLive now wall point emitted hlive =>
      exact goLive_renewed geo k s.ledger s.ticket emitted hk h
  | _ => exact hsub _ rfl (fun q hq => hq) fun n hn => hn

theorem install_quiet {α : Type} (op : Section α) (gen : Nat) (h : op.drive = .install gen) :
    op.books = false := by
  cases op <;> cases h
  rfl

theorem install_clean {α : Type} (op : Section α) (s : Shared)
    (h : op.drive = .install s.inner.dialGen) (hint : s.inner.intentional = false)
    (hcond : op.installsClean s = true) : s.inner.queue.clean = true := by
  cases op <;> cases h
  have hclean : (decide (s.inner.dialGen ≠ s.inner.dialGen) || s.inner.intentional ||
      s.inner.queue.clean) = true := hcond
  rwa [hint, decide_eq_false (fun hne => hne rfl), Bool.or_false, Bool.false_or] at hclean

variable (cfg : Config)

/-- Flags and window speak about the current socket. -/
theorem reach_renewed (p : Pool Shared Task)
    (h : (client geo).Reach (Started cfg)
      ((client geo).whenever fun p i t a => installsClean p i t a = true) p) :
    ∀ k, p.shared.inner.outTx = some k → Renewed k p.shared.ledger := by
  refine (client geo).reach_shared (Started cfg) _
    (fun s => ∀ k, s.inner.outTx = some k → Renewed k s.ledger) ?_ ?_ p h
  · intro p hp k hk
    rcases started_pool cfg p hp with ⟨now, rfl⟩
    cases hk
  · intro p i c t a _ _ hcond hI k hk
    have hstep := run_ledger geo a.op p.shared
    rcases move_current _ _ _ (after_moves geo a p.shared) k hk with hold | ⟨hdrive, hint, _⟩
    · exact ledger_renewed geo a.op p.shared _ k hstep hold (hI k hold)
    · have hclean := install_clean a.op p.shared hdrive hint hcond
      have hledger : ((client geo).after a p.shared).ledger = p.shared.ledger :=
        run_ledger_quiet geo a.op p.shared (install_quiet a.op _ hdrive)
      rw [hledger]
      exact renewed_clean k _ hclean

/-- `ResumeOk` leaves everything to be sent again, in every run that installs
    sockets with nothing counting as sent. The step and run lemmas keep `Renewed`,
    that flags and window speak about the current socket only. A redial after a lost
    socket marks every point unsent and so meets the condition. The dials of a
    `Relocate` and of a refreshed session skip that. -/
theorem reach_retransmits (p : Pool Shared Task)
    (h : (client geo).Reach (Started cfg)
      ((client geo).whenever fun p i t a => installsClean p i t a = true) p) :
    Retransmits p.shared := by
  intro k uid acked hk
  have hrenewed := reach_renewed geo cfg p h k hk
  refine ⟨fun hnone q hq => ?_, fun n hn => ?_⟩
  · rcases List.mem_filter.mp hq with ⟨hmem, hlt⟩
    exact ⟨of_decide_eq_true hlt, hrenewed.unsent hnone q hmem⟩
  · exact hrenewed.window n (List.mem_of_mem_filter hn)

end Client

/-- A point was sent on a socket that closed; the next socket has dialed and
    sent its `Resume`. -/
def resuming : List (Label Task Input) :=
  tracking ++ publishSteps 4 1000 ++ [.resume 4 .go, .resume 2 .eof, .resume 5 (.random 0),
    .resume 5 .go] ++ dialSteps 5 ++ [.resume 5 .go, .resume 5 .go]

/-- The point is still in flight when the next socket resumes, and will be sent
    again. -/
theorem reach_retransmits_reconnected :
    ∃ p : Pool Shared Task, p.shared.inner.queue.inflight.map (·.seq) = [1] ∧
      p.shared.inner.outTx = some 1 ∧ Retransmits p.shared := by
  rcases reach_of_watched installsClean resuming
    (fun p => decide (p.shared.inner.queue.inflight.map (·.seq) = [1] ∧
      p.shared.inner.outTx = some 1))
    (by decide +kernel) with ⟨p, hp, hrun⟩
  rcases of_decide_eq_true hrun with ⟨hseqs, hout⟩
  exact ⟨p, hseqs, hout, reach_retransmits flatGeo someConfig p hp⟩

/-- A point was sent, and then a Relocate moved the session. -/
def relocatedMidway : List (Label Task Input) :=
  tracking ++ publishSteps 4 1000 ++ [.resume 4 .go, .resume 2 (.frame (.relocate "wss://b" 0)),
    .resume 5 .go, .resume 5 .go] ++ dialSteps 5 ++ [.resume 5 .go, .resume 5 .go]

/-- The point counts as sent although the server behind the new socket has
    nothing of it. -/
theorem relocate_keeps_sent :
    ¬ ∀ p, (client flatGeo).Reach (Started someConfig) Machine.anyStep p →
      Retransmits p.shared := by
  intro hall
  rcases reach_of_opening relocatedMidway
    (fun p => decide (p.shared.inner.outTx = some 1 ∧
      (p.shared.built.map fun b => b.ticket.sock) = [some 0] ∧
      ∃ q ∈ (dispatchResumeOk 1 "T" 0 p.shared).1.inner.queue.inflight, q.sent = true))
    (by decide +kernel) with ⟨p, hp, hrun⟩
  rcases of_decide_eq_true hrun with ⟨hout, hbuilt, q, hq, hsent⟩
  have hnone : ∀ b ∈ p.shared.built, b.ticket.sock ≠ some 1 := by
    intro b hb hsock
    have hmem := List.mem_map_of_mem (f := fun b : Built => b.ticket.sock) hb
    rw [hbuilt, hsock, List.mem_singleton] at hmem
    cases hmem
  cases ((hall p hp 1 "T" 0 hout).1 hnone q hq).2.symm.trans hsent

end Tracking

end Pickpoint
