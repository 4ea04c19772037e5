import Pickpoint.Theory.Effects

/-!
# Receive Channels

What the sections do to the two channels a holder of the session receives from:
the event channel of `recv` and the command channel of `recv_command`.

Four sections touch them. The tail of `dispatch` offers an event, the `Command`
arm offers a command, and each of the two receives takes what is oldest. An offer
that finds its channel full changes nothing.

## Main definitions

* `SamePorts`: Both channels are as they were.
* `Section.ports`: The sections that touch a receive channel.

## Theorems

* `run_ports`: The others leave both alone.
* `settle_recvq`, `dispatchCommand_cmdq`: The two offers.
-/

namespace Pickpoint

namespace Tracking

/-- Both channels are as they were. -/
def SamePorts (s s' : Shared) : Prop := s'.recvq = s.recvq ∧ s'.cmdq = s.cmdq

theorem SamePorts.trans {s₁ s₂ s₃ : Shared} (h₁ : SamePorts s₁ s₂) (h₂ : SamePorts s₂ s₃) :
    SamePorts s₁ s₃ :=
  ⟨h₂.1.trans h₁.1, h₂.2.trans h₁.2⟩

theorem rejectPending_ports (s : Shared) (e : Error) : SamePorts s (s.rejectPending e) := by
  simp only [SamePorts, Shared.rejectPending, Shared.resolve_frame, and_self]

theorem hangUp_ports (s : Shared) : SamePorts s s.hangUp := by
  unfold Shared.hangUp
  rcases s.inner.outTx with _ | k
  · exact ⟨rfl, rfl⟩
  · simp only [Shared.handOver_eq]
    split <;> exact ⟨rfl, rfl⟩

theorem dispatchError_ports (sock : Nat) (e : Error) (s : Shared) :
    SamePorts s (dispatchError sock e s) := by
  have hresume : ∀ s : Shared, SamePorts s (errorResume e s) := by
    intro s
    by_cases h : s.inner.resumeWait.isSome = true
    · simp only [SamePorts, errorResume, if_pos h, Shared.resolve_frame, and_self]
    · simp only [SamePorts, errorResume, if_neg h, and_self]
  have hstart : ∀ s : Shared, SamePorts s (errorStart e s) := by
    intro s
    by_cases h : s.inner.startWait.isSome = true
    · simp only [SamePorts, errorStart, if_pos h, Shared.resolve_frame, and_self]
    · simp only [SamePorts, errorStart, if_neg h, and_self]
  have hstop : ∀ s : Shared, SamePorts s (errorStop e s) := by
    intro s
    simp only [SamePorts, errorStop, Shared.resolve_frame, and_self]
  have hfound : ∀ s : Shared, SamePorts s (errorTrackNotFound e s) := by
    intro s
    unfold errorTrackNotFound
    split <;> exact ⟨rfl, rfl⟩
  -- The parts of the block come one after the other.
  have hlog : SamePorts s (s.receive sock (.error e.code e.message e.trackUid e.retryAfterMs)) :=
    ⟨rfl, rfl⟩
  unfold dispatchError
  exact hlog.trans (((hresume _).trans (hstart _)).trans ((hstop _).trans (hfound _)))

theorem socketClosed_ports (gen : Nat) (random : ℚ) (s : Shared) :
    SamePorts s (socketClosed gen random s).1 := by
  unfold socketClosed
  split
  · exact ⟨rfl, rfl⟩
  · dsimp only
    split
    · exact ⟨rfl, rfl⟩
    · split
      · exact rejectPending_ports _ _
      · split
        · exact ⟨rfl, rfl⟩
        · exact rejectPending_ports _ _

/-- The sections that touch a receive channel. -/
def Section.ports : {α : Type} → Section α → Bool
  | _, .settle _ _ _ => true
  | _, .recv => true
  | _, .dispatchCommand _ _ => true
  | _, .recvCommand => true
  | _, _ => false

/-- The others leave both channels alone. -/
theorem run_ports (geo : Geo) {α : Type} (op : Section α) (s : Shared) (h : op.ports = false) :
    SamePorts s (op.run geo s).1 := by
  cases op with
  | dispatchError sock e => exact dispatchError_ports sock e s
  | dispatchTrackStopped sock uid =>
      simp only [Section.run, dispatchTrackStopped]
      split <;> exact ⟨rfl, rfl⟩
  | authClose => exact hangUp_ports _
  | authRefreshed device listener => exact hangUp_ports _
  -- `close` rejects who waits and hangs up, and touches no queue.
  | closeFinal =>
      have hreject : SamePorts s _ := rejectPending_ports
        { s with inner :=
          { s.inner with intentional := true, state := .closed, sessionReady := false } }
        (newError .invalid "client closed")
      exact hreject.trans (hangUp_ports _)
  | socketClosed gen random => exact socketClosed_ports gen random s
  | dialInstall gen =>
      rcases dialInstall_cases gen s with ⟨_, hi⟩ | ⟨_, _, hi⟩ <;>
        (simp only [Section.run, hi]; exact ⟨rfl, rfl⟩)
  | relocateEndpoint endpoint =>
      simp only [Section.run, relocateEndpoint_eq]
      exact ⟨rfl, rfl⟩
  | flush =>
      rcases flush_cases s with hi | ⟨_, _, _, hi⟩ <;>
        (simp only [Section.run, hi]; exact ⟨rfl, rfl⟩)
  | sendBin frame ticket =>
      rcases sendBin_cases frame ticket s with ⟨_, hi⟩ | ⟨_, _, _, hi⟩ <;>
        (simp only [Section.run, hi]; exact ⟨rfl, rfl⟩)
  | publishStart wall point =>
      rcases publishStart_cases wall point s with ⟨_, hi⟩ | ⟨_, hi⟩ <;>
        (simp only [Section.run, hi]; exact ⟨rfl, rfl⟩)
  | publishWork now wall point =>
      rcases publishWork_cases geo now wall point s with
        hi | ⟨_, _, hi | ⟨_, ⟨_, hi⟩ | ⟨_, hi⟩⟩⟩ <;>
        (simp only [Section.run, hi]; exact ⟨rfl, rfl⟩)
  | sendEvent now =>
      rcases sendEvent_cases now s with ⟨_, hi, _⟩
      simp only [Section.run, hi]
      exact ⟨rfl, rfl⟩
  | resumeLock =>
      simp only [SamePorts, Section.run, resumeLock]
      split
      · exact ⟨rfl, rfl⟩
      · simp only [Shared.newCell_frame, Shared.dropCell_frame, and_self]
  -- The calls write cells only.
  | startTrack wall loc =>
      simp only [SamePorts, Section.run, startTrack, Shared.newCell_frame, Shared.dropCell_frame,
        and_self]
  | startFailed =>
      simp only [SamePorts, Section.run, startFailed, Shared.dropCell_frame, and_self]
  | resumeTrack uid seq =>
      simp only [SamePorts, Section.run, resumeTrack, Shared.newCell_frame, Shared.dropCell_frame,
        and_self]
  | resumeFailed =>
      simp only [SamePorts, Section.run, resumeFailed, Shared.dropCell_frame, and_self]
  | stopTrack =>
      simp only [SamePorts, Section.run, stopTrack, Shared.newCell_frame, Shared.dropCell_frame,
        and_self]
  | stopFailed =>
      simp only [SamePorts, Section.run, stopFailed, Shared.dropCell_frame, and_self]
  | _ => first | exact ⟨rfl, rfl⟩ | cases h

/-- The tail of `dispatch` offers the event it forwards. -/
theorem settle_recvq (cell : Option Nat) (r : Except Error Reply) (evt : ServerEvt)
    (s : Shared) :
    (settle cell r (some evt) s).recvq =
      if s.recvq.length < Shared.recvCapacity then s.recvq ++ [evt] else s.recvq := by
  simp only [settle, Shared.resolve_frame]
  split <;> simp only [Shared.resolve_frame]

/-- The `Command` arm of `dispatch` offers the command. -/
theorem dispatchCommand_cmdq (sock : Nat) (c : Command) (s : Shared) :
    (dispatchCommand sock c s).cmdq =
      if s.cmdq.length < Shared.cmdCapacity then s.cmdq ++ [c] else s.cmdq := by
  simp only [dispatchCommand, Shared.receive, Shared.logTraffic_frame]
  split <;> rfl

end Tracking

end Pickpoint
