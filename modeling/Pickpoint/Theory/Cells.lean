import Pickpoint.Theory.Waiters

/-!
# Cells

Who holds which oneshot cell. A call of `start_track` makes a cell of its own,
leaves it with the session as the start waiter, and reads its answer from it.
The reader that dispatches the reply takes the waiter along and resolves the
cell once it has flushed the queue, so an answer may be on its way for a while.

A new cell has an index that was never used, and this is all that keeps two
calls apart: `CellsApart` collects what follows from it.

## Main definitions

* `Task.startCell`: The cell a call of `start_track` waits on.
* `answerFor`, `Task.carries`: An answer on its way to a cell.
* `ServerEvt.reply`: What an event tells whom.
* `Section.settles`: The answer a section delivers.
* `Answered`: An answer was delivered, or is on its way.
* `CellsApart`: Cells are in use by one party at most.

## Theorems

* `run_cells`: Who answers a cell.
* `after_wait_fresh`: A new waiter has a new cell.
* `heir_startCell`, `heir_replies`: Where a cell and an answer come from.
* `answered_reply`: The same for a step.
* `reach_cellsApart`: No two parties share a cell.
-/

namespace Pickpoint

namespace Tracking

open Interleave

/-- The cell a call of `start_track` waits on. -/
def Task.startCell : Task → Option Nat
  | .startTrack (.send cell _ _ _) => some cell
  | .startTrack (.reply cell) => some cell
  | _ => none

/-- An answer for a cell, when there is a cell and the reply is not an error. -/
def answerFor : Option Nat → Except Error Reply → Option (Nat × Reply)
  | some cell, .ok r => some (cell, r)
  | _, _ => none

/-- An answer a reader is bringing to a cell. -/
def Task.carries : Task → Option (Nat × Reply)
  | .reader _ _ (.flush cell r _) => answerFor cell r
  | .reader _ _ (.sending _ _ cell r _) => answerFor cell r
  | .reader _ _ (.settle cell r _) => answerFor cell r
  | _ => none

/-- What an event tells whom, if it is a reply. -/
def ServerEvt.reply : ServerEvt → Option (Waiter × Reply)
  | .trackStarted uid _ => some (.start, { uid := uid })
  | .trackStopped _ => some (.stop, {})
  | .resumeOk _ seq => some (.resume, { seq := seq })
  | _ => none

/-- The answer a section delivers. -/
def Section.settles : {α : Type} → Section α → Option (Nat × Reply)
  | _, .settle cell r _ => answerFor cell r
  | _, _ => none

theorem answerFor_iff (cell : Option Nat) (r : Except Error Reply) (c : Nat) (r' : Reply) :
    answerFor cell r = some (c, r') ↔ cell = some c ∧ r = .ok r' := by
  constructor
  · intro h
    rcases cell with _ | cell
    · cases h
    · rcases r with e | r
      · cases h
      · cases h
        exact ⟨rfl, rfl⟩
  · rintro ⟨rfl, rfl⟩
    rfl

/-! ## What the sections do to the cells -/

/-- No cell is lost, and none got an answer. -/
def AnswersNone (cells cells' : List Oneshot) : Prop :=
  cells.length ≤ cells'.length ∧
    ∀ (c : Nat) (r : Reply), cells'[c]? = some (.sent (.ok r)) → cells[c]? = some (.sent (.ok r))

theorem AnswersNone.refl (cells : List Oneshot) : AnswersNone cells cells :=
  ⟨Nat.le_refl _, fun _ _ h => h⟩

theorem AnswersNone.trans (cells cells' cells'' : List Oneshot) (h : AnswersNone cells cells')
    (h' : AnswersNone cells' cells'') : AnswersNone cells cells'' :=
  ⟨Nat.le_trans h.1 h'.1, fun c r hc => h.2 c r (h'.2 c r hc)⟩

/-- A cell that is given something else than an answer has none. -/
theorem AnswersNone.set (cells : List Oneshot) (cell : Nat) (o : Oneshot)
    (ho : ∀ r, o ≠ .sent (.ok r)) : AnswersNone cells (cells.set cell o) := by
  refine ⟨by rw [List.length_set], fun c r hc => ?_⟩
  by_cases hcell : cell = c
  · rw [hcell, List.getElem?_set_self', Option.map_eq_map, Option.map_eq_some_iff] at hc
    rcases hc with ⟨_, _, hr⟩
    exact absurd hr (ho r)
  · rwa [List.getElem?_set_ne hcell] at hc

theorem dropCell_answersNone (s : Shared) (cell : Option Nat) :
    AnswersNone s.cells (s.dropCell cell).cells := by
  unfold Shared.dropCell
  split
  · exact .refl _
  · split
    · exact .set _ _ .dropped (by rintro r ⟨⟩)
    · exact .refl _

theorem dropCell_length (s : Shared) (cell : Option Nat) :
    (s.dropCell cell).cells.length = s.cells.length := by
  unfold Shared.dropCell
  split
  · rfl
  · split
    · exact List.length_set
    · rfl

theorem newCell_answersNone (s : Shared) : AnswersNone s.cells s.newCell.1.cells := by
  refine ⟨by simp only [Shared.newCell, List.length_append]; omega, fun c r hc => ?_⟩
  rcases Nat.lt_or_ge c s.cells.length with hlt | hge
  · rwa [Shared.newCell, List.getElem?_append_left hlt] at hc
  · rw [Shared.newCell, List.getElem?_append_right hge] at hc
    cases List.mem_singleton.mp (List.mem_of_getElem? hc)

/-- A call that installs a waiter drops the one before and makes a cell. -/
theorem install_answersNone (s : Shared) (cell : Option Nat) :
    AnswersNone s.cells (s.dropCell cell).newCell.1.cells :=
  .trans _ _ _ (dropCell_answersNone s cell) (newCell_answersNone _)

theorem resolve_answersNone (s : Shared) (cells : List Oneshot) (hs : s.cells = cells)
    (cell : Option Nat) (e : Error) : AnswersNone cells (s.resolve cell (.error e)).cells := by
  subst hs
  unfold Shared.resolve
  split
  · exact .refl _
  · split
    · exact .set _ _ (.sent (.error e)) (by rintro r ⟨⟩)
    · exact .refl _

theorem rejectPending_answersNone (s : Shared) (cells : List Oneshot) (hs : s.cells = cells)
    (e : Error) : AnswersNone cells (s.rejectPending e).cells :=
  .trans _ _ _ (resolve_answersNone s cells hs _ e)
    (.trans _ _ _ (resolve_answersNone _ _ (by rfl) _ e) (resolve_answersNone _ _ rfl _ e))

theorem hangUp_cells (s : Shared) : s.hangUp.cells = s.cells := by
  unfold Shared.hangUp
  rcases s.inner.outTx with _ | k
  · rfl
  · simp only [Shared.handOver_eq]
    split <;> rfl

/-- An `Error` answers nobody. -/
theorem dispatchError_answersNone (sock : Nat) (e : Error) (s : Shared) :
    AnswersNone s.cells (dispatchError sock e s).cells := by
  have hresume : ∀ s, AnswersNone s.cells (errorResume e s).cells := by
    intro s
    by_cases h : s.inner.resumeWait.isSome = true
    · simp only [errorResume, if_pos h]
      exact resolve_answersNone _ _ (by rfl) _ e
    · simp only [errorResume, if_neg h]
      exact .refl _
  have hstart : ∀ s, AnswersNone s.cells (errorStart e s).cells := by
    intro s
    by_cases h : s.inner.startWait.isSome = true
    · simp only [errorStart, if_pos h]
      exact resolve_answersNone _ _ (by rfl) _ e
    · simp only [errorStart, if_neg h]
      exact .refl _
  have hstop : ∀ s, AnswersNone s.cells (errorStop e s).cells :=
    fun s => resolve_answersNone _ _ (by rfl) _ e
  have hlast : ∀ s, AnswersNone s.cells (errorTrackNotFound e s).cells := by
    intro s
    unfold errorTrackNotFound
    split <;> exact .refl _
  -- The three waiters and the track, in the order of the block.
  have hall := fun s => AnswersNone.trans _ _ _ (hresume s)
    (.trans _ _ _ (hstart _) (.trans _ _ _ (hstop _) (hlast _)))
  exact hall (s.receive sock (.error e.code e.message e.trackUid e.retryAfterMs))

theorem socketClosed_answersNone (gen : Nat) (random : ℚ) (s : Shared) :
    AnswersNone s.cells (socketClosed gen random s).1.cells := by
  by_cases hgen : gen = s.inner.dialGen
  · simp only [socketClosed, hgen, ne_eq, not_true_eq_false, if_false]
    split
    · exact .refl _
    · split
      · exact rejectPending_answersNone _ _ (by rfl) _
      · split
        · exact .refl _
        · exact rejectPending_answersNone _ _ (by rfl) _
  · simp only [socketClosed, ne_eq, hgen, not_false_eq_true, if_true]
    exact .refl _

/-- The end of a dispatch answers the cell it was given, and no other. -/
theorem settle_cells (cell : Option Nat) (r : Except Error Reply) (forward : Option ServerEvt)
    (s : Shared) : (settle cell r forward s).cells = (s.resolve cell r).cells := by
  rcases forward with _ | evt
  · rfl
  · simp only [settle]
    split <;> rfl

section Client

variable (geo : Geo)

/-- Who answers a cell. -/
theorem run_cells {α : Type} (op : Section α) (s : Shared) :
    s.cells.length ≤ (op.run geo s).1.cells.length ∧
      ∀ (c : Nat) (r : Reply), (op.run geo s).1.cells[c]? = some (.sent (.ok r)) →
        s.cells[c]? = some (.sent (.ok r)) ∨ op.settles = some (c, r) := by
  have hnone : AnswersNone s.cells (op.run geo s).1.cells →
      s.cells.length ≤ (op.run geo s).1.cells.length ∧
        ∀ (c : Nat) (r : Reply), (op.run geo s).1.cells[c]? = some (.sent (.ok r)) →
          s.cells[c]? = some (.sent (.ok r)) ∨ op.settles = some (c, r) :=
    fun h => ⟨h.1, fun c r hc => Or.inl (h.2 c r hc)⟩
  have hsame : (op.run geo s).1.cells = s.cells →
      s.cells.length ≤ (op.run geo s).1.cells.length ∧
        ∀ (c : Nat) (r : Reply), (op.run geo s).1.cells[c]? = some (.sent (.ok r)) →
          s.cells[c]? = some (.sent (.ok r)) ∨ op.settles = some (c, r) :=
    fun h => hnone (by rw [h]; exact .refl _)
  by_cases hby : op.standsBy = true
  · exact hsame (run_standsBy geo op s hby).1
  -- A reply is put into a cell at the end of a dispatch, and nowhere else.
  cases op with
  | settle cell r forward =>
      have hcells := settle_cells cell r forward s
      simp only [Section.run, hcells] at hnone ⊢
      rcases cell with _ | cell
      · exact hnone (.refl _)
      · rcases r with e | r
        · exact hnone (resolve_answersNone s _ rfl (some cell) e)
        · simp only [Shared.resolve]
          split
          · refine ⟨by rw [List.length_set], fun c r' hc => ?_⟩
            by_cases hcell : cell = c
            · rw [hcell, List.getElem?_set_self', Option.map_eq_map,
                Option.map_eq_some_iff] at hc
              rcases hc with ⟨_, _, hr⟩
              cases hr
              exact Or.inr (congrArg (fun c => some (c, r)) hcell)
            · rw [List.getElem?_set_ne hcell] at hc
              exact Or.inl hc
          · exact ⟨Nat.le_refl _, fun c r' hc => Or.inl hc⟩
  | dispatchError sock e => exact hnone (dispatchError_answersNone sock e s)
  | socketClosed gen random => exact hnone (socketClosed_answersNone gen random s)
  | closeFinal =>
      refine hnone ?_
      simp only [Section.run, closeFinal, hangUp_cells]
      exact rejectPending_answersNone _ _ (by rfl) _
  | startTrack wall loc => exact hnone (install_answersNone s _)
  | stopTrack => exact hnone (install_answersNone s _)
  | resumeTrack uid seq => exact hnone (install_answersNone s _)
  | resumeLock =>
      by_cases h : s.inner.trackUid = ""
      · refine hsame ?_
        simp only [Section.run, resumeLock, if_pos h]
      · refine hnone ?_
        simp only [Section.run, resumeLock, if_neg h]
        exact install_answersNone s _
  | startFailed => exact hnone (dropCell_answersNone s _)
  | stopFailed => exact hnone (dropCell_answersNone s _)
  | resumeFailed => exact hnone (dropCell_answersNone s _)
  | authClose => exact hsame (hangUp_cells _)
  | authRefreshed device listener => exact hsame (hangUp_cells _)
  | _ => first | exact absurd rfl hby | exact hsame rfl

/-! ## Waiters and cells -/

/-- A waiter that a section installs has a cell that was not there before. -/
theorem after_wait_fresh (a : Act Section Task) (s : Shared) (w : Waiter) (c : Nat)
    (hnew : ((client geo).after a s).inner.wait w = some c) :
    s.inner.wait w = some c ∨
      (a.op.installs = some w ∧ c = s.cells.length ∧
        c < ((client geo).after a s).cells.length) := by
  rcases run_wait geo a.op s w c hnew with hold | hinst
  · exact Or.inl hold
  have hnewCell : ∀ cell : Option Nat, (s.dropCell cell).newCell.2 = c →
      c = s.cells.length ∧ c < (s.dropCell cell).newCell.1.cells.length := by
    rintro cell rfl
    simp only [Shared.newCell, dropCell_length, List.length_append, List.length_singleton]
    exact ⟨trivial, Nat.lt_succ_self _⟩
  revert hnew
  rcases a with ⟨op, next⟩
  simp only [Machine.after] at hinst ⊢
  cases op <;> cases hinst
  case inr.startTrack.refl wall loc =>
    exact fun hnew => Or.inr ⟨rfl, hnewCell s.inner.startWait (Option.some.inj hnew)⟩
  case inr.stopTrack.refl =>
    exact fun hnew => Or.inr ⟨rfl, hnewCell s.inner.stopWait (Option.some.inj hnew)⟩
  case inr.resumeTrack.refl uid seq =>
    exact fun hnew => Or.inr ⟨rfl, hnewCell s.inner.resumeWait (Option.some.inj hnew)⟩
  case inr.resumeLock.refl =>
    -- Without a track nothing is installed.
    have hrun : (client geo).run Section.resumeLock s = resumeLock s := rfl
    by_cases huid : s.inner.trackUid = ""
    · simp only [hrun, resumeLock, if_pos huid]
      exact Or.inl
    · simp only [hrun, resumeLock, if_neg huid]
      exact fun hnew => Or.inr ⟨rfl, hnewCell s.inner.resumeWait (Option.some.inj hnew)⟩

/-- What is not accepted is refused. -/
theorem sendBin_refused (frame : Frame) (ticket : Option Ticket) (s : Shared)
    (h : s.accepts = none) : ∃ e, sendBin frame ticket s = (s, .error e) := by
  rcases sendBin_cases frame ticket s with he | ⟨k, hk, hw, hi⟩
  · exact he
  · unfold Shared.accepts at h
    by_cases hclosed : s.inner.state = .closed ∧ s.inner.intentional = true
    · exact ⟨_, by rw [sendBin, if_pos hclosed]⟩
    · rw [if_neg hclosed, hk, Option.filter_some, if_pos hw] at h
      cases h

theorem startCell_kind (t : Task) (cell : Nat) (h : t.startCell = some cell) :
    t.kind = .startTrack := by
  cases t with
  | startTrack pc => rfl
  | _ => cases h

/-- A call of `start_track` keeps its cell from when it made it until it has the
    answer, and gets to wait for that once its command was accepted. -/
theorem heir_startCell (t : Task) (c : Input) (a : Act Section Task) (s : Shared)
    (h : t.act c = some a) (cell : Nat)
    (hheir : ((client geo).heir a s).startCell = some cell) :
    (t = .startTrack (.reply cell) ∧ (client geo).heir a s = .startTrack (.reply cell) ∧
        (client geo).after a s = s) ∨
      (t.asking = some (.start, cell) ∧ (client geo).heir a s = .startTrack (.reply cell) ∧
        s.accepts ≠ none) ∨
      (a.op.installs = some .start ∧
        ((client geo).heir a s).asking = some (.start, cell) ∧
        ((client geo).after a s).inner.startWait = some cell ∧ cell = s.cells.length) := by
  -- Whoever has a cell afterwards is a call of `start_track` already.
  have hkind : t.kind = .startTrack := by
    have hheirKind := startCell_kind _ cell hheir
    rcases heir_kind geo t c a s h with hk | hk | ⟨_, _, _, _, hk⟩
    · exact hk.symm.trans hheirKind
    · cases hk.symm.trans hheirKind
    · rw [hk] at hheir
      cases hheir
  revert hheir
  unfold Machine.heir
  revert h
  cases t with
  | startTrack pc =>
      simp only [Task.act]
      fun_cases Task.startTrackAct pc c <;> intro h <;> cases h
      case startTrack.case1.refl loc route metadata now wall =>
        intro hheir
        refine Or.inr (Or.inr ⟨rfl, congrArg (Option.map (Prod.mk _)) hheir, hheir, ?_⟩)
        rw [← Option.some.inj hheir]
        exact dropCell_length s s.inner.startWait
      case startTrack.case2.refl cell' loc route metadata now wall =>
        have hrun : ∀ frame, (client geo).run (Section.sendBin frame none) s =
            sendBin frame none s := fun _ => rfl
        simp only [hrun]
        rcases hacc : s.accepts with _ | k
        · rcases sendBin_refused (.cmd (.trackStart (loc.map (stampLatLng wall))
            (stampLatLngs wall route) metadata)) none s hacc with ⟨e, hi⟩
          rw [hi]
          rintro ⟨⟩
        · rw [(sendBin_accepts _ none s k hacc).2]
          rintro ⟨⟩
          exact Or.inr (Or.inl ⟨rfl, rfl, by rintro ⟨⟩⟩)
      case startTrack.case3.refl e => rintro ⟨⟩
      case startTrack.case4.refl cell' =>
        have hrun : (client geo).run (Section.poll cell') s = (s, poll cell' s) := rfl
        simp only [hrun]
        rcases poll cell' s with _ | r | _
        · rintro ⟨⟩
          exact Or.inl ⟨rfl, rfl, rfl⟩
        · rintro ⟨⟩
        · rintro ⟨⟩
  | _ => cases hkind

/-- A call of `start_track` that returns a uid found it in its cell. -/
theorem heir_started (t : Task) (c : Input) (a : Act Section Task) (s : Shared)
    (h : t.act c = some a) (uid : String)
    (hheir : (client geo).heir a s = .returned (.startTrack (.ok uid))) :
    ∃ cell r, t = .startTrack (.reply cell) ∧ s.cells[cell]? = some (.sent (.ok r)) ∧
      r.uid = uid := by
  -- Of its places only the one that waits can return a uid.
  have hkind : t.kind = .startTrack := heir_gives geo t c a s h _ (by rw [hheir]; rfl)
  revert hheir
  unfold Machine.heir
  revert h
  cases t with
  | startTrack pc =>
      simp only [Task.act]
      fun_cases Task.startTrackAct pc c <;> intro h <;> cases h
      case startTrack.case1.refl => rintro ⟨⟩
      case startTrack.case2.refl =>
        dsimp only
        split <;> rintro ⟨⟩
      case startTrack.case3.refl => rintro ⟨⟩
      case startTrack.case4.refl cell =>
        have hrun : (client geo).run (Section.poll cell) s = (s, poll cell s) := rfl
        simp only [hrun, poll]
        rcases hcell : s.cells[cell]? with _ | o
        · rintro ⟨⟩
        · rcases o with _ | r | _
          · rintro ⟨⟩
          · rcases r with e | r
            · rintro ⟨⟩
            · rintro ⟨⟩
              exact ⟨cell, r, rfl, hcell, rfl⟩
          · rintro ⟨⟩
  | _ => cases hkind

theorem carries_kind (t : Task) (x : Nat × Reply) (h : t.carries = some x) :
    t.kind = .reader := by
  cases t with
  | reader sock gen pc => rfl
  | _ => cases h

/-- A reader takes the cell of a waiter along when it dispatches the reply. -/
theorem heir_replies (t : Task) (c : Input) (a : Act Section Task) (s : Shared)
    (h : t.act c = some a) (cell : Nat) (r : Reply)
    (hheir : ((client geo).heir a s).carries = some (cell, r)) :
    t.carries = some (cell, r) ∨
      ∃ k evt w, a.op.hears = some (k, evt) ∧ s.inner.wait w = some cell ∧
        evt.reply = some (w, r) := by
  have hkind : t.kind = .reader := by
    have hheirKind := carries_kind _ _ hheir
    rcases heir_kind geo t c a s h with hk | hk | ⟨_, _, _, _, hk⟩
    · exact hk.symm.trans hheirKind
    · cases hk.symm.trans hheirKind
    · rw [hk] at hheir
      cases hheir
  revert hheir
  unfold Machine.heir
  revert h
  cases t with
  | reader sock gen pc =>
      simp only [Task.act]
      fun_cases Task.readerAct sock gen pc c <;> intro h <;> cases h
      case reader.case1.refl msg =>
        -- Three events are replies that somebody may be waiting for.
        cases msg with
        | resumeOk uid seq =>
            intro hheir
            rcases (answerFor_iff s.inner.resumeWait _ cell r).mp hheir with ⟨hwait, hr⟩
            cases hr
            exact Or.inr ⟨_, _, .resume, rfl, hwait, rfl⟩
        | trackStarted uid metadata =>
            intro hheir
            rcases (answerFor_iff s.inner.startWait _ cell r).mp hheir with ⟨hwait, hr⟩
            cases hr
            exact Or.inr ⟨_, _, .start, rfl, hwait, rfl⟩
        | trackStopped uid =>
            intro hheir
            rcases (answerFor_iff s.inner.stopWait _ cell r).mp hheir with ⟨hwait, hr⟩
            cases hr
            exact Or.inr ⟨_, _, .stop, rfl, hwait, rfl⟩
        | _ => rintro ⟨⟩
      all_goals
        dsimp only
        (try split) <;> first
          | exact Or.inl
          | rintro ⟨⟩
  | _ => cases hkind

/-- What is delivered was on its way. -/
theorem act_settles (t : Task) (c : Input) (a : Act Section Task) (h : t.act c = some a)
    (x : Nat × Reply) (hx : a.op.settles = some x) : t.carries = some x := by
  have hkind : t.kind = .reader := by
    refine act_issuer t c a h .reader ?_
    rcases a with ⟨op, next⟩
    cases op <;> first | rfl | cases hx
  revert hx
  revert h
  cases t with
  | reader sock gen pc =>
      simp only [Task.act]
      fun_cases Task.readerAct sock gen pc c <;> intro h <;> cases h
      -- A reader settles with the reply it carries.
      case reader.case1.refl msg => cases msg <;> rintro ⟨⟩
      all_goals first
        | exact id
        | rintro ⟨⟩
  | _ => cases hkind

/-! ## Steps and runs -/

/-- The cell has an answer, or one is on its way. -/
def Answered (p : Pool Shared Task) (cell : Nat) (r : Reply) : Prop :=
  p.shared.cells[cell]? = some (.sent (.ok r)) ∨ ∃ u ∈ p.tasks, u.carries = some (cell, r)

/-- What is spawned has no cell and brings no answer. -/
theorem spawned_cell (t : Task) (c : Input) (a : Act Section Task) (s : Shared)
    (h : t.act c = some a) (u : Task) (hu : u ∈ (client geo).spawned a s) :
    u.startCell = none ∧ u.carries = none := by
  rcases spawned_cases geo t c a s h u hu with
    ⟨_, _, _, _, rfl | rfl⟩ | ⟨_, _, _, rfl | rfl | ⟨_, rfl⟩⟩ | ⟨_, _, _, rfl⟩ <;> exact ⟨rfl, rfl⟩

/-- A step that answers a cell dispatches a reply to whoever waits there. -/
theorem answered_reply (p : Pool Shared Task) (i : Nat) (c : Input) (t : Task)
    (a : Act Section Task) (ht : p.tasks[i]? = some t) (ha : t.act c = some a) (cell : Nat)
    (r : Reply) (h : Answered ((client geo).resumed p i a) cell r) :
    Answered p cell r ∨
      ∃ k evt w, a.op.hears = some (k, evt) ∧ p.shared.inner.wait w = some cell ∧
        evt.reply = some (w, r) := by
  -- The answer lies in the cell, or a reader carries it.
  rcases h with hsent | ⟨u, hu, hcarries⟩
  · rcases (run_cells geo a.op p.shared).2 cell r hsent with hold | hsettles
    · exact Or.inl (Or.inl hold)
    · exact Or.inl (Or.inr ⟨t, List.mem_of_getElem? ht, act_settles t c a ha _ hsettles⟩)
  · rcases List.mem_iff_getElem?.mp hu with ⟨j, hj⟩
    rcases (client geo).resumed_get_cases p i j a t u ht hj with
      ⟨_, rfl⟩ | ⟨_, hu'⟩ | ⟨_, hu'⟩
    · rcases heir_replies geo t c a p.shared ha cell r hcarries with hold | hnew
      · exact Or.inl (Or.inr ⟨t, List.mem_of_getElem? ht, hold⟩)
      · exact Or.inr hnew
    · exact Or.inl (Or.inr ⟨u, List.mem_of_getElem? hu', hcarries⟩)
    · rw [(spawned_cell geo t c a p.shared ha u (List.mem_of_getElem? hu')).2] at hcarries
      cases hcarries

/-- The same, for what a start is told. -/
theorem answered_step (p : Pool Shared Task) (i : Nat) (c : Input) (t : Task)
    (a : Act Section Task) (ht : p.tasks[i]? = some t) (ha : t.act c = some a) (cell : Nat)
    (r : Reply) (h : Answered ((client geo).resumed p i a) cell r) :
    Answered p cell r ∨
      ∃ k evt w, a.op.hears = some (k, evt) ∧ p.shared.inner.wait w = some cell ∧
        (w = .start → ∃ metadata, evt = .trackStarted r.uid metadata) := by
  refine (answered_reply geo p i c t a ht ha cell r h).imp id ?_
  rintro ⟨k, evt, w, hears, hwait, hreply⟩
  refine ⟨k, evt, w, hears, hwait, ?_⟩
  rintro rfl
  cases evt <;> cases hreply
  exact ⟨_, rfl⟩

theorem asking_startCell (t : Task) (cell : Nat) (h : t.asking = some (.start, cell)) :
    t.startCell = some cell := by
  cases t with
  | startTrack pc =>
      cases pc with
      | send cell' loc route metadata =>
          cases h
          rfl
      | _ => cases h
  | stopTrack pc => cases pc <;> cases h
  | resume uid seq pc => cases pc <;> cases h
  | dial owner pc => cases pc <;> cases h
  | _ => cases h

/-- A step gives a cell to the call that makes it; the others keep theirs. -/
theorem startCell_step (p : Pool Shared Task) (i : Nat) (c : Input) (t : Task)
    (a : Act Section Task) (ht : p.tasks[i]? = some t) (ha : t.act c = some a) (j : Nat)
    (u : Task) (hu : ((client geo).resumed p i a).tasks[j]? = some u) (cell : Nat)
    (hcell : u.startCell = some cell) :
    (∃ v, p.tasks[j]? = some v ∧ v.startCell = some cell) ∨
      (j = i ∧ a.op.installs = some .start ∧ cell = p.shared.cells.length ∧
        ((client geo).after a p.shared).inner.startWait = some cell) := by
  -- Cells of other calls stay theirs, and spawned tasks have none.
  rcases (client geo).resumed_get_cases p i j a t u ht hu with
    ⟨rfl, rfl⟩ | ⟨_, hu'⟩ | ⟨_, hu'⟩
  · rcases heir_startCell geo t c a p.shared ha cell hcell with
      ⟨rfl, _, _⟩ | ⟨hask, _, _⟩ | ⟨hinst, _, hwait, hfresh⟩
    · exact Or.inl ⟨_, ht, rfl⟩
    · exact Or.inl ⟨t, ht, asking_startCell t cell hask⟩
    · exact Or.inr ⟨rfl, hinst, hfresh, hwait⟩
  · exact Or.inl ⟨u, hu', hcell⟩
  · rw [(spawned_cell geo t c a p.shared ha u (List.mem_of_getElem? hu')).1] at hcell
    cases hcell

/-- Every cell in use exists, and is in use by one party: two calls of
    `start_track` have two cells, and those of `stop_track` and `resume` are
    others again. -/
structure CellsApart (p : Pool Shared Task) : Prop where
  starts_lt : ∀ (j : Nat) u c, p.tasks[j]? = some u → u.startCell = some c →
    c < p.shared.cells.length
  waits_lt : ∀ w c, p.shared.inner.wait w = some c → c < p.shared.cells.length
  answered_lt : ∀ c r, Answered p c r → c < p.shared.cells.length
  distinct : ∀ (i j : Nat) t u c, p.tasks[i]? = some t → p.tasks[j]? = some u →
    t.startCell = some c → u.startCell = some c → i = j
  apart : ∀ w c (j : Nat) u, p.shared.inner.wait w = some c → p.tasks[j]? = some u →
    u.startCell = some c → w = .start

/-- A step keeps the cells apart: what is new is new to everybody. -/
theorem step_cellsApart (p : Pool Shared Task) (i : Nat) (c : Input) (t : Task)
    (a : Act Section Task) (ht : p.tasks[i]? = some t) (ha : t.act c = some a)
    (hI : CellsApart p) : CellsApart ((client geo).resumed p i a) := by
  have hlen : p.shared.cells.length ≤ ((client geo).after a p.shared).cells.length :=
    (run_cells geo a.op p.shared).1
  have hwaits : ∀ w cell, ((client geo).after a p.shared).inner.wait w = some cell →
      cell < ((client geo).after a p.shared).cells.length := by
    intro w cell hwait
    rcases after_wait_fresh geo a p.shared w cell hwait with hold | ⟨_, _, hlt⟩
    · exact Nat.lt_of_lt_of_le (hI.waits_lt w cell hold) hlen
    · exact hlt
  -- A cell is one of before or the new one, and nobody had that.
  refine ⟨?_, hwaits, ?_, ?_, ?_⟩
  · intro j u cell hu hcell
    rcases startCell_step geo p i c t a ht ha j u hu cell hcell with
      ⟨v, hv, hold⟩ | ⟨_, _, _, hwait⟩
    · exact Nat.lt_of_lt_of_le (hI.starts_lt j v cell hv hold) hlen
    · exact hwaits .start cell hwait
  · intro cell r h
    rcases answered_step geo p i c t a ht ha cell r h with hold | ⟨_, _, w, _, hwait, _⟩
    · exact Nat.lt_of_lt_of_le (hI.answered_lt cell r hold) hlen
    · exact Nat.lt_of_lt_of_le (hI.waits_lt w cell hwait) hlen
  · intro j k u v cell hu hv hucell hvcell
    rcases startCell_step geo p i c t a ht ha j u hu cell hucell with
      ⟨u', hu', hu'cell⟩ | ⟨rfl, _, rfl, _⟩
    · rcases startCell_step geo p i c t a ht ha k v hv cell hvcell with
        ⟨v', hv', hv'cell⟩ | ⟨_, _, rfl, _⟩
      · exact hI.distinct j k u' v' cell hu' hv' hu'cell hv'cell
      · exact absurd (hI.starts_lt j u' _ hu' hu'cell) (Nat.lt_irrefl _)
    · rcases startCell_step geo p j c t a ht ha k v hv _ hvcell with
        ⟨v', hv', hv'cell⟩ | ⟨hk, _, _, _⟩
      · exact absurd (hI.starts_lt k v' _ hv' hv'cell) (Nat.lt_irrefl _)
      · exact hk.symm
  · intro w cell j u hwait hu hcell
    rcases after_wait_fresh geo a p.shared w cell hwait with hold | ⟨hinst, rfl, _⟩
    · rcases startCell_step geo p i c t a ht ha j u hu cell hcell with
        ⟨v, hv, hvcell⟩ | ⟨_, _, rfl, _⟩
      · exact hI.apart w cell j v hold hv hvcell
      · exact absurd (hI.waits_lt w _ hold) (Nat.lt_irrefl _)
    · rcases startCell_step geo p i c t a ht ha j u hu _ hcell with
        ⟨v, hv, hvcell⟩ | ⟨_, hinst', _, _⟩
      · exact absurd (hI.starts_lt j v _ hv hvcell) (Nat.lt_irrefl _)
      · exact Option.some.inj (hinst.symm.trans hinst')

theorem call_cell (t : Task) (h : t.isCall = true) : t.startCell = none ∧ t.carries = none := by
  cases t with
  | startTrack pc =>
      cases pc with
      | start loc route metadata => exact ⟨rfl, rfl⟩
      | _ => cases h
  | reader sock gen pc => cases h
  | _ => exact ⟨rfl, rfl⟩

/-- A call that comes in has no cell yet. -/
theorem spawn_cell (p : Pool Shared Task) (t : Task) (hent : (client geo).entry p.shared t = true)
    (j : Nat) (u : Task) (hu : (p.tasks ++ [t])[j]? = some u) :
    p.tasks[j]? = some u ∨ (u.startCell = none ∧ u.carries = none) := by
  rcases Machine.entered_get_cases p.tasks t u j hu with hold | rfl
  · exact Or.inl hold
  · exact Or.inr (call_cell u ((entry_iff geo p.shared u).mp hent).2)

/-- Whoever has a cell then had it before. -/
theorem spawn_startCell (p : Pool Shared Task) (t : Task)
    (hent : (client geo).entry p.shared t = true) (j : Nat) (u : Task) (cell : Nat)
    (hu : (p.tasks ++ [t])[j]? = some u) (hstart : u.startCell = some cell) :
    p.tasks[j]? = some u := by
  rcases spawn_cell geo p t hent j u hu with hold | ⟨hnone, _⟩
  · exact hold
  · cases hstart.symm.trans hnone

theorem spawn_answered (p : Pool Shared Task) (t : Task)
    (hent : (client geo).entry p.shared t = true) (cell : Nat) (r : Reply)
    (h : Answered { p with tasks := p.tasks ++ [t] } cell r) : Answered p cell r := by
  refine h.imp id ?_
  rintro ⟨u, hu, hcarries⟩
  rcases List.mem_iff_getElem?.mp hu with ⟨j, hj⟩
  rcases spawn_cell geo p t hent j u hj with hold | ⟨_, hnone⟩
  · exact ⟨u, List.mem_of_getElem? hold, hcarries⟩
  · cases hcarries.symm.trans hnone

/-- No two parties share a cell, in any run. -/
theorem reach_cellsApart (cfg : Config)
    (C : Pool Shared Task → Nat → Task → Act Section Task → Prop) (p : Pool Shared Task)
    (h : (client geo).Reach (Started cfg) ((client geo).whenever C) p) : CellsApart p := by
  refine (client geo).reach_pool (Started cfg) C CellsApart ?_ ?_ ?_ p h
  · intro p hp
    rcases started_pool cfg p hp with ⟨now, rfl⟩
    -- At the start there is a dial, which holds no cell, and nobody waits.
    have htask : ∀ (j : Nat) (u : Task),
        [Task.dial .connect (.begin 0 false)][j]? = some u → u.startCell = none := by
      intro j u hu
      rw [List.mem_singleton.mp (List.mem_of_getElem? hu)]
      rfl
    have hwait : ∀ w, (Inner.new cfg now).wait w = none := fun w => by cases w <;> rfl
    refine ⟨?_, ?_, ?_, ?_, ?_⟩
    · intro j u cell hu hstart
      cases hstart.symm.trans (htask j u hu)
    · intro w cell hw
      cases hw.symm.trans (hwait w)
    · rintro cell r (hsent | ⟨u, hu, hcarries⟩)
      · cases hsent
      · rw [List.mem_singleton.mp hu] at hcarries
        cases hcarries
    · intro j k u v cell hu _ hstart
      cases hstart.symm.trans (htask j u hu)
    · intro w cell j u hw
      cases hw.symm.trans (hwait w)
  · intro p i c t a ht ha _ hI
    exact step_cellsApart geo p i c t a ht ha hI
  · intro p t hent hI
    -- A call that comes in holds no cell yet.
    have hcell := spawn_startCell geo p t hent
    refine ⟨?_, hI.waits_lt, ?_, ?_, ?_⟩
    · intro j u cell hu hstart
      exact hI.starts_lt j u cell (hcell j u cell hu hstart) hstart
    · intro cell r hr
      exact hI.answered_lt cell r (spawn_answered geo p t hent cell r hr)
    · intro j k u v cell hu hv hustart hvstart
      exact hI.distinct j k u v cell (hcell j u cell hu hustart) (hcell k v cell hv hvstart)
        hustart hvstart
    · intro w cell j u hwait hu hstart
      exact hI.apart w cell j u hwait (hcell j u cell hu hstart) hstart

end Client

end Tracking

end Pickpoint
