import Pickpoint.Theory.Replies

/-!
# No Orphans

Whoever waits for a reply is known to somebody who can end the wait.

A call waits on its oneshot cell with no time limit, so a cell that nobody refers
to any more would keep its caller for ever. A cell is given up in many places: a
reply takes the waiter, a second call replaces it, a refused command, an `Error`, a
lost socket and `close` fail it, and the flush of the queue comes between taking
the waiter and answering it. In all of them a waiter is not forgotten before its
cell is written (`KeepsWait`), or it is taken by a reader, and readers do not end
before they have answered (`heir_brings`).

So in every run a caller whose cell is still empty is the waiter the session keeps
for calls of its kind, or a reader is bringing its answer (`reach_noOrphans`).

## Main definitions

* `Shared.finish`: A cell gets its final value.
* `KeepsWait`: Cells that stay empty keep their waiters.
* `Task.brings`: The cell a reader brings an answer to.
* `Provided`: Somebody will end the wait.
* `NoOrphans`: Whoever waits is attended.

## Theorems

* `run_waiting`: Which cells are empty after a section.
* `step_provided`: A step keeps empty cells attended.
* `reach_noOrphans`: Whoever waits is attended, in every run.
-/

namespace Pickpoint

namespace Tracking

open Interleave

/-! ## Finishing cells -/

/-- A cell that is still empty gets its final value. -/
def Shared.finish (s : Shared) (cell : Option Nat) (o : Oneshot) : Shared :=
  match cell with
  | none => s
  | some c =>
    match s.cells[c]? with
    | some .waiting => { s with cells := s.cells.set c o }
    | _ => s

theorem resolve_eq_finish (s : Shared) (cell : Option Nat) (r : Except Error Reply) :
    s.resolve cell r = s.finish cell (.sent r) := by
  cases cell <;> rfl

theorem dropCell_eq_finish (s : Shared) (cell : Option Nat) :
    s.dropCell cell = s.finish cell .dropped := by
  cases cell <;> rfl

/-- A cell that is finished is not empty, and no other changes. -/
theorem finish_waiting (s : Shared) (cell : Option Nat) (o : Oneshot) (ho : o ≠ .waiting)
    (c : Nat) (h : (s.finish cell o).cells[c]? = some .waiting) :
    s.cells[c]? = some .waiting ∧ cell ≠ some c := by
  unfold Shared.finish at h
  split at h
  · exact ⟨h, by rintro ⟨⟩⟩
  · rename_i c'
    split at h
    · rename_i hwaiting
      by_cases hc : c' = c
      · subst hc
        rw [List.getElem?_set_self', Option.map_eq_map, Option.map_eq_some_iff] at h
        rcases h with ⟨_, _, hout⟩
        exact absurd hout ho
      · rw [List.getElem?_set_ne hc] at h
        exact ⟨h, fun hcell => hc (Option.some.inj hcell)⟩
    · rename_i hnot
      refine ⟨h, fun hcell => ?_⟩
      cases hcell
      exact hnot h

theorem resolve_cells (s s' : Shared) (h : s'.cells = s.cells) (cell : Option Nat)
    (r : Except Error Reply) : (s'.resolve cell r).cells = (s.finish cell (.sent r)).cells := by
  rcases cell with _ | c
  · exact h
  · rcases hc : s.cells[c]? with _ | (_ | _ | _) <;>
      simp only [Shared.resolve, Shared.finish, h, hc]

theorem finish_inner (s : Shared) (cell : Option Nat) (o : Oneshot) :
    (s.finish cell o).inner = s.inner := by
  unfold Shared.finish
  split
  · rfl
  · split <;> rfl

/-- Whatever cell is still empty was empty before, and is waited for by the same. -/
def KeepsWait (s s' : Shared) : Prop :=
  ∀ c : Nat, s'.cells[c]? = some .waiting →
    s.cells[c]? = some .waiting ∧ ∀ w, s.inner.wait w = some c → s'.inner.wait w = some c

theorem KeepsWait.refl (s : Shared) : KeepsWait s s := fun _ h => ⟨h, fun _ hw => hw⟩

theorem KeepsWait.trans {s s' s'' : Shared} (h : KeepsWait s s') (h' : KeepsWait s' s'') :
    KeepsWait s s'' := by
  intro c hc
  rcases h' c hc with ⟨hc', hwait'⟩
  rcases h c hc' with ⟨hc'', hwait⟩
  exact ⟨hc'', fun w hw => hwait' w (hwait w hw)⟩

theorem KeepsWait.of_eq (s s' : Shared) (hcells : s'.cells = s.cells)
    (hwait : s'.inner.wait = s.inner.wait) : KeepsWait s s' := by
  intro c hc
  rw [hcells] at hc
  exact ⟨hc, fun w hw => by rw [hwait]; exact hw⟩

/-- A waiter that is given up has its cell finished first. -/
theorem finish_keepsWait (s s' : Shared) (w : Waiter) (o : Oneshot) (ho : o ≠ .waiting)
    (hcells : s'.cells = (s.finish (s.inner.wait w) o).cells)
    (hothers : ∀ w', w' ≠ w → s'.inner.wait w' = s.inner.wait w') : KeepsWait s s' := by
  intro c hc
  rw [hcells] at hc
  rcases finish_waiting s _ o ho c hc with ⟨hold, hother⟩
  refine ⟨hold, fun w' hw' => ?_⟩
  have hne : w' ≠ w := by
    rintro rfl
    exact hother hw'
  rw [hothers w' hne]
  exact hw'

theorem rejectPending_keepsWait (s : Shared) (e : Error) : KeepsWait s (s.rejectPending e) := by
  intro c hc
  simp only [Shared.rejectPending, resolve_eq_finish, finish_inner] at hc
  rcases finish_waiting _ _ _ (by rintro ⟨⟩) c hc with ⟨hc, hresume⟩
  rcases finish_waiting _ _ _ (by rintro ⟨⟩) c hc with ⟨hc, hstop⟩
  rcases finish_waiting _ _ _ (by rintro ⟨⟩) c hc with ⟨hc, hstart⟩
  refine ⟨hc, fun w hw => ?_⟩
  cases w
  · exact absurd hw hstart
  · exact absurd hw hstop
  · exact absurd hw hresume

theorem hangUp_keepsWait (s : Shared) : KeepsWait s s.hangUp :=
  .of_eq s _ (hangUp_cells s) (by rw [Shared.hangUp_frame s |>.1]; exact wait_congr _ _ rfl rfl rfl)

/-- An `Error` fails everybody who waits. -/
theorem dispatchError_keepsWait (sock : Nat) (e : Error) (s : Shared) :
    KeepsWait s (dispatchError sock e s) := by
  -- The three blocks answer a waiter each; the last one leaves the waiters alone.
  have hresume : ∀ s : Shared, KeepsWait s (errorResume e s) := by
    intro s
    by_cases hsome : s.inner.resumeWait.isSome = true
    · refine finish_keepsWait s _ .resume (.sent (.error e)) (by rintro ⟨⟩) ?_ fun w hw => ?_
      · simp only [errorResume, if_pos hsome]
        exact resolve_cells s _ (by rfl) _ _
      · rcases errorResume_inner e s with ⟨_, _, _, _, hi, _⟩
        rw [hi]
        cases w <;> first | exact absurd rfl hw | rfl
    · simp only [errorResume, if_neg hsome]
      exact .refl s
  have hstart : ∀ s : Shared, KeepsWait s (errorStart e s) := by
    intro s
    by_cases hsome : s.inner.startWait.isSome = true
    · refine finish_keepsWait s _ .start (.sent (.error e)) (by rintro ⟨⟩) ?_ fun w hw => ?_
      · simp only [errorStart, if_pos hsome]
        exact resolve_cells s _ (by rfl) _ _
      · rw [errorStart_inner]
        cases w <;> first | exact absurd rfl hw | rfl
    · simp only [errorStart, if_neg hsome]
      exact .refl s
  have hstop : ∀ s : Shared, KeepsWait s (errorStop e s) := by
    intro s
    refine finish_keepsWait s _ .stop (.sent (.error e)) (by rintro ⟨⟩)
      (resolve_cells s _ (by rfl) _ _) fun w hw => ?_
    simp only [errorStop, Shared.resolve_frame]
    cases w <;> first | exact absurd rfl hw | rfl
  have hfound : ∀ s : Shared, KeepsWait s (errorTrackNotFound e s) := by
    intro s
    unfold errorTrackNotFound
    split
    · exact .of_eq _ _ rfl (wait_congr _ _ rfl rfl rfl)
    · exact .refl s
  have hlog : KeepsWait s
      (s.receive sock (.error e.code e.message e.trackUid e.retryAfterMs)) := .refl s
  unfold dispatchError
  exact hlog.trans (((hresume _).trans (hstart _)).trans ((hstop _).trans (hfound _)))

theorem socketClosed_keepsWait (gen : Nat) (random : ℚ) (s : Shared) :
    KeepsWait s (socketClosed gen random s).1 := by
  unfold socketClosed
  split
  · exact .refl s
  · dsimp only
    split
    · exact .of_eq _ _ rfl (wait_congr _ _ rfl rfl rfl)
    · split
      · refine KeepsWait.trans ?_ (rejectPending_keepsWait _ _)
        exact .of_eq _ _ rfl (wait_congr _ _ rfl rfl rfl)
      · split
        · exact .of_eq _ _ rfl (wait_congr _ _ rfl rfl rfl)
        · refine KeepsWait.trans ?_ (rejectPending_keepsWait _ _)
          exact .of_eq _ _ rfl (wait_congr _ _ rfl rfl rfl)

/-- A call that installs a waiter drops the one before, and its own cell is new. -/
theorem install_waiting (s s' : Shared) (w : Waiter)
    (hcells : s'.cells = (s.dropCell (s.inner.wait w)).newCell.1.cells)
    (hothers : ∀ w', w' ≠ w → s'.inner.wait w' = s.inner.wait w') (c : Nat)
    (h : s'.cells[c]? = some .waiting) :
    c = s.cells.length ∨ (s.cells[c]? = some .waiting ∧
      ∀ w', s.inner.wait w' = some c → s'.inner.wait w' = some c) := by
  have hlen := dropCell_length s (s.inner.wait w)
  rw [hcells, Shared.newCell] at h
  rcases Nat.lt_trichotomy c s.cells.length with hlt | heq | hgt
  · refine Or.inr ?_
    rw [List.getElem?_append_left (hlen.symm ▸ hlt), dropCell_eq_finish] at h
    rcases finish_waiting s _ .dropped (by rintro ⟨⟩) c h with ⟨hold, hother⟩
    refine ⟨hold, fun w' hw' => ?_⟩
    have hne : w' ≠ w := by
      rintro rfl
      exact hother hw'
    rw [hothers w' hne]
    exact hw'
  · exact Or.inl heq
  · rw [List.getElem?_eq_none (by
      rw [List.length_append, List.length_singleton, hlen]
      omega)] at h
    cases h

section Client

variable (geo : Geo)

/-- Which cells are empty after a section: one that was just made, and those that
    were empty before and whose waiters are kept or have a reply dispatched to them. -/
theorem run_waiting {α : Type} (op : Section α) (s : Shared) (c : Nat)
    (h : (op.run geo s).1.cells[c]? = some .waiting) :
    (op.makes s ≠ none ∧ c = s.cells.length) ∨
      (s.cells[c]? = some .waiting ∧ ∀ w, s.inner.wait w = some c →
        (op.run geo s).1.inner.wait w = some c ∨
          ∃ k evt r, op.hears = some (k, evt) ∧ evt.reply = some (w, r)) := by
  -- A section that keeps the waiters of the cells that wait is done.
  have hkeeps : KeepsWait s (op.run geo s).1 →
      (op.makes s ≠ none ∧ c = s.cells.length) ∨
        (s.cells[c]? = some .waiting ∧ ∀ w, s.inner.wait w = some c →
          (op.run geo s).1.inner.wait w = some c ∨
            ∃ k evt r, op.hears = some (k, evt) ∧ evt.reply = some (w, r)) :=
    fun hk => Or.inr ⟨(hk c h).1, fun w hw => Or.inl ((hk c h).2 w hw)⟩
  by_cases hby : op.standsBy = true
  · rcases run_standsBy geo op s hby with ⟨hcells, _, _, hstart, hstop, hresume⟩
    exact hkeeps (.of_eq _ _ hcells (wait_congr _ _ hstart hstop hresume))
  cases op with
  -- An answer takes the waiter it is for out of the session, and leaves the other two.
  | dispatchResumeOk sock uid seq =>
      refine Or.inr ⟨h, fun w hw => ?_⟩
      cases w
      · exact Or.inl hw
      · exact Or.inl hw
      · exact Or.inr ⟨_, _, _, rfl, rfl⟩
  | dispatchTrackStarted sock uid metadata =>
      refine Or.inr ⟨h, fun w hw => ?_⟩
      cases w
      · exact Or.inr ⟨_, _, _, rfl, rfl⟩
      · exact Or.inl hw
      · exact Or.inl hw
  | dispatchTrackStopped sock uid =>
      refine Or.inr ⟨h, fun w hw => ?_⟩
      cases w
      · refine Or.inl ?_
        simp only [Section.run, dispatchTrackStopped]
        split <;> exact hw
      · exact Or.inr ⟨_, _, _, rfl, rfl⟩
      · refine Or.inl ?_
        simp only [Section.run, dispatchTrackStopped]
        split <;> exact hw
  | dispatchError sock e => exact hkeeps (dispatchError_keepsWait sock e s)
  | settle cell r forward =>
      refine hkeeps fun c hc => ?_
      simp only [Section.run, settle_cells, resolve_eq_finish] at hc
      refine ⟨(finish_waiting s cell _ (by rintro ⟨⟩) c hc).1, fun w hw => ?_⟩
      simp only [Section.run, settle_frame]
      exact hw
  -- What ends the session drops every cell it takes a waiter from.
  | authClose =>
      refine hkeeps (KeepsWait.trans ?_ (hangUp_keepsWait _))
      exact .of_eq _ _ rfl (wait_congr _ _ rfl rfl rfl)
  | authRefreshed device listener =>
      refine hkeeps (KeepsWait.trans ?_ (hangUp_keepsWait _))
      exact .of_eq _ _ rfl (wait_congr _ _ rfl rfl rfl)
  | closeFinal =>
      refine hkeeps (KeepsWait.trans ?_ (hangUp_keepsWait _))
      refine KeepsWait.trans ?_ (rejectPending_keepsWait _ _)
      exact .of_eq _ _ rfl (wait_congr _ _ rfl rfl rfl)
  | socketClosed gen random => exact hkeeps (socketClosed_keepsWait gen random s)
  -- The calls put a new cell in the place of whoever waited there, who is dropped.
  | resumeLock =>
      by_cases huid : s.inner.trackUid = ""
      · refine hkeeps (.of_eq _ _ ?_ ?_) <;> simp only [Section.run, resumeLock, if_pos huid]
      · refine (install_waiting s _ .resume ?_ ?_ c h).imp (fun hc => ⟨?_, hc⟩)
          (fun hold => ⟨hold.1, fun w hwait => Or.inl (hold.2 w hwait)⟩)
        · simp only [Section.run, resumeLock, if_neg huid]
          rfl
        · intro w hw
          simp only [Section.run, resumeLock, if_neg huid, Shared.newCell_frame,
            Shared.dropCell_frame]
          cases w <;> first | exact absurd rfl hw | rfl
        · simp only [Section.makes, if_neg huid, ne_eq, reduceCtorEq, not_false_eq_true]
  | startTrack wall loc =>
      refine (install_waiting s _ .start (by rfl) ?_ c h).imp (fun hc => ⟨by rintro ⟨⟩, hc⟩)
        (fun hold => ⟨hold.1, fun w hwait => Or.inl (hold.2 w hwait)⟩)
      intro w hw
      rcases startTrack_inner wall loc s with ⟨_, hi⟩
      simp only [Section.run, hi]
      cases w <;> first | exact absurd rfl hw | rfl
  | stopTrack =>
      refine (install_waiting s _ .stop (by rfl) ?_ c h).imp (fun hc => ⟨by rintro ⟨⟩, hc⟩)
        (fun hold => ⟨hold.1, fun w hwait => Or.inl (hold.2 w hwait)⟩)
      intro w hw
      simp only [Section.run, stopTrack_frame]
      cases w <;> first | exact absurd rfl hw | rfl
  | resumeTrack uid seq =>
      refine (install_waiting s _ .resume (by rfl) ?_ c h).imp (fun hc => ⟨by rintro ⟨⟩, hc⟩)
        (fun hold => ⟨hold.1, fun w hwait => Or.inl (hold.2 w hwait)⟩)
      intro w hw
      simp only [Section.run, resumeTrack_inner]
      cases w <;> first | exact absurd rfl hw | rfl
  -- A call that could not be sent takes its own waiter back.
  | startFailed =>
      refine hkeeps (finish_keepsWait s _ .start .dropped (by rintro ⟨⟩) ?_ fun w hw => ?_)
      · simp only [Section.run, startFailed, dropCell_eq_finish]
        rfl
      · simp only [Section.run, startFailed_frame]
        cases w <;> first | exact absurd rfl hw | rfl
  | stopFailed =>
      refine hkeeps (finish_keepsWait s _ .stop .dropped (by rintro ⟨⟩) ?_ fun w hw => ?_)
      · simp only [Section.run, stopFailed, dropCell_eq_finish]
        rfl
      · simp only [Section.run, stopFailed_frame]
        cases w <;> first | exact absurd rfl hw | rfl
  | resumeFailed =>
      refine hkeeps (finish_keepsWait s _ .resume .dropped (by rintro ⟨⟩) ?_ fun w hw => ?_)
      · simp only [Section.run, resumeFailed, dropCell_eq_finish]
        rfl
      · simp only [Section.run, resumeFailed_frame]
        cases w <;> first | exact absurd rfl hw | rfl
  | _ => first | exact absurd rfl hby | exact hkeeps (.of_eq _ _ rfl (wait_congr _ _ rfl rfl rfl))

/-! ## Bringing answers -/

omit geo in
/-- The cell a reader brings an answer to. -/
def Task.brings : Task → Option Nat
  | .reader _ _ (.flush cell _ _) => cell
  | .reader _ _ (.sending _ _ cell _ _) => cell
  | .reader _ _ (.settle cell _ _) => cell
  | _ => none

/-- A reader brings an answer until it has given it. -/
theorem heir_brings (t : Task) (c : Input) (a : Act Section Task) (s : Shared)
    (h : t.act c = some a) (cell : Nat) (hb : t.brings = some cell) :
    ((client geo).heir a s).brings = some cell ∨
      ((client geo).after a s).cells[cell]? ≠ some .waiting := by
  revert hb
  unfold Machine.heir
  revert h
  cases t with
  | reader sock gen pc =>
      simp only [Task.act]
      fun_cases Task.readerAct sock gen pc c <;> intro h <;> cases h
      case reader.case1.refl msg => rintro ⟨⟩
      case reader.case2.refl => rintro ⟨⟩
      case reader.case6.refl cell' r forward =>
        intro hb
        refine Or.inr fun hwaiting => ?_
        have hcells : ((settle cell' r forward s).cells)[cell]? = some .waiting := hwaiting
        rw [settle_cells, resolve_eq_finish] at hcells
        exact (finish_waiting s cell' _ (by rintro ⟨⟩) cell hcells).2 hb
      all_goals
        dsimp only
        (try split) <;> exact Or.inl
  | _ => rintro _ ⟨⟩

/-- A reader takes the waiter along when it dispatches the reply. -/
theorem heir_takes (t : Task) (c : Input) (a : Act Section Task) (s : Shared)
    (h : t.act c = some a) (k : Nat) (evt : ServerEvt) (w : Waiter) (r : Reply) (cell : Nat)
    (hheard : a.op.hears = some (k, evt)) (hreply : evt.reply = some (w, r))
    (hwait : s.inner.wait w = some cell) :
    ((client geo).heir a s).brings = some cell := by
  rcases act_hears t c a h k evt hheard with ⟨gen, rfl, rfl⟩
  cases evt <;> cases hreply <;> exact hwait

omit geo in
/-- Somebody will end the wait on a cell: the session knows its waiter, or a reader
    is bringing the answer. -/
def Provided (p : Pool Shared Task) (c : Nat) : Prop :=
  (∃ w, p.shared.inner.wait w = some c) ∨ ∃ u ∈ p.tasks, u.brings = some c

/-- A step keeps empty cells attended. -/
theorem step_provided (p : Pool Shared Task) (i : Nat) (c : Input) (t : Task)
    (a : Act Section Task) (ht : p.tasks[i]? = some t) (ha : t.act c = some a)
    (hI : ∀ cell : Nat, p.shared.cells[cell]? = some .waiting → Provided p cell) (cell : Nat)
    (h : ((client geo).after a p.shared).cells[cell]? = some .waiting) :
    Provided ((client geo).resumed p i a) cell := by
  have hself := List.mem_of_getElem? ((client geo).resumed_get_self p i a t ht)
  rcases run_waiting geo a.op p.shared cell h with ⟨hmakes, rfl⟩ | ⟨hold, hwaits⟩
  · rcases Option.ne_none_iff_exists'.mp hmakes with ⟨w, hw⟩
    exact Or.inl ⟨w, (makes_run geo a.op p.shared w hw).1⟩
  · rcases hI cell hold with ⟨w, hw⟩ | ⟨u, hu, hb⟩
    · rcases hwaits w hw with hkept | ⟨k, evt, r, hheard, hreply⟩
      · exact Or.inl ⟨w, hkept⟩
      · exact Or.inr ⟨_, hself, heir_takes geo t c a p.shared ha k evt w r cell hheard hreply hw⟩
    · rcases List.mem_iff_getElem?.mp hu with ⟨j, hj⟩
      by_cases hji : j = i
      · subst hji
        cases ht.symm.trans hj
        rcases heir_brings geo t c a p.shared ha cell hb with hkept | hgiven
        · exact Or.inr ⟨_, hself, hkept⟩
        · exact absurd h hgiven
      · exact Or.inr ⟨u, List.mem_of_getElem?
          ((client geo).resumed_get_other p i j a u hji hj), hb⟩

/-! ## Runs -/

variable (cfg : Config)

theorem reach_provided (p : Pool Shared Task)
    (h : (client geo).Reach (Started cfg) Machine.anyStep p) :
    ∀ cell : Nat, p.shared.cells[cell]? = some .waiting → Provided p cell := by
  refine (client geo).reach_pool (Started cfg) _
    (fun p => ∀ cell : Nat, p.shared.cells[cell]? = some .waiting → Provided p cell)
    ?_ ?_ ?_ p ((client geo).reach_any _ p h)
  · intro p hp cell hc
    rcases started_pool cfg p hp with ⟨now, rfl⟩
    cases hc
  · exact fun p i c t a ht ha _ hI cell hc => step_provided geo p i c t a ht ha hI cell hc
  · intro p t _ hI cell hc
    refine (hI cell hc).imp id ?_
    rintro ⟨u, hu, hb⟩
    exact ⟨u, List.mem_append_left _ hu, hb⟩

end Client

/-- Whoever waits is attended: a task that finds its cell empty is the waiter that
    the session keeps for its kind of call, or a reader is bringing its answer. -/
def NoOrphans (p : Pool Shared Task) : Prop :=
  ∀ (j : Nat) u w c, p.tasks[j]? = some u → u.holds = some (w, c) →
    poll c p.shared = .waiting →
    p.shared.inner.wait w = some c ∨ ∃ u ∈ p.tasks, u.brings = some c

/-- Whoever waits is attended, in every run. Sockets may be lost under a waiter, but
    its registration stays until an answer takes it out or a later call takes its
    place; and then it is told. -/
theorem reach_noOrphans (geo : Geo) (cfg : Config) (p : Pool Shared Task)
    (h : (client geo).Reach (Started cfg) Machine.anyStep p) : NoOrphans p := by
  intro j u w c hu hold hpoll
  have hwaiting : p.shared.cells[c]? = some .waiting := by
    unfold poll at hpoll
    rcases hc : p.shared.cells[c]? with _ | o
    · rw [hc] at hpoll
      cases hpoll
    · rw [hc, Option.getD_some] at hpoll
      rw [hpoll]
  -- The record of who made which cell says that the waiter is one of its own kind.
  rcases (client geo).reach_tallied (Started cfg) noteMail .empty p h with ⟨b, hb⟩
  have hbacked := reach_backed geo cfg _ p b hb
  refine (reach_provided geo cfg p h c hwaiting).imp ?_ id
  rintro ⟨w', hw'⟩
  rcases hbacked.holds j u w c hu hold with ⟨m, hm, rfl, _⟩
  rcases hbacked.waits w' c hw' with ⟨⟨m', hm', rfl⟩, _⟩
  cases hm.symm.trans hm'
  exact hw'

/-- A call of `stop_track` waits for a reply that is still to come. -/
theorem reach_noOrphans_stop :
    ∃ p, NoOrphans p ∧ p.tasks[3]? = some (.stopTrack (.reply 0)) ∧
      p.shared.inner.stopWait = some 0 := by
  rcases reach_of_opening
    (opening ++ [.spawn (.stopTrack (.read (some "T"))), .resume 3 .go, .resume 3 .go,
      .resume 3 .go])
    (fun p => p.tasks[3]? == some (Task.stopTrack (.reply 0)) &&
      p.shared.inner.stopWait == some 0)
    (by decide +kernel) with ⟨p, hp, hrun⟩
  rcases Bool.and_eq_true_iff.mp hrun with ⟨htask, hwait⟩
  exact ⟨p, reach_noOrphans flatGeo someConfig p hp, beq_iff_eq.mp htask, beq_iff_eq.mp hwait⟩

end Tracking

end Pickpoint
