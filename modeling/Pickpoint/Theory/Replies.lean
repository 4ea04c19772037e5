import Pickpoint.Theory.Cells
import Pickpoint.Theory.Delivery

/-!
# Replies

Which reply of the server a caller's answer comes from.

`start_track`, `stop_track` and `resume`, and the dials that resume, wait on
oneshot cells, and a reply has nothing in it that says whom it is for. What does
hold in every run, whatever the server says, is that an answer is never made up:
it comes from one reply that a reader dispatched after the caller had asked, the
reply is of the kind asked for and says what the caller is told, and no reply
answers two callers.

The state keeps no record of what was said, so a run carries one along
(`noteMail`): every event dispatched, with the cell it was for, and every cell
made, with who made it and how much had been said by then. A cell has one maker,
and an event takes its waiter away, so a cell is in at most one entry
(`Backed.once`).

## Main definitions

* `Section.makes`: The waiter a section makes a cell for.
* `Task.holds`: The cell a task waits on.
* `Mail`, `noteMail`: What was said to whom, and who asked when.
* `Backed`: Cells and answers are those of the record.
* `RepliesBacked`: What callers are told was said.

## Theorems

* `heir_holds`: Where a cell comes from.
* `step_backed`: A step keeps the record.
* `reach_repliesBacked`: What callers are told was said, in every run.
-/

namespace Pickpoint

namespace Tracking

open Interleave

/-- The waiter a section makes a cell for. -/
def Section.makes (s : Shared) : {α : Type} → Section α → Option Waiter
  | _, .startTrack _ _ => some .start
  | _, .stopTrack => some .stop
  | _, .resumeTrack _ _ => some .resume
  -- Without a track there is nothing to resume.
  | _, .resumeLock => if s.inner.trackUid = "" then none else some .resume
  | _, _ => none

/-- The cell a task waits on. -/
def Task.holds : Task → Option (Waiter × Nat)
  | .startTrack (.send cell _ _ _) | .startTrack (.reply cell) => some (.start, cell)
  | .stopTrack (.send cell _) | .stopTrack (.reply cell) => some (.stop, cell)
  | .resume _ _ (.send cell) | .resume _ _ (.reply cell) => some (.resume, cell)
  | .dial _ (.resumeSend _ cell _ _) | .dial _ (.resumeReply _ cell) => some (.resume, cell)
  | _ => none

/-- An event that was dispatched, and the cell it was for. -/
structure Said where
  sock : Nat
  evt : ServerEvt
  cell : Option Nat
  deriving DecidableEq

/-- What a cell was made for, by which task, and how many events had been
    dispatched by then. -/
structure Made where
  waiter : Waiter
  owner : Nat
  heard : Nat
  deriving DecidableEq

/-- What was said, oldest first, and the cells made: the record that answers are
    traced back to. -/
structure Mail where
  said : List Said
  made : Nat → Option Made

def Mail.empty : Mail := { said := [], made := fun _ => none }

/-- Note the event a step dispatches, or the cell it makes. -/
def noteMail (p : Pool Shared Task) (i : Nat) (_ : Task) (a : Act Section Task) (b : Mail) :
    Mail where
  said :=
    match a.op.hears with
    | some (k, evt) =>
      b.said ++ [⟨k, evt, evt.reply.bind fun r => p.shared.inner.wait r.1⟩]
    | none => b.said
  made :=
    match a.op.makes p.shared with
    | some w => Function.update b.made p.shared.cells.length (some ⟨w, i, b.said.length⟩)
    | none => b.made

/-- The answer `r` for a cell was said, after the cell was made. -/
def Mail.Says (b : Mail) (w : Waiter) (owner cell : Nat) (r : Reply) : Prop :=
  ∃ (n : Nat) (x : Said) (m : Made), b.said[n]? = some x ∧ b.made cell = some m ∧
    x.cell = some cell ∧ x.evt.reply = some (w, r) ∧ m.waiter = w ∧ m.owner = owner ∧ m.heard ≤ n

/-! ## Making cells -/

section Client

variable (geo : Geo)

/-- A new cell is the next one, and its waiter waits on it. -/
theorem makes_run {α : Type} (op : Section α) (s : Shared) (w : Waiter)
    (h : op.makes s = some w) :
    (op.run geo s).1.inner.wait w = some s.cells.length ∧
      s.cells.length < (op.run geo s).1.cells.length := by
  -- The cell is new, so its index is the number of cells before.
  have hnew : ∀ cell : Option Nat, (s.dropCell cell).newCell.2 = s.cells.length ∧
      s.cells.length < (s.dropCell cell).newCell.1.cells.length := by
    intro cell
    simp only [Shared.newCell, dropCell_length, List.length_append, List.length_singleton]
    exact ⟨trivial, Nat.lt_succ_self _⟩
  cases op with
  | startTrack wall loc =>
      cases h
      exact ⟨congrArg some (hnew s.inner.startWait).1, (hnew s.inner.startWait).2⟩
  | stopTrack =>
      cases h
      exact ⟨congrArg some (hnew s.inner.stopWait).1, (hnew s.inner.stopWait).2⟩
  | resumeTrack uid seq =>
      cases h
      exact ⟨congrArg some (hnew s.inner.resumeWait).1, (hnew s.inner.resumeWait).2⟩
  -- Without a track nothing is resumed.
  | resumeLock =>
      by_cases huid : s.inner.trackUid = ""
      · simp only [Section.makes, if_pos huid, reduceCtorEq] at h
      · simp only [Section.makes, if_neg huid] at h
        cases h
        simp only [Section.run, resumeLock, if_neg huid]
        exact ⟨congrArg some (hnew s.inner.resumeWait).1, (hnew s.inner.resumeWait).2⟩
  | _ => cases h

/-- A waiter is an old one, or that of the cell just made. -/
theorem after_wait_makes (a : Act Section Task) (s : Shared) (w : Waiter) (c : Nat)
    (h : ((client geo).after a s).inner.wait w = some c) :
    s.inner.wait w = some c ∨ (a.op.makes s = some w ∧ c = s.cells.length) := by
  rcases after_wait_fresh geo a s w c h with hold | ⟨hinst, rfl, hlt⟩
  · exact Or.inl hold
  · rcases a with ⟨op, next⟩
    cases op <;> cases hinst
    case inr.startTrack.refl => exact Or.inr ⟨rfl, rfl⟩
    case inr.stopTrack.refl => exact Or.inr ⟨rfl, rfl⟩
    case inr.resumeTrack.refl => exact Or.inr ⟨rfl, rfl⟩
    case inr.resumeLock.refl =>
      by_cases huid : s.inner.trackUid = ""
      · -- Nothing was done at all.
        have hsame : (client geo).after ⟨Section.resumeLock, next⟩ s = s := by
          simp only [Machine.after, client, Section.run, resumeLock, if_pos huid]
        exact absurd (hlt.trans_eq (congrArg (fun s : Shared => s.cells.length) hsame))
          (Nat.lt_irrefl _)
      · exact Or.inr ⟨by simp only [Section.makes, if_neg huid], rfl⟩

omit geo in
theorem holds_kind (t : Task) (x : Waiter × Nat) (h : t.holds = some x) :
    t.kind = .dial ∨ t.kind = .startTrack ∨ t.kind = .stopTrack ∨ t.kind = .resume := by
  cases t with
  | dial owner pc => exact Or.inl rfl
  | startTrack pc => exact Or.inr (Or.inl rfl)
  | stopTrack pc => exact Or.inr (Or.inr (Or.inl rfl))
  | resume uid seq pc => exact Or.inr (Or.inr (Or.inr rfl))
  | _ => cases h

/-- A task waits on the cell it made until it has looked at the answer. -/
theorem heir_holds (t : Task) (c : Input) (a : Act Section Task) (s : Shared)
    (h : t.act c = some a) (w : Waiter) (cell : Nat)
    (hheir : ((client geo).heir a s).holds = some (w, cell)) :
    t.holds = some (w, cell) ∨ (a.op.makes s = some w ∧ cell = s.cells.length) := by
  have hnew : ∀ cell : Option Nat, (s.dropCell cell).newCell.2 = s.cells.length := by
    intro cell
    simp only [Shared.newCell, dropCell_length]
  -- Only four functions wait for a reply, and nobody becomes one of them.
  have hkind : t.kind = .dial ∨ t.kind = .startTrack ∨ t.kind = .stopTrack ∨ t.kind = .resume := by
    have hheirKind := holds_kind _ _ hheir
    rcases heir_kind geo t c a s h with hk | hk | ⟨_, _, _, _, hk⟩
    · rwa [hk] at hheirKind
    · rw [hk] at hheirKind
      rcases hheirKind with hk' | hk' | hk' | hk' <;> cases hk'
    · rw [hk] at hheir
      cases hheir
  revert hheir
  unfold Machine.heir
  revert h
  cases t with
  | dial owner pc =>
      simp only [Task.act]
      fun_cases Task.dialAct owner pc c <;> intro h <;> cases h
      case dial.case4.refl gen resume msg =>
        have hnone : (Task.dial owner (Task.helloReply gen resume msg)).holds = none := by
          cases msg with
          | hello version node shard =>
              simp only [Task.helloReply]
              split <;> rfl
          | _ => rfl
        exact fun hheir => by cases hnone.symm.trans hheir
      case dial.case10.refl gen =>
        have hrun : (client geo).run Section.resumeLock s = resumeLock s := rfl
        simp only [hrun]
        by_cases huid : s.inner.trackUid = ""
        · simp only [resumeLock, if_pos huid]
          rintro ⟨⟩
        · simp only [resumeLock, if_neg huid]
          rintro ⟨⟩
          exact Or.inr ⟨by simp only [Section.makes, if_neg huid], hnew _⟩
      all_goals
        dsimp only
        (try split) <;> (try split) <;> first
          | exact Or.inl
          | rintro ⟨⟩
  | startTrack pc =>
      simp only [Task.act]
      fun_cases Task.startTrackAct pc c <;> intro h <;> cases h
      case startTrack.case1.refl =>
        rintro ⟨⟩
        exact Or.inr ⟨rfl, hnew _⟩
      all_goals
        dsimp only
        (try split) <;> first
          | exact Or.inl
          | rintro ⟨⟩
  | stopTrack pc =>
      simp only [Task.act]
      fun_cases Task.stopTrackAct pc c <;> intro h <;> cases h
      case stopTrack.case2.refl =>
        rintro ⟨⟩
        exact Or.inr ⟨rfl, hnew _⟩
      all_goals
        dsimp only
        (try split) <;> (try split) <;> first
          | exact Or.inl
          | rintro ⟨⟩
  | resume uid seq pc =>
      simp only [Task.act]
      fun_cases Task.resumeAct uid seq pc c <;> intro h <;> cases h
      case resume.case1.refl =>
        rintro ⟨⟩
        exact Or.inr ⟨rfl, hnew _⟩
      all_goals
        dsimp only
        (try split) <;> (try split) <;> first
          | exact Or.inl
          | rintro ⟨⟩
  | _ => rcases hkind with hk | hk | hk | hk <;> cases hk

omit geo in
theorem call_holds (t : Task) (h : t.isCall = true) : t.holds = none := by
  cases t with
  | startTrack pc => cases pc <;> first | rfl | cases h
  | stopTrack pc => cases pc <;> first | rfl | cases h
  | resume uid seq pc => cases pc <;> first | rfl | cases h
  | dial owner pc => cases h
  | _ => rfl

/-- What is spawned waits on nothing. -/
theorem spawned_holds (t : Task) (c : Input) (a : Act Section Task) (s : Shared)
    (h : t.act c = some a) (u : Task) (hu : u ∈ (client geo).spawned a s) : u.holds = none := by
  rcases spawned_cases geo t c a s h u hu with
    ⟨_, _, _, _, rfl | rfl⟩ | ⟨_, _, _, rfl | rfl | ⟨_, rfl⟩⟩ | ⟨_, _, _, rfl⟩ <;> rfl

/-! ## The record -/

/-- A caller of `resume` that returns a number found it in its cell. -/
theorem heir_resumed (t : Task) (c : Input) (a : Act Section Task) (s : Shared)
    (h : t.act c = some a) (seq : Nat)
    (hheir : (client geo).heir a s = .returned (.resume (.ok seq))) :
    ∃ cell r, t.holds = some (.resume, cell) ∧ s.cells[cell]? = some (.sent (.ok r)) ∧
      r.seq = seq := by
  have hkind : t.kind = .resume := heir_gives geo t c a s h _ (by rw [hheir]; rfl)
  revert hheir
  unfold Machine.heir
  revert h
  cases t with
  | resume uid n pc =>
      simp only [Task.act]
      fun_cases Task.resumeAct uid n pc c <;> intro h <;> cases h
      -- The call looks into its cell, and returns what it finds there.
      case resume.case4.refl cell =>
        have hrun : (client geo).run (Section.poll cell) s = (s, poll cell s) := rfl
        simp only [hrun, poll]
        rcases hcell : s.cells[cell]? with _ | o
        · rintro ⟨⟩
        · rcases o with _ | r | _
          · rintro ⟨⟩
          · rcases r with e | r
            · dsimp only [Option.getD_some]
              split <;> rintro ⟨⟩
            · rintro ⟨⟩
              exact ⟨cell, r, rfl, hcell, rfl⟩
          · rintro ⟨⟩
      all_goals
        dsimp only
        (try split) <;> rintro ⟨⟩
  | _ => cases hkind

/-- Cells and answers are those of the record: each cell was made for one waiter of
    one task, and holds an answer only if a reply was dispatched for it. -/
structure Backed (p : Pool Shared Task) (b : Mail) : Prop where
  made_lt : ∀ c m, b.made c = some m → c < p.shared.cells.length ∧ m.heard ≤ b.said.length
  /-- Who is waited for has not been told. -/
  waits : ∀ w c, p.shared.inner.wait w = some c →
    (∃ m, b.made c = some m ∧ m.waiter = w) ∧ ∀ x ∈ b.said, x.cell ≠ some c
  said : ∀ (n : Nat) x c, b.said[n]? = some x → x.cell = some c →
    ∃ m r, b.made c = some m ∧ x.evt.reply = some (m.waiter, r) ∧ m.heard ≤ n
  once : (b.said.filterMap (·.cell)).Nodup
  answered : ∀ c r, Answered p c r →
    ∃ (n : Nat) (x : Said) (w : Waiter), b.said[n]? = some x ∧ x.cell = some c ∧
      x.evt.reply = some (w, r)
  holds : ∀ (j : Nat) u w c, p.tasks[j]? = some u → u.holds = some (w, c) →
    ∃ m, b.made c = some m ∧ m.waiter = w ∧ m.owner = j
  started : ∀ (j : Nat) uid, p.tasks[j]? = some (.returned (.startTrack (.ok uid))) →
    ∃ c r, r.uid = uid ∧ b.Says .start j c r
  resumed : ∀ (j : Nat) seq, p.tasks[j]? = some (.returned (.resume (.ok seq))) →
    ∃ c r, r.seq = seq ∧ b.Says .resume j c r
  wires : ∀ k, (b.said.filter (·.sock = k)).map (·.evt) = heardOn (fun _ => true) k p.shared

omit geo in
/-- Whoever finds an answer in the cell it waits on was told so. -/
theorem Backed.states (p : Pool Shared Task) (b : Mail) (h : Backed p b) (j : Nat) (u : Task)
    (w : Waiter) (c : Nat) (r : Reply) (hu : p.tasks[j]? = some u) (hold : u.holds = some (w, c))
    (hans : Answered p c r) : b.Says w j c r := by
  rcases h.holds j u w c hu hold with ⟨m, hm, hw, hj⟩
  rcases h.answered c r hans with ⟨n, x, w', hx, hc, hreply⟩
  rcases h.said n x c hx hc with ⟨m', r', hm', hreply', hn⟩
  cases hm.symm.trans hm'
  cases hreply.symm.trans hreply'
  exact ⟨n, x, m, hx, hm, hc, hw ▸ hreply, hw, hj, hn⟩

section Step

variable (p : Pool Shared Task) (i : Nat) (t : Task) (a : Act Section Task) (b : Mail)

omit geo in
/-- What was said stays said. -/
theorem said_keep (n : Nat) (x : Said) (h : b.said[n]? = some x) :
    (noteMail p i t a b).said[n]? = some x := by
  unfold noteMail
  split
  · rw [List.getElem?_append_left (List.getElem?_eq_some_iff.mp h).1, h]
  · exact h

omit geo in
/-- A step says one thing more, or nothing. -/
theorem said_cases (n : Nat) (x : Said) (h : (noteMail p i t a b).said[n]? = some x) :
    b.said[n]? = some x ∨ (n = b.said.length ∧ ∃ k evt, a.op.hears = some (k, evt) ∧
      x = ⟨k, evt, evt.reply.bind fun r => p.shared.inner.wait r.1⟩) := by
  -- The event that is dispatched is noted last.
  rcases hheard : a.op.hears with _ | ⟨k, evt⟩
  · simp only [noteMail, hheard] at h
    exact Or.inl h
  · simp only [noteMail, hheard] at h
    rcases Nat.lt_or_ge n b.said.length with hlt | hge
    · rw [List.getElem?_append_left hlt] at h
      exact Or.inl h
    · have hn : n - b.said.length = 0 := by
        have := (List.getElem?_eq_some_iff.mp h).1
        rw [List.length_append, List.length_singleton] at this
        omega
      rw [List.getElem?_append_right hge, hn] at h
      cases h
      exact Or.inr ⟨by omega, k, evt, rfl, rfl⟩

omit geo in
/-- A cell keeps its maker. -/
theorem made_keep (c : Nat) (m : Made) (hlt : c < p.shared.cells.length)
    (h : b.made c = some m) : (noteMail p i t a b).made c = some m := by
  rcases hmakes : a.op.makes p.shared with _ | w
  · simp only [noteMail, hmakes]
    exact h
  · simp only [noteMail, hmakes]
    exact (Function.update_of_ne (Nat.ne_of_lt hlt) _ _).trans h

omit geo in
theorem made_new (w : Waiter) (h : a.op.makes p.shared = some w) :
    (noteMail p i t a b).made p.shared.cells.length = some ⟨w, i, b.said.length⟩ := by
  simp only [noteMail, h, Function.update_self]

omit geo in
theorem made_cases (c : Nat) (m : Made) (h : (noteMail p i t a b).made c = some m) :
    b.made c = some m ∨ (c = p.shared.cells.length ∧ ∃ w, a.op.makes p.shared = some w ∧
      m = ⟨w, i, b.said.length⟩) := by
  rcases hmakes : a.op.makes p.shared with _ | w
  · simp only [noteMail, hmakes] at h
    exact Or.inl h
  · simp only [noteMail, hmakes] at h
    by_cases hc : c = p.shared.cells.length
    · rw [hc, Function.update_self, Option.some.injEq] at h
      exact Or.inr ⟨hc, w, rfl, h.symm⟩
    · rw [Function.update_of_ne hc] at h
      exact Or.inl h

omit geo in
/-- What was said of an answer stays said. -/
theorem says_keep (hlt : ∀ c m, b.made c = some m → c < p.shared.cells.length) (w : Waiter)
    (j c : Nat) (r : Reply) (h : b.Says w j c r) : (noteMail p i t a b).Says w j c r := by
  rcases h with ⟨n, x, m, hx, hm, hrest⟩
  exact ⟨n, x, m, said_keep p i t a b n x hx, made_keep p i t a b c m (hlt c m hm) hm, hrest⟩

variable (c : Input) (ht : p.tasks[i]? = some t) (ha : t.act c = some a) (h : Backed p b)

include ht ha h

omit ht ha in
/-- The cells made exist, and were made before now. -/
theorem step_made_lt (cell : Nat) (m : Made) (hm : (noteMail p i t a b).made cell = some m) :
    cell < ((client geo).after a p.shared).cells.length ∧
      m.heard ≤ (noteMail p i t a b).said.length := by
  have hlen : p.shared.cells.length ≤ ((client geo).after a p.shared).cells.length :=
    (run_cells geo a.op p.shared).1
  have hsaid : b.said.length ≤ (noteMail p i t a b).said.length := by
    unfold noteMail
    split
    · rw [List.length_append]
      omega
    · exact Nat.le_refl _
  -- An older cell, or the one made in this step.
  rcases made_cases p i t a b cell m hm with hold | ⟨rfl, w, hmakes, rfl⟩
  · rcases h.made_lt cell m hold with ⟨hlt, hle⟩
    exact ⟨Nat.lt_of_lt_of_le hlt hlen, Nat.le_trans hle hsaid⟩
  · exact ⟨(makes_run geo a.op p.shared w hmakes).2, hsaid⟩

omit ht in
/-- Who is waited for after a step has not been told. -/
theorem step_waits (w : Waiter) (cell : Nat)
    (hwait : ((client geo).after a p.shared).inner.wait w = some cell) :
    (∃ m, (noteMail p i t a b).made cell = some m ∧ m.waiter = w) ∧
      ∀ x ∈ (noteMail p i t a b).said, x.cell ≠ some cell := by
  rcases after_wait_makes geo a p.shared w cell hwait with hold | ⟨hmakes, rfl⟩
  · rcases h.waits w cell hold with ⟨⟨m, hm, hw⟩, hquiet⟩
    refine ⟨⟨m, made_keep p i t a b cell m (h.made_lt cell m hm).1 hm, hw⟩, fun x hx hc => ?_⟩
    rcases List.mem_iff_getElem?.mp hx with ⟨n, hn⟩
    rcases said_cases p i t a b n x hn with hx' | ⟨_, k, evt, hheard, rfl⟩
    · exact hquiet x (List.mem_of_getElem? hx') hc
    · -- A reply takes its waiter, and another waiter has another cell.
      rcases Option.bind_eq_some_iff.mp hc with ⟨⟨w', r⟩, hreply, hwait'⟩
      rcases h.waits w' cell hwait' with ⟨⟨m', hm', hw'⟩, _⟩
      cases hm.symm.trans hm'
      cases hw.symm.trans hw'
      have htaken := after_replied geo t c a p.shared ha k evt hheard w (by
        cases evt <;> cases hreply <;> rfl)
      cases hwait.symm.trans htaken
  · refine ⟨⟨_, made_new p i t a b w hmakes, rfl⟩, fun x hx hc => ?_⟩
    rcases List.mem_iff_getElem?.mp hx with ⟨n, hn⟩
    rcases said_cases p i t a b n x hn with hx' | ⟨_, k, evt, hheard, rfl⟩
    · rcases h.said n x _ hx' hc with ⟨m, _, hm, _⟩
      exact absurd (h.made_lt _ m hm).1 (Nat.lt_irrefl _)
    · rcases Option.bind_eq_some_iff.mp hc with ⟨⟨w', r⟩, _, hwait'⟩
      rcases h.waits w' _ hwait' with ⟨⟨m, hm, _⟩, _⟩
      exact absurd (h.made_lt _ m hm).1 (Nat.lt_irrefl _)

omit ht ha in
/-- What was said for a cell was said after the cell was made. -/
theorem step_said (n : Nat) (x : Said) (cell : Nat)
    (hx : (noteMail p i t a b).said[n]? = some x) (hc : x.cell = some cell) :
    ∃ m r, (noteMail p i t a b).made cell = some m ∧ x.evt.reply = some (m.waiter, r) ∧
      m.heard ≤ n := by
  rcases said_cases p i t a b n x hx with hx' | ⟨rfl, k, evt, hheard, rfl⟩
  · rcases h.said n x cell hx' hc with ⟨m, r, hm, hrest⟩
    exact ⟨m, r, made_keep p i t a b cell m (h.made_lt cell m hm).1 hm, hrest⟩
  · rcases Option.bind_eq_some_iff.mp hc with ⟨⟨w, r⟩, hreply, hwait⟩
    rcases h.waits w cell hwait with ⟨⟨m, hm, rfl⟩, _⟩
    rcases h.made_lt cell m hm with ⟨hlt, hle⟩
    exact ⟨m, r, made_keep p i t a b cell m hlt hm, hreply, hle⟩

omit ht ha in
/-- No cell is told twice. -/
theorem step_told_once : ((noteMail p i t a b).said.filterMap (·.cell)).Nodup := by
  rcases hheard : a.op.hears with _ | ⟨k, evt⟩
  · simp only [noteMail, hheard]
    exact h.once
  · simp only [noteMail, hheard, List.filterMap_append]
    rcases hcell : evt.reply.bind fun r => p.shared.inner.wait r.1 with _ | cell
    · simp only [List.filterMap_cons, List.filterMap_nil, List.append_nil]
      exact h.once
    · simp only [List.filterMap_cons, List.filterMap_nil]
      rcases Option.bind_eq_some_iff.mp hcell with ⟨⟨w, r⟩, _, hwait⟩
      refine List.Nodup.append h.once (List.nodup_singleton _) fun cell' hold hnew => ?_
      cases List.mem_singleton.mp hnew
      rcases List.mem_filterMap.mp hold with ⟨x, hx, hc⟩
      exact (h.waits w cell hwait).2 x hx hc

/-- An answer in a cell, or on its way there, was said. -/
theorem step_told (cell : Nat) (r : Reply) (hans : Answered ((client geo).resumed p i a) cell r) :
    ∃ (n : Nat) (x : Said) (w : Waiter), (noteMail p i t a b).said[n]? = some x ∧
      x.cell = some cell ∧ x.evt.reply = some (w, r) := by
  rcases answered_reply geo p i c t a ht ha cell r hans with
    hold | ⟨k, evt, w, hheard, hwait, hreply⟩
  · rcases h.answered cell r hold with ⟨n, x, w, hx, hrest⟩
    exact ⟨n, x, w, said_keep p i t a b n x hx, hrest⟩
  · refine ⟨b.said.length, ⟨k, evt, some cell⟩, w, ?_, rfl, hreply⟩
    simp only [noteMail, hheard, hreply, Option.bind_some, hwait,
      List.getElem?_concat_length]

/-- Whoever waits on a cell made it. -/
theorem step_holds (j : Nat) (u : Task) (w : Waiter) (cell : Nat)
    (hu : ((client geo).resumed p i a).tasks[j]? = some u) (hold : u.holds = some (w, cell)) :
    ∃ m, (noteMail p i t a b).made cell = some m ∧ m.waiter = w ∧ m.owner = j := by
  -- What was noted of a cell is not changed.
  have hkeep : ∀ v, p.tasks[j]? = some v → v.holds = some (w, cell) →
      ∃ m, (noteMail p i t a b).made cell = some m ∧ m.waiter = w ∧ m.owner = j := by
    intro v hv hvhold
    rcases h.holds j v w cell hv hvhold with ⟨m, hm, hrest⟩
    exact ⟨m, made_keep p i t a b cell m (h.made_lt cell m hm).1 hm, hrest⟩
  rcases (client geo).resumed_get_cases p i j a t u ht hu with ⟨rfl, rfl⟩ | ⟨_, hu'⟩ | ⟨_, hu'⟩
  -- Who moved holds the cell it held, or the one it just made.
  · rcases heir_holds geo t c a p.shared ha w cell hold with hthold | ⟨hmakes, rfl⟩
    · exact hkeep t ht hthold
    · exact ⟨_, made_new p j t a b w hmakes, rfl, rfl⟩
  · exact hkeep u hu' hold
  · rw [spawned_holds geo t c a p.shared ha u (List.mem_of_getElem? hu')] at hold
    cases hold

/-- A call that returns a uid was told it. -/
theorem step_started (j : Nat) (uid : String)
    (hu : ((client geo).resumed p i a).tasks[j]? = some (.returned (.startTrack (.ok uid)))) :
    ∃ cell r, r.uid = uid ∧ (noteMail p i t a b).Says .start j cell r := by
  have hkeep := says_keep p i t a b fun cell m hm => (h.made_lt cell m hm).1
  rcases (client geo).resumed_get_cases p i j a t _ ht hu with
    ⟨rfl, hheir⟩ | ⟨_, hu'⟩ | ⟨_, hu'⟩
  · rcases heir_started geo t c a p.shared ha uid hheir.symm with ⟨cell, r, rfl, hsent, huid⟩
    exact ⟨cell, r, huid, hkeep .start j cell r
      (Backed.states p b h j _ .start cell r ht rfl (Or.inl hsent))⟩
  · rcases h.started j uid hu' with ⟨cell, r, huid, hsays⟩
    exact ⟨cell, r, huid, hkeep .start j cell r hsays⟩
  · rcases spawned_cases geo t c a p.shared ha _ (List.mem_of_getElem? hu') with
      ⟨_, _, _, _, h | h⟩ | ⟨_, _, _, h | h | ⟨_, h⟩⟩ | ⟨_, _, _, h⟩ <;> cases h

/-- A call that returns a number was told it. -/
theorem step_resumed (j : Nat) (seq : Nat)
    (hu : ((client geo).resumed p i a).tasks[j]? = some (.returned (.resume (.ok seq)))) :
    ∃ cell r, r.seq = seq ∧ (noteMail p i t a b).Says .resume j cell r := by
  have hkeep := says_keep p i t a b fun cell m hm => (h.made_lt cell m hm).1
  rcases (client geo).resumed_get_cases p i j a t _ ht hu with
    ⟨rfl, hheir⟩ | ⟨_, hu'⟩ | ⟨_, hu'⟩
  · rcases heir_resumed geo t c a p.shared ha seq hheir.symm with ⟨cell, r, hold, hsent, hseq⟩
    exact ⟨cell, r, hseq, hkeep .resume j cell r
      (Backed.states p b h j t .resume cell r ht hold (Or.inl hsent))⟩
  · rcases h.resumed j seq hu' with ⟨cell, r, hseq, hsays⟩
    exact ⟨cell, r, hseq, hkeep .resume j cell r hsays⟩
  · rcases spawned_cases geo t c a p.shared ha _ (List.mem_of_getElem? hu') with
      ⟨_, _, _, _, h | h⟩ | ⟨_, _, _, h | h | ⟨_, h⟩⟩ | ⟨_, _, _, h⟩ <;> cases h

/-- The record has every event that was dispatched from a socket, in order. -/
theorem step_wires (hone : OneReader p) (k : Nat) :
    ((noteMail p i t a b).said.filter (·.sock = k)).map (·.evt) =
      heardOn (fun _ => true) k ((client geo).after a p.shared) := by
  rw [step_heardOn geo _ p.shared c t a ha k (hone.lt i t ht k), ← h.wires k]
  -- Nothing is heard, or one event of one socket.
  rcases hheard : a.op.hears with _ | ⟨j, evt⟩
  · have hnone : heardBy (fun _ => true) a.op = [] := by simp only [heardBy, hheard]; rfl
    simp only [noteMail, hheard, hnone, ite_self, List.append_nil]
  · rcases act_hears t c a ha j evt hheard with ⟨gen, hreader, _⟩
    have hj : t.reads = some j := (reads_iff t j).mpr ⟨gen, .reading, hreader⟩
    have hevt : heardBy (fun _ => true) a.op = [evt] := by simp only [heardBy, hheard]; rfl
    by_cases hjk : j = k
    · simp only [noteMail, hheard, hevt, hj, hjk, if_true, List.filter_append, decide_true,
        List.filter_cons_of_pos, List.filter_nil, List.map_append, List.map_cons, List.map_nil]
    · simp only [noteMail, hheard, hj, hjk, Option.some.injEq, if_false, List.filter_append,
        decide_false, Bool.false_eq_true, not_false_eq_true, List.filter_cons_of_neg,
        List.filter_nil, List.append_nil]

/-- A step keeps the record. -/
theorem step_backed (hone : OneReader p) :
    Backed ((client geo).resumed p i a) (noteMail p i t a b) where
  made_lt := step_made_lt geo p i t a b h
  waits := step_waits geo p i t a b c ha h
  said := step_said p i t a b h
  once := step_told_once p i t a b h
  answered := step_told geo p i t a b c ht ha h
  holds := step_holds geo p i t a b c ht ha h
  started := step_started geo p i t a b c ht ha h
  resumed := step_resumed geo p i t a b c ht ha h
  wires := step_wires geo p i t a b c ht ha h hone

end Step

/-! ## Runs -/

/-- A call that comes in waits on nothing. -/
theorem entered_backed (p : Pool Shared Task) (t : Task)
    (hent : (client geo).entry p.shared t = true) (b : Mail) (h : Backed p b) :
    Backed { p with tasks := p.tasks ++ [t] } b := by
  have hcall := ((entry_iff geo p.shared t).mp hent).2
  -- A call that comes in has not returned, and holds no cell.
  have hret : ∀ (j : Nat) r, (p.tasks ++ [t])[j]? = some (.returned r) →
      p.tasks[j]? = some (.returned r) := by
    intro j r hj
    rcases Machine.entered_get_cases p.tasks t _ j hj with hold | rfl
    · exact hold
    · cases hcall
  refine ⟨h.made_lt, h.waits, h.said, h.once, ?_, ?_, ?_, ?_, h.wires⟩
  · exact fun cell r hans => h.answered cell r (spawn_answered geo p t hent cell r hans)
  · intro j u w cell hu hold
    rcases Machine.entered_get_cases p.tasks t u j hu with hu' | rfl
    · exact h.holds j u w cell hu' hold
    · rw [call_holds u hcall] at hold
      cases hold
  · exact fun j uid hj => h.started j uid (hret j _ hj)
  · exact fun j seq hj => h.resumed j seq (hret j _ hj)

variable (cfg : Config) (C : Mail → Pool Shared Task → Nat → Task → Act Section Task → Prop)

theorem reach_backed (p : Pool Shared Task) (b : Mail)
    (h : (client geo).Tallied (Started cfg) C noteMail .empty p b) : Backed p b := by
  refine (client geo).tallied_inv (Started cfg) C noteMail .empty OneReader
    (fun p h => reach_oneReader geo cfg _ p h) Backed ?_
    (fun p i c t a b ht ha _ hone h => step_backed geo p i t a b c ht ha h hone)
    (fun p t b hent _ h => entered_backed geo p t hent b h) p b h
  intro p hp
  rcases started_pool cfg p hp with ⟨now, rfl⟩
  have hret : ∀ (j : Nat) r,
      [Task.dial .connect (.begin 0 false)][j]? ≠ some (.returned r) := by
    intro j r hj
    cases List.mem_singleton.mp (List.mem_of_getElem? hj)
  -- At the start nothing was said, and nobody waits or has returned.
  refine ⟨?_, ?_, ?_, List.nodup_nil, ?_, ?_, ?_, ?_, fun _ => rfl⟩
  · rintro c m ⟨⟩
  · intro w c hwait
    cases w <;> cases hwait
  · rintro n x c ⟨⟩
  · rintro c r (hsent | ⟨u, hu, hcarries⟩)
    · cases hsent
    · rw [List.mem_singleton.mp hu] at hcarries
      cases hcarries
  · intro j u w c hu hold
    rw [List.mem_singleton.mp (List.mem_of_getElem? hu)] at hold
    cases hold
  · exact fun j uid hj => absurd hj (hret j _)
  · exact fun j seq hj => absurd hj (hret j _)

end Client

/-- What callers are told was said: a task that finds an answer in the cell it waits
    on, and a call that has returned with one, were told by a reply of the server
    that was dispatched after they asked, and nobody else was told by it. -/
structure RepliesBacked (p : Pool Shared Task) (b : Mail) : Prop where
  told : ∀ (j : Nat) u w c r, p.tasks[j]? = some u → u.holds = some (w, c) →
    p.shared.cells[c]? = some (.sent (.ok r)) → b.Says w j c r
  started : ∀ (j : Nat) uid, p.tasks[j]? = some (.returned (.startTrack (.ok uid))) →
    ∃ c r, r.uid = uid ∧ b.Says .start j c r
  resumed : ∀ (j : Nat) seq, p.tasks[j]? = some (.returned (.resume (.ok seq))) →
    ∃ c r, r.seq = seq ∧ b.Says .resume j c r
  /-- A cell has one owner, and one entry of the record is for it. -/
  once : (b.said.filterMap (·.cell)).Nodup
  /-- The record has what the sockets said, in order. -/
  wires : ∀ k, (b.said.filter (·.sock = k)).map (·.evt) = heardOn (fun _ => true) k p.shared

/-- A call of `start_track` that the server answers. -/
def askedAndTold : List (Label Task Input) :=
  opening ++ [.spawn (.startTrack (.start none [] [])), .resume 3 (.clock 0 0),
    .resume 3 (.clock 0 0), .resume 2 (.frame (.trackStarted "T" [])), .resume 2 .go,
    .resume 2 .go, .resume 3 .go]

/-- What callers are told was said, in every run: an `Ok` of `start_track` or
    `resume` goes back to one reply, dispatched after the call asked, and no reply
    tells two callers. -/
theorem reach_repliesBacked (geo : Geo) (cfg : Config)
    (C : Mail → Pool Shared Task → Nat → Task → Act Section Task → Prop) (p : Pool Shared Task)
    (b : Mail) (h : (client geo).Tallied (Started cfg) C noteMail .empty p b) :
    RepliesBacked p b := by
  have hb := reach_backed geo cfg C p b h
  exact ⟨fun j u w c r hu hold hsent => Backed.states p b hb j u w c r hu hold (Or.inl hsent),
    hb.started, hb.resumed, hb.once, hb.wires⟩

/-- A call of `start_track`, from its cell to its uid. -/
theorem reach_repliesBacked_started :
    ∃ p b, RepliesBacked p b ∧ p.tasks[3]? = some (.returned (.startTrack (.ok "T"))) := by
  rcases (client flatGeo).exists_tallied (Started someConfig) (fun _ _ _ _ _ => True) noteMail
    .empty (fun _ _ _ _ _ => true) (fun _ _ _ _ _ _ => trivial) askedAndTold fresh started_fresh
    (fun p _ => decide (p.tasks[3]? = some (Task.returned (.startTrack (.ok "T")))))
    (by decide +kernel) with ⟨p, b, hp, hrun⟩
  exact ⟨p, b, reach_repliesBacked flatGeo someConfig _ p b hp, of_decide_eq_true hrun⟩

end Tracking

end Pickpoint
