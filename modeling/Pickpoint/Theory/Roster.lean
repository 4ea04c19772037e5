import Pickpoint.Theory.Lineage

/-!
# The Roster

What the locked sections do to the subscriptions: which devices are wanted, and
the two maps between devices and handles.

Five sections write to these. `RosterStep` lists what each of them writes, and
`run_roster` says that this is all any section does.

## Main definitions

* `Roster`, `Shared.roster`: The subscriptions of a session.
* `Section.binds`, `Section.clearsMaps`, `Section.wants`: The sections that write
  to them.
* `RosterStep`: What they write.

## Theorems

* `run_roster`: The sections write what `RosterStep` says.
* `run_roster_keep`: The others write nothing.
* `reach_wanted_nodup`: A device is wanted once.
-/

namespace Pickpoint

namespace Tracking

open Interleave

/-- The subscriptions of a session. -/
structure Roster where
  subscriptions : List String
  subByDevice : String → Option UInt8
  deviceBySub : UInt8 → Option String

def Inner.roster (g : Inner) : Roster where
  subscriptions := g.subscriptions
  subByDevice := g.subByDevice
  deviceBySub := g.deviceBySub

/-- The subscriptions of a session. -/
def Shared.roster (s : Shared) : Roster := s.inner.roster

/-- The binding a section enters into the maps: socket, handle and device. -/
def Section.binds : {α : Type} → Section α → Option (Nat × UInt8 × String)
  | _, .dispatchSubscribed sock _ sub deviceUid => some (sock, sub, deviceUid)
  | _, _ => none

/-- The sections that clear the maps. -/
def Section.clearsMaps (s : Shared) : {α : Type} → Section α → Bool
  | _, .resubscribe => true
  | _, .socketClosed gen _ => gen == s.inner.dialGen
  | _, _ => false

/-- The device a call wants or gives up. -/
def Section.wants : {α : Type} → Section α → Option String
  | _, .subscribe deviceUid => some deviceUid
  | _, .unsubscribe deviceUid => some deviceUid
  | _, _ => none

/-- What a section writes to the roster. -/
inductive RosterStep (s : Shared) : {α : Type} → Section α → Roster → Prop where
  | keep {α : Type} (op : Section α) (hbinds : op.binds = none)
      (hclears : op.clearsMaps s = false) (hwants : op.wants = none) : RosterStep s op s.roster
  | bound (sock : Nat) (evt : ServerEvt) (sub : UInt8) (deviceUid : String) :
      RosterStep s (.dispatchSubscribed sock evt sub deviceUid)
        { s.roster with
          subByDevice := Function.update s.roster.subByDevice deviceUid (some sub)
          deviceBySub := Function.update s.roster.deviceBySub sub (some deviceUid) }
  | cleared {α : Type} (op : Section α) (hbinds : op.binds = none)
      (hclears : op.clearsMaps s = true) :
      RosterStep s op
        { s.roster with subByDevice := fun _ => none, deviceBySub := fun _ => none }
  | wanted (deviceUid : String) :
      RosterStep s (.subscribe deviceUid)
        { s.roster with subscriptions := s.roster.subscriptions.insert deviceUid }
  | given (deviceUid : String) :
      RosterStep s (.unsubscribe deviceUid)
        { s.roster with
          subscriptions := s.roster.subscriptions.erase deviceUid
          subByDevice := Function.update s.roster.subByDevice deviceUid none }

/-- The sections write what `RosterStep` says. -/
theorem run_roster (geo : Geo) {α : Type} (op : Section α) (s : Shared) :
    RosterStep s op (op.run geo s).1.roster := by
  by_cases hset : op.setsUp = false
  · have hkeep : (op.run geo s).1.roster = s.roster :=
      congrArg (fun t : Settings => (⟨t.subscriptions, t.subByDevice, t.deviceBySub⟩ : Roster))
        (run_settings geo op s hset)
    rw [hkeep]
    cases op <;> first | exact .keep _ rfl rfl rfl | cases hset
  cases op with
  -- The four sections that write to the roster.
  | dispatchSubscribed sock evt sub uid => exact .bound sock evt sub uid
  | resubscribe => exact .cleared _ rfl rfl
  | subscribe uid => exact .wanted uid
  | unsubscribe uid => exact .given uid
  -- The others set up something else.
  | dialInstall gen =>
      rcases dialInstall_cases gen s with ⟨_, hi⟩ | ⟨_, _, hi⟩ <;>
        (simp only [Section.run, hi]; exact .keep _ rfl rfl rfl)
  | relocateEndpoint endpoint =>
      simp only [Section.run, relocateEndpoint_eq]
      exact .keep _ rfl rfl rfl
  | authRefreshed device listener =>
      rcases authRefreshed_frame device listener s with ⟨_, _, hi, _⟩
      simp only [Section.run, Shared.roster, hi]
      exact .keep _ rfl rfl rfl
  -- The latest dial losing its socket clears the handles.
  | socketClosed gen random =>
      rcases socketClosed_cases gen random s with ⟨hgen, hi⟩ | ⟨rfl, _, _, _, _, _, _, _, hi, _⟩
      · simp only [Section.run, Shared.roster, hi]
        exact .keep _ rfl (beq_false_of_ne hgen) rfl
      · simp only [Section.run, Shared.roster, hi]
        exact .cleared _ rfl (beq_self_eq_true _)
  | publishWork now wall point =>
      rcases publishWork_cases geo now wall point s with
        hi | ⟨_, _, hi | ⟨_, ⟨_, hi⟩ | ⟨_, hi⟩⟩⟩ <;>
        (simp only [Section.run, hi]; exact .keep _ rfl rfl rfl)
  | _ => exact absurd rfl hset

/-- The other sections write nothing. -/
theorem run_roster_keep (geo : Geo) {α : Type} (op : Section α) (s : Shared)
    (hbinds : op.binds = none) (hclears : op.clearsMaps s = false) (hwants : op.wants = none) :
    (op.run geo s).1.roster = s.roster := by
  have hstep := run_roster geo op s
  generalize (op.run geo s).1.roster = r at hstep ⊢
  cases hstep with
  | keep => rfl
  | bound => cases hbinds
  | cleared _ _ hyes => cases hyes.symm.trans hclears
  | wanted => cases hwants
  | given => cases hwants

theorem run_wanted_nodup (geo : Geo) {α : Type} (op : Section α) (s : Shared)
    (h : s.roster.subscriptions.Nodup) : (op.run geo s).1.roster.subscriptions.Nodup := by
  have hstep := run_roster geo op s
  generalize (op.run geo s).1.roster = r at hstep ⊢
  cases hstep with
  | keep => exact h
  | bound => exact h
  | cleared => exact h
  | wanted uid => exact h.insert
  | given uid => exact h.erase uid

/-- No device is wanted twice. -/
theorem reach_wanted_nodup (geo : Geo) (cfg : Config)
    (C : Pool Shared Task → Nat → Task → Act Section Task → Prop) (p : Pool Shared Task)
    (h : (client geo).Reach (Started cfg) ((client geo).whenever C) p) :
    p.shared.inner.subscriptions.Nodup := by
  refine (client geo).reach_shared (Started cfg) C (fun s => s.roster.subscriptions.Nodup)
    ?_ ?_ p h
  · intro p hp
    rcases started_pool cfg p hp with ⟨now, rfl⟩
    exact List.nodup_dedup cfg.subscribe
  · intro p i c t a _ _ _ hI
    exact run_wanted_nodup geo a.op p.shared hI

end Tracking

end Pickpoint
