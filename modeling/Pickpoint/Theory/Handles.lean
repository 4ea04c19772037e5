import Pickpoint.Theory.Channels
import Pickpoint.Theory.Readers
import Pickpoint.Theory.Roster
import Pickpoint.Theory.Server
import Pickpoint.Interleave.Tally

/-!
# Subscription Handles

A server names a subscribed device by a handle, a byte that means something on
one socket only. The client looks the handle of a stamped event up in
`deviceBySub`, which all its sockets share, and fills in the device.

`DeliversRight` says what the result should be: whatever a reader puts on the
event channel carries the device of the latest `Subscribed` for its handle on
the reader's own socket, or none when that socket has not sent one.

Two sockets deliver at the same time after a Relocate, and then the map may
hold what the other one said (`relocated_handle_mixed`). Which socket an entry
came from is not kept in the session, so a run carries it along (`noteBinder`).
As long as a stamped event meets an entry of its own socket, or none where
there is none to meet, every delivery is right (`reach_deliversRight`).

## Main definitions

* `ServerEvt.handle`, `ServerEvt.stamp`: The handle of an event, and filling in
  its device.
* `latestDevice`: The device a socket has bound to a handle.
* `DeliversRight`: Deliveries carry what their own socket said.
* `noteBinder`: The socket each entry of the map came from.
* `readsOwnHandle`: A stamped event meets an entry of its own socket.

## Theorems

* `run_recvq`: What reaches the event channel.
* `step_ownEntries`: The map is what its sockets said.
* `reach_deliversRight`: Every delivery is right.
* `relocated_handle_mixed`: Not so in general.
-/

namespace Pickpoint

namespace Tracking

open Interleave

/-- The handle of a stamped event. -/
def ServerEvt.handle : ServerEvt → Option UInt8
  | .locationAdded _ _ _ _ sub => some sub
  | .eventAdded _ _ _ _ sub => some sub
  | .devicePresence _ _ _ sub => some sub
  | _ => none

/-- Fill the device of a stamped event in where it is missing. -/
def ServerEvt.stamp (uid : String) : ServerEvt → ServerEvt
  | .locationAdded deviceUid trackUid point clientSeq sub =>
    .locationAdded (if deviceUid = "" then uid else deviceUid) trackUid point clientSeq sub
  | .eventAdded deviceUid trackUid payload timestampMs sub =>
    .eventAdded (if deviceUid = "" then uid else deviceUid) trackUid payload timestampMs sub
  | .devicePresence deviceUid online lastSeenMs sub =>
    .devicePresence (if deviceUid = "" then uid else deviceUid) online lastSeenMs sub
  | evt => evt

/-- The device the latest `Subscribed` on a wire bound to a handle. -/
def latestDevice (sub : UInt8) : List Traffic → Option String
  | [] => none
  | .got (.subscribed sub' deviceUid _ _ _ _ _ _ _ _ _ _) :: w =>
    if sub' = sub then some deviceUid else latestDevice sub w
  | _ :: w => latestDevice sub w

/-- The event last dispatched from a socket. -/
def lastGot : List Traffic → Option ServerEvt
  | [] => none
  | .got evt :: _ => some evt
  | .sent _ _ :: w => lastGot w

/-- What a stamped event on the way to the event channel should be: the event
    last read from socket `k`, with the device that socket bound to its handle,
    if any. -/
def StampedFor (s : Shared) (k : Nat) (evt : ServerEvt) : Prop :=
  ∀ sub, evt.handle = some sub → ∃ raw, lastGot (s.wire k) = some raw ∧
    evt = raw.stamp ((latestDevice sub (s.wire k)).getD "")

/-- Whatever a step puts on the event channel comes from a reader and is
    stamped for its socket. -/
def DeliversRight (geo : Geo) (p : Pool Shared Task) : Prop :=
  ∀ (i : Nat) c t a evt, p.tasks[i]? = some t → t.act c = some a →
    ((client geo).after a p.shared).recvq = p.shared.recvq ++ [evt] →
    ∃ k gen pc, t = .reader k gen pc ∧ StampedFor p.shared k evt

/-- Where the entries of the map came from: for each handle the socket whose
    `Subscribed` last bound it since the map was last cleared. -/
def noteBinder (p : Pool Shared Task) (_ : Nat) (_ : Task) (a : Act Section Task)
    (b : UInt8 → Option Nat) : UInt8 → Option Nat :=
  match a.op.binds with
  | some (sock, sub, _) => Function.update b sub (some sock)
  | none => if a.op.clearsMaps p.shared then fun _ => none else b

/-- The condition of `readsOwnHandle` on a section. -/
def Section.readsOwn (s : Shared) (b : UInt8 → Option Nat) : {α : Type} → Section α → Bool
  | _, .dispatchStamp sock _ sub =>
    match b sub with
    | some k => k == sock
    | none => (latestDevice sub (s.wire sock)).isNone
  | _, _ => true

/-- A stamped event meets an entry its own socket has made; or there is no
    entry, and its socket has never bound the handle. -/
def readsOwnHandle (b : UInt8 → Option Nat) (p : Pool Shared Task) (_ : Nat) (_ : Task)
    (a : Act Section Task) : Bool := a.op.readsOwn p.shared b

/-- The event a reader is about to deliver, and its socket. -/
def Task.delivering : Task → Option (Nat × ServerEvt)
  | .reader sock _ (.flush _ _ forward) => forward.map fun evt => (sock, evt)
  | .reader sock _ (.sending _ _ _ _ forward) => forward.map fun evt => (sock, evt)
  | .reader sock _ (.settle _ _ forward) => forward.map fun evt => (sock, evt)
  | _ => none

/-- The entries of the map are what their sockets said. -/
def OwnEntries (s : Shared) (b : UInt8 → Option Nat) : Prop :=
  ∀ sub, s.inner.deviceBySub sub = (b sub).bind fun k => latestDevice sub (s.wire k)

/-! ## The event channel -/

/-- The event a section puts on the event channel if there is room. -/
def Section.forwards : {α : Type} → Section α → Option ServerEvt
  | _, .settle _ _ forward => forward
  | _, _ => none

section Client

variable (geo : Geo)

/-- What reaches the event channel: `recv` takes the oldest event, and only the
    tail of `dispatch` puts one on it. -/
theorem run_recvq {α : Type} (op : Section α) (s : Shared) :
    (op.run geo s).1.recvq = s.recvq ∨ (op.run geo s).1.recvq = s.recvq.tail ∨
      ∃ evt, op.forwards = some evt ∧ (op.run geo s).1.recvq = s.recvq ++ [evt] := by
  by_cases hports : op.ports = true
  · cases op with
    | settle cell r forward =>
        rcases forward with _ | evt
        · refine Or.inl ?_
          simp only [Section.run, settle, Shared.resolve_frame]
        · simp only [Section.run, settle_recvq]
          split
          · exact Or.inr (Or.inr ⟨evt, rfl, rfl⟩)
          · exact Or.inl rfl
    | recv => exact Or.inr (Or.inl rfl)
    | dispatchCommand sock c =>
        exact Or.inl (run_standsBy geo (.dispatchCommand sock c) s rfl).2.1
    | recvCommand => exact Or.inl rfl
    | _ => cases hports
  · exact Or.inl (run_ports geo op s (Bool.not_eq_true _ ▸ hports)).1

/-! ## The map -/

/-- What a section does to the map. -/
theorem run_deviceBySub {α : Type} (op : Section α) (s : Shared) :
    (op.run geo s).1.inner.deviceBySub =
      match op.binds with
      | some (_, sub, deviceUid) => Function.update s.inner.deviceBySub sub (some deviceUid)
      | none => if op.clearsMaps s then fun _ => none else s.inner.deviceBySub := by
  have hstep := run_roster geo op s
  have hmap : (op.run geo s).1.inner.deviceBySub = (op.run geo s).1.roster.deviceBySub := rfl
  rw [hmap]
  generalize (op.run geo s).1.roster = r at hstep ⊢
  cases hstep with
  | keep _ hbinds hclears hwants =>
      rw [hbinds, hclears]
      rfl
  | bound => rfl
  | cleared _ hbinds hclears =>
      rw [hbinds, hclears]
      rfl
  | wanted => rfl
  | given => rfl

/-- A step that dispatches nothing from a socket leaves what it said alone. -/
theorem after_quiet (a : Act Section Task) (s : Shared) (k : Nat)
    (hquiet : ∀ evt, a.op.hears ≠ some (k, evt)) :
    lastGot (((client geo).after a s).wire k) = lastGot (s.wire k) ∧
      ∀ sub, latestDevice sub (((client geo).after a s).wire k) = latestDevice sub (s.wire k) := by
  rcases run_wire geo a.op s k with hw | ⟨evt, hears, _⟩ | ⟨out, ticket, _, _, _, hw⟩
  · have hw' : ((client geo).after a s).wire k = s.wire k := hw
    rw [hw']
    exact ⟨rfl, fun _ => rfl⟩
  · exact absurd hears (hquiet evt)
  · have hw' : ((client geo).after a s).wire k = .sent out ticket :: s.wire k := hw
    rw [hw']
    exact ⟨rfl, fun _ => rfl⟩

/-- A `Subscribed` binds its handle on its socket, and nothing else changes what
    a handle means there. -/
theorem after_latestDevice (t : Task) (c : Input) (a : Act Section Task) (s : Shared)
    (h : t.act c = some a) (hread : ∀ k, t.reads = some k → k < s.sockets.length) (k : Nat)
    (sub : UInt8) :
    (∃ deviceUid, a.op.binds = some (k, sub, deviceUid) ∧
      latestDevice sub (((client geo).after a s).wire k) = some deviceUid) ∨
      ((∀ deviceUid, a.op.binds ≠ some (k, sub, deviceUid)) ∧
        latestDevice sub (((client geo).after a s).wire k) = latestDevice sub (s.wire k)) := by
  -- The wire changes by what is heard on it; only a subscription binds a handle.
  by_cases hhears : ∃ evt, a.op.hears = some (k, evt)
  · rcases hhears with ⟨evt, hhears⟩
    rcases act_hears t c a h k evt hhears with ⟨gen, rfl, rfl⟩
    have hw : ((client geo).after (Task.dispatchAct k gen evt) s).wire k = .got evt :: s.wire k :=
      run_hears geo _ s k evt hhears (hread k rfl)
    rw [hw]
    cases evt with
    | subscribed sub' deviceUid =>
        by_cases hsub : sub' = sub
        · exact Or.inl ⟨deviceUid, by rw [hsub]; rfl, if_pos hsub⟩
        · refine Or.inr ⟨?_, if_neg hsub⟩
          rintro uid ⟨⟩
          exact hsub rfl
    | _ => exact Or.inr ⟨by rintro _ ⟨⟩, rfl⟩
  · refine Or.inr ⟨?_, (after_quiet geo a s k fun evt he => hhears ⟨evt, he⟩).2 sub⟩
    intro uid hb
    -- What binds is also heard.
    refine hhears ?_
    rcases a with ⟨op, next⟩
    cases op <;> cases hb
    exact ⟨_, rfl⟩

/-- The map stays what its sockets said. -/
theorem step_ownEntries (p : Pool Shared Task) (i : Nat) (c : Input) (t : Task)
    (a : Act Section Task) (b : UInt8 → Option Nat) (ha : t.act c = some a)
    (hread : ∀ k, t.reads = some k → k < p.shared.sockets.length)
    (hI : OwnEntries p.shared b) :
    OwnEntries ((client geo).after a p.shared) (noteBinder p i t a b) := by
  intro sub
  have hmap : ((client geo).after a p.shared).inner.deviceBySub = _ :=
    run_deviceBySub geo a.op p.shared
  have hsame : (∀ k uid, a.op.binds ≠ some (k, sub, uid)) →
      ((b sub).bind fun k => latestDevice sub (((client geo).after a p.shared).wire k)) =
        p.shared.inner.deviceBySub sub := by
    intro hno
    rw [hI sub]
    refine congrArg (b sub).bind (funext fun k => ?_)
    rcases after_latestDevice geo t c a p.shared ha hread k sub with ⟨uid, hb, _⟩ | ⟨_, heq⟩
    · exact absurd hb (hno k uid)
    · exact heq
  rw [hmap]
  unfold noteBinder
  -- The binding of a handle is set by a subscription, dropped when the maps are
  -- cleared, and kept otherwise.
  rcases hbinds : a.op.binds with _ | ⟨sock, sub', uid⟩
  · rcases hclears : a.op.clearsMaps p.shared with _ | _
    · refine (hsame fun k uid hb => ?_).symm
      cases hbinds.symm.trans hb
    · rfl
  · by_cases hsub : sub = sub'
    · subst hsub
      simp only [Function.update_self, Option.bind_some]
      rcases after_latestDevice geo t c a p.shared ha hread sock sub with ⟨uid', hb, heq⟩ | ⟨hno, _⟩
      · cases hbinds.symm.trans hb
        exact heq.symm
      · exact absurd hbinds (hno uid)
    · simp only [Function.update_of_ne hsub]
      refine (hsame fun k uid' hb => ?_).symm
      cases hbinds.symm.trans hb
      exact hsub rfl

/-! ## Deliveries -/

theorem stampedFor_congr (s s' : Shared) (k : Nat) (evt : ServerEvt)
    (hlast : lastGot (s'.wire k) = lastGot (s.wire k))
    (hdev : ∀ sub, latestDevice sub (s'.wire k) = latestDevice sub (s.wire k))
    (h : StampedFor s k evt) : StampedFor s' k evt := by
  intro sub hsub
  rw [hlast, hdev sub]
  exact h sub hsub

/-- What a lookup on its own socket finds. -/
theorem lookup_own (s : Shared) (b : UInt8 → Option Nat) (k : Nat) (evt : ServerEvt) (sub : UInt8)
    (hI : OwnEntries s b) (hcond : (Section.dispatchStamp k evt sub).readsOwn s b = true) :
    s.inner.deviceBySub sub = latestDevice sub (s.wire k) := by
  rw [hI sub]
  unfold Section.readsOwn at hcond
  rcases hb : b sub with _ | k'
  · simp only [hb] at hcond
    rw [Option.isNone_iff_eq_none.mp hcond]
    rfl
  · simp only [hb] at hcond
    rw [beq_iff_eq.mp hcond]
    rfl

/-- The reader of a stamped event goes on to deliver it, stamped for its own
    socket. -/
theorem dispatched_stamped (s : Shared) (b : UInt8 → Option Nat) (k gen : Nat) (msg evt : ServerEvt)
    (hI : OwnEntries s b) (hk : k < s.sockets.length)
    (hcond : (Task.dispatchAct k gen msg).op.readsOwn s b = true)
    (hheir : ((client geo).heir (Task.dispatchAct k gen msg) s).delivering = some (k, evt)) :
    StampedFor ((client geo).after (Task.dispatchAct k gen msg) s) k evt := by
  have hhears : (Task.dispatchAct k gen msg).op.hears = some (k, msg) := by
    cases msg <;> rfl
  have hw : ((client geo).after (Task.dispatchAct k gen msg) s).wire k = .got msg :: s.wire k :=
    run_hears geo _ s k msg hhears hk
  intro sub hsub
  rw [hw]
  refine ⟨msg, rfl, ?_⟩
  -- The three kinds of event that carry a handle are stamped with the entry of the
  -- map, which is the latest device of this very socket.
  cases msg with
  | locationAdded uid trackUid point clientSeq sub' =>
      cases hheir
      cases hsub
      rw [show latestDevice sub
          (.got (.locationAdded uid trackUid point clientSeq sub) :: s.wire k) =
        latestDevice sub (s.wire k) from rfl, ← lookup_own s b k _ sub hI hcond]
      rfl
  | eventAdded uid trackUid payload timestampMs sub' =>
      cases hheir
      cases hsub
      rw [show latestDevice sub
          (.got (.eventAdded uid trackUid payload timestampMs sub) :: s.wire k) =
        latestDevice sub (s.wire k) from rfl, ← lookup_own s b k _ sub hI hcond]
      rfl
  | devicePresence uid online lastSeenMs sub' =>
      cases hheir
      cases hsub
      rw [show latestDevice sub (.got (.devicePresence uid online lastSeenMs sub) :: s.wire k) =
        latestDevice sub (s.wire k) from rfl, ← lookup_own s b k _ sub hI hcond]
      rfl
  | _ =>
      cases hheir <;> cases hsub

theorem delivering_reads (t : Task) (k : Nat) (evt : ServerEvt)
    (h : t.delivering = some (k, evt)) : t.reads = some k := by
  cases t with
  | reader sock gen pc =>
      cases pc with
      | reading => cases h
      | flush cell r forward =>
          rcases forward with _ | evt' <;> cases h
          rfl
      | sending ticket frames cell r forward =>
          rcases forward with _ | evt' <;> cases h
          rfl
      | settle cell r forward =>
          rcases forward with _ | evt' <;> cases h
          rfl
  | _ => cases h

/-- A reader delivers what it has just read, or what it was about to deliver
    before. -/
theorem heir_delivering (t : Task) (c : Input) (a : Act Section Task) (s : Shared)
    (h : t.act c = some a) (k : Nat) (evt : ServerEvt)
    (hd : ((client geo).heir a s).delivering = some (k, evt)) :
    (∃ gen msg, t = .reader k gen .reading ∧ a = Task.dispatchAct k gen msg) ∨
      (t.delivering = some (k, evt) ∧ a.op.hears = none) := by
  rcases (reads_iff t k).mp (heir_reads geo t c a s h k (delivering_reads _ k evt hd)) with
    ⟨gen, pc, rfl⟩
  revert hd
  unfold Machine.heir
  revert h
  simp only [Task.act]
  fun_cases Task.readerAct k gen pc c <;> intro h <;> cases h
  case case1.refl msg => exact fun _ => Or.inl ⟨gen, msg, rfl, rfl⟩
  all_goals
    dsimp only
    (try split) <;> first
      | exact fun hd => Or.inr ⟨hd, rfl⟩
      | rintro ⟨⟩

/-- What is spawned has nothing to deliver. -/
theorem spawned_delivering (t : Task) (c : Input) (a : Act Section Task) (s : Shared)
    (h : t.act c = some a) (u : Task) (hu : u ∈ (client geo).spawned a s) :
    u.delivering = none := by
  rcases spawned_cases geo t c a s h u hu with
    ⟨_, _, _, _, rfl | rfl⟩ | ⟨_, _, _, rfl | rfl | ⟨_, rfl⟩⟩ | ⟨_, _, _, rfl⟩ <;> rfl

/-- What holds of a run: the map is what its sockets said, and whatever a reader
    is about to deliver is stamped for its socket. -/
structure Stamped (p : Pool Shared Task) (b : UInt8 → Option Nat) : Prop where
  own : OwnEntries p.shared b
  pending : ∀ (j : Nat) u k evt, p.tasks[j]? = some u → u.delivering = some (k, evt) →
    StampedFor p.shared k evt

/-- A step keeps everything stamped for its socket. -/
theorem step_stamped (p : Pool Shared Task) (i : Nat) (c : Input) (t : Task)
    (a : Act Section Task) (b : UInt8 → Option Nat) (ht : p.tasks[i]? = some t)
    (ha : t.act c = some a) (hone : OneReader p) (hcond : readsOwnHandle b p i t a = true)
    (hI : Stamped p b) : Stamped ((client geo).resumed p i a) (noteBinder p i t a b) := by
  refine ⟨step_ownEntries geo p i c t a b ha (hone.lt i t ht) hI.own, ?_⟩
  intro j u k evt hu hd
  show StampedFor ((client geo).after a p.shared) k evt
  -- A wire from which this step dispatches nothing keeps its deliveries.
  have hkeep : (∀ msg, a.op.hears ≠ some (k, msg)) → StampedFor p.shared k evt →
      StampedFor ((client geo).after a p.shared) k evt := by
    intro hquiet hold
    rcases after_quiet geo a p.shared k hquiet with ⟨hlast, hdev⟩
    exact stampedFor_congr p.shared _ k evt hlast hdev hold
  rcases (client geo).resumed_get_cases p i j a t u ht hu with
    ⟨rfl, rfl⟩ | ⟨hji, hu'⟩ | ⟨_, hu'⟩
  · rcases heir_delivering geo t c a p.shared ha k evt hd with
      ⟨gen, msg, rfl, rfl⟩ | ⟨hold, hnone⟩
    · exact dispatched_stamped geo p.shared b k gen msg evt hI.own (hone.lt j _ ht k rfl) hcond hd
    · refine hkeep (fun msg hm => ?_) (hI.pending j t k evt ht hold)
      cases hnone.symm.trans hm
  · refine hkeep (fun msg hm => ?_) (hI.pending j u k evt hu' hd)
    -- The only reader of the socket is the one about to deliver.
    rcases act_hears t c a ha k msg hm with ⟨gen, rfl, _⟩
    exact hone.distinct i j _ u (Ne.symm hji) ht hu' k rfl (delivering_reads u k evt hd)
  · rw [spawned_delivering geo t c a p.shared ha u (List.mem_of_getElem? hu')] at hd
    cases hd

/-- What a step puts on the event channel is what its reader was about to
    deliver. -/
theorem delivered_pending (t : Task) (c : Input) (a : Act Section Task) (s : Shared)
    (h : t.act c = some a) (evt : ServerEvt)
    (hq : ((client geo).after a s).recvq = s.recvq ++ [evt]) :
    ∃ k gen pc, t = .reader k gen pc ∧ t.delivering = some (k, evt) := by
  have hlen := congrArg List.length hq
  rw [List.length_append, List.length_singleton] at hlen
  -- The queue has grown, so the step was a `settle` that forwards.
  rcases run_recvq geo a.op s with hr | hr | ⟨evt', hf, hr⟩
  · have hr' : ((client geo).after a s).recvq.length = s.recvq.length := congrArg List.length hr
    omega
  · have hr' : ((client geo).after a s).recvq.length = s.recvq.tail.length :=
      congrArg List.length hr
    rw [List.length_tail] at hr'
    omega
  · have hr' : ((client geo).after a s).recvq = s.recvq ++ [evt'] := hr
    have hevt : evt' = evt := by
      have := hr'.symm.trans hq
      exact List.singleton_inj.mp (List.append_cancel_left this)
    subst hevt
    have hissuer : a.op.issuer = some .reader := by
      rcases a with ⟨op, next⟩
      cases op <;> first | rfl | cases hf
    have hkind := act_issuer t c a h .reader hissuer
    revert hf
    revert h
    cases t with
    | reader sock gen pc =>
        simp only [Task.act]
        fun_cases Task.readerAct sock gen pc c <;> intro h <;> cases h
        case reader.case1.refl msg =>
          intro hf
          cases msg <;> cases hf
        case reader.case6.refl cell r forward =>
          intro hf
          have hforward : forward = some evt' := hf
          rw [hforward]
          exact ⟨sock, gen, _, rfl, rfl⟩
        all_goals rintro ⟨⟩
    | _ => cases hkind

variable (cfg : Config)

/-- Every delivery carries what its own socket said, in every run in which a stamped
    event meets an entry of its own socket. The map of handles is one for all
    sockets, and two sockets may use one number for two devices; after a `Relocate`
    the old one is still read. -/
theorem reach_deliversRight (p : Pool Shared Task) (b : UInt8 → Option Nat)
    (h : (client geo).Tallied (Started cfg) (fun b p i t a => readsOwnHandle b p i t a = true)
      noteBinder (fun _ => none) p b) : DeliversRight geo p := by
  have hI : Stamped p b := by
    refine (client geo).tallied_inv (Started cfg) _ noteBinder _ OneReader
      (fun p hp => reach_oneReader geo cfg _ p hp) Stamped ?_ ?_ ?_ p b h
    · intro p hp
      rcases started_pool cfg p hp with ⟨now, rfl⟩
      refine ⟨fun sub => rfl, fun j u k evt hu hd => ?_⟩
      rw [List.mem_singleton.mp (List.mem_of_getElem? hu)] at hd
      cases hd
    · intro p i c t a b ht ha hcond hone hI
      exact step_stamped geo p i c t a b ht ha hone hcond hI
    · intro p t b hent _ hI
      refine ⟨hI.own, fun j u k evt hu hd => ?_⟩
      rcases List.mem_append.mp (List.mem_of_getElem? hu) with hu' | hu'
      · rcases List.mem_iff_getElem?.mp hu' with ⟨m, hm⟩
        exact hI.pending m u k evt hm hd
      · rw [List.mem_singleton.mp hu'] at hd
        have hkind := call_kind t ((entry_iff geo p.shared t).mp hent).2
        cases (delivering_reads t k evt hd).symm.trans (reads_of_kind t hkind.2.1)
  intro i c t a evt ht ha hq
  -- What is delivered was pending with its reader, and pending events are stamped.
  rcases delivered_pending geo t c a p.shared ha evt hq with ⟨k, gen, pc, rfl, hd⟩
  exact ⟨k, gen, pc, rfl, hI.pending i _ k evt ht hd⟩

end Client

/-- A `Subscribed` for a device without a track. -/
def subscribedTo (sub : UInt8) (deviceUid : String) : ServerEvt :=
  .subscribed sub deviceUid "" none [] 0 0 "" "" [] true none

/-- A location under handle 1. -/
def located (deviceUid : String) : ServerEvt := .locationAdded deviceUid "" (sample 0) 1 1

/-- The first reader, about to deliver it. -/
def delivery (deviceUid : String) : Task :=
  .reader 0 1 (.settle none (.ok {}) (some (located deviceUid)))

/-- While there is room the next step delivers it. -/
theorem delivery_step (deviceUid : String) (s : Shared)
    (h : s.recvq.length < Shared.recvCapacity) :
    ∃ a, (delivery deviceUid).act .go = some a ∧
      ((client flatGeo).after a s).recvq = s.recvq ++ [located deviceUid] := by
  refine ⟨_, rfl, ?_⟩
  have hsettle : settle none (.ok {}) (some (located deviceUid)) s =
      { s with recvq := s.recvq ++ [located deviceUid] } := if_pos h
  exact congrArg Shared.recvq hsettle

/-- The server binds handle 1 to device A. -/
def watching : List (Label Task Input) :=
  opening ++ [.spawn (.subscribe "A"), .resume 3 .go, .resume 3 .go,
    .resume 2 (.frame (subscribedTo 1 "A")), .resume 2 .go]

/-- A location under handle 1 is about to be delivered as one of A. -/
theorem reach_deliversRight_watching :
    ∃ p : Pool Shared Task, p.tasks[2]? = some (delivery "A") ∧ DeliversRight flatGeo p := by
  rcases (client flatGeo).exists_tallied (Started someConfig)
    (fun b p i t a => readsOwnHandle b p i t a = true) noteBinder (fun _ => none) readsOwnHandle
    (fun _ _ _ _ _ h => h) (watching ++ [.resume 2 (.frame (located ""))]) fresh started_fresh
    (fun p _ => decide (p.tasks[2]? = some (delivery "A")))
    (by decide +kernel) with ⟨p, b, hp, hrun⟩
  exact ⟨p, of_decide_eq_true hrun, reach_deliversRight flatGeo someConfig p b hp⟩

/-- A Relocate moves the session. The new server binds handle 1 to device B, and
    then the old socket delivers another location of A. -/
def movedWatching : List (Label Task Input) :=
  watching ++ [.spawn (.subscribe "B"), .resume 4 .go, .resume 4 .go,
    .resume 2 (.frame (.relocate "wss://b" 0)), .resume 5 .go, .resume 5 .go] ++ dialSteps 5 ++
    [.resume 5 .go, .resume 5 .go, .resume 5 .go, .resume 5 .go,
      .resume 7 (.frame (subscribedTo 1 "B")), .resume 7 .go,
      .resume 2 (.frame (located ""))]

/-- The location of A is delivered as one of B. -/
theorem relocated_handle_mixed :
    ¬ ∀ p b, (client flatGeo).Tallied (Started someConfig) (fun _ _ _ _ _ => True) noteBinder
      (fun _ => none) p b → DeliversRight flatGeo p := by
  intro hall
  rcases (client flatGeo).exists_tallied (Started someConfig) (fun _ _ _ _ _ => True) noteBinder
    (fun _ => none) (fun _ _ _ _ _ => true) (fun _ _ _ _ _ _ => trivial) movedWatching fresh
    started_fresh
    (fun p _ => decide (p.tasks[2]? = some (delivery "B") ∧
      p.shared.recvq.length < Shared.recvCapacity ∧
      lastGot (p.shared.wire 0) = some (located "") ∧
      latestDevice 1 (p.shared.wire 0) = some "A"))
    (by decide +kernel) with ⟨p, b, hp, hrun⟩
  rcases of_decide_eq_true hrun with ⟨ht, hroom, hlast, hdev⟩
  rcases delivery_step "B" p.shared hroom with ⟨a, ha, hq⟩
  rcases hall p b hp 2 .go _ a _ ht ha hq with ⟨k, gen, pc, hreader, hstamped⟩
  cases hreader
  rcases hstamped 1 rfl with ⟨raw, hraw, hevt⟩
  rw [hlast, Option.some.injEq] at hraw
  rw [← hraw, hdev] at hevt
  exact absurd hevt (by decide)

end Tracking

end Pickpoint
