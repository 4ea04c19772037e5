import Pickpoint.Streaming.Channel
import Pickpoint.Theory.Handles

/-!
# Delivery of Events and Commands

What becomes of an event or a command between the socket it is read from and the
caller it is handed to.

A session has two ports to its holder, the event channel and the command channel.
Both are bounded channels whose senders do not wait, so a run is watched with a
log of what happened at a port (`Port.note`), and the queue the code keeps is the
queue of the abstract channel run on that log (`Port.Refines`). The two ports
differ in when an offer is made. A command is offered in the block that dispatches
it. An event is offered at the end of `dispatch`, after the flush, so until then
its reader carries it (`Port.pending`).

`reach_refines` is the argument for both. Nothing is lost on the way to a port:
what a socket was heard to say is what its reader has offered and still carries,
in order. With that the facts about bounded channels say what the callers get.

## Main definitions

* `Port`, `Port.Lawful`: A receive channel of a session, and how the sections
  treat it.
* `Port.note`: The log of a port.
* `Port.Refines`: A port is a bounded channel.
* `events`, `commands`: The two ports.
* `heardOn`: What a socket was heard to say.
* `Port.Delivers`: What the callers get.

## Theorems

* `step_refines`: A step is an entry of the log.
* `reach_refines`: Ports are bounded channels in every run.
* `refines_delivers`: What that means for the callers.
* `reach_deliversEvents`, `reach_deliversCommands`: The two ports.
-/

namespace Pickpoint

namespace Tracking

open Interleave
open Streaming

/-- The event of an entry of a wire, if it is one. -/
def Traffic.event? : Traffic → Option ServerEvt
  | .got evt => some evt
  | .sent _ _ => none

/-- What a socket was heard to say of a kind, oldest first. -/
def heardOn (accepts : ServerEvt → Bool) (k : Nat) (s : Shared) : List ServerEvt :=
  ((s.wire k).reverse.filterMap Traffic.event?).filter accepts

theorem heardOn_got (accepts : ServerEvt → Bool) (k : Nat) (s s' : Shared) (evt : ServerEvt)
    (h : s'.wire k = .got evt :: s.wire k) :
    heardOn accepts k s' = heardOn accepts k s ++ [evt].filter accepts := by
  simp only [heardOn, h, List.reverse_cons, List.filterMap_append, List.filter_append,
    List.filterMap_cons, List.filterMap_nil, Traffic.event?]

theorem heardOn_sent (accepts : ServerEvt → Bool) (k : Nat) (s s' : Shared) (out : Outbound)
    (ticket : Option Ticket) (h : s'.wire k = .sent out ticket :: s.wire k) :
    heardOn accepts k s' = heardOn accepts k s := by
  simp only [heardOn, h, List.reverse_cons, List.filterMap_append, List.filterMap_cons,
    List.filterMap_nil, Traffic.event?, List.append_nil]

/-- What a section hears of a kind. -/
def heardBy {β : Type} (accepts : ServerEvt → Bool) (op : Section β) : List ServerEvt :=
  (op.hears.toList.map Prod.snd).filter accepts

/-- What the socket of a reader is heard to say in a step is what its section hears. -/
theorem step_heardOn (geo : Geo) (accepts : ServerEvt → Bool) (s : Shared) (c : Input)
    (t : Task) (a : Act Section Task)
    (ha : t.act c = some a) (k : Nat) (hlt : t.reads = some k → k < s.sockets.length) :
    heardOn accepts k ((client geo).after a s) =
      heardOn accepts k s ++ if t.reads = some k then heardBy accepts a.op else [] := by
  have hkeep : ∀ s' : Shared, s'.wire k = s.wire k →
      heardOn accepts k s' = heardOn accepts k s := fun s' hw => by simp only [heardOn, hw]
  -- A step that hears nothing adds to a wire what it sends, at most.
  rcases hheard : a.op.hears with _ | ⟨j, evt⟩
  · have hnone : heardBy accepts a.op = [] := by simp only [heardBy, hheard]; rfl
    rw [hnone, ite_self, List.append_nil]
    rcases run_wire geo a.op s k with hw | ⟨evt, hop, _⟩ | ⟨out, ticket, _, _, _, hw⟩
    · exact hkeep _ hw
    · cases hheard.symm.trans hop
    · exact heardOn_sent accepts k s _ out ticket hw
  · rcases act_hears t c a ha j evt hheard with ⟨gen, hreader, _⟩
    have hj : t.reads = some j := (reads_iff t j).mpr ⟨gen, .reading, hreader⟩
    have hevt : heardBy accepts a.op = [evt].filter accepts := by simp only [heardBy, hheard]; rfl
    -- What is heard is heard on the socket of the reader.
    by_cases hjk : j = k
    · subst hjk
      rw [if_pos hj, hevt]
      exact heardOn_got accepts j s _ evt (run_hears geo a.op s j evt hheard (hlt hj))
    · rw [if_neg fun h => hjk (Option.some.inj (hj.symm.trans h)), List.append_nil]
      rcases run_wire geo a.op s k with hw | ⟨evt', hop, _⟩ | ⟨out, ticket, _, _, _, hw⟩
      · exact hkeep _ hw
      · cases hheard.symm.trans hop
        exact absurd rfl hjk
      · exact heardOn_sent accepts k s _ out ticket hw

/-! ## Ports -/

/-- A receive channel of a session: its capacity, its queue, what sections offer to
    it, and the calls that take from it. -/
structure Port (α : Type) where
  queue : Shared → List α
  cap : Nat
  /-- What a section offers. -/
  offers : {β : Type} → Section β → Option α
  /-- The section of the receiving call, and what that returns. -/
  takes : {β : Type} → Section β → Bool
  gives : α → Ret
  /-- The events that end up in this channel, and as what. -/
  accepts : ServerEvt → Bool
  rel : ServerEvt → α → Prop
  /-- What a reader has dispatched and not offered yet. -/
  pending : Task → List α

namespace Port

variable {α : Type} (P : Port α)

/-- How the sections and the tasks treat a port: only a reader offers, only a
    receiving call takes, and what is heard is offered once. -/
structure Lawful (geo : Geo) : Prop where
  empty : ∀ cfg now, P.queue { inner := Inner.new cfg now } = []
  offered : ∀ {β : Type} (op : Section β) s x, P.offers op = some x →
    P.takes op = false ∧ P.queue (op.run geo s).1 =
      if (P.queue s).length < P.cap then P.queue s ++ [x] else P.queue s
  taken : ∀ {β : Type} (op : Section β) s, P.takes op = true →
    P.queue (op.run geo s).1 = (P.queue s).tail
  kept : ∀ {β : Type} (op : Section β) s, P.offers op = none → P.takes op = false →
    P.queue (op.run geo s).1 = P.queue s
  /-- The receiving call returns the oldest value, and no other task does. -/
  result : ∀ (t : Task) c (a : Act Section Task) s x, t.act c = some a →
    ((client geo).heir a s = .returned (P.gives x) ↔
      P.takes a.op = true ∧ (P.queue s).head? = some x)
  carried : ∀ t : Task, t.reads = none → P.pending t = []
  reader : ∀ (t : Task) c a, t.act c = some a → t.reads = none → P.offers a.op = none
  fresh : ∀ (t : Task) c a s u, t.act c = some a → u ∈ (client geo).spawned a s →
    P.pending u = []
  /-- What a reader carries and hears, it offers or goes on carrying. -/
  balance : ∀ (t : Task) c a s, t.act c = some a →
    ∃ xs, List.Forall₂ P.rel (heardBy P.accepts a.op) xs ∧
      P.pending t ++ xs = (P.offers a.op).toList ++ P.pending ((client geo).heir a s)

/-- The log of a port: who offered what, and which call took. -/
def note (_ : Pool Shared Task) (i : Nat) (t : Task) (a : Act Section Task)
    (log : List (Entry Nat Nat α)) : List (Entry Nat Nat α) :=
  match P.offers a.op, t.reads with
  | some x, some k => log ++ [.offer k x]
  | _, _ => if P.takes a.op then log ++ [.take i] else log

/-- What a task carries from a socket. -/
def pendingOn (k : Nat) (t : Task) : List α := if t.reads = some k then P.pending t else []

/-- A port is a bounded channel: its queue is what the log makes of it, the calls
    that returned are those that took, and what its readers were heard to dispatch
    they have offered or still carry. -/
structure Refines (p : Pool Shared Task) (log : List (Entry Nat Nat α)) : Prop where
  queued : P.queue p.shared = (Chan.run P.cap log).queue.map Prod.snd
  received : ∀ i x, p.tasks[i]? = some (.returned (P.gives x)) ↔
    ∃ k, (i, k, x) ∈ (Chan.run P.cap log).taken
  once : ((Chan.run P.cap log).taken.map Prod.fst).Nodup
  heard : ∀ k, List.Forall₂ P.rel (heardOn P.accepts k p.shared)
    (offeredBy k log ++ p.tasks.flatMap (P.pendingOn k))

/-! ## One step -/

section Client

variable (geo : Geo) (hP : P.Lawful geo)

/-- An entry of the log is an offer of a reader or a receive, if it is one. -/
theorem note_cases (p : Pool Shared Task) (i : Nat) (c : Input) (t : Task)
    (a : Act Section Task) (ha : t.act c = some a) (log : List (Entry Nat Nat α))
    (hP : P.Lawful geo) :
    (∃ k x, t.reads = some k ∧ P.offers a.op = some x ∧ P.takes a.op = false ∧
        P.note p i t a log = log ++ [.offer k x]) ∨
      (P.offers a.op = none ∧ P.takes a.op = true ∧ P.note p i t a log = log ++ [.take i]) ∨
      (P.offers a.op = none ∧ P.takes a.op = false ∧ P.note p i t a log = log) := by
  rcases hoffer : P.offers a.op with _ | x
  · by_cases htake : P.takes a.op = true
    · exact Or.inr (Or.inl ⟨rfl, htake, by simp only [note, hoffer, if_pos htake]⟩)
    · exact Or.inr (Or.inr ⟨rfl, Bool.not_eq_true _ ▸ htake, by
        simp only [note, hoffer, if_neg htake]⟩)
  · rcases hreads : t.reads with _ | k
    · cases hoffer.symm.trans (hP.reader t c a ha hreads)
    · exact Or.inl ⟨k, x, rfl, rfl, (hP.offered a.op p.shared x hoffer).1, by
        simp only [note, hoffer, hreads]⟩

include hP

/-- The queue after a step. -/
theorem step_queued (p : Pool Shared Task) (i : Nat) (c : Input) (t : Task)
    (a : Act Section Task) (ha : t.act c = some a) (log : List (Entry Nat Nat α))
    (h : P.queue p.shared = (Chan.run P.cap log).queue.map Prod.snd) :
    P.queue ((client geo).after a p.shared) =
      (Chan.run P.cap (P.note p i t a log)).queue.map Prod.snd := by
  -- An offer, a take, or neither.
  rcases P.note_cases geo p i c t a ha log hP with
    ⟨k, x, _, hoffer, _, hnote⟩ | ⟨_, htake, hnote⟩ | ⟨hoffer, htake, hnote⟩
  · have hqueue : P.queue ((client geo).after a p.shared) = _ :=
      (hP.offered a.op p.shared x hoffer).2
    rw [hnote, run_concat, hqueue, h]
    -- The port and the queue have room at the same time.
    by_cases hroom : (Chan.run P.cap log).queue.length < P.cap
    · simp only [Chan.step, List.length_map, if_pos hroom, List.map_append, List.map_cons,
        List.map_nil]
    · simp only [Chan.step, List.length_map, if_neg hroom]
  · have hqueue : P.queue ((client geo).after a p.shared) = _ := hP.taken a.op p.shared htake
    rw [hnote, run_concat, hqueue, h]
    rcases hq : (Chan.run P.cap log).queue with _ | ⟨y, ys⟩
    · simp only [Chan.step, hq, List.map_nil, List.tail_nil]
    · simp only [Chan.step, hq, List.map_cons, List.tail_cons]
  · have hqueue : P.queue ((client geo).after a p.shared) = _ :=
      hP.kept a.op p.shared hoffer htake
    rw [hnote, hqueue, h]

/-- What a step adds to what was taken: what the call that stepped returns. -/
theorem step_taken (p : Pool Shared Task) (i : Nat) (c : Input) (t : Task)
    (a : Act Section Task) (ha : t.act c = some a) (log : List (Entry Nat Nat α))
    (h : P.queue p.shared = (Chan.run P.cap log).queue.map Prod.snd) :
    ((Chan.run P.cap (P.note p i t a log)).taken = (Chan.run P.cap log).taken ∧
        ∀ x, (client geo).heir a p.shared ≠ .returned (P.gives x)) ∨
      ∃ k x, (Chan.run P.cap (P.note p i t a log)).taken =
          (Chan.run P.cap log).taken ++ [(i, k, x)] ∧
        ∀ y, (client geo).heir a p.shared = .returned (P.gives y) ↔ y = x := by
  have hresult := hP.result t c a p.shared
  -- Only a take gives a call its result, and then the head of the queue.
  rcases P.note_cases geo p i c t a ha log hP with
    ⟨k, x, _, hoffer, htake, hnote⟩ | ⟨_, htake, hnote⟩ | ⟨hoffer, htake, hnote⟩
  · refine Or.inl ⟨?_, fun y hy => ?_⟩
    · rw [hnote, run_concat, Chan.step]
      split <;> rfl
    · cases htake.symm.trans ((hresult y ha).mp hy).1
  · rcases hq : (Chan.run P.cap log).queue with _ | ⟨⟨k, x⟩, ys⟩
    · rw [hq] at h
      refine Or.inl ⟨by simp only [hnote, run_concat, Chan.step, hq], fun y hy => ?_⟩
      have hhead := ((hresult y ha).mp hy).2
      rw [h] at hhead
      cases hhead
    · rw [hq] at h
      refine Or.inr ⟨k, x, by simp only [hnote, run_concat, Chan.step, hq], fun y => ?_⟩
      rw [hresult y ha, h, List.map_cons, List.head?_cons, Option.some.injEq]
      exact ⟨fun hy => hy.2.symm, fun hy => ⟨htake, hy.symm⟩⟩
  · refine Or.inl ⟨by rw [hnote], fun y hy => ?_⟩
    cases htake.symm.trans ((hresult y ha).mp hy).1

/-- What a socket was heard to say stays what its reader offered and still carries. -/
theorem step_heard (p : Pool Shared Task) (i : Nat) (c : Input) (t : Task)
    (a : Act Section Task) (ht : p.tasks[i]? = some t) (ha : t.act c = some a)
    (hone : OneReader p) (log : List (Entry Nat Nat α)) (k : Nat)
    (h : List.Forall₂ P.rel (heardOn P.accepts k p.shared)
      (offeredBy k log ++ p.tasks.flatMap (P.pendingOn k))) :
    List.Forall₂ P.rel (heardOn P.accepts k ((client geo).after a p.shared))
      (offeredBy k (P.note p i t a log) ++
        ((client geo).resumed p i a).tasks.flatMap (P.pendingOn k)) := by
  -- Tasks that a step spawns carry nothing.
  have hnew : ∀ u ∈ (client geo).spawned a p.shared, P.pendingOn k u = [] := by
    intro u hu
    simp only [pendingOn, hP.fresh t c a p.shared u ha hu, ite_self]
  have hheir : t.reads ≠ some k → ((client geo).heir a p.shared).reads ≠ some k :=
    fun hne hk => hne (heir_reads geo t c a p.shared ha k hk)
  rw [step_heardOn geo P.accepts p.shared c t a ha k (hone.lt i t ht k)]
  by_cases hk : t.reads = some k
  · -- The reader of the socket steps, and nobody else carries anything from it.
    have hothers : ∀ (j : Nat) u, j ≠ i → p.tasks[j]? = some u → P.pendingOn k u = [] :=
      fun j u hji hu => if_neg fun hu' => hone.distinct j i u t hji hu ht k hu' hk
    have hbefore := Machine.flatMap_single (P.pendingOn k) p.tasks i t ht hothers
    have hafter := Machine.flatMap_single (P.pendingOn k) ((client geo).resumed p i a).tasks i _
      ((client geo).resumed_get_self p i a t ht) (fun j u hji hu => by
        rcases (client geo).resumed_get_cases p i j a t u ht hu with ⟨rfl, _⟩ | ⟨_, hu'⟩ | ⟨_, hu'⟩
        · exact absurd rfl hji
        · exact hothers j u hji hu'
        · exact hnew u (List.mem_of_getElem? hu'))
    have hown : P.pendingOn k ((client geo).heir a p.shared) =
        P.pending ((client geo).heir a p.shared) := by
      by_cases hk' : ((client geo).heir a p.shared).reads = some k
      · exact if_pos hk'
      · have hnone : ((client geo).heir a p.shared).reads = none := by
          rcases hr : ((client geo).heir a p.shared).reads with _ | k'
          · rfl
          · rw [heir_reads geo t c a p.shared ha k' hr] at hk
            exact absurd (hr.trans hk) hk'
        rw [pendingOn, if_neg hk', hP.carried _ hnone]
    have hoffer : offeredBy k (P.note p i t a log) =
        offeredBy k log ++ (P.offers a.op).toList := by
      rcases P.note_cases geo p i c t a ha log hP with
        ⟨j, x, hj, hoffer, _, hnote⟩ | ⟨hoffer, _, hnote⟩ | ⟨hoffer, _, hnote⟩
      · cases hk.symm.trans hj
        rw [hnote, offeredBy_concat, offeredBy_offer, if_pos rfl, hoffer, Option.toList_some]
      · rw [hnote, offeredBy_concat, hoffer]
        rfl
      · rw [hnote, hoffer, Option.toList_none, List.append_nil]
    rcases hP.balance t c a p.shared ha with ⟨xs, hxs, hsame⟩
    rw [hbefore, pendingOn, if_pos hk] at h
    rw [if_pos hk, hafter, hown, hoffer, List.append_assoc, ← hsame, ← List.append_assoc]
    exact List.rel_append h hxs
  · -- Somebody else steps, so nothing moves on this socket.
    have hoffer : offeredBy k (P.note p i t a log) = offeredBy k log := by
      rcases P.note_cases geo p i c t a ha log hP with
        ⟨j, x, hj, _, _, hnote⟩ | ⟨_, _, hnote⟩ | ⟨_, _, hnote⟩
      · have hjk : j ≠ k := fun h => hk (h ▸ hj)
        rw [hnote, offeredBy_concat, offeredBy_offer, if_neg hjk, List.append_nil]
      · rw [hnote, offeredBy_concat]
        exact List.append_nil _
      · rw [hnote]
    have hcarry := (client geo).resumed_flatMap p i a t ht (P.pendingOn k)
      ((if_neg (hheir hk)).trans (if_neg hk).symm) hnew
    rw [if_neg hk, List.append_nil, hoffer, hcarry]
    exact h

/-- The calls that returned stay those that took. -/
theorem step_received (p : Pool Shared Task) (i : Nat) (c : Input) (t : Task)
    (a : Act Section Task) (ht : p.tasks[i]? = some t) (ha : t.act c = some a)
    (log : List (Entry Nat Nat α)) (h : P.Refines p log) (j : Nat) (x : α) :
    ((client geo).resumed p i a).tasks[j]? = some (.returned (P.gives x)) ↔
      ∃ k, (j, k, x) ∈ (Chan.run P.cap (P.note p i t a log)).taken := by
  -- A call that has returned takes no further step.
  have hlive : ∀ r, t ≠ .returned r := by
    rintro r rfl
    cases c <;> cases ha
  have hself := (client geo).resumed_get_self p i a t ht
  have hold : j ≠ i →
      (((client geo).resumed p i a).tasks[j]? = some (.returned (P.gives x)) ↔
        p.tasks[j]? = some (.returned (P.gives x))) := by
    refine fun hji => ⟨fun hj => ?_, (client geo).resumed_get_other p i j a _ hji⟩
    rcases (client geo).resumed_get_cases p i j a t _ ht hj with ⟨hji', _⟩ | ⟨_, hj'⟩ | ⟨_, hj'⟩
    · exact absurd hji' hji
    · exact hj'
    · rcases spawned_cases geo t c a p.shared ha _ (List.mem_of_getElem? hj') with
        ⟨_, _, _, _, h | h⟩ | ⟨_, _, _, h | h | ⟨_, h⟩⟩ | ⟨_, _, _, h⟩ <;> cases h
  have hnone : ∀ k, (i, k, x) ∉ (Chan.run P.cap log).taken := by
    intro k hk
    have hi := (h.received i x).mpr ⟨k, hk⟩
    rw [ht, Option.some.injEq] at hi
    exact hlive _ hi
  by_cases hji : j = i
  · subst hji
    rw [hself, Option.some.injEq]
    rcases P.step_taken geo hP p j c t a ha log h.queued with ⟨hsame, hno⟩ | ⟨k, y, htook, hyes⟩
    · rw [hsame]
      exact ⟨fun hx => absurd hx (hno x), fun ⟨k, hk⟩ => absurd hk (hnone k)⟩
    · rw [htook, hyes x]
      constructor
      · rintro rfl
        exact ⟨k, List.mem_append_right _ (List.mem_singleton_self _)⟩
      · rintro ⟨k', hk'⟩
        rcases List.mem_append.mp hk' with hk' | hk'
        · exact absurd hk' (hnone k')
        · cases List.mem_singleton.mp hk'
          rfl
  · rw [hold hji, h.received j x]
    rcases P.step_taken geo hP p i c t a ha log h.queued with ⟨hsame, _⟩ | ⟨k, y, htook, _⟩
    · rw [hsame]
    · rw [htook]
      refine exists_congr fun k' => ⟨fun hk' => List.mem_append_left _ hk', fun hk' => ?_⟩
      rcases List.mem_append.mp hk' with hk' | hk'
      · exact hk'
      · cases List.mem_singleton.mp hk'
        exact absurd rfl hji

/-- No call takes twice. -/
theorem step_once (p : Pool Shared Task) (i : Nat) (c : Input) (t : Task)
    (a : Act Section Task) (ht : p.tasks[i]? = some t) (ha : t.act c = some a)
    (log : List (Entry Nat Nat α)) (h : P.Refines p log) :
    ((Chan.run P.cap (P.note p i t a log)).taken.map Prod.fst).Nodup := by
  rcases P.step_taken geo hP p i c t a ha log h.queued with ⟨hsame, _⟩ | ⟨k, y, htook, _⟩
  · rw [hsame]
    exact h.once
  · rw [htook, List.map_append]
    refine List.Nodup.append h.once (List.nodup_singleton _) fun j hj hi => ?_
    cases List.mem_singleton.mp hi
    rcases List.mem_map.mp hj with ⟨⟨j, k', x⟩, hmem, hji⟩
    dsimp only at hji
    subst hji
    -- The call that takes now is still running.
    have hj := (h.received j x).mpr ⟨k', hmem⟩
    rw [ht, Option.some.injEq] at hj
    subst hj
    cases c <;> cases ha

/-- A step is an entry of the log, if it is one at the port at all. -/
theorem step_refines (p : Pool Shared Task) (i : Nat) (c : Input) (t : Task)
    (a : Act Section Task) (ht : p.tasks[i]? = some t) (ha : t.act c = some a)
    (hone : OneReader p) (log : List (Entry Nat Nat α)) (h : P.Refines p log) :
    P.Refines ((client geo).resumed p i a) (P.note p i t a log) where
  queued := P.step_queued geo hP p i c t a ha log h.queued
  received := P.step_received geo hP p i c t a ht ha log h
  once := P.step_once geo hP p i c t a ht ha log h
  heard k := P.step_heard geo hP p i c t a ht ha hone log k (h.heard k)

/-! ## Runs -/

variable (cfg : Config) (C : List (Entry Nat Nat α) → Pool Shared Task → Nat → Task →
  Act Section Task → Prop)

theorem started_refines (p : Pool Shared Task) (h : Started cfg p) : P.Refines p [] := by
  rcases started_pool cfg p h with ⟨now, rfl⟩
  refine ⟨hP.empty cfg now, fun i x => ⟨fun hi => ?_, fun ⟨_, hk⟩ => by cases hk⟩,
    List.nodup_nil, fun k => ?_⟩
  · cases List.mem_singleton.mp (List.mem_of_getElem? hi)
  · exact List.Forall₂.nil

omit hP in
/-- A call that comes in holds nothing yet. -/
theorem entered_refines (p : Pool Shared Task) (t : Task) (hent : (client geo).entry p.shared t)
    (log : List (Entry Nat Nat α)) (h : P.Refines p log) :
    P.Refines { p with tasks := p.tasks ++ [t] } log := by
  have hcall := ((entry_iff geo p.shared t).mp hent).2
  refine ⟨h.queued, fun i x => ?_, h.once, fun k => ?_⟩
  · rw [← h.received i x]
    refine ⟨fun hi => ?_, Machine.entered_get_old p.tasks t _ i⟩
    rcases Machine.entered_get_cases p.tasks t _ i hi with hi' | rfl
    · exact hi'
    · cases hcall
  · have hnone : P.pendingOn k t = [] := by
      refine if_neg fun hk => ?_
      rw [reads_of_kind t (call_kind t hcall).2.1] at hk
      cases hk
    rw [List.flatMap_append, List.flatMap_singleton, hnone, List.append_nil]
    exact h.heard k

/-- Ports are bounded channels in every run. -/
theorem reach_refines (p : Pool Shared Task) (log : List (Entry Nat Nat α))
    (h : (client geo).Tallied (Started cfg) C P.note [] p log) : P.Refines p log :=
  (client geo).tallied_inv (Started cfg) C P.note [] OneReader
    (fun p h => reach_oneReader geo cfg _ p h) P.Refines
    (fun p hp => P.started_refines geo hP cfg p hp)
    (fun p i c t a log ht ha _ hone h => P.step_refines geo hP p i c t a ht ha hone log h)
    (fun p t log hent _ h => P.entered_refines geo p t hent log h) p log h

end Client

/-! ## What the callers get -/

/-- What the callers of a port get: of each socket a part of what it said, in order,
    and nothing is lost while there is room. -/
structure Delivers (p : Pool Shared Task) (log : List (Entry Nat Nat α)) : Prop where
  refines : P.Refines p log
  bounded : (P.queue p.shared).length ≤ P.cap
  /-- Of each socket, the callers got part of what it was heard to say, in order. -/
  inOrder : ∀ k, ∃ evts, evts.Sublist (heardOn P.accepts k p.shared) ∧
    List.Forall₂ P.rel evts (takenFrom k (Chan.run P.cap log))
  /-- An offer is lost only if it found the channel full. -/
  lossless : Roomy P.cap log →
    (Chan.run P.cap log).taken.map Prod.snd ++ (Chan.run P.cap log).queue = offered log

theorem refines_delivers (p : Pool Shared Task) (log : List (Entry Nat Nat α))
    (h : P.Refines p log) : P.Delivers p log where
  refines := h
  bounded := by
    rw [h.queued, List.length_map]
    exact run_bounded P.cap log
  inOrder k := forall₂_sublist P.rel _ _ _ (h.heard k)
    ((taken_offered P.cap log k).trans (List.sublist_append_left _ _))
  lossless hroomy := run_lossless P.cap log hroomy

end Port

/-! ## The two ports -/

/-- The answers of the two receiving calls. -/
def Ret.received : Ret → Bool
  | .recv _ | .recvCommand _ => true
  | _ => false

/-- Only the receiving calls return what was received. -/
theorem next_received (t : Task) (c : Input) (a : Act Section Task) (h : t.act c = some a)
    (r : a.α) (ret : Ret) (hret : (a.next r).1 = .returned ret) (hrec : ret.received = true) :
    t.kind = .recv := by
  revert hret
  revert h
  cases t with
  -- A task of another kind returns something else, or nothing.
  | dial owner pc =>
      simp only [Task.act]
      fun_cases Task.dialAct owner pc c <;> intro h <;> cases h <;> dsimp only <;>
        (try split) <;> intro hret <;> cases hret <;> cases hrec
  | reader sock gen pc =>
      simp only [Task.act]
      fun_cases Task.readerAct sock gen pc c <;> intro h <;> cases h
      case reader.case1.refl msg =>
        intro hret
        rcases dispatchAct_next sock gen msg r with ⟨pc, hpc⟩
        cases hpc.symm.trans hret
      all_goals
        dsimp only
        (try split) <;> intro hret <;> cases hret <;> cases hrec
  | authError gen pc =>
      simp only [Task.act]
      fun_cases Task.authAct gen pc c <;> intro h <;> cases h <;> dsimp only <;>
        (try split) <;> intro hret <;> cases hret <;> cases hrec
  | publish pc =>
      simp only [Task.act]
      fun_cases Task.publishAct pc c <;> intro h <;> cases h <;> dsimp only <;>
        (try split) <;> intro hret <;> cases hret <;> cases hrec
  | startTrack pc =>
      simp only [Task.act]
      fun_cases Task.startTrackAct pc c <;> intro h <;> cases h <;> dsimp only <;>
        (try split) <;> intro hret <;> cases hret <;> cases hrec
  | resume uid seq pc =>
      simp only [Task.act]
      fun_cases Task.resumeAct uid seq pc c <;> intro h <;> cases h <;> dsimp only <;>
        (try split) <;> (try split) <;> intro hret <;> cases hret <;> cases hrec
  | stopTrack pc =>
      simp only [Task.act]
      fun_cases Task.stopTrackAct pc c <;> intro h <;> cases h <;> dsimp only <;>
        (try split) <;> (try split) <;> intro hret <;> cases hret <;> cases hrec
  | sendEvent pc =>
      simp only [Task.act]
      fun_cases Task.sendEventAct pc c <;> intro h <;> cases h <;> dsimp only <;>
        (try split) <;> intro hret <;> cases hret <;> cases hrec
  | close pc =>
      simp only [Task.act]
      fun_cases Task.closeAct pc c <;> intro h <;> cases h <;> intro hret <;> cases hret
      cases hrec
  | recv => exact fun _ _ => rfl
  | recvCommand => exact fun _ _ => rfl
  | returned r => cases c <;> intro h <;> cases h
  | _ =>
      cases c <;> intro h <;> cases h
      dsimp only
      (try split) <;> intro hret <;> cases hret <;> cases hrec

/-- A receive is the whole of its call. -/
theorem recv_act (t : Task) (c : Input) (a : Act Section Task) (h : t.act c = some a)
    (hk : t.kind = .recv) :
    (t = .recv ∧ a = ⟨.recv, fun
        | some evt => (.returned (.recv evt), [])
        | none => (.recv, [])⟩) ∨
      (t = .recvCommand ∧ a = ⟨.recvCommand, fun
        | some c => (.returned (.recvCommand c), [])
        | none => (.recvCommand, [])⟩) := by
  cases t with
  | recv =>
      cases c <;> cases h
      exact Or.inl ⟨rfl, rfl⟩
  | recvCommand =>
      cases c <;> cases h
      exact Or.inr ⟨rfl, rfl⟩
  | _ => cases hk

/-- The events `dispatch` passes on. -/
def ServerEvt.passes : ServerEvt → Bool
  | .relocate _ _ => false
  | .ack _ => false
  | .command _ _ _ => false
  | _ => true

/-- The event channel. -/
def events : Port ServerEvt where
  queue := Shared.recvq
  cap := Shared.recvCapacity
  offers := Section.forwards
  takes
    | .recv => true
    | _ => false
  gives := .recv
  accepts := ServerEvt.passes
  rel raw evt := ∃ uid, evt = raw.stamp uid
  pending t := t.delivering.toList.map Prod.snd

/-- The command channel. -/
def commands : Port Command where
  queue := Shared.cmdq
  cap := Shared.cmdCapacity
  offers
    | .dispatchCommand _ c => some c
    | _ => none
  takes
    | .recvCommand => true
    | _ => false
  gives := .recvCommand
  accepts
    | .command _ _ _ => true
    | _ => false
  rel evt c := evt = .command c.commandId c.payload c.timestampMs
  pending _ := []

section Lawful

variable (geo : Geo)

omit geo in
/-- Only a reader carries an event. -/
theorem events_carried (t : Task) (h : t.reads = none) : events.pending t = [] := by
  cases t with
  | reader sock gen pc => cases h
  | _ => rfl

omit geo in
/-- Only a reader offers one. -/
theorem events_reader (t : Task) (c : Input) (a : Act Section Task) (h : t.act c = some a)
    (hr : t.reads = none) : events.offers a.op = none := by
  rcases hoffer : events.offers a.op with _ | evt
  · rfl
  · have hkind := act_issuer t c a h .reader (by
      rcases a with ⟨op, next⟩
      cases op <;> first | rfl | cases hoffer)
    cases t with
    | reader sock gen pc => cases hr
    | _ => cases hkind

/-- A reader that dispatches nothing carries its event until it offers it. -/
theorem unheard_carried (t : Task) (c : Input) (a : Act Section Task) (s : Shared)
    (h : t.act c = some a) (hnone : a.op.hears = none) :
    events.pending t = (events.offers a.op).toList ++ events.pending ((client geo).heir a s) := by
  -- Only a reader carries an event.
  by_cases hreads : t.reads = none
  · have hheir : ((client geo).heir a s).reads = none := by
      rcases hr : ((client geo).heir a s).reads with _ | k
      · rfl
      · cases hreads.symm.trans (heir_reads geo t c a s h k hr)
    rw [events_carried t hreads, events_carried _ hheir, events_reader t c a h hreads]
    rfl
  · revert hnone
    revert h
    cases t with
    | reader sock gen pc =>
        simp only [Task.act]
        fun_cases Task.readerAct sock gen pc c <;> intro h <;> cases h
        -- Each frame is heard as it is dispatched.
        case reader.case1.refl msg => cases msg <;> rintro ⟨⟩
        -- After its flush the reader offers what it carried.
        case reader.case6.refl cell r forward =>
          intro _
          cases forward <;> rfl
        all_goals
          intro _
          unfold Machine.heir
          dsimp only
          (try split) <;> rfl
    | _ => exact absurd rfl hreads

theorem commands_lawful : commands.Lawful geo where
  empty _ _ := rfl
  offered op s x h := by
    cases op <;> cases h
    exact ⟨rfl, dispatchCommand_cmdq _ _ s⟩
  taken op s h := by
    cases op <;> cases h
    rfl
  -- `settle` offers to the other port, and `recv` takes from it.
  kept op s hoffer htake := by
    by_cases hports : op.ports = true
    · cases op with
      | settle cell r forward =>
          rcases forward with _ | evt
          · simp only [commands, Section.run, settle, Shared.resolve_frame]
          · simp only [commands, Section.run, settle, Shared.resolve_frame]
            split <;> simp only [Shared.resolve_frame]
      | recv => rfl
      | dispatchCommand sock c => cases hoffer
      | recvCommand => cases htake
      | _ => cases hports
    · exact (run_ports geo op s (Bool.not_eq_true _ ▸ hports)).2
  result t c a s x h := by
    constructor
    · intro hret
      rcases recv_act t c a h (next_received t c a h _ _ hret rfl) with ⟨rfl, rfl⟩ | ⟨rfl, rfl⟩
      · rcases hq : s.recvq.head? with _ | evt <;>
          simp only [Machine.heir, client, Section.run, Tracking.recv, hq] at hret <;> cases hret
      · rcases hq : s.cmdq.head? with _ | cmd <;>
          simp only [Machine.heir, client, Section.run, Tracking.recvCommand, hq] at hret <;>
          cases hret
        exact ⟨rfl, hq⟩
    · rintro ⟨htake, hq⟩
      rcases recv_act t c a h (act_issuer t c a h .recv (by
        rcases a with ⟨op, next⟩
        cases op <;> first | rfl | cases htake)) with ⟨rfl, rfl⟩ | ⟨rfl, rfl⟩
      · cases htake
      · simp only [commands] at hq
        simp only [Machine.heir, client, Section.run, Tracking.recvCommand, hq]
        rfl
  carried _ _ := rfl
  -- Only a reader offers a command, when it dispatches one.
  reader t c a h hr := by
    rcases hoffer : commands.offers a.op with _ | cmd
    · rfl
    · have hheard : ∃ k evt, a.op.hears = some (k, evt) := by
        rcases a with ⟨op, next⟩
        cases op <;> cases hoffer
        exact ⟨_, _, rfl⟩
      rcases hheard with ⟨k, evt, hheard⟩
      rcases act_hears t c a h k evt hheard with ⟨gen, rfl, _⟩
      cases hr
  fresh _ _ _ _ _ _ _ := rfl
  -- A command is offered in the step that hears it, so none is ever carried.
  balance t c a s h := by
    rcases hheard : a.op.hears with _ | ⟨k, evt⟩
    · refine ⟨[], ?_, ?_⟩
      · simp only [heardBy, hheard]
        exact .nil
      · rcases a with ⟨op, next⟩
        cases op <;> first | rfl | cases hheard
    · rcases act_hears t c a h k evt hheard with ⟨gen, rfl, rfl⟩
      cases evt with
      | command id payload ts => exact ⟨[⟨id, payload, ts⟩], .cons rfl .nil, rfl⟩
      | _ => exact ⟨[], .nil, rfl⟩

theorem events_lawful : events.Lawful geo where
  empty _ _ := rfl
  offered op s x h := by
    cases op <;> cases h
    exact ⟨rfl, settle_recvq _ _ x s⟩
  taken op s h := by
    cases op <;> cases h
    rfl
  -- `dispatchCommand` offers to the other port, and `recvCommand` takes from it.
  kept op s hoffer htake := by
    by_cases hports : op.ports = true
    · cases op with
      | settle cell r forward =>
          cases hoffer
          simp only [events, Section.run, settle, Shared.resolve_frame]
      | recv => cases htake
      | dispatchCommand sock c => exact (run_standsBy geo (.dispatchCommand sock c) s rfl).2.1
      | recvCommand => rfl
      | _ => cases hports
    · exact (run_ports geo op s (Bool.not_eq_true _ ▸ hports)).1
  result t c a s x h := by
    constructor
    · intro hret
      rcases recv_act t c a h (next_received t c a h _ _ hret rfl) with ⟨rfl, rfl⟩ | ⟨rfl, rfl⟩
      · rcases hq : s.recvq.head? with _ | evt <;>
          simp only [Machine.heir, client, Section.run, Tracking.recv, hq] at hret <;> cases hret
        exact ⟨rfl, hq⟩
      · rcases hq : s.cmdq.head? with _ | cmd <;>
          simp only [Machine.heir, client, Section.run, Tracking.recvCommand, hq] at hret <;>
          cases hret
    · rintro ⟨htake, hq⟩
      rcases recv_act t c a h (act_issuer t c a h .recv (by
        rcases a with ⟨op, next⟩
        cases op <;> first | rfl | cases htake)) with ⟨rfl, rfl⟩ | ⟨rfl, rfl⟩
      · simp only [events] at hq
        simp only [Machine.heir, client, Section.run, Tracking.recv, hq]
        rfl
      · cases htake
  carried := events_carried
  reader := events_reader
  fresh t c a s u h hu := by
    rcases spawned_cases geo t c a s h u hu with
      ⟨_, _, _, _, rfl | rfl⟩ | ⟨_, _, _, rfl | rfl | ⟨_, rfl⟩⟩ | ⟨_, _, _, rfl⟩ <;> rfl
  -- An event that is heard is carried by the reader until `settle` offers it.
  balance t c a s h := by
    rcases hheard : a.op.hears with _ | ⟨k, evt⟩
    · refine ⟨[], ?_, ?_⟩
      · simp only [heardBy, hheard]
        exact .nil
      · rw [List.append_nil]
        exact unheard_carried geo t c a s h hheard
    · rcases act_hears t c a h k evt hheard with ⟨gen, rfl, rfl⟩
      cases evt with
      | relocate endpoint ms => exact ⟨[], .nil, rfl⟩
      | ack seq => exact ⟨[], .nil, rfl⟩
      | command id payload ts => exact ⟨[], .nil, rfl⟩
      | locationAdded d uid point seq sub => exact ⟨[_], .cons ⟨_, rfl⟩ .nil, rfl⟩
      | eventAdded d uid payload ts sub => exact ⟨[_], .cons ⟨_, rfl⟩ .nil, rfl⟩
      | devicePresence d online ms sub => exact ⟨[_], .cons ⟨_, rfl⟩ .nil, rfl⟩
      | _ => exact ⟨[_], .cons ⟨"", rfl⟩ .nil, rfl⟩

end Lawful

section Runs

variable (geo : Geo) (cfg : Config)

/-- Events reach the callers of `recv` in the order of their sockets, each at most
    once, and are lost only when 64 of them wait. The channel is an instance of the
    bounded queue, with the sockets as the sources of what is offered. -/
theorem reach_deliversEvents (C : List (Entry Nat Nat ServerEvt) → Pool Shared Task → Nat →
    Task → Act Section Task → Prop) (p : Pool Shared Task) (log : List (Entry Nat Nat ServerEvt))
    (h : (client geo).Tallied (Started cfg) C events.note [] p log) : events.Delivers p log :=
  events.refines_delivers p log (events.reach_refines geo (events_lawful geo) cfg C p log h)

/-- The same of the callers of `recv_command`, when 16 commands wait: the law is
    that of the bounded queue, with another capacity. -/
theorem reach_deliversCommands (C : List (Entry Nat Nat Command) → Pool Shared Task → Nat →
    Task → Act Section Task → Prop) (p : Pool Shared Task) (log : List (Entry Nat Nat Command))
    (h : (client geo).Tallied (Started cfg) C commands.note [] p log) :
    commands.Delivers p log :=
  commands.refines_delivers p log
    (commands.reach_refines geo (commands_lawful geo) cfg C p log h)

end Runs

/-- A device comes online while a caller waits for the next event. -/
def receiving : List (Label Task Input) :=
  opening ++ [.spawn .recv, .resume 2 (.frame (.devicePresence "A" true (some 0) 1)),
    .resume 2 .go, .resume 3 .go]

theorem receiving_delivers :
    ∃ p log, events.Delivers p log ∧
      p.tasks[3]? = some (.returned (.recv (.devicePresence "A" true (some 0) 1))) := by
  rcases (client flatGeo).exists_tallied (Started someConfig) (fun _ _ _ _ _ => True) events.note
    [] (fun _ _ _ _ _ => true) (fun _ _ _ _ _ _ => trivial) receiving fresh started_fresh
    (fun p _ => decide (p.tasks[3]? =
      some (Task.returned (.recv (.devicePresence "A" true (some 0) 1)))))
    (by decide +kernel) with ⟨p, log, hp, hrun⟩
  exact ⟨p, log, reach_deliversEvents flatGeo someConfig _ p log hp, of_decide_eq_true hrun⟩

/-- The server sends a command while a caller waits for one. -/
def commanded : List (Label Task Input) :=
  opening ++ [.spawn .recvCommand, .resume 2 (.frame (.command "C" [1] (some 0))), .resume 3 .go]

theorem commanded_delivers :
    ∃ p log, commands.Delivers p log ∧
      p.tasks[3]? = some (.returned (.recvCommand ⟨"C", [1], some 0⟩)) := by
  rcases (client flatGeo).exists_tallied (Started someConfig) (fun _ _ _ _ _ => True)
    commands.note [] (fun _ _ _ _ _ => true) (fun _ _ _ _ _ _ => trivial) commanded fresh
    started_fresh
    (fun p _ => decide (p.tasks[3]? = some (Task.returned (.recvCommand ⟨"C", [1], some 0⟩))))
    (by decide +kernel) with ⟨p, log, hp, hrun⟩
  exact ⟨p, log, reach_deliversCommands flatGeo someConfig _ p log hp, of_decide_eq_true hrun⟩

end Tracking

end Pickpoint
