import Pickpoint.Theory.Accounts
import Pickpoint.Theory.SendOrder
import Pickpoint.Theory.Splitting

/-!
# What Arrives

What the server reads off the location frames that reach it, and what it has to do
with the points that were published.

A point goes a long way in between. The filter lets it through, the queue holds it
and numbers it, a flush or the live path of `publish` puts it in a frame, a task
hands the frame to a socket, the encoder writes it and the decoder reads it. Each
stage has a theory of its own; here they are put together. The items of the queue
(`Theory.Accounts`) say which point it is. A frame keeps what it was built from
(`Built.Exact`), tasks and wires have no location frames but those
(`Carries`), and a frame of points in range decodes to its points as the wire
rounds them (`frame_reads`).

So the server never stops at a location frame, and all it reads off any of them
are published points in the order in which the frame carries them, none off by more
than half a microdegree (`reach_arrives`).

## Main definitions

* `Frame.location`, `Frame.bytes`: The location frame in a message, and its bytes.
* `Built.Exact`: A frame carries what it was built from.
* `Task.carrying`: The location frames a task is about to hand over.
* `Carries`: Where location frames come from.
* `Section.takesInRange`: Published points are in range.
* `ReadAs`, `Arrives`: What the server reads off a message.

## Theorems

* `step_built`: What the frames of a section are built from.
* `heir_carrying`: Where the frames of a task come from.
* `frame_reads`: A frame of points in range is read.
* `reach_carries`: Where location frames come from, in every run.
* `reach_arrives`: What the server reads, in every run.
-/

namespace Pickpoint

namespace Tracking

open ByteCodec Interleave

/-! ## Frames and what they were built from -/

/-- The location frame a message is, `LocationAdd` included. -/
def Frame.location : Frame → Option LocFrame
  | .loc f => some f
  | .cmd (.locationAdd _ seq point) => some ⟨truncU32 seq, [point]⟩
  | _ => none

/-- The bytes of a message. -/
def Frame.bytes (lib : UuidLib) : Frame → Except Fault Bytes
  | .cmd c => encodeClientCmd lib c
  | .loc f => encodeLocFrame f.seq f.points

/-- The frame holds a chunk of points, which are those it was built from, with or
    without their time. -/
structure Built.Exact (b : Built) : Prop where
  seq : b.frame.seq < 2 ^ 32
  chunk : Chunk b.frame.points
  nonempty : b.frame.points ≠ []
  points : List.Forall₂ (fun p (x : Nat × LatLng) => p = x.2 ∨ p = stripLiveTime x.2)
    b.frame.points b.carried

/-- Chunks of queued points are carried as they are. -/
theorem carry_exact (ticket : Ticket) (first : Nat) (chunks : List (List LatLng)) (i : Nat)
    (queued : List QueuedPoint) (hne : ∀ c ∈ chunks, c ≠ []) (hchunk : ∀ c ∈ chunks, Chunk c)
    (hpoints : chunks.flatten <+: queued.map (·.point)) :
    ∀ b ∈ Shared.carry ticket queued (frameChunks first i chunks),
      b.Exact ∧ ∀ x ∈ b.carried, ∃ q ∈ queued, x = (q.seq, q.point) := by
  induction chunks generalizing i queued with
  | nil => exact fun b hb => absurd hb List.not_mem_nil
  | cons chunk chunks ih =>
      rw [List.flatten_cons] at hpoints
      -- The points of the first chunk are the first points of the queue.
      have htake : (queued.take chunk.length).map (·.point) = chunk := by
        rw [List.map_take]
        exact (List.prefix_iff_eq_take.mp ((List.prefix_append _ _).trans hpoints)).symm
      intro b hb
      rcases List.mem_cons.mp hb with rfl | hb
      · refine ⟨⟨Nat.mod_lt _ (by decide), hchunk chunk List.mem_cons_self,
          hne chunk List.mem_cons_self, ?_⟩, fun x hx => ?_⟩
        · show List.Forall₂ _ chunk ((queued.take chunk.length).map fun q => (q.seq, q.point))
          nth_rewrite 1 [← htake]
          rw [List.forall₂_map_left_iff, List.forall₂_map_right_iff]
          exact List.forall₂_same.mpr fun q _ => Or.inl rfl
        · rcases List.mem_map.mp hx with ⟨q, hq, rfl⟩
          exact ⟨q, List.mem_of_mem_take hq, rfl⟩
      · have hrest : chunks.flatten <+: (queued.drop chunk.length).map (·.point) := by
          rcases hpoints with ⟨t, ht⟩
          rw [List.map_drop, ← ht, List.append_assoc, List.drop_left]
          exact List.prefix_append _ _
        rcases ih (i + chunk.length) _ (fun c hc => hne c (List.mem_cons_of_mem _ hc))
          (fun c hc => hchunk c (List.mem_cons_of_mem _ hc)) hrest b hb with ⟨hexact, hfrom⟩
        refine ⟨hexact, fun x hx => ?_⟩
        rcases hfrom x hx with ⟨q, hq, rfl⟩
        exact ⟨q, List.mem_of_mem_drop hq, rfl⟩

/-- A flush builds its frames from the points it took. -/
theorem flush_exact (s : Shared) (last : Nat) :
    ∀ b ∈ Shared.carry s.ticket (flushPoints s.inner).2 (flushFrames s.inner last).2,
      b.Exact ∧ ∀ x ∈ b.carried, ∃ q ∈ (flushPoints s.inner).2, x = (q.seq, q.point) := by
  rcases flushFrames_eq s.inner last with ⟨⟨k, hk⟩, _⟩
  rw [hk, splitLocFrames, frameChunks_take]
  refine carry_exact _ _ _ 0 _ ?_ ?_ ?_
  · exact fun c hc => locChunks_ne_nil _ c (List.mem_of_mem_take hc)
  · exact fun c hc => locChunks_chunk _ c (List.mem_of_mem_take hc)
  · have hflat := locChunks_flatten ((flushPoints s.inner).2.map (·.point))
    rw [← List.take_append_drop k (locChunks _), List.flatten_append] at hflat
    exact ⟨_, hflat⟩

/-- A point of InFlight is that of an item with its number. -/
theorem placed_inflight (t : Tracked) (h : Placed t) (q : QueuedPoint) (hq : q ∈ t.q.inflight) :
    ∃ item, (q.seq, item) ∈ t.numbered ∧ item.point = q.point := by
  have hmem : (q.seq, q.point) ∈ t.inflight.map fun x => (x.1, x.2.point) := by
    rw [h.inflight]
    exact List.mem_map_of_mem hq
  rcases List.mem_map.mp hmem with ⟨⟨n, item⟩, hx, heq⟩
  rw [Prod.mk.injEq] at heq
  exact ⟨item, heq.1 ▸ h.inflightOrder.subset hx, heq.2⟩

/-- Numbers are kept over operations. -/
theorem steps_numbered (geo : Geo) (t : Tracked) (ops : List QueueOp) :
    t.numbered ⊆ (ops.foldl (Tracked.step geo) t).numbered := by
  induction ops generalizing t with
  | nil => exact List.Subset.refl _
  | cons op ops ih => exact List.Subset.trans (step_numbered geo t op) (ih _)

/-- Only a flush and the working block of `publish` build frames. -/
def Section.builds : {α : Type} → Section α → Bool
  | _, .flush | _, .publishWork _ _ _ => true
  | _, _ => false

theorem run_built_quiet (geo : Geo) {α : Type} (op : Section α) (s : Shared)
    (h : op.builds = false) : (op.run geo s).1.built = s.built := by
  have hstep := run_ledger geo op s
  have hbuilt : (op.run geo s).1.built = (op.run geo s).1.ledger.built := rfl
  rw [hbuilt]
  generalize (op.run geo s).1.ledger = l' at hstep
  cases hstep <;> first | rfl | cases h

/-- What `publish` builds is a frame of the point it lets through. -/
theorem publishWork_built (geo : Geo) (now : Instant) (wall : Int) (point : LatLng) (s : Shared) :
    (publishWork geo now wall point s).1.built = s.built ∨
      ∃ emitted, (Section.publishWork now wall point).queueOps geo s =
          [.enqueue (s.inner.lastAssignedSeq + 1) emitted,
            .recordFrame (s.inner.lastAssignedSeq + 1)] ∧
        (publishWork geo now wall point s).1.built = s.built ++
          [{ ticket := s.ticket
             frame := { seq := truncU32 (s.inner.lastAssignedSeq + 1)
                        points := [stripLiveTime emitted] }
             carried := [(s.inner.lastAssignedSeq + 1, emitted)] }] := by
  simp only [Section.queueOps, publishEmits, publishWork]
  by_cases hrate : canAcceptPublish s.inner.nextPublishAt now 1 = true
  · simp only [hrate, Bool.not_true, Bool.false_eq_true, if_false, if_true]
    rcases s.inner.filter.push geo wall (stampLatLng wall point) with ⟨f, _ | emitted⟩
    · exact Or.inl rfl
    · have hopen : publishOpen { s.inner with
          nextPublishAt := nextPublishAllowedAt s.inner.nextPublishAt now 1,
          filter := f } = publishOpen s.inner := rfl
      simp only [hopen]
      by_cases ho : publishOpen s.inner = true
      · simp only [ho, Bool.not_true, Bool.false_eq_true, if_false, if_true]
        exact Or.inr ⟨emitted, rfl, rfl⟩
      · simp only [ho, Bool.not_false, if_true]
        exact Or.inl trivial
  · simp only [hrate, Bool.not_false, if_true]
    exact Or.inl trivial

/-- The points that a flush takes are in InFlight once it has numbered them. -/
theorem flushPoints_inflight (g : Inner) (q : QueuedPoint) (hq : q ∈ (flushPoints g).2) :
    q ∈ (flushPoints g).1.queue.inflight := by
  rcases flushPoints_cases g with ⟨_, hp⟩ | ⟨_, n, hp⟩
  · rw [hp] at hq ⊢
    exact ((OfflineQueue.unsentInflight_mem _ q).mp hq).1
  · rw [hp] at hq ⊢
    exact List.mem_append_right _ hq

/-- A frame that a section builds carries what it was built from, and that is items
    of the queue with their numbers. -/
theorem step_built (geo : Geo) {α : Type} (op : Section α) (s : Shared) (t : Tracked)
    (hq : t.q = s.inner.queue) (hplaced : Placed t) (b : Built)
    (hb : b ∈ (op.run geo s).1.built) :
    b ∈ s.built ∨ (b.Exact ∧ ∀ x ∈ b.carried, ∃ item,
      (x.1, item) ∈ ((op.queueOps geo s).foldl (Tracked.step geo) t).numbered ∧
        item.point = x.2) := by
  by_cases hquiet : op.builds = false
  · exact Or.inl (run_built_quiet geo op s hquiet ▸ hb)
  cases op with
  | flush =>
      simp only [Section.run] at hb
      rcases flush_cases s with hf | ⟨hready, last, hlast, hf⟩
      · rw [hf] at hb
        exact Or.inl hb
      · rw [hf] at hb
        rcases List.mem_append.mp hb with hb | hb
        · exact Or.inl hb
        · rcases flush_exact s last.seq b hb with ⟨hexact, hfrom⟩
          refine Or.inr ⟨hexact, fun x hx => ?_⟩
          rcases hfrom x hx with ⟨q, hqmem, rfl⟩
          have hin := flushPoints_inflight s.inner q hqmem
          simp only [Section.queueOps, if_pos hready, flushOps, hlast, List.foldl_append]
          -- The points have their numbers before any frame is recorded.
          suffices hnum : ∃ item, (q.seq, item) ∈ ((if s.inner.queue.unsentInflight ≠ [] then []
              else [QueueOp.assignFromStaging (min s.inner.queue.stagingLen
                (100 * s.inner.queue.windowRemaining)) s.inner.lastAssignedSeq]).foldl
                  (Tracked.step geo) t).numbered ∧ item.point = q.point by
            rcases hnum with ⟨item, hmem, hpoint⟩
            exact ⟨item, steps_numbered geo _ _ hmem, hpoint⟩
          by_cases hunsent : s.inner.queue.unsentInflight ≠ []
          · rw [flushPoints, if_pos hunsent, ← hq] at hin
            rw [if_pos hunsent]
            exact placed_inflight t hplaced q hin
          · rw [flushPoints, if_neg hunsent, ← hq] at hin
            rw [if_neg hunsent, ← hq]
            exact placed_inflight (t.step geo (.assignFromStaging
              (min t.q.stagingLen (100 * t.q.windowRemaining)) s.inner.lastAssignedSeq))
              (step_placed geo t _ hplaced) q hin
  | publishWork now wall point =>
      simp only [Section.run] at hb
      rcases publishWork_built geo now wall point s with hw | ⟨emitted, hops, hw⟩
      · rw [hw] at hb
        exact Or.inl hb
      · rw [hw] at hb
        rcases List.mem_append.mp hb with hb | hb
        · exact Or.inl hb
        · rw [List.mem_singleton.mp hb, hops]
          refine Or.inr ⟨⟨Nat.mod_lt _ (by decide), chunk_singleton _, List.cons_ne_nil _ _,
            .cons (Or.inr rfl) .nil⟩, fun x hx => ?_⟩
          rw [List.mem_singleton.mp hx]
          exact ⟨⟨t.next, emitted⟩, List.mem_append_right _ List.mem_cons_self, rfl⟩
  | _ => exact absurd rfl hquiet

/-! ## The way to the socket -/

/-- The location frames a task is about to hand over, and when they were built. -/
def Task.carrying : Task → List (LocFrame × Ticket)
  | .reader _ _ (.sending ticket frames _ _ _) => frames.map fun f => (f, ticket)
  | .publish (.send seq point ticket) => [(⟨truncU32 seq, [point]⟩, ticket)]
  | _ => []

/-- Location frames are handed over by tasks that carry them. -/
theorem act_carrying (t : Task) (c : Input) (a : Act Section Task) (h : t.act c = some a)
    (frame : Frame) (ticket : Option Ticket) (hop : a.op.hands = some (.bin frame, ticket))
    (f : LocFrame) (hloc : frame.location = some f) :
    ∃ tk, ticket = some tk ∧ (f, tk) ∈ t.carrying := by
  cases act_sends t c a h frame ticket hop with
  | readerFlush sock gen tk g gs cell r forward =>
      cases hloc
      exact ⟨tk, rfl, List.mem_cons_self⟩
  | publish seq point tk =>
      cases hloc
      exact ⟨tk, rfl, List.mem_cons_self⟩
  | _ => cases hloc

/-- A task carries location frames it carried before, or that its section built. -/
theorem heir_carrying (geo : Geo) (t : Task) (c : Input) (a : Act Section Task) (s : Shared)
    (h : t.act c = some a) :
    ∀ x ∈ ((client geo).heir a s).carrying,
      x ∈ t.carrying ∨ ∃ b ∈ ((client geo).after a s).built, b.frame = x.1 ∧ b.ticket = x.2 := by
  have hnil : ∀ u : Task, u.kind ≠ .reader → u.kind ≠ .publish → u.carrying = [] := by
    intro u h₁ h₂
    cases u with
    | reader => exact absurd rfl h₁
    | publish => exact absurd rfl h₂
    | _ => rfl
  intro x hx
  rcases heir_kind geo t c a s h with hk | hk | ⟨_, _, _, _, hk⟩
  · unfold Machine.heir Machine.after at *
    revert h
    cases t with
    | reader sock gen pc =>
        simp only [Task.act]
        fun_cases Task.readerAct sock gen pc c <;> intro h <;> cases h
        case reader.case1.refl msg => cases msg <;> cases hx
        case reader.case3.refl cell r forward =>
          have hrun : (client geo).run Section.flush s = flush s := rfl
          rw [hrun] at hx ⊢
          rcases flush_cases s with hf | ⟨_, last, _, hf⟩
          · rw [hf] at hx
            cases hx
          · refine Or.inr ?_
            rw [hf] at hx ⊢
            -- What it is about to send are the frames it built.
            have hmem : ∃ f ∈ (flushFrames s.inner last.seq).2, x = (f, s.ticket) := by
              revert hx
              simp only [flushFrames]
              generalize (recordFrames s.inner.queue.windowRemaining (flushPoints s.inner).1.queue
                (splitLocFrames last.seq ((flushPoints s.inner).2.map (·.point)))).2 = fs
              intro hx
              rcases fs with _ | ⟨f, fs⟩
              · cases hx
              · rcases List.mem_map.mp hx with ⟨g, hg, rfl⟩
                exact ⟨g, hg, rfl⟩
            rcases hmem with ⟨f, hf', rfl⟩
            rw [← carry_frame s.ticket (flushPoints s.inner).2
              (flushFrames s.inner last.seq).2] at hf'
            rcases List.mem_map.mp hf' with ⟨b, hb, rfl⟩
            exact ⟨b, List.mem_append_right _ hb, rfl, carry_ticket _ _ _ b hb⟩
        case reader.case4.refl ticket f fs cell r forward =>
          refine Or.inl ?_
          revert hx
          dsimp only
          split
          · rintro ⟨⟩
          · exact fun hx => List.mem_cons_of_mem _ hx
        all_goals cases hx
    | publish pc =>
        simp only [Task.act]
        fun_cases Task.publishAct pc c <;> intro h <;> cases h
        case publish.case4.refl point now wall =>
          have hrun : (client geo).run (Section.publishWork now wall point) s =
              publishWork geo now wall point s := rfl
          rw [hrun] at hx ⊢
          rcases publishWork_cases geo now wall point s with
            hw | ⟨_, _, hw | ⟨emitted, ⟨_, hw⟩ | ⟨_, hw⟩⟩⟩
          · rw [hw] at hx
            cases hx
          · rw [hw] at hx
            cases hx
          · rw [hw] at hx
            cases hx
          · rw [hw] at hx ⊢
            rw [List.mem_singleton.mp hx]
            exact Or.inr ⟨_, List.mem_append_right _ List.mem_cons_self, rfl, rfl⟩
        all_goals
          revert hx
          dsimp only
          (try split) <;> rintro ⟨⟩
    | _ =>
        intro _
        rw [hnil _ (by rw [hk]; rintro ⟨⟩) (by rw [hk]; rintro ⟨⟩)] at hx
        cases hx
  · rw [hnil _ (by rw [hk]; rintro ⟨⟩) (by rw [hk]; rintro ⟨⟩)] at hx
    cases hx
  · rw [hk] at hx
    cases hx

/-! ## Where location frames come from -/

/-- The queue with its items after the operations noted. -/
def booked (geo : Geo) (cfg : Config) (log : List Booking) : Tracked :=
  Tracked.run geo cfg.maxQueueSize (log.map (·.op))

/-- Location frames were built from items of the queue, and tasks and wires have no
    others. -/
structure Carries (geo : Geo) (cfg : Config) (p : Pool Shared Task) (log : List Booking) :
    Prop where
  queue : (booked geo cfg log).q = p.shared.inner.queue
  built : ∀ b ∈ p.shared.built, b.Exact ∧ ∀ x ∈ b.carried,
    ∃ item, (x.1, item) ∈ (booked geo cfg log).numbered ∧ item.point = x.2
  tasks : ∀ (j : Nat) u, p.tasks[j]? = some u → ∀ x ∈ u.carrying,
    ∃ b ∈ p.shared.built, b.frame = x.1 ∧ b.ticket = x.2
  wires : ∀ (k : Nat) frame ticket f, Traffic.sent (.bin frame) ticket ∈ p.shared.wire k →
    frame.location = some f → ∃ b ∈ p.shared.built, b.frame = f ∧ ticket = some b.ticket

section Runs

variable (geo : Geo) (cfg : Config)

theorem booked_note (p : Pool Shared Task) (i : Nat) (t : Task) (a : Act Section Task)
    (log : List Booking) :
    booked geo cfg (noteBookings geo p i t a log) =
      (a.op.queueOps geo p.shared).foldl (Tracked.step geo) (booked geo cfg log) := by
  have hops : (noteBookings geo p i t a log).map (·.op) =
      log.map (·.op) ++ a.op.queueOps geo p.shared := by
    simp only [noteBookings, List.map_append, List.map_map, Function.comp_def, List.map_id']
  rw [booked, booked, Tracked.run, Tracked.run, hops, List.foldl_append]

theorem booked_placed (log : List Booking) : Placed (booked geo cfg log) := by
  have hconserved := (run_balanced geo cfg.maxQueueSize (log.map fun x => x.op)).1
  rw [run_track] at hconserved
  exact hconserved.toPlaced

/-- Frames that were built stay so. -/
theorem run_built_mem {α : Type} (op : Section α) (s : Shared) (b : Built) (hb : b ∈ s.built) :
    b ∈ (op.run geo s).1.built := by
  have hstep := run_ledger geo op s
  have hbuilt : (op.run geo s).1.built = (op.run geo s).1.ledger.built := rfl
  rw [hbuilt]
  generalize (op.run geo s).1.ledger = l' at hstep
  cases hstep <;> first | exact hb | exact List.mem_append_left _ hb

/-- A step keeps to frames that were built. -/
theorem step_carries (p : Pool Shared Task) (i : Nat) (c : Input) (t : Task)
    (a : Act Section Task) (log : List Booking) (ht : p.tasks[i]? = some t)
    (ha : t.act c = some a) (h : Carries geo cfg p log) :
    Carries geo cfg ((client geo).resumed p i a) (noteBookings geo p i t a log) := by
  have hkeep : ∀ b ∈ p.shared.built, b ∈ ((client geo).resumed p i a).shared.built :=
    run_built_mem geo a.op p.shared
  refine ⟨?_, ?_, ?_, ?_⟩
  -- The log replays the sections on the queue.
  · rw [booked_note, (run_tracked geo _ _).1, h.queue]
    exact (run_queue geo a.op p.shared).symm
  -- A frame that the step builds is cut from items of the queue.
  · intro b hb
    rw [booked_note]
    rcases step_built geo a.op p.shared (booked geo cfg log) h.queue (booked_placed geo cfg log)
      b hb with hold | hnew
    · rcases h.built b hold with ⟨hexact, hfrom⟩
      refine ⟨hexact, fun x hx => ?_⟩
      rcases hfrom x hx with ⟨item, hmem, hpoint⟩
      exact ⟨item, steps_numbered geo _ _ hmem, hpoint⟩
    · exact hnew
  -- What a task carries was built before or in this step.
  · intro j u hu x hx
    rcases (client geo).resumed_get_cases p i j a t u ht hu with ⟨_, rfl⟩ | ⟨_, hu'⟩ | ⟨_, hu'⟩
    · rcases heir_carrying geo t c a p.shared ha x hx with hold | hnew
      · rcases h.tasks i t ht x hold with ⟨b, hb, heq⟩
        exact ⟨b, hkeep b hb, heq⟩
      · exact hnew
    · rcases h.tasks j u hu' x hx with ⟨b, hb, heq⟩
      exact ⟨b, hkeep b hb, heq⟩
    · -- Nothing that is spawned carries frames.
      rcases spawned_cases geo t c a p.shared ha u (List.mem_of_getElem? hu') with
        ⟨_, _, _, _, rfl | rfl⟩ | ⟨_, _, _, rfl | rfl | ⟨_, rfl⟩⟩ | ⟨_, _, _, rfl⟩ <;> cases hx
  -- What is handed over was carried.
  · intro k frame ticket f hsent hloc
    have hold : Traffic.sent (.bin frame) ticket ∈ p.shared.wire k →
        ∃ b ∈ ((client geo).resumed p i a).shared.built, b.frame = f ∧ ticket = some b.ticket := by
      intro hsent
      rcases h.wires k frame ticket f hsent hloc with ⟨b, hb, heq⟩
      exact ⟨b, hkeep b hb, heq⟩
    have hwire : Traffic.sent (.bin frame) ticket ∈ (a.op.run geo p.shared).1.wire k := hsent
    rcases run_wire geo a.op p.shared k with hw | ⟨evt, _, hw⟩ | ⟨out, tk, hop, _, _, hw⟩
    · rw [hw] at hwire
      exact hold hwire
    · rw [hw] at hwire
      rcases List.mem_cons.mp hwire with heq | hwire
      · cases heq
      · exact hold hwire
    · rw [hw] at hwire
      rcases List.mem_cons.mp hwire with heq | hwire
      · cases heq
        rcases act_carrying t c a ha frame ticket hop f hloc with ⟨tk, rfl, hmem⟩
        rcases h.tasks i t ht (f, tk) hmem with ⟨b, hb, hframe, hticket⟩
        exact ⟨b, hkeep b hb, hframe, congrArg some hticket.symm⟩
      · exact hold hwire

/-- Location frames come from items of the queue, in every run. -/
theorem reach_carries (C : List Booking → Pool Shared Task → Nat → Task → Act Section Task → Prop)
    (p : Pool Shared Task) (log : List Booking)
    (h : (client geo).Tallied (Started cfg) C (noteBookings geo) [] p log) :
    Carries geo cfg p log := by
  refine (client geo).tallied_inv (Started cfg) C (noteBookings geo) [] (fun _ => True)
    (fun _ _ => trivial) (Carries geo cfg) ?_ ?_ ?_ p log h
  -- Nothing is built, carried or sent at the start.
  · intro p hp
    rcases started_pool cfg p hp with ⟨now, rfl⟩
    refine ⟨rfl, by rintro b ⟨⟩, fun j u hu x hx => ?_, fun k frame ticket f hsent _ => ?_⟩
    · rw [List.mem_singleton.mp (List.mem_of_getElem? hu)] at hx
      cases hx
    · cases k <;> cases hsent
  · exact fun p i c t a log ht ha _ _ hI => step_carries geo cfg p i c t a log ht ha hI
  · intro p t log hent _ hI
    refine ⟨hI.queue, hI.built, fun j u hu x hx => ?_, hI.wires⟩
    rcases Machine.entered_get_cases p.tasks t u j hu with hold | rfl
    · exact hI.tasks j u hold x hx
    -- A call that comes in carries no frame.
    · have hcall := ((entry_iff geo p.shared u).mp hent).2
      cases u with
      | publish pc =>
          cases pc with
          | start point => cases hx
          | _ => cases hcall
      | reader sock gen pc => cases hcall
      | _ => cases hx

end Runs

/-! ## What the server reads -/

/-- A frame of a chunk of points in range is read as its points, quantised. -/
theorem frame_reads (lib : UuidLib) (frame : Frame) (f : LocFrame)
    (hloc : frame.location = some f) (hseq : f.seq < 2 ^ 32) (hne : f.points ≠ [])
    (hchunk : Chunk f.points) (hrange : ∀ p ∈ f.points, p.InRange) :
    ∃ bytes, frame.bytes lib = .ok bytes ∧
      decodeClientCmd lib bytes = .ok (locCmd f.seq (f.points.map quantise)) := by
  have hfollow := followEach_chunk f.points hrange hchunk
  have hread := decode_locFrame lib f hseq hne hchunk.room hfollow
  cases frame with
  | loc g =>
      cases hloc
      exact ⟨f.bytes, encodeLocFrame_eq f.seq f.points hfollow, hread⟩
  | cmd cmd =>
      cases cmd with
      | locationAdd uid seq point =>
          cases hloc
          refine ⟨_, ?_, hread⟩
          -- The number is cut to its field twice.
          have hcut : truncU32 (truncU32 seq) = truncU32 seq := truncU32_eq _ hseq
          rw [Frame.bytes, encodeClientCmd, writeAbs_eq]
          show Except.ok _ = Except.ok _
          simp only [LocFrame.bytes, pointsBytes, writeEach, List.append_nil,
            List.length_singleton, hcut]
          rfl
      | _ => cases hloc

/-- A point that is read is the one that was published, rounded to the wire's grid,
    perhaps without its time. -/
structure ReadAs (p q : LatLng) : Prop where
  same : p = quantise q ∨ p = quantise (stripLiveTime q)
  near : |p.latitude - q.latitude| ≤ 1 / 2000000 ∧ |p.longitude - q.longitude| ≤ 1 / 2000000

/-- The server reads the message as a location command, of points that were
    published. Each was put into the queue by a call of `publish`, as the item that
    then got a number. -/
def Arrives (lib : UuidLib) (geo : Geo) (cfg : Config) (log : List Booking) (frame : Frame) :
    Prop :=
  ∃ bytes c seq points carried, frame.bytes lib = .ok bytes ∧
    decodeClientCmd lib bytes = .ok c ∧ c.loc = some (seq, points) ∧
    1 ≤ points.length ∧ points.length ≤ 100 ∧
    List.Forall₂ (fun p (x : Nat × Item) => ReadAs p x.2.point) points carried ∧
    ∀ x ∈ carried, x ∈ (booked geo cfg log).numbered ∧
      ∃ call, (insertions log)[x.2.id]? = some (call, x.2.point)

/-- The points published are in range, and so is the clock that stamps them. -/
def Section.takesInRange : {α : Type} → Section α → Prop
  | _, .publishWork _ wall point => point.InRange ∧ FitsI64 wall
  | _, _ => True

/-- What `publish` lets through is its point with a time. -/
theorem emits_stamped (geo : Geo) (now : Instant) (wall : Int) (point : LatLng) (g : Inner)
    (emitted : LatLng) (h : publishEmits geo now wall point g = some emitted) :
    emitted = stampLatLng wall point := by
  unfold publishEmits NoiseFilter.push at h
  split at h
  · dsimp only at h
    split at h
    · cases h
      rfl
    · cases h
  · cases h

theorem stamp_inRange (wall : Int) (point : LatLng) (h : point.InRange) (hwall : FitsI64 wall) :
    (stampLatLng wall point).InRange where
  latitude := h.latitude
  longitude := h.longitude
  altitude := h.altitude
  accuracy := h.accuracy
  timestampMs := by
    rintro t ⟨⟩
    rcases htime : point.timestampMs with _ | ms
    · exact hwall
    · exact h.timestampMs ms htime

theorem strip_inRange (point : LatLng) (h : point.InRange) : (stripLiveTime point).InRange where
  latitude := h.latitude
  longitude := h.longitude
  altitude := h.altitude
  accuracy := h.accuracy
  timestampMs := by rintro t ⟨⟩

/-- Every item that was pushed or numbered is one that was put in. -/
theorem run_points (geo : Geo) (maxSize : Nat) (ops : List QueueOp) (x : Item)
    (hx : x ∈ (Tracked.run geo maxSize ops).pushed ∨
      x ∈ (Tracked.run geo maxSize ops).numbered.map (·.2)) :
    (ops.filterMap QueueOp.inserts)[x.id]? = some x.point := by
  induction ops using List.reverseRecOn generalizing x with
  | nil => rcases hx with hx | hx <;> cases hx
  | append_singleton ops op ih =>
      have hrun : Tracked.run geo maxSize (ops ++ [op]) =
          (Tracked.run geo maxSize ops).step geo op := List.foldl_concat ..
      have hbalanced := (run_balanced geo maxSize ops).2
      have hplaced := (run_balanced geo maxSize ops).1.toPlaced
      rw [run_track] at hplaced
      have hnumber : (Tracked.run geo maxSize ops).next =
          (ops.filterMap QueueOp.inserts).length := run_track geo maxSize ops ▸ hbalanced.number
      rw [hrun] at hx
      rw [List.filterMap_append]
      have hold : (x ∈ (Tracked.run geo maxSize ops).pushed ∨
          x ∈ (Tracked.run geo maxSize ops).numbered.map (·.2)) →
          (ops.filterMap QueueOp.inserts ++ [op].filterMap QueueOp.inserts)[x.id]? =
            some x.point := by
        intro hx
        have hget := ih x hx
        rw [List.getElem?_append_left (List.getElem?_eq_some_iff.mp hget).1]
        exact hget
      have hnew : ∀ point, op.inserts = some point →
          x = ⟨(Tracked.run geo maxSize ops).next, point⟩ →
          (ops.filterMap QueueOp.inserts ++ [op].filterMap QueueOp.inserts)[x.id]? =
            some x.point := by
        rintro point hins rfl
        rw [hnumber, List.getElem?_append_right (Nat.le_refl _), Nat.sub_self,
          List.filterMap_cons, hins]
        rfl
      generalize Tracked.run geo maxSize ops = t at hx hold hnew hplaced
      -- Three operations put an item in, and one gives numbers to items that were pushed.
      cases op with
      | pushStaging point =>
          rcases hx with hx | hx
          · rcases List.mem_append.mp hx with hx | hx
            · exact hold (Or.inl hx)
            · exact hnew point rfl (List.mem_singleton.mp hx)
          · exact hold (Or.inr hx)
      | assignFromStaging n nextSeq =>
          rcases hx with hx | hx
          · exact hold (Or.inl hx)
          · simp only [Tracked.step, List.map_append, numberItems_items] at hx
            rcases List.mem_append.mp hx with hx | hx
            · exact hold (Or.inr hx)
            · exact hold (Or.inl (hplaced.stagingOrder.subset (List.mem_of_mem_take hx)))
      | enqueue seq point =>
          rcases hx with hx | hx
          · exact hold (Or.inl hx)
          · simp only [Tracked.step, Tracked.evict, Tracked.launch, List.map_append] at hx
            rcases List.mem_append.mp hx with hx | hx
            · exact hold (Or.inr hx)
            · exact hnew point rfl (List.mem_singleton.mp hx)
      | pushInflightUnsent seq point =>
          rcases hx with hx | hx
          · exact hold (Or.inl hx)
          · simp only [Tracked.step, Tracked.evict, Tracked.launch, List.map_append] at hx
            rcases List.mem_append.mp hx with hx | hx
            · exact hold (Or.inr hx)
            · exact hnew point rfl (List.mem_singleton.mp hx)
      | _ => exact hold hx

/-- Points of a frame are in range when those it was built from are. -/
theorem exact_inRange (ps : List LatLng) (xs : List (Nat × LatLng))
    (h : List.Forall₂ (fun p (x : Nat × LatLng) => p = x.2 ∨ p = stripLiveTime x.2) ps xs)
    (hrange : ∀ x ∈ xs, x.2.InRange) : ∀ p ∈ ps, p.InRange := by
  induction h with
  | nil => exact fun p hp => absurd hp List.not_mem_nil
  | @cons p x ps xs hp _ ih =>
      have hx := hrange x List.mem_cons_self
      intro q hq
      rcases List.mem_cons.mp hq with rfl | hq
      · rcases hp with rfl | rfl
        · exact hx
        · exact strip_inRange x.2 hx
      · exact ih (fun y hy => hrange y (List.mem_cons_of_mem _ hy)) q hq

/-- A frame is read as the items it was built from. -/
theorem exact_reads (numbered : List (Nat × Item)) (ps : List LatLng) (xs : List (Nat × LatLng))
    (h : List.Forall₂ (fun p (x : Nat × LatLng) => p = x.2 ∨ p = stripLiveTime x.2) ps xs)
    (hfrom : ∀ x ∈ xs, ∃ item, (x.1, item) ∈ numbered ∧ item.point = x.2) :
    ∃ carried : List (Nat × Item),
      List.Forall₂ (fun p (y : Nat × Item) => ReadAs p y.2.point) (ps.map quantise) carried ∧
        ∀ y ∈ carried, y ∈ numbered := by
  induction h with
  | nil => exact ⟨[], .nil, fun y hy => absurd hy List.not_mem_nil⟩
  | @cons p x ps xs hp _ ih =>
      rcases ih fun y hy => hfrom y (List.mem_cons_of_mem _ hy) with ⟨carried, hread, hmem⟩
      rcases hfrom x List.mem_cons_self with ⟨item, hitem, hpoint⟩
      refine ⟨(x.1, item) :: carried, .cons ?_ hread, fun y hy => ?_⟩
      · have hnear := quantise_near p
        rcases hp with rfl | rfl
        · exact ⟨Or.inl (congrArg quantise hpoint.symm), hpoint.symm ▸ hnear⟩
        · refine ⟨Or.inr (congrArg (fun q => quantise (stripLiveTime q)) hpoint.symm), ?_⟩
          rw [hpoint]
          exact hnear
      · rcases List.mem_cons.mp hy with rfl | hy
        · exact hitem
        · exact hmem y hy

section Reading

variable (geo : Geo) (cfg : Config)

/-- A step puts in points in range when it takes them. -/
theorem step_inRange (p : Pool Shared Task) (i : Nat) (t : Task) (a : Act Section Task)
    (log : List Booking) (hrange : a.op.takesInRange)
    (hold : ∀ x ∈ insertions log, x.2.InRange) :
    ∀ x ∈ insertions (noteBookings geo p i t a log), x.2.InRange := by
  intro x hx
  rw [note_insertions] at hx
  rcases List.mem_append.mp hx with hx | hx
  · exact hold x hx
  · rcases List.mem_map.mp hx with ⟨emitted, hemit, rfl⟩
    rcases a with ⟨op, next⟩
    cases op with
    | publishWork now wall point =>
        rw [emits_stamped geo now wall point _ emitted (Option.mem_toList.mp hemit)]
        exact stamp_inRange wall point hrange.1 hrange.2
    | _ => cases hemit

/-- In a run whose published points are in range all points put into the queue are. -/
theorem reach_inRange (p : Pool Shared Task) (log : List Booking)
    (h : (client geo).Tallied (Started cfg) (fun _ _ _ _ a => a.op.takesInRange)
      (noteBookings geo) [] p log) : ∀ x ∈ insertions log, x.2.InRange := by
  refine (client geo).tallied_inv (Started cfg) (fun _ _ _ _ a => a.op.takesInRange)
    (noteBookings geo) [] (fun _ => True) (fun _ _ => trivial)
    (fun _ log => ∀ x ∈ insertions log, x.2.InRange) ?_ ?_ ?_ p log h
  · rintro p hp x ⟨⟩
  · exact fun p i c t a log _ _ hrange _ hI => step_inRange geo p i t a log hrange hI
  · exact fun _ _ _ _ _ hI => hI

/-- In every run whose published points are in range the server reads every location
    frame that was handed to a socket, and reads published points off it, each within
    half a microdegree. -/
theorem reach_arrives (lib : UuidLib) (p : Pool Shared Task) (log : List Booking)
    (h : (client geo).Tallied (Started cfg) (fun _ _ _ _ a => a.op.takesInRange)
      (noteBookings geo) [] p log)
    (k : Nat) (frame : Frame) (ticket : Option Ticket)
    (hsent : Traffic.sent (.bin frame) ticket ∈ p.shared.wire k)
    (hloc : frame.location.isSome = true) : Arrives lib geo cfg log frame := by
  have hcarries := reach_carries geo cfg _ p log h
  have hrange := reach_inRange geo cfg p log h
  rcases Option.isSome_iff_exists.mp hloc with ⟨f, hf⟩
  rcases hcarries.wires k frame ticket f hsent hf with ⟨b, hb, rfl, _⟩
  rcases hcarries.built b hb with ⟨hexact, hfrom⟩
  -- Every entry the frame was built from is an item, put in by a call.
  have hcall : ∀ item, item ∈ (booked geo cfg log).numbered.map (·.2) →
      ∃ call, (insertions log)[item.id]? = some (call, item.point) := by
    intro item hitem
    have hget : ((log.map (·.op)).filterMap QueueOp.inserts)[item.id]? = some item.point :=
      run_points geo cfg.maxQueueSize _ item (Or.inr hitem)
    have hpoints : (log.map (·.op)).filterMap QueueOp.inserts = (insertions log).map (·.2) := by
      rw [insertions, List.map_filterMap, List.filterMap_map]
      refine List.filterMap_congr fun x _ => ?_
      simp only [Function.comp_apply, Option.map_map, Function.comp_def, Option.map_id']
    rw [hpoints, List.getElem?_map, Option.map_eq_some_iff] at hget
    rcases hget with ⟨⟨call, point⟩, hcall, rfl⟩
    exact ⟨call, hcall⟩
  have hinside : ∀ x ∈ b.carried, x.2.InRange := by
    intro x hx
    rcases hfrom x hx with ⟨item, hmem, hpoint⟩
    rcases hcall item (List.mem_map_of_mem hmem) with ⟨call, hget⟩
    rw [← hpoint]
    exact hrange _ (List.mem_of_getElem? hget)
  rcases frame_reads lib frame b.frame hf hexact.seq hexact.nonempty hexact.chunk
    (exact_inRange _ _ hexact.points hinside) with ⟨bytes, hbytes, hread⟩
  rcases exact_reads _ _ _ hexact.points hfrom with ⟨carried, hpoints, hmem⟩
  refine ⟨bytes, _, b.frame.seq, b.frame.points.map quantise, carried, hbytes, hread,
    loc_locCmd _ _, ?_, ?_, hpoints, fun y hy => ⟨hmem y hy, ?_⟩⟩
  · rw [List.length_map]
    exact List.length_pos_iff.mpr hexact.nonempty
  · rw [List.length_map]
    exact hexact.chunk.room
  · exact hcall y.2 (List.mem_map_of_mem (hmem y hy))

end Reading

/-- The check that what a section takes is the sample of a time. -/
def takesSample (ms : Int) : {α : Type} → Section α → Bool
  | _, .publishWork _ wall point => decide (point = sample ms ∧ wall = ms)
  | _, _ => true

theorem takesSample_inRange {α : Type} (op : Section α) (h : takesSample 2000 op = true) :
    op.takesInRange := by
  cases op with
  | publishWork now wall point =>
      rcases of_decide_eq_true h with ⟨rfl, rfl⟩
      refine ⟨⟨by norm_num [sample], by norm_num [sample], by rintro a ⟨⟩, by rintro a ⟨⟩, ?_⟩, ?_⟩
      · rintro t ⟨⟩
        exact ⟨by norm_num, by norm_num⟩
      · exact ⟨by norm_num, by norm_num⟩
  | _ => trivial

/-- The server reads a point that went out live. -/
theorem reach_arrives_live :
    ∃ (p : Pool Shared Task) (log : List Booking) (frame : Frame) (ticket : Option Ticket),
      Traffic.sent (.bin frame) ticket ∈ p.shared.wire 0 ∧
        frame = .cmd (.locationAdd "" 1 (stripLiveTime (sample 2000))) ∧
        Arrives canonicalLib flatGeo someConfig log frame := by
  rcases (client flatGeo).exists_tallied (Started someConfig) (fun _ _ _ _ a => a.op.takesInRange)
    (noteBookings flatGeo) [] (fun _ _ _ _ a => takesSample 2000 a.op)
    (fun _ _ _ _ a h => takesSample_inRange a.op h) publishedAndAcked fresh started_fresh
    (fun p _ => decide (Traffic.sent (.bin (.cmd (.locationAdd "" 1
      (stripLiveTime (sample 2000))))) (some ⟨some 0, 2⟩) ∈ p.shared.wire 0))
    (by decide +kernel) with ⟨p, log, hp, hrun⟩
  exact ⟨p, log, _, _, of_decide_eq_true hrun, rfl,
    reach_arrives flatGeo someConfig canonicalLib p log hp 0 _ _ (of_decide_eq_true hrun) rfl⟩

end Tracking

end Pickpoint
