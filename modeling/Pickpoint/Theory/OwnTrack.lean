import Pickpoint.Theory.Cells

/-!
# A Track of One's Own

`start_track` returns the uid of the track it started. A `TrackStarted` does
not say which `TrackStart` it answers; the server answers those of a socket in
order, so the `n`-th answer on a wire belongs to the `n`-th command on it. The
client hands each answer to whoever is the start waiter when it arrives. A run
keeps note of where each call's command went (`noteStart`), and `assigned`
reads off the wire which uid the server gave it.

The two do not always agree (`auto_start_answers_first`). `publish` starts a
track without a waiter, so a call that installs one while that `TrackStart` is
unanswered gets its uid; `publish` looks at `starting` before it starts a
track, and `start_track` does not. Likewise when another command gets onto the
wire between the installing of a waiter and the sending of its command.

`keepsOwnTrack` is the condition that a waiter is installed while no
`TrackStart` is unanswered, and that none is sent ahead of the one of the call
that waits. Then every call returns its own uid (`reach_ownTrack`).

## Main definitions

* `StartNote`, `noteStart`: Where the command of a call is.
* `assigned`: The uid the server gave to a command.
* `OwnTrack`: Every call of `start_track` returned its own uid.
* `answersStarts`: The server answers the commands of a socket in order.
* `keepsOwnTrack`: No `TrackStart` gets ahead of a waiter's.
* `OwnAnswers`: What this keeps up along a run.

## Theorems

* `after_starts`: What a step adds to a wire.
* `step_ownAnswers`: A step keeps answers with their calls.
* `reach_ownTrack`: Every call returns its own uid.
* `auto_start_answers_first`: Not so in general.
-/

namespace Pickpoint

namespace Tracking

open Interleave

/-- The command of a `start_track` call: its socket, and how many `TrackStart`s
    were handed to that socket before. -/
structure StartNote where
  sock : Nat
  rank : Nat
  deriving DecidableEq, Repr

/-- Note the `TrackStart` of a `start_track` call, if it is accepted. -/
def noteStart (p : Pool Shared Task) (i : Nat) (t : Task) (_ : Act Section Task)
    (b : Nat → Option StartNote) : Nat → Option StartNote :=
  match t.asking, p.shared.accepts with
  | some (.start, _), some k =>
    Function.update b i (some { sock := k, rank := (p.shared.wire k).countP Traffic.isTrackStart })
  | _, _ => b

/-- The uid the server gave to the `TrackStart` of rank `n` on a wire. -/
def assigned (w : List Traffic) (n : Nat) : Option String := (startedUids w).reverse[n]?

/-- The uid given to the command of task `j`. -/
def GivenUid (s : Shared) (b : Nat → Option StartNote) (j : Nat) (uid : String) : Prop :=
  ∃ n, b j = some n ∧ assigned (s.wire n.sock) n.rank = some uid

/-- Every call of `start_track` that returned a uid returned the one given to its
    own command. -/
def OwnTrack (p : Pool Shared Task) (b : Nat → Option StartNote) : Prop :=
  ∀ (j : Nat) (uid : String), p.tasks[j]? = some (.returned (.startTrack (.ok uid))) →
    GivenUid p.shared b j uid

/-- The server answers the `TrackStart`s of a socket in order, with a new uid for
    each. -/
def answersStarts (p : Pool Shared Task) (_ : Nat) (_ : Task) (a : Act Section Task) : Bool :=
  match a.op.hears with
  | some (k, .trackStarted uid metadata) => answers (p.shared.wire k) (.trackStarted uid metadata)
  | _ => true

/-- Every `TrackStart` on a wire has been answered. -/
def quiet (w : List Traffic) : Bool := w.countP Traffic.isTrackStart == (startedUids w).length

/-- A section that hands over a `TrackStart`. -/
def Section.startsTrack : {α : Type} → Section α → Bool
  | _, .sendBin (.cmd (.trackStart _ _ _)) _ => true
  | _, _ => false

/-- A call of `start_track` whose cell is the start waiter. -/
def Shared.startsFor (s : Shared) (t : Task) : Bool :=
  t.startCell.isSome && t.startCell == s.inner.startWait

/-- The server answers in order; a start waiter is installed while every
    `TrackStart` is answered; and a `TrackStart` goes to a socket only when any
    other call that is waited for has handed its own to that socket. -/
def keepsOwnTrack (b : Nat → Option StartNote) (p : Pool Shared Task) (i : Nat) (t : Task)
    (a : Act Section Task) : Bool :=
  answersStarts p i t a &&
  (a.op.installs != some .start ||
    (List.range p.shared.sockets.length).all fun k => quiet (p.shared.wire k)) &&
  (!a.op.startsTrack ||
    match p.shared.accepts with
    | none => true
    | some k => p.tasks.zipIdx.all fun x =>
      x.2 == i || !p.shared.startsFor x.1 ||
        (x.1.asking.isNone && (b x.2).map (·.sock) == some k))

/-! ## Wires -/

theorem startedUids_cons (t : Traffic) (w : List Traffic) (h : t.isTrackStarted = false) :
    startedUids (t :: w) = startedUids w := by
  cases t with
  | sent out ticket => rfl
  | got evt =>
      cases evt with
      | trackStarted uid metadata => cases h
      | _ => rfl

theorem startedUids_length (w : List Traffic) :
    (startedUids w).length = w.countP Traffic.isTrackStarted := by
  induction w with
  | nil => rfl
  | cons t w ih =>
      rcases ht : t.isTrackStarted with _ | _
      · rw [startedUids_cons t w ht, ih, List.countP_cons_of_neg (by rw [ht]; rintro ⟨⟩)]
      · rw [List.countP_cons_of_pos ht, ← ih]
        cases t with
        | sent out ticket => cases ht
        | got evt =>
            cases evt with
            | trackStarted uid metadata => rfl
            | _ => cases ht

/-- A wire that grows by answers keeps what it has given. -/
theorem assigned_cons (uid : String) (w w' : List Traffic) (n : Nat) (x : String)
    (hw : startedUids w' = uid :: startedUids w) (h : assigned w n = some x) :
    assigned w' n = some x := by
  rw [assigned, hw, List.reverse_cons, List.getElem?_append_left]
  · exact h
  · exact (List.getElem?_eq_some_iff.mp h).1

/-- The answer that comes next belongs to the command whose turn it is. -/
theorem assigned_next (uid : String) (w w' : List Traffic)
    (hw : startedUids w' = uid :: startedUids w) :
    assigned w' (startedUids w).length = some uid := by
  rw [assigned, hw, List.reverse_cons, ← List.length_reverse]
  exact List.getElem?_concat_length

section Client

variable (geo : Geo)

theorem hands_startsTrack {α : Type} (op : Section α) (out : Outbound) (ticket : Option Ticket)
    (hop : op.hands = some (out, ticket)) :
    op.startsTrack = (Traffic.sent out ticket).isTrackStart := by
  cases op with
  | sendBin frame ticket' =>
      cases hop
      rcases frame with c | f
      · cases c <;> rfl
      · rfl
  | _ => cases hop <;> rfl

theorem accepts_outTx (s : Shared) (k : Nat) (h : s.accepts = some k) :
    s.inner.outTx = some k := by
  unfold Shared.accepts at h
  split at h
  · cases h
  · exact (Option.filter_eq_some_iff.mp h).1

/-- A `TrackStart` gets onto a wire because its socket accepts it. -/
theorem starts_accepts {α : Type} (op : Section α) (s : Shared) (k : Nat)
    (hop : op.startsTrack = true) (hk : s.inner.outTx = some k)
    (hw : (op.run geo s).1.wire k ≠ s.wire k) : s.accepts = some k := by
  cases op with
  | sendBin frame ticket =>
      rcases hacc : s.accepts with _ | k'
      · rcases sendBin_refused frame ticket s hacc with ⟨e, hi⟩
        simp only [Section.run, hi, ne_eq, not_true_eq_false] at hw
      · exact (accepts_outTx s k' hacc).symm.trans hk
  | _ => cases hop

/-- A step adds a `TrackStart` to a wire, or an answer, or neither. -/
theorem after_starts (a : Act Section Task) (s : Shared) (k : Nat) :
    ((((client geo).after a s).wire k).countP Traffic.isTrackStart =
        (s.wire k).countP Traffic.isTrackStart ∧
      startedUids (((client geo).after a s).wire k) = startedUids (s.wire k)) ∨
    (a.op.startsTrack = true ∧ s.accepts = some k ∧
      startedUids (((client geo).after a s).wire k) = startedUids (s.wire k)) ∨
    (∃ uid metadata, a.op.hears = some (k, .trackStarted uid metadata) ∧
      startedUids (((client geo).after a s).wire k) = uid :: startedUids (s.wire k)) := by
  have hafter : ((client geo).after a s).wire k = (a.op.run geo s).1.wire k := rfl
  rw [hafter]
  -- The wire is what it was, or has one entry more.
  rcases run_wire geo a.op s k with hw | ⟨evt, hears, hw⟩ | ⟨out, ticket, hop, hk, _, hw⟩
  · exact Or.inl ⟨congrArg _ hw, congrArg _ hw⟩
  · rw [hw]
    rcases hevt : (Traffic.got evt).isTrackStarted with _ | _
    · refine Or.inl ⟨?_, startedUids_cons _ _ hevt⟩
      exact List.countP_cons_of_neg (by rintro ⟨⟩)
    · cases evt with
      | trackStarted uid metadata => exact Or.inr (Or.inr ⟨uid, metadata, hears, rfl⟩)
      | _ => cases hevt
  · rcases hstart : (Traffic.sent out ticket).isTrackStart with _ | _
    · rw [hw]
      exact Or.inl ⟨List.countP_cons_of_neg (by rw [hstart]; rintro ⟨⟩), rfl⟩
    · have hstarts := (hands_startsTrack a.op out ticket hop).trans hstart
      refine Or.inr (Or.inl ⟨hstarts, starts_accepts geo a.op s k hstarts hk ?_, ?_⟩)
      · rw [hw]
        exact List.cons_ne_self _ _
      · rw [hw]
        rfl

/-! ## Answers and their calls -/

/-- What holds along a run. While a call is waited for and has yet to send, every
    `TrackStart` is answered; once it has sent, its own is the next to be
    answered. So an answer that is delivered is that of the call's own command. -/
structure OwnAnswers (p : Pool Shared Task) (b : Nat → Option StartNote) : Prop where
  asking : ∀ (j : Nat) u c, p.tasks[j]? = some u → u.asking = some (.start, c) →
    p.shared.inner.startWait = some c → ∀ k, quiet (p.shared.wire k) = true
  waiting : ∀ (j : Nat) c, p.tasks[j]? = some (.startTrack (.reply c)) →
    p.shared.inner.startWait = some c → ∃ n, b j = some n ∧
      (startedUids (p.shared.wire n.sock)).length = n.rank ∧
      ∀ k, k ≠ n.sock → quiet (p.shared.wire k) = true
  answered : ∀ c r, Answered p c r → ∀ (j : Nat) u, p.tasks[j]? = some u →
    u.startCell = some c → u = .startTrack (.reply c) ∧ GivenUid p.shared b j r.uid
  returned : OwnTrack p b

theorem startCell_cases (t : Task) (cell : Nat) (h : t.startCell = some cell) :
    t.asking = some (.start, cell) ∨ t = .startTrack (.reply cell) := by
  cases t with
  | startTrack pc =>
      cases pc with
      | send cell' loc route metadata =>
          cases h
          exact Or.inl rfl
      | reply cell' =>
          cases h
          exact Or.inr rfl
      | _ => cases h
  | _ => cases h

/-- A note is only written for the call that sends. -/
theorem noteStart_keep (p : Pool Shared Task) (i j : Nat) (t : Task) (a : Act Section Task)
    (b : Nat → Option StartNote) (h : j = i → t.asking = none) :
    noteStart p i t a b j = b j := by
  rcases hask : t.asking with _ | ⟨w, cell⟩
  · simp only [noteStart, hask]
  · have hji : j ≠ i := by
      intro hji
      cases hask.symm.trans (h hji)
    cases w <;> rcases hacc : p.shared.accepts with _ | k <;> simp only [noteStart, hask, hacc]
    exact Function.update_of_ne hji _ _

/-- The note of a call whose command is accepted. -/
theorem noteStart_sent (p : Pool Shared Task) (i : Nat) (t : Task) (a : Act Section Task)
    (b : Nat → Option StartNote) (cell k : Nat) (hask : t.asking = some (.start, cell))
    (hk : p.shared.accepts = some k) :
    noteStart p i t a b i =
      some { sock := k, rank := (p.shared.wire k).countP Traffic.isTrackStart } := by
  simp only [noteStart, hask, hk, Function.update_self]

/-- What was given stays given. -/
theorem given_step (a : Act Section Task) (s : Shared) (b b' : Nat → Option StartNote) (j : Nat)
    (uid : String) (hb : b' j = b j) (h : GivenUid s b j uid) :
    GivenUid ((client geo).after a s) b' j uid := by
  rcases h with ⟨n, hn, huid⟩
  refine ⟨n, hb.trans hn, ?_⟩
  rcases after_starts geo a s n.sock with ⟨_, hw⟩ | ⟨_, _, hw⟩ | ⟨uid', _, _, hw⟩
  · rwa [assigned, hw]
  · rwa [assigned, hw]
  · exact assigned_cons uid' _ _ _ _ hw huid

theorem quiet_iff (w : List Traffic) :
    quiet w = true ↔ w.countP Traffic.isTrackStart = (startedUids w).length := beq_iff_eq

/-- The server answers nothing on a quiet wire. -/
theorem not_answers_quiet (w : List Traffic) (uid : String) (metadata : Bytes)
    (hq : quiet w = true) : answers w (.trackStarted uid metadata) = false := by
  rw [quiet_iff, startedUids_length] at hq
  rw [answers, hq, decide_eq_false (Nat.lt_irrefl _)]
  rfl

section Step

variable (p : Pool Shared Task) (i : Nat) (c : Input) (t : Task) (a : Act Section Task)
  (b : Nat → Option StartNote)

theorem answersStarts_iff (h : answersStarts p i t a = true) (k : Nat) (uid : String)
    (metadata : Bytes) (hears : a.op.hears = some (k, .trackStarted uid metadata)) :
    answers (p.shared.wire k) (.trackStarted uid metadata) = true := by
  rw [answersStarts, hears] at h
  exact h

/-- A quiet wire stays quiet unless a `TrackStart` goes there. -/
theorem quiet_step (h : answersStarts p i t a = true) (k : Nat)
    (hno : a.op.startsTrack = true → p.shared.accepts ≠ some k)
    (hq : quiet (p.shared.wire k) = true) :
    quiet (((client geo).after a p.shared).wire k) = true := by
  rcases after_starts geo a p.shared k with
    ⟨hcount, hw⟩ | ⟨hstarts, hk, _⟩ | ⟨uid, metadata, hears, _⟩
  · rwa [quiet, hcount, hw]
  · exact absurd hk (hno hstarts)
  · have := answersStarts_iff p i t a h k uid metadata hears
    rw [not_answers_quiet _ uid metadata hq] at this
    cases this

/-- What the condition says of a `TrackStart` that goes out. -/
theorem keepsOwnTrack_sent (h : keepsOwnTrack b p i t a = true) (k : Nat)
    (hstarts : a.op.startsTrack = true) (hk : p.shared.accepts = some k) (j : Nat) (u : Task)
    (hji : j ≠ i) (hu : p.tasks[j]? = some u) (cell : Nat) (hcell : u.startCell = some cell)
    (hwait : p.shared.inner.startWait = some cell) :
    u.asking = none ∧ (b j).map (·.sock) = some k := by
  have hall := (Bool.and_eq_true_iff.mp h).2
  rw [hstarts, hk] at hall
  have hx := List.all_eq_true.mp hall (u, j) (List.mem_zipIdx_iff_getElem?.mpr hu)
  have hfor : p.shared.startsFor u = true := by
    rw [Shared.startsFor, hcell, hwait, beq_self_eq_true]
    rfl
  rw [hfor, beq_false_of_ne hji] at hx
  rcases Bool.and_eq_true_iff.mp hx with ⟨hask, hsock⟩
  exact ⟨Option.isNone_iff_eq_none.mp hask, beq_iff_eq.mp hsock⟩

/-- A waiter is installed while every wire is quiet, and nothing is sent then. -/
theorem keepsOwnTrack_installs (h : keepsOwnTrack b p i t a = true)
    (hinst : a.op.installs = some .start) :
    a.op.startsTrack = false ∧ ∀ k, quiet (p.shared.wire k) = true := by
  refine ⟨?_, fun k => ?_⟩
  · rcases a with ⟨op, next⟩
    cases op <;> first | rfl | cases hinst
  · have hquiet := (Bool.and_eq_true_iff.mp (Bool.and_eq_true_iff.mp h).1).2
    rw [hinst, bne_self_eq_false, Bool.false_or] at hquiet
    rcases Nat.lt_or_ge k p.shared.sockets.length with hk | hk
    · exact List.all_eq_true.mp hquiet k (List.mem_range.mpr hk)
    · rw [Shared.wire, List.getElem?_eq_none hk]
      rfl

theorem keepsOwnTrack_server (h : keepsOwnTrack b p i t a = true) :
    answersStarts p i t a = true := (Bool.and_eq_true_iff.mp (Bool.and_eq_true_iff.mp h).1).1

variable (ht : p.tasks[i]? = some t) (ha : t.act c = some a) (hcells : CellsApart p)
  (hcond : keepsOwnTrack b p i t a = true) (hI : OwnAnswers p b)

include ht ha hcells hcond hI

/-- While a call that is waited for has yet to send, every wire is quiet. -/
theorem step_asking (j : Nat) (u : Task) (cell : Nat)
    (hu : ((client geo).resumed p i a).tasks[j]? = some u)
    (hask : u.asking = some (.start, cell))
    (hwait : ((client geo).after a p.shared).inner.startWait = some cell) (k : Nat) :
    quiet (((client geo).after a p.shared).wire k) = true := by
  have hserver := keepsOwnTrack_server p i t a b hcond
  have hcell := asking_startCell u cell hask
  rcases (client geo).resumed_get_cases p i j a t u ht hu with
    ⟨rfl, rfl⟩ | ⟨hji, hu'⟩ | ⟨_, hu'⟩
  · rcases heir_startCell geo t c a p.shared ha cell hcell with
      ⟨_, hheir, _⟩ | ⟨_, hheir, _⟩ | ⟨hinst, _⟩
    · rw [hheir] at hask
      cases hask
    · rw [hheir] at hask
      cases hask
    · rcases keepsOwnTrack_installs p j t a b hcond hinst with ⟨hno, hq⟩
      exact quiet_step geo p j t a hserver k (fun hyes => by cases hyes.symm.trans hno) (hq k)
  · rcases after_wait_fresh geo a p.shared .start cell hwait with hold | ⟨_, rfl, _⟩
    · refine quiet_step geo p i t a hserver k (fun hstarts hk => ?_)
        (hI.asking j u cell hu' hask hold k)
      -- It would have to have sent before.
      have hsent := keepsOwnTrack_sent p i t a b hcond k hstarts hk j u hji hu' cell hcell hold
      cases hask.symm.trans hsent.1
    · exact absurd (hcells.starts_lt j u _ hu' hcell) (Nat.lt_irrefl _)
  · rw [(spawned_cell geo t c a p.shared ha u (List.mem_of_getElem? hu')).1] at hcell
    cases hcell

/-- Once a call has sent, its command is the next to be answered. -/
theorem step_waiting (j cell : Nat)
    (hu : ((client geo).resumed p i a).tasks[j]? = some (.startTrack (.reply cell)))
    (hwait : ((client geo).after a p.shared).inner.startWait = some cell) :
    ∃ n, noteStart p i t a b j = some n ∧
      (startedUids (((client geo).after a p.shared).wire n.sock)).length = n.rank ∧
      ∀ k, k ≠ n.sock → quiet (((client geo).after a p.shared).wire k) = true := by
  have hserver := keepsOwnTrack_server p i t a b hcond
  -- A cell that a call has is not fresh, so its waiter is an old one.
  have hold : ∀ (v : Task), p.tasks[j]? = some v → v.startCell = some cell →
      p.shared.inner.startWait = some cell := by
    intro v hv hcell
    rcases after_wait_fresh geo a p.shared .start cell hwait with hold | ⟨_, rfl, _⟩
    · exact hold
    · exact absurd (hcells.starts_lt j v _ hv hcell) (Nat.lt_irrefl _)
  rcases (client geo).resumed_get_cases p i j a t _ ht hu with
    ⟨rfl, hheir⟩ | ⟨hji, hu'⟩ | ⟨_, hu'⟩
  · rcases heir_startCell geo t c a p.shared ha cell (by rw [← hheir]; rfl) with
      ⟨rfl, _, hafter⟩ | ⟨hask, _, hacc⟩ | ⟨_, hask, _⟩
    · rw [hafter, noteStart_keep p j j _ a b (fun _ => rfl)]
      exact hI.waiting j cell ht (hold _ ht rfl)
    · -- Its command goes onto a quiet wire, and the others stay quiet.
      have hq := hI.asking j t cell ht hask (hold t ht (asking_startCell t cell hask))
      rcases Option.ne_none_iff_exists'.mp hacc with ⟨k, hk⟩
      rcases asking_act geo t c a ha .start cell hask with ⟨frame, hcmd, hafter⟩
      rcases sendBin_accepts frame none p.shared k hk with ⟨hw, hs⟩
      rw [(hafter p.shared).trans (congrArg Prod.fst hs)]
      refine ⟨_, noteStart_sent p j t a b cell k hask hk, ?_, fun k' hk' => ?_⟩
      · rw [Shared.wire_logTraffic_writing p.shared k _ hw]
        exact ((quiet_iff _).mp (hq k)).symm
      · rw [Shared.wire_logTraffic, if_neg fun h => hk' h.1.symm]
        exact hq k'
    · rw [← hheir] at hask
      cases hask
  · rw [noteStart_keep p i j t a b (fun h => absurd h hji)]
    have hwait' := hold _ hu' rfl
    rcases hI.waiting j cell hu' hwait' with ⟨n, hn, hlen, hq⟩
    refine ⟨n, hn, ?_, fun k hk => ?_⟩
    · rcases after_starts geo a p.shared n.sock with
        ⟨_, hw⟩ | ⟨_, _, hw⟩ | ⟨uid, metadata, hears, _⟩
      · rw [hw, hlen]
      · rw [hw, hlen]
      · -- An answer would have taken the waiter.
        have hnone : ((client geo).after a p.shared).inner.startWait = none :=
          after_replied geo t c a p.shared ha n.sock _ hears .start rfl
        cases hwait.symm.trans hnone
    · refine quiet_step geo p i t a hserver k (fun hstarts hacc => ?_) (hq k hk)
      have hsent := keepsOwnTrack_sent p i t a b hcond k hstarts hacc j _ hji hu' cell rfl hwait'
      rw [hn] at hsent
      exact hk (Option.some.inj hsent.2).symm
  · rcases spawned_cell geo t c a p.shared ha _ (List.mem_of_getElem? hu') with ⟨hnone, _⟩
    cases hnone

omit hcells in
/-- The answer that is dispatched to a waiting call is the one to its command. -/
theorem dispatched_own (k cell : Nat) (uid : String) (metadata : Bytes)
    (hears : a.op.hears = some (k, .trackStarted uid metadata))
    (hwait : p.shared.inner.startWait = some cell) (j : Nat) (u : Task)
    (hu : p.tasks[j]? = some u) (hcell : u.startCell = some cell) :
    u = .startTrack (.reply cell) ∧
      GivenUid ((client geo).after a p.shared) (noteStart p i t a b) j uid := by
  have hserver := answersStarts_iff p i t a (keepsOwnTrack_server p i t a b hcond) k uid metadata
    hears
  have hloud : quiet (p.shared.wire k) ≠ true := by
    intro hq
    rw [not_answers_quiet _ uid metadata hq] at hserver
    cases hserver
  rcases startCell_cases u cell hcell with hask | rfl
  · exact absurd (hI.asking j u cell hu hask hwait k) hloud
  · refine ⟨rfl, ?_⟩
    rcases hI.waiting j cell hu hwait with ⟨n, hn, hlen, hq⟩
    -- Only the wire of its own command has one that is not answered.
    have hk : k = n.sock := by
      by_contra hk
      exact hloud (hq k hk)
    have hlt : k < p.shared.sockets.length := by
      by_contra hge
      refine hloud ?_
      rw [Shared.wire, List.getElem?_eq_none (Nat.le_of_not_lt hge)]
      rfl
    have hw : ((client geo).after a p.shared).wire k = _ :=
      run_hears geo a.op p.shared k _ hears hlt
    refine ⟨n, ?_, ?_⟩
    · rw [noteStart_keep p i j t a b ?_]
      · exact hn
      · rintro rfl
        rcases act_hears t c a ha k _ hears with ⟨gen, rfl, _⟩
        rfl
    · rw [← hk, ← hlen, ← hk]
      refine assigned_next uid (p.shared.wire k) _ ?_
      rw [hw]
      rfl

/-- Whatever answers a call is the answer to its command. -/
theorem step_answered (cell : Nat) (r : Reply)
    (hans : Answered ((client geo).resumed p i a) cell r) (j : Nat) (u : Task)
    (hu : ((client geo).resumed p i a).tasks[j]? = some u) (hcell : u.startCell = some cell) :
    u = .startTrack (.reply cell) ∧
      GivenUid ((client geo).after a p.shared) (noteStart p i t a b) j r.uid := by
  -- A cell that is answered was there before, with the call that waits for it.
  have hlt : cell < p.shared.cells.length := by
    rcases answered_step geo p i c t a ht ha cell r hans with hold | ⟨_, _, w, _, hwait, _⟩
    · exact hcells.answered_lt cell r hold
    · exact hcells.waits_lt w cell hwait
  have hown : ∃ v, p.tasks[j]? = some v ∧ v.startCell = some cell := by
    rcases startCell_step geo p i c t a ht ha j u hu cell hcell with hold | ⟨_, _, rfl, _⟩
    · exact hold
    · exact absurd hlt (Nat.lt_irrefl _)
  rcases hown with ⟨v, hv, hvcell⟩
  rcases answered_step geo p i c t a ht ha cell r hans with
    hold | ⟨k, evt, w, hears, hwait, hevt⟩
  · rcases hI.answered cell r hold j v hv hvcell with ⟨rfl, hgiven⟩
    rcases (client geo).resumed_get_cases p i j a t u ht hu with
      ⟨rfl, rfl⟩ | ⟨hji, hu'⟩ | ⟨hge, _⟩
    · cases ht.symm.trans hv
      refine ⟨?_, given_step geo a p.shared b _ j r.uid
        (noteStart_keep p j j _ a b (fun _ => rfl)) hgiven⟩
      rcases heir_startCell geo _ c a p.shared ha cell hcell with
        ⟨_, hheir, _⟩ | ⟨hask, _⟩ | ⟨_, _, _, rfl⟩
      · exact hheir
      · cases hask
      · exact absurd hlt (Nat.lt_irrefl _)
    · cases hu'.symm.trans hv
      exact ⟨rfl, given_step geo a p.shared b _ j r.uid
        (noteStart_keep p i j t a b (fun h => absurd h hji)) hgiven⟩
    · exact absurd (List.getElem?_eq_some_iff.mp hv).1 (Nat.not_lt_of_le hge)
  · have hw := hcells.apart w cell j v hwait hv hvcell
    subst hw
    rcases hevt rfl with ⟨metadata, rfl⟩
    rcases dispatched_own geo p i c t a b ht ha hcond hI k cell r.uid metadata hears hwait j
      v hv hvcell with ⟨rfl, hgiven⟩
    refine ⟨?_, hgiven⟩
    -- The step is one of a reader, so the call is where it was.
    have hji : j ≠ i := by
      rintro rfl
      rcases act_hears t c a ha k _ hears with ⟨gen, rfl, _⟩
      cases ht.symm.trans hv
    rw [(client geo).resumed_get_other p i j a _ hji hv] at hu
    exact (Option.some.inj hu).symm

omit hcells in
theorem step_returned : OwnTrack ((client geo).resumed p i a) (noteStart p i t a b) := by
  intro j uid hu
  show GivenUid ((client geo).after a p.shared) (noteStart p i t a b) j uid
  rcases (client geo).resumed_get_cases p i j a t _ ht hu with
    ⟨rfl, hheir⟩ | ⟨hji, hu'⟩ | ⟨_, hu'⟩
  · rcases heir_started geo t c a p.shared ha uid hheir.symm with ⟨cell, r, rfl, hsent, rfl⟩
    rcases hI.answered cell r (Or.inl hsent) j _ ht rfl with ⟨_, hgiven⟩
    exact given_step geo a p.shared b _ j r.uid
      (noteStart_keep p j j _ a b (fun _ => rfl)) hgiven
  · exact given_step geo a p.shared b _ j uid
      (noteStart_keep p i j t a b (fun h => absurd h hji)) (hI.returned j uid hu')
  · rcases spawned_cases geo t c a p.shared ha _ (List.mem_of_getElem? hu') with
      ⟨_, _, _, _, h | h⟩ | ⟨_, _, _, h | h | ⟨_, h⟩⟩ | ⟨_, _, _, h⟩ <;> cases h

/-- A step keeps answers with their calls. -/
theorem step_ownAnswers :
    OwnAnswers ((client geo).resumed p i a) (noteStart p i t a b) where
  asking := fun j u cell hu hask hwait =>
    step_asking geo p i c t a b ht ha hcells hcond hI j u cell hu hask hwait
  waiting := fun j cell hu hwait =>
    step_waiting geo p i c t a b ht ha hcells hcond hI j cell hu hwait
  answered := fun cell r hans j u hu hcell =>
    step_answered geo p i c t a b ht ha hcells hcond hI cell r hans j u hu hcell
  returned := step_returned geo p i c t a b ht ha hcond hI

end Step

variable (cfg : Config)

/-- Every call of `start_track` that returns a uid returns the one the server
    gave to its own `TrackStart`, in every run in which none gets ahead. -/
theorem reach_ownTrack (p : Pool Shared Task) (b : Nat → Option StartNote)
    (h : (client geo).Tallied (Started cfg) (fun b p i t a => keepsOwnTrack b p i t a = true)
      noteStart (fun _ => none) p b) : OwnTrack p b := by
  refine OwnAnswers.returned ?_
  refine (client geo).tallied_inv (Started cfg) _ noteStart _ CellsApart
    (fun p hp => reach_cellsApart geo cfg _ p hp) OwnAnswers ?_ ?_ ?_ p b h
  · intro p hp
    rcases started_pool cfg p hp with ⟨now, rfl⟩
    -- A dial neither asks nor waits, and nothing is answered.
    refine ⟨?_, ?_, ?_, ?_⟩
    · rintro j u cell _ _ ⟨⟩
    · rintro j cell _ ⟨⟩
    · intro cell r _ j u hu hcell
      rw [List.mem_singleton.mp (List.mem_of_getElem? hu)] at hcell
      cases hcell
    · intro j uid hu
      cases List.mem_singleton.mp (List.mem_of_getElem? hu)
  · intro p i c t a b ht ha hcond hcells hI
    exact step_ownAnswers geo p i c t a b ht ha hcells hcond hI
  · intro p t b hent _ hI
    -- A new call holds no cell, so nothing is said about it.
    have hcell := spawn_startCell geo p t hent
    refine ⟨?_, ?_, ?_, ?_⟩
    · intro j u cell hu hask hwait
      exact hI.asking j u cell (hcell j u cell hu (asking_startCell u cell hask)) hask hwait
    · intro j cell hu hwait
      exact hI.waiting j cell (hcell j _ cell hu rfl) hwait
    · intro cell r hans j u hu hstart
      exact hI.answered cell r (spawn_answered geo p t hent cell r hans) j u
        (hcell j u cell hu hstart) hstart
    · intro j uid hu
      rcases Machine.entered_get_cases p.tasks t _ j hu with hold | rfl
      · exact hI.returned j uid hold
      · cases ((entry_iff geo _ _).mp hent).2

end Client

/-- The start of a `publish` is answered. Then two calls of `start_track` follow each
    other: each sends its command and waits, and the server answers. -/
def ownStarts : List (Label Task Input) :=
  tracking ++ [.spawn (.startTrack (.start none [] [])), .resume 4 (.clock 0 0),
    .resume 4 (.clock 0 0), .resume 2 (.frame (.trackStarted "A" [])), .resume 2 .go,
    .resume 2 .go, .resume 4 .go,
    .spawn (.startTrack (.start none [] [])), .resume 5 (.clock 0 0), .resume 5 (.clock 0 0),
    .resume 2 (.frame (.trackStarted "B" [])), .resume 2 .go, .resume 2 .go, .resume 5 .go]

/-- Each call returns the uid given to its own command, the second and the third one
    of the socket. -/
theorem reach_ownTrack_calls :
    ∃ (p : Pool Shared Task) (b : Nat → Option StartNote),
      b 4 = some ⟨0, 1⟩ ∧ b 5 = some ⟨0, 2⟩ ∧
      p.tasks[4]? = some (.returned (.startTrack (.ok "A"))) ∧ GivenUid p.shared b 4 "A" ∧
      p.tasks[5]? = some (.returned (.startTrack (.ok "B"))) ∧ GivenUid p.shared b 5 "B" := by
  rcases (client flatGeo).exists_tallied (Started someConfig)
    (fun b p i t a => keepsOwnTrack b p i t a = true) noteStart (fun _ => none) keepsOwnTrack
    (fun _ _ _ _ _ h => h) ownStarts fresh started_fresh
    (fun p b => decide (b 4 = some ⟨0, 1⟩ ∧ b 5 = some ⟨0, 2⟩ ∧
      p.tasks[4]? = some (Task.returned (.startTrack (.ok "A"))) ∧
      p.tasks[5]? = some (Task.returned (.startTrack (.ok "B")))))
    (by decide +kernel) with ⟨p, b, hp, hrun⟩
  rcases of_decide_eq_true hrun with ⟨hnote, hnote', hret, hret'⟩
  have hown := reach_ownTrack flatGeo someConfig p b hp
  exact ⟨p, b, hnote, hnote', hret, hown 4 "A" hret, hret', hown 5 "B" hret'⟩

/-- `publish` starts a track, and `start_track` sends its command on the same
    socket before the first is answered. -/
def autoStarted : List (Label Task Input) :=
  opening ++ [.spawn (.publish (.start (sample 0))), .resume 3 (.clock 0 0), .resume 3 .go,
    .spawn (.startTrack (.start none [] [])), .resume 4 (.clock 0 0), .resume 4 (.clock 0 0),
    .resume 2 (.frame (.trackStarted "A" [])), .resume 2 .go, .resume 2 .go, .resume 4 .go,
    .resume 2 (.frame (.trackStarted "B" []))]

/-- `start_track` returns the uid of the track that `publish` started. -/
theorem auto_start_answers_first :
    ¬ ∀ p b, (client flatGeo).Tallied (Started someConfig)
      (fun _ p i t a => answersStarts p i t a = true) noteStart (fun _ => none) p b →
      OwnTrack p b := by
  intro hall
  rcases (client flatGeo).exists_tallied (Started someConfig)
    (fun _ p i t a => answersStarts p i t a = true) noteStart (fun _ => none)
    (fun _ => answersStarts) (fun _ _ _ _ _ h => h) autoStarted fresh started_fresh
    (fun p b => decide (p.tasks[4]? = some (Task.returned (.startTrack (.ok "A"))) ∧
      b 4 = some ⟨0, 1⟩ ∧ assigned (p.shared.wire 0) 1 = some "B"))
    (by decide +kernel) with ⟨p, b, hp, hrun⟩
  rcases of_decide_eq_true hrun with ⟨hret, hnote, huid⟩
  rcases hall p b hp 4 "A" hret with ⟨n, hn, hown⟩
  cases hnote.symm.trans hn
  exact absurd (Option.some.inj (huid.symm.trans hown)) (by decide)

end Tracking

end Pickpoint
