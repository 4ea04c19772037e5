import Pickpoint.Theory.Desk
import Pickpoint.Theory.FirstSocket
import Pickpoint.Theory.Server

/-!
# Unsubscribing

Whether the server drops a device the client has dropped. The server hands out
a handle for every `Subscribe`, and only an `Unsubscribe` with that handle ends
it, so `unsubscribe` needs to know the handle.

It may not: a device may be given up while its `Subscribe` is on the way, and
then nothing is sent (`unsubscribe_leaks`). Or a device was subscribed twice,
and only the later handle is known. When a device is given up with nothing on
the way for it and one handle at most (`givesUpWhole`), the sets agree whenever
everything has settled (`reach_subscribedAgree`).

The session on one open socket is a desk in the sense of `Theory.Desk`:
`step_desk` says that each of its steps makes a move there.

## Main definitions

* `unanswered`, `liveHandles`: What a wire says of the server.
* `inOrder`: The server answers in order, with fresh handles.
* `desk`: The session as a desk.
* `SubscribedAgree`: The sets agree once everything has settled.
* `givesUpWhole`: Nothing is on the way for a device that is given up.
* `Task.plain`: The tasks that have nothing to do with subscriptions.
* `Tended`: What a session on its first socket keeps.

## Theorems

* `desk_idle`: Most steps leave the desk alone.
* `desk_send`, `desk_subscribe`, `desk_unsubscribe`, `desk_drop`, `desk_answer`:
  The others move it.
* `step_desk`: Every step moves it.
* `reach_tended`: A session on its first socket is tended.
* `reach_subscribedAgree`: The sets agree.
* `unsubscribe_leaks`: Not so in general.
-/

namespace Pickpoint

namespace Tracking

open Interleave

/-- The devices whose `Subscribe` has not been answered, oldest first. -/
def unanswered : List Traffic → List String
  | [] => []
  | .sent (.bin (.cmd (.subscribe deviceUid _ _))) _ :: w => unanswered w ++ [deviceUid]
  | .got (.subscribed _ _ _ _ _ _ _ _ _ _ _ _) :: w => (unanswered w).tail
  | _ :: w => unanswered w

/-- The handles a server has given out and was not told to drop. -/
def liveHandles : List Traffic → List (UInt8 × String)
  | [] => []
  | .got (.subscribed sub deviceUid _ _ _ _ _ _ _ _ _ _) :: w =>
    (sub, deviceUid) :: liveHandles w
  | .sent (.bin (.cmd (.unsubscribe sub))) _ :: w =>
    (liveHandles w).filter fun h => h.1 ≠ sub
  | _ :: w => liveHandles w

/-- What `inOrder` asks of a section. -/
def Section.inOrder (s : Shared) : {α : Type} → Section α → Bool
  | _, .dispatchSubscribed sock _ sub deviceUid =>
    (unanswered (s.wire sock)).head? == some deviceUid &&
      !((liveHandles (s.wire sock)).any fun h => h.1 == sub)
  | _, _ => true

/-- The server answers the oldest `Subscribe`, with a handle that is not in use.
    That is how the reference server of the protocol behaves; the claims about what
    it holds rest on it. -/
def inOrder (p : Pool Shared Task) (_ : Nat) (_ : Task) (a : Act Section Task) : Bool :=
  a.op.inOrder p.shared

/-- The task is about to send a `Subscribe` for the device. -/
def Task.sends (s : Shared) (deviceUid : String) : Task → Bool
  | .subscribeSend d => d == deviceUid
  | .dial _ (.resubscribe _) => s.inner.subscriptions.contains deviceUid
  | .dial _ (.subscribing _ ds) => ds.contains deviceUid
  | _ => false

/-- The handle a task is about to send an `Unsubscribe` for. -/
def Task.drops : Task → Option UInt8
  | .unsubscribeSend sub => some sub
  | _ => none

/-- The session on its first socket, as a desk. -/
def desk (p : Pool Shared Task) : Desk String UInt8 where
  wanted := {d | d ∈ p.shared.inner.subscriptions}
  handle := p.shared.inner.subByDevice
  asked := unanswered (p.shared.wire 0)
  live := liveHandles (p.shared.wire 0)
  sending := {d | ∃ u ∈ p.tasks, u.sends p.shared d = true}
  dropping := {x | ∃ u ∈ p.tasks, u.drops = some x}

/-- On one open socket, when no message is on its way and no task is about to
    send one, the server holds handles for the subscribed devices. -/
def SubscribedAgree (p : Pool Shared Task) : Prop :=
  OneSocket p.shared → unanswered (p.shared.wire 0) = [] →
    (∀ t ∈ p.tasks, t.drops = none ∧ ∀ d, t.sends p.shared d = false) →
    ∀ d, d ∈ p.shared.inner.subscriptions ↔ ∃ sub, (sub, d) ∈ liveHandles (p.shared.wire 0)

/-- The handles of a device on a socket that no task is about to drop. -/
def keptHandles (p : Pool Shared Task) (k : Nat) (deviceUid : String) : List (UInt8 × String) :=
  (liveHandles (p.shared.wire k)).filter fun h =>
    h.2 == deviceUid && !p.tasks.any fun t => t.drops == some h.1

/-- What `givesUpWhole` asks of a section. -/
def Section.givesUpWhole (p : Pool Shared Task) : {α : Type} → Section α → Bool
  | _, .unsubscribe deviceUid =>
    match p.shared.inner.outTx with
    | none => true
    | some k =>
      !(unanswered (p.shared.wire k)).contains deviceUid &&
        !(p.tasks.any fun t => t.sends p.shared deviceUid) &&
        decide ((keptHandles p k deviceUid).length ≤ 1)
  | _, _ => true

/-- A device is given up when no `Subscribe` for it is unanswered or about to be
    sent, and it has one handle at most that is not being dropped. -/
def givesUpWhole (p : Pool Shared Task) (_ : Nat) (_ : Task) (a : Act Section Task) : Bool :=
  a.op.givesUpWhole p

/-- The sections that hand a `Subscribe` or an `Unsubscribe` over. -/
def Section.asks : {α : Type} → Section α → Bool
  | _, .sendBin (.cmd (.subscribe _ _ _)) _ => true
  | _, .sendBin (.cmd (.unsubscribe _)) _ => true
  | _, _ => false

/-! ## Wires -/

theorem asked_got (evt : ServerEvt) (w : List Traffic)
    (h : ∀ a b c d e f g i j k l m, evt ≠ .subscribed a b c d e f g i j k l m) :
    unanswered (.got evt :: w) = unanswered w ∧ liveHandles (.got evt :: w) = liveHandles w := by
  cases evt with
  | subscribed => exact absurd rfl (h _ _ _ _ _ _ _ _ _ _ _ _)
  | _ => exact ⟨rfl, rfl⟩

theorem asked_sent (out : Outbound) (ticket : Option Ticket) (w : List Traffic)
    (h : ∀ cmd, out = .bin (.cmd cmd) → (Section.sendBin (.cmd cmd) ticket).asks = false) :
    unanswered (.sent out ticket :: w) = unanswered w ∧
      liveHandles (.sent out ticket :: w) = liveHandles w := by
  cases out with
  | close => exact ⟨rfl, rfl⟩
  | bin frame =>
      cases frame with
      | loc f => exact ⟨rfl, rfl⟩
      | cmd cmd =>
          have hcmd := h cmd rfl
          cases cmd with
          | subscribe => cases hcmd
          | unsubscribe => cases hcmd
          | _ => exact ⟨rfl, rfl⟩

section Client

variable (geo : Geo)

/-- A step that neither asks nor binds leaves what a wire says of the server
    alone. -/
theorem after_asked (t : Task) (c : Input) (a : Act Section Task) (s : Shared)
    (h : t.act c = some a) (hasks : a.op.asks = false) (hbinds : a.op.binds = none) (k : Nat) :
    unanswered (((client geo).after a s).wire k) = unanswered (s.wire k) ∧
      liveHandles (((client geo).after a s).wire k) = liveHandles (s.wire k) := by
  rcases run_wire geo a.op s k with hw | ⟨evt, hears, hw⟩ | ⟨out, ticket, hop, _, _, hw⟩
  · have hw' : ((client geo).after a s).wire k = s.wire k := hw
    rw [hw']
    exact ⟨rfl, rfl⟩
  · have hw' : ((client geo).after a s).wire k = .got evt :: s.wire k := hw
    rw [hw']
    refine asked_got evt _ ?_
    rintro _ _ _ _ _ _ _ _ _ _ _ _ rfl
    rcases act_hears t c a h k _ hears with ⟨gen, rfl, rfl⟩
    cases hbinds
  · have hw' : ((client geo).after a s).wire k = .sent out ticket :: s.wire k := hw
    rw [hw']
    refine asked_sent out ticket _ ?_
    rintro cmd rfl
    rcases a with ⟨op, next⟩
    cases op <;> cases hop
    exact hasks

/-- Who asks. -/
theorem act_asks (t : Task) (c : Input) (a : Act Section Task) (h : t.act c = some a)
    (hasks : a.op.asks = true) :
    (∃ d, t = .subscribeSend d) ∨ (∃ sub, t = .unsubscribeSend sub) ∨
      ∃ owner gen d ds, t = .dial owner (.subscribing gen (d :: ds)) := by
  rcases a with ⟨op, next⟩
  cases op with
  | sendBin frame ticket =>
      cases act_sends t c _ h frame ticket rfl with
      | subscribe d => exact Or.inl ⟨d, rfl⟩
      | unsubscribe sub => exact Or.inr (Or.inl ⟨sub, rfl⟩)
      | dialSubscribe owner gen d ds => exact Or.inr (Or.inr ⟨owner, gen, d, ds, rfl⟩)
      | _ => cases hasks
  | _ => cases hasks

/-! ## Moves -/

theorem sends_congr (s s' : Shared) (d : String) (u : Task)
    (h : s'.inner.subscriptions = s.inner.subscriptions ∨
      ∀ owner gen, u ≠ .dial owner (.resubscribe gen)) : u.sends s' d = u.sends s d := by
  cases u with
  | dial owner pc =>
      cases pc with
      | resubscribe gen =>
          rcases h with h | h
          · simp only [Task.sends, h]
          · exact absurd rfl (h owner gen)
      | _ => rfl
  | _ => rfl

/-- Nothing that is spawned sends for the desk. -/
theorem spawned_desk (t : Task) (c : Input) (a : Act Section Task) (s s' : Shared)
    (h : t.act c = some a) (u : Task) (hu : u ∈ (client geo).spawned a s) :
    u.drops = none ∧ ∀ d, u.sends s' d = false := by
  rcases spawned_cases geo t c a s h u hu with
    ⟨_, _, _, _, rfl | rfl⟩ | ⟨_, _, _, rfl | rfl | ⟨_, rfl⟩⟩ | ⟨_, _, _, rfl⟩ <;>
    exact ⟨rfl, fun _ => rfl⟩

/-- What a step does to what is about to be sent: the task that steps counts
    with what it becomes, the others as before. -/
theorem desk_sending (p : Pool Shared Task) (i : Nat) (c : Input) (t : Task)
    (a : Act Section Task) (ht : p.tasks[i]? = some t) (ha : t.act c = some a)
    (hsame : ((client geo).after a p.shared).inner.subscriptions = p.shared.inner.subscriptions ∨
      ∀ (j : Nat) u, p.tasks[j]? = some u → ∀ owner gen, u ≠ .dial owner (.resubscribe gen)) :
    ∃ rest : Set String,
      (desk p).sending = {d | t.sends p.shared d = true} ∪ rest ∧
      (desk ((client geo).resumed p i a)).sending =
        {d | ((client geo).heir a p.shared).sends ((client geo).after a p.shared) d = true} ∪
          rest := by
  refine ⟨{d | ∃ (j : Nat) (u : Task), j ≠ i ∧ p.tasks[j]? = some u ∧
    u.sends p.shared d = true}, Set.ext fun d => ?_, Set.ext fun d => ?_⟩
  · exact Machine.exists_task_iff p i t ht fun u => u.sends p.shared d = true
  · have hnew : ∀ u ∈ (client geo).spawned a p.shared,
        ¬ u.sends ((client geo).after a p.shared) d = true := by
      intro u hu hs
      rw [(spawned_desk geo t c a p.shared _ ha u hu).2 d] at hs
      cases hs
    refine ((client geo).exists_resumed_iff p i a t ht
      (fun u => u.sends ((client geo).after a p.shared) d = true) hnew).trans ?_
    refine or_congr Iff.rfl (exists_congr fun j => exists_congr fun u => ?_)
    refine and_congr_right fun _ => and_congr_right fun hu => ?_
    rw [sends_congr p.shared _ d u (hsame.imp id fun hno => hno j u hu)]

/-- The same for what is about to be dropped. -/
theorem desk_dropping (p : Pool Shared Task) (i : Nat) (c : Input) (t : Task)
    (a : Act Section Task) (ht : p.tasks[i]? = some t) (ha : t.act c = some a) :
    ∃ rest : Set UInt8,
      (desk p).dropping = {x | t.drops = some x} ∪ rest ∧
      (desk ((client geo).resumed p i a)).dropping =
        {x | ((client geo).heir a p.shared).drops = some x} ∪ rest ∧
      ∀ x ∈ rest, ∃ (j : Nat) (u : Task), j ≠ i ∧ p.tasks[j]? = some u ∧ u.drops = some x := by
  refine ⟨{x | ∃ (j : Nat) (u : Task), j ≠ i ∧ p.tasks[j]? = some u ∧ u.drops = some x},
    Set.ext fun x => ?_, Set.ext fun x => ?_, fun x hx => hx⟩
  · exact Machine.exists_task_iff p i t ht fun u => u.drops = some x
  · refine (client geo).exists_resumed_iff p i a t ht (fun u => u.drops = some x) ?_
    intro u hu hd
    rw [(spawned_desk geo t c a p.shared p.shared ha u hu).1] at hd
    cases hd

/-- A step that has nothing to do with subscriptions leaves the desk alone. -/
theorem desk_idle (p : Pool Shared Task) (i : Nat) (c : Input) (t : Task)
    (a : Act Section Task) (ht : p.tasks[i]? = some t) (ha : t.act c = some a)
    (hasks : a.op.asks = false) (hbinds : a.op.binds = none)
    (hclears : a.op.clearsMaps p.shared = false) (hwants : a.op.wants = none)
    (hdrops : t.drops = none) (hdrops' : ((client geo).heir a p.shared).drops = none)
    (hsends : ∀ d, t.sends p.shared d = false)
    (hsends' : ∀ d, ((client geo).heir a p.shared).sends ((client geo).after a p.shared) d =
      false) : desk ((client geo).resumed p i a) = desk p := by
  have hroster := run_roster_keep geo a.op p.shared hbinds hclears hwants
  have hsubs : ((client geo).after a p.shared).inner.subscriptions =
      p.shared.inner.subscriptions := congrArg Roster.subscriptions hroster
  have hmap : ((client geo).after a p.shared).inner.subByDevice =
      p.shared.inner.subByDevice := congrArg Roster.subByDevice hroster
  rcases after_asked geo t c a p.shared ha hasks hbinds 0 with ⟨hasked, hlive⟩
  rcases desk_sending geo p i c t a ht ha (Or.inl hsubs) with ⟨rest, hs, hs'⟩
  rcases desk_dropping geo p i c t a ht ha with ⟨rest', hd, hd', _⟩
  refine Desk.ext ?_ hmap hasked hlive ?_ ?_
  · exact congrArg (fun l : List String => {d | d ∈ l}) hsubs
  · rw [hs, hs']
    simp only [hsends, hsends']
  · rw [hd, hd']
    simp only [hdrops, hdrops']

/-- A task that has nothing to do with subscriptions. -/
def Task.plain : Task → Bool
  | .subscribe _ | .subscribeSend _ | .unsubscribe _ | .unsubscribeSend _ => false
  | .dial _ pc => !pc.subscribes
  | _ => true

theorem plain_of_kind (t : Task) (h : t.plain = true) :
    t.kind ≠ .subscribe ∧ t.kind ≠ .unsubscribe := by
  cases t with
  | subscribe d => cases h
  | subscribeSend d => cases h
  | unsubscribe d => cases h
  | unsubscribeSend sub => cases h
  | _ => exact ⟨by rintro ⟨⟩, by rintro ⟨⟩⟩

theorem plain_quiet (t : Task) (s : Shared) (h : t.plain = true) :
    t.drops = none ∧ ∀ d, t.sends s d = false := by
  cases t with
  | subscribeSend d => cases h
  | unsubscribeSend sub => cases h
  | dial owner pc =>
      cases pc with
      | resubscribe gen => cases h
      | subscribing gen ds => cases h
      | _ => exact ⟨rfl, fun _ => rfl⟩
  | _ => exact ⟨rfl, fun _ => rfl⟩

/-- Only `resubscribe` and the loss of the socket clear the maps. -/
theorem act_clears (t : Task) (c : Input) (a : Act Section Task) (s : Shared)
    (h : t.act c = some a) (hclears : a.op.clearsMaps s = true) :
    (∃ owner gen, t = .dial owner (.resubscribe gen)) ∨ a.op.drive = .lose s.link.dialGen := by
  have hop : a.op.issuer = some .dial ∨ a.op.drive = .lose s.link.dialGen := by
    rcases a with ⟨op, next⟩
    cases op with
    | resubscribe => exact Or.inl rfl
    | socketClosed gen random => exact Or.inr (congrArg Drive.lose (eq_of_beq hclears))
    | _ => cases hclears
  refine hop.imp (fun hissuer => ?_) id
  have hkind := act_issuer t c a h .dial hissuer
  revert hclears
  revert h
  cases t with
  | dial owner pc =>
      simp only [Task.act]
      fun_cases Task.dialAct owner pc c <;> intro h <;> cases h <;> intro hclears <;>
        first
          | (cases hclears; done)
          | exact ⟨_, _, rfl⟩
  | _ => cases hkind

/-- What a task that has nothing to do with subscriptions does while the first
    socket stays current. -/
theorem plain_act (t : Task) (c : Input) (a : Act Section Task) (s : Shared)
    (h : t.act c = some a) (hplain : t.plain = true)
    (hcur : ((client geo).after a s).inner.outTx ≠ none) :
    a.op.asks = false ∧ a.op.clearsMaps s = false ∧ a.op.wants = none := by
  refine ⟨?_, ?_, ?_⟩
  · refine Bool.eq_false_iff.mpr fun hasks => ?_
    rcases act_asks t c a h hasks with ⟨_, rfl⟩ | ⟨_, rfl⟩ | ⟨_, _, _, _, rfl⟩ <;> cases hplain
  · refine Bool.eq_false_iff.mpr fun hclears => ?_
    rcases act_clears t c a s h hclears with ⟨_, _, rfl⟩ | hdrive
    · cases hplain
    · have hmove := after_moves geo a s
      rw [hdrive] at hmove
      exact hcur (move_lose _ _ hmove)
  · have hkind := plain_of_kind t hplain
    rcases a with ⟨op, next⟩
    cases op with
    | subscribe d => exact absurd (act_issuer t c _ h .subscribe rfl) hkind.1
    | unsubscribe d => exact absurd (act_issuer t c _ h .unsubscribe rfl) hkind.2
    | _ => rfl

/-- Such a task does not come to send or drop anything, up to the second
    socket. -/
theorem plain_heir (p : Pool Shared Task) (i : Nat) (c : Input) (t : Task)
    (a : Act Section Task) (ht : p.tasks[i]? = some t) (ha : t.act c = some a)
    (hplain : t.plain = true) (hfirst : FirstDial p) (hlen : p.shared.sockets.length ≤ 1)
    (hsame : ((client geo).after a p.shared).sockets.length = p.shared.sockets.length) :
    ((client geo).heir a p.shared).plain = true := by
  have hkind := plain_of_kind t hplain
  have hfollows := heir_kind geo t c a p.shared ha
  generalize hu : (client geo).heir a p.shared = u at hfollows
  -- Only a call goes on as a call, and this task is neither of the two.
  have hcall : u.kind ≠ .subscribe ∧ u.kind ≠ .unsubscribe := by
    rcases hfollows with hk | hk | ⟨_, _, _, _, hk⟩
    · rw [hk]
      exact hkind
    · rw [hk]
      exact ⟨by rintro ⟨⟩, by rintro ⟨⟩⟩
    · rw [hk]
      exact ⟨by rintro ⟨⟩, by rintro ⟨⟩⟩
  cases u with
  | dial owner pc =>
      by_contra hpc
      have hin : pc.installed = true := by
        cases pc with
        | resubscribe gen => rfl
        | subscribing gen ds => rfl
        | _ => exact absurd rfl hpc
      rcases heir_installed geo t c a p.shared ha owner pc hu hin with
        ⟨pc', rfl, hin', _⟩ | ⟨_, _, _, _, hnew⟩
      · have hsub := (hfirst hlen i owner pc' ht hin').2
        simp only [Task.plain, hsub, Bool.not_true, Bool.false_eq_true] at hplain
      · -- A dial gets here with a new socket, and there is none.
        omega
  | subscribe d => exact absurd rfl hcall.1
  | subscribeSend d => exact absurd rfl hcall.1
  | unsubscribe d => exact absurd rfl hcall.2
  | unsubscribeSend sub => exact absurd rfl hcall.2
  | _ => rfl

/-! ## Steps on one socket -/

/-- What a session on its first socket keeps. Until the subscriptions are sent
    for the first time, nothing has been asked for. -/
structure Tended (p : Pool Shared Task) : Prop where
  balanced : (desk p).Balanced
  distinct : Machine.Distinct (fun t u => ∀ x, t.drops = some x → u.drops ≠ some x) p
  opening : ∀ (j : Nat) owner gen, p.tasks[j]? = some (.dial owner (.resubscribe gen)) →
    unanswered (p.shared.wire 0) = [] ∧ liveHandles (p.shared.wire 0) = []

theorem sendBin_one (frame : Frame) (ticket : Option Ticket) (s : Shared) (h : OneSocket s) :
    sendBin frame ticket s = (s.logTraffic 0 (.sent (.bin frame) ticket), .ok ()) := by
  refine sendBin_open frame ticket s 0 ?_ h.current h.writing
  rw [h.state]
  rintro ⟨hc, _⟩
  cases hc

/-- While calls are there, the dial of `connect` has sent the subscriptions. -/
theorem calling_sent (p : Pool Shared Task) (hb : Beginning p) (hone : OneSocket p.shared)
    (i : Nat) (t : Task) (ht : p.tasks[i]? = some t) (hcalls : t.calls) (j : Nat) (owner : Owner)
    (pc : DialPc) (hin : pc.installed = true) : p.tasks[j]? ≠ some (.dial owner pc) := by
  intro hj
  have howner := (hb.first (Nat.le_of_eq hone.count) j owner pc hj hin).1
  subst howner
  cases (hb.connecting j pc hj).2.symm.trans (hb.calling i t ht hcalls)

theorem calling_resubscribed (p : Pool Shared Task) (hb : Beginning p) (hone : OneSocket p.shared)
    (i : Nat) (t : Task) (ht : p.tasks[i]? = some t) (hcalls : t.calls) (j : Nat) (u : Task)
    (hu : p.tasks[j]? = some u) (owner : Owner) (gen : Nat) :
    u ≠ .dial owner (.resubscribe gen) := by
  rintro rfl
  exact calling_sent p hb hone i t ht hcalls j owner _ rfl hu

/-- What the desk takes from the shared state. -/
theorem desk_after (p : Pool Shared Task) (i : Nat) (a : Act Section Task) (s : Shared)
    (h : (client geo).after a p.shared = s) :
    (desk ((client geo).resumed p i a)).wanted = {e | e ∈ s.inner.subscriptions} ∧
      (desk ((client geo).resumed p i a)).handle = s.inner.subByDevice ∧
      (desk ((client geo).resumed p i a)).asked = unanswered (s.wire 0) ∧
      (desk ((client geo).resumed p i a)).live = liveHandles (s.wire 0) := by
  subst h
  exact ⟨rfl, rfl, rfl, rfl⟩

/-- A `Subscribe` is sent. -/
theorem desk_send (p : Pool Shared Task) (i : Nat) (c : Input) (t : Task)
    (a : Act Section Task) (ht : p.tasks[i]? = some t) (ha : t.act c = some a)
    (hone : OneSocket p.shared) (d : String)
    (hafter : (client geo).after a p.shared =
      p.shared.logTraffic 0 (.sent (.bin (.cmd (.subscribe d true 0))) none))
    (hsends : {e | t.sends p.shared e = true} =
      insert d {e | ((client geo).heir a p.shared).sends ((client geo).after a p.shared) e = true})
    (hdrops : t.drops = none) (hdrops' : ((client geo).heir a p.shared).drops = none) :
    (desk p).Move (desk ((client geo).resumed p i a)) := by
  have hsubs : ((client geo).after a p.shared).inner.subscriptions =
      p.shared.inner.subscriptions := by
    rw [hafter]
    rfl
  have hwire := Shared.wire_logTraffic_writing p.shared 0
    (.sent (.bin (.cmd (.subscribe d true 0))) none) hone.writing
  rcases desk_sending geo p i c t a ht ha (Or.inl hsubs) with ⟨rest, hs, hs'⟩
  rcases desk_dropping geo p i c t a ht ha with ⟨rest', hd, hd', _⟩
  rcases desk_after geo p i a _ hafter with ⟨hwanted, hhandle, hasked, hlive⟩
  rw [hwire] at hasked hlive
  rw [hsends, Set.insert_union] at hs
  -- The request moves from the sender to the wire.
  have hnext : desk ((client geo).resumed p i a) =
      { desk p with
        asked := (desk p).asked ++ [d]
        sending := {e | ((client geo).heir a p.shared).sends ((client geo).after a p.shared) e =
          true} ∪ rest } := by
    refine Desk.ext hwanted hhandle hasked hlive hs' ?_
    rw [hd', hd, hdrops, hdrops']
  rw [hnext]
  exact .send _ d _ hs

/-- `subscribe` adds the device and is about to ask for it. -/
theorem desk_subscribe (p : Pool Shared Task) (i : Nat) (c : Input) (d : String)
    (a : Act Section Task) (ht : p.tasks[i]? = some (.subscribe d))
    (ha : (Task.subscribe d).act c = some a) (hb : Beginning p) (hone : OneSocket p.shared)
    (hafter : (client geo).after a p.shared = subscribe d p.shared)
    (hheir : (client geo).heir a p.shared = .subscribeSend d) :
    (desk p).Move (desk ((client geo).resumed p i a)) := by
  have hno := fun (j : Nat) u hu owner gen =>
    calling_resubscribed p hb hone i _ ht (Or.inl rfl) j u hu owner gen
  rcases desk_sending geo p i c _ a ht ha (Or.inr hno) with ⟨rest, hs, hs'⟩
  rcases desk_dropping geo p i c _ a ht ha with ⟨rest', hd, hd', _⟩
  rcases desk_after geo p i a _ hafter with ⟨hwanted, hhandle, hasked, hlive⟩
  rw [hheir] at hs' hd'
  have hnext : desk ((client geo).resumed p i a) =
      { desk p with wanted := insert d (desk p).wanted, sending := insert d (desk p).sending } := by
    refine Desk.ext (hwanted.trans ?_) hhandle hasked hlive ?_ (hd'.trans hd.symm)
    · exact Set.ext fun e => List.mem_insert_iff
    · rw [hs', hs]
      refine Set.ext fun e => ?_
      simp only [Task.sends, beq_iff_eq, Set.mem_union, Set.mem_ofPred_eq,
        Set.mem_insert_iff, Bool.false_eq_true, false_or]
      exact or_congr eq_comm Iff.rfl
  rw [hnext]
  exact .subscribe _ d

/-- The dial of `connect` takes the subscriptions to send. -/
theorem desk_resubscribe (p : Pool Shared Task) (i : Nat) (c : Input) (owner : Owner) (gen : Nat)
    (a : Act Section Task) (ht : p.tasks[i]? = some (.dial owner (.resubscribe gen)))
    (ha : (Task.dial owner (.resubscribe gen)).act c = some a) (hT : Tended p)
    (hafter : (client geo).after a p.shared = (resubscribe p.shared).1)
    (hheir : (client geo).heir a p.shared =
      .dial owner (.subscribing gen p.shared.inner.subscriptions)) :
    (desk p).Move (desk ((client geo).resumed p i a)) := by
  -- No handle is known yet, so clearing the map changes nothing.
  have hnone : (fun _ => none) = p.shared.inner.subByDevice := by
    funext d
    rcases hd : p.shared.inner.subByDevice d with _ | x
    · rfl
    · have hlive := (hT.balanced.known d x hd).1
      rw [show (desk p).live = [] from (hT.opening i owner gen ht).2] at hlive
      exact absurd hlive List.not_mem_nil
  have hsubs : ((client geo).after a p.shared).inner.subscriptions =
      p.shared.inner.subscriptions := by rw [hafter]; rfl
  rcases desk_sending geo p i c _ a ht ha (Or.inl hsubs) with ⟨rest, hs, hs'⟩
  rcases desk_dropping geo p i c _ a ht ha with ⟨rest', hd, hd', _⟩
  rcases desk_after geo p i a _ hafter with ⟨hwanted, hhandle, hasked, hlive⟩
  rw [hheir] at hs' hd'
  have hnext : desk ((client geo).resumed p i a) = desk p :=
    Desk.ext hwanted (hhandle.trans hnone) hasked hlive (hs'.trans hs.symm) (hd'.trans hd.symm)
  rw [hnext]
  exact .idle _

/-- `unsubscribe` gives the device up and is about to drop its handle. -/
theorem desk_unsubscribe (p : Pool Shared Task) (i : Nat) (c : Input) (d : String)
    (a : Act Section Task) (ht : p.tasks[i]? = some (.unsubscribe d))
    (ha : (Task.unsubscribe d).act c = some a) (hb : Beginning p) (hone : OneSocket p.shared)
    (hafter : (client geo).after a p.shared = (unsubscribe d p.shared).1)
    (hdrops : ((client geo).heir a p.shared).drops = p.shared.inner.subByDevice d)
    (hsends : ∀ e, ((client geo).heir a p.shared).sends ((client geo).after a p.shared) e = false)
    (hwhole : (Section.unsubscribe d).givesUpWhole p = true) :
    (desk p).Move (desk ((client geo).resumed p i a)) := by
  have hno := fun (j : Nat) u hu owner gen =>
    calling_resubscribed p hb hone i _ ht (Or.inr rfl) j u hu owner gen
  rcases desk_sending geo p i c _ a ht ha (Or.inr hno) with ⟨rest, hs, hs'⟩
  rcases desk_dropping geo p i c _ a ht ha with ⟨rest', hd, hd', _⟩
  rcases desk_after geo p i a _ hafter with ⟨hwanted, hhandle, hasked, hlive⟩
  -- The handle known for the device moves to this task, which is to drop it.
  have hnext : desk ((client geo).resumed p i a) =
      { desk p with
        wanted := (desk p).wanted \ {d}
        handle := Function.update (desk p).handle d none
        dropping := (desk p).dropping ∪ {x | (desk p).handle d = some x} } := by
    refine Desk.ext (hwanted.trans ?_) hhandle hasked hlive ?_ ?_
    · refine Set.ext fun e => ?_
      exact (hb.nodup.mem_erase_iff).trans and_comm
    · rw [hs', hs]
      simp only [hsends]
      rfl
    · have hrest : (desk p).dropping = rest' := by
        rw [hd]
        simp only [Task.drops, reduceCtorEq, Set.ofPred_false, Set.empty_union]
      rw [hd', hdrops, Set.union_comm, ← hrest]
      rfl
  simp only [Section.givesUpWhole, hone.current, Bool.and_eq_true, Bool.not_eq_true',
    decide_eq_true_eq] at hwhole
  rcases hwhole with ⟨⟨hasked, hsending⟩, hkept⟩
  rw [hnext]
  -- The three conditions of the move are what `givesUpWhole` checks.
  refine .unsubscribe _ d ?_ ?_ ?_
  · intro hd
    have hd' := List.contains_iff_mem.mpr hd
    cases hasked.symm.trans hd'
  · rintro ⟨u, hu, hud⟩
    have hany := List.any_eq_true.mpr ⟨u, hu, hud⟩
    cases hsending.symm.trans hany
  · intro x y hx hy
    have hmem : ∀ z, (desk p).Kept z d → (z, d) ∈ keptHandles p 0 d := by
      rintro z ⟨hlive, hdrop⟩
      refine List.mem_filter.mpr ⟨hlive, ?_⟩
      simp only [beq_self_eq_true, Bool.true_and, Bool.not_eq_true', List.any_eq_false,
        beq_iff_eq]
      exact fun u hu hz => hdrop ⟨u, hu, hz⟩
    rcases List.mem_iff_getElem.mp (hmem x hx) with ⟨m, hm, hmx⟩
    rcases List.mem_iff_getElem.mp (hmem y hy) with ⟨n, hn, hny⟩
    have hmn : m = n := by omega
    subst hmn
    exact congrArg Prod.fst (hmx.symm.trans hny)

/-- An `Unsubscribe` is sent. -/
theorem desk_drop (p : Pool Shared Task) (i : Nat) (c : Input) (sub : UInt8)
    (a : Act Section Task) (ht : p.tasks[i]? = some (.unsubscribeSend sub))
    (ha : (Task.unsubscribeSend sub).act c = some a) (hone : OneSocket p.shared) (hT : Tended p)
    (hafter : (client geo).after a p.shared =
      p.shared.logTraffic 0 (.sent (.bin (.cmd (.unsubscribe sub))) none))
    (hdrops : ((client geo).heir a p.shared).drops = none)
    (hsends : ∀ e, ((client geo).heir a p.shared).sends ((client geo).after a p.shared) e = false) :
    (desk p).Move (desk ((client geo).resumed p i a)) := by
  have hsubs : ((client geo).after a p.shared).inner.subscriptions =
      p.shared.inner.subscriptions := by
    rw [hafter]
    rfl
  have hwire := Shared.wire_logTraffic_writing p.shared 0
    (.sent (.bin (.cmd (.unsubscribe sub))) none) hone.writing
  rcases desk_sending geo p i c _ a ht ha (Or.inl hsubs) with ⟨rest, hs, hs'⟩
  rcases desk_dropping geo p i c _ a ht ha with ⟨rest', hd, hd', hrest⟩
  rcases desk_after geo p i a _ hafter with ⟨hwanted, hhandle, hasked, hlive⟩
  rw [hwire] at hasked hlive
  have hnext : desk ((client geo).resumed p i a) =
      { desk p with
        live := (desk p).live.filter fun h => h.1 ≠ sub
        dropping := rest' } := by
    refine Desk.ext hwanted hhandle hasked hlive ?_ ?_
    · rw [hs', hs]
      simp only [hsends]
      rfl
    · rw [hd', hdrops]
      simp only [reduceCtorEq, Set.ofPred_false, Set.empty_union]
  rw [hnext]
  -- No other task is about to drop the same handle.
  refine .drop _ sub rest' ?_ ?_
  · rw [hd]
    refine Set.ext fun x => ?_
    simp only [Task.drops, Option.some.injEq, Set.mem_union, Set.mem_ofPred_eq,
      Set.mem_insert_iff, eq_comm]
  · intro hsub
    rcases hrest sub hsub with ⟨j, u, hji, hu, hud⟩
    exact hT.distinct i j _ u (Ne.symm hji) ht hu sub rfl hud

/-- A `Subscribed` arrives. -/
theorem desk_answer (p : Pool Shared Task) (i : Nat) (c : Input) (gen : Nat) (evt : ServerEvt)
    (a : Act Section Task) (ht : p.tasks[i]? = some (.reader 0 gen .reading))
    (ha : (Task.reader 0 gen .reading).act c = some a) (hone : OneSocket p.shared)
    (sub : UInt8) (d : String)
    (hafter : (client geo).after a p.shared = dispatchSubscribed 0 evt sub d p.shared)
    (hevt : ∀ w, unanswered (.got evt :: w) = (unanswered w).tail ∧
      liveHandles (.got evt :: w) = (sub, d) :: liveHandles w)
    (hheir : (client geo).heir a p.shared =
      .reader 0 gen (.settle none (.ok {}) (some evt)))
    (horder : (Section.dispatchSubscribed 0 evt sub d).inOrder p.shared = true) :
    (desk p).Move (desk ((client geo).resumed p i a)) := by
  have hsubs : ((client geo).after a p.shared).inner.subscriptions =
      p.shared.inner.subscriptions := by
    rw [hafter]
    rfl
  have hwire : (dispatchSubscribed 0 evt sub d p.shared).wire 0 = .got evt :: p.shared.wire 0 :=
    Shared.wire_logTraffic_writing p.shared 0 (.got evt) hone.writing
  rcases desk_sending geo p i c _ a ht ha (Or.inl hsubs) with ⟨rest, hs, hs'⟩
  rcases desk_dropping geo p i c _ a ht ha with ⟨rest', hd, hd', _⟩
  rcases desk_after geo p i a _ hafter with ⟨hwanted, hhandle, hasked, hlive⟩
  rw [hwire, (hevt _).1] at hasked
  rw [hwire, (hevt _).2] at hlive
  rw [hheir] at hs' hd'
  have hnext : desk ((client geo).resumed p i a) =
      { desk p with
        asked := (desk p).asked.tail
        live := (sub, d) :: (desk p).live
        handle := Function.update (desk p).handle d (some sub) } :=
    Desk.ext hwanted hhandle hasked hlive (hs'.trans hs.symm) (hd'.trans hd.symm)
  simp only [Section.inOrder, Bool.and_eq_true, beq_iff_eq, Bool.not_eq_true'] at horder
  rcases horder with ⟨hhead, hfresh⟩
  rw [hnext]
  -- What `inOrder` checks: the oldest request is answered, with a fresh handle.
  refine .answer _ sub d _ ?_ ?_
  · exact (List.eq_cons_of_mem_head? (Option.mem_def.mpr hhead))
  · intro e he
    have hany : ((liveHandles (p.shared.wire 0)).any fun h => h.1 == sub) = true :=
      List.any_eq_true.mpr ⟨(sub, e), he, beq_self_eq_true sub⟩
    cases hfresh.symm.trans hany

/-- A task that has nothing to do with subscriptions leaves the desk alone,
    unless it is the reader of a `Subscribed`. -/
theorem desk_plain (p : Pool Shared Task) (i : Nat) (c : Input) (t : Task)
    (a : Act Section Task) (ht : p.tasks[i]? = some t) (ha : t.act c = some a)
    (hplain : t.plain = true) (hbinds : a.op.binds = none) (hb : Beginning p)
    (hone : OneSocket p.shared) (hone' : OneSocket ((client geo).after a p.shared)) :
    (desk p).Move (desk ((client geo).resumed p i a)) := by
  have hcur : ((client geo).after a p.shared).inner.outTx ≠ none := by
    rw [hone'.current]
    rintro ⟨⟩
  rcases plain_act geo t c a p.shared ha hplain hcur with ⟨hasks, hclears, hwants⟩
  have hheir := plain_heir geo p i c t a ht ha hplain hb.first (Nat.le_of_eq hone.count)
    (hone'.count.trans hone.count.symm)
  rcases plain_quiet t p.shared hplain with ⟨hdrops, hsends⟩
  rcases plain_quiet _ ((client geo).after a p.shared) hheir with ⟨hdrops', hsends'⟩
  rw [desk_idle geo p i c t a ht ha hasks hbinds hclears hwants hdrops hdrops' hsends hsends']
  exact .idle _

/-- Handles are entered by the reader of a `Subscribed`. -/
theorem act_binds (t : Task) (c : Input) (a : Act Section Task) (h : t.act c = some a) (k : Nat)
    (sub : UInt8) (d : String) (hbinds : a.op.binds = some (k, sub, d)) :
    ∃ gen uid loc route dist dur start finish metadata online seen,
      t = .reader k gen .reading ∧
        a = Task.dispatchAct k gen
          (.subscribed sub d uid loc route dist dur start finish metadata online seen) := by
  have hhears : ∃ evt, a.op.hears = some (k, evt) := by
    rcases a with ⟨op, next⟩
    cases op <;> cases hbinds
    exact ⟨_, rfl⟩
  rcases hhears with ⟨evt, hhears⟩
  rcases act_hears t c a h k evt hhears with ⟨gen, rfl, rfl⟩
  cases evt <;> cases hbinds
  exact ⟨gen, _, _, _, _, _, _, _, _, _, _, rfl, rfl⟩

/-- A step of a session on its first socket moves its desk. -/
theorem step_desk (p : Pool Shared Task) (i : Nat) (c : Input) (t : Task)
    (a : Act Section Task) (ht : p.tasks[i]? = some t) (ha : t.act c = some a)
    (hb : Beginning p) (hone : OneSocket p.shared)
    (hone' : OneSocket ((client geo).after a p.shared)) (hT : Tended p)
    (horder : inOrder p i t a = true) (hwhole : givesUpWhole p i t a = true) :
    (desk p).Move (desk ((client geo).resumed p i a)) := by
  have hsent : ∀ frame ticket,
      (client geo).run (Section.sendBin frame ticket) p.shared =
        (p.shared.logTraffic 0 (.sent (.bin frame) ticket), .ok ()) :=
    fun frame ticket => sendBin_one frame ticket p.shared hone
  -- The tasks that touch subscriptions each make their move; of the others only a
  -- reader that hears an answer does.
  rcases hplain : t.plain with _ | _
  · cases t with
    | subscribe d =>
        cases c <;> cases ha
        exact desk_subscribe geo p i .go d _ ht rfl hb hone rfl rfl
    | subscribeSend d =>
        cases c <;> cases ha
        refine desk_send geo p i .go _ _ ht rfl hone d (congrArg Prod.fst (hsent _ _)) ?_ rfl rfl
        refine Set.ext fun e => ?_
        simp only [Machine.heir, Task.sends, beq_iff_eq, Set.mem_ofPred_eq, Set.mem_insert_iff,
          Bool.false_eq_true, or_false]
        exact eq_comm
    | unsubscribe d =>
        cases c <;> cases ha
        have hrun : (client geo).run (Section.unsubscribe d) p.shared = unsubscribe d p.shared :=
          rfl
        refine desk_unsubscribe geo p i .go d _ ht rfl hb hone rfl ?_ ?_ hwhole
        · simp only [Machine.heir, hrun, unsubscribe]
          rcases p.shared.inner.subByDevice d with _ | sub <;> rfl
        · intro e
          simp only [Machine.heir, hrun, unsubscribe]
          rcases p.shared.inner.subByDevice d with _ | sub <;> rfl
    | unsubscribeSend sub =>
        cases c <;> cases ha
        exact desk_drop geo p i .go sub _ ht rfl hone hT (congrArg Prod.fst (hsent _ _)) rfl
          fun _ => rfl
    | dial owner pc =>
        cases pc with
        | resubscribe gen =>
            cases c <;> cases ha
            exact desk_resubscribe geo p i .go owner gen _ ht rfl hT rfl rfl
        | subscribing gen ds =>
            cases ds with
            | nil =>
                cases c <;> cases ha
                rw [desk_idle geo p i .go _ _ ht rfl rfl rfl rfl rfl rfl rfl (fun _ => rfl)
                  fun _ => rfl]
                exact .idle _
            | cons d ds =>
                cases c <;> cases ha
                refine desk_send geo p i .go _ _ ht rfl hone d (congrArg Prod.fst (hsent _ _)) ?_
                  rfl rfl
                refine Set.ext fun e => ?_
                simp only [Machine.heir, Task.sends, List.contains_iff_mem, List.mem_cons,
                  Set.mem_ofPred_eq, Set.mem_insert_iff]
        | _ => cases hplain
    | _ => cases hplain
  · rcases hbinds : a.op.binds with _ | ⟨k, sub, d⟩
    · exact desk_plain geo p i c t a ht ha hplain hbinds hb hone hone'
    · rcases act_binds t c a ha k sub d hbinds with
        ⟨gen, uid, loc, route, dist, dur, start, finish, metadata, online, seen, rfl, rfl⟩
      have hk := hb.readers.lt i _ ht k rfl
      rw [hone.count] at hk
      have hk0 : k = 0 := by omega
      subst hk0
      exact desk_answer geo p i c gen _ _ ht ha hone sub d rfl (fun _ => ⟨rfl, rfl⟩) rfl horder

/-! ## Runs on one socket -/

/-- What the other tasks come to: none of them goes back to `resubscribe`, and
    `unsubscribe` drops the handle it knows. -/
theorem busy_heir (t : Task) (c : Input) (a : Act Section Task) (s : Shared)
    (h : t.act c = some a) (hbusy : t.plain = false) :
    (∀ owner gen, (client geo).heir a s ≠ .dial owner (.resubscribe gen)) ∧
      ∀ x, ((client geo).heir a s).drops = some x → ∃ d, s.inner.subByDevice d = some x := by
  cases t with
  | subscribe d =>
      cases c <;> cases h
      exact ⟨by rintro _ _ ⟨⟩, by rintro _ ⟨⟩⟩
  | subscribeSend d =>
      cases c <;> cases h
      exact ⟨by rintro _ _ ⟨⟩, by rintro _ ⟨⟩⟩
  -- The only one that goes on to drop a handle, the one the device had.
  | unsubscribe d =>
      cases c <;> cases h
      have hrun : (client geo).run (Section.unsubscribe d) s = unsubscribe d s := rfl
      simp only [Machine.heir, hrun, unsubscribe]
      rcases hhandle : s.inner.subByDevice d with _ | sub
      · exact ⟨by rintro _ _ ⟨⟩, by rintro _ ⟨⟩⟩
      · refine ⟨by rintro _ _ ⟨⟩, fun x hx => ⟨d, hhandle.trans hx⟩⟩
  | unsubscribeSend sub =>
      cases c <;> cases h
      exact ⟨by rintro _ _ ⟨⟩, by rintro _ ⟨⟩⟩
  | dial owner pc =>
      cases pc with
      | resubscribe gen =>
          cases c <;> cases h
          exact ⟨by rintro _ _ ⟨⟩, by rintro _ ⟨⟩⟩
      -- The subscribes of a dial are handed over one by one.
      | subscribing gen ds =>
          cases ds <;> cases c <;> cases h <;> exact ⟨by rintro _ _ ⟨⟩, by rintro _ ⟨⟩⟩
      | _ => cases hbusy
  | _ => cases hbusy

/-- Only `unsubscribe` comes to drop a handle, the one it knows. -/
theorem heir_drops (t : Task) (c : Input) (a : Act Section Task) (s : Shared)
    (h : t.act c = some a) (x : UInt8) (hd : ((client geo).heir a s).drops = some x) :
    ∃ d, s.inner.subByDevice d = some x := by
  rcases hplain : t.plain with _ | _
  · exact (busy_heir geo t c a s h hplain).2 x hd
  · have hkind := (plain_of_kind t hplain).2
    have hfollows := heir_kind geo t c a s h
    generalize (client geo).heir a s = u at hd hfollows
    cases u with
    | unsubscribeSend sub =>
        rcases hfollows with hk | hk | ⟨_, _, _, _, hk⟩
        · exact absurd hk.symm hkind
        · cases hk
        · cases hk
    | _ => cases hd

/-- No two tasks drop one handle: what `unsubscribe` comes to drop was known,
    so nobody was dropping it. -/
theorem step_distinct (p : Pool Shared Task) (i : Nat) (c : Input) (t : Task)
    (a : Act Section Task) (ht : p.tasks[i]? = some t) (ha : t.act c = some a) (hT : Tended p) :
    Machine.Distinct (fun t u => ∀ x, t.drops = some x → u.drops ≠ some x)
      ((client geo).resumed p i a) := by
  have hcases : ∀ (j : Nat) u x, ((client geo).resumed p i a).tasks[j]? = some u →
      u.drops = some x → (j = i ∧ x ∉ (desk p).dropping) ∨ (j ≠ i ∧ p.tasks[j]? = some u) := by
    intro j u x hj hx
    rcases (client geo).resumed_get_cases p i j a t u ht hj with ⟨rfl, rfl⟩ | hold | ⟨_, hu⟩
    · rcases heir_drops geo t c a p.shared ha x hx with ⟨d, hd⟩
      exact Or.inl ⟨rfl, (hT.balanced.known d x hd).2⟩
    · exact Or.inr hold
    · have hnone := (spawned_desk geo t c a p.shared p.shared ha u (List.mem_of_getElem? hu)).1
      cases hnone.symm.trans hx
  intro j k u v hjk hj hk x hux hvx
  rcases hcases j u x hj hux with ⟨hji, hno⟩ | ⟨_, hold⟩
  · rcases hcases k v x hk hvx with ⟨hki, _⟩ | ⟨_, hold'⟩
    · exact hjk (hji.trans hki.symm)
    · exact hno ⟨v, List.mem_of_getElem? hold', hvx⟩
  · rcases hcases k v x hk hvx with ⟨_, hno⟩ | ⟨_, hold'⟩
    · exact hno ⟨u, List.mem_of_getElem? hold, hux⟩
    · exact hT.distinct j k u v hjk hold hold' x hux hvx

/-- Until the subscriptions are sent for the first time, nothing is asked for. -/
theorem step_opening (p : Pool Shared Task) (i : Nat) (c : Input) (t : Task)
    (a : Act Section Task) (ht : p.tasks[i]? = some t) (ha : t.act c = some a)
    (hb : Beginning p) (hone : OneSocket p.shared)
    (hone' : OneSocket ((client geo).after a p.shared)) (hT : Tended p)
    (horder : inOrder p i t a = true) (j : Nat) (owner : Owner) (gen : Nat)
    (hj : ((client geo).resumed p i a).tasks[j]? = some (.dial owner (.resubscribe gen))) :
    unanswered (((client geo).after a p.shared).wire 0) = [] ∧
      liveHandles (((client geo).after a p.shared).wire 0) = [] := by
  have hlen := Nat.le_of_eq hone.count
  rcases (client geo).resumed_get_cases p i j a t _ ht hj with ⟨_, hheir⟩ | ⟨hji, hold⟩ | ⟨_, hu⟩
  · -- The dial would have installed its socket just now.
    rcases hplain : t.plain with _ | _
    · exact absurd hheir.symm ((busy_heir geo t c a p.shared ha hplain).1 owner gen)
    · have hplain' := plain_heir geo p i c t a ht ha hplain hb.first hlen
        (hone'.count.trans hone.count.symm)
      rw [← hheir] at hplain'
      cases hplain'
  · -- The dial was there before; the calls are not, since `connect` has not returned,
    -- and an answer would need a request.
    have hempty := hT.opening j owner gen hold
    have hconn := hb.connecting j _ ((hb.first hlen j owner _ hold rfl).1 ▸ hold)
    have hcalls : ¬ t.calls := fun hc => by cases hconn.2.symm.trans (hb.calling i t ht hc)
    have hasks : a.op.asks = false := by
      refine Bool.eq_false_iff.mpr fun hasks => ?_
      rcases act_asks t c a ha hasks with ⟨_, rfl⟩ | ⟨_, rfl⟩ | ⟨owner', gen', _, _, rfl⟩
      · exact hcalls (Or.inl rfl)
      · exact hcalls (Or.inr rfl)
      · -- There is one dial of `connect`.
        have howner := (hb.first hlen i owner' _ ht rfl).1
        subst howner
        exact hji (hconn.1.trans (hb.connecting i _ ht).1.symm)
    rcases hbinds : a.op.binds with _ | ⟨k, sub, d⟩
    · rcases after_asked geo t c a p.shared ha hasks hbinds 0 with ⟨hasked, hlive⟩
      exact ⟨hasked.trans hempty.1, hlive.trans hempty.2⟩
    · rcases act_binds t c a ha k sub d hbinds with
        ⟨_, _, _, _, _, _, _, _, _, _, _, rfl, rfl⟩
      have hk := hb.readers.lt i _ ht k rfl
      rw [hone.count] at hk
      have hk0 : k = 0 := by omega
      subst hk0
      have hhead := (Bool.and_eq_true_iff.mp horder).1
      rw [beq_iff_eq, hempty.1] at hhead
      cases hhead
  · rcases spawned_cases geo t c a p.shared ha _ (List.mem_of_getElem? hu) with
      ⟨_, _, _, _, hs | hs⟩ | ⟨_, _, _, hs | hs | ⟨_, hs⟩⟩ | ⟨_, _, _, hs⟩ <;> cases hs

/-- The tasks when the first socket has been installed. -/
def openedTasks (gen : Nat) : List Task :=
  [.dial .connect (.resubscribe gen), .writer 0, .reader 0 gen .reading]

/-- The subscriptions are all still to be sent then. -/
theorem tended_opened (s : Shared) (gen : Nat) (hmap : s.inner.subByDevice = fun _ => none)
    (hwire : s.wire 0 = []) : Tended { shared := s, tasks := openedTasks gen } := by
  -- On a new socket nothing was sent or heard, and the dial is about to ask for every
  -- subscription.
  have hasked : (desk { shared := s, tasks := openedTasks gen }).asked = [] :=
    congrArg unanswered hwire
  have hlive : (desk { shared := s, tasks := openedTasks gen }).live = [] :=
    congrArg liveHandles hwire
  have hdrops : ∀ u ∈ openedTasks gen, u.drops = none := by
    simp only [openedTasks, List.mem_cons, List.not_mem_nil, or_false]
    rintro u (rfl | rfl | rfl) <;> rfl
  have hkept : ∀ x d, ¬ (desk { shared := s, tasks := openedTasks gen }).Kept x d := by
    rintro x d ⟨hx, _⟩
    rw [hlive] at hx
    exact absurd hx List.not_mem_nil
  refine ⟨⟨fun d => ?_, fun d x hx => ?_, fun d x hx => absurd hx (hkept x d),
    fun x d e hx => ?_, ?_⟩, fun j k u v _ hj _ x hx => ?_, fun _ _ _ _ => ⟨hasked, hlive⟩⟩
  · rw [hasked]
    constructor
    · intro hd
      exact Or.inr (Or.inr ⟨_, List.mem_cons_self, List.contains_iff_mem.mpr hd⟩)
    · rintro (⟨x, hx⟩ | hd | ⟨u, hu, hd⟩)
      · exact absurd hx (hkept x d)
      · exact absurd hd List.not_mem_nil
      · simp only [openedTasks, List.mem_cons, List.not_mem_nil, or_false] at hu
        rcases hu with rfl | rfl | rfl
        · exact List.contains_iff_mem.mp hd
        · cases hd
        · cases hd
  · have hnone : s.inner.subByDevice d = none := congrFun hmap d
    cases hnone.symm.trans hx
  · rw [hlive] at hx
    exact absurd hx List.not_mem_nil
  · rintro x ⟨u, hu, hx⟩
    cases (hdrops u hu).symm.trans hx
  · cases (hdrops u (List.mem_of_getElem? hj)).symm.trans hx

/-- The install of the first socket, by the dial of `connect`. -/
theorem install_opened (p : Pool Shared Task) (c : Input) (a : Act Section Task) (gen : Nat)
    (htasks : p.tasks = [.dial .connect (.install gen false)])
    (ha : (Task.dial .connect (.install gen false)).act c = some a)
    (hnone : p.shared.sockets = []) (hone' : OneSocket ((client geo).after a p.shared)) :
    ∃ s, (client geo).resumed p 0 a = { shared := s, tasks := openedTasks gen } ∧
      s.inner.subByDevice = p.shared.inner.subByDevice ∧ s.wire 0 = [] := by
  cases c <;> cases ha
  have hrun : (client geo).run (Section.dialInstall gen) p.shared = dialInstall gen p.shared := rfl
  rcases dialInstall_cases gen p.shared with ⟨_, hi⟩ | ⟨_, _, hi⟩
  · have hcount := hone'.count
    simp only [Machine.after, hrun, hi, hnone] at hcount
    cases hcount
  · simp only [Machine.resumed, hrun, hi, hnone, htasks]
    exact ⟨_, rfl, rfl, rfl⟩

/-- A call that enters neither sends nor drops anything yet. -/
theorem call_quiet (t : Task) (h : t.isCall = true) :
    t.drops = none ∧ (∀ s d, t.sends s d = false) ∧
      ∀ owner gen, t ≠ .dial owner (.resubscribe gen) := by
  cases t with
  | subscribeSend d => cases h
  | unsubscribeSend sub => cases h
  | dial owner pc => cases h
  | _ => exact ⟨rfl, fun _ _ => rfl, by rintro _ _ ⟨⟩⟩

/-- A call that enters leaves the session tended. -/
theorem tended_spawn (p : Pool Shared Task) (t : Task) (hcall : t.isCall = true)
    (hT : Tended p) : Tended { p with tasks := p.tasks ++ [t] } := by
  rcases call_quiet t hcall with ⟨hdrops, hsends, hdial⟩
  have hsame : ∀ P : Task → Prop, ¬ P t → ((∃ u ∈ p.tasks ++ [t], P u) ↔ ∃ u ∈ p.tasks, P u) := by
    intro P hP
    simp only [List.mem_append, List.mem_singleton, or_and_right, exists_or, exists_eq_left, hP,
      or_false]
  -- A call that comes in has sent nothing and drops nothing.
  have hdesk : desk { p with tasks := p.tasks ++ [t] } = desk p := by
    refine Desk.ext rfl rfl rfl rfl (Set.ext fun d => ?_) (Set.ext fun x => ?_)
    · refine hsame (fun u => u.sends p.shared d = true) ?_
      rw [hsends p.shared d]
      rintro ⟨⟩
    · refine hsame (fun u => u.drops = some x) ?_
      rw [hdrops]
      rintro ⟨⟩
  refine ⟨hdesk ▸ hT.balanced, fun j k u v hjk hj hk x hux hvx => ?_, fun j owner gen hj => ?_⟩
  · rcases Machine.entered_get_cases p.tasks t u j hj with hj' | rfl
    · rcases Machine.entered_get_cases p.tasks t v k hk with hk' | rfl
      · exact hT.distinct j k u v hjk hj' hk' x hux hvx
      · cases hdrops.symm.trans hvx
    · cases hdrops.symm.trans hux
  · rcases Machine.entered_get_cases p.tasks t _ j hj with hj' | rfl
    · exact hT.opening j owner gen hj'
    · exact absurd rfl (hdial owner gen)

variable (cfg : Config)

/-- A session on its first socket is tended. -/
theorem reach_tended (p : Pool Shared Task)
    (h : (client geo).Reach (Started cfg)
      ((client geo).whenever fun p i t a =>
        inOrder p i t a = true ∧ givesUpWhole p i t a = true) p) :
    OneSocket p.shared → Tended p := by
  have hreach := (client geo).reach_knowing (Started cfg) _ _
    (fun p h => reach_beginning geo cfg _ p h) p h
  refine (client geo).reach_pool (Started cfg) _ (fun p => OneSocket p.shared → Tended p)
    ?_ ?_ ?_ p hreach
  · intro p hp hone
    rcases started_pool cfg p hp with ⟨now, rfl⟩
    cases hone.count
  · intro p i c t a ht ha hC hI hone'
    rcases hC with ⟨⟨horder, hwhole⟩, hb⟩
    -- The step is a move at the desk, or it opens the first socket.
    rcases step_oneSocket geo p i c t a ht ha hb.early hone' with
      hone | ⟨hnone, rfl, _, gen, htasks⟩
    · have hT := hI hone
      exact ⟨Desk.move_balanced _ _
          (step_desk geo p i c t a ht ha hb hone hone' hT horder hwhole) hT.balanced,
        step_distinct geo p i c t a ht ha hT,
        step_opening geo p i c t a ht ha hb hone hone' hT horder⟩
    · have ht' := ht
      rw [htasks] at ht'
      cases List.mem_singleton.mp (List.mem_of_getElem? ht')
      rcases install_opened geo p c a gen htasks ha hnone hone' with ⟨s, hpool, hmap, hwire⟩
      rw [hpool]
      exact tended_opened s gen (hmap.trans (hb.early hnone).2.1) hwire
  · intro p t hent hI hone'
    exact tended_spawn p t ((entry_iff geo p.shared t).mp hent).2 (hI hone')

/-- In every run against a server that answers in order with fresh handles, and
    in which nothing is on the way for a device that is given up and it has one
    handle at most, the server holds handles for the subscribed devices whenever
    everything has settled. -/
theorem reach_subscribedAgree (p : Pool Shared Task)
    (h : (client geo).Reach (Started cfg)
      ((client geo).whenever fun p i t a =>
        inOrder p i t a = true ∧ givesUpWhole p i t a = true) p) : SubscribedAgree p := by
  intro hone hasked hidle d
  have hT := reach_tended geo cfg p h hone
  refine Desk.balanced_settled (desk p) hT.balanced hasked ?_ ?_ d
  · refine Set.eq_empty_iff_forall_notMem.mpr ?_
    rintro e ⟨u, hu, hue⟩
    cases ((hidle u hu).2 e).symm.trans hue
  · refine Set.eq_empty_iff_forall_notMem.mpr ?_
    rintro x ⟨u, hu, hux⟩
    cases ((hidle u hu).1).symm.trans hux

end Client

/-! ## Concrete runs -/

/-- The server answers a `Subscribe`. -/
def answered (sub : UInt8) (deviceUid : String) : Label Task Input :=
  .resume 2 (.frame (.subscribed sub deviceUid "" none [] 0 0 "" "" [] true none))

/-- The tasks of an open session after `n` calls. -/
def restingTasks (n : Nat) : List Task :=
  [.returned (.unit (.ok ())), .writer 0, .reader 0 1 .reading] ++
    List.replicate n (.returned (.unit (.ok ())))

/-- Everything has settled, with these subscriptions and these handles. -/
def restsWith (n : Nat) (subscriptions : List String) (live : List (UInt8 × String))
    (p : Pool Shared Task) : Bool :=
  decide (p.tasks = restingTasks n ∧ p.shared.sockets.length = 1 ∧
    p.shared.inner.outTx = some 0 ∧ p.shared.inner.state = .open ∧ p.shared.writing 0 = true ∧
    unanswered (p.shared.wire 0) = [] ∧ p.shared.inner.subscriptions = subscriptions ∧
    liveHandles (p.shared.wire 0) = live)

theorem rests_agree (n : Nat) (subscriptions : List String) (live : List (UInt8 × String))
    (p : Pool Shared Task) (hrest : restsWith n subscriptions live p = true)
    (h : SubscribedAgree p) (d : String) :
    d ∈ subscriptions ↔ ∃ sub, (sub, d) ∈ live := by
  rcases of_decide_eq_true hrest with ⟨htasks, hcount, hcur, hstate, hw, hasked, hsubs, hlive⟩
  have hquiet : ∀ t ∈ p.tasks, t.drops = none ∧ ∀ d, t.sends p.shared d = false := by
    intro t ht
    simp only [htasks, restingTasks, List.cons_append, List.nil_append, List.mem_cons,
      List.mem_replicate] at ht
    rcases ht with rfl | rfl | rfl | ⟨_, rfl⟩ <;> exact ⟨rfl, fun _ => rfl⟩
  have hagree := h ⟨hcount, hcur, hstate, hw⟩ hasked hquiet d
  rwa [hsubs, hlive] at hagree

/-- A and B are subscribed, and A is given up when the server has answered. -/
def givenUpAnswered : List (Label Task Input) :=
  opening ++ [.spawn (.subscribe "A"), .resume 3 .go, .resume 3 .go, .spawn (.subscribe "B"),
    .resume 4 .go, .resume 4 .go, answered 1 "A", .resume 2 .go, answered 2 "B", .resume 2 .go,
    .spawn (.unsubscribe "A"), .resume 5 .go, .resume 5 .go]

theorem reach_subscribedAgree_answered :
    ∃ p, restsWith 3 ["B"] [(2, "B")] p = true ∧ SubscribedAgree p := by
  rcases reach_of_watched (fun p i t a => inOrder p i t a && givesUpWhole p i t a) givenUpAnswered
    (restsWith 3 ["B"] [(2, "B")]) (by decide +kernel) with ⟨p, hp, hrest⟩
  refine ⟨p, hrest, reach_subscribedAgree flatGeo someConfig p ?_⟩
  refine (client flatGeo).reach_mono _ _ _ ?_ p hp
  intro p l hl
  cases l with
  | resume i c => exact fun t a ht ha => Bool.and_eq_true_iff.mp (hl t a ht ha)
  | spawn t => trivial

/-- A is given up before the answer comes. -/
def givenUpEarly : List (Label Task Input) :=
  opening ++ [.spawn (.subscribe "A"), .resume 3 .go, .resume 3 .go, .spawn (.unsubscribe "A"),
    .resume 4 .go, answered 1 "A", .resume 2 .go]

/-- Nobody wants A, and the server keeps a handle for it. -/
theorem unsubscribe_leaks :
    ¬ ∀ p, (client flatGeo).Reach (Started someConfig)
      ((client flatGeo).whenever fun p i t a => inOrder p i t a = true) p →
      SubscribedAgree p := by
  intro hall
  rcases reach_of_watched inOrder givenUpEarly (restsWith 2 [] [(1, "A")]) (by decide +kernel)
    with ⟨p, hp, hrest⟩
  have hagree := rests_agree 2 [] [(1, "A")] p hrest (hall p hp) "A"
  exact absurd (hagree.mpr ⟨1, List.mem_singleton_self _⟩) List.not_mem_nil

end Tracking

end Pickpoint
