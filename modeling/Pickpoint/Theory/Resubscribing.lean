import Pickpoint.Theory.Recovery
import Pickpoint.Theory.Roster
import Pickpoint.Interleave.Tally

/-!
# Subscribing Again

Every device that is wanted is asked for on every new socket.

The server forgets what a client wants when a connection ends, so a dial asks for
every device again on the socket it installed, after it has resumed the track. In
between callers want more devices and give some up, sockets come and go, and a dial
whose socket is gone goes on asking on whatever socket is current then.

`Asked` counts a command only if it went out after the device was last wanted, so a
call for a device that was given up in between asks anew. What makes up the
invariant is that a device that has not been asked for has somebody about to: the
call itself, a dial on its way through the list, or the dial of the current socket,
as long as it has not come to the list. That dial gives up when the track cannot be
resumed, and then nobody asks.

## Main definitions

* `Asked`: A device was asked for on a socket, after so many entries of its wire.
* `Task.asks`: The tasks that are about to ask for a device.
* `Sought`, `noteSought`: When each device was last wanted, and the dials that gave up.

## Theorems

* `heir_asks`: A task that is about to ask does, or still is, or gives up.
* `step_heeds`: A step leaves nobody unasked for.
* `reach_resubscribes`: Every device that is wanted is asked for, in every run.
* `relocation_forgets`: Unless the dial of a relocation could not resume the track.
-/

namespace Pickpoint

namespace Tracking

open Interleave

/-- The command for a device, on a wire. -/
def subscribeSent (d : String) : Traffic := .sent (.bin (.cmd (.subscribe d true 0))) none

/-- The device was asked for on socket `k`, after the first `n` entries of its wire. -/
def Asked (s : Shared) (k n : Nat) (d : String) : Prop :=
  subscribeSent d ∈ (s.wire k).reverse.drop n

instance (s : Shared) (k n : Nat) (d : String) : Decidable (Asked s k n d) :=
  inferInstanceAs (Decidable (_ ∈ _))

/-- The generation of a dial that has installed its socket and has not come to the
    devices. -/
def Task.resuming : Task → Option Nat
  | .dial _ (.resumeLock gen) => some gen
  | .dial _ (.resumeSend gen _ _ _) => some gen
  | .dial _ (.resumeReply gen _) => some gen
  | .dial _ (.resumeSleep gen) => some gen
  | .dial _ (.resubscribe gen) => some gen
  | _ => none

/-- The task is about to ask for a device, while the socket of generation `gen` is
    current. -/
def Task.asks (gen : Nat) (d : String) : Task → Bool
  | .subscribeSend d' => d' == d
  | .dial _ (.subscribing _ ds) => ds.contains d
  | t => t.resuming == some gen

/-- A dial that is over. -/
def Task.dialed : Task → Bool
  | .dial _ (.finished _ _) => true
  | _ => false

/-- The section makes a new socket current. -/
def Section.takesOver (s : Shared) : {α : Type} → Section α → Bool
  | _, .dialInstall gen => decide (gen = s.inner.dialGen) && !s.inner.intentional
  | _, _ => false

/-- The device a call wants. -/
def Section.seeks : {α : Type} → Section α → Option String
  | _, .subscribe deviceUid => some deviceUid
  | _, _ => none

/-- What is remembered of a run: how long the wire of the current socket was when each
    device was last wanted, and the generations of the dials that could not resume. -/
structure Sought where
  since : String → Nat
  gaveUp : List Nat

namespace Sought

/-- Nothing has happened. -/
def none : Sought := ⟨fun _ => 0, []⟩

/-- A device is wanted when the wire has `n` entries. -/
def mark (since : String → Nat) (n : Nat) : Option String → String → Nat
  | some d => Function.update since d n
  | .none => since

theorem mark_le (since : String → Nat) (n : Nat) (d? : Option String) (d : String)
    (h : since d ≤ n) : mark since n d? d ≤ n := by
  rcases d? with _ | d'
  · exact h
  · rw [mark, Function.update_apply]
    by_cases hd : d = d'
    · rw [if_pos hd]
    · rwa [if_neg hd]

theorem mark_of_ne (since : String → Nat) (n : Nat) (d? : Option String) (d : String)
    (h : d? ≠ some d) : mark since n d? d = since d := by
  rcases d? with _ | d'
  · rfl
  · refine Function.update_of_ne ?_ _ _
    rintro rfl
    exact h rfl

end Sought

/-- The length of the wire of the current socket. -/
def Shared.logged (s : Shared) : Nat := (s.inner.outTx.map fun k => (s.wire k).length).getD 0

section Client

variable (geo : Geo)

/-- A new socket starts over with every device. -/
def noteSought (p : Pool Shared Task) (_ : Nat) (t : Task) (a : Act Section Task)
    (b : Sought) : Sought where
  since :=
    if a.op.takesOver p.shared then fun _ => 0
    else Sought.mark b.since p.shared.logged a.op.seeks
  gaveUp :=
    if ((client geo).heir a p.shared).dialed then t.resuming.toList ++ b.gaveUp else b.gaveUp

/-! ## Wires -/

/-- A wire only gets longer. -/
theorem run_wire_grows {α : Type} (op : Section α) (s : Shared) (k : Nat) :
    ∃ new, (op.run geo s).1.wire k = new ++ s.wire k := by
  rcases run_wire geo op s k with h | ⟨evt, _, h⟩ | ⟨out, ticket, _, _, _, h⟩
  · exact ⟨[], h⟩
  · exact ⟨[.got evt], h⟩
  · exact ⟨[.sent out ticket], h⟩

theorem run_wire_longer {α : Type} (op : Section α) (s : Shared) (k : Nat) :
    (s.wire k).length ≤ ((op.run geo s).1.wire k).length := by
  rcases run_wire_grows geo op s k with ⟨new, hnew⟩
  rw [hnew, List.length_append]
  exact Nat.le_add_left _ _

omit geo in
theorem logged_eq (s : Shared) (k : Nat) (hk : s.inner.outTx = some k) :
    s.logged = (s.wire k).length := by
  rw [Shared.logged, hk]
  rfl

/-- What was asked for stays asked for. -/
theorem run_asked {α : Type} (op : Section α) (s : Shared) (k n : Nat) (d : String)
    (h : Asked s k n d) : Asked (op.run geo s).1 k n d := by
  rcases run_wire_grows geo op s k with ⟨new, hnew⟩
  rw [Asked, hnew, List.reverse_append, List.drop_append]
  exact List.mem_append_left _ h

omit geo in
/-- The command is handed to the current socket now. -/
theorem sendBin_asks (s : Shared) (k n : Nat) (d : String) (hk : s.inner.outTx = some k)
    (hw : s.writing k = true) (hint : s.inner.intentional = false) (hn : n ≤ (s.wire k).length) :
    Asked (sendBin (.cmd (.subscribe d true 0)) none s).1 k n d := by
  rw [sendBin_open _ none s k (by rw [hint]; rintro ⟨_, ⟨⟩⟩) hk hw, Asked,
    s.wire_logTraffic_writing k _ hw, List.reverse_cons, List.drop_append_of_le_length]
  · exact List.mem_append_right _ (List.mem_singleton_self _)
  · rw [List.length_reverse]
    exact hn

/-! ## Tasks -/

/-- A task that is about to ask for a device does, or still is, or gives up. -/
theorem heir_asks (t : Task) (c : Input) (a : Act Section Task) (s : Shared)
    (h : t.act c = some a) (gen k n : Nat) (d : String) (hasks : t.asks gen d = true)
    (hk : s.inner.outTx = some k) (hw : s.writing k = true) (hint : s.inner.intentional = false)
    (hn : n ≤ (s.wire k).length) (hd : d ∈ s.inner.subscriptions) :
    Asked ((client geo).after a s) k n d ∨ ((client geo).heir a s).asks gen d = true ∨
      t.resuming = some gen ∧ ((client geo).heir a s).dialed = true := by
  unfold Machine.after Machine.heir
  revert h hasks
  cases t with
  | subscribeSend d' =>
      cases c <;> intro h <;> cases h
      intro hasks
      rw [Task.asks, beq_iff_eq] at hasks
      rw [hasks]
      exact Or.inl (sendBin_asks s k n d hk hw hint hn)
  | dial owner pc =>
      simp only [Task.act]
      fun_cases Task.dialAct owner pc c <;> intro h <;> cases h
      -- Until it comes to the devices, a dial goes on or is over.
      case dial.case10.refl gen' =>
        intro hasks
        dsimp only
        split <;> exact Or.inr (Or.inl hasks)
      case dial.case11.refl gen' cell uid seq =>
        intro hasks
        dsimp only
        split
        · exact Or.inr (Or.inr ⟨beq_iff_eq.mp hasks, rfl⟩)
        · exact Or.inr (Or.inl hasks)
      case dial.case12.refl gen' cell =>
        intro hasks
        dsimp only
        split
        · exact Or.inr (Or.inl hasks)
        · exact Or.inr (Or.inl hasks)
        · by_cases hretry : isRetryResumeError ‹Error›.code = true
          · rw [if_pos hretry]
            exact Or.inr (Or.inl hasks)
          · rw [if_neg hretry]
            exact Or.inr (Or.inr ⟨beq_iff_eq.mp hasks, rfl⟩)
        · exact Or.inr (Or.inr ⟨beq_iff_eq.mp hasks, rfl⟩)
      case dial.case13.refl gen' =>
        intro hasks
        dsimp only
        split
        · exact Or.inr (Or.inr ⟨beq_iff_eq.mp hasks, rfl⟩)
        · exact Or.inr (Or.inl hasks)
      case dial.case14.refl gen' =>
        exact fun _ => Or.inr (Or.inl (List.contains_iff_mem.mpr hd))
      -- On the list, it is this device's turn, or a later one's.
      case dial.case15.refl gen' d' ds =>
        intro hasks
        rw [Task.asks, List.contains_iff_mem] at hasks
        rcases List.mem_cons.mp hasks with rfl | hmem
        · exact Or.inl (sendBin_asks s k n d hk hw hint hn)
        · exact Or.inr (Or.inl (List.contains_iff_mem.mpr hmem))
      all_goals rintro ⟨⟩
  | _ => rintro _ ⟨⟩

omit geo in
theorem seeks_issuer {α : Type} (op : Section α) (d : String) (h : op.seeks = some d) :
    op.issuer = some .subscribe := by
  cases op with
  | subscribe d' => rfl
  | _ => cases h

/-- A call that wants a device asks for it next. -/
theorem act_seeks (t : Task) (c : Input) (a : Act Section Task) (s : Shared)
    (h : t.act c = some a) (d : String) (hseeks : a.op.seeks = some d) (gen : Nat) :
    ((client geo).heir a s).asks gen d = true := by
  have hkind := act_issuer t c a h _ (seeks_issuer a.op d hseeks)
  revert hseeks
  revert h
  cases t with
  | subscribe d' =>
      cases c <;> intro h <;> cases h
      intro hseeks
      cases hseeks
      exact beq_self_eq_true d
  | subscribeSend d' =>
      cases c <;> intro h <;> cases h
      rintro ⟨⟩
  | _ => cases hkind

omit geo in
theorem takesOver_iff {α : Type} (op : Section α) (s : Shared) :
    op.takesOver s = true ↔
      op.drive = .install s.inner.dialGen ∧ s.inner.intentional = false := by
  cases op with
  | dialInstall gen =>
      simp only [Section.takesOver, Section.drive, Bool.and_eq_true, decide_eq_true_eq,
        Bool.not_eq_true', Drive.install.injEq]
  | _ => exact ⟨by rintro ⟨⟩, by rintro ⟨⟨⟩, _⟩⟩

/-- The dial that installs a socket has every device still to ask for. -/
theorem act_takesOver (t : Task) (c : Input) (a : Act Section Task) (s : Shared)
    (h : t.act c = some a) (hinst : a.op.takesOver s = true) (k gen : Nat) (d : String)
    (hk : ((client geo).after a s).inner.outTx = some k)
    (hgen : ((client geo).after a s).gens[k]? = some gen) :
    ((client geo).heir a s).asks gen d = true := by
  rcases (takesOver_iff a.op s).mp hinst with ⟨hdrive, hint⟩
  have hmade := act_madeBy t c a h
  rw [hdrive] at hmade
  rcases hmade with ⟨owner, resume, rfl⟩
  cases c <;> cases h
  rcases dialInstall_cases s.inner.dialGen s with ⟨hno, _⟩ | ⟨_, _, hnew⟩
  · rcases hno with hno | hno
    · exact absurd rfl hno
    · cases hint.symm.trans hno
  · have hrun : (client geo).run (Section.dialInstall s.inner.dialGen) s =
      dialInstall s.inner.dialGen s := rfl
    unfold Machine.after at hk hgen
    unfold Machine.heir
    simp only [hrun, hnew] at hk hgen ⊢
    -- The socket is the last one, of the generation of the dial.
    cases hk
    rw [Shared.gens, List.map_append, List.map_singleton, List.getElem?_append_right
      (by rw [List.length_map]), List.length_map, Nat.sub_self] at hgen
    cases hgen
    by_cases hresume : resume = true
    · rw [if_pos hresume]
      exact beq_self_eq_true _
    · rw [if_neg hresume]
      exact beq_self_eq_true _

/-- A wanted device is one a call just asked to want, or was wanted before. -/
theorem run_wanted {α : Type} (op : Section α) (s : Shared) (d : String)
    (h : d ∈ (op.run geo s).1.inner.subscriptions) :
    op.seeks = some d ∨ d ∈ s.inner.subscriptions := by
  have hroster : d ∈ (op.run geo s).1.roster.subscriptions := h
  have hstep := run_roster geo op s
  generalize (op.run geo s).1.roster = r at hstep hroster
  cases hstep with
  | wanted d' =>
      rcases List.mem_insert_iff.mp hroster with rfl | hmem
      · exact Or.inl rfl
      · exact Or.inr hmem
  | given d' => exact Or.inr (List.mem_of_mem_erase hroster)
  | _ => exact Or.inr hroster

/-! ## Runs -/

/-- Every device that is wanted was asked for on the current socket since it was last
    wanted, or a task is about to, or the dial of that socket gave up. -/
def Heeds (p : Pool Shared Task) (b : Sought) : Prop :=
  ∀ k gen : Nat, p.shared.inner.outTx = some k → p.shared.gens[k]? = some gen →
    p.shared.writing k = true → p.shared.inner.intentional = false →
    (∀ d, b.since d ≤ (p.shared.wire k).length) ∧
      ∀ d ∈ p.shared.inner.subscriptions, Asked p.shared k (b.since d) d ∨
        (∃ t ∈ p.tasks, t.asks gen d = true) ∨ gen ∈ b.gaveUp

omit geo in
/-- What was open before a section that installs nothing. -/
theorem move_open (d : Drive) (l l' : Link) (hm : Link.Move d l l') (k gen : Nat)
    (hinst : ¬ (d = .install l.dialGen ∧ l.intentional = false)) (hk : l'.current = some k)
    (hgen : l'.gens[k]? = some gen) (hint : l'.intentional = false) :
    l.current = some k ∧ l.gens[k]? = some gen ∧ l.intentional = false := by
  have hbefore := move_intentional d l l' hm hint
  refine ⟨?_, ?_, hbefore⟩
  · rcases move_current d l l' hm k hk with hcur | ⟨hd, _⟩
    · exact hcur
    · exact absurd ⟨hd, hbefore⟩ hinst
  · rcases move_gens d l l' hm with hsame | ⟨hd, _⟩
    · rwa [hsame] at hgen
    · exact absurd ⟨hd, hbefore⟩ hinst

/-- A step leaves nobody unasked for. -/
theorem step_heeds (p : Pool Shared Task) (i : Nat) (c : Input) (t : Task)
    (a : Act Section Task) (b : Sought) (ht : p.tasks[i]? = some t) (ha : t.act c = some a)
    (hI : Heeds p b) : Heeds ((client geo).resumed p i a) (noteSought geo p i t a b) := by
  intro k gen hk hgen hw hint
  have hself := List.mem_of_getElem? ((client geo).resumed_get_self p i a t ht)
  -- A socket that takes over finds nothing asked for, and its dial to ask for everything.
  by_cases hinst : a.op.takesOver p.shared = true
  · simp only [noteSought, if_pos hinst]
    exact ⟨fun d => Nat.zero_le _, fun d _ => Or.inr (Or.inl
      ⟨_, hself, act_takesOver geo t c a p.shared ha hinst k gen d hk hgen⟩)⟩
  · rcases move_open a.op.drive p.shared.link _ (run_moves geo a.op p.shared) k gen
      (fun h => hinst ((takesOver_iff a.op p.shared).mpr h)) hk hgen hint with ⟨hk₀, hgen₀, hint₀⟩
    have hw₀ : p.shared.writing k = true := by
      rcases run_writing geo a.op p.shared k hw with hold | hnew
      · exact hold
      · -- The socket has a generation, so it was there before.
        have hlt := (List.getElem?_eq_some_iff.mp hgen₀).1
        rw [gens_length] at hlt
        omega
    rcases hI k gen hk₀ hgen₀ hw₀ hint₀ with ⟨hsince, hheeds⟩
    have hlonger := run_wire_longer geo a.op p.shared k
    simp only [noteSought, if_neg hinst]
    refine ⟨fun d => ?_, fun d hd => ?_⟩
    · -- The new mark is the present length of the wire.
      rw [logged_eq p.shared k hk₀]
      exact (Sought.mark_le _ _ _ d (hsince d)).trans hlonger
    · by_cases hseeks : a.op.seeks = some d
      · exact Or.inr (Or.inl ⟨_, hself, act_seeks geo t c a p.shared ha d hseeks gen⟩)
      · -- The device was wanted before, and is not wanted anew.
        have hd₀ : d ∈ p.shared.inner.subscriptions := by
          rcases run_wanted geo a.op p.shared d hd with hnow | hold
          · exact absurd hnow hseeks
          · exact hold
        rw [Sought.mark_of_ne _ _ _ d hseeks]
        -- It was asked for already, somebody is about to ask, or the dial gave up.
        rcases hheeds d hd₀ with hasked | ⟨u, hu, hasks⟩ | hgave
        · exact Or.inl (run_asked geo a.op p.shared k _ d hasked)
        · rcases List.mem_iff_getElem?.mp hu with ⟨j, hj⟩
          by_cases hji : j = i
          · rw [hji, ht, Option.some.injEq] at hj
            subst hj
            rcases heir_asks geo t c a p.shared ha gen k _ d hasks hk₀ hw₀ hint₀ (hsince d) hd₀ with
              hasked | hasks' | ⟨hresuming, hover⟩
            · exact Or.inl hasked
            · exact Or.inr (Or.inl ⟨_, hself, hasks'⟩)
            · rw [if_pos hover, hresuming]
              exact Or.inr (Or.inr List.mem_cons_self)
          · exact Or.inr (Or.inl ⟨u, List.mem_of_getElem?
              ((client geo).resumed_get_other p i j a u hji hj), hasks⟩)
        · refine Or.inr (Or.inr ?_)
          split
          · exact List.mem_append_right _ hgave
          · exact hgave

/-- In every run each device that is wanted was asked for on the current socket, after
    it was last wanted, or a task is about to ask for it. The exception is a dial that
    installed its socket and could not resume the track. -/
theorem reach_resubscribes (cfg : Config) (p : Pool Shared Task) (b : Sought)
    (h : (client geo).Tallied (Started cfg) (fun _ _ _ _ _ => True) (noteSought geo) Sought.none
      p b) (k gen : Nat) (hk : p.shared.inner.outTx = some k) (hgen : p.shared.gens[k]? = some gen)
    (hw : p.shared.writing k = true) (hint : p.shared.inner.intentional = false) (d : String)
    (hd : d ∈ p.shared.inner.subscriptions) :
    Asked p.shared k (b.since d) d ∨ (∃ t ∈ p.tasks, t.asks gen d = true) ∨ gen ∈ b.gaveUp := by
  -- `Heeds` says the same of every device at once, and that is what a step keeps.
  have hheeds : Heeds p b := by
    refine (client geo).tallied_inv (Started cfg) _ _ _ (fun _ => True) (fun _ _ => trivial)
      Heeds ?_ ?_ ?_ p b h
    · intro p hp k gen hk _ _ _
      rcases started_pool cfg p hp with ⟨now, rfl⟩
      cases hk
    · exact fun p i c t a b ht ha _ _ hI => step_heeds geo p i c t a b ht ha hI
    · intro p t b _ _ hI k gen hk hgen hw hint
      rcases hI k gen hk hgen hw hint with ⟨hsince, hheeds⟩
      refine ⟨hsince, fun d hd => ?_⟩
      rcases hheeds d hd with hasked | ⟨u, hu, hasks⟩ | hgave
      · exact Or.inl hasked
      · exact Or.inr (Or.inl ⟨u, List.mem_append_left _ hu, hasks⟩)
      · exact Or.inr (Or.inr hgave)
  exact (hheeds k gen hk hgen hw hint).2 d hd

end Client

/-- Nobody is about to ask for a device that is wanted on the open socket `k`. -/
def unattended (k gen : Nat) (d : String) (p : Pool Shared Task) : Bool :=
  decide (p.shared.inner.outTx = some k ∧ p.shared.gens[k]? = some gen ∧
    p.shared.writing k = true ∧ p.shared.inner.intentional = false ∧
    d ∈ p.shared.inner.subscriptions) && p.tasks.all fun t => !t.asks gen d

/-- A device is wanted, and its socket closes. The next dial has no track to resume. -/
def resubscribed : List (Label Task Input) :=
  opening ++ [.spawn (.subscribe "d"), .resume 3 .go, .resume 3 .go, .resume 2 .eof,
    .resume 4 (.random 0), .resume 4 .go] ++ dialSteps 4 ++
    [.resume 4 .go, .resume 4 .go, .resume 4 .go]

/-- The device is asked for on the second socket too. -/
theorem reach_resubscribes_lost :
    ∃ p : Pool Shared Task, p.shared.inner.outTx = some 1 ∧ Asked p.shared 1 0 "d" := by
  rcases (client flatGeo).exists_tallied (Started someConfig) (fun _ _ _ _ _ => True)
    (noteSought flatGeo) Sought.none (fun _ _ _ _ _ => true) (fun _ _ _ _ _ _ => trivial)
    resubscribed fresh started_fresh
    (fun p b => unattended 1 2 "d" p && decide (b.since "d" = 0 ∧ b.gaveUp = []))
    (by decide +kernel) with ⟨p, b, hp, hrun⟩
  simp only [unattended, Bool.and_eq_true, decide_eq_true_eq, List.all_eq_true,
    Bool.not_eq_true'] at hrun
  rcases hrun with ⟨⟨⟨hk, hgen, hw, hint, hd⟩, hidle⟩, hsince, hgave⟩
  refine ⟨p, hk, ?_⟩
  -- No task is left that could ask, and no dial has given up.
  rcases reach_resubscribes flatGeo someConfig p b hp 1 2 hk hgen hw hint "d" hd with
    hasked | ⟨t, ht, hasks⟩ | hup
  · rwa [hsince] at hasked
  · cases (hidle t ht).symm.trans hasks
  · rw [hgave] at hup
    exact absurd hup List.not_mem_nil

/-- A device is wanted when the server sends the session to another node, which does not
    know the track. -/
def relocatedAway : List (Label Task Input) :=
  tracking ++ [.spawn (.subscribe "d"), .resume 4 .go, .resume 4 .go,
    .resume 2 (.frame (.relocate "wss://b" 0)), .resume 5 .go, .resume 5 .go] ++ dialSteps 5 ++
    [.resume 5 .go, .resume 5 .go, .resume 7 (.frame (.error .trackNotFound "gone" none none)),
      .resume 5 .go, .resume 5 .go]

/-- Then the dial gives up, and the device is never asked for on the new socket. -/
theorem relocation_forgets :
    ∃ p, (client flatGeo).Reach (Started someConfig) Machine.anyStep p ∧
      unattended 1 2 "d" p = true ∧ ¬ Asked p.shared 1 0 "d" := by
  rcases reach_of_opening relocatedAway
    (fun p => unattended 1 2 "d" p && decide (¬ Asked p.shared 1 0 "d")) (by decide +kernel) with
    ⟨p, hp, hrun⟩
  rw [Bool.and_eq_true, decide_eq_true_eq] at hrun
  exact ⟨p, hp, hrun⟩

end Tracking

end Pickpoint
