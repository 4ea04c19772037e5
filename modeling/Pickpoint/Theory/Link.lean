import Pickpoint.Theory.Effects

/-!
# The Connection

What the locked sections do to the connection, apart from the queue, the
waiters and the wires.

A `Link` is the part of the session that decides which socket is current:
the dial generation, the connection state, the current socket and the
generation each socket was dialed with. Its moves are few. A dial begins,
which takes a new generation; its socket is installed, unless the generation
has moved on; an event binds or unbinds the session; a credential refresh
takes a new generation and gives the socket up; the close handler of the
current generation gives it up; and a shutdown ends the session.

`run_moves` is the refinement: every section makes exactly the move its
`drive` names. What follows about links then holds of the code.

## Main definitions

* `Link`, `Drive`, `Link.Move`: The connection and its moves.
* `Link.Sound`: No generation is ahead of `dialGen`, and the socket of the
  current generation is the current one or there is none.
* `Shared.link`, `Section.drive`: The connection of a session.

## Theorems

* `move_sound`: Moves keep a link sound.
* `move_current`: When a socket becomes current.
* `run_moves`: The sections make the moves.
-/

namespace Pickpoint

namespace Tracking

/-- The connection of a session: the latest generation and those of its sockets, the
    current socket, and what the session says of its state. -/
structure Link where
  dialGen : Nat
  state : ConnectionState
  intentional : Bool
  current : Option Nat
  ready : Bool
  gens : List Nat

/-- What a section does to the connection. -/
inductive Drive where
  | idle
  | begin
  | install (gen : Nat)
  | bind (sock : Nat)
  | unbind
  | refresh
  | lose (gen : Nat)
  | shut

/-- The moves of a connection. Every section makes one of them (`run_moves`), so
    invariants of the connection are proved of these. -/
inductive Link.Move : Drive → Link → Link → Prop where
  | idle (l : Link) : Move .idle l l
  | begin (l : Link) :
      Move .begin l
        { l with
          dialGen := l.dialGen + 1, ready := false
          state := if l.state = .open ∨ l.state = .reconnecting then .reconnecting
            else .connecting }
  | superseded (l : Link) (gen : Nat) (h : gen ≠ l.dialGen ∨ l.intentional = true) :
      Move (.install gen) l l
  | install (l : Link) (h : l.intentional = false) :
      Move (.install l.dialGen) l
        { l with
          current := some l.gens.length, state := .open, gens := l.gens ++ [l.dialGen] }
  | bind (l : Link) (sock : Nat) : Move (.bind sock) l { l with ready := true }
  | unbind (l : Link) (ready : Bool) (h : ready = true → l.ready = true) :
      Move .unbind l { l with ready := ready }
  | refresh (l : Link) :
      Move .refresh l { l with dialGen := l.dialGen + 1, ready := false, current := none }
  | stale (l : Link) (gen : Nat) (h : gen ≠ l.dialGen) : Move (.lose gen) l l
  | lose (l : Link) (state : ConnectionState) (h : state = .closed ∨ state = .reconnecting)
      (hint : l.intentional = true → state = .closed) :
      Move (.lose l.dialGen) l { l with current := none, ready := false, state := state }
  | shut (l : Link) (current : Option Nat) (ready : Bool)
      (hcur : current = l.current ∨ current = none) (h : ready = true → l.ready = true) :
      Move .shut l
        { l with intentional := true, state := .closed, current := current, ready := ready }

/-- The generations are in order. -/
structure Link.Sound (l : Link) : Prop where
  gens_le : ∀ g ∈ l.gens, g ≤ l.dialGen
  current_lt : ∀ k, l.current = some k → k < l.gens.length
  latest : ∀ k : Nat, l.gens[k]? = some l.dialGen → l.current = some k ∨ l.current = none

/-- Moves keep a link sound, provided no socket has the generation a dial
    installs. -/
theorem move_sound (d : Drive) (l l' : Link) (hm : Link.Move d l l') (hs : l.Sound)
    (hfresh : ∀ gen, d = .install gen → gen ∉ l.gens) : l'.Sound := by
  have hahead : ∀ k : Nat, l.gens[k]? ≠ some (l.dialGen + 1) := by
    intro k hk
    have := hs.gens_le _ (List.mem_of_getElem? hk)
    omega
  -- Generations only grow; an install takes a fresh one.
  cases hm with
  | idle => exact hs
  | superseded => exact hs
  | bind => exact ⟨hs.gens_le, hs.current_lt, hs.latest⟩
  | unbind => exact ⟨hs.gens_le, hs.current_lt, hs.latest⟩
  | stale => exact hs
  | begin =>
      exact ⟨fun g hg => Nat.le_succ_of_le (hs.gens_le g hg), hs.current_lt,
        fun k hk => absurd hk (hahead k)⟩
  | refresh =>
      exact ⟨fun g hg => Nat.le_succ_of_le (hs.gens_le g hg), by rintro _ ⟨⟩,
        fun k hk => absurd hk (hahead k)⟩
  | lose => exact ⟨hs.gens_le, by rintro _ ⟨⟩, fun k _ => Or.inr rfl⟩
  | shut _ current _ hcur =>
      rcases hcur with rfl | rfl
      · exact ⟨hs.gens_le, hs.current_lt, hs.latest⟩
      · exact ⟨hs.gens_le, by rintro _ ⟨⟩, fun k _ => Or.inr rfl⟩
  | install hint =>
      refine ⟨?_, ?_, ?_⟩
      · intro g hg
        rcases List.mem_append.mp hg with hg | hg
        · exact hs.gens_le g hg
        · rw [List.mem_singleton] at hg
          exact Nat.le_of_eq hg
      · intro k hk
        cases hk
        rw [List.length_append, List.length_singleton]
        exact Nat.lt_succ_self _
      · intro k hk
        -- The generation is fresh, so only the new socket can have it.
        by_cases hlt : k < l.gens.length
        · rw [List.getElem?_append_left hlt] at hk
          exact absurd (List.mem_of_getElem? hk) (hfresh _ rfl)
        · have hlen := (List.getElem?_eq_some_iff.mp hk).1
          rw [List.length_append, List.length_singleton] at hlen
          exact Or.inl (congrArg some (by omega))

/-- Generations only grow. -/
theorem move_dialGen_le (d : Drive) (l l' : Link) (hm : Link.Move d l l') :
    l.dialGen ≤ l'.dialGen := by
  cases hm <;> first | exact Nat.le_refl _ | exact Nat.le_succ _

/-- Only a dial that begins and a refresh take a generation. -/
theorem move_dialGen (d : Drive) (l l' : Link) (hm : Link.Move d l l') :
    d = .begin ∨ d = .refresh ∨ l'.dialGen = l.dialGen := by
  cases hm with
  | begin => exact Or.inl rfl
  | refresh => exact Or.inr (Or.inl rfl)
  | _ => exact Or.inr (Or.inr rfl)

/-- A dial begins by taking the next generation. -/
theorem move_begin (l l' : Link) (hm : Link.Move .begin l l') :
    l'.dialGen = l.dialGen + 1 ∧ l'.gens = l.gens ∧ l'.ready = false ∧ l'.state ≠ .open := by
  cases hm
  refine ⟨rfl, rfl, rfl, ?_⟩
  dsimp only
  split <;> rintro ⟨⟩

/-- Only an event makes a connection ready. -/
theorem move_ready (d : Drive) (l l' : Link) (hm : Link.Move d l l') (h : l'.ready = true) :
    l'.dialGen = l.dialGen ∧ (l.ready = true ∨ ∃ sock, d = .bind sock) := by
  cases hm with
  | idle => exact ⟨rfl, Or.inl h⟩
  | superseded => exact ⟨rfl, Or.inl h⟩
  | install => exact ⟨rfl, Or.inl h⟩
  | bind _ sock => exact ⟨rfl, Or.inr ⟨sock, rfl⟩⟩
  | unbind _ _ hready => exact ⟨rfl, Or.inl (hready h)⟩
  | stale => exact ⟨rfl, Or.inl h⟩
  | shut _ _ _ _ hready => exact ⟨rfl, Or.inl (hready h)⟩
  | begin => cases h
  | refresh => cases h
  | lose => cases h

/-- Only an install adds a socket, of the current generation. -/
theorem move_gens (d : Drive) (l l' : Link) (hm : Link.Move d l l') :
    l'.gens = l.gens ∨ (d = .install l.dialGen ∧ l'.gens = l.gens ++ [l.dialGen]) := by
  cases hm with
  | install => exact Or.inr ⟨rfl, rfl⟩
  | _ => exact Or.inl rfl

/-- A socket becomes current when it is installed, and at no other time. -/
theorem move_current (d : Drive) (l l' : Link) (hm : Link.Move d l l') (k : Nat)
    (h : l'.current = some k) :
    l.current = some k ∨
      (d = .install l.dialGen ∧ l.intentional = false ∧ k = l.gens.length) := by
  cases hm with
  | install _ hint => exact Or.inr ⟨rfl, hint, (Option.some.inj h).symm⟩
  | refresh => cases h
  | lose => cases h
  | shut _ _ _ hcur =>
      rcases hcur with rfl | rfl
      · exact Or.inl h
      · cases h
  | _ => exact Or.inl h

/-- The close handler of the current generation gives the socket up. -/
theorem move_lose (l l' : Link) (hm : Link.Move (.lose l.dialGen) l l') : l'.current = none := by
  generalize hd : Drive.lose l.dialGen = d at hm
  cases hm with
  | stale _ gen hgen => exact absurd (Drive.lose.inj hd).symm hgen
  | lose => rfl
  | _ => cases hd

/-! ## The connection of a session -/

/-- The connection of a session whose sockets have the generations `gens`. -/
def Inner.link (g : Inner) (gens : List Nat) : Link where
  dialGen := g.dialGen
  state := g.state
  intentional := g.intentional
  current := g.outTx
  ready := g.sessionReady
  gens := gens

def Shared.link (s : Shared) : Link := s.inner.link s.gens

/-- What a section does to the connection. -/
def Section.drive : {α : Type} → Section α → Drive
  | _, .dialBegin => .begin
  | _, .dialInstall gen => .install gen
  | _, .dispatchResumeOk sock _ _ => .bind sock
  | _, .dispatchTrackStarted sock _ _ => .bind sock
  | _, .dispatchTrackStopped _ _ => .unbind
  | _, .dispatchError _ _ => .unbind
  | _, .startTrack _ _ => .unbind
  | _, .publishStart _ _ => .unbind
  | _, .authRefreshed _ _ => .refresh
  | _, .socketClosed gen _ => .lose gen
  | _, .authClose => .shut
  | _, .authFailed => .shut
  | _, .closeFinal => .shut
  | _, _ => .idle

theorem gens_length (s : Shared) : s.link.gens.length = s.sockets.length := List.length_map ..

/-- Only an install adds a socket. -/
theorem run_gens (geo : Geo) {α : Type} (op : Section α) (s : Shared)
    (h : ∀ gen, op.drive ≠ .install gen) : (op.run geo s).1.gens = s.gens := by
  have hgens : (op.run geo s).1.gens = (op.run geo s).1.sockets.map (·.gen) := rfl
  rw [hgens]
  have hstep := run_sockets geo op s
  generalize (op.run geo s).1.sockets = ks at hstep ⊢
  cases hstep with
  | same => rfl
  | heard _ sock evt => exact s.gens_logTraffic sock (.got evt)
  | handed _ k out ticket => exact s.gens_logTraffic k (.sent out ticket)
  | opened gen => exact absurd rfl (h gen)
  -- A writer that stops changes a flag of its socket.
  | stopped sock =>
      refine List.ext_getElem? fun i => ?_
      simp only [Shared.gens, List.getElem?_map, List.getElem?_modify]
      rcases s.sockets[i]? with _ | x
      · rfl
      · by_cases hk : sock = i
        · simp only [if_pos hk, Option.map_eq_map, Option.map_some]
        · simp only [if_neg hk, Option.map_eq_map, Option.map_some]

theorem install_silent {α : Type} (op : Section α) (gen : Nat) (h : op.drive = .install gen) :
    op.hears = none ∧ op.hands = none := by
  cases op <;> first | exact ⟨rfl, rfl⟩ | cases h

/-- Nothing is on the wire of a socket that an install adds. -/
theorem installed_wire (geo : Geo) {α : Type} (op : Section α) (s : Shared) (gen : Nat)
    (h : op.drive = .install gen) : (op.run geo s).1.wire s.sockets.length = [] := by
  have hquiet := install_silent op gen h
  rcases run_wire geo op s s.sockets.length with hw | ⟨_, hop, _⟩ | ⟨_, _, hop, _⟩
  · exact hw.trans s.wire_length
  · cases hquiet.1.symm.trans hop
  · cases hquiet.2.symm.trans hop

/-- No section brings a writer back. -/
theorem run_writes (geo : Geo) {α : Type} (op : Section α) (s : Shared) (k : Nat)
    (hinst : ∀ gen, op.drive ≠ .install gen) (h : (op.run geo s).1.writing k = true) :
    s.writing k = true := by
  rcases run_writing geo op s k h with hw | rfl
  · exact hw
  · -- There is no socket of that index, before or after.
    have hlt := Shared.writing_lt _ _ h
    have hlen := congrArg List.length (run_gens geo op s hinst)
    simp only [Shared.gens, List.length_map] at hlen
    omega

/-- Every section makes the move its drive names. -/
theorem run_moves (geo : Geo) {α : Type} (op : Section α) (s : Shared) :
    Link.Move op.drive s.link (op.run geo s).1.link := by
  -- An install is the only section that adds a generation to the sockets.
  by_cases hinst : ∃ gen, op.drive = .install gen
  · rcases hinst with ⟨gen, hgen⟩
    cases op with
    | dialInstall gen =>
        rcases dialInstall_cases gen s with ⟨hgen, h⟩ | ⟨rfl, hint, h⟩
        · simp only [Section.run, h]
          exact .superseded _ gen hgen
        · have hm := Link.Move.install s.link hint
          simp only [Section.run, h, Shared.link, Inner.link, Shared.gens, List.map_append,
            List.map_cons, List.map_nil, List.length_map] at hm ⊢
          exact hm
    | _ => cases hgen
  · have hlink : (op.run geo s).1.link = (op.run geo s).1.inner.link s.gens := by
      rw [Shared.link, run_gens geo op s fun gen h => hinst ⟨gen, h⟩]
    rw [hlink]
    cases op with
    | dialInstall gen => exact absurd ⟨gen, rfl⟩ hinst
    | dialBegin => exact .begin _
    | relocateEndpoint endpoint =>
        simp only [Section.run, relocateEndpoint_eq]
        exact .idle _
    | dispatchResumeOk sock uid seq => exact .bind _ sock
    | dispatchTrackStarted sock uid metadata => exact .bind _ sock
    | dispatchTrackStopped sock uid =>
        simp only [Section.run, dispatchTrackStopped]
        split
        · exact .unbind _ false (by rintro ⟨⟩)
        · exact .unbind _ _ id
    | dispatchError sock e =>
        rcases dispatchError_inner sock e s with ⟨_, _, ready, _, _, h, hready, _⟩
        simp only [Section.run, h]
        refine .unbind _ ready ?_
        rcases hready with ⟨_, _, rfl⟩ | ⟨_, _, rfl⟩
        · exact id
        · rintro ⟨⟩
    | dispatchCommand sock c =>
        simp only [Section.run, dispatchCommand_frame]
        exact .idle _
    | settle cell r forward =>
        simp only [Section.run, settle_frame]
        exact .idle _
    | authClose =>
        simp only [Section.run, authClose_frame]
        exact .shut _ none _ (Or.inr rfl) id
    | authRefreshed device listener =>
        rcases authRefreshed_frame device listener s with ⟨_, _, h, _⟩
        simp only [Section.run, h]
        exact .refresh _
    | authFailed => exact .shut _ _ _ (Or.inl rfl) id
    | closeFinal =>
        simp only [Section.run, closeFinal_frame]
        exact .shut _ none false (Or.inr rfl) (by rintro ⟨⟩)
    | socketClosed gen random =>
        rcases socketClosed_cases gen random s with
          ⟨hgen, h⟩ | ⟨rfl, state, _, _, _, _, hstate, hint, h, _⟩
        · simp only [Section.run, h]
          exact .stale _ gen hgen
        · simp only [Section.run, h]
          exact .lose s.link state hstate hint
    | resumeLock =>
        rcases resumeLock_inner s with ⟨_, h⟩
        simp only [Section.run, h]
        exact .idle _
    | flush =>
        rcases flush_cases s with h | ⟨_, _, _, h⟩
        · simp only [Section.run, h]
          exact .idle _
        · rcases flushPoints_inner s.inner with ⟨_, _, hp⟩
          simp only [Section.run, h, hp]
          exact .idle _
    | sendBin frame ticket =>
        simp only [Section.run, sendBin_frame]
        exact .idle _
    | startTrack wall loc =>
        rcases startTrack_inner wall loc s with ⟨_, h⟩
        simp only [Section.run, h]
        exact .unbind _ false (by rintro ⟨⟩)
    | startFailed =>
        simp only [Section.run, startFailed_frame]
        exact .idle _
    | resumeTrack uid seq =>
        simp only [Section.run, resumeTrack_inner]
        exact .idle _
    | resumeFailed =>
        simp only [Section.run, resumeFailed_frame]
        exact .idle _
    | publishStart wall point =>
        rcases publishStart_cases wall point s with ⟨_, h⟩ | ⟨_, h⟩
        · simp only [Section.run, h]
          exact .unbind _ false (by rintro ⟨⟩)
        · simp only [Section.run, h]
          exact .unbind _ _ id
    | publishWork now wall point =>
        rcases publishWork_cases geo now wall point s with
          h | ⟨_, _, h | ⟨_, ⟨_, h⟩ | ⟨_, h⟩⟩⟩ <;>
          (simp only [Section.run, h]; exact .idle _)
    | stopTrack =>
        simp only [Section.run, stopTrack_frame]
        exact .idle _
    | stopFailed =>
        simp only [Section.run, stopFailed_frame]
        exact .idle _
    | sendEvent now =>
        rcases sendEvent_cases now s with ⟨_, h, _⟩
        simp only [Section.run, h]
        exact .idle _
    | _ => exact .idle _

end Tracking

end Pickpoint
