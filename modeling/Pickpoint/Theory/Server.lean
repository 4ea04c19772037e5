import Pickpoint.Theory.Generations

/-!
# Servers and Runs

The model lets a server say anything at any time. Some statements are about
servers that keep to the protocol, and `honest` says what that means for the
wire of one socket: every answer has a request it answers, and an `Ack` names
a number handed over for the live track.

The rest is what concrete runs share: a configuration, distances that are all
zero, and the first steps of a session, from `connect` to its return.

## Main definitions

* `Traffic.locSeq`: The number of a Loc frame on a wire.
* `answers`, `honest`: A server that keeps to the protocol.
* `flatGeo`, `someConfig`, `fresh`, `opening`, `tracking`: A session to start
  runs from.

## Theorems

* `reach_of_opening`: Runs out of the fresh session are reachable.
-/

namespace Pickpoint

namespace Tracking

open Interleave

/-! ## Honest servers -/

/-- The number on the wire of a Loc frame, `LocationAdd` included. -/
def Traffic.locSeq : Traffic → Option Nat
  | .sent (.bin (.loc f)) _ => some f.seq
  | .sent (.bin (.cmd (.locationAdd _ seq _))) _ => some (truncU32 seq)
  | _ => none

def Traffic.isTrackStart : Traffic → Bool
  | .sent (.bin (.cmd (.trackStart _ _ _))) _ => true
  | _ => false

def Traffic.isTrackStop : Traffic → Bool
  | .sent (.bin (.cmd (.trackStop _))) _ => true
  | _ => false

def Traffic.isResume : Traffic → Bool
  | .sent (.bin (.cmd (.resume _ _))) _ => true
  | _ => false

def Traffic.isTrackStarted : Traffic → Bool
  | .got (.trackStarted _ _) => true
  | _ => false

def Traffic.isTrackStopped : Traffic → Bool
  | .got (.trackStopped _) => true
  | _ => false

def Traffic.isResumeOk : Traffic → Bool
  | .got (.resumeOk _ _) => true
  | _ => false

/-- The track uids the server has given out on a wire. -/
def startedUids : List Traffic → List String
  | [] => []
  | .got (.trackStarted uid _) :: w => uid :: startedUids w
  | _ :: w => startedUids w

/-- The Loc numbers handed over since the last `TrackStart`. -/
def liveSeqs (w : List Traffic) : List Nat :=
  (w.takeWhile fun t => !t.isTrackStart).filterMap Traffic.locSeq

/-- Whether an honest server may say `evt` after the traffic `w`. -/
def answers (w : List Traffic) : ServerEvt → Bool
  | .trackStarted uid _ =>
    decide (w.countP Traffic.isTrackStarted < w.countP Traffic.isTrackStart) &&
      !(startedUids w).contains uid
  | .trackStopped _ =>
    decide (w.countP Traffic.isTrackStopped < w.countP Traffic.isTrackStop)
  | .resumeOk _ acked =>
    decide (w.countP Traffic.isResumeOk < w.countP Traffic.isResume) &&
      (decide (acked = 0) || (liveSeqs w).contains acked)
  | .ack seq => (liveSeqs w).contains seq
  | _ => false

/-- Everything that came from the server was in order. -/
def honest : List Traffic → Bool
  | [] => true
  | .got evt :: w => answers w evt && honest w
  | .sent _ _ :: w => honest w

/-! ## Concrete runs -/

/-- All samples are at the same place. -/
def flatGeo : Geo := { haversineM := fun _ _ => 0, perpendicularM := fun _ _ _ => 0 }

def someConfig : Config := { endpoint := "wss://a", device := some ⟨"id", "secret"⟩ }

/-- What `connect` starts from with `someConfig`. -/
def fresh : Pool Shared Task :=
  { shared := { inner := Inner.new someConfig 0 }, tasks := [.dial .connect (.begin 0 false)] }

/-- The steps of task `i` from before `begin` to just after the install of a
    socket. -/
def dialSteps (i : Nat) : List (Label Task Input) :=
  [.resume i .go, .resume i .opened, .resume i (.frame (.hello protocolVersion "n" 0)),
    .resume i .go]

/-- From `connect` to its return: task 1 is the writer and task 2 the reader
    of the first socket. -/
def opening : List (Label Task Input) :=
  dialSteps 0 ++ [.resume 0 .go, .resume 0 .go, .resume 0 .go]

/-- A sample taken at time `ms`. -/
def sample (ms : Int) : LatLng := { latitude := 0, longitude := 0, timestampMs := some ms }

/-- The first `publish` starts a track and the server confirms it. -/
def tracking : List (Label Task Input) :=
  opening ++ [.spawn (.publish (.start (sample 0))), .resume 3 (.clock 0 0), .resume 3 .go,
    .resume 2 (.frame (.trackStarted "T" [])), .resume 2 .go, .resume 2 .go]

/-- A `publish` that runs up to the point where it has something to send. -/
def publishSteps (i : Nat) (ms : Nat) : List (Label Task Input) :=
  [.spawn (.publish (.start (sample ms))), .resume i (.clock 0 ms),
    .resume i (.clock (ms * 1000000) ms)]

theorem started_fresh : Started someConfig fresh := ⟨0, rfl⟩

/-- A run that replays from the fresh session ends in a reachable pool. -/
theorem reach_of_opening (ls : List (Label Task Input))
    (P : Pool Shared Task → Bool)
    (h : ((client flatGeo).replay (fun _ _ => true) fresh ls).any P = true) :
    ∃ p, (client flatGeo).Reach (Started someConfig) Machine.anyStep p ∧ P p = true :=
  (client flatGeo).exists_reach _ _ _ (fun _ _ _ => trivial) ls fresh started_fresh P h

/-- The same for a run whose steps are watched. -/
theorem reach_of_watched (C : Pool Shared Task → Nat → Task → Act Section Task → Bool)
    (ls : List (Label Task Input)) (P : Pool Shared Task → Bool)
    (h : ((client flatGeo).replay ((client flatGeo).watch C) fresh ls).any P = true) :
    ∃ p, (client flatGeo).Reach (Started someConfig)
      ((client flatGeo).whenever fun p i t a => C p i t a = true) p ∧ P p = true :=
  (client flatGeo).exists_reach _ _ _ ((client flatGeo).whenever_of_watch C) ls fresh
    started_fresh P h

end Tracking

end Pickpoint
