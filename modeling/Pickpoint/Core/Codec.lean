import Pickpoint.ByteCodec.Reader
import Pickpoint.Core.LocFrames

/-!
# The Binary Codec

`tracking.v2`, little-endian: one frame is one message. The two encoders append
fields to a growing buffer; here they are built from the bytes of the fields.
The two decoders read them off the front of their input and ignore what is left
at the end.

An `expect` that fails and a checked subtraction or addition that overflows stop
the program, which a `Fault` stands for. The sources of truth for the text form
of a UUID are the two functions of the `uuid` crate, which are parameters
(`UuidLib`); `UuidLib.Documented` says what the crate promises about the form
this protocol uses.

Degrees, metres and their scaled values are exact, as in `Core.Types`. A number
that does not fit its field saturates or wraps as the cast in the code does.

## Main definitions

* `Uuid`, `UuidLib`: UUIDs and their text form.
* `R.u8` to `R.bytes`, `putU8` to `putBytes`: Fields.
* `writePoint`, `readPoint`, `writeRouteAbs`, `readRouteAbs`: Points and routes.
* `encodeLocFrames`: The batch splitter.
* `encodeClientCmd`, `decodeClient`, `decodeClientCmd`: Client commands.
* `encodeServerEvt`, `decodeServerEvt`: Server events.
-/

namespace Pickpoint

namespace Tracking

open ByteCodec

/-! ## UUIDs -/

/-- A UUID. -/
abbrev Uuid := Block 16

/-- The nil UUID. -/
def Uuid.nil : Uuid := ⟨List.replicate 16 0, rfl⟩

/-- Bytes in lowercase hex. -/
def hex (bs : Bytes) : List Char :=
  bs.flatMap fun b => [Nat.digitChar (b.toNat / 16), Nat.digitChar (b.toNat % 16)]

/-- The lowercase hyphenated form. -/
def Uuid.hyphenated (u : Uuid) : String :=
  String.ofList (hex (u.val.take 4) ++ '-' :: hex ((u.val.drop 4).take 2) ++
    '-' :: hex ((u.val.drop 6).take 2) ++ '-' :: hex ((u.val.drop 8).take 2) ++
    '-' :: hex (u.val.drop 10))

/-- `Uuid::parse_str` and `Uuid::to_string` of the crate that does it. The codec
    takes them as parameters, and relies on `Documented` only. -/
structure UuidLib where
  parseStr : String → Option Uuid
  toString : Uuid → String

/-- A UUID prints in its lowercase hyphenated form, which parses. -/
structure UuidLib.Documented (lib : UuidLib) : Prop where
  toString : ∀ u : Uuid, lib.toString u = u.hyphenated
  parseStr : ∀ u : Uuid, lib.parseStr u.hyphenated = some u

/-! ## Reading fields -/

inductive DecodeError where
  | truncated
  | invalid
  deriving DecidableEq, Repr

/-- A reader of frames. -/
abbrev R := Reader DecodeError

/-- Longest string or byte field. -/
def maxString : Nat := 4096

namespace R

def u8 : R UInt8 := Reader.byte .truncated

def u16 : R Nat := Reader.uint .truncated 2

def u32 : R Nat := Reader.uint .truncated 4

def i16 : R Int := Reader.int .truncated 2

def i32 : R Int := Reader.int .truncated 4

def i64 : R Int := Reader.int .truncated 8

/-- An `f64`, as its bit pattern. -/
def f64 : R UInt64 := do
  let bits ← Reader.uint .truncated 8
  pure (UInt64.ofNat bits)

def uuid (lib : UuidLib) : R String := do
  let b ← Reader.take .truncated 16
  pure (lib.toString b)

def uuidOpt (lib : UuidLib) : R (Option String) := do
  let b ← Reader.take .truncated 16
  -- The nil UUID stands for none.
  pure (if b.val.all (· == 0) then none else some (lib.toString b))

def str : R String := do
  let n ← R.u16
  if maxString < n then Reader.fail .invalid
  else
    let raw ← Reader.take .truncated n
    -- Bytes that are no text.
    match String.fromUTF8? ⟨raw.val.toArray⟩ with
    | some s => pure s
    | none => Reader.fail .invalid

def bytes : R Bytes := do
  let n ← R.u16
  if maxString < n then Reader.fail .invalid
  else
    let raw ← Reader.take .truncated n
    pure raw.val

end R

/-! ## Writing fields -/

def putU8 (v : UInt8) : Bytes := [v]

def putU16 (v : Nat) : Bytes := uintBytes 2 v

def putU32 (v : Nat) : Bytes := uintBytes 4 v

def putI16 (v : Int) : Bytes := intBytes 2 v

def putI32 (v : Int) : Bytes := intBytes 4 v

def putI64 (v : Int) : Bytes := intBytes 8 v

def putF64 (bits : UInt64) : Bytes := uintBytes 8 bits.toNat

/-- `uid_bytes`: the nil UUID for a text that is none. -/
def uidBytes (lib : UuidLib) (s : String) : Uuid :=
  if s = "" then Uuid.nil else (lib.parseStr s).getD Uuid.nil

def putUuid (lib : UuidLib) (s : String) : Bytes := (uidBytes lib s).val

def putBytes (b : Bytes) : Bytes :=
  -- What is too long is cut without an error.
  putU16 (min b.length maxString) ++ b.take (min b.length maxString)

/-- The UTF-8 bytes of a string. -/
def strBytes (s : String) : Bytes := s.toByteArray.data.toList

def putStr (s : String) : Bytes := putBytes (strBytes s)

/-! ## Points -/

inductive EncodeError where
  | empty
  | deltaOverflow
  deriving DecidableEq, Repr

/-- What stops the program: an `expect` on an error, or an unsigned sum out of
    range. -/
inductive Fault where
  | expect (message : String)
  | overflow
  deriving DecidableEq, Repr

def pfAlt : UInt8 := 1

def pfAcc : UInt8 := 2

def pfTime : UInt8 := 16

/-- `as i32`, of an integer. -/
def castI32 (x : Int) : Int := max (-2 ^ 31) (min (2 ^ 31 - 1) x)

/-- Microdegrees to degrees. -/
def microToDeg (m : Int) : ℚ := m / 1000000

/-- Metres to millimetres. -/
def altitudeMm (alt : ℚ) : Int := castI32 (roundHalfAway (alt * 1000))

/-- Metres to centimetres, clamped to `u16`. -/
def accuracyCm (acc : ℚ) : Nat := (max 0 (min (roundHalfAway (acc * 100)) 65535)).toNat

def checkCoord (lat lon : Int) : R Unit :=
  -- In microdegrees.
  if ¬ (-90000000 ≤ lat ∧ lat ≤ 90000000) ∨ ¬ (-180000000 ≤ lon ∧ lon ≤ 180000000) then
    Reader.fail .invalid
  else pure ()

/-- The flags of a point. -/
def pointFlags (p : LatLng) : UInt8 :=
  (if p.altitude.isSome then pfAlt else 0) ||| (if p.accuracy.isSome then pfAcc else 0) |||
    (if p.timestampMs.isSome then pfTime else 0)

/-- The optional fields of a point. -/
def putPointTail (p : LatLng) : Bytes :=
  -- In the order of the flags: altitude, accuracy, time.
  (match p.altitude with
    | some alt => putI32 (altitudeMm alt)
    | none => []) ++
  ((match p.accuracy with
    | some acc => putU16 (accuracyCm acc)
    | none => []) ++
  (match p.timestampMs with
    | some t => putI64 t
    | none => []))

/-- `write_point`; also returns the position written. -/
def writePoint (p : LatLng) (prev : Option (Int × Int)) : Except EncodeError (Bytes × Int × Int) :=
  let lat := degToMicro p.latitude
  let lon := degToMicro p.longitude
  match prev with
  -- Differences after the first point, each of 16 bits.
  | some (plat, plon) =>
    if !microDeltaFits plat plon lat lon then .error .deltaOverflow
    else
      .ok (putU8 (pointFlags p) ++ (putI16 (lat - plat) ++ (putI16 (lon - plon) ++
        putPointTail p)), lat, lon)
  | none =>
    .ok (putU8 (pointFlags p) ++ (putI32 lat ++ (putI32 lon ++ putPointTail p)), lat, lon)

def writeAbs (p : LatLng) : Except Fault Bytes :=
  match writePoint p none with
  | .ok r => .ok r.1
  | .error _ => .error (.expect "absolute point cannot overflow i16 delta")

/-- The position of a point. -/
def readPosition : Option (Int × Int) → R (Int × Int)
  | some (plat, plon) => do
    let dlat ← R.i16
    let dlon ← R.i16
    pure (castI32 (plat + dlat), castI32 (plon + dlon))
  | none => do
    let lat ← R.i32
    let lon ← R.i32
    pure (lat, lon)

/-- An optional field of a point. -/
def readFlagged {α : Type} (flags flag : UInt8) (field : R α) : R (Option α) :=
  if flags &&& flag ≠ 0 then do
    let a ← field
    pure (some a)
  else pure none

/-- `read_point`; also returns the position read. -/
def readPoint (prev : Option (Int × Int)) : R (LatLng × Option (Int × Int)) := do
  let flags ← R.u8
  let pos ← readPosition prev
  -- Checked before the optional fields are read.
  checkCoord pos.1 pos.2
  let alt ← readFlagged flags pfAlt R.i32
  let acc ← readFlagged flags pfAcc R.u16
  let time ← readFlagged flags pfTime R.i64
  pure
    ({ latitude := microToDeg pos.1
       longitude := microToDeg pos.2
       altitude := alt.map fun (mm : Int) => (mm : ℚ) / 1000
       accuracy := acc.map fun (cm : Nat) => (cm : ℚ) / 100
       timestampMs := time }, some pos)

/-- A point of a route: its position alone. -/
def putRoutePoint (p : LatLng) : Bytes :=
  putI32 (degToMicro p.latitude) ++ putI32 (degToMicro p.longitude)

def writeRouteAbs (route : List LatLng) : Bytes :=
  putU16 (min route.length 65535) ++ (route.take 65535).flatMap putRoutePoint

def readRoutePoint (_ : Unit) : R (LatLng × Unit) := do
  let lat ← R.i32
  let lon ← R.i32
  checkCoord lat lon
  pure ({ latitude := microToDeg lat, longitude := microToDeg lon }, ())

def readRouteAbs : R (List LatLng) := do
  let n ← R.u16
  Reader.many readRoutePoint n ()

/-! ## Loc frames -/

def cLoc : UInt8 := 0x04

/-- The loop of `encode_loc_frame`. -/
def writePoints : Option (Int × Int) → List LatLng → Except Fault Bytes
  | _, [] => .ok []
  | prev, p :: ps =>
    match writePoint p prev with
    | .error _ => .error (.expect "chunk already checked")
    | .ok (w, pos) =>
      match writePoints (some pos) ps with
      | .error e => .error e
      | .ok rest => .ok (w ++ rest)

def encodeLocFrame (seq : Nat) (points : List LatLng) : Except Fault Bytes :=
  match writePoints none points with
  | .error e => .error e
  | .ok body => .ok (putU8 cLoc ++ (putU32 (truncU32 seq) ++
      (putU8 (UInt8.ofNat points.length) ++ body)))

/-- `u64` addition. -/
def addU64 (a b : Nat) : Except Fault Nat :=
  if a + b < 2 ^ 64 then .ok (a + b) else .error .overflow

/-- `u64` subtraction. -/
def subU64 (a b : Nat) : Except Fault Nat := if b ≤ a then .ok (a - b) else .error .overflow

/-- Number and encode the chunks; `i` counts the points before them. -/
def encodeChunks (firstSeq : Nat) : Nat → List (List LatLng) → Except Fault (List Bytes)
  | _, [] => .ok []
  | i, chunk :: chunks => do
    -- The number of the last point of the chunk: one less than what follows it.
    let next ← addU64 firstSeq (i + chunk.length)
    let seq ← subU64 next 1
    let frame ← encodeLocFrame seq chunk
    let frames ← encodeChunks firstSeq (i + chunk.length) chunks
    return frame :: frames

/-- `encode_loc_frames`; `lastSeq` is the number of the last point. -/
def encodeLocFrames (lastSeq : Nat) (points : List LatLng) : Except Fault (List Bytes) :=
  if points = [] then .ok []
  else do
    -- Unsigned sums: more points than numbers would underflow.
    let next ← addU64 lastSeq 1
    let firstSeq ← subU64 next points.length
    encodeChunks firstSeq 0 (locChunks points)

end Tracking

end Pickpoint
