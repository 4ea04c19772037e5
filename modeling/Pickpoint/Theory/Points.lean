import Pickpoint.Theory.Fields
import Mathlib.Algebra.Order.Round

/-!
# Points on the Wire

The wire carries coordinates in microdegrees, altitudes in millimetres and
accuracies in centimetres, so a point that is written comes back moved to the
nearest one the wire can say (`quantise`), and without what the wire leaves out.
A point that is already on the grid comes back as it was (`quantise_onGrid`). An
altitude or accuracy too large for its field saturates (`written`).

A point is written absolutely or as a difference to the one before. Reading
knows the position of the one before as well, since positions, not differences,
are what it keeps, and so the two agree on every later point (`consumes_points`).

## Main definitions

* `snap`: The nearest point of a grid.
* `quantise`, `written`: A point as the wire carries it.
* `LatLng.OnEarth`, `LatLng.InRange`: Points that can be written, and those of
  which all can be said.
* `LatLng.OnGrid`, `LatLng.OnRoute`: Points that come back unchanged.
* `Follows`: A point fits after a position.
* `pointBytes`: The bytes of a point.

## Theorems

* `roundHalfAway_mono`, `roundHalfAway_error`, `snap_error`: Rounding.
* `writePoint_eq`, `consumes_point`: A point reads back as written.
* `written_inRange`: Which is quantised.
* `writePoints_eq`, `consumes_points`: So does a sequence of points.
* `consumes_route`: And a route.
-/

namespace Pickpoint

namespace Tracking

open ByteCodec

/-! ## Rounding -/

theorem roundHalfAway_intCast (m : Int) : roundHalfAway (m : ℚ) = m := by
  unfold roundHalfAway
  split
  · rw [Int.floor_eq_iff]
    constructor <;> linarith
  · rw [Int.ceil_eq_iff]
    constructor <;> linarith

theorem roundHalfAway_mono (x y : ℚ) (h : x ≤ y) : roundHalfAway x ≤ roundHalfAway y := by
  unfold roundHalfAway
  by_cases hx : 0 ≤ x
  · rw [if_pos hx, if_pos (hx.trans h)]
    exact Int.floor_le_floor (by linarith)
  · rw [if_neg hx]
    by_cases hy : 0 ≤ y
    · -- Zero lies between the two.
      rw [if_pos hy]
      have hlow : ⌈x - 1 / 2⌉ ≤ 0 := Int.ceil_le.mpr (by push_cast; linarith)
      have hhigh : 0 ≤ ⌊y + 1 / 2⌋ := Int.floor_nonneg.mpr (by linarith)
      exact hlow.trans hhigh
    · rw [if_neg hy]
      exact Int.ceil_le_ceil (by linarith)

/-- Rounding moves a number by a half at most. -/
theorem roundHalfAway_error (x : ℚ) : |(roundHalfAway x : ℚ) - x| ≤ 1 / 2 := by
  unfold roundHalfAway
  split
  · have hlow := Int.floor_le (x + 1 / 2)
    have hhigh := Int.lt_floor_add_one (x + 1 / 2)
    rw [abs_le]
    constructor <;> linarith
  · have hlow := Int.le_ceil (x - 1 / 2)
    have hhigh := Int.ceil_lt_add_one (x - 1 / 2)
    rw [abs_le]
    constructor <;> linarith

/-- Rounding does not leave an interval with integer ends. -/
theorem roundHalfAway_abs_le (x : ℚ) (n : Int) (h : |x| ≤ n) :
    -n ≤ roundHalfAway x ∧ roundHalfAway x ≤ n := by
  rcases abs_le.mp h with ⟨hlo, hhi⟩
  constructor
  · have hmono := roundHalfAway_mono ((-n : Int) : ℚ) x (by push_cast; exact hlo)
    rwa [roundHalfAway_intCast] at hmono
  · have hmono := roundHalfAway_mono x (n : ℚ) hhi
    rwa [roundHalfAway_intCast] at hmono

/-! ## Grids -/

/-- The nearest multiple of `1 / n`. -/
def snap (n x : ℚ) : ℚ := roundHalfAway (x * n) / n

/-- A point of a grid snaps to itself. -/
theorem snap_grid (n : ℚ) (hn : n ≠ 0) (m : Int) : snap n (m / n) = m / n := by
  rw [snap, div_mul_cancel₀ _ hn, roundHalfAway_intCast]

/-- Snapping moves a number by half the width of the grid at most. -/
theorem snap_error (n : ℚ) (hn : 0 < n) (x : ℚ) : |snap n x - x| ≤ 1 / (2 * n) := by
  have hstep : snap n x - x = (roundHalfAway (x * n) - x * n) / n := by
    rw [snap]
    field_simp
  rw [hstep, abs_div, abs_of_pos hn, div_le_div_iff₀ hn (by linarith)]
  have herror := roundHalfAway_error (x * n)
  nlinarith

/-- A point as the wire carries it. -/
def quantise (p : LatLng) : LatLng where
  latitude := snap 1000000 p.latitude
  longitude := snap 1000000 p.longitude
  altitude := p.altitude.map (snap 1000)
  accuracy := p.accuracy.map (snap 100)
  timestampMs := p.timestampMs

/-- A point as it comes back: what does not fit its field saturates. -/
def written (p : LatLng) : LatLng where
  latitude := snap 1000000 p.latitude
  longitude := snap 1000000 p.longitude
  altitude := p.altitude.map fun a => (altitudeMm a : ℚ) / 1000
  accuracy := p.accuracy.map fun a => (accuracyCm a : ℚ) / 100
  timestampMs := p.timestampMs

/-- A point with a position on Earth and a time in range. -/
structure LatLng.OnEarth (p : LatLng) : Prop where
  latitude : |p.latitude| ≤ 90
  longitude : |p.longitude| ≤ 180
  timestampMs : ∀ t ∈ p.timestampMs, FitsI64 t

/-- A point the wire can carry: its position is one on Earth, and the other
    fields fit once rounded. -/
structure LatLng.InRange (p : LatLng) : Prop where
  latitude : |p.latitude| ≤ 90
  longitude : |p.longitude| ≤ 180
  altitude : ∀ a ∈ p.altitude, -2 ^ 31 ≤ roundHalfAway (a * 1000) ∧
    roundHalfAway (a * 1000) < 2 ^ 31
  accuracy : ∀ a ∈ p.accuracy, 0 ≤ roundHalfAway (a * 100) ∧ roundHalfAway (a * 100) ≤ 65535
  timestampMs : ∀ t ∈ p.timestampMs, FitsI64 t

/-- A point the wire carries unchanged. -/
structure LatLng.OnGrid (p : LatLng) : Prop where
  latitude : |p.latitude| ≤ 90 ∧ ∃ m : Int, p.latitude = m / 1000000
  longitude : |p.longitude| ≤ 180 ∧ ∃ m : Int, p.longitude = m / 1000000
  altitude : ∀ a ∈ p.altitude, ∃ m : Int, -2 ^ 31 ≤ m ∧ m < 2 ^ 31 ∧ a = m / 1000
  accuracy : ∀ a ∈ p.accuracy, ∃ m : Int, 0 ≤ m ∧ m ≤ 65535 ∧ a = m / 100
  heading : p.heading = none
  speed : p.speed = none
  timestampMs : ∀ t ∈ p.timestampMs, FitsI64 t

/-- A point with only a latitude and a longitude. -/
structure LatLng.OnRoute (p : LatLng) : Prop where
  onGrid : p.OnGrid
  bare : p = { latitude := p.latitude, longitude := p.longitude }

theorem onGrid_inRange (p : LatLng) (h : p.OnGrid) : p.InRange where
  latitude := h.latitude.1
  longitude := h.longitude.1
  altitude a ha := by
    rcases h.altitude a ha with ⟨m, hlo, hhi, rfl⟩
    rw [div_mul_cancel₀ _ (by norm_num), roundHalfAway_intCast]
    exact ⟨hlo, hhi⟩
  accuracy a ha := by
    rcases h.accuracy a ha with ⟨m, hlo, hhi, rfl⟩
    rw [div_mul_cancel₀ _ (by norm_num), roundHalfAway_intCast]
    exact ⟨hlo, hhi⟩
  timestampMs := h.timestampMs

theorem inRange_onEarth (p : LatLng) (h : p.InRange) : p.OnEarth :=
  ⟨h.latitude, h.longitude, h.timestampMs⟩

/-- An altitude that fits is written as it rounds. -/
theorem altitudeMm_eq (a : ℚ) (hlo : -2 ^ 31 ≤ roundHalfAway (a * 1000))
    (hhi : roundHalfAway (a * 1000) < 2 ^ 31) : altitudeMm a = roundHalfAway (a * 1000) := by
  unfold altitudeMm castI32
  omega

/-- An accuracy that fits is written as it rounds. -/
theorem accuracyCm_eq (a : ℚ) (hlo : 0 ≤ roundHalfAway (a * 100))
    (hhi : roundHalfAway (a * 100) ≤ 65535) : (accuracyCm a : Int) = roundHalfAway (a * 100) := by
  unfold accuracyCm
  omega

/-- A point in range comes back quantised. -/
theorem written_inRange (p : LatLng) (h : p.InRange) : written p = quantise p := by
  have hmm : p.altitude.map (fun a => (altitudeMm a : ℚ) / 1000) = p.altitude.map (snap 1000) := by
    refine Option.map_congr fun a ha => ?_
    rcases h.altitude a ha with ⟨hlo, hhi⟩
    rw [snap, altitudeMm_eq a hlo hhi]
  have hcm : p.accuracy.map (fun a => (accuracyCm a : ℚ) / 100) = p.accuracy.map (snap 100) := by
    refine Option.map_congr fun a ha => ?_
    rcases h.accuracy a ha with ⟨hlo, hhi⟩
    rw [snap, ← accuracyCm_eq a hlo hhi, Int.cast_natCast]
  rw [written, hmm, hcm, quantise]

theorem map_eq_self {α : Type} (o : Option α) (f : α → α) (h : ∀ a ∈ o, f a = a) :
    o.map f = o := by
  cases o with
  | none => rfl
  | some a => exact congrArg some (h a rfl)

/-- A point on the grid is carried unchanged. -/
theorem quantise_onGrid (p : LatLng) (h : p.OnGrid) : quantise p = p := by
  rcases h.latitude with ⟨_, mlat, hlat⟩
  rcases h.longitude with ⟨_, mlon, hlon⟩
  have halt : p.altitude.map (snap 1000) = p.altitude := by
    refine map_eq_self _ _ fun a ha => ?_
    rcases h.altitude a ha with ⟨m, _, _, rfl⟩
    exact snap_grid 1000 (by norm_num) m
  have hacc : p.accuracy.map (snap 100) = p.accuracy := by
    refine map_eq_self _ _ fun a ha => ?_
    rcases h.accuracy a ha with ⟨m, _, _, rfl⟩
    exact snap_grid 100 (by norm_num) m
  have hlat' : snap 1000000 p.latitude = p.latitude := by
    rw [hlat]
    exact snap_grid 1000000 (by norm_num) mlat
  have hlon' : snap 1000000 p.longitude = p.longitude := by
    rw [hlon]
    exact snap_grid 1000000 (by norm_num) mlon
  rcases p with ⟨lat, lon, alt, acc, heading, speed, time⟩
  cases h.heading
  cases h.speed
  simp only [quantise] at *
  rw [hlat', hlon', halt, hacc]

/-- The wire moves a coordinate by half a microdegree at most. -/
theorem quantise_near (p : LatLng) :
    |(quantise p).latitude - p.latitude| ≤ 1 / 2000000 ∧
      |(quantise p).longitude - p.longitude| ≤ 1 / 2000000 := by
  have hlat := snap_error 1000000 (by norm_num) p.latitude
  have hlon := snap_error 1000000 (by norm_num) p.longitude
  norm_num at hlat hlon
  norm_num
  exact ⟨hlat, hlon⟩

/-! ## Positions -/

/-- The position of a point in microdegrees. -/
def position (p : LatLng) : Int × Int := (degToMicro p.latitude, degToMicro p.longitude)

/-- A point fits after a position; the first point fits anywhere. -/
def Follows (prev : Option (Int × Int)) (p : LatLng) : Prop :=
  ∀ q ∈ prev, microDeltaFits q.1 q.2 (position p).1 (position p).2 = true

/-- Within `n` degrees, a scaled coordinate does not saturate. -/
theorem degToMicro_eq (d : ℚ) (n : Nat) (hn : n ≤ 180) (h : |d| ≤ n) :
    degToMicro d = roundHalfAway (d * 1000000) ∧
      -((n : Int) * 1000000) ≤ degToMicro d ∧ degToMicro d ≤ (n : Int) * 1000000 := by
  have hscaled : |d * 1000000| ≤ (((n : Int) * 1000000 : Int) : ℚ) := by
    rw [abs_mul, abs_of_pos (by norm_num : (0 : ℚ) < 1000000)]
    push_cast
    linarith
  have hround := roundHalfAway_abs_le (d * 1000000) _ hscaled
  have heq : degToMicro d = roundHalfAway (d * 1000000) := by
    unfold degToMicro
    omega
  rw [heq]
  exact ⟨rfl, hround⟩

theorem position_bounds (p : LatLng) (h : p.OnEarth) :
    (-90000000 ≤ (position p).1 ∧ (position p).1 ≤ 90000000) ∧
      (-180000000 ≤ (position p).2 ∧ (position p).2 ≤ 180000000) := by
  rcases degToMicro_eq p.latitude 90 (by decide) h.latitude with ⟨_, hlat⟩
  rcases degToMicro_eq p.longitude 180 (by decide) h.longitude with ⟨_, hlon⟩
  simp only [position]
  omega

/-- In degrees again, a position is that of the quantised point. -/
theorem position_toDeg (p : LatLng) (hlat : |p.latitude| ≤ 90) (hlon : |p.longitude| ≤ 180) :
    microToDeg (position p).1 = snap 1000000 p.latitude ∧
      microToDeg (position p).2 = snap 1000000 p.longitude := by
  simp only [position, microToDeg, snap]
  rw [(degToMicro_eq p.latitude 90 (by decide) hlat).1,
    (degToMicro_eq p.longitude 180 (by decide) hlon).1]
  exact ⟨rfl, rfl⟩

theorem consumes_checkCoord (lat lon : Int) (hlat : -90000000 ≤ lat ∧ lat ≤ 90000000)
    (hlon : -180000000 ≤ lon ∧ lon ≤ 180000000) : Decodes (checkCoord lat lon) [] () := by
  rw [checkCoord, if_neg (by rw [not_or, not_not, not_not]; exact ⟨hlat, hlon⟩)]
  exact consumes_pure ()

/-! ## One point -/

/-- The bytes of a position after another. -/
def positionBytes : Option (Int × Int) → Int × Int → Bytes
  | none, pos => putI32 pos.1 ++ putI32 pos.2
  | some prev, pos => putI16 (pos.1 - prev.1) ++ putI16 (pos.2 - prev.2)

/-- The bytes of a point after a position. -/
def pointBytes (prev : Option (Int × Int)) (p : LatLng) : Bytes :=
  putU8 (pointFlags p) ++ (positionBytes prev (position p) ++ putPointTail p)

theorem writePoint_eq (prev : Option (Int × Int)) (p : LatLng) (h : Follows prev p) :
    writePoint p prev = .ok (pointBytes prev p, position p) := by
  cases prev with
  | none =>
      simp only [writePoint, pointBytes, positionBytes, position, List.append_assoc]
  | some prev =>
      have hfits : microDeltaFits prev.1 prev.2 (degToMicro p.latitude) (degToMicro p.longitude) =
          true := h prev rfl
      simp only [writePoint, hfits, pointBytes, positionBytes, position, List.append_assoc,
        Bool.not_true, Bool.false_eq_true, if_false]

theorem writeAbs_eq (p : LatLng) : writeAbs p = .ok (pointBytes none p) := by
  have h : Follows none p := by
    rintro q ⟨⟩
  rw [writeAbs, writePoint_eq none p h]

theorem consumes_position (prev : Option (Int × Int)) (p : LatLng) (hearth : p.OnEarth)
    (h : Follows prev p) :
    Decodes (readPosition prev) (positionBytes prev (position p)) (position p) := by
  rcases position_bounds p hearth with ⟨⟨hlat, hlat'⟩, hlon, hlon'⟩
  cases prev with
  | none =>
      refine consumes_bind _ _ _ _ _ _ (consumes_i32 (position p).1 (by omega) (by omega)) ?_
      refine consumes_last _ _ _ _ _ (consumes_i32 (position p).2 (by omega) (by omega)) ?_
      exact consumes_pure _
  | some prev =>
      have hfits := h prev rfl
      simp only [microDeltaFits, decide_eq_true_eq] at hfits
      rcases hfits with ⟨hdlat, hdlat', hdlon, hdlon'⟩
      refine consumes_bind _ _ _ _ _ _ (consumes_i16 ((position p).1 - prev.1) hdlat (by omega)) ?_
      refine consumes_last _ _ _ _ _ (consumes_i16 ((position p).2 - prev.2) hdlon (by omega)) ?_
      -- The sums are the positions, which do not saturate.
      have hsum1 : castI32 (prev.1 + ((position p).1 - prev.1)) = (position p).1 := by
        unfold castI32
        omega
      have hsum2 : castI32 (prev.2 + ((position p).2 - prev.2)) = (position p).2 := by
        unfold castI32
        omega
      rw [hsum1, hsum2]
      exact consumes_pure _

/-- A flag of a point tells whether its field is there. -/
theorem pointFlags_spec (p : LatLng) :
    (pointFlags p &&& pfAlt ≠ 0 ↔ p.altitude.isSome) ∧
      (pointFlags p &&& pfAcc ≠ 0 ↔ p.accuracy.isSome) ∧
      (pointFlags p &&& pfTime ≠ 0 ↔ p.timestampMs.isSome) := by
  unfold pointFlags
  generalize p.altitude.isSome = alt
  generalize p.accuracy.isSome = acc
  generalize p.timestampMs.isSome = time
  revert alt acc time
  decide

theorem putPointTail_eq (p : LatLng) :
    putPointTail p = p.altitude.elim [] (fun a => putI32 (altitudeMm a)) ++
      (p.accuracy.elim [] (fun a => putU16 (accuracyCm a)) ++ p.timestampMs.elim [] putI64) := by
  unfold putPointTail
  cases p.altitude <;> cases p.accuracy <;> cases p.timestampMs <;> rfl

/-- A point reads back as written, whatever it was written after. -/
theorem consumes_point (prev : Option (Int × Int)) (p : LatLng) (hearth : p.OnEarth)
    (h : Follows prev p) :
    Decodes (readPoint prev) (pointBytes prev p) (written p, some (position p)) := by
  rcases pointFlags_spec p with ⟨halt, hacc, htime⟩
  rcases position_bounds p hearth with ⟨hlat, hlon⟩
  rw [pointBytes, putPointTail_eq]
  refine consumes_bind _ _ _ _ _ _ (consumes_u8 (pointFlags p)) ?_
  refine consumes_bind _ _ _ _ _ _ (consumes_position prev p hearth h) ?_
  refine consumes_bind _ _ [] _ _ _ (consumes_checkCoord _ _ hlat hlon) ?_
  refine consumes_bind _ _ _ _ _ _
    (consumes_flagged _ pfAlt R.i32 p.altitude _ altitudeMm halt ?_) ?_
  · intro a _
    have hbounds : -2 ^ 31 ≤ altitudeMm a ∧ altitudeMm a < 2 ^ 31 := by
      unfold altitudeMm castI32
      omega
    exact consumes_i32 _ hbounds.1 hbounds.2
  refine consumes_bind _ _ _ _ _ _
    (consumes_flagged _ pfAcc R.u16 p.accuracy _ accuracyCm hacc ?_) ?_
  · intro a _
    have hbound : accuracyCm a < 2 ^ 16 := by
      unfold accuracyCm
      omega
    exact consumes_u16 _ hbound
  refine consumes_last _ _ _ _ _
    (consumes_flagged _ pfTime R.i64 p.timestampMs putI64 id htime ?_) ?_
  · exact fun t ht => consumes_i64 t (hearth.timestampMs t ht)
  -- What was read, field by field, is the point as written.
  have hpoint : ({ latitude := microToDeg (position p).1
                   longitude := microToDeg (position p).2
                   altitude := (p.altitude.map altitudeMm).map fun (mm : Int) => (mm : ℚ) / 1000
                   accuracy := (p.accuracy.map accuracyCm).map fun (cm : Nat) => (cm : ℚ) / 100
                   timestampMs := p.timestampMs.map id } : LatLng) = written p := by
    rcases position_toDeg p hearth.latitude hearth.longitude with ⟨hlat, hlon⟩
    rw [hlat, hlon, Option.map_map, Option.map_map, Option.map_id]
    rfl
  rw [← hpoint]
  exact consumes_pure _

/-! ## Sequences -/

/-- Each point fits after the one before. -/
def FollowEach (prev : Option (Int × Int)) (ps : List LatLng) : Prop :=
  EachOk (fun s p => p.InRange ∧ Follows s p) (fun p => some (position p)) prev ps

/-- The same for points that are only known to be on Earth. -/
def Strung (prev : Option (Int × Int)) (ps : List LatLng) : Prop :=
  EachOk (fun s p => p.OnEarth ∧ Follows s p) (fun p => some (position p)) prev ps

theorem followEach_strung (prev : Option (Int × Int)) (ps : List LatLng)
    (h : FollowEach prev ps) : Strung prev ps ∧ ps.map written = ps.map quantise := by
  induction ps generalizing prev with
  | nil => exact ⟨trivial, rfl⟩
  | cons p ps ih =>
      rcases h with ⟨⟨hrange, hfollows⟩, hrest⟩
      rcases ih (some (position p)) hrest with ⟨hstrung, hmap⟩
      refine ⟨⟨⟨inRange_onEarth p hrange, hfollows⟩, hstrung⟩, ?_⟩
      rw [List.map_cons, List.map_cons, written_inRange p hrange, hmap]

/-- The bytes of a sequence of points. -/
def pointsBytes (prev : Option (Int × Int)) (ps : List LatLng) : Bytes :=
  writeEach pointBytes (fun p => some (position p)) prev ps

theorem writePoints_eq {P : LatLng → Prop} (prev : Option (Int × Int)) (ps : List LatLng)
    (h : EachOk (fun s p => P p ∧ Follows s p) (fun p => some (position p)) prev ps) :
    writePoints prev ps = .ok (pointsBytes prev ps) := by
  induction ps generalizing prev with
  | nil => rfl
  | cons p ps ih =>
      rw [writePoints, writePoint_eq prev p h.1.2]
      dsimp only
      rw [ih (some (position p)) h.2]
      rfl

theorem consumes_points (prev : Option (Int × Int)) (ps : List LatLng) (h : Strung prev ps) :
    Decodes (Reader.many readPoint ps.length prev) (pointsBytes prev ps) (ps.map written) :=
  consumes_many readPoint pointBytes _ written _ (fun s p hp => consumes_point s p hp.1 hp.2) ps
    prev h

/-- An optional point written absolutely. -/
theorem writeOptAbs_eq (o : Option LatLng) :
    writeOptAbs o = .ok (o.elim [] (pointBytes none)) := by
  cases o with
  | none => rfl
  | some p => exact writeAbs_eq p

theorem consumes_optAbs (flags : UInt8) (o : Option LatLng) (hflag : flags &&& 1 ≠ 0 ↔ o.isSome)
    (h : ∀ p ∈ o, p.OnEarth) :
    Decodes (readOptAbs flags) (o.elim [] (pointBytes none)) (o.map written) := by
  cases o with
  | none =>
      have hoff : ¬ (flags &&& 1 ≠ 0) := fun h => Bool.false_ne_true (hflag.mp h)
      rw [readOptAbs, if_neg hoff]
      exact consumes_pure none
  | some p =>
      rw [readOptAbs, if_pos (hflag.mpr rfl)]
      refine consumes_last _ _ _ _ _ (consumes_point none p (h p rfl) ?_) ?_
      · rintro q ⟨⟩
      · exact consumes_pure _

/-! ## Routes -/

/-- A point of a route as it comes back: its position alone. -/
def writtenBare (p : LatLng) : LatLng where
  latitude := snap 1000000 p.latitude
  longitude := snap 1000000 p.longitude

theorem writtenBare_onRoute (p : LatLng) (h : p.OnRoute) : writtenBare p = p := by
  have hq := quantise_onGrid p h.onGrid
  have hlat : snap 1000000 p.latitude = p.latitude := congrArg LatLng.latitude hq
  have hlon : snap 1000000 p.longitude = p.longitude := congrArg LatLng.longitude hq
  rw [writtenBare, hlat, hlon]
  exact h.bare.symm

theorem consumes_routePoint (p : LatLng) (h : p.OnEarth) :
    Decodes (readRoutePoint ()) (putRoutePoint p) (writtenBare p, ()) := by
  rcases position_bounds p h with ⟨hlat, hlon⟩
  refine consumes_bind _ _ _ _ _ _ (consumes_i32 (position p).1 (by omega) (by omega)) ?_
  refine consumes_last _ _ _ _ _ (consumes_i32 (position p).2 (by omega) (by omega)) ?_
  refine consumes_bind _ _ [] [] _ _ (consumes_checkCoord _ _ hlat hlon) ?_
  have hpoint : ({ latitude := microToDeg (position p).1
                   longitude := microToDeg (position p).2 } : LatLng) = writtenBare p := by
    rcases position_toDeg p h.latitude h.longitude with ⟨hlat, hlon⟩
    rw [hlat, hlon, writtenBare]
  rw [hpoint]
  exact consumes_pure _

/-- As much of a route as its length can count reads back. -/
theorem consumes_route (route : List LatLng) (h : ∀ p ∈ route, p.OnEarth) :
    Decodes readRouteAbs (writeRouteAbs route) ((route.take 65535).map writtenBare) := by
  have hlen : min route.length 65535 = (route.take 65535).length := by
    rw [List.length_take, Nat.min_comm]
  have hmax : (route.take 65535).length ≤ 65535 := List.length_take_le _ _
  have hmem : ∀ p ∈ route.take 65535, p.OnEarth := fun p hp => h p (List.mem_of_mem_take hp)
  -- The length field says how many points follow, and the rest is left out.
  rw [writeRouteAbs, hlen]
  generalize route.take 65535 = cut at hmax hmem
  refine consumes_bind _ _ _ _ _ _ (consumes_u16 cut.length (by omega)) ?_
  have hbytes : cut.flatMap putRoutePoint =
      writeEach (fun (_ : Unit) => putRoutePoint) (fun _ => ()) () cut := by
    clear hlen hmax hmem
    induction cut with
    | nil => rfl
    | cons p cut ih => rw [List.flatMap_cons, ih, writeEach]
  have hok : EachOk (fun (_ : Unit) (p : LatLng) => p.OnEarth) (fun _ => ()) () cut := by
    clear hlen hmax hbytes
    induction cut with
    | nil => trivial
    | cons p cut ih =>
        exact ⟨hmem p List.mem_cons_self, ih fun q hq => hmem q (List.mem_cons_of_mem p hq)⟩
  rw [hbytes]
  exact consumes_many readRoutePoint (fun _ => putRoutePoint) (fun _ => ()) writtenBare _
    (fun _ p hp => consumes_routePoint p hp) cut () hok

/-- A route that is not too long and has nothing but positions comes back. -/
theorem writtenRoute_onRoute (route : List LatLng) (hlen : route.length ≤ 65535)
    (h : ∀ p ∈ route, p.OnRoute) : (route.take 65535).map writtenBare = route := by
  rw [List.take_of_length_le hlen, List.map_congr_left fun p hp => writtenBare_onRoute p (h p hp),
    List.map_id']

end Tracking

end Pickpoint
