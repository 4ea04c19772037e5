import Mathlib.Algebra.Order.Ring.Int

/-!
# Byte Readers

Decoders for binary formats.

A `Reader` takes bytes off the front of its input or fails; readers compose as a
monad. Integers are little-endian, of any width; signed ones are in two's
complement. Errors are arbitrary: a reader is told which one to raise when bytes
are missing.

## Main definitions

* `Reader`: A decoder.
* `Reader.take`, `Reader.byte`, `Reader.uint`, `Reader.int`: Fixed-width fields.
* `Reader.many`: A counted sequence whose items depend on those before.
* `uintBytes`, `intBytes`: The encoders of integers.

## Theorems

* `ofUintBytes_uintBytes`, `ofUint_mod`: Integers and their bytes.
-/

namespace ByteCodec

/-- A decoder: a value and the bytes it leaves, or an error. -/
def Reader (ε α : Type) : Type := List UInt8 → Except ε (α × List UInt8)

/-- A block of `n` bytes. -/
abbrev Block (n : Nat) : Type := { bs : List UInt8 // bs.length = n }

namespace Reader

variable {ε α β σ : Type}

def pure (a : α) : Reader ε α := fun bs => .ok (a, bs)

def bind (r : Reader ε α) (f : α → Reader ε β) : Reader ε β := fun bs =>
  match r bs with
  | .error e => .error e
  | .ok (a, rest) => f a rest

instance : Monad (Reader ε) where
  pure := Reader.pure
  bind := Reader.bind

/-- Give up. -/
def fail (e : ε) : Reader ε α := fun _ => .error e

/-- The value read off some bytes; what it leaves is ignored. -/
def run (r : Reader ε α) (bs : List UInt8) : Except ε α := (r bs).map Prod.fst

/-- The next byte. -/
def byte (e : ε) : Reader ε UInt8
  | [] => .error e
  | b :: bs => .ok (b, bs)

/-- The next `n` bytes. -/
def take (e : ε) (n : Nat) : Reader ε (Block n) := fun bs =>
  if h : n ≤ bs.length then .ok (⟨bs.take n, List.length_take_of_le h⟩, bs.drop n)
  else .error e

/-- `n` items, each read in the state that the one before left. -/
def many (item : σ → Reader ε (α × σ)) : Nat → σ → Reader ε (List α)
  | 0, _ => Pure.pure []
  | n + 1, s => do
    let r ← item s
    let rest ← many item n r.2
    Pure.pure (r.1 :: rest)

end Reader

/-! ## Integers -/

/-- The `n` low bytes of a number, lowest first. -/
def uintBytes : Nat → Nat → List UInt8
  | 0, _ => []
  | n + 1, x => UInt8.ofNat (x % 256) :: uintBytes n (x / 256)

/-- The number with these bytes. -/
def ofUintBytes : List UInt8 → Nat
  | [] => 0
  | b :: bs => b.toNat + 256 * ofUintBytes bs

/-- The `n` bytes of an integer in two's complement. -/
def intBytes (n : Nat) (x : Int) : List UInt8 := uintBytes n (x % 256 ^ n).toNat

/-- The integer whose two's complement of `n` bytes is `x`. -/
def ofUint (n x : Nat) : Int := if 2 * x < 256 ^ n then x else x - 256 ^ n

theorem uintBytes_length (n x : Nat) : (uintBytes n x).length = n := by
  induction n generalizing x with
  | zero => rfl
  | succ n ih => rw [uintBytes, List.length_cons, ih]

theorem ofUintBytes_uintBytes (n x : Nat) : ofUintBytes (uintBytes n x) = x % 256 ^ n := by
  induction n generalizing x with
  | zero => rw [uintBytes, ofUintBytes, Nat.pow_zero, Nat.mod_one]
  | succ n ih =>
      have hlow : (UInt8.ofNat (x % 256)).toNat = x % 256 := by
        rw [UInt8.toNat_ofNat']
        omega
      rw [uintBytes, ofUintBytes, ih, hlow, Nat.pow_succ, Nat.mul_comm (256 ^ n), Nat.mod_mul]

theorem ofUint_mod (n : Nat) (x : Int) (hlo : -256 ^ n ≤ 2 * x) (hhi : 2 * x < 256 ^ n) :
    ofUint n (x % 256 ^ n).toNat = x := by
  have hpos : (0 : Int) < 256 ^ n := Int.pow_pos (by omega)
  have hcast : ((256 ^ n : Nat) : Int) = 256 ^ n := Int.natCast_pow 256 n
  unfold ofUint
  by_cases hneg : x < 0
  · have hmod : x % 256 ^ n = x + 256 ^ n := by
      rw [← Int.add_emod_right, Int.emod_eq_of_lt (by omega) (by omega)]
    rw [hmod, if_neg (by omega)]
    omega
  · have hmod : x % 256 ^ n = x := Int.emod_eq_of_lt (by omega) (by omega)
    rw [hmod, if_pos (by omega)]
    omega

namespace Reader

variable {ε : Type}

/-- An unsigned integer of `n` bytes. -/
def uint (e : ε) (n : Nat) : Reader ε Nat := do
  let bs ← take e n
  Pure.pure (ofUintBytes bs.val)

/-- A signed integer of `n` bytes. -/
def int (e : ε) (n : Nat) : Reader ε Int := do
  let x ← uint e n
  Pure.pure (ofUint n x)

end Reader

end ByteCodec
