import Pickpoint.ByteCodec.Rules
import Pickpoint.Core.Messages

/-!
# Fields

Every field the codec writes reads back, and no part of one does. The integers
are those of the byte library at the widths of the protocol. Byte fields that
are too long come back cut; a text does where the cut falls between two
characters. A text that is a UUID comes back when it is written the way the
crate prints it, any other one as the UUID it is taken for.

A UUID that may be missing is written as sixteen zeros, so the nil UUID is the
one that does not come back.

## Main definitions

* `Decodes`: A reader of frames reads exactly these bytes.
* `CutsCleanly`, `writtenStr`: Texts that are too long, and what is left of them.
* `writtenUid`, `writtenUidOpt`: What reads back of any text as a UUID.
* `CanonicalUuid`: A text that is a UUID as the crate prints it.
* `PresentUuid`: The same, and not the nil UUID.
* `FitsI64`: An `i64`.
* `canonicalLib`: The two functions of the crate on this form alone.

## Theorems

* `consumes_u8` to `consumes_str`: Fields read back.
* `consumes_flagged`: So does an optional field whose flag tells that it is there.
* `canonicalLib_documented`: The crate's promise can be kept.
-/

namespace Pickpoint

namespace Tracking

open ByteCodec

/-- The reader reads `a` off exactly these bytes; fewer are a truncated frame. -/
abbrev Decodes {α : Type} (r : R α) (bs : Bytes) (a : α) : Prop :=
  Consumes DecodeError.truncated r bs a

/-! ## Integers -/

/-- An `i64`. -/
def FitsI64 (t : Int) : Prop := -2 ^ 63 ≤ t ∧ t < 2 ^ 63

theorem consumes_u8 (v : UInt8) : Decodes R.u8 (putU8 v) v := consumes_byte DecodeError.truncated v

theorem consumes_u16 (v : Nat) (h : v < 2 ^ 16) : Decodes R.u16 (putU16 v) v :=
  consumes_uint DecodeError.truncated 2 v h

theorem consumes_u32 (v : Nat) (h : v < 2 ^ 32) : Decodes R.u32 (putU32 v) v :=
  consumes_uint DecodeError.truncated 4 v h

theorem consumes_i16 (v : Int) (hlo : -2 ^ 15 ≤ v) (hhi : v < 2 ^ 15) :
    Decodes R.i16 (putI16 v) v :=
  consumes_int DecodeError.truncated 2 v (by omega) (by omega)

theorem consumes_i32 (v : Int) (hlo : -2 ^ 31 ≤ v) (hhi : v < 2 ^ 31) :
    Decodes R.i32 (putI32 v) v :=
  consumes_int DecodeError.truncated 4 v (by omega) (by omega)

theorem consumes_i64 (v : Int) (h : FitsI64 v) : Decodes R.i64 (putI64 v) v := by
  rcases h with ⟨hlo, hhi⟩
  exact consumes_int DecodeError.truncated 8 v (by omega) (by omega)

/-- An `f64` reads back bit for bit. -/
theorem consumes_f64 (bits : UInt64) : Decodes R.f64 (putF64 bits) bits := by
  refine consumes_last _ _ _ _ _ (consumes_uint DecodeError.truncated 8 bits.toNat bits.toNat_lt) ?_
  rw [UInt64.ofNat_toNat]
  exact consumes_pure bits

/-- A sequence number reads back as far as its field is wide. -/
theorem consumes_seq (seq : Nat) : Decodes R.u32 (putU32 (truncU32 seq)) (truncU32 seq) :=
  consumes_u32 _ (Nat.mod_lt seq (by decide))

theorem boolU8_bit (b : Bool) : (boolU8 b &&& 1 != 0) = b := by
  cases b <;> decide

theorem boolU8_ne_zero (b : Bool) : (boolU8 b != 0) = b := by
  cases b <;> decide

/-- A time other than zero reads back from where zero stands for none. -/
theorem noneIfZero_getD (t : Option Int) (h : t ≠ some 0) : noneIfZero (t.getD 0) = t := by
  cases t with
  | none => exact if_pos rfl
  | some t => exact if_neg fun hzero => h (congrArg some hzero)

/-- An optional time fits its field. -/
theorem getD_fits (t : Option Int) (h : ∀ x ∈ t, FitsI64 x) : FitsI64 (t.getD 0) := by
  cases t with
  | none => exact ⟨by decide, by decide⟩
  | some t => exact h t rfl

theorem getD_u32 (n : Option Nat) (h : ∀ x ∈ n, x < 2 ^ 32) : n.getD 0 < 2 ^ 32 := by
  cases n with
  | none => decide
  | some n => exact h n rfl

/-! ## Bytes and texts -/

theorem putBytes_eq (b : Bytes) :
    putBytes b = putU16 (b.take maxString).length ++ b.take maxString := by
  rw [List.length_take, Nat.min_comm, putBytes, List.take_eq_take_min (i := maxString),
    Nat.min_comm maxString]

/-- The length of a field fits, and is not refused. -/
theorem take_maxString (b : Bytes) :
    (b.take maxString).length < 2 ^ 16 ∧ ¬ maxString < (b.take maxString).length := by
  have hle : (b.take maxString).length ≤ maxString := List.length_take_le _ _
  exact ⟨Nat.lt_of_le_of_lt hle (by decide), Nat.not_lt.mpr hle⟩

/-- Of bytes that are too long the first ones read back. -/
theorem consumes_bytes (b : Bytes) : Decodes R.bytes (putBytes b) (b.take maxString) := by
  rcases take_maxString b with ⟨hlt, hle⟩
  rw [putBytes_eq]
  refine consumes_bind _ _ _ _ _ _ (consumes_u16 _ hlt) ?_
  rw [if_neg hle]
  refine consumes_last _ _ _ _ _
    (consumes_take DecodeError.truncated _ ⟨b.take maxString, rfl⟩) ?_
  exact consumes_pure _

theorem take_short (b : Bytes) (h : b.length ≤ 4096) : b.take maxString = b :=
  List.take_of_length_le h

/-- A text that is too long is cut between two characters. The writer cuts at a
    byte, so where a character spans the limit the bytes it leaves are no text. -/
def CutsCleanly (s : String) : Prop :=
  (strBytes s).length ≤ maxString ∨ String.Pos.Raw.IsValid s ⟨maxString⟩

/-- What is written of the bytes of a text. -/
def cutBytes (s : String) : ByteArray := ⟨((strBytes s).take maxString).toArray⟩

/-- What reads back of a text. -/
def writtenStr (s : String) : String := (String.fromUTF8? (cutBytes s)).getD ""

theorem cutBytes_extract (s : String) : cutBytes s = s.toByteArray.extract 0 maxString := by
  rw [ByteArray.ext_iff, ByteArray.data_extract, cutBytes, strBytes, ← Array.toList_inj,
    Array.toList_extract, List.extract_eq_take_drop]
  rfl

/-- The bytes of a string are its UTF-8 encoding. -/
theorem cutBytes_short (s : String) (h : (strBytes s).length ≤ maxString) :
    cutBytes s = s.toByteArray := by
  rw [cutBytes, List.take_of_length_le h]
  rfl

/-- What is left of a text is one again just when the cut is clean. -/
theorem cutBytes_valid (s : String) : (cutBytes s).IsValidUTF8 ↔ CutsCleanly s := by
  have hsize : (strBytes s).length = s.rawEndPos.byteIdx := rfl
  unfold CutsCleanly
  by_cases hle : (strBytes s).length ≤ maxString
  · rw [cutBytes_short s hle]
    exact iff_of_true s.isValidUTF8 (Or.inl hle)
  · rw [cutBytes_extract, String.Pos.Raw.isValid_iff_isValidUTF8_extract_zero,
      String.Pos.Raw.le_iff, ← hsize]
    have hlong : maxString ≤ (strBytes s).length := by omega
    simp only [hle, false_or, hlong, true_and]

theorem fromUTF8_cutBytes (s : String) (h : CutsCleanly s) :
    String.fromUTF8? (cutBytes s) = some (writtenStr s) := by
  unfold writtenStr
  rw [String.fromUTF8?, dif_pos ((cutBytes_valid s).mpr h)]
  rfl

theorem writtenStr_short (s : String) (h : (strBytes s).length ≤ maxString) :
    writtenStr s = s := by
  unfold writtenStr
  rw [cutBytes_short s h, String.fromUTF8?, dif_pos s.isValidUTF8]
  rfl

/-- What reads back has the first bytes of the text. -/
theorem strBytes_written (s : String) (h : CutsCleanly s) :
    strBytes (writtenStr s) = (strBytes s).take maxString := by
  unfold writtenStr
  rw [String.fromUTF8?, dif_pos ((cutBytes_valid s).mpr h)]
  rfl

theorem consumes_str (s : String) (h : CutsCleanly s) :
    Decodes R.str (putStr s) (writtenStr s) := by
  rcases take_maxString (strBytes s) with ⟨hlt, hle⟩
  rw [putStr, putBytes_eq]
  refine consumes_bind _ _ _ _ _ _ (consumes_u16 _ hlt) ?_
  rw [if_neg hle]
  refine consumes_last _ _ _ _ _
    (consumes_take DecodeError.truncated _ ⟨(strBytes s).take maxString, rfl⟩) ?_
  have hback : String.fromUTF8? ⟨((strBytes s).take maxString).toArray⟩ = some (writtenStr s) :=
    fromUTF8_cutBytes s h
  dsimp only
  rw [hback]
  exact consumes_pure _

/-! ## UUIDs -/

/-- A UUID in lowercase hyphenated form. -/
def CanonicalUuid (s : String) : Prop := ∃ u : Uuid, u.hyphenated = s

/-- A UUID in lowercase hyphenated form that is not nil. -/
def PresentUuid (s : String) : Prop := ∃ u : Uuid, u ≠ Uuid.nil ∧ u.hyphenated = s

theorem hyphenated_ne_empty (u : Uuid) : u.hyphenated ≠ "" := by
  intro h
  have hlist := congrArg String.toList h
  rw [Uuid.hyphenated, String.toList_ofList] at hlist
  simp at hlist

theorem uidBytes_hyphenated (lib : UuidLib) (hlib : lib.Documented) (u : Uuid) :
    uidBytes lib u.hyphenated = u := by
  rw [uidBytes, if_neg (hyphenated_ne_empty u), hlib.parseStr]
  rfl

/-- What reads back of the text of a UUID. -/
def writtenUid (lib : UuidLib) (s : String) : String := lib.toString (uidBytes lib s)

/-- The same where the nil UUID stands for none. -/
def writtenUidOpt (lib : UuidLib) (s : String) : Option String :=
  if uidBytes lib s = Uuid.nil then none else some (writtenUid lib s)

theorem consumes_uuid (lib : UuidLib) (s : String) :
    Decodes (R.uuid lib) (putUuid lib s) (writtenUid lib s) := by
  refine consumes_last _ _ _ _ _ (consumes_take DecodeError.truncated 16 (uidBytes lib s)) ?_
  exact consumes_pure _

theorem writtenUid_canonical (lib : UuidLib) (hlib : lib.Documented) (s : String)
    (h : CanonicalUuid s) : writtenUid lib s = s := by
  rcases h with ⟨u, rfl⟩
  rw [writtenUid, uidBytes_hyphenated lib hlib, hlib.toString]

theorem all_zero_iff (u : Uuid) : u.val.all (· == 0) = true ↔ u = Uuid.nil := by
  rw [Subtype.ext_iff, Uuid.nil, List.eq_replicate_iff, List.all_eq_true]
  simp only [beq_iff_eq, u.property, true_and]

theorem consumes_uuidOpt (lib : UuidLib) (s : String) :
    Decodes (R.uuidOpt lib) (putUuid lib s) (writtenUidOpt lib s) := by
  refine consumes_last _ _ _ _ _ (consumes_take DecodeError.truncated 16 (uidBytes lib s)) ?_
  unfold writtenUidOpt writtenUid
  simp only [all_zero_iff]
  exact consumes_pure _

theorem writtenUidOpt_empty (lib : UuidLib) : writtenUidOpt lib "" = none := by
  rw [writtenUidOpt, uidBytes, if_pos rfl, if_pos rfl]

theorem writtenUidOpt_present (lib : UuidLib) (hlib : lib.Documented) (s : String)
    (h : PresentUuid s) : writtenUidOpt lib s = some s := by
  rcases h with ⟨u, hnil, rfl⟩
  rw [writtenUidOpt, writtenUid_canonical lib hlib _ ⟨u, rfl⟩, uidBytes_hyphenated lib hlib,
    if_neg hnil]

/-! ## Optional fields -/

/-- An optional field reads back when its flag tells whether it is there. -/
theorem consumes_flagged {α β : Type} (flags flag : UInt8) (field : R α) (o : Option β)
    (write : β → Bytes) (value : β → α) (hflag : flags &&& flag ≠ 0 ↔ o.isSome)
    (hfield : ∀ b ∈ o, Decodes field (write b) (value b)) :
    Decodes (readFlagged flags flag field) (o.elim [] write) (o.map value) := by
  cases o with
  | none =>
      have hoff : ¬ (flags &&& flag ≠ 0) := fun h => Bool.false_ne_true (hflag.mp h)
      rw [readFlagged, if_neg hoff]
      exact consumes_pure none
  | some b =>
      rw [readFlagged, if_pos (hflag.mpr rfl)]
      refine consumes_last _ _ _ _ _ (hfield b rfl) ?_
      exact consumes_pure _

/-! ## A UUID library -/

/-- The value of a lowercase hex digit. -/
def hexValue (c : Char) : Nat := if c.isDigit then c.toNat - 48 else c.toNat - 87

/-- The bytes written in hex. -/
def unhex : List Char → Bytes
  | hi :: lo :: cs => UInt8.ofNat (16 * hexValue hi + hexValue lo) :: unhex cs
  | _ => []

/-- The crate's functions, on lowercase hyphenated text alone. -/
def canonicalLib : UuidLib where
  parseStr s :=
    let bs := unhex (s.toList.filter (· ≠ '-'))
    if h : bs.length = 16 then
      if Uuid.hyphenated ⟨bs, h⟩ = s then some ⟨bs, h⟩ else none
    else none
  toString := Uuid.hyphenated

theorem hexValue_digitChar (d : Nat) (h : d < 16) : hexValue (Nat.digitChar d) = d := by
  revert d
  decide

theorem digitChar_ne_hyphen (d : Nat) (h : d < 16) : Nat.digitChar d ≠ '-' := by
  revert d
  decide

theorem unhex_hex (bs : Bytes) : unhex (hex bs) = bs := by
  induction bs with
  | nil => rfl
  | cons b bs ih =>
      have hb := b.toNat_lt
      rw [hex, List.flatMap_cons, ← hex]
      show UInt8.ofNat _ :: unhex (hex bs) = b :: bs
      rw [ih, hexValue_digitChar _ (by omega), hexValue_digitChar _ (by omega),
        Nat.div_add_mod, UInt8.ofNat_toNat]

theorem hex_no_hyphen (bs : Bytes) : (hex bs).filter (· ≠ '-') = hex bs := by
  rw [List.filter_eq_self]
  intro c hc
  rcases List.mem_flatMap.mp hc with ⟨b, _, hb⟩
  have hlt := b.toNat_lt
  rcases List.mem_cons.mp hb with rfl | hb
  · exact decide_eq_true (digitChar_ne_hyphen _ (by omega))
  · rw [List.mem_singleton.mp hb]
    exact decide_eq_true (digitChar_ne_hyphen _ (by omega))

theorem hex_append (as bs : Bytes) : hex (as ++ bs) = hex as ++ hex bs := List.flatMap_append

/-- Without its hyphens, a UUID is its bytes in hex. -/
theorem hyphenated_filter (u : Uuid) :
    u.hyphenated.toList.filter (· ≠ '-') = hex u.val := by
  rw [Uuid.hyphenated, String.toList_ofList]
  simp only [List.filter_append, List.filter_cons, hex_no_hyphen, ne_eq, not_true_eq_false,
    decide_false, Bool.false_eq_true, if_false]
  -- The five groups are the bytes in order.
  simp only [← hex_append]
  rw [← List.take_add, ← List.take_add, ← List.take_add, List.take_append_drop]

theorem canonicalLib_documented : canonicalLib.Documented where
  toString _ := rfl
  parseStr u := by
    have hbytes : unhex (u.hyphenated.toList.filter (· ≠ '-')) = u.val := by
      rw [hyphenated_filter, unhex_hex]
    simp only [canonicalLib]
    generalize unhex (u.hyphenated.toList.filter (· ≠ '-')) = bs at hbytes ⊢
    subst hbytes
    rw [dif_pos u.property, if_pos rfl]

end Tracking

end Pickpoint
