import Mathlib.Data.List.Basic

/-!
# Percent Coding

How bytes are written in an address, and read out of it again.

A byte that may stand for itself does (`keep`), and any other one becomes a percent
sign and two hexadecimal digits. What is written so avoids every character that is
not kept, so the characters that separate the parts of an address can be told from
those of a part (`encode_avoids`), and reading takes it back (`decode_encode`).

Forms write a space as a plus sign. Their pairs are separated by ampersands and
their keys end in an equals sign; an empty form is an empty text.

## Main definitions

* `encode`, `decode`: The bytes of a part.
* `unreserved`, `formKept`: What may stand for itself in a path, and in a form.
* `formEncode`, `formDecode`: A key or a value of a form.
* `serialize`, `parsePairs`: Its pairs.
* `joinPath`, `splitPath`: The parts of a path.

## Theorems

* `decode_encode`, `formDecode_formEncode`: Parts are read back.
* `encode_avoids`: Characters that are not in a part.
* `parsePairs_serialize`, `splitPath_joinPath`: Pairs and paths are read back.
-/

namespace Percent

/-- A hexadecimal digit, in upper case. -/
def hexDigit (n : Nat) : Char := if n < 10 then Char.ofNat (48 + n) else Char.ofNat (55 + n)

def hexValue (c : Char) : Option Nat :=
  if 48 ≤ c.toNat ∧ c.toNat ≤ 57 then some (c.toNat - 48)
  else if 65 ≤ c.toNat ∧ c.toNat ≤ 70 then some (c.toNat - 55)
  else if 97 ≤ c.toNat ∧ c.toNat ≤ 102 then some (c.toNat - 87)
  else none

def encodeByte (keep : UInt8 → Bool) (b : UInt8) : List Char :=
  if keep b then [Char.ofNat b.toNat]
  else ['%', hexDigit (b.toNat / 16), hexDigit (b.toNat % 16)]

/-- Write bytes, those that are kept as they are. -/
def encode (keep : UInt8 → Bool) (bs : List UInt8) : List Char := bs.flatMap (encodeByte keep)

/-- Read bytes. -/
def decode : List Char → Option (List UInt8)
  | [] => some []
  | c :: cs =>
    if c = '%' then
      match cs with
      | h :: l :: rest =>
        match hexValue h, hexValue l with
        | some x, some y => (decode rest).map fun bs => UInt8.ofNat (16 * x + y) :: bs
        | _, _ => none
      | _ => none
    else if c.toNat < 128 then (decode cs).map fun bs => UInt8.ofNat c.toNat :: bs
    else none

/-- Letters and digits. -/
def alphanumeric (b : UInt8) : Bool :=
  (decide (48 ≤ b.toNat) && decide (b.toNat ≤ 57)) ||
    (decide (65 ≤ b.toNat) && decide (b.toNat ≤ 90)) ||
    (decide (97 ≤ b.toNat) && decide (b.toNat ≤ 122))

/-- What may stand for itself in a part of a path: letters, digits and `-._~`. -/
def unreserved (b : UInt8) : Bool :=
  alphanumeric b || b == 45 || b == 46 || b == 95 || b == 126

/-- What may stand for itself in a form: letters, digits, `*-._`, and the space, which
    is written as a plus sign. -/
def formKept (b : UInt8) : Bool :=
  alphanumeric b || b == 42 || b == 45 || b == 46 || b == 95 || b == 32

/-! ## Bytes -/

/-- Only characters of ASCII are kept, and not the percent sign. -/
structure Plain (keep : UInt8 → Bool) : Prop where
  ascii : ∀ b, keep b = true → b.toNat < 128
  percent : keep 37 = false

theorem hexValue_hexDigit (n : Nat) (h : n < 16) : hexValue (hexDigit n) = some n := by
  have hall : ∀ n, n < 16 → hexValue (hexDigit n) = some n := by decide
  exact hall n h

theorem toNat_ofNat_ascii (n : Nat) (h : n < 128) : (Char.ofNat n).toNat = n := by
  have hall : ∀ n, n < 128 → (Char.ofNat n).toNat = n := by decide
  exact hall n h

/-- A character of ASCII that is not a percent sign is a byte. -/
theorem decode_plain (c : Char) (cs : List Char) (hne : c ≠ '%') (h : c.toNat < 128) :
    decode (c :: cs) = (decode cs).map fun bs => UInt8.ofNat c.toNat :: bs := by
  rw [decode.eq_def]
  simp only [if_neg hne, if_pos h]

theorem decode_encodeByte (keep : UInt8 → Bool) (hkeep : Plain keep) (b : UInt8)
    (cs : List Char) : decode (encodeByte keep b ++ cs) = (decode cs).map fun bs => b :: bs := by
  have hb := b.toNat_lt
  -- A byte that is kept stands for itself, and is no percent sign.
  by_cases h : keep b = true
  · have hascii := hkeep.ascii b h
    have hchar := toNat_ofNat_ascii b.toNat hascii
    have hne : Char.ofNat b.toNat ≠ '%' := by
      intro heq
      rw [heq] at hchar
      have hpercent : b = 37 := UInt8.toNat_inj.mp hchar.symm
      rw [hpercent, hkeep.percent] at h
      cases h
    rw [encodeByte, if_pos h, List.singleton_append, decode_plain _ cs hne (by rwa [hchar]), hchar,
      UInt8.ofNat_toNat]
  -- Any other is written as its two digits, which read back.
  · have hhigh := hexValue_hexDigit (b.toNat / 16) (by omega)
    have hlow := hexValue_hexDigit (b.toNat % 16) (by omega)
    have hbyte : UInt8.ofNat (16 * (b.toNat / 16) + b.toNat % 16) = b := by
      rw [Nat.div_add_mod, UInt8.ofNat_toNat]
    simp only [encodeByte, if_neg h, List.cons_append, List.nil_append, decode, if_true, hhigh,
      hlow, hbyte]

/-- What is written is read back. -/
theorem decode_encode (keep : UInt8 → Bool) (hkeep : Plain keep) (bs : List UInt8) :
    decode (encode keep bs) = some bs := by
  induction bs with
  | nil => rfl
  | cons b bs ih =>
      rw [encode, List.flatMap_cons, decode_encodeByte keep hkeep]
      rw [encode] at ih
      rw [ih, Option.map_some]

theorem hexDigit_alphanumeric (n : Nat) (h : n < 16) :
    ∃ b, alphanumeric b = true ∧ hexDigit n = Char.ofNat b.toNat := by
  have hall : ∀ n, n < 16 → alphanumeric (UInt8.ofNat (hexDigit n).toNat) = true ∧
      hexDigit n = Char.ofNat (UInt8.ofNat (hexDigit n).toNat).toNat := by decide
  exact ⟨_, hall n h⟩

/-- The characters written are percent signs, letters, digits and those kept. -/
theorem encode_mem (keep : UInt8 → Bool) (bs : List UInt8) (c : Char) (h : c ∈ encode keep bs) :
    c = '%' ∨ ∃ b, (alphanumeric b || keep b) = true ∧ c = Char.ofNat b.toNat := by
  rcases List.mem_flatMap.mp h with ⟨b, _, hc⟩
  have hb := b.toNat_lt
  unfold encodeByte at hc
  by_cases hkeep : keep b = true
  · rw [if_pos hkeep, List.mem_singleton] at hc
    exact Or.inr ⟨b, by rw [hkeep, Bool.or_true], hc⟩
  · rw [if_neg hkeep] at hc
    -- Hexadecimal digits are alphanumeric.
    have hdigit : ∀ n, n < 16 → c = hexDigit n →
        ∃ b, (alphanumeric b || keep b) = true ∧ c = Char.ofNat b.toNat := by
      intro n hn heq
      rcases hexDigit_alphanumeric n hn with ⟨b', hb', hchar⟩
      exact ⟨b', by rw [hb', Bool.true_or], heq.trans hchar⟩
    rcases List.mem_cons.mp hc with rfl | hc
    · exact Or.inl rfl
    rcases List.mem_cons.mp hc with heq | hc
    · exact Or.inr (hdigit _ (by omega) heq)
    · exact Or.inr (hdigit _ (by omega) (List.mem_singleton.mp hc))

/-- A character other than those is nowhere in what is written. -/
theorem encode_avoids (keep : UInt8 → Bool) (hkeep : Plain keep) (bs : List UInt8) (n : UInt8)
    (hn : n.toNat < 128) (hpercent : n ≠ 37) (hother : (alphanumeric n || keep n) = false) :
    Char.ofNat n.toNat ∉ encode keep bs := by
  intro h
  have hchar := toNat_ofNat_ascii n.toNat hn
  -- What is written is a percent sign, or stands for a byte that may be written.
  rcases encode_mem keep bs _ h with heq | ⟨b, hb, heq⟩
  · rw [heq] at hchar
    exact hpercent (UInt8.toNat_inj.mp hchar.symm)
  · have hascii : b.toNat < 128 := by
      rcases Bool.or_eq_true_iff.mp hb with ha | hk
      · simp only [alphanumeric, Bool.or_eq_true, Bool.and_eq_true, decide_eq_true_eq] at ha
        omega
      · exact hkeep.ascii b hk
    rw [heq, toNat_ofNat_ascii b.toNat hascii] at hchar
    have hsame : b = n := UInt8.toNat_inj.mp hchar
    rw [hsame, hother] at hb
    cases hb

theorem unreserved_plain : Plain unreserved where
  ascii b h := by
    simp only [unreserved, alphanumeric, Bool.or_eq_true, Bool.and_eq_true, decide_eq_true_eq,
      beq_iff_eq] at h
    rcases h with (((_ | rfl) | rfl) | rfl) | rfl
    · omega
    all_goals decide
  percent := by decide

theorem formKept_plain : Plain formKept where
  ascii b h := by
    simp only [formKept, alphanumeric, Bool.or_eq_true, Bool.and_eq_true, decide_eq_true_eq,
      beq_iff_eq] at h
    rcases h with ((((_ | rfl) | rfl) | rfl) | rfl) | rfl
    · omega
    all_goals decide
  percent := by decide

/-! ## Forms -/

/-- A key or a value of a form. -/
def formEncode (bs : List UInt8) : List Char :=
  (encode formKept bs).map fun c => if c = ' ' then '+' else c

def formDecode (cs : List Char) : Option (List UInt8) :=
  decode (cs.map fun c => if c = '+' then ' ' else c)

/-- A pair of a form. -/
def formPair (p : List UInt8 × List UInt8) : List Char := formEncode p.1 ++ '=' :: formEncode p.2

/-- The pairs of a form. -/
def serialize (ps : List (List UInt8 × List UInt8)) : List Char :=
  ['&'].intercalate (ps.map formPair)

def parsePair (cs : List Char) : Option (List UInt8 × List UInt8) :=
  match cs.splitOn '=' with
  | [k, v] =>
    match formDecode k, formDecode v with
    | some key, some value => some (key, value)
    | _, _ => none
  | _ => none

def parsePairs (cs : List Char) : Option (List (List UInt8 × List UInt8)) :=
  if cs = [] then some [] else (cs.splitOn '&').mapM parsePair

/-- Nothing is written with a plus sign but a space. -/
theorem formDecode_formEncode (bs : List UInt8) : formDecode (formEncode bs) = some bs := by
  have hplus : '+' ∉ encode formKept bs :=
    encode_avoids formKept formKept_plain bs 43 (by decide) (by decide) (by decide)
  have hback : (formEncode bs).map (fun c => if c = '+' then ' ' else c) = encode formKept bs := by
    rw [formEncode, List.map_map]
    refine (List.map_congr_left fun c hc => ?_).trans (List.map_id _)
    have hne : c ≠ '+' := fun heq => hplus (heq ▸ hc)
    by_cases hspace : c = ' '
    · simp only [Function.comp_apply, if_true, hspace, id_eq]
    · simp only [Function.comp_apply, if_neg hspace, if_neg hne, id_eq]
  rw [formDecode, hback, decode_encode formKept formKept_plain]

theorem formEncode_avoids (bs : List UInt8) (n : UInt8) (hn : n.toNat < 128) (hpercent : n ≠ 37)
    (hplus : n ≠ 43) (hother : (alphanumeric n || formKept n) = false) :
    Char.ofNat n.toNat ∉ formEncode bs := by
  intro h
  rcases List.mem_map.mp h with ⟨c, hc, heq⟩
  by_cases hspace : c = ' '
  · rw [if_pos hspace] at heq
    have hchar := toNat_ofNat_ascii n.toNat hn
    rw [← heq] at hchar
    exact hplus (UInt8.toNat_inj.mp hchar.symm)
  · rw [if_neg hspace] at heq
    exact encode_avoids formKept formKept_plain bs n hn hpercent hother (heq ▸ hc)

theorem parsePair_formPair (p : List UInt8 × List UInt8) : parsePair (formPair p) = some p := by
  have hkey : '=' ∉ formEncode p.1 :=
    formEncode_avoids p.1 61 (by decide) (by decide) (by decide) (by decide)
  have hvalue : '=' ∉ formEncode p.2 :=
    formEncode_avoids p.2 61 (by decide) (by decide) (by decide) (by decide)
  have hsplit : (formPair p).splitOn '=' = [formEncode p.1, formEncode p.2] := by
    rw [formPair, List.splitOn_append_cons_self_of_not_mem hkey,
      List.splitOn_eq_singleton hvalue]
  simp only [parsePair, hsplit, formDecode_formEncode]

theorem formPair_ampersand (p : List UInt8 × List UInt8) : '&' ∉ formPair p := by
  have hpart : ∀ bs, '&' ∉ formEncode bs := fun bs =>
    formEncode_avoids bs 38 (by decide) (by decide) (by decide) (by decide)
  intro h
  rcases List.mem_append.mp h with h | h
  · exact hpart p.1 h
  rcases List.mem_cons.mp h with h | h
  · cases h
  · exact hpart p.2 h

theorem serialize_eq_nil (ps : List (List UInt8 × List UInt8)) (h : serialize ps = []) :
    ps = [] := by
  rcases ps with _ | ⟨p, _ | ⟨q, ps⟩⟩
  · rfl
  · simp only [serialize, formPair, List.map_cons, List.map_nil, List.intercalate_singleton,
      List.append_eq_nil_iff, reduceCtorEq, and_false] at h
  · simp only [serialize, formPair, List.map_cons, List.intercalate_cons_cons,
      List.append_eq_nil_iff, reduceCtorEq, and_false, false_and] at h

/-- Pairs are read back, none as none. -/
theorem parsePairs_serialize (ps : List (List UInt8 × List UInt8)) :
    parsePairs (serialize ps) = some ps := by
  by_cases hnil : ps = []
  · subst hnil
    rfl
  have hne : serialize ps ≠ [] := fun h => hnil (serialize_eq_nil ps h)
  -- No pair holds the separator, so the split gives the pairs back.
  have hsplit : (serialize ps).splitOn '&' = ps.map formPair := by
    refine List.splitOn_intercalate '&' ?_ (by simpa only [ne_eq, List.map_eq_nil_iff] using hnil)
    intro l hl
    rcases List.mem_map.mp hl with ⟨p, _, rfl⟩
    exact formPair_ampersand p
  rw [parsePairs, if_neg hne, hsplit]
  clear hnil hne hsplit
  induction ps with
  | nil => rfl
  | cons p ps ih => simp only [List.map_cons, List.mapM_cons, parsePair_formPair, ih]; rfl

/-! ## Paths -/

/-- The parts of a path, each behind a slash. -/
def joinPath (parts : List (List Char)) : List Char := parts.flatMap fun part => '/' :: part

def splitPath (cs : List Char) : List (List Char) := (cs.splitOn '/').tail

/-- A part and those behind it. -/
theorem splitOn_joinPath (part : List Char) (parts : List (List Char)) (h : '/' ∉ part)
    (hparts : ∀ p ∈ parts, '/' ∉ p) : (part ++ joinPath parts).splitOn '/' = part :: parts := by
  induction parts generalizing part with
  | nil =>
      rw [joinPath, List.flatMap_nil, List.append_nil]
      exact List.splitOn_eq_singleton h
  | cons p parts ih =>
      have hrest := ih p (hparts p List.mem_cons_self) fun q hq =>
        hparts q (List.mem_cons_of_mem _ hq)
      rw [joinPath, List.flatMap_cons, List.cons_append,
        List.splitOn_append_cons_self_of_not_mem h]
      rw [joinPath] at hrest
      rw [hrest]

theorem splitPath_joinPath (parts : List (List Char)) (h : ∀ part ∈ parts, '/' ∉ part) :
    splitPath (joinPath parts) = parts := by
  have hsplit := splitOn_joinPath [] parts List.not_mem_nil h
  rw [List.nil_append] at hsplit
  rw [splitPath, hsplit, List.tail_cons]

end Percent
