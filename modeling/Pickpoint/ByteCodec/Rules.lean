import Pickpoint.ByteCodec.Reader

/-!
# Rules for Byte Readers

What a reader makes of the bytes of an encoder, of part of them, and of any
bytes at all.

`Reads r bs a` says that `r` reads `a` off `bs` and leaves whatever follows.
`Consumes e r bs a` adds that it needs all of them: given less, it raises `e`.
`Leads e r bs r'` is the same for the first fields of a message, after which `r`
goes on as `r'`. `Refuses e r bs` says that `r` raises `e` on `bs`, whatever
follows. `Yields r P` is about arbitrary bytes: what `r` reads off them satisfies
`P`.

Each composes along `bind` as the bytes do by append, so a format is dealt with
field by field: `Consumes` gives its round trip and that no part of a message is
taken for one, `Yields` what its decoder can ever produce.

## Main definitions

* `Reads`, `Consumes`, `Leads`, `Refuses`, `Yields`: What a reader does.
* `writeEach`, `EachOk`: Writing a sequence.

## Theorems

* `consumes_bind`, `consumes_leads`, `consumes_run`, `run_short`: How `Consumes`
  composes, and what it gives in the end.
* `consumes_take`, `consumes_byte`, `consumes_uint`, `consumes_int`: The fields.
* `consumes_many`: Sequences.
* `refuses_left`, `refuses_right`: A refusal in one part is one of the whole.
* `bind_ok`, `uint_ok`, `byte_ok`: Where a value that was read comes from.
* `yields_bind`, `yields_many`: How `Yields` composes.
-/

namespace ByteCodec

/-- The reader reads `a` off the bytes `bs` and leaves whatever follows. -/
def Reads {ε α : Type} (r : Reader ε α) (bs : List UInt8) (a : α) : Prop :=
  ∀ rest, r (bs ++ rest) = .ok (a, rest)

/-- The reader reads `a` off exactly the bytes `bs`: given fewer of them, it raises
    `e`. -/
structure Consumes {ε α : Type} (e : ε) (r : Reader ε α) (bs : List UInt8) (a : α) : Prop where
  reads : Reads r bs a
  short : ∀ part, part <+: bs → part ≠ bs → r part = .error e

/-- Once it has read `bs` the reader goes on as `r'`: given fewer bytes, it raises
    `e`. -/
structure Leads {ε α : Type} (e : ε) (r : Reader ε α) (bs : List UInt8) (r' : Reader ε α) :
    Prop where
  goesOn : ∀ rest, r (bs ++ rest) = r' rest
  short : ∀ part, part <+: bs → part ≠ bs → r part = .error e

/-- The reader raises `e` on the bytes `bs`, whatever follows. -/
def Refuses {ε α : Type} (e : ε) (r : Reader ε α) (bs : List UInt8) : Prop :=
  ∀ rest, r (bs ++ rest) = .error e

/-- Whatever the reader reads satisfies `P`. -/
def Yields {ε α : Type} (r : Reader ε α) (P : α → Prop) : Prop :=
  ∀ bs a rest, r bs = .ok (a, rest) → P a

variable {ε α β σ : Type}

theorem bind_apply (r : Reader ε α) (f : α → Reader ε β) (bs : List UInt8) :
    (r >>= f) bs = Reader.bind r f bs := rfl

/-! ## Exactly these bytes -/

theorem leads_nil {e : ε} (r : Reader ε α) : Leads e r [] r :=
  ⟨fun _ => rfl, fun _ hpart hne => absurd (List.prefix_nil.mp hpart) hne⟩

/-- What is short of a whole is short of its first part, or has that and is short of
    the rest. -/
theorem short_cases (part bs cs : List UInt8) (hpart : part <+: bs ++ cs)
    (hne : part ≠ bs ++ cs) :
    (part <+: bs ∧ part ≠ bs) ∨ ∃ tail, part = bs ++ tail ∧ tail <+: cs ∧ tail ≠ cs := by
  by_cases hfirst : bs <+: part
  · rcases hfirst with ⟨tail, rfl⟩
    refine Or.inr ⟨tail, rfl, (List.prefix_append_right_inj bs).mp hpart, ?_⟩
    rintro rfl
    exact hne rfl
  · rcases List.prefix_or_prefix_of_prefix hpart (List.prefix_append bs cs) with hle | hle
    · refine Or.inl ⟨hle, ?_⟩
      rintro rfl
      exact hfirst List.prefix_rfl
    · exact absurd hle hfirst

theorem leads_bind {e : ε} (r : Reader ε α) (f : α → Reader ε β) (bs cs : List UInt8) (a : α)
    (r' : Reader ε β) (hr : Consumes e r bs a) (hf : Leads e (f a) cs r') :
    Leads e (r >>= f) (bs ++ cs) r' := by
  constructor
  · intro rest
    rw [bind_apply, Reader.bind, List.append_assoc, hr.reads (cs ++ rest)]
    exact hf.goesOn rest
  · intro part hpart hne
    rw [bind_apply, Reader.bind]
    rcases short_cases part bs cs hpart hne with ⟨hle, hlt⟩ | ⟨tail, rfl, hle, hlt⟩
    · rw [hr.short part hle hlt]
    · -- The first reader gets all its bytes, so what follows lacks some.
      rw [hr.reads tail]
      exact hf.short tail hle hlt

/-- A choice between two readers, with what follows in both branches. -/
theorem leads_ite {e : ε} (c : Prop) [Decidable c] (r r' : Reader ε α) (f : α → Reader ε β)
    (bs cs : List UInt8) (a : α) (r'' : Reader ε β) (hr : Consumes e (if c then r else r') bs a)
    (hf : Leads e (f a) cs r'') :
    Leads e (if c then r >>= f else r' >>= f) (bs ++ cs) r'' := by
  by_cases h : c
  · rw [if_pos h] at hr ⊢
    exact leads_bind r f bs cs a r'' hr hf
  · rw [if_neg h] at hr ⊢
    exact leads_bind r' f bs cs a r'' hr hf

theorem consumes_leads {e : ε} (r r' : Reader ε α) (bs cs : List UInt8) (a : α)
    (h : Leads e r bs r') (h' : Consumes e r' cs a) : Consumes e r (bs ++ cs) a := by
  constructor
  · intro rest
    rw [List.append_assoc, h.goesOn]
    exact h'.reads rest
  · intro part hpart hne
    rcases short_cases part bs cs hpart hne with ⟨hle, hlt⟩ | ⟨tail, rfl, hle, hlt⟩
    · exact h.short part hle hlt
    · rw [h.goesOn]
      exact h'.short tail hle hlt

theorem consumes_pure {e : ε} (a : α) : Consumes e (pure a : Reader ε α) [] a :=
  ⟨fun _ => rfl, (leads_nil _).short⟩

theorem consumes_bind {e : ε} (r : Reader ε α) (f : α → Reader ε β) (bs cs : List UInt8) (a : α)
    (b : β) (hr : Consumes e r bs a) (hf : Consumes e (f a) cs b) :
    Consumes e (r >>= f) (bs ++ cs) b := by
  have hlead : Leads e (r >>= f) (bs ++ []) (f a) := leads_bind r f bs [] a _ hr (leads_nil _)
  rw [List.append_nil] at hlead
  exact consumes_leads _ _ _ _ _ hlead hf

/-- A last step that reads nothing. -/
theorem consumes_last {e : ε} (r : Reader ε α) (f : α → Reader ε β) (bs : List UInt8) (a : α)
    (b : β) (hr : Consumes e r bs a) (hf : Consumes e (f a) [] b) : Consumes e (r >>= f) bs b := by
  have h := consumes_bind r f bs [] a b hr hf
  rwa [List.append_nil] at h

theorem consumes_run {e : ε} (r : Reader ε α) (bs : List UInt8) (a : α) (h : Consumes e r bs a) :
    r.run bs = .ok a := by
  have hnil := h.reads []
  rw [List.append_nil] at hnil
  rw [Reader.run, hnil]
  rfl

/-- Too few bytes are no value. -/
theorem run_short {e : ε} (r : Reader ε α) (bs : List UInt8) (a : α) (h : Consumes e r bs a)
    (part : List UInt8) (hpart : part <+: bs) (hne : part ≠ bs) : r.run part = .error e := by
  rw [Reader.run, h.short part hpart hne]
  rfl

theorem consumes_byte (e : ε) (b : UInt8) : Consumes e (Reader.byte e) [b] b := by
  refine ⟨fun _ => rfl, fun part hpart hne => ?_⟩
  cases part with
  | nil => rfl
  | cons c part =>
      have hlen := hpart.length_le
      rw [List.length_cons, List.length_singleton] at hlen
      exact absurd (hpart.eq_of_length_le (by rw [List.length_singleton, List.length_cons]; omega))
        hne

theorem consumes_take (e : ε) (n : Nat) (b : Block n) :
    Consumes e (Reader.take e n) b.val b := by
  rcases b with ⟨bs, rfl⟩
  constructor
  · intro rest
    have hle : bs.length ≤ (bs ++ rest).length := by
      rw [List.length_append]
      omega
    rw [Reader.take, dif_pos hle]
    simp only [List.take_left, List.drop_left]
  · intro part hpart hne
    exact dif_neg fun hle => hne (hpart.eq_of_length_le hle)

theorem consumes_uint (e : ε) (n x : Nat) (h : x < 256 ^ n) :
    Consumes e (Reader.uint e n) (uintBytes n x) x := by
  refine consumes_last _ _ _ _ _ (consumes_take e n ⟨uintBytes n x, uintBytes_length n x⟩) ?_
  have hx : ofUintBytes (uintBytes n x) = x := by
    rw [ofUintBytes_uintBytes, Nat.mod_eq_of_lt h]
  show Consumes e (pure (ofUintBytes (uintBytes n x)) : Reader ε Nat) [] x
  rw [hx]
  exact consumes_pure x

theorem consumes_int (e : ε) (n : Nat) (x : Int) (hlo : -256 ^ n ≤ 2 * x)
    (hhi : 2 * x < 256 ^ n) : Consumes e (Reader.int e n) (intBytes n x) x := by
  have hpos : (0 : Int) < 256 ^ n := Int.pow_pos (by omega)
  have hlt : (x % 256 ^ n).toNat < 256 ^ n := by
    have hmod := Int.emod_lt_of_pos x hpos
    have hcast : ((256 ^ n : Nat) : Int) = 256 ^ n := Int.natCast_pow 256 n
    omega
  refine consumes_last _ _ _ _ _ (consumes_uint e n _ hlt) ?_
  show Consumes e (pure (ofUint n (x % 256 ^ n).toNat) : Reader ε Int) [] x
  rw [ofUint_mod n x hlo hhi]
  exact consumes_pure x

/-- Write items, each in the state that the one before left. -/
def writeEach (write : σ → β → List UInt8) (next : β → σ) : σ → List β → List UInt8
  | _, [] => []
  | s, b :: bs => write s b ++ writeEach write next (next b) bs

/-- Each item is right for the state that the one before left. -/
def EachOk (ok : σ → β → Prop) (next : β → σ) : σ → List β → Prop
  | _, [] => True
  | s, b :: bs => ok s b ∧ EachOk ok next (next b) bs

/-- A sequence reads back when each item does, in the state that the one before
    left. -/
theorem consumes_many {e : ε} (item : σ → Reader ε (α × σ)) (write : σ → β → List UInt8)
    (next : β → σ) (value : β → α) (ok : σ → β → Prop)
    (hitem : ∀ s b, ok s b → Consumes e (item s) (write s b) (value b, next b)) (bs : List β)
    (s : σ) (h : EachOk ok next s bs) :
    Consumes e (Reader.many item bs.length s) (writeEach write next s bs) (bs.map value) := by
  induction bs generalizing s with
  | nil => exact consumes_pure []
  | cons b bs ih =>
      refine consumes_bind _ _ _ _ _ _ (hitem s b h.1) ?_
      refine consumes_last _ _ _ _ _ (ih (next b) h.2) ?_
      exact consumes_pure _

/-! ## Refusals -/

theorem refuses_left {e : ε} (r : Reader ε α) (f : α → Reader ε β) (bs cs : List UInt8)
    (h : Refuses e r bs) : Refuses e (r >>= f) (bs ++ cs) := by
  intro rest
  rw [bind_apply, Reader.bind, List.append_assoc, h (cs ++ rest)]

/-- A refusal with nothing behind it. -/
theorem refuses_first {e : ε} (r : Reader ε α) (f : α → Reader ε β) (bs : List UInt8)
    (h : Refuses e r bs) : Refuses e (r >>= f) bs := by
  have hall := refuses_left r f bs [] h
  rwa [List.append_nil] at hall

theorem refuses_right {e : ε} (r : Reader ε α) (f : α → Reader ε β) (bs cs : List UInt8) (a : α)
    (hr : Reads r bs a) (h : Refuses e (f a) cs) : Refuses e (r >>= f) (bs ++ cs) := by
  intro rest
  rw [bind_apply, Reader.bind, List.append_assoc, hr (cs ++ rest)]
  exact h rest

/-- A refusal once all bytes are read. -/
theorem refuses_last {e : ε} (r : Reader ε α) (f : α → Reader ε β) (bs : List UInt8) (a : α)
    (hr : Reads r bs a) (h : Refuses e (f a) []) : Refuses e (r >>= f) bs := by
  have hall := refuses_right r f bs [] a hr h
  rwa [List.append_nil] at hall

theorem refuses_leads {e d : ε} (r r' : Reader ε α) (bs cs : List UInt8) (h : Leads d r bs r')
    (h' : Refuses e r' cs) : Refuses e r (bs ++ cs) := by
  intro rest
  rw [List.append_assoc, h.goesOn]
  exact h' rest

theorem refuses_run {e : ε} (r : Reader ε α) (bs : List UInt8) (h : Refuses e r bs) :
    r.run bs = .error e := by
  have hnil := h []
  rw [List.append_nil] at hnil
  rw [Reader.run, hnil]
  rfl

/-! ## Any bytes -/

theorem yields_mono (r : Reader ε α) (P Q : α → Prop) (h : Yields r P) (hPQ : ∀ a, P a → Q a) :
    Yields r Q :=
  fun bs a rest hr => hPQ a (h bs a rest hr)

theorem yields_pure (P : α → Prop) (a : α) (h : P a) : Yields (pure a : Reader ε α) P := by
  intro bs b rest hr
  cases hr
  exact h

theorem yields_fail (e : ε) (P : α → Prop) : Yields (Reader.fail e : Reader ε α) P := by
  intro bs a rest hr
  cases hr

/-- What two readers in a row read. -/
theorem bind_ok (r : Reader ε α) (f : α → Reader ε β) (bs : List UInt8) (b : β × List UInt8)
    (h : (r >>= f) bs = .ok b) : ∃ a mid, r bs = .ok (a, mid) ∧ f a mid = .ok b := by
  rw [bind_apply, Reader.bind] at h
  rcases hfirst : r bs with _ | ⟨a, mid⟩
  · rw [hfirst] at h
    cases h
  · rw [hfirst] at h
    exact ⟨a, mid, rfl, h⟩

theorem byte_ok (e : ε) (bs : List UInt8) (b : UInt8) (rest : List UInt8)
    (h : Reader.byte e bs = .ok (b, rest)) : bs = b :: rest := by
  cases bs with
  | nil => cases h
  | cons c bs =>
      cases h
      rfl

theorem uint_ok (e : ε) (n : Nat) (bs : List UInt8) (x : Nat) (rest : List UInt8)
    (h : Reader.uint e n bs = .ok (x, rest)) :
    x = ofUintBytes (bs.take n) ∧ rest = bs.drop n := by
  rcases bind_ok _ _ _ _ h with ⟨b, mid, htake, hpure⟩
  cases hpure
  unfold Reader.take at htake
  split at htake
  · cases htake
    exact ⟨rfl, rfl⟩
  · cases htake

theorem yields_bind (r : Reader ε α) (f : α → Reader ε β) (P : α → Prop) (Q : β → Prop)
    (hr : Yields r P) (hf : ∀ a, P a → Yields (f a) Q) : Yields (r >>= f) Q := by
  intro bs b rest h
  rcases bind_ok r f bs (b, rest) h with ⟨a, mid, hfirst, hnext⟩
  exact hf a (hr bs a mid hfirst) mid b rest hnext

/-- Whatever is read, of which nothing is known. -/
theorem yields_any (r : Reader ε α) : Yields r fun _ => True := fun _ _ _ _ => trivial

theorem yields_ite (c : Prop) [Decidable c] (r r' : Reader ε α) (P : α → Prop)
    (hr : c → Yields r P) (hr' : ¬c → Yields r' P) : Yields (if c then r else r') P := by
  by_cases h : c
  · rw [if_pos h]
    exact hr h
  · rw [if_neg h]
    exact hr' h

theorem yields_run (r : Reader ε α) (P : α → Prop) (h : Yields r P) (bs : List UInt8) (a : α)
    (hr : r.run bs = .ok a) : P a := by
  unfold Reader.run at hr
  rcases hread : r bs with _ | ⟨b, rest⟩
  · rw [hread] at hr
    cases hr
  · rw [hread] at hr
    cases hr
    exact h bs _ rest hread

theorem ofUintBytes_lt (bs : List UInt8) : ofUintBytes bs < 256 ^ bs.length := by
  induction bs with
  | nil => exact Nat.one_pos
  | cons b bs ih =>
      have hb := b.toNat_lt
      rw [ofUintBytes, List.length_cons, Nat.pow_succ]
      omega

theorem yields_uint (e : ε) (n : Nat) : Yields (Reader.uint e n) fun x => x < 256 ^ n := by
  refine yields_bind _ _ _ _ (yields_any _) fun b _ => yields_pure _ _ ?_
  have hlt := ofUintBytes_lt b.val
  rwa [b.property] at hlt

theorem yields_int (e : ε) (n : Nat) :
    Yields (Reader.int e n) fun x => -256 ^ n ≤ 2 * x ∧ 2 * x < 256 ^ n := by
  refine yields_bind _ _ _ _ (yields_uint e n) fun x hx => yields_pure _ _ ?_
  have hcast : ((256 ^ n : Nat) : Int) = 256 ^ n := Int.natCast_pow 256 n
  unfold ofUint
  split <;> omega

/-- The items of a sequence are right for each other when each one read is right for
    the state it is read in. -/
theorem yields_many (item : σ → Reader ε (α × σ)) (next : α → σ) (ok : σ → α → Prop)
    (hitem : ∀ s, Yields (item s) fun r => ok s r.1 ∧ r.2 = next r.1) (n : Nat) (s : σ) :
    Yields (Reader.many item n s) fun as => as.length = n ∧ EachOk ok next s as := by
  induction n generalizing s with
  | zero => exact yields_pure _ _ ⟨rfl, trivial⟩
  | succ n ih =>
      refine yields_bind _ _ _ _ (hitem s) fun r hr => ?_
      refine yields_bind _ _ _ _ (ih r.2) fun as has => yields_pure _ _ ?_
      rcases has with ⟨hlen, hok⟩
      rw [hr.2] at hok
      exact ⟨by rw [List.length_cons, hlen], hr.1, hok⟩

end ByteCodec
