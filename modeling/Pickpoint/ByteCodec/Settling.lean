import Pickpoint.ByteCodec.Rules
import Mathlib.Data.Nat.Find

/-!
# Readers That Settle

What more bytes can change in what a reader makes of the first ones.

A reader looks at bytes from the front, so once it has an answer it does not
matter what follows, and only the error that says bytes are missing (`e`) is no
answer. `Settles e r` says so of `r`, with the bytes it leaves. It composes along
`bind` and holds of every reader made of fields, choices, failures and counted
sequences, whatever their bytes: nothing has to be known of an encoder.

A decoder that settles marks the end of a frame by itself (`delimits`): its answer
is found at one byte, from which on it stays, and before which it is that bytes are
missing.

## Main definitions

* `Settles`: Only missing bytes leave the answer open.
* `Delimits`: The answer is found at one byte.

## Theorems

* `settles_bind`, `settles_ite`, `settles_many`: How `Settles` composes.
* `settles_run`, `delimits`: What it gives in the end.
-/

namespace ByteCodec

/-- Once the reader has an answer other than `e`, more bytes only add to what it
    leaves. -/
def Settles {ε α : Type} (e : ε) (r : Reader ε α) : Prop :=
  ∀ bs more, r bs = .error e ∨
    r (bs ++ more) = (r bs).map fun x : α × List UInt8 => (x.1, x.2 ++ more)

/-- The answer to `bs` is found at one byte: whatever follows that one, it stays, and
    before it bytes are missing. -/
def Delimits {ε α : Type} (e : ε) (decode : List UInt8 → Except ε α) (bs : List UInt8) : Prop :=
  ∃ k, k ≤ bs.length ∧ (∀ more, decode (bs.take k ++ more) = decode bs) ∧
    ∀ n, n < k → decode (bs.take n) = .error e

variable {ε α β σ : Type}

theorem settles_pure (e : ε) (a : α) : Settles e (pure a : Reader ε α) :=
  fun _ _ => Or.inr rfl

/-- A failure is final, whichever it is. -/
theorem settles_fail (e e' : ε) : Settles e (Reader.fail e' : Reader ε α) :=
  fun _ _ => Or.inr rfl

theorem settles_byte (e : ε) : Settles e (Reader.byte e) := by
  intro bs more
  cases bs with
  | nil => exact Or.inl rfl
  | cons b bs => exact Or.inr rfl

theorem settles_take (e : ε) (n : Nat) : Settles e (Reader.take e n) := by
  intro bs more
  unfold Reader.take
  by_cases h : n ≤ bs.length
  · have hmore : n ≤ (bs ++ more).length := by
      rw [List.length_append]
      omega
    refine Or.inr ?_
    simp only [dif_pos h, dif_pos hmore, Except.map, List.take_append_of_le_length h,
      List.drop_append_of_le_length h]
  · exact Or.inl (dif_neg h)

theorem settles_bind (e : ε) (r : Reader ε α) (f : α → Reader ε β) (hr : Settles e r)
    (hf : ∀ a, Settles e (f a)) : Settles e (r >>= f) := by
  intro bs more
  rw [bind_apply, bind_apply, Reader.bind, Reader.bind]
  rcases hr bs more with hshort | hmore
  · exact Or.inl (by rw [hshort])
  · rw [hmore]
    rcases r bs with e' | ⟨a, rest⟩
    · exact Or.inr rfl
    · -- The second reader goes on with what the first leaves.
      exact hf a rest more

theorem settles_ite (e : ε) (c : Prop) [Decidable c] (r r' : Reader ε α) (hr : Settles e r)
    (hr' : Settles e r') : Settles e (if c then r else r') := by
  by_cases h : c
  · rwa [if_pos h]
  · rwa [if_neg h]

theorem settles_uint (e : ε) (n : Nat) : Settles e (Reader.uint e n) :=
  settles_bind e _ _ (settles_take e n) fun _ => settles_pure e _

theorem settles_int (e : ε) (n : Nat) : Settles e (Reader.int e n) :=
  settles_bind e _ _ (settles_uint e n) fun _ => settles_pure e _

theorem settles_many (e : ε) (item : σ → Reader ε (α × σ)) (hitem : ∀ s, Settles e (item s))
    (n : Nat) (s : σ) : Settles e (Reader.many item n s) := by
  induction n generalizing s with
  | zero => exact settles_pure e []
  | succ n ih =>
      refine settles_bind e _ _ (hitem s) fun r => ?_
      exact settles_bind e _ _ (ih r.2) fun rest => settles_pure e _

theorem settles_run (e : ε) (r : Reader ε α) (h : Settles e r) (bs more : List UInt8) :
    r.run bs = .error e ∨ r.run (bs ++ more) = r.run bs := by
  unfold Reader.run
  rcases h bs more with hshort | hmore
  · exact Or.inl (by rw [hshort]; rfl)
  · refine Or.inr ?_
    rw [hmore]
    rcases r bs with e' | ⟨a, rest⟩ <;> rfl

/-- An answer that more bytes cannot change is found at one byte. -/
theorem delimits (e : ε) (decode : List UInt8 → Except ε α)
    (hdecode : ∀ bs more, decode bs = .error e ∨ decode (bs ++ more) = decode bs)
    (bs : List UInt8) (h : decode bs ≠ .error e) : Delimits e decode bs := by
  classical
  have hend : ∃ k, decode (bs.take k) ≠ .error e := ⟨bs.length, by rwa [List.take_length]⟩
  -- The first byte at which there is an answer.
  have hfound := Nat.find_spec hend
  refine ⟨Nat.find hend, Nat.find_min' hend (by rwa [List.take_length]), fun more => ?_,
    fun n hn => by_contra fun hne => Nat.find_min hend hn hne⟩
  have hsame : ∀ more, decode (bs.take (Nat.find hend) ++ more) =
      decode (bs.take (Nat.find hend)) :=
    fun more => (hdecode _ more).resolve_left hfound
  have hwhole := hsame (bs.drop (Nat.find hend))
  rw [List.take_append_drop] at hwhole
  exact (hsame more).trans hwhole.symm

end ByteCodec
