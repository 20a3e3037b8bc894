import Mathlib.Algebra.Order.Ring.Nat
import Mathlib.Data.Nat.Notation

/-!
# Decoders over a stream

A decoder takes a value off the front of a stream.  `Reads dec bytes a` says
that it takes exactly `bytes`, whatever follows them, and gives `a`; the rules
below compose it along a sequence of fields, so that no proof about a record
mentions a position.

A fixed-width number is its digits to the base 256, lowest first.
-/

namespace Decoding

abbrev Decoder (β α : Type) : Type := StateT (List β) Option α

variable {β α γ : Type}

def Reads (dec : Decoder β α) (bytes : List β) (a : α) : Prop :=
  ∀ rest, dec (bytes ++ rest) = some (a, rest)

theorem Reads.pure (a : α) : Reads (Pure.pure a : Decoder β α) [] a := by
  intro rest
  rfl

theorem Reads.bind {dec : Decoder β α} {next : α → Decoder β γ} {xs ys : List β} {a : α} {c : γ}
    (hdec : Reads dec xs a) (hnext : Reads (next a) ys c) :
    Reads (dec >>= next) (xs ++ ys) c := by
  intro rest
  have hfirst : dec (xs ++ (ys ++ rest)) = some (a, ys ++ rest) := hdec (ys ++ rest)
  show (dec (xs ++ ys ++ rest) >>= fun result => next result.1 result.2) = some (c, rest)
  rw [List.append_assoc, hfirst]
  apply hnext

/-- The last field of a record and what is made of it. -/
theorem Reads.bind_pure {dec : Decoder β α} {f : α → γ} {xs : List β} {a : α}
    (hdec : Reads dec xs a) : Reads (dec >>= fun a => Pure.pure (f a)) xs (f a) := by
  have hlast : Reads (Pure.pure (f a) : Decoder β γ) [] (f a) := Reads.pure (f a)
  have hbind : Reads (dec >>= fun a => Pure.pure (f a)) (xs ++ []) (f a) := Reads.bind hdec hlast
  rwa [List.append_nil] at hbind

/-! ## What a decoder accepts -/

/-- What the decoder takes off a stream of `ok` bytes spells the value, if it leaves some of
the stream; at the end of the stream it goes no further. -/
structure Sound (ok : β → Prop) (dec : Decoder β α) (Spells : List β → α → Prop) : Prop where
  spelled : ∀ {stream rest : List β} {a : α}, (∀ byte ∈ stream, ok byte) → rest ≠ [] →
    dec stream = some (a, rest) → ∃ bytes, Spells bytes a ∧ stream = bytes ++ rest
  ended : ∀ {rest : List β} {a : α}, dec [] = some (a, rest) → rest = []

section

variable {ok : β → Prop}

theorem Sound.mono {dec : Decoder β α} {Spells Spells' : List β → α → Prop}
    (h : Sound ok dec Spells) (himp : ∀ bytes a, Spells bytes a → Spells' bytes a) :
    Sound ok dec Spells' where
  spelled hok hrest hdec := by
    obtain ⟨bytes, hbytes, hstream⟩ := h.spelled hok hrest hdec
    exact ⟨bytes, himp bytes _ hbytes, hstream⟩
  ended := h.ended

theorem Sound.pure {Spells : List β → α → Prop} {a : α} (h : Spells [] a) :
    Sound ok (Pure.pure a : Decoder β α) Spells where
  spelled := by
    intro stream rest c _ _ hdec
    cases hdec
    exact ⟨[], h, rfl⟩
  ended := by
    intro rest c hdec
    cases hdec
    rfl

/-- One field, and the others behind it. -/
theorem Sound.bind {dec : Decoder β α} {next : α → Decoder β γ} {SpellsFirst : List β → α → Prop}
    {Spells : List β → γ → Prop} (hdec : Sound ok dec SpellsFirst)
    (hnext : ∀ a xs, Sound ok (next a) fun ys c => SpellsFirst xs a → Spells (xs ++ ys) c) :
    Sound ok (dec >>= next) Spells where
  spelled := by
    intro stream rest c hok hrest hbind
    obtain ⟨⟨a, middle⟩, hfirst, hlast⟩ := Option.bind_eq_some_iff.mp hbind
    dsimp only at hlast
    have hmiddle : middle ≠ [] := by
      rintro rfl
      exact hrest ((hnext a []).ended hlast)
    obtain ⟨xs, hxs, rfl⟩ := hdec.spelled hok hmiddle hfirst
    have hok' : ∀ byte ∈ middle, ok byte := fun byte hbyte =>
      hok byte (List.mem_append_right xs hbyte)
    obtain ⟨ys, hys, rfl⟩ := (hnext a xs).spelled hok' hrest hlast
    exact ⟨xs ++ ys, hys hxs, (List.append_assoc xs ys rest).symm⟩
  ended := by
    intro rest c hbind
    obtain ⟨⟨a, middle⟩, hfirst, hlast⟩ := Option.bind_eq_some_iff.mp hbind
    obtain rfl : middle = [] := hdec.ended hfirst
    exact (hnext a []).ended hlast

/-- A decoder that reads all it accepts takes just the spellings off a stream. -/
theorem Sound.iff {dec : Decoder β α} {Spells : List β → α → Prop} (h : Sound ok dec Spells)
    (hreads : ∀ bytes a, Spells bytes a → Reads dec bytes a) {stream rest : List β}
    (hok : ∀ byte ∈ stream, ok byte) (hrest : rest ≠ []) (a : α) :
    dec stream = some (a, rest) ↔ ∃ bytes, Spells bytes a ∧ stream = bytes ++ rest := by
  constructor
  · exact h.spelled hok hrest
  · rintro ⟨bytes, hbytes, rfl⟩
    exact hreads bytes a hbytes rest

end

/-! ## Numbers of a fixed width -/

def littleEndian (ofByte : ℕ → β) : ℕ → ℕ → List β
  | 0, _ => []
  | width + 1, n => ofByte (n % 256) :: littleEndian ofByte width (n / 256)

def readLittleEndian (toByte : β → ℕ) : ℕ → Decoder β ℕ
  | 0, stream => some (0, stream)
  | _ + 1, [] => none
  | width + 1, byte :: stream =>
      (readLittleEndian toByte width stream).map fun (n, rest) => (toByte byte + 256 * n, rest)

section

variable {ofByte : ℕ → β} {toByte : β → ℕ}

theorem readLittleEndian_littleEndian (hbyte : ∀ n < 256, toByte (ofByte n) = n)
    (width n : ℕ) (hn : n < 256 ^ width) :
    Reads (readLittleEndian toByte width) (littleEndian ofByte width n) n := by
  induction width generalizing n with
  | zero =>
      intro rest
      have hzero : n = 0 := by simpa using hn
      rw [hzero]
      rfl
  | succ width ih =>
      intro rest
      have hdiv : n / 256 < 256 ^ width := by
        apply Nat.div_lt_of_lt_mul
        rwa [pow_succ, Nat.mul_comm] at hn
      have hrest := ih (n / 256) hdiv rest
      have hlow : toByte (ofByte (n % 256)) = n % 256 := hbyte _ (Nat.mod_lt _ (by omega))
      simp only [littleEndian, List.cons_append, readLittleEndian, hrest, hlow,
        Option.map_some, Nat.mod_add_div]

theorem readLittleEndian_sound (hbyte : ∀ byte, ofByte (toByte byte) = byte) {width n : ℕ}
    {stream rest : List β} (hok : ∀ byte ∈ stream, toByte byte < 256)
    (h : readLittleEndian toByte width stream = some (n, rest)) :
    n < 256 ^ width ∧ stream = littleEndian ofByte width n ++ rest := by
  induction width generalizing n stream with
  | zero =>
      cases h
      exact ⟨by simp, rfl⟩
  | succ width ih =>
      cases stream with
      | nil => cases h
      | cons byte stream =>
          obtain ⟨⟨high, rest'⟩, hread, hpair⟩ := Option.map_eq_some_iff.mp h
          cases hpair
          obtain ⟨hlow, hok⟩ := List.forall_mem_cons.mp hok
          obtain ⟨hhigh, hstream⟩ := ih hok hread
          have hdiv : (toByte byte + 256 * high) / 256 = high := by omega
          have hmod : (toByte byte + 256 * high) % 256 = toByte byte := by omega
          refine ⟨?_, ?_⟩
          · rw [pow_succ]
            omega
          · rw [littleEndian, hdiv, hmod, hbyte, hstream, List.cons_append]

end

end Decoding
