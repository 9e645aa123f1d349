import Mathlib.Data.Nat.Find
import Scratchpad.Proofs.Text.LineFeed
import Scratchpad.Text.Offset

/-!
# Bytes with flaws

What a text of bytes is does not depend on how they are read. Where the bytes of a character stand, that
character stands. Where they do not, there is a flaw: as many bytes as any character begins with, or a single
byte if none begins so. One sign stands for each flaw. Every row of bytes is a text in this sense, and only one;
it is the one that is read byte by byte.

What has been begun at some byte is followed here by what may complete it. The first byte of a character and the
bytes that complete it are its bytes, so nothing is completed to anything else, and where a byte does not fit no
character goes on.

## Main definitions

* `BeginsChar`, `IsFlaw`: bytes with which a character begins, and bytes that are a flaw.
* `Lossy`: the text of bytes, with a sign for each flaw.
* `Partial.Completes`: bytes that complete what has begun.

## Main statements

* `begun_of_start`: what a first byte begins, in numbers.
* `utf8EncodeChar_eq_cons_iff`: the bytes of a character, by the first one.
* `piecesFrom_isFlaw`: a flaw is read as one flaw.
* `lossy_iff`: the text of bytes is what is read.
-/

namespace Scratchpad.Utf8

/-! ## Texts with flaws -/

/-- Bytes with which the bytes of a character begin. -/
def BeginsChar (bs : List UInt8) : Prop := ∃ c, bs <+: String.utf8EncodeChar c

/-- Bytes in front of others are a flaw: no character stands there, and they are the longest beginning of a
character that stands there, or a single byte if there is none. -/
structure IsFlaw (part rest : List UInt8) : Prop where
  ne_nil : part ≠ []
  not_char : ∀ c, ¬ String.utf8EncodeChar c <+: part ++ rest
  begins : part.length = 1 ∨ BeginsChar part
  longest : ∀ more, more <+: part ++ rest → part.length < more.length → ¬ BeginsChar more

/-- The text of bytes, in which a sign stands for each flaw. -/
inductive Lossy : List UInt8 → List Char → Prop
  | nil : Lossy [] []
  | char (c : Char) {bs : List UInt8} {cs : List Char} (h : Lossy bs cs) :
      Lossy (String.utf8EncodeChar c ++ bs) (c :: cs)
  | flaw {part rest : List UInt8} {cs : List Char} (hflaw : IsFlaw part rest) (h : Lossy rest cs) :
      Lossy (part ++ rest) (replacement :: cs)

/-! ## First bytes -/

/-- What a first byte begins, in numbers: how many bytes follow, what it stands for, and which second bytes fit. -/
structure Begun (b : UInt8) (p : Partial) : Prop where
  shape : 0xC2 ≤ b.toNat ∧ b.toNat < 0xE0 ∧ p.code + 0xC0 = b.toNat ∧ p.left = 0 ∨
    0xE0 ≤ b.toNat ∧ b.toNat < 0xF0 ∧ p.code + 0xE0 = b.toNat ∧ p.left = 1 ∨
    0xF0 ≤ b.toNat ∧ b.toNat < 0xF5 ∧ p.code + 0xF0 = b.toNat ∧ p.left = 2
  fits_iff : ∀ x, p.fits x = true ↔ 0x80 ≤ x.toNat ∧ x.toNat ≤ 0xBF ∧
    (b.toNat = 0xE0 → 0xA0 ≤ x.toNat) ∧ (b.toNat = 0xED → x.toNat ≤ 0x9F) ∧
    (b.toNat = 0xF0 → 0x90 ≤ x.toNat) ∧ (b.toNat = 0xF4 → x.toNat ≤ 0x8F)

theorem Partial.fits_iff {p : Partial} {x : UInt8} :
    p.fits x = true ↔ p.bounds.1.toNat ≤ x.toNat ∧ x.toNat ≤ p.bounds.2.toNat := by
  simp [Partial.fits, UInt8.le_iff_toNat_le]

theorem fits_continuation_iff {code left : Nat} {x : UInt8} :
    Partial.fits ⟨code, continuation, left⟩ x = true ↔ 0x80 ≤ x.toNat ∧ x.toNat ≤ 0xBF :=
  Partial.fits_iff

/-- What a byte is when no character has begun, by its number. -/
theorem start_eq (b : UInt8) : start b =
    if b.toNat < 0x80 then .char (Char.ofNat b.toNat)
    else if b.toNat < 0xC2 then .flaw
    else if b.toNat < 0xE0 then .part ⟨b.toNat - 0xC0, (0x80, 0xBF), 0⟩
    else if b.toNat < 0xF0 then
      .part ⟨b.toNat - 0xE0, (if b.toNat = 0xE0 then 0xA0 else 0x80, if b.toNat = 0xED then 0x9F else 0xBF), 1⟩
    else if b.toNat < 0xF5 then
      .part ⟨b.toNat - 0xF0, (if b.toNat = 0xF0 then 0x90 else 0x80, if b.toNat = 0xF4 then 0x8F else 0xBF), 2⟩
    else .flaw := by
  have hlt : ∀ n : UInt8, b < n ↔ b.toNat < n.toNat := fun n => UInt8.lt_iff_toNat_lt
  have heq : ∀ n : UInt8, b = n ↔ b.toNat = n.toNat := fun n => UInt8.toNat_inj.symm
  simp only [start, hlt, heq, continuation, UInt8.reduceToNat]
  split
  · rfl
  split
  · rfl
  split
  · rfl
  split
  · grind
  · grind

section

variable {b : UInt8} {p : Partial}

theorem begun_of_start (h : start b = .part p) : Begun b p := by
  rw [start_eq] at h
  split at h
  · cases h
  split at h
  · cases h
  split at h
  · obtain rfl := Start.part.inj h
    refine ⟨.inl ?_, fun x => Partial.fits_iff.trans ?_⟩
    · dsimp only
      omega
    · dsimp only [UInt8.reduceToNat]
      omega
  split at h
  · obtain rfl := Start.part.inj h
    refine ⟨.inr (.inl ?_), fun x => Partial.fits_iff.trans ?_⟩
    · dsimp only
      omega
    · dsimp only
      split <;> split <;> simp only [UInt8.reduceToNat] <;> omega
  split at h
  · obtain rfl := Start.part.inj h
    refine ⟨.inr (.inr ?_), fun x => Partial.fits_iff.trans ?_⟩
    · dsimp only
      omega
    · dsimp only
      split <;> split <;> simp only [UInt8.reduceToNat] <;> omega
  · cases h

theorem exists_begun (h : 0xC2 ≤ b.toNat) (h' : b.toNat < 0xF5) : ∃ p, start b = .part p ∧ Begun b p := by
  have hpart : ∃ p, start b = .part p := by
    rw [start_eq, if_neg (by omega), if_neg (by omega), if_pos h']
    split
    · exact ⟨_, rfl⟩
    split
    · exact ⟨_, rfl⟩
    · exact ⟨_, rfl⟩
  rcases hpart with ⟨p, hp⟩
  exact ⟨p, hp, begun_of_start hp⟩

theorem toNat_of_start_char {c : Char} (h : start b = .char c) : b.toNat < 0x80 ∧ c = Char.ofNat b.toNat := by
  rw [start_eq] at h
  split at h
  · rename_i hlt
    exact ⟨hlt, (Start.char.inj h).symm⟩
  · grind

/-! ## What completes a character -/

/-- Bytes that complete what has begun, and what all of it stands for. -/
def Partial.Completes : Partial → List UInt8 → Nat → Prop
  | _, [], _ => False
  | p, b :: bs, n =>
    p.fits b = true ∧
      match p.left with
      | 0 => bs = [] ∧ n = p.extended b
      | left + 1 => Completes ⟨p.extended b, continuation, left⟩ bs n

/-- Whatever byte fits, something completes what has begun behind it. -/
theorem exists_completes (p : Partial) {x : UInt8} (hx : p.fits x = true) :
    ∃ bs n, p.Completes (x :: bs) n := by
  rcases p with ⟨code, bounds, left⟩
  induction left generalizing code bounds x with
  | zero => exact ⟨[], _, hx, rfl, rfl⟩
  | succ left ih =>
    have hnext : Partial.fits ⟨code * 64 + x.toNat % 64, continuation, left⟩ 0x80 = true := by
      rw [fits_continuation_iff]
      decide
    rcases ih _ _ hnext with ⟨bs, n, h⟩
    exact ⟨0x80 :: bs, n, hx, h⟩

/-- The bytes that complete a character, in numbers. -/
theorem Begun.completes_iff (h : Begun b p) {bs : List UInt8} {n : Nat} :
    p.Completes bs n ↔
      (p.left = 0 ∧ ∃ x, bs = [x] ∧ p.fits x = true ∧ n = p.code * 64 + x.toNat % 64) ∨
      (p.left = 1 ∧ ∃ x y, bs = [x, y] ∧ p.fits x = true ∧ (0x80 ≤ y.toNat ∧ y.toNat ≤ 0xBF) ∧
        n = (p.code * 64 + x.toNat % 64) * 64 + y.toNat % 64) ∨
      (p.left = 2 ∧ ∃ x y z, bs = [x, y, z] ∧ p.fits x = true ∧ (0x80 ≤ y.toNat ∧ y.toNat ≤ 0xBF) ∧
        (0x80 ≤ z.toNat ∧ z.toNat ≤ 0xBF) ∧
        n = ((p.code * 64 + x.toNat % 64) * 64 + y.toNat % 64) * 64 + z.toNat % 64) := by
  have hleft : p.left = 0 ∨ p.left = 1 ∨ p.left = 2 := by
    have hshape := h.shape
    omega
  rcases p with ⟨code, bounds, left⟩
  dsimp only at hleft ⊢
  rcases hleft with rfl | rfl | rfl
  · rcases bs with _ | ⟨x, _ | ⟨y, bs⟩⟩ <;> simp [Partial.Completes, Partial.extended]
  · rcases bs with _ | ⟨x, _ | ⟨y, _ | ⟨z, bs⟩⟩⟩ <;>
      simp [Partial.Completes, Partial.extended, fits_continuation_iff, and_assoc]
  · rcases bs with _ | ⟨x, _ | ⟨y, _ | ⟨z, _ | ⟨w, bs⟩⟩⟩⟩ <;>
      simp [Partial.Completes, Partial.extended, fits_continuation_iff, and_assoc]

/-- What is completed stands for a character. -/
theorem exists_char_of_completes (hstart : start b = .part p) {bs : List UInt8} {n : Nat}
    (h : p.Completes bs n) : ∃ c : Char, c.toNat = n := by
  have hbegun := begun_of_start hstart
  have hshape := hbegun.shape
  suffices hvalid : n.isValidChar from ⟨Char.ofNatAux n hvalid, rfl⟩
  rcases hbegun.completes_iff.mp h with ⟨hleft, x, rfl, hx, rfl⟩ | ⟨hleft, x, y, rfl, hx, hy, rfl⟩ |
    ⟨hleft, x, y, z, rfl, hx, hy, hz, rfl⟩
  all_goals
    rw [hbegun.fits_iff] at hx
    rw [Nat.isValidChar]
    omega

/-! ## The bytes of a character -/

theorem toNat_ofNat {n : Nat} (h : n.isValidChar) : (Char.ofNat n).toNat = n := by
  rw [Char.ofNat, dif_pos h]
  rfl

theorem utf8EncodeChar_ne_nil (c : Char) : String.utf8EncodeChar c ≠ [] := by
  intro hnil
  have hlength := congrArg List.length hnil
  rw [String.length_utf8EncodeChar] at hlength
  exact absurd hlength (Nat.ne_of_gt c.utf8Size_pos)

theorem exists_byte {n : Nat} (h : n < 256) : ∃ b, UInt8.ofNat n = b ∧ b.toNat = n :=
  ⟨_, rfl, UInt8.toNat_ofNat_of_lt' h⟩

/-- Each character is what its first byte stands for, or what completes that. -/
theorem utf8EncodeChar_cases (c : Char) :
    (∃ b, String.utf8EncodeChar c = [b] ∧ start b = .char c) ∨
      ∃ b bs p, String.utf8EncodeChar c = b :: bs ∧ start b = .part p ∧ p.Completes bs c.toNat := by
  have hvalid : c.toNat < 0xD800 ∨ 0xDFFF < c.toNat ∧ c.toNat < 0x110000 := c.valid
  rw [Text.utf8EncodeChar_eq]
  by_cases hone : c.toNat ≤ 127
  · rcases exists_byte (n := c.toNat) (by omega) with ⟨b, hb, hfirst⟩
    rw [if_pos hone, hb]
    refine .inl ⟨b, rfl, ?_⟩
    rw [start_eq, if_pos (by omega), hfirst, Char.ofNat_toNat]
  rw [if_neg hone]
  right
  rcases exists_byte (n := c.toNat % 64 + 128) (by omega) with ⟨z, hz, hlast⟩
  by_cases htwo : c.toNat ≤ 2047
  · rcases exists_byte (n := c.toNat / 64 % 32 + 192) (by omega) with ⟨b, hb, hfirst⟩
    rcases exists_begun (b := b) (by omega) (by omega) with ⟨p, hstart, hbegun⟩
    have hshape := hbegun.shape
    rw [if_pos htwo, hb, hz]
    refine ⟨b, [z], p, rfl, hstart, hbegun.completes_iff.mpr (.inl ⟨by omega, z, rfl, ?_, by omega⟩)⟩
    rw [hbegun.fits_iff]
    omega
  rw [if_neg htwo]
  rcases exists_byte (n := c.toNat / 64 % 64 + 128) (by omega) with ⟨y, hy, hsixth⟩
  by_cases hthree : c.toNat ≤ 65535
  · rcases exists_byte (n := c.toNat / 4096 % 16 + 224) (by omega) with ⟨b, hb, hfirst⟩
    rcases exists_begun (b := b) (by omega) (by omega) with ⟨p, hstart, hbegun⟩
    have hshape := hbegun.shape
    rw [if_pos hthree, hb, hy, hz]
    refine ⟨b, [y, z], p, rfl, hstart,
      hbegun.completes_iff.mpr (.inr (.inl ⟨by omega, y, z, rfl, ?_, by omega, by omega⟩))⟩
    rw [hbegun.fits_iff]
    omega
  · rcases exists_byte (n := c.toNat / 4096 % 64 + 128) (by omega) with ⟨x, hx, htwelfth⟩
    rcases exists_byte (n := c.toNat / 262144 % 8 + 240) (by omega) with ⟨b, hb, hfirst⟩
    rcases exists_begun (b := b) (by omega) (by omega) with ⟨p, hstart, hbegun⟩
    have hshape := hbegun.shape
    rw [if_neg hthree, hb, hx, hy, hz]
    refine ⟨b, [x, y, z], p, rfl, hstart,
      hbegun.completes_iff.mpr (.inr (.inr ⟨by omega, x, y, z, rfl, ?_, by omega, by omega, by omega⟩))⟩
    rw [hbegun.fits_iff]
    omega

/-- What completes a first byte makes the bytes of a character of it. -/
theorem utf8EncodeChar_of_completes (hstart : start b = .part p) {bs : List UInt8} {c : Char}
    (h : p.Completes bs c.toNat) : String.utf8EncodeChar c = b :: bs := by
  have hbegun := begun_of_start hstart
  have hshape := hbegun.shape
  have hbyte : ∀ {n : Nat} {x : UInt8}, n = x.toNat → UInt8.ofNat n = x := by
    rintro _ x rfl
    exact UInt8.ofNat_toNat
  rw [Text.utf8EncodeChar_eq]
  rcases hbegun.completes_iff.mp h with ⟨hleft, x, rfl, hx, hc⟩ | ⟨hleft, x, y, rfl, hx, hy, hc⟩ |
    ⟨hleft, x, y, z, rfl, hx, hy, hz, hc⟩
  · rw [hbegun.fits_iff] at hx
    rw [if_neg (by omega), if_pos (by omega), hbyte (x := b) (by omega), hbyte (x := x) (by omega)]
  · rw [hbegun.fits_iff] at hx
    rw [if_neg (by omega), if_neg (by omega), if_pos (by omega), hbyte (x := b) (by omega),
      hbyte (x := x) (by omega), hbyte (x := y) (by omega)]
  · rw [hbegun.fits_iff] at hx
    rw [if_neg (by omega), if_neg (by omega), if_neg (by omega), hbyte (x := b) (by omega),
      hbyte (x := x) (by omega), hbyte (x := y) (by omega), hbyte (x := z) (by omega)]

/-- **The bytes of a character, by the first one**: it stands for the character by itself, or it begins what the
others complete. -/
theorem utf8EncodeChar_eq_cons_iff {bs : List UInt8} {c : Char} :
    String.utf8EncodeChar c = b :: bs ↔
      start b = .char c ∧ bs = [] ∨ ∃ p, start b = .part p ∧ p.Completes bs c.toNat := by
  constructor
  · intro h
    rcases utf8EncodeChar_cases c with ⟨b', hbytes, hstart⟩ | ⟨b', bs', p, hbytes, hstart, hcompletes⟩
    · obtain ⟨rfl, rfl⟩ := List.cons.inj (hbytes.symm.trans h)
      exact .inl ⟨hstart, rfl⟩
    · obtain ⟨rfl, rfl⟩ := List.cons.inj (hbytes.symm.trans h)
      exact .inr ⟨p, hstart, hcompletes⟩
  · rintro (⟨hstart, rfl⟩ | ⟨p, hstart, hcompletes⟩)
    · rcases toNat_of_start_char hstart with ⟨hlt, rfl⟩
      have hnumber : (Char.ofNat b.toNat).toNat = b.toNat := toNat_ofNat (.inl (by omega))
      rw [Text.utf8EncodeChar_eq, hnumber, if_pos (by omega), UInt8.ofNat_toNat]
    · exact utf8EncodeChar_of_completes hstart hcompletes

end

/-! ## What is read -/

section

variable {p : Partial} {rest : List UInt8}

/-- Bytes that complete what has begun are read as the character that they complete. -/
theorem piecesFrom_completes {bs : List UInt8} {n : Nat} (h : p.Completes bs n) :
    piecesFrom (some p) (bs ++ rest) = some (Char.ofNat n) :: piecesFrom none rest := by
  induction bs generalizing p with
  | nil => cases h
  | cons b bs ih =>
    rcases p with ⟨code, bounds, left⟩
    rw [Partial.Completes] at h
    rcases h with ⟨hfits, hrest⟩
    cases left with
    | zero =>
      rcases hrest with ⟨rfl, rfl⟩
      exact piecesFrom_last hfits rfl
    | succ left =>
      rw [List.cons_append, piecesFrom_more hfits rfl]
      exact ih hrest

/-- The bytes of a character are read as the character. -/
theorem piecesFrom_utf8EncodeChar (c : Char) :
    piecesFrom none (String.utf8EncodeChar c ++ rest) = some c :: piecesFrom none rest := by
  rcases utf8EncodeChar_cases c with ⟨b, hbytes, hstart⟩ | ⟨b, bs, p, hbytes, hstart, hcompletes⟩
  · rw [hbytes]
    exact piecesFrom_char hstart
  · rw [hbytes, List.cons_append, piecesFrom_part hstart, piecesFrom_completes hcompletes, Char.ofNat_toNat]

/-- Bytes that have been read and begin a character, and what may complete it. -/
structure Awaits (read : List UInt8) (p : Partial) : Prop where
  completes : ∀ c bs, String.utf8EncodeChar c = read ++ bs → p.Completes bs c.toNat
  exists_char : ∀ bs n, p.Completes bs n → ∃ c, String.utf8EncodeChar c = read ++ bs

theorem awaits_of_start {b : UInt8} (h : start b = .part p) : Awaits [b] p := by
  constructor
  · intro c bs hbytes
    rcases utf8EncodeChar_eq_cons_iff.mp hbytes with ⟨hstart, -⟩ | ⟨q, hstart, hcompletes⟩
    · cases h.symm.trans hstart
    · obtain rfl := Start.part.inj (h.symm.trans hstart)
      exact hcompletes
  · intro bs n hcompletes
    rcases exists_char_of_completes h hcompletes with ⟨c, rfl⟩
    exact ⟨c, utf8EncodeChar_of_completes h hcompletes⟩

/-- A byte more has been read. -/
theorem Awaits.next {read : List UInt8} {b : UInt8} {left : Nat} (h : Awaits read p) (hfits : p.fits b = true)
    (hleft : p.left = left + 1) : Awaits (read ++ [b]) ⟨p.extended b, continuation, left⟩ := by
  have hstep : ∀ bs n, p.Completes (b :: bs) n ↔ Partial.Completes ⟨p.extended b, continuation, left⟩ bs n := by
    intro bs n
    rw [Partial.Completes, hleft]
    exact and_iff_right hfits
  constructor
  · intro c bs hbytes
    rw [List.append_assoc] at hbytes
    exact (hstep bs c.toNat).mp (h.completes c (b :: bs) hbytes)
  · intro bs n hcompletes
    rcases h.exists_char (b :: bs) n ((hstep bs n).mpr hcompletes) with ⟨c, hc⟩
    refine ⟨c, ?_⟩
    rw [hc, List.append_assoc]
    rfl

/-- A flaw is read to its end and no further. -/
theorem piecesFrom_flaw_of_awaits {read more : List UInt8} (h : Awaits read p) (hflaw : IsFlaw (read ++ more) rest)
    (hbegins : more ≠ [] → BeginsChar (read ++ more)) :
    piecesFrom (some p) (more ++ rest) = none :: piecesFrom none rest := by
  induction more generalizing read p with
  | nil =>
    rw [List.append_nil] at hflaw
    cases rest with
    | nil => rfl
    | cons r rest =>
      refine piecesFrom_broken (Bool.eq_false_iff.mpr fun hfits => ?_)
      rcases exists_completes p hfits with ⟨bs, n, hcompletes⟩
      rcases h.exists_char _ _ hcompletes with ⟨c, hc⟩
      refine hflaw.longest (read ++ [r]) ⟨rest, by simp⟩ (by simp) ⟨c, bs, ?_⟩
      rw [hc, List.append_assoc]
      rfl
  | cons m more ih =>
    rcases hbegins (List.cons_ne_nil m more) with ⟨c, behind, hc⟩
    have hcompletes : p.Completes (m :: (more ++ behind)) c.toNat := by
      refine h.completes c _ ?_
      rw [← hc, List.append_assoc]
      rfl
    rw [Partial.Completes] at hcompletes
    rcases hcompletes with ⟨hfits, hrest⟩
    cases hleft : p.left with
    | zero =>
      rw [hleft] at hrest
      obtain ⟨rfl, rfl⟩ := List.append_eq_nil_iff.mp hrest.1
      refine absurd ⟨rest, ?_⟩ (hflaw.not_char c)
      rw [← hc, List.append_nil]
    | succ left =>
      have hmove : read ++ m :: more = read ++ [m] ++ more := by simp
      rw [hmove] at hflaw
      rw [List.cons_append, piecesFrom_more hfits hleft]
      exact ih (h.next hfits hleft) hflaw fun _ => ⟨c, behind, by rw [← hmove]; exact hc⟩

/-- **A flaw is read as one flaw**, and reading goes on behind it. -/
theorem piecesFrom_isFlaw {part : List UInt8} (h : IsFlaw part rest) :
    piecesFrom none (part ++ rest) = none :: piecesFrom none rest := by
  rcases part with _ | ⟨b, more⟩
  · exact absurd rfl h.ne_nil
  cases hstart : start b with
  | char c =>
    have hbytes : String.utf8EncodeChar c = [b] := utf8EncodeChar_eq_cons_iff.mpr (.inl ⟨hstart, rfl⟩)
    refine absurd ⟨more ++ rest, ?_⟩ (h.not_char c)
    rw [hbytes]
    rfl
  | flaw =>
    have hnone : ¬ BeginsChar (b :: more) := by
      rintro ⟨c, behind, hc⟩
      rcases utf8EncodeChar_eq_cons_iff.mp hc.symm with ⟨hstart', -⟩ | ⟨p, hstart', -⟩
      · cases hstart.symm.trans hstart'
      · cases hstart.symm.trans hstart'
    obtain rfl : more = [] := by simpa using h.begins.resolve_right hnone
    exact piecesFrom_flaw hstart
  | part p =>
    have hawaits : Awaits [b] p := awaits_of_start hstart
    rw [List.cons_append, piecesFrom_part hstart]
    refine piecesFrom_flaw_of_awaits hawaits h fun hmore => ?_
    exact h.begins.resolve_left fun hone => hmore (by simpa using hone)

end

/-! ## The text of bytes -/

theorem characters_char (c : Char) (rest : List UInt8) :
    characters (String.utf8EncodeChar c ++ rest) = c :: characters rest := by
  rw [characters, pieces, piecesFrom_utf8EncodeChar]
  rfl

theorem characters_flaw {part rest : List UInt8} (h : IsFlaw part rest) :
    characters (part ++ rest) = replacement :: characters rest := by
  rw [characters, pieces, piecesFrom_isFlaw h]
  rfl

/-- In front of any bytes there is a character or a flaw. -/
theorem exists_char_or_flaw {bs : List UInt8} (h : bs ≠ []) :
    (∃ c rest, bs = String.utf8EncodeChar c ++ rest) ∨ ∃ part rest, bs = part ++ rest ∧ IsFlaw part rest := by
  classical
  by_cases hchar : ∃ c, String.utf8EncodeChar c <+: bs
  · rcases hchar with ⟨c, rest, hrest⟩
    exact .inl ⟨c, rest, hrest.symm⟩
  have hlength : 1 ≤ bs.length := List.length_pos_iff.mpr h
  let begins := fun n => n = 1 ∨ BeginsChar (bs.take n)
  let n := Nat.findGreatest begins bs.length
  have hspec : begins n := Nat.findGreatest_spec hlength (.inl rfl)
  have hpos : 1 ≤ n := Nat.le_findGreatest hlength (.inl rfl)
  have hle : n ≤ bs.length := Nat.findGreatest_le bs.length
  have htake : (bs.take n).length = n := List.length_take_of_le hle
  have hsplit : bs.take n ++ bs.drop n = bs := List.take_append_drop n bs
  refine .inr ⟨bs.take n, bs.drop n, hsplit.symm, ?_, ?_, ?_, ?_⟩
  · exact List.ne_nil_of_length_pos (by omega)
  · intro c hc
    rw [hsplit] at hc
    exact hchar ⟨c, hc⟩
  · rw [htake]
    exact hspec
  · intro more hmore hlt hbegins
    rw [hsplit] at hmore
    rw [htake] at hlt
    have htaken : bs.take more.length = more := (List.prefix_iff_eq_take.mp hmore).symm
    have hgreatest : more.length ≤ n :=
      Nat.le_findGreatest hmore.length_le (.inr (by rw [htaken]; exact hbegins))
    omega

/-- **The text of bytes is what is read**, and there is no other. -/
theorem lossy_iff {bs : List UInt8} {cs : List Char} : Lossy bs cs ↔ cs = characters bs := by
  constructor
  · intro h
    induction h with
    | nil => rfl
    | char c _ ih => rw [characters_char, ih]
    | flaw hflaw _ ih => rw [characters_flaw hflaw, ih]
  · rintro rfl
    induction hn : bs.length using Nat.strong_induction_on generalizing bs with
    | _ n ih =>
      by_cases hnil : bs = []
      · rw [hnil]
        exact .nil
      rcases exists_char_or_flaw hnil with ⟨c, rest, rfl⟩ | ⟨part, rest, rfl, hflaw⟩
      · have hpos := List.length_pos_iff.mpr (utf8EncodeChar_ne_nil c)
        rw [List.length_append] at hn
        rw [characters_char]
        exact .char c (ih _ (by omega) rfl)
      · have hpos := List.length_pos_iff.mpr hflaw.ne_nil
        rw [List.length_append] at hn
        rw [characters_flaw hflaw]
        exact .flaw hflaw (ih _ (by omega) rfl)

end Scratchpad.Utf8
