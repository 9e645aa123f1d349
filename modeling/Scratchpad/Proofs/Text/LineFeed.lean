import Scratchpad.Text.Utf8

/-!
# Line feeds in bytes

The byte of a line feed stands for a line feed wherever it is, and nothing else does. It continues no
character, since all bytes that do are above those that stand for a character by themselves. A character of
several bytes is never one of the first ones: either its first byte has told so, or that byte bounds the
second one from below. So bytes may be cut behind a line feed, and each part be read by itself.

## Main definitions

* `Partial.IsLarge`: what has begun is none of the first characters.

## Main statements

* `newline_notMem_characters`: bytes without a line feed are a text without one.
* `characters_append_lineFeed`: a line feed behind bytes is one behind their text.
-/

namespace Scratchpad.Utf8

theorem eq_ten_of_ofNat_eq {n : Nat} (h : Char.ofNat n = '\n') : n = 10 := by
  by_cases hn : n.isValidChar
  · have hchar : Char.ofNat n = Char.ofNatAux n hn := dif_pos hn
    exact congrArg Char.toNat (hchar.symm.trans h)
  · have hzero : Char.ofNat n = Char.ofNat 0 := dif_neg hn
    exact absurd (hzero.symm.trans h) (by decide)

/-! ## What has begun -/

/-- What has begun is none of the first characters, and does not go on with a byte that stands for a
character by itself. -/
structure Partial.IsLarge (p : Partial) : Prop where
  lower : 0x80 ≤ p.bounds.1
  /-- The bytes so far tell so, or the next one will. -/
  code : 0 < p.code ∨ p.left ≠ 0 ∧ 0x80 < p.bounds.1 ∧ p.bounds.2 ≤ 0xBF

namespace Partial.IsLarge

variable {p : Partial} {b : UInt8}

theorem not_fits_lineFeed (hp : p.IsLarge) : p.fits 0x0A = false := by
  have hlow : ¬ p.bounds.1 ≤ 0x0A := fun h => absurd (UInt8.le_trans hp.lower h) (by decide)
  simp [fits, hlow]

theorem extended_pos (hp : p.IsLarge) (hfits : p.fits b = true) : 0 < p.extended b := by
  rw [extended]
  rcases hp.code with hcode | ⟨-, hlower, hupper⟩
  · omega
  · simp only [fits, Bool.and_eq_true, decide_eq_true_iff] at hfits
    have hb : 0x80 < b.toNat := UInt8.lt_iff_toNat_lt.mp (UInt8.lt_of_lt_of_le hlower hfits.1)
    have hb' : b.toNat ≤ 0xBF := UInt8.le_iff_toNat_le.mp (UInt8.le_trans hfits.2 hupper)
    omega

/-- A byte more, and the rest of what has begun is none of the first characters either. -/
theorem extend (hp : p.IsLarge) (hfits : p.fits b = true) (left : Nat) :
    Partial.IsLarge ⟨p.extended b, continuation, left⟩ :=
  ⟨UInt8.le_refl _, .inl (hp.extended_pos hfits)⟩

/-- The last byte does not make a line feed of it. -/
theorem ofNat_extended_ne (hp : p.IsLarge) (hleft : p.left = 0) :
    Char.ofNat (p.extended b) ≠ '\n' := by
  intro h
  have hten : p.extended b = 10 := eq_ten_of_ofNat_eq h
  have hcode : 0 < p.code := hp.code.resolve_right fun hnext => hnext.1 hleft
  rw [extended] at hten
  omega

end Partial.IsLarge

/-- The first byte of a long character tells upper bits that are not all zero, or it narrows the second one. -/
theorem isLarge_long (first : UInt8) {b : UInt8} {narrow wide : UInt8 × UInt8} {left : Nat}
    (hb : first.toNat ≤ b.toNat) (hleft : left ≠ 0) (hnarrow : 0x80 < narrow.1 ∧ narrow.2 ≤ 0xBF)
    (hwide : 0x80 ≤ wide.1) :
    Partial.IsLarge ⟨b.toNat - first.toNat, if b = first then narrow else wide, left⟩ := by
  by_cases hfirst : b = first
  · rw [if_pos hfirst]
    exact ⟨UInt8.le_of_lt hnarrow.1, .inr ⟨hleft, hnarrow⟩⟩
  · have hne : b.toNat ≠ first.toNat := fun heq => hfirst (UInt8.toNat_inj.mp heq)
    rw [if_neg hfirst]
    exact ⟨hwide, .inl (by dsimp only; omega)⟩

/-- What a byte begins is none of the first characters. -/
theorem isLarge_of_start {b : UInt8} {p : Partial} (h : start b = .part p) : p.IsLarge := by
  have le_of_not_lt : ∀ {first : UInt8}, ¬ b < first → first.toNat ≤ b.toNat :=
    fun hfirst => UInt8.le_iff_toNat_le.mp (UInt8.not_lt.mp hfirst)
  rw [start] at h
  split at h
  · cases h
  split at h
  · cases h
  next hflaw =>
  have hb : 0xC2 ≤ b.toNat := le_of_not_lt hflaw
  split at h
  · obtain rfl := Start.part.inj h
    refine ⟨UInt8.le_refl _, .inl ?_⟩
    dsimp only
    omega
  next htwo =>
  split at h
  · obtain rfl := Start.part.inj h
    exact isLarge_long 0xE0 (le_of_not_lt htwo) (by decide) (by decide) (by split <;> decide)
  next hthree =>
  split at h
  · obtain rfl := Start.part.inj h
    exact isLarge_long 0xF0 (le_of_not_lt hthree) (by decide) (by decide) (by split <;> decide)
  · cases h

/-- Only the byte of a line feed stands for a line feed. -/
theorem eq_lineFeed_of_start {b : UInt8} (h : start b = .char '\n') : b = 0x0A := by
  rw [start] at h
  split at h
  · have hten : b.toNat = 10 := eq_ten_of_ofNat_eq (Start.char.inj h)
    exact UInt8.toNat_inj.mp hten
  split at h
  · cases h
  split at h
  · cases h
  split at h
  · cases h
  split at h <;> cases h

/-! ## Pieces -/

section

variable {p : Partial} {b : UInt8} {bs : List UInt8}

theorem piecesFrom_none_cons (b : UInt8) (bs : List UInt8) : piecesFrom none (b :: bs) =
    match start b with
    | .char c => some c :: piecesFrom none bs
    | .part p => piecesFrom (some p) bs
    | .flaw => none :: piecesFrom none bs :=
  rfl

theorem piecesFrom_char {c : Char} (h : start b = .char c) :
    piecesFrom none (b :: bs) = some c :: piecesFrom none bs := by
  rw [piecesFrom_none_cons, h]

theorem piecesFrom_part (h : start b = .part p) :
    piecesFrom none (b :: bs) = piecesFrom (some p) bs := by
  rw [piecesFrom_none_cons, h]

theorem piecesFrom_flaw (h : start b = .flaw) :
    piecesFrom none (b :: bs) = none :: piecesFrom none bs := by
  rw [piecesFrom_none_cons, h]

/-- A byte that fits ends what has begun or is part of it. Where it does not fit there is a flaw, and reading goes on
afresh. -/
theorem piecesFrom_some_cons (p : Partial) (b : UInt8) (bs : List UInt8) : piecesFrom (some p) (b :: bs) =
    if p.fits b then
      match p.left with
      | 0 => some (Char.ofNat (p.extended b)) :: piecesFrom none bs
      | left + 1 => piecesFrom (some ⟨p.extended b, continuation, left⟩) bs
    else none :: piecesFrom none (b :: bs) := by
  have hfresh : (match start b with
      | .char c => none :: some c :: piecesFrom none bs
      | .part q => none :: piecesFrom (some q) bs
      | .flaw => none :: none :: piecesFrom none bs) = none :: piecesFrom none (b :: bs) := by
    rw [piecesFrom_none_cons]
    cases start b <;> rfl
  rw [← hfresh]
  rfl

theorem piecesFrom_last (hfits : p.fits b = true) (hleft : p.left = 0) :
    piecesFrom (some p) (b :: bs) = some (Char.ofNat (p.extended b)) :: piecesFrom none bs := by
  rw [piecesFrom_some_cons, if_pos hfits, hleft]

theorem piecesFrom_more {left : Nat} (hfits : p.fits b = true) (hleft : p.left = left + 1) :
    piecesFrom (some p) (b :: bs) = piecesFrom (some ⟨p.extended b, continuation, left⟩) bs := by
  rw [piecesFrom_some_cons, if_pos hfits, hleft]

theorem piecesFrom_broken (hfits : p.fits b = false) :
    piecesFrom (some p) (b :: bs) = none :: piecesFrom none (b :: bs) := by
  rw [piecesFrom_some_cons, hfits]
  rfl

end

/-- What is kept from byte to byte, where a character that breaks off is followed as if none had begun. -/
@[elab_as_elim]
theorem begun_induction {motive : Option Partial → List UInt8 → Prop}
    (nil : motive none [])
    (cut : ∀ p : Partial, p.IsLarge → motive (some p) [])
    (char : ∀ b c bs, start b = .char c → motive none bs → motive none (b :: bs))
    (part : ∀ b p bs, start b = .part p → motive (some p) bs → motive none (b :: bs))
    (flaw : ∀ b bs, start b = .flaw → motive none bs → motive none (b :: bs))
    (last : ∀ p b bs, p.IsLarge → p.fits b = true → p.left = 0 → motive none bs →
      motive (some p) (b :: bs))
    (more : ∀ p b bs left, p.IsLarge → p.fits b = true → p.left = left + 1 →
      motive (some ⟨p.extended b, continuation, left⟩) bs → motive (some p) (b :: bs))
    (broken : ∀ p b bs, p.IsLarge → p.fits b = false → motive none (b :: bs) →
      motive (some p) (b :: bs))
    (begun : Option Partial) (hbegun : ∀ p ∈ begun, p.IsLarge) (bs : List UInt8) : motive begun bs := by
  induction bs generalizing begun with
  | nil =>
    cases begun with
    | none => exact nil
    | some p => exact cut p (hbegun p rfl)
  | cons b bs ih =>
    have hfresh : motive none (b :: bs) := by
      cases hstart : start b with
      | char c => exact char b c bs hstart (ih none (by simp))
      | part p => exact part b p bs hstart (ih (some p) (by simpa using isLarge_of_start hstart))
      | flaw => exact flaw b bs hstart (ih none (by simp))
    cases begun with
    | none => exact hfresh
    | some p =>
      have hp : p.IsLarge := hbegun p rfl
      cases hfits : p.fits b with
      | false => exact broken p b bs hp hfits hfresh
      | true =>
        cases hleft : p.left with
        | zero => exact last p b bs hp hfits hleft (ih none (by simp))
        | succ left => exact more p b bs left hp hfits hleft (ih _ (by simpa using hp.extend hfits left))

/-- A line feed ends what has begun, and what follows is read by itself. -/
theorem piecesFrom_append_lineFeed (begun : Option Partial) (hbegun : ∀ p ∈ begun, p.IsLarge)
    (bs rest : List UInt8) :
    piecesFrom begun (bs ++ 0x0A :: rest) =
      piecesFrom begun bs ++ some '\n' :: piecesFrom none rest := by
  refine begun_induction ?nil ?cut ?char ?part ?flaw ?last ?more ?broken begun hbegun bs
  case nil =>
    rfl
  case cut =>
    intro p hp
    exact piecesFrom_broken hp.not_fits_lineFeed
  case char =>
    intro b c bs hstart ih
    rw [List.cons_append, piecesFrom_char hstart, piecesFrom_char hstart, ih, List.cons_append]
  case part =>
    intro b p bs hstart ih
    rw [List.cons_append, piecesFrom_part hstart, piecesFrom_part hstart, ih]
  case flaw =>
    intro b bs hstart ih
    rw [List.cons_append, piecesFrom_flaw hstart, piecesFrom_flaw hstart, ih, List.cons_append]
  case last =>
    intro p b bs _ hfits hleft ih
    rw [List.cons_append, piecesFrom_last hfits hleft, piecesFrom_last hfits hleft, ih, List.cons_append]
  case more =>
    intro p b bs left _ hfits hleft ih
    rw [List.cons_append, piecesFrom_more hfits hleft, piecesFrom_more hfits hleft, ih]
  case broken =>
    intro p b bs _ hfits ih
    rw [List.cons_append, piecesFrom_broken hfits, piecesFrom_broken hfits, ← List.cons_append, ih,
      List.cons_append]

/-- A line feed among the characters is one of the bytes. -/
theorem lineFeed_mem_of_newline_mem (begun : Option Partial) (hbegun : ∀ p ∈ begun, p.IsLarge)
    (bs : List UInt8) : some '\n' ∈ piecesFrom begun bs → 0x0A ∈ bs := by
  refine begun_induction ?nil ?cut ?char ?part ?flaw ?last ?more ?broken begun hbegun bs
  case nil => simp [piecesFrom]
  case cut => simp [piecesFrom]
  case char =>
    intro b c bs hstart ih
    rw [piecesFrom_char hstart, List.mem_cons]
    rintro (hc | hmem)
    · obtain rfl := Option.some.inj hc
      exact List.mem_cons.mpr (.inl (eq_lineFeed_of_start hstart).symm)
    · exact List.mem_cons_of_mem b (ih hmem)
  case part =>
    intro b p bs hstart ih hmem
    rw [piecesFrom_part hstart] at hmem
    exact List.mem_cons_of_mem b (ih hmem)
  case flaw =>
    intro b bs hstart ih hmem
    rw [piecesFrom_flaw hstart] at hmem
    exact List.mem_cons_of_mem b (ih (by simpa using hmem))
  case last =>
    intro p b bs hp hfits hleft ih
    rw [piecesFrom_last hfits hleft, List.mem_cons]
    rintro (hc | hmem)
    · exact absurd (Option.some.inj hc).symm (hp.ofNat_extended_ne hleft)
    · exact List.mem_cons_of_mem b (ih hmem)
  case more =>
    intro p b bs left _ hfits hleft ih hmem
    rw [piecesFrom_more hfits hleft] at hmem
    exact List.mem_cons_of_mem b (ih hmem)
  case broken =>
    intro p b bs _ hfits ih hmem
    rw [piecesFrom_broken hfits] at hmem
    exact ih (by simpa using hmem)

/-- Something is read where something has begun or there are bytes. -/
theorem eq_nil_of_piecesFrom (begun : Option Partial) (hbegun : ∀ p ∈ begun, p.IsLarge)
    (bs : List UInt8) : piecesFrom begun bs = [] → begun = none ∧ bs = [] := by
  refine begun_induction ?nil ?cut ?char ?part ?flaw ?last ?more ?broken begun hbegun bs
  case nil => simp
  case cut => simp [piecesFrom]
  case char =>
    intro b c bs hstart _
    simp [piecesFrom_char hstart]
  case part =>
    intro b p bs hstart ih h
    rw [piecesFrom_part hstart] at h
    exact absurd (ih h).1 (by simp)
  case flaw =>
    intro b bs hstart _
    simp [piecesFrom_flaw hstart]
  case last =>
    intro p b bs _ hfits hleft _
    simp [piecesFrom_last hfits hleft]
  case more =>
    intro p b bs left _ hfits hleft ih h
    rw [piecesFrom_more hfits hleft] at h
    exact absurd (ih h).1 (by simp)
  case broken =>
    intro p b bs _ hfits _
    simp [piecesFrom_broken hfits]

/-! ## Texts -/

/-- **A line feed behind bytes is one behind their text**, and what follows it is read by itself. -/
theorem characters_append_lineFeed (bs rest : List UInt8) :
    characters (bs ++ 0x0A :: rest) = characters bs ++ '\n' :: characters rest := by
  rw [characters, pieces, piecesFrom_append_lineFeed none (by simp), List.map_append]
  rfl

/-- Bytes without a line feed are a text without one. -/
theorem newline_notMem_characters {bs : List UInt8} (h : 0x0A ∉ bs) : '\n' ∉ characters bs := by
  intro hmem
  obtain ⟨piece, hpiece, hchar⟩ := List.mem_map.mp hmem
  cases piece with
  | none => exact absurd hchar (by decide)
  | some c =>
    obtain rfl : c = '\n' := hchar
    exact h (lineFeed_mem_of_newline_mem none (by simp) bs hpiece)

theorem characters_ne_nil {bs : List UInt8} (h : bs ≠ []) : characters bs ≠ [] := by
  rw [characters, ne_eq, List.map_eq_nil_iff]
  exact fun hnil => h (eq_nil_of_piecesFrom none (by simp) bs hnil).2

end Scratchpad.Utf8
