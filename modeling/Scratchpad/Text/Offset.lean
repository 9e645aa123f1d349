/-!
# Offsets

How far a place of a text lies from its beginning, in bytes. A character takes one to four bytes, so not
every offset is a place between two characters.

## Main definitions

* `byteLength`: how many bytes a text takes.
* `cutAt?`: a text cut in two at an offset.
* `between?`: what stands between two offsets of a text.
* `offsetOf?`: where a text stands first in another.

## Main statements

* `utf8EncodeChar_eq`: the bytes of a character.
* `cutAt?_eq_some_iff`: what a text is cut into.
* `exists_eq_append_of_byteLength_le`: two texts that one text begins with.
* `between?_append`: what stands between two offsets.
* `exists_of_offsetOf?`, `not_isPrefix_of_offsetOf?`: what is found, and what is not.
-/

namespace Scratchpad.Text

/-- How many bytes a text takes. -/
def byteLength : List Char → Nat
  | [] => 0
  | c :: cs => c.utf8Size + byteLength cs

/-- What stands before an offset and what stands behind it. An offset that lies within a character or
behind the text is no place to cut. -/
def cutAt? : Nat → List Char → Option (List Char × List Char)
  | 0, cs => some ([], cs)
  | _ + 1, [] => none
  | n + 1, c :: cs =>
    if c.utf8Size ≤ n + 1 then
      (cutAt? (n + 1 - c.utf8Size) cs).map fun (before, after) => (c :: before, after)
    else none

/-- What stands between two offsets of a text. -/
def between? (start stop : Nat) (cs : List Char) : Option (List Char) := do
  if stop < start then none
  let (before, _) ← cutAt? stop cs
  let (_, part) ← cutAt? start before
  return part

/-- The offset at which a text stands first in another. -/
def offsetOf? (part : List Char) : List Char → Option Nat
  | [] => if part.isEmpty then some 0 else none
  | c :: cs => if part.isPrefixOf (c :: cs) then some 0 else (offsetOf? part cs).map (c.utf8Size + ·)

@[simp] theorem byteLength_nil : byteLength [] = 0 := rfl

@[simp] theorem byteLength_cons (c : Char) (cs : List Char) :
    byteLength (c :: cs) = c.utf8Size + byteLength cs := rfl

@[simp] theorem byteLength_append (xs ys : List Char) :
    byteLength (xs ++ ys) = byteLength xs + byteLength ys := by
  induction xs with
  | nil => simp
  | cons x xs ih => simp [ih, Nat.add_assoc]

/-- The bytes of a character, by its number. -/
theorem utf8EncodeChar_eq (c : Char) : String.utf8EncodeChar c =
    if c.toNat ≤ 127 then [UInt8.ofNat c.toNat]
    else if c.toNat ≤ 2047 then [UInt8.ofNat (c.toNat / 64 % 32 + 192), UInt8.ofNat (c.toNat % 64 + 128)]
    else if c.toNat ≤ 65535 then
      [UInt8.ofNat (c.toNat / 4096 % 16 + 224), UInt8.ofNat (c.toNat / 64 % 64 + 128),
        UInt8.ofNat (c.toNat % 64 + 128)]
    else
      [UInt8.ofNat (c.toNat / 262144 % 8 + 240), UInt8.ofNat (c.toNat / 4096 % 64 + 128),
        UInt8.ofNat (c.toNat / 64 % 64 + 128), UInt8.ofNat (c.toNat % 64 + 128)] :=
  rfl

/-- Every character takes a byte, so a text without bytes is empty. -/
theorem byteLength_eq_zero_iff {cs : List Char} : byteLength cs = 0 ↔ cs = [] := by
  cases cs with
  | nil => simp
  | cons c cs =>
    have hpos := c.utf8Size_pos
    simp
    omega

/-- **A text is cut where one text ends and another begins.** -/
theorem cutAt?_eq_some_iff {n : Nat} {cs before after : List Char} :
    cutAt? n cs = some (before, after) ↔ cs = before ++ after ∧ byteLength before = n := by
  fun_induction cutAt? n cs generalizing before after with
  | case1 cs =>
    rw [byteLength_eq_zero_iff]
    constructor
    · rintro ⟨⟩
      exact ⟨rfl, rfl⟩
    · rintro ⟨rfl, rfl⟩
      rfl
  | case2 n =>
    constructor
    · rintro ⟨⟩
    · rintro ⟨hnil, hlength⟩
      obtain ⟨rfl, -⟩ := List.append_eq_nil_iff.mp hnil.symm
      cases hlength
  | case3 n c cs hle ih =>
    constructor
    · intro h
      obtain ⟨⟨before', after'⟩, hcut, heq⟩ := Option.map_eq_some_iff.mp h
      obtain ⟨rfl, hlength⟩ := ih.mp hcut
      cases heq
      refine ⟨rfl, ?_⟩
      rw [byteLength_cons]
      omega
    · rintro ⟨hcs, hlength⟩
      cases before with
      | nil => cases hlength
      | cons b before =>
        obtain ⟨rfl, rfl⟩ := List.cons.inj hcs
        rw [byteLength_cons] at hlength
        rw [ih.mpr ⟨rfl, by omega⟩]
        rfl
  | case4 n c cs hlt =>
    constructor
    · rintro ⟨⟩
    · rintro ⟨hcs, hlength⟩
      cases before with
      | nil => cases hlength
      | cons b before =>
        -- within the first character
        obtain ⟨rfl, rfl⟩ := List.cons.inj hcs
        rw [byteLength_cons] at hlength
        omega

theorem cutAt?_byteLength (before after : List Char) :
    cutAt? (byteLength before) (before ++ after) = some (before, after) :=
  cutAt?_eq_some_iff.mpr ⟨rfl, rfl⟩

theorem le_byteLength_of_cutAt? {n : Nat} {cs before after : List Char}
    (h : cutAt? n cs = some (before, after)) : n ≤ byteLength cs := by
  obtain ⟨rfl, rfl⟩ := cutAt?_eq_some_iff.mp h
  rw [byteLength_append]
  omega

theorem between?_append (before part behind : List Char) :
    between? (byteLength before) (byteLength before + byteLength part) (before ++ (part ++ behind)) =
      some part := by
  have hstop : cutAt? (byteLength before + byteLength part) (before ++ (part ++ behind)) =
      some (before ++ part, behind) := by
    rw [← List.append_assoc, ← byteLength_append]
    exact cutAt?_byteLength ..
  have hordered : ¬ byteLength before + byteLength part < byteLength before := by omega
  simp only [between?, if_neg hordered, hstop, cutAt?_byteLength, Option.bind_eq_bind, Option.bind_some,
    Option.pure_def]

/-- A text that is found stands at the offset, and at no place before. -/
theorem exists_of_offsetOf? {part cs : List Char} {n : Nat} (h : offsetOf? part cs = some n) :
    ∃ before after, cs = before ++ (part ++ after) ∧ byteLength before = n ∧
      ∀ xs ys, before = xs ++ ys → ys ≠ [] → ¬ part <+: ys ++ (part ++ after) := by
  induction cs generalizing n with
  | nil =>
    rw [offsetOf?] at h
    split at h
    · rename_i hempty
      obtain rfl : part = [] := List.isEmpty_iff.mp hempty
      exact ⟨[], [], rfl, Option.some.inj h, by simp⟩
    · cases h
  | cons c cs ih =>
    rw [offsetOf?] at h
    split at h
    · rename_i hprefix
      obtain ⟨after, hafter⟩ := List.isPrefixOf_iff_prefix.mp hprefix
      exact ⟨[], after, hafter.symm, Option.some.inj h, by simp⟩
    · rename_i hprefix
      obtain ⟨n, hn, rfl⟩ := Option.map_eq_some_iff.mp h
      obtain ⟨before, after, rfl, rfl, hnone⟩ := ih hn
      refine ⟨c :: before, after, rfl, rfl, ?_⟩
      intro xs ys hparts hys
      cases xs with
      | nil =>
        obtain rfl : c :: before = ys := hparts
        exact fun hbegins => hprefix (List.isPrefixOf_iff_prefix.mpr hbegins)
      | cons x xs => exact hnone xs ys (List.cons.inj hparts).2 hys

/-- A text that is not found stands nowhere. -/
theorem not_isPrefix_of_offsetOf? {part cs : List Char} (h : offsetOf? part cs = none) (xs ys : List Char)
    (hparts : cs = xs ++ ys) : ¬ part <+: ys := by
  induction cs generalizing xs with
  | nil =>
    obtain ⟨rfl, rfl⟩ := List.append_eq_nil_iff.mp hparts.symm
    rintro ⟨rest, hrest⟩
    obtain ⟨rfl, -⟩ := List.append_eq_nil_iff.mp hrest
    cases h
  | cons c cs ih =>
    rw [offsetOf?] at h
    split at h
    · cases h
    · rename_i hprefix
      cases xs with
      | nil =>
        obtain rfl : c :: cs = ys := hparts
        exact fun hbegins => hprefix (List.isPrefixOf_iff_prefix.mpr hbegins)
      | cons x xs => exact ih (Option.map_eq_none_iff.mp h) xs (List.cons.inj hparts).2

/-- Of two texts that one text begins with, the one with fewer bytes begins the other. -/
theorem exists_eq_append_of_byteLength_le {xs ys us vs : List Char} (h : xs ++ ys = us ++ vs)
    (hle : byteLength xs ≤ byteLength us) : ∃ part, us = xs ++ part ∧ ys = part ++ vs := by
  rcases List.append_eq_append_iff.mp h with ⟨part, hus, hys⟩ | ⟨part, hxs, hvs⟩
  · exact ⟨part, hus, hys⟩
  · rw [hxs, byteLength_append] at hle
    obtain rfl : part = [] := byteLength_eq_zero_iff.mp (by omega)
    exact ⟨[], by simpa using hxs.symm, by simpa using hvs.symm⟩

/-- A position behind a text lies behind its bytes, and the other way round. -/
theorem byteLength_le_take_iff {xs ys : List Char} {pos : Nat} :
    byteLength xs ≤ byteLength ((xs ++ ys).take pos) ↔ xs.length ≤ pos := by
  constructor
  · intro hle
    obtain ⟨part, htake, -⟩ :=
      exists_eq_append_of_byteLength_le (List.take_append_drop pos (xs ++ ys)).symm hle
    have hlength := congrArg List.length htake
    simp only [List.length_take, List.length_append] at hlength
    omega
  · intro hle
    rw [List.take_append, List.take_of_length_le hle, byteLength_append]
    omega

end Scratchpad.Text
