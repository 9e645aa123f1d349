/-!
# Similar words

How similar two words are, by the characters that they share. A character is shared if it stands in both
words at about the same place, and each character is shared at most once. The measure is the mean of three
parts: how much of the one word is shared, how much of the other, and how much of what is shared comes in
the same order.

## Main definitions

* `Similarity.shared`: the characters that two words share, as they come in each of them.
* `Similarity.measure`: how similar two words are, between zero and one.
* `Similarity.best?`: the word that is similar enough and most similar.
-/

namespace Scratchpad.Similarity

/-- Takes the first character that is equal to a given one from places within bounds, and tells which
characters are taken by then. -/
def take? (c : Char) (low high : Nat) : (place : Nat) → List (Char × Bool) → Option (List (Char × Bool))
  | _, [] => none
  | place, (d, isTaken) :: rest =>
    if high ≤ place then none
    else if low ≤ place ∧ c = d ∧ isTaken = false then some ((d, true) :: rest)
    else (take? c low high (place + 1) rest).map ((d, isTaken) :: ·)

/-- Goes through the first word from a place on and collects what it shares with the second. -/
def collect (reach : Nat) : (place : Nat) → List Char → List (Char × Bool) → List Char × List (Char × Bool)
  | _, [], taken => ([], taken)
  | place, c :: cs, taken =>
    match take? c (place - reach) (place + reach + 1) 0 taken with
    | none => collect reach (place + 1) cs taken
    | some taken =>
      let (found, taken) := collect reach (place + 1) cs taken
      (c :: found, taken)

/-- The characters that two words share, in the order of the first word and in that of the second. -/
def shared (a b : List Char) : List Char × List Char :=
  let reach := max a.length b.length / 2 - 1
  let (found, taken) := collect reach 0 a (b.map fun c => (c, false))
  (found, (taken.filter (·.2)).map (·.1))

/-- How similar two words are. -/
def measure (a b : String) : Float :=
  let (cs, ds) := (a.toList, b.toList)
  if cs.isEmpty && ds.isEmpty then 1
  else
    let (found, counterparts) := shared cs ds
    let misplaced := ((found.zip counterparts).filter fun (c, d) => c != d).length / 2
    let ratio (m n : Nat) : Float := Float.ofNat m / Float.ofNat n
    if found.isEmpty then 0
    else
      (ratio found.length cs.length + ratio found.length ds.length +
        ratio (found.length - misplaced) found.length) / 3

/-- Words that are less similar, or just so, are not similar enough. -/
def threshold : Float := 0.7

/-- The word that is similar enough and most similar. Of equally similar words the last one counts. -/
def best? (word : String) (candidates : List String) : Option String :=
  (candidates.foldl (fun (best : Option (Float × String)) candidate =>
    let m := measure word candidate
    if m > threshold && best.all (fun b => b.1 ≤ m) then some (m, candidate) else best) none).map (·.2)

end Scratchpad.Similarity
