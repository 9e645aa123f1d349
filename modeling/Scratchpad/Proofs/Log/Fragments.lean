import Scratchpad.Proofs.Log.Interleaving
import Scratchpad.Proofs.Text.Lossy

/-!
# Reading in fragments

The bytes that a program writes arrive in fragments of any length. What comes out of its pipe is the text of the
bytes, cut behind each line feed and nowhere else. So the entries that are read are those of the text, whatever the
fragments were, and even if some of the bytes are flaws.

## Main statements

* `Pipe.chunks_lossless`: what the chunks of a pipe are, and what is read of them.
-/

namespace Scratchpad.Sandbox.Pipe

open Log

/-- **Nothing is lost or added on the way through a pipe.** However the bytes that a program writes are
fragmented, the chunks that come out are their text, in which one sign stands for each flaw. No chunk is empty, a
line feed is nowhere but at the end of a chunk, and each chunk except the last one has it there. So what is read
depends on the bytes only. -/
theorem chunks_lossless (fragments : List (List UInt8)) :
    String.join (chunks fragments) = Utf8.decode fragments.flatten ∧
    (∀ text, Utf8.Lossy fragments.flatten text ↔ text = (String.join (chunks fragments)).toList) ∧
    (∀ c ∈ chunks fragments, c ≠ "" ∧ '\n' ∉ c.toList.dropLast) ∧
    (∀ c ∈ (chunks fragments).dropLast, c.toList.getLast? = some '\n') ∧
    (∀ matchLines, LineReader.read matchLines (chunks fragments) =
      LineReader.entriesOf matchLines (Utf8.decode fragments.flatten)) ∧
    ∀ others : List (List UInt8), others.flatten = fragments.flatten → chunks others = chunks fragments := by
  have hframed : Framed (chunks fragments) := framed_chunks fragments
  refine ⟨join_chunks fragments, fun text => ?_, hframed.forall_mem, hframed.forall_mem_dropLast, fun matchLines => ?_, ?_⟩
  · rw [join_chunks, Utf8.decode, String.toList_ofList]
    exact Utf8.lossy_iff
  · rw [LineReader.read_eq_entriesOf, join_chunks]
  · intro others hothers
    exact chunks_eq_of_flatten hothers

/-- A character is cut in two, and another one is cut off by a line feed. -/
example : chunks [[0x61, 0xC3], [0xA9, 0xE2, 0x82], [0x0A, 0x62]] = ["aé\uFFFD\n", "b"] := by
  decide

end Scratchpad.Sandbox.Pipe
