import Mathlib.Data.List.Basic
import Scratchpad.Compilation
import Scratchpad.Preamble
import Scratchpad.Proofs.TypeScript.ImportLine

/-!
# The module that runs a compiled source

The entry is a line that imports the preamble, with a compiled source behind it. It is read as that import and
then as what the compiled source holds, every token of which is what it is without the line. What may stand only
at the very beginning of a file does not stand there any more: compilation keeps a line that names an
interpreter, and such a line makes of the entry what is no module.

## Main definitions

* `Entry.source`: the text of an entry, as it is read.
* `Entry.preambleImport`: the import of the preamble.

## Main statements

* `Entry.parse_composeEntry`: what is read of an entry.
* `Entry.interpreter_line_is_misplaced`: an entry that is no module.
-/

namespace Scratchpad

open TypeScript Text

/-- A line that names an interpreter stays the first line when the source is compiled. -/
theorem exists_compile_hashBang {source js : String} (h : compile source = .ok js) {tail : List Char}
    (hsource : withoutEncodingMark source.toList = '#' :: '!' :: tail) :
    ∃ more, js.toList = '#' :: '!' :: (tail.takeWhile (!isLineBreak ·) ++ '\n' :: more) := by
  obtain ⟨document, hparse, rfl⟩ := exists_of_compile hsource h
  have hshebang : document.withoutTypes.shebang = some (String.ofList (tail.takeWhile (!isLineBreak ·))) :=
    (Document.shebang_of_parse_hashBang hparse : document.shebang = _)
  obtain ⟨more, hmore⟩ := Document.exists_print hshebang
  exact ⟨more, by rw [hmore, String.toList_ofList]⟩

namespace Entry

/-! ## The line in front -/

/-- The name under which an entry imports the preamble. -/
def preambleName : String := "./" ++ preambleFile

theorem length_preambleName : preambleName.toList.length = 19 := by decide

theorem plain_preambleName : ∀ c ∈ preambleName.toList, c ≠ '"' ∧ c ≠ '\n' ∧ c ≠ '\r' ∧ c ≠ '\\' := by
  simp [preambleName, preambleFile]

theorem toList_composeEntry (js : String) :
    (composeEntry js).toList = importLine preambleName.toList ++ js.toList := by
  have hline : ("import \"./" ++ preambleFile ++ "\";\n").toList = importLine preambleName.toList := by decide
  rw [composeEntry, String.toList_append, hline]

/-- The import of the preamble. -/
def preambleImport : Node :=
  .importDeclaration 0 false [] (.literal 7 (.text (inQuotes preambleName) preambleName)) .absent

theorem node_preambleName : ImportLine.node preambleName.toList = preambleImport := by
  have hquotes (s : String) : String.ofList ('"' :: s.toList ++ ['"']) = inQuotes s := by
    rw [← String.toList_inj, inQuotes]
    simp
  rw [ImportLine.node, hquotes, String.ofList_toList]
  rfl

/-! ## What stands behind it -/

/-- The text of an entry, as it is read. -/
def source (js : String) : Source := (composeEntry js).toList.toArray

/-- Where reading an entry begins. -/
def start (js : String) : State :=
  { source := source js, token := ImportLine.word, mode := Document.moduleMode }

/-- Where reading an entry stands behind its first line. -/
def behindPreamble (js : String) : State :=
  { source := source js, token := ⟨.mark ";", 28, 29, false, []⟩, lastStop := 29, lastStart := 28,
    mode := Document.moduleMode }

theorem behind_start (js : String) : ImportLine.behind preambleName.toList (start js) = behindPreamble js := by
  rw [ImportLine.behind, ImportLine.semicolon, length_preambleName]
  rfl

theorem next_preambleName (rest : List Char) :
    ImportLine.next preambleName.toList rest = (scanToken rest.toArray 0).shift 30 := by
  rw [ImportLine.next, length_preambleName]

/-- The first item of an entry is the import of the preamble, and the others are read from behind it on. -/
theorem parse_eq_map (js : String) :
    Document.parse true (composeEntry js) =
      (Document.itemsFrom ((scanToken js.toList.toArray 0).shift 30) ((source js).size + 1)
        (behindPreamble js)).map fun items => { items := preambleImport :: items } := by
  rw [Document.parse_importLine (toList_composeEntry js) plain_preambleName, next_preambleName,
    node_preambleName, ← behind_start, source, List.size_toArray]
  rfl

/-- An entry whose compiled source begins with a line that names an interpreter is no module. -/
theorem parse_of_hashBang {js : String} {tail : List Char} (hjs : js.toList = '#' :: '!' :: tail)
    (htail : tail.head? ≠ some '=') :
    Document.parse true (composeEntry js) = .error ⟨31, .identifierExpected⟩ := by
  have hs : (source js).toList = importLine preambleName.toList ++ '#' :: '!' :: tail := by
    rw [← hjs]
    exact toList_composeEntry js
  have herror := Document.itemsFrom_hashBang (s := start js) hs htail (source js).size
  rw [next_preambleName, behind_start, length_preambleName, ← hjs] at herror
  rw [parse_eq_map, herror]
  rfl

/-- **What is read of an entry.** If the source names an interpreter in its first line, so does the compiled
source, and the entry is no module, because only the very first line of a file may do so. (A name that begins
with an equals sign is left out: its line is read as a comparison, without its left side.) Any entry is read as
the import of the preamble, which comes first, and what a module holds from the first token of the compiled
source on; and every token of the compiled source is read thirty characters further on as what it is. -/
theorem parse_composeEntry {text js : String} (h : compile text = .ok js) :
    (∀ tail, withoutEncodingMark text.toList = '#' :: '!' :: tail → tail.head? ≠ some '=' →
      (∃ more, js.toList = '#' :: '!' :: more) ∧
        Document.parse true (composeEntry js) = .error ⟨31, .identifierExpected⟩) ∧
    Document.parse true (composeEntry js) =
      (Document.itemsFrom ((scanToken js.toList.toArray 0).shift 30) ((source js).size + 1)
        (behindPreamble js)).map (fun items => { items := preambleImport :: items }) ∧
    ∀ i, 0 < i → scanToken (source js) (30 + i) = (scanToken js.toList.toArray i).shift 30 := by
  refine ⟨fun tail htext htail => ?_, parse_eq_map js, fun i hi => ?_⟩
  · obtain ⟨more, hmore⟩ := exists_compile_hashBang h htext
    have hname : (tail.takeWhile (!isLineBreak ·) ++ '\n' :: more).head? ≠ some '=' := by
      cases tail with
      | nil => simp
      | cons c tail =>
        rw [List.takeWhile_cons]
        split
        · exact htail
        · simp
    exact ⟨⟨_, hmore⟩, parse_of_hashBang hmore hname⟩
  · have hbehind := ImportLine.scanToken_behind (s := source js) (toList_composeEntry js) hi
    rwa [length_preambleName] at hbehind

theorem parse_composeEntry_env :
    let text := "#!/usr/bin/env node"
    let js := "#!/usr/bin/env node\n"
    compile text = .ok js ∧ Document.parse true (composeEntry js) = .error ⟨31, .identifierExpected⟩ := by
  intro text js
  have htext : text = "#!/usr/bin/env node" := rfl
  have hjs : js = "#!/usr/bin/env node\n" := rfl
  clear_value text js
  have hcompile : compile text = .ok js := by
    subst htext hjs
    decide +kernel
  have htail : withoutEncodingMark text.toList = '#' :: '!' :: "/usr/bin/env node".toList := by
    subst htext
    decide +kernel
  exact ⟨hcompile, ((parse_composeEntry hcompile).1 _ htail (by decide)).2⟩

/-- **An entry that is no module.** The line that names an interpreter stands behind the import. -/
theorem interpreter_line_is_misplaced :
    ¬ ∀ text js : String, compile text = .ok js →
      ∃ items, Document.parse true (composeEntry js) = .ok { items := preambleImport :: items } := by
  have hcompile : ∀ text js, text = "#!/usr/bin/env node" → js = "#!/usr/bin/env node\n" →
      compile text = .ok js := by
    rintro _ _ rfl rfl
    decide +kernel
  have hparse : ∀ js, js = "#!/usr/bin/env node\n" →
      (Document.parse true (composeEntry js)).toOption.isSome = false := by
    rintro _ rfl
    decide +kernel
  intro hall
  obtain ⟨items, h⟩ := hall _ _ (hcompile _ _ rfl rfl)
  have hnone := hparse _ rfl
  rw [h] at hnone
  cases hnone

end Entry

end Scratchpad
