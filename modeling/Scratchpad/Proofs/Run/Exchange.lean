import Scratchpad.Proofs.Json.Decoding
import Scratchpad.Proofs.Log.Tagging
import Scratchpad.Run.Display

/-!
# Events for other programs

An event that is written for other programs is a line of its own, and whoever splits what has been written into
lines and reads every line gets the events back, whatever the strings in them hold.

## Main definitions

* `Stamped.value`, `Outcome.value`: what a stamped entry and an outcome are read as before they are decoded.
* `textOn`: what is written on a channel.

## Main statements

* `Stamped.decodes`, `Outcome.decodes`, `Message.decodes`: a stamped entry, an outcome and an event are read back.
* `json_lines_round_trip`: so are any number of events.
-/

namespace Scratchpad

open Json

/-! ## Stamped entries -/

namespace Log

namespace Stamped

variable (s : Stamped) (depth : Nat)

/-- The fields of a stamped entry. -/
def members : List Member :=
  [⟨"id", written s.id, .text s.id⟩, ⟨"content", written s.entry.content, .text s.entry.content⟩] ++
    (s.entry.line.toList.map fun n => ⟨"line", toString (n.toNat : Int), .whole n.toNat⟩) ++
    [⟨"method", written s.entry.method.name, .text s.entry.method.name⟩,
      ⟨"timestamp", toString (s.timestamp.toNat : Int), .whole s.timestamp.toNat⟩]

/-- What a stamped entry is read as before it is decoded. -/
def value : Value := .object (s.members.map Member.meaning)

theorem json_eq : s.json = writtenObject (s.members.map Member.spelling) := by
  rcases s with ⟨id, timestamp, method, _ | n, content⟩ <;> rfl

theorem spells_word {n : Nat} (h : n < UInt64.size) : Spells depth (toString (n : Int)) (.whole n) :=
  spells_toString depth (by omega) (Int.ofNat_le.mpr (Nat.le_pred_of_lt h))

theorem spells : Spells (depth + 1) s.json s.value := by
  rw [json_eq]
  refine spells_object fun m hm => ?_
  simp only [members, List.mem_append, List.mem_cons, List.mem_map, List.not_mem_nil, or_false] at hm
  obtain ((rfl | rfl) | ⟨n, -, rfl⟩) | rfl | rfl := hm
  · exact spells_written depth s.id
  · exact spells_written depth s.entry.content
  · exact spells_word depth (Nat.lt_trans n.toNat_lt (by decide))
  · exact spells_written depth s.entry.method.name
  · exact spells_word depth s.timestamp.toNat_lt

theorem decodes_word {n size : Nat} {expected : String} (hsize : size ≤ UInt64.size) (h : n < size) :
    Decodes (Decoder.whole 0 (size - 1) expected) depth (toString (n : Int)) (.whole n) n :=
  decodes_whole (by omega) (Int.ofNat_le.mpr (Nat.le_pred_of_lt (Nat.lt_of_lt_of_le h hsize))) (by omega) (by omega)

theorem decodes_word32 (n : UInt32) : Decodes word32 depth (toString (n.toNat : Int)) (.whole n.toNat) n := by
  have hword : Decodes word32 depth _ (.whole n.toNat) (UInt32.ofNat (n.toNat : Int).toNat) :=
    (decodes_word depth (by decide) n.toNat_lt).map _
  rwa [Int.toNat_natCast, UInt32.ofNat_toNat] at hword

theorem decodes_word64 (n : UInt64) : Decodes word64 depth (toString (n.toNat : Int)) (.whole n.toNat) n := by
  have hword : Decodes word64 depth _ (.whole n.toNat) (UInt64.ofNat (n.toNat : Int).toNat) :=
    (decodes_word depth (Nat.le_refl _) n.toNat_lt).map _
  rwa [Int.toNat_natCast, UInt64.ofNat_toNat] at hword

theorem decodes_method (m : Method) : Decodes methodDecoder depth (written m.name) (.text m.name) m :=
  decodes_oneOf (by cases m <;> rfl)

/-- A line begins with a digit, and not like what stands for no line. -/
theorem decodes_line (n : UInt32) :
    Decodes word32.optional depth (toString (n.toNat : Int)) (.whole n.toNat) (some n) := by
  obtain ⟨c, cs, hc, hdigit⟩ := Number.exists_cons_toDigits n.toNat
  have hs : (toString (n.toNat : Int)).toList = c :: cs := by
    change (toString n.toNat).toList = _
    simp [hc]
  have hnull : c ≠ 'n' := Number.ne_of_isDigit hdigit rfl
  exact decodes_optional (decodes_word32 depth n) ⟨c, cs, hs, isBlank_of_isDigit hdigit, hnull⟩ Value.noConfusion

theorem builds : shape.Builds depth s.members shape.blank
    ⟨some s.id, some s.entry.content, s.entry.line.map some, some s.entry.method, some s.timestamp⟩ := by
  have hid := (decodes_text depth s.id).map fun id (d : Draft) => { d with id := some id }
  have hcontent := (decodes_text depth s.entry.content).map fun content (d : Draft) =>
    { d with content := some content }
  have hmethod := (decodes_method depth s.entry.method).map fun m (d : Draft) => { d with method := some m }
  have htimestamp := (decodes_word64 depth s.timestamp).map fun t (d : Draft) => { d with timestamp := some t }
  rcases s with ⟨id, timestamp, method, _ | n, content⟩
  · exact .cons rfl rfl hid (.cons rfl rfl hcontent (.cons rfl rfl hmethod (.cons rfl rfl htimestamp (.nil _))))
  · have hline := (decodes_line depth n).map fun line (d : Draft) => { d with line := some line }
    exact .cons rfl rfl hid (.cons rfl rfl hcontent (.cons rfl rfl hline (.cons rfl rfl hmethod
      (.cons rfl rfl htimestamp (.nil _)))))

/-- **A stamped entry is read back.** -/
theorem decodes : Decodes decoder (depth + 1) s.json s.value s := by
  rw [json_eq]
  refine (s.builds depth).decodes ?_
  rcases s with ⟨id, timestamp, method, _ | n, content⟩ <;> rfl

end Stamped

end Log

namespace Run

open Log

/-! ## Outcomes -/

namespace Outcome

variable (outcome : Outcome) (depth : Nat)

/-- The field of an outcome that tells its kind. -/
def status : Outcome → String
  | completed _ => "completed"
  | failed _ => "failed"
  | killed => "killed"

/-- The other fields of an outcome. -/
def members : Outcome → List Member
  | completed code => [⟨"exit_code", toString code.toInt, .whole code.toInt⟩]
  | failed message => [⟨"message", written message, .text message⟩]
  | killed => []

/-- What an outcome is read as before it is decoded. -/
def value : Value := .object ((tagged.tagMember outcome.status :: outcome.members).map Member.meaning)

theorem json_eq :
    outcome.json = writtenObject ((tagged.tagMember outcome.status :: outcome.members).map Member.spelling) := by
  cases outcome <;> rfl

theorem spells_signedWord (code : Int32) : Spells depth (toString code.toInt) (.whole code.toInt) :=
  spells_toString depth (Int.le_trans (by decide) code.minValue_le_toInt)
    (Int.le_trans code.toInt_le (by decide))

theorem spells_members : ∀ m ∈ outcome.members, m.name ≠ tagged.tag ∧ Spells depth m.text m.value := by
  cases outcome with
  | completed code => exact List.forall_mem_singleton.mpr ⟨by simp [tagged], spells_signedWord depth code⟩
  | failed message => exact List.forall_mem_singleton.mpr ⟨by simp [tagged], spells_written depth message⟩
  | killed => exact List.forall_mem_nil _

theorem decodes_signedWord (code : Int32) :
    Decodes signedWord depth (toString code.toInt) (.whole code.toInt) code := by
  have hword : Decodes signedWord depth _ (.whole code.toInt) (Int32.ofInt code.toInt) :=
    (decodes_whole (Int.le_trans (by decide) code.minValue_le_toInt) (Int.le_trans code.toInt_le (by decide))
      code.minValue_le_toInt code.toInt_le).map _
  rwa [Int32.ofInt_toInt] at hword

theorem spells : Spells (depth + 1) outcome.json outcome.value := by
  rw [json_eq]
  refine spells_object (List.forall_mem_cons.mpr ⟨spells_written depth outcome.status, fun m hm => ?_⟩)
  exact (outcome.spells_members depth m hm).2

/-- **An outcome is read back.** -/
theorem decodes : Decodes decoder (depth + 1) outcome.json outcome.value outcome := by
  rw [json_eq]
  have hmembers := outcome.spells_members depth
  cases outcome with
  | completed code =>
    refine Tagged.decodes rfl hmembers ?_
    have hcode := (decodes_signedWord depth code).map fun n (_ : Option Int32) => some n
    exact (Shape.Builds.decodes (.cons rfl rfl hcode (.nil _)) rfl).fromValue
  | failed message =>
    refine Tagged.decodes rfl hmembers ?_
    have hmessage := (decodes_text depth message).map fun s (_ : Option String) => some s
    exact (Shape.Builds.decodes (.cons rfl rfl hmessage (.nil _)) rfl).fromValue
  | killed => exact Tagged.decodes rfl hmembers rfl

end Outcome

/-! ## Events -/

namespace Message

variable (m : Message) (depth : Nat)

/-- The field of an event that tells its kind. -/
def kind : Message → String
  | .started .. => "started"
  | .output .. => "output"
  | .finished .. => "finished"

/-- The other fields of an event. -/
def members : Message → List Member
  | .started run source => [⟨"run_id", written run, .text run⟩, ⟨"source_id", written source, .text source⟩]
  | .output run entries => [⟨"run_id", written run, .text run⟩,
      ⟨"entries", writtenList (entries.map Stamped.json), .list (entries.map Stamped.value)⟩]
  | .finished run outcome => [⟨"run_id", written run, .text run⟩, ⟨"outcome", outcome.json, outcome.value⟩]

theorem json_eq : m.json = writtenObject ((tagged.tagMember m.kind :: m.members).map Member.spelling) := by
  cases m <;> rfl

theorem spells_members : ∀ x ∈ m.members, x.name ≠ tagged.tag ∧ Spells (depth + 2) x.text x.value := by
  have hpair {x y : Member} {p : Member → Prop} (hx : p x) (hy : p y) : ∀ z ∈ [x, y], p z :=
    List.forall_mem_cons.mpr ⟨hx, List.forall_mem_singleton.mpr hy⟩
  cases m with
  | started run source =>
    exact hpair ⟨by simp [tagged], spells_written _ run⟩ ⟨by simp [tagged], spells_written _ source⟩
  | output run entries =>
    exact hpair ⟨by simp [tagged], spells_written _ run⟩
      ⟨by simp [tagged], spells_list fun (e : Stamped) _ => e.spells depth⟩
  | finished run outcome =>
    exact hpair ⟨by simp [tagged], spells_written _ run⟩ ⟨by simp [tagged], outcome.spells (depth + 1)⟩

theorem decodes_entries (entries : List Stamped) : Decodes entriesDecoder (depth + 2)
    (writtenList (entries.map Stamped.json)) (.list (entries.map Stamped.value)) entries := by
  have hvalue : entriesDecoder.fromValue (.list (entries.map Stamped.value)) = .ok entries := by
    change (entries.map Stamped.value).mapM Stamped.decoder.fromValue = .ok entries
    induction entries with
    | nil => rfl
    | cons e entries ih =>
      rw [List.map_cons, List.mapM_cons, (e.decodes depth).fromValue, ih]
      rfl
  refine ⟨fun {cs} hcs => ?_, hvalue⟩
  refine ((spells_list fun (e : Stamped) _ => e.spells depth).takes_value hcs).bind ?_
  change Reader.Takes (Decoder.lift (entriesDecoder.fromValue (.list (entries.map Stamped.value)))) cs entries cs
  rw [hvalue]
  exact Reader.takes_pure entries cs

/-- What is told of a run is put together from its name and one more field. -/
theorem shape_fromValue {α : Type} {decoder : Decoder α} {event : String → α → Message} {name field run text : String}
    {v : Value} {a : α} (hfield : field ≠ "run_id") (h : Decodes decoder depth text v a) :
    (shape name field decoder event).fromValue (.object [("run_id", .text run), (field, v)]) = .ok (event run a) := by
  have hrun := (decodes_text depth run).map fun s (d : Draft α) => (some s, d.2)
  have ha := h.map fun a (d : Draft α) => (d.1, some a)
  have hfind : (shape name field decoder event).field? field =
      some ⟨field, (·.2.isSome), decoder.map fun a d => (d.1, some a), false⟩ := by
    refine (List.find?_cons_of_neg ?_).trans (List.find?_cons_of_pos ?_)
    · exact (Bool.eq_false_iff.mp (beq_false_of_ne hfield.symm))
    · exact beq_self_eq_true field
  have hbuilds : (shape name field decoder event).Builds depth [⟨"run_id", written run, .text run⟩, ⟨field, text, v⟩]
      (none, none) (some run, some a) := .cons rfl rfl hrun (.cons hfind rfl ha (.nil _))
  exact (hbuilds.decodes rfl).fromValue

/-- **An event is read back.** -/
theorem decodes : Decodes tagged.decoder (depth + 3) m.json
    (.object ((tagged.tagMember m.kind :: m.members).map Member.meaning)) m := by
  rw [json_eq]
  have hmembers := m.spells_members depth
  cases m with
  | started run source =>
    exact Tagged.decodes rfl hmembers (shape_fromValue depth (by decide) (decodes_text depth source))
  | output run entries =>
    exact Tagged.decodes rfl hmembers (shape_fromValue _ (by decide) (decodes_entries depth entries))
  | finished run outcome =>
    exact Tagged.decodes rfl hmembers (shape_fromValue _ (by decide) (outcome.decodes depth))

/-- An event is a single line. -/
theorem newline_notMem_json : '\n' ∉ m.json.toList := by
  have hspells : Spells 3 m.json (.object ((tagged.tagMember m.kind :: m.members).map Member.meaning)) := by
    rw [json_eq]
    refine spells_object (List.forall_mem_cons.mpr ⟨spells_written 2 m.kind, fun x hx => ?_⟩)
    exact (m.spells_members 0 x hx).2
  exact hspells.isLine

/-! ## Lines of events -/

/-- What is written on a channel: its lines, and a line feed behind each of them. -/
def textOn (channel : Channel) (lines : List (Channel × String)) : String :=
  String.join ((lines.filter (·.1 == channel)).map (·.2 ++ "\n"))

/-- What is written of events for other programs. -/
def transcript (ms : List Message) : List Char := (textOn .standardOutput (ms.flatMap (lines true))).toList

theorem transcript_cons (ms : List Message) : transcript (m :: ms) = m.json.toList ++ '\n' :: transcript ms := by
  simp [transcript, textOn, lines]

theorem count_transcript (ms : List Message) : (transcript ms).count '\n' = ms.length := by
  induction ms with
  | nil => rfl
  | cons m ms ih =>
    rw [transcript_cons, List.count_append, List.count_cons_self, ih, List.count_eq_zero.mpr m.newline_notMem_json,
      Nat.zero_add, List.length_cons]

/-- The lines of what has been written are the events, and nothing is left behind them. -/
theorem completeLines_transcript (ms : List Message) :
    completeLines (transcript ms) = (ms.map fun m => m.json.toList, []) := by
  induction ms with
  | nil => rfl
  | cons m ms ih => rw [transcript_cons, completeLines_line m.newline_notMem_json, ih, List.map_cons]

end Message

/-- **Events, entries and outcomes are read back** from what is written of them for other programs. As many line feeds
as events are written, so that every event is a line. -/
theorem json_lines_round_trip :
    (∀ ms : List Message, (Message.transcript ms).count '\n' = ms.length ∧
      (completeLines (Message.transcript ms)).1.map (fun line => Message.ofJson (String.ofList line)) = ms.map .ok ∧
      (completeLines (Message.transcript ms)).2 = []) ∧
    (∀ s : Stamped, '\n' ∉ s.json.toList ∧ Stamped.ofJson s.json = .ok s) ∧
    ∀ outcome : Outcome, '\n' ∉ outcome.json.toList ∧ Outcome.ofJson outcome.json = .ok outcome := by
  refine ⟨fun ms => ?_, fun s => ?_, fun outcome => ?_⟩
  · have hread (m : Message) : Message.ofJson (String.ofList m.json.toList) = .ok m := by
      rw [String.ofList_toList]
      exact (m.decodes 124).document
    rw [Message.completeLines_transcript, List.map_map]
    exact ⟨Message.count_transcript ms, List.map_congr_left fun m _ => hread m, rfl⟩
  · exact ⟨(s.spells 0).isLine, (s.decodes 126).document⟩
  · exact ⟨(outcome.spells 0).isLine, (outcome.decodes 126).document⟩

end Run

end Scratchpad
