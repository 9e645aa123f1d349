import Scratchpad.Proofs.Slot.Move

/-!
# The grammar of events

Whoever has always listened is told of one run after another. A run is told in one block: that it starts,
what it prints, and how it ends. Every start begins a block, and the block of a run is open for as long as
the run is active. So nothing is told of a run before its start or after its end, and what two runs print
is never mixed.

## Main definitions

* `Slot.Block`: what is told of a run.
* `Slot.Tells`: blocks that fit a slot.

## Main statements

* `Slot.Tells.move`: every move keeps the blocks fitting, and makes them longer by what it tells.
* `Slot.exists_blocks`: the story is a sequence of blocks.
* `Slot.received_eq_blocks`: so is what the first subscriber has received.
-/

namespace Scratchpad.Run

open Log

namespace Slot

/-- What is told of a run. The outcome is missing while the run is active. -/
structure Block where
  run : Nat
  source : String
  batches : List (List Entry)
  outcome : Option Outcome
deriving DecidableEq, Repr

namespace Block

/-- The events of a block: a start, what is printed, and an end unless it is missing. -/
def events (b : Block) : List (Event Nat Entry) :=
  .started b.run b.source ::
    b.batches.map (.output b.run) ++ b.outcome.toList.map (.finished b.run)

theorem run_of_mem_events {b : Block} {e : Event Nat Entry} (he : e ∈ b.events) : e.run = b.run := by
  simp only [events, List.mem_cons, List.mem_append, List.mem_map] at he
  rcases he with (rfl | ⟨batch, -, rfl⟩) | ⟨outcome, -, rfl⟩ <;> rfl

/-- One more batch makes the block of a run longer by one event. -/
theorem events_print {b : Block} (hb : b.outcome = none) (batch : List Entry) :
    { b with batches := b.batches ++ [batch] }.events = b.events ++ [.output b.run batch] := by
  simp [events, hb]

/-- An end makes the block of a run longer by one event. -/
theorem events_close {b : Block} (hb : b.outcome = none) (outcome : Outcome) :
    { b with outcome := some outcome }.events = b.events ++ [.finished b.run outcome] := by
  simp [events, hb]

/-- Blocks get longer by what the last of them does. -/
theorem flatMap_events_last {init : List Block} {b c : Block} {e : Event Nat Entry}
    (h : c.events = b.events ++ [e]) :
    (init ++ [c]).flatMap events = (init ++ [b]).flatMap events ++ [e] := by
  rw [List.flatMap_append, List.flatMap_append, List.append_assoc]
  simp [h]

end Block

/-- Blocks that fit a slot: one for each run in order, with no empty batch, and open if the run is active. -/
structure Tells (blocks : List Block) (s : Slot) : Prop where
  runs : blocks.map Block.run = List.range s.handles.length
  nonempty : ∀ b ∈ blocks, ∀ batch ∈ b.batches, batch ≠ []
  open_iff : ∀ b ∈ blocks, b.outcome = none ↔ s.active = some b.run

namespace Tells

variable {blocks : List Block} {s : Slot}

theorem length_eq (h : Tells blocks s) : blocks.length = s.handles.length := by
  simpa using congrArg List.length h.runs

/-- The block of the active run is the last one. -/
theorem exists_last (h : Tells blocks s) (hs : s.Coherent) {run : Nat} (ha : s.active = some run) :
    ∃ init b, blocks = init ++ [b] ∧ b.run = run ∧ b.outcome = none ∧ ∀ c ∈ init, c.run < run := by
  have hlen := hs.latest run ha
  have hruns := h.runs
  rw [← hlen, List.range_succ] at hruns
  obtain ⟨init, last, rfl, hinit, hlast⟩ := List.map_eq_append_iff.mp hruns
  obtain ⟨b, rfl, rfl⟩ := List.map_eq_singleton_iff.mp hlast
  refine ⟨init, b, rfl, rfl, (h.open_iff b (by simp)).mpr ha, fun c hc => ?_⟩
  have hmem : c.run ∈ init.map Block.run := List.mem_map_of_mem hc
  simpa [hinit] using hmem

/-- The last block may be replaced by one of the same run. -/
theorem replace_last {init : List Block} {b c : Block} {t : Slot} (h : Tells (init ++ [b]) s)
    (hrun : c.run = b.run) (hc : ∀ batch ∈ c.batches, batch ≠ [])
    (hlen : t.handles.length = s.handles.length) (hopen : c.outcome = none ↔ t.active = some c.run)
    (hactive : ∀ d ∈ init, t.active = some d.run ↔ s.active = some d.run) :
    Tells (init ++ [c]) t where
  runs := by rw [hlen, ← h.runs]; simp [hrun]
  nonempty d hd := by
    rcases List.mem_append.mp hd with hd | hd
    · exact h.nonempty d (by simp [hd])
    · obtain rfl := List.mem_singleton.mp hd
      exact hc
  open_iff d hd := by
    rcases List.mem_append.mp hd with hd | hd
    · rw [h.open_iff d (by simp [hd])]
      exact (hactive d hd).symm
    · obtain rfl := List.mem_singleton.mp hd
      exact hopen

/-- What changes neither the handles nor the active run leaves the blocks as they are. -/
theorem of_active_eq (h : Tells blocks s) {t : Slot} (hlen : t.handles.length = s.handles.length)
    (ha : t.active = s.active) : Tells blocks t where
  runs := by rw [hlen]; exact h.runs
  nonempty := h.nonempty
  open_iff := by rw [ha]; exact h.open_iff

/-- **When the active run loses the slot, its block is closed**, and no other block changes. -/
theorem exists_closed (h : Tells blocks s) (hs : s.Coherent) {run : Nat} (ha : s.active = some run)
    (outcome : Outcome) {t : Slot} (hlen : t.handles.length = s.handles.length) (hidle : t.active = none) :
    ∃ blocks', Tells blocks' t ∧
      blocks'.flatMap Block.events = blocks.flatMap Block.events ++ [.finished run outcome] ∧
      blocks'.map Block.source = blocks.map Block.source := by
  obtain ⟨init, b, rfl, rfl, hb, hlt⟩ := h.exists_last hs ha
  refine ⟨init ++ [{ b with outcome := some outcome }], ?_, ?_, by simp⟩
  · apply h.replace_last
    · rfl
    · exact h.nonempty b (by simp)
    · exact hlen
    · simp [hidle]
    · intro d hd
      have hne : b.run ≠ d.run := Nat.ne_of_gt (hlt d hd)
      simp [ha, hidle, hne]
  · exact Block.flatMap_events_last (Block.events_close hb outcome)

/-- A kill closes the block of the active run. -/
theorem killActive (h : Tells blocks s) (hs : s.Coherent) :
    ∃ blocks', Tells blocks' s.killActive ∧
      blocks'.flatMap Block.events = blocks.flatMap Block.events ++ s.toldKill ∧
      blocks'.map Block.source = blocks.map Block.source := by
  cases ha : s.active with
  | none => exact ⟨blocks, by rwa [killActive_of_idle ha], by simp [toldKill, ha], rfl⟩
  | some run =>
    have htold : s.toldKill = [.finished run .killed] := by simp [toldKill, ha]
    rw [htold]
    exact h.exists_closed hs ha .killed (length_handles_killActive s) (active_killActive s)

/-- **Every move keeps the blocks fitting**, and what it tells makes the blocks longer. -/
theorem move (h : Tells blocks s) (hs : s.Coherent) (m : Move) :
    ∃ blocks', Tells blocks' (s.move m) ∧
      blocks'.flatMap Block.events = blocks.flatMap Block.events ++ s.told m ∧
      blocks'.map Block.source = blocks.map Block.source ++ m.source?.toList := by
  cases m with
  | start source =>
    obtain ⟨blocks', hk, hevents, hsources⟩ := h.killActive hs
    refine ⟨blocks' ++ [⟨s.handles.length, source, [], none⟩], ?_, ?_, ?_⟩
    · have hnew : ∀ b ∈ blocks', b.run < s.handles.length := fun b hb => by
        have hmem : b.run ∈ blocks'.map Block.run := List.mem_map_of_mem hb
        simpa [hk.runs] using hmem
      constructor
      · simp [Slot.move, Slot.start, hk.runs, List.range_succ]
      · intro b hb
        rcases List.mem_append.mp hb with hb | hb
        · exact hk.nonempty b hb
        · obtain rfl := List.mem_singleton.mp hb
          simp
      · intro b hb
        rcases List.mem_append.mp hb with hb | hb
        · have hclosed : b.outcome ≠ none := by simp [hk.open_iff b hb]
          have hlt := hnew b hb
          simp only [Slot.move, Slot.start, active_emit, length_handles_killActive,
            Option.some.injEq]
          exact ⟨fun ho => absurd ho hclosed, fun ho => by omega⟩
        · obtain rfl := List.mem_singleton.mp hb
          simp [Slot.move, Slot.start]
    · simp [told, hevents, Block.events]
    · simp [hsources, Move.source?]
  | stop =>
    obtain ⟨blocks', hk, hevents, hsources⟩ := h.killActive hs
    exact ⟨blocks', hk, hevents, by simp [hsources, Move.source?]⟩
  | clear => exact ⟨blocks, h.of_active_eq rfl rfl, by simp [told], by simp [Move.source?]⟩
  | subscribe => exact ⟨blocks, h.of_active_eq rfl rfl, by simp [told], by simp [Move.source?]⟩
  | unsubscribe i => exact ⟨blocks, h.of_active_eq rfl rfl, by simp [told], by simp [Move.source?]⟩
  | deliver run entries =>
    rw [hs.move_deliver, told]
    split
    · rename_i hc
      obtain ⟨init, b, rfl, rfl, hb, -⟩ := h.exists_last hs hc.2
      refine ⟨init ++ [{ b with batches := b.batches ++ [entries] }], ?_, ?_, by simp [Move.source?]⟩
      · refine h.replace_last rfl ?_ rfl (by simp [hb, hc.2]) fun d _ => Iff.rfl
        intro batch hbatch
        rcases List.mem_append.mp hbatch with hbatch | hbatch
        · exact h.nonempty b (by simp) batch hbatch
        · rw [List.mem_singleton.mp hbatch]
          exact hc.1
      · exact Block.flatMap_events_last (Block.events_print hb entries)
    · exact ⟨blocks, h, by simp, by simp [Move.source?]⟩
  | setRunning run =>
    rw [hs.move_setRunning]
    refine ⟨blocks, ?_, by simp [told], by simp [Move.source?]⟩
    split
    · exact h.of_active_eq rfl rfl
    · exact h
  | finish run outcome =>
    rw [hs.move_finish, told]
    split
    · rename_i ha
      obtain ⟨blocks', hclosed, hevents, hsources⟩ := h.exists_closed hs ha outcome
        (t := emit { s with phase := .idle, active := none, lastOutcome := some outcome } _) rfl rfl
      exact ⟨blocks', hclosed, hevents, by simp [hsources, Move.source?]⟩
    · exact ⟨blocks, h, by simp, by simp [Move.source?]⟩

end Tells

/-- **The story is a sequence of blocks**, one for each start. -/
theorem exists_blocks (moves : List Move) :
    ∃ blocks, Tells blocks (play moves) ∧ story moves = blocks.flatMap Block.events ∧
      blocks.map Block.source = moves.filterMap Move.source? := by
  induction moves using List.reverseRecOn with
  | nil => exact ⟨[], ⟨rfl, by simp, by simp⟩, rfl, rfl⟩
  | append_singleton moves m ih =>
    obtain ⟨blocks, htells, hstory, hsources⟩ := ih
    obtain ⟨blocks', htells', hevents, hsources'⟩ := htells.move (coherent_play moves) m
    refine ⟨blocks', ?_, ?_, ?_⟩
    · rwa [play_append_singleton]
    · rw [story_append_singleton, hstory, hevents]
    · rw [hsources', hsources, List.filterMap_append]
      cases hm : m.source? <;> simp [hm]

/-! ## The events of one run -/

/-- The events of a run among events. -/
def ofRun (run : Nat) (events : List (Event Nat Entry)) : List (Event Nat Entry) :=
  events.filter (·.run == run)

@[simp] theorem ofRun_append (run : Nat) (events more : List (Event Nat Entry)) :
    ofRun run (events ++ more) = ofRun run events ++ ofRun run more := List.filter_append ..

theorem ofRun_events_self (b : Block) : ofRun b.run b.events = b.events :=
  List.filter_eq_self.mpr fun e he => by simp [Block.run_of_mem_events he]

theorem ofRun_events_of_ne {b : Block} {run : Nat} (hne : b.run ≠ run) : ofRun run b.events = [] :=
  List.filter_eq_nil_iff.mpr fun e he => by simp [Block.run_of_mem_events he, hne]

theorem ofRun_flatMap_of_ne {blocks : List Block} {run : Nat} (hne : ∀ b ∈ blocks, b.run ≠ run) :
    ofRun run (blocks.flatMap Block.events) = [] := by
  induction blocks with
  | nil => rfl
  | cons b blocks ih =>
    rw [List.flatMap_cons, ofRun_append, ofRun_events_of_ne (hne b (by simp)),
      ih fun c hc => hne c (by simp [hc]), List.append_nil]

/-- **The events of a run are those of its block.** -/
theorem Tells.ofRun_eq {blocks : List Block} {s : Slot} (h : Tells blocks s) {b : Block}
    (hb : b ∈ blocks) : ofRun b.run (blocks.flatMap Block.events) = b.events := by
  obtain ⟨before, after, rfl⟩ := List.append_of_mem hb
  have hnodup : ((before ++ b :: after).map Block.run).Nodup := by
    rw [h.runs]
    exact List.nodup_range
  rw [List.map_append, List.map_cons, List.nodup_append, List.nodup_cons] at hnodup
  obtain ⟨-, ⟨hafter, -⟩, hbefore⟩ := hnodup
  rw [List.flatMap_append, List.flatMap_cons, ofRun_append, ofRun_append, ofRun_events_self,
    ofRun_flatMap_of_ne, ofRun_flatMap_of_ne, List.nil_append, List.append_nil]
  · exact fun c hc heq => hafter (List.mem_map.mpr ⟨c, hc, heq⟩)
  · exact fun c hc => hbefore c.run (List.mem_map_of_mem hc) b.run (by simp)

/-- Nothing is told of a run that has not been started. -/
theorem ofRun_story_eq_nil {moves : List Move} {run : Nat} (hrun : (play moves).handles.length ≤ run) :
    ofRun run (story moves) = [] := by
  obtain ⟨blocks, htells, hstory, -⟩ := exists_blocks moves
  rw [hstory]
  apply ofRun_flatMap_of_ne
  intro b hb heq
  have hmem : b.run ∈ blocks.map Block.run := List.mem_map_of_mem hb
  rw [htells.runs, List.mem_range] at hmem
  omega

/-- A run of which anything is told has a block. -/
theorem exists_block_of_mem {blocks : List Block} {e : Event Nat Entry}
    (he : e ∈ blocks.flatMap Block.events) : ∃ b ∈ blocks, b.run = e.run := by
  obtain ⟨b, hb, heb⟩ := List.mem_flatMap.mp he
  exact ⟨b, hb, (Block.run_of_mem_events heb).symm⟩

/-- Whoever still listens and has heard a run start has heard everything of that run. -/
theorem ofRun_received {moves : List Move} {u : Subscriber} (hu : u ∈ (play moves).subscribers)
    (hl : u.isListening = true) {run : Nat} {source : String}
    (hsaw : .started run source ∈ u.received) : ofRun run u.received = ofRun run (story moves) := by
  obtain ⟨i, hi⟩ := List.mem_iff_getElem?.mp hu
  obtain ⟨earlier, later, hstory, hlater, -⟩ := exists_received moves hi
  obtain rfl := hlater hl
  obtain ⟨blocks, htells, hblocks, -⟩ := exists_blocks moves
  rw [List.append_nil] at hstory
  have hmem : .started run source ∈ blocks.flatMap Block.events := by
    rw [← hblocks, hstory]
    exact List.mem_append_right _ hsaw
  obtain ⟨b, hb, hrun⟩ := exists_block_of_mem hmem
  have hall : ofRun run earlier ++ ofRun run u.received = b.events := by
    rw [← ofRun_append, ← hstory, hblocks, ← htells.ofRun_eq hb, hrun]
    rfl
  have hsaw' : .started run source ∈ ofRun run u.received :=
    List.mem_filter.mpr ⟨hsaw, by simp [Event.run]⟩
  have hnone : ofRun run earlier = [] := by
    rcases hearlier : ofRun run earlier with _ | ⟨first, rest⟩
    · rfl
    · rw [hearlier, List.cons_append, Block.events, List.cons_append] at hall
      have htail := (List.cons.inj hall).2
      have hin : .started run source ∈ b.batches.map (Event.output b.run) ++
          b.outcome.toList.map (Event.finished b.run) := by
        rw [← htail]
        exact List.mem_append_right _ hsaw'
      simp at hin
  rw [hstory, ofRun_append, hnone, List.nil_append]

/-! ## What the first subscriber receives -/

/-- **What the first subscriber has received is one block after another**, for as long as the subscriber
listens. The blocks are those of the starts in their order, with no empty batch. All that is told of a run
stands in its block, and a block is open if and only if its run is active, which only the last can be. -/
theorem received_eq_blocks (moves : List Move) {u : Subscriber}
    (hu : (play moves).subscribers[0]? = some u) (hl : u.isListening = true) :
    ∃ blocks : List Block,
      u.received = blocks.flatMap Block.events ∧
        blocks.map Block.run = List.range blocks.length ∧
        blocks.map Block.source = moves.filterMap Move.source? ∧
        (∀ b ∈ blocks, (∀ batch ∈ b.batches, batch ≠ []) ∧ ofRun b.run u.received = b.events ∧
          (b.outcome = none ↔ (play moves).active = some b.run)) ∧
        ∀ run, (play moves).active = some run → run + 1 = blocks.length := by
  obtain ⟨earlier, later, hstory, hlater, hfirst⟩ := exists_received moves hu
  obtain rfl := hlater hl
  obtain rfl := hfirst rfl
  obtain ⟨blocks, htells, hblocks, hsources⟩ := exists_blocks moves
  have hreceived : u.received = blocks.flatMap Block.events := by
    rw [← hblocks, hstory, List.nil_append, List.append_nil]
  refine ⟨blocks, hreceived, ?_, hsources, fun b hb => ?_, fun run ha => ?_⟩
  · rw [htells.length_eq]
    exact htells.runs
  · refine ⟨htells.nonempty b hb, ?_, htells.open_iff b hb⟩
    rw [hreceived]
    exact htells.ofRun_eq hb
  · rw [htells.length_eq]
    exact (coherent_play moves).latest run ha

/-- A run that is superseded while it prints, prints on, and ends. -/
theorem received_eq_blocks_superseded :
    let entry : Entry := ⟨.log, none, "x"⟩
    let moves : List Move :=
      [.start "a", .setRunning 0, .deliver 0 [entry], .start "b", .deliver 0 [entry],
        .finish 0 (.completed 0), .setRunning 1, .deliver 1 [], .deliver 1 [entry]]
    let u : Subscriber :=
      ⟨true, [.started 0 "a", .output 0 [entry], .finished 0 .killed, .started 1 "b",
        .output 1 [entry]]⟩
    (play moves).subscribers[0]? = some u ∧ u.isListening = true ∧
      ∃ blocks : List Block,
        u.received = blocks.flatMap Block.events ∧
          blocks.map Block.run = List.range blocks.length ∧
          blocks.map Block.source = moves.filterMap Move.source? ∧
          (∀ b ∈ blocks, (∀ batch ∈ b.batches, batch ≠ []) ∧ ofRun b.run u.received = b.events ∧
            (b.outcome = none ↔ (play moves).active = some b.run)) ∧
          ∀ run, (play moves).active = some run → run + 1 = blocks.length :=
  ⟨by decide, rfl, received_eq_blocks _ (by decide) rfl⟩

end Slot

end Scratchpad.Run
