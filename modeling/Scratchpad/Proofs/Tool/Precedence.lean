import Scratchpad.Proofs.CommandLine.Plan
import Scratchpad.Proofs.Config.Reading
import Scratchpad.Proofs.Run.Launches
import Scratchpad.Proofs.Tool.SingleRun

/-!
# Precedence of the command line

Environment variables come from the configuration and from the command line, and the command line takes precedence.
What the two say together is settled once, before anything is run, and every program of the tool is started with it:
the first one, and every one that is started because the source has changed.

## Main definitions

* `Session.Reaches`: what becomes of the tool by what a user does.
* `Session.Keeps`: the tool starts programs as planned, and nothing else.

## Main statements

* `Session.Keeps.act`, `Session.Keeps.startRun`: what the tool does keeps to the plan.
* `Session.keeps_of_beginWith`: the tool begins with the plan of the command line and the configuration.
* `Session.launches_of_beginWith`: what the tool launches first.
* `command_line_takes_precedence`: the environment of every program, from the command line to the record of launches.
-/

namespace Scratchpad.Tool

open CommandLine Machine Run Sandbox Supervision

/-- A sandbox in which a run is going to fare in some way is otherwise as it was. -/
theorem processes_brace (sandbox : Script) (launched : Except Obstacle Course) :
    (brace sandbox launched).processes = sandbox.processes := by
  rcases launched with (_ | _ | _) | _ <;> rfl

theorem launches_brace (sandbox : Script) (launched : Except Obstacle Course) :
    (brace sandbox launched).launches = sandbox.launches := by
  rcases launched with (_ | _ | _) | _ <;> rfl

namespace Session

/-- What becomes of the tool by what a user does. -/
inductive Reaches (s : Session) : Session → Prop where
  | refl : s.Reaches s
  | await {t : Session} (h : s.Reaches t) (kind : Kind) (fuel : Nat) : s.Reaches (t.await kind fuel)
  | pause {t : Session} (h : s.Reaches t) (ms : Nat) : s.Reaches (t.pause ms)
  | replace {t : Session} (h : s.Reaches t) (path contents : String) : s.Reaches (t.replace path contents)
  | remove {t : Session} (h : s.Reaches t) (path : String) : s.Reaches (t.remove path)
  | interrupt {t : Session} (h : s.Reaches t) : s.Reaches t.interrupt
  | finish {t : Session} (h : s.Reaches t) : s.Reaches t.finish

/-- What a process is going to do starts no run. -/
theorem request?_of_mem_happeningsOf {s : Session} {process : Nat} {course : Course} :
    ∀ h ∈ s.happeningsOf process course, Turn.request? (.act h.action) = none := by
  intro h hmem
  have hchunk : ∀ h ∈ course.chunks.map fun c => (⟨s.supervision.now + c.1, .emit process c.2⟩ : Happening),
      Turn.request? (.act h.action) = none := by
    intro h hmem
    obtain ⟨c, -, rfl⟩ := List.mem_map.mp hmem
    rfl
  rw [happeningsOf] at hmem
  split at hmem
  · exact hchunk h hmem
  · rcases List.mem_append.mp hmem with hmem | hmem
    · exact hchunk h hmem
    · rw [List.mem_singleton.mp hmem]
      rfl

/-- The tool starts programs as planned: those that it has started and those that its jobs are going to start. What
the processes are going to do starts none. -/
structure Keeps (plan : Plan) (s : Session) : Prop where
  plan_eq : s.plan = plan
  starts : s.supervision.StartsAs s.workshop
  asks : ∀ order ∈ s.supervision.jobs.map Job.order, order.2 = plan.environment
  happenings : ∀ h ∈ s.happenings, Turn.request? (.act h.action) = none

namespace Keeps

variable {plan : Plan} {s : Session}

/-- Nothing else about the tool matters. -/
theorem frame (h : s.Keeps plan) {t : Session} (hplan : t.plan = s.plan) (hsupervision : t.supervision = s.supervision)
    (hhappenings : ∀ h ∈ t.happenings, h ∈ s.happenings) : t.Keeps plan where
  plan_eq := hplan.trans h.plan_eq
  starts := by
    rw [hsupervision, workshop, hplan]
    exact h.starts
  asks := hsupervision ▸ h.asks
  happenings := fun h' hh' => h.happenings h' (hhappenings h' hh')

/-- Every program has been started as planned. -/
theorem eq_of_mem_launches (h : s.Keeps plan) {launch : Launch} (hlaunch : launch ∈ s.supervision.sandbox.launches) :
    launch = ⟨plan.settings.program, [plan.settings.entryFile], plan.environment⟩ := by
  have hmem := h.starts.mem_orders hlaunch
  rw [map_launch_eq] at hmem
  obtain ⟨order, horder, rfl⟩ := List.mem_map.mp hmem
  rw [h.asks order horder, workshop, h.plan_eq]

/-- **Whatever is done keeps to the plan** if no run is asked for otherwise. -/
theorem act (h : s.Keeps plan) {action : Action}
    (haction : ∀ r, Turn.request? (.act action) = some r → r.environment = plan.environment) :
    (s.act action).Keeps plan where
  plan_eq := h.plan_eq
  starts := startsAs_turn (startsAs_turn h.starts (.act action)) .settle
  asks := by
    intro order horder
    have hjobs : (s.act action).supervision.jobs.map Job.order =
        s.supervision.jobs.map Job.order ++ (Turn.request? (.act action)).toList.map Request.order :=
      (map_order_settle _).trans (map_order_turn s.supervision (.act action))
    rw [hjobs] at horder
    rcases List.mem_append.mp horder with horder | horder
    · exact h.asks order horder
    · obtain ⟨r, hr, rfl⟩ := List.mem_map.mp horder
      exact haction r (Option.mem_toList.mp hr)
  happenings := h.happenings

/-- What starts no run keeps to the plan. -/
theorem act_of_request?_eq_none (h : s.Keeps plan) {action : Action} (haction : Turn.request? (.act action) = none) :
    (s.act action).Keeps plan :=
  h.act fun r hr => by rw [haction] at hr; cases hr

theorem foldl_act (h : s.Keeps plan) {happenings : List Happening}
    (hhappenings : ∀ h ∈ happenings, Turn.request? (.act h.action) = none) :
    (happenings.foldl (fun s h => s.act h.action) s).Keeps plan :=
  List.foldlRecOn (motive := Keeps plan) happenings _ h fun _ hs happening hmem =>
    hs.act_of_request?_eq_none (hhappenings happening hmem)

theorem settled (h : s.Keeps plan) : s.settled.Keeps plan := by
  rw [settled_eq]
  exact h.frame rfl rfl fun _ => id

theorem startLaunched (h : s.Keeps plan) (text : String) (launched : Except Obstacle Course) (place : Place) :
    (s.startLaunched text launched place).Keeps plan := by
  obtain ⟨more, hmore, hstart⟩ : ∃ more : List Happening, (∀ h ∈ more, Turn.request? (.act h.action) = none) ∧
      s.startLaunched text launched place = Session.act
        { s with
          place := place
          supervision := { s.supervision with sandbox := brace s.supervision.sandbox launched }
          happenings := s.happenings ++ more }
        (.start s.arguments.file text s.plan.matchesLines s.plan.environment) := by
    cases launched with
    | error obstacle => exact ⟨[], nofun, rfl⟩
    | ok course => exact ⟨_, request?_of_mem_happeningsOf, rfl⟩
  rw [hstart]
  refine Keeps.act ?_ ?_
  · refine ⟨h.plan_eq, h.starts.of_eq ?_ ?_, h.asks, List.forall_mem_append.mpr ⟨h.happenings, hmore⟩⟩
    · exact congrArg (List.map Process.owner) (processes_brace ..)
    · exact launches_brace ..
  · rintro r ⟨⟩
    exact congrArg Plan.environment h.plan_eq

theorem startRun (h : s.Keeps plan) (text : String) : (s.startRun text).Keeps plan := by
  rw [startRun_eq]
  exact h.startLaunched ..

theorem rerun (h : s.Keeps plan) : s.rerun.Keeps plan := by
  rw [Session.rerun]
  split
  · exact h.startRun _
  · exact h

theorem passTo (h : s.Keeps plan) (moment : Nat) : (s.passTo moment).Keeps plan := by
  have hadvanced : (s.act (.advance (moment - s.supervision.now))).Keeps plan := h.act_of_request?_eq_none rfl
  have hplayed : ((s.happenings.partition (·.time ≤ moment)).1.foldl (fun s h => s.act h.action)
      { s.act (.advance (moment - s.supervision.now)) with
        happenings := (s.happenings.partition (·.time ≤ moment)).2 } : Session).Keeps plan := by
    rw [List.partition_eq_filter_filter]
    refine Keeps.foldl_act ?_ fun h' hh' => h.happenings h' (List.mem_filter.mp hh').1
    exact hadvanced.frame rfl rfl fun h' hh' => (List.mem_filter.mp hh').1
  have hsettled := hplayed.settled
  rw [Session.passTo]
  dsimp only
  split
  · refine Keeps.rerun ?_
    exact hsettled.frame rfl rfl fun _ => id
  · exact hsettled

theorem passMoments (h : s.Keeps plan) (until? : Option Nat) (fuel : Nat) :
    (Session.passMoments until? fuel s).Keeps plan := by
  fun_induction Session.passMoments until? fuel s with
  | case1 s => exact h
  | case2 s fuel moment _ _ _ ih => exact ih (h.passTo moment)
  | case3 => exact h
  | case4 => exact h

theorem await (h : s.Keeps plan) (kind : Kind) (fuel : Nat) : (s.await kind fuel).Keeps plan := by
  fun_induction Session.await kind fuel s with
  | case1 s => exact h
  | case2 s fuel n _ => exact h.frame rfl rfl fun _ => id
  | case3 s fuel _ moment _ _ ih => exact ih (h.passTo moment)
  | case4 s fuel => exact h.frame rfl rfl fun _ => id

theorem pause (h : s.Keeps plan) (ms : Nat) : (s.pause ms).Keeps plan := by
  rw [Session.pause]
  split
  · exact h.passMoments ..
  · exact (h.passMoments ..).act_of_request?_eq_none rfl

theorem replace (h : s.Keeps plan) (path contents : String) : (s.replace path contents).Keeps plan := by
  rw [Session.replace]
  split
  · exact h
  · dsimp only
    split
    · split
      · refine Keeps.passMoments ?_ _ _
        exact h.frame rfl rfl fun _ => id
      · exact h.frame rfl rfl fun _ => id
    · exact h.frame rfl rfl fun _ => id

theorem remove (h : s.Keeps plan) (path : String) : (s.remove path).Keeps plan := by
  rw [Session.remove]
  split
  · exact h
  · exact h.frame rfl rfl fun _ => id

theorem interrupt (h : s.Keeps plan) : s.interrupt.Keeps plan := by
  have hpaused := h.pause 100
  have hstopped : ((s.pause 100).act .stop).Keeps plan := hpaused.act_of_request?_eq_none rfl
  rw [Session.interrupt]
  dsimp only
  split
  · exact hpaused
  · split
    · exact hstopped.settled
    · exact hstopped.frame rfl rfl fun _ => id

theorem finish (h : s.Keeps plan) : s.finish.Keeps plan := h.passMoments ..

/-- **Whatever a user does, the tool keeps to its plan.** -/
theorem reaches (h : s.Keeps plan) {t : Session} (ht : s.Reaches t) : t.Keeps plan := by
  induction ht with
  | refl => exact h
  | await _ kind fuel ih => exact ih.await kind fuel
  | pause _ ms ih => exact ih.pause ms
  | replace _ path contents ih => exact ih.replace path contents
  | remove _ path ih => exact ih.remove path
  | interrupt _ ih => exact ih.interrupt
  | finish _ ih => exact ih.finish

end Keeps

theorem keeps_opened (programs : Programs) (here : Way) (a : Arguments) (config : Config) (place : Place)
    (watch : Option Watch) : (opened programs here a config place watch).Keeps (a.plan config) where
  plan_eq := rfl
  starts := rfl
  asks := nofun
  happenings := nofun

theorem keeps_of_open? {programs : Programs} {tree : Tree} {here : Way} {a : Arguments} {s : Session}
    (h : open? programs tree here a = .ok s) :
    ∃ config, loadConfig tree here a.config = .ok config ∧ s.Keeps (a.plan config) := by
  rw [open?] at h
  obtain ⟨config, hconfig, h⟩ := exists_of_bind_eq_ok h
  obtain ⟨place, -, h⟩ := exists_of_bind_eq_ok h
  obtain ⟨watch, -, h⟩ := exists_of_bind_eq_ok h
  have hopened := keeps_opened programs here a config place watch
  refine ⟨config, hconfig, ?_⟩
  split at h
  · cases h
    exact hopened.rerun
  · obtain ⟨text, -, h⟩ := exists_of_bind_eq_ok h
    cases h
    exact (hopened.startRun text).settled

/-- **The tool begins with the plan of the command line and the configuration.** -/
theorem keeps_of_beginWith {programs : Programs} {tree : Tree} {here : Way} {argv : List String} {s : Session}
    (h : beginWith programs tree here argv = .ok s) : ∃ a config, Arguments.ofList argv = .ok a ∧
      loadConfig tree here a.config = .ok config ∧ s.Keeps (a.plan config) := by
  rw [beginWith] at h
  split at h
  · split at h <;> cases h
  · rename_i a hargv
    split at h
    · cases h
    · rename_i hopen
      cases h
      obtain ⟨config, hconfig, hs⟩ := keeps_of_open? hopen
      exact ⟨a, config, hargv, hconfig, hs⟩

/-- A program that runs has been launched for the run of the tool. -/
theorem Starts.launches {s : Session} {req : Request} {course : Course} {code : UInt8}
    (h : s.Starts req course code) : s.supervision.sandbox.launches[0]? = some (req.launch s.workshop) := by
  obtain ⟨q, hq, howner, -⟩ := h.performs.process
  obtain ⟨r, hr, hlaunch⟩ := launches_after s.workshop (opening req) hq
  rw [h.performs.requests, howner] at hr
  obtain rfl := Option.some.inj hr
  rw [h.supervision]
  exact hlaunch

/-- **The tool begins with a launch as planned** if nothing keeps its program from running. -/
theorem launches_of_beginWith {programs : Programs} {tree : Tree} {here : Way} {argv : List String} {a : Arguments}
    {config : Config} {place : Place} {text : String} {course : Course} {code : UInt8}
    (hargv : Arguments.ofList argv = .ok a) (hwatch : a.isWatched = false)
    (hconfig : loadConfig tree here a.config = .ok config) (hplace : makePlace tree here a = .ok place)
    (htext : readSource place.tree here a.file = .ok text)
    (hlaunch : (launch programs (a.plan config) place text).1 = .ok course) (hending : course.ending = .exited code) :
    ∃ s, beginWith programs tree here argv = .ok s ∧ s.supervision.sandbox.launches[0]? =
      some ⟨(a.plan config).settings.program, [(a.plan config).settings.entryFile], (a.plan config).environment⟩ := by
  obtain ⟨entry, hcode⟩ : ∃ entry,
      composed ⟨(a.plan config).settings, compile⟩ (a.plan config).matchesLines text = .ok entry := by
    rcases hlaunch ▸ comesOf_launch programs (a.plan config) place text with ⟨_, -, hfailed⟩ | ⟨entry, hcode, -⟩
    · cases hfailed
    · exact ⟨entry, hcode⟩
  have hstart : (opened programs here a config place none).startRun text =
      launchedOnce programs here a config place text (.ok course)
        (launch programs (a.plan config) place text).2 := by
    rw [← hlaunch]
    exact startRun_eq ..
  refine ⟨_, beginWith_eq hargv hwatch hconfig hplace htext, ?_⟩
  rw [hstart, (starts_launchedOnce hcode hending).settled_eq_self]
  exact (starts_launchedOnce hcode hending).launches

end Session

/-! ## From the command line to the process -/

theorem isOrdered_of_readConfig {tree : Tree} {here : Way} {label path : String} {c : Config}
    (h : readConfig tree here label path = .ok c) : c.environment.IsOrdered := by
  rw [readConfig] at h
  split at h
  · cases h
  · split at h
    · cases h
    · rename_i hread
      cases h
      exact Config.isOrdered_of_ofText hread

/-- Every configuration that the tool may have names no variable twice. -/
theorem isOrdered_of_loadConfig {tree : Tree} {here : Way} {path : Option String} {c : Config}
    (h : loadConfig tree here path = .ok c) : c.environment.IsOrdered := by
  cases path with
  | some path => exact isOrdered_of_readConfig h
  | none =>
    rw [loadConfig] at h
    split at h
    · exact isOrdered_of_readConfig h
    · cases h
      exact Environment.isOrdered_empty

/-- A program that is started for a run that asks for the environment of a plan is started with it. -/
theorem launches_of_plan {workshop : Workshop} {turns : List Turn} {p : Nat} {q : Process} {r : Request} {plan : Plan}
    (hq : (after workshop turns).sandbox.processes[p]? = some q) (hr : (requests turns)[q.owner]? = some r)
    (hplan : r.environment = plan.environment) : (after workshop turns).sandbox.launches[p]? =
      some ⟨workshop.settings.program, [workshop.settings.entryFile], plan.environment⟩ := by
  obtain ⟨r', hr', hlaunch⟩ := launches_after workshop turns hq
  obtain rfl : r' = r := Option.some.inj (hr'.symm.trans hr)
  rw [hlaunch, Request.launch, hplan]

/-- **The command line takes precedence**, from its arguments to the processes.

A text is accepted as an environment variable if and only if there is an equals sign in it and a name before the first
one. A command line is accepted if and only if it gives parameters in order, with a file among them, and then it says
what they say; among them may be any list of environment variables that are accepted. For every configuration and all
parameters in order, the environment of the plan is that of the configuration, overridden by what the environment
variables assign: the last one counts for each name. In every history a process that is started for a run that asks for
this environment is recorded with it, unchanged. And so is every process of the tool, whatever a user does, from the
command line and the configuration with which it begins. -/
theorem command_line_takes_precedence :
    (∀ text, (binding? text).isSome = true ↔ ∃ name value, Assigns text name value) ∧
    (∀ argv a, Arguments.ofList argv = .ok a ↔
      ∃ given, Gives false argv given ∧ IsInOrder given ∧ .file ∈ given.map (·.1) ∧ a = .ofGiven given) ∧
    (∀ texts, (∀ text ∈ texts, (binding? text).isSome = true) → ∃ argv given,
      Gives false argv given ∧ IsInOrder given ∧ .file ∈ given.map (·.1) ∧ environmentTexts given = texts) ∧
    (∀ (config : Config) (given : List (Parameter × String)), config.environment.IsOrdered → IsInOrder given →
      let plan := (Arguments.ofGiven given).plan config
      (∀ text ∈ environmentTexts given, (binding? text).isSome = true) ∧
        Overrides config.environment (environmentTexts given) plan.environment ∧
        ∀ (workshop : Workshop) (turns : List Turn) (p : Nat) (q : Process) (r : Request),
          (after workshop turns).sandbox.processes[p]? = some q → (requests turns)[q.owner]? = some r →
            r.environment = plan.environment → (after workshop turns).sandbox.launches[p]? =
              some ⟨workshop.settings.program, [workshop.settings.entryFile], plan.environment⟩) ∧
    ∀ programs tree here argv s t, Session.beginWith programs tree here argv = .ok s → s.Reaches t →
      ∃ given config, Gives false argv given ∧ IsInOrder given ∧
        loadConfig tree here (Arguments.ofGiven given).config = .ok config ∧
        Overrides config.environment (environmentTexts given) t.plan.environment ∧
        ∀ launch ∈ t.supervision.sandbox.launches, launch.environment = t.plan.environment := by
  refine ⟨fun text => isSome_binding?_iff, fun argv a => Arguments.ofList_eq_ok_iff,
    fun texts => exists_gives_of_accepted, ?_, ?_⟩
  · intro config given hconfig hgiven plan
    refine ⟨fun text htext => isSome_binding?_iff.mpr (hgiven.exists_assigns htext),
      Arguments.overrides_plan hconfig given, ?_⟩
    intro workshop turns p q r hq hr hplan
    exact launches_of_plan hq hr hplan
  · intro programs tree here argv s t hbegin ht
    obtain ⟨a, config, hargv, hconfig, hs⟩ := Session.keeps_of_beginWith hbegin
    obtain ⟨given, hgives, hgiven, -, rfl⟩ := Arguments.ofList_eq_ok_iff.mp hargv
    have hkeeps := hs.reaches ht
    refine ⟨given, config, hgives, hgiven, hconfig, ?_, fun launch hlaunch => ?_⟩
    · rw [hkeeps.plan_eq]
      exact Arguments.overrides_plan (isOrdered_of_loadConfig hconfig) given
    · rw [hkeeps.eq_of_mem_launches hlaunch, hkeeps.plan_eq]

/-- A variable is given twice, one with an equals sign in its value takes the place of that of the configuration, and
one of the configuration stays as it is. -/
theorem command_line_takes_precedence_repeated :
    let document := "[env]\nB = \"0\"\nC = \"kept\"\n"
    let tree : Tree := ⟨[(["home"], .folder), (["home", "tsplay.toml"], .file (Utf8.encode document)),
      (["home", "main.ts"], .file (Utf8.encode "x"))]⟩
    let programs : Programs := fun place _ => .ok (⟨[], .exited 0, 0⟩, place)
    let config : Config := { environment := ⟨[("B", "0"), ("C", "kept")]⟩ }
    let argv := ["-e", "A=1", "main.ts", "--env=B=x=y", "-eA=2", "--no-match-lines"]
    let given : List (Parameter × String) :=
      [(.environment, "A=1"), (.file, "main.ts"), (.environment, "B=x=y"), (.environment, "A=2"), (.noMatchLines, "")]
    let plan := (Arguments.ofGiven given).plan config
    let workshop : Workshop := ⟨plan.settings, fun source => .ok source⟩
    let turns : List Turn := [.act (.start "main.ts" "x" false plan.environment), .settle]
    Arguments.ofList argv = .ok (.ofGiven given) ∧
      Overrides config.environment (environmentTexts given) plan.environment ∧
      plan.environment = ⟨[("A", "2"), ("B", "x=y"), ("C", "kept")]⟩ ∧
      (after workshop turns).sandbox.launches[0]? = some ⟨"node", ["index.mjs"], plan.environment⟩ ∧
      ∃ s, Session.beginWith programs tree ["home"] argv = .ok s ∧
        s.supervision.sandbox.launches[0]? = some ⟨"node", ["index.mjs"], plan.environment⟩ ∧
        ∀ launch ∈ s.finish.supervision.sandbox.launches, launch.environment = plan.environment := by
  intro document tree programs config argv given plan workshop turns
  have hconfig : config.environment.IsOrdered := by decide
  have hgiven : IsInOrder given := ⟨by decide, by decide⟩
  have hlong : Parameter.environment.long? = some "env" := rfl
  have hshort : Parameter.environment.short? = some 'e' := rfl
  have hfirst : Opens .environment "-e" := .short hshort
  have hsecond : Attaches .environment "B=x=y" "--env=B=x=y" := .long hlong
  have hthird : Attaches .environment "A=2" "-eA=2" := .joined hshort (by decide) (by decide)
  have hgives : Gives false argv given :=
    .next hfirst rfl (.inr (by decide)) (.file (.inr (.inr (by decide)))
      (.attached hsecond rfl (.attached hthird rfl (.flag (p := .noMatchLines) rfl rfl (by decide) .nil))))
  obtain ⟨-, hreads, -, hplan, htool⟩ := command_line_takes_precedence
  have hargv : Arguments.ofList argv = .ok (.ofGiven given) :=
    (hreads argv _).mpr ⟨given, hgives, hgiven, by decide, rfl⟩
  obtain ⟨-, hoverrides, hlaunches⟩ := hplan config given hconfig hgiven
  have hprocess : (after workshop turns).sandbox.processes[0]? = some ⟨0, [], .alive, false, true⟩ := by
    decide +kernel
  have hload : loadConfig tree ["home"] (Arguments.ofGiven given).config = .ok config := by decide +kernel
  have hplace : Session.makePlace tree ["home"] (.ofGiven given) =
      .ok ⟨tree.plant ["tmp", "tsplay-0"] .folder, ["home"], Session.scratchFolder⟩ := rfl
  have htext : readSource (tree.plant ["tmp", "tsplay-0"] .folder) ["home"] "main.ts" = .ok "x" := by
    decide +kernel
  have hlaunch : (launch programs plan ⟨tree.plant ["tmp", "tsplay-0"] .folder, ["home"], Session.scratchFolder⟩
      "x").1 = .ok ⟨[], .exited 0, 0⟩ := by decide +kernel
  obtain ⟨s, hbegin, hfirst⟩ := Session.launches_of_beginWith hargv rfl hload hplace htext hlaunch rfl
  obtain ⟨a, c, ha, hc, hkeeps⟩ := Session.keeps_of_beginWith hbegin
  obtain rfl : .ofGiven given = a := Except.ok.inj (hargv.symm.trans ha)
  obtain rfl : config = c := Except.ok.inj (hload.symm.trans hc)
  obtain ⟨-, -, -, -, -, -, hrecord⟩ := htool programs tree ["home"] argv _ _ hbegin (.finish .refl)
  rw [hkeeps.finish.plan_eq] at hrecord
  exact ⟨hargv, hoverrides, by decide +kernel, hlaunches workshop turns 0 _ _ hprocess rfl rfl, s, hbegin, hfirst,
    hrecord⟩

end Scratchpad.Tool
