import RobotMaze.Proofs.Check.Report
import RobotMaze.Proofs.Session.History
import RobotMaze.Proofs.Simulation.Isolation
import RobotMaze.Terminal.Run

/-!
# All ways to run a program agree

There are three ways to run a program on a level. It can be run to its end, it can be played in a
session, and it can be run in a terminal. Each of them drives a simulation, and each has its own
idea of when to stop: running to the end goes on until there is no snapshot, playing stops at a
snapshot of a game that is over, and the terminal plays in a session of its own, between diagnostics
that have to be drawn first. This file shows that none of them skips, repeats or loses a snapshot.

## One list of snapshots

`Simulation.DeliversExactly` names the snapshots of a run, and the three ways are compared with that
list and not with each other. For a session, `Delivers` says that its run has these snapshots to
come. Playing follows the list (`playOn_delivers`): where the list goes on, the run has a snapshot,
and where a snapshot shows a game that is over, the list ends, because the run is done then.

What was done to the session before does not matter, since a play begins with a reset.

## Main results

* `Session.playOn_delivers` — playing shows the snapshots of the run, and stops after the last
* `Terminal.value_run` — the terminal returns the state that its session shows in the end
* `runs_agree` — all ways to run a program end in the same state
-/

namespace RobotMaze

/-! ### Runs -/

namespace Simulation

variable {sim after : Simulation} {state : State} {snapshots : List State}

/-- A snapshot of a game that is over is the last one. -/
theorem isDone_of_isOver (h : sim.next = (.snapshot state, after)) (ho : state.isOver = true) :
    after.isDone = true := by
  have hturn := sim.turn_next
  rw [h] at hturn
  cases hturn with
  | first hd hs => exact Bool.or_eq_true_iff.2 (.inl ho)
  | limit hd hs ha hm => exact Bool.true_or _
  | applied hd hs ha hm he => exact Bool.or_eq_true_iff.2 (.inl ho)

theorem DeliversExactly.eq_nil_of_isDone (h : sim.DeliversExactly snapshots)
    (hd : sim.isDone = true) : snapshots = [] :=
  h.drained.symm.trans (deliversExactly_of_isDone hd).drained

end Simulation

/-! ### Playing -/

namespace Event

theorem output_append (a b : List Event) : output (a ++ b) = output a ++ output b :=
  List.flatMap_append

/-- The log is not printed. -/
@[simp] theorem output_map_log (records : List Record) : output (records.map .log) = [] := by
  rw [output, List.flatMap_map]
  exact List.flatMap_eq_nil_iff.2 fun _ _ => rfl

end Event

namespace Session

variable {s after : Session} {sim : Simulation} {state : State} {snapshots : List State}
  {display : State → List Event}

/-- The run of the session has exactly these snapshots to come. -/
def Delivers (s : Session) (snapshots : List State) : Prop :=
  ∃ sim, s.simulation = some sim ∧ sim.DeliversExactly snapshots

theorem Delivers.next_nil (h : s.Delivers []) :
    ∃ after, s.next = (.ended, after) ∧ after.isRunning = false := by
  obtain ⟨sim, hsim, h⟩ := h
  obtain ⟨hnext, -⟩ := h.next_nil
  have hdone := Simulation.isDone_of_ended hnext
  refine ⟨{ s with simulation := some sim.next.2 }, ?_, ?_⟩
  · rw [next, hsim]
    simp only
    rw [hnext]
  · simp only [isRunning, hdone, Bool.not_true]

theorem Delivers.next_cons (h : s.Delivers (state :: snapshots)) :
    ∃ after, s.next = (.snapshot state, after) ∧ after.Delivers snapshots ∧
      (state.isOver = true → snapshots = [] ∧ after.isRunning = false) := by
  obtain ⟨sim, hsim, h⟩ := h
  obtain ⟨hnext, hrest⟩ := h.next_cons
  refine ⟨{ s with state, simulation := some sim.next.2 }, ?_, ⟨_, rfl, hrest⟩, fun ho => ?_⟩
  · rw [next, hsim]
    simp only
    rw [hnext]
  · have hdone := Simulation.isDone_of_isOver hnext ho
    exact ⟨hrest.eq_nil_of_isDone hdone, by simp only [isRunning, hdone, Bool.not_true]⟩

theorem playOn_of_ended (h : s.next = (.ended, after)) :
    s.playOn display none = ⟨{ session := after }, s.nextRecords.map .log⟩ := by
  rw [playOn]
  split <;> rename_i hnext <;> rw [h] at hnext <;> cases hnext
  rfl

theorem playOn_of_over (h : s.next = (.snapshot state, after)) (ho : state.isOver = true) :
    s.playOn display none = ⟨{ session := after, snapshots := [state] },
      s.nextRecords.map .log ++ display state⟩ := by
  rw [playOn]
  split <;> rename_i hnext <;> rw [h] at hnext <;> cases hnext
  simp [ho]

theorem playOn_of_going (h : s.next = (.snapshot state, after)) (ho : state.isOver = false) :
    s.playOn display none = ⟨(after.playOn display none).value.cons state,
      s.nextRecords.map .log ++ display state ++ .pause :: (after.playOn display none).events⟩ := by
  rw [playOn]
  split <;> rename_i hnext <;> rw [h] at hnext <;> cases hnext
  simp [ho]

/-- A play has come to the end of its run. It has seen these snapshots, and each of them, in this
order, was shown as `display` shows it. -/
structure Complete (display : State → List Event) (snapshots : List State)
    (played : Recorded Playback) : Prop where
  unfailing : played.value.failure = none
  seen : played.value.snapshots = snapshots
  shown : Event.output played.events = snapshots.flatMap fun state => Event.output (display state)
  stopped : played.value.session.isRunning = false

/-- **Playing.** A play sees the snapshots that its run has to come, and no others. -/
theorem playOn_delivers (h : s.Delivers snapshots) (display : State → List Event) :
    Complete display snapshots (s.playOn display none) := by
  induction snapshots generalizing s with
  | nil =>
    obtain ⟨after, hnext, hstopped⟩ := h.next_nil
    rw [playOn_of_ended hnext]
    exact ⟨rfl, rfl, Event.output_map_log _, hstopped⟩
  | cons state snapshots ih =>
    obtain ⟨after, hnext, hafter, hover⟩ := h.next_cons
    by_cases ho : state.isOver = true
    · obtain ⟨rfl, hstopped⟩ := hover ho
      rw [playOn_of_over hnext ho]
      exact ⟨rfl, rfl, by simp [Event.output_append], hstopped⟩
    · rw [playOn_of_going hnext (by simpa using ho)]
      obtain ⟨hfailure, hseen, hshown, hstopped⟩ := ih hafter
      refine ⟨hfailure, congrArg (state :: ·) hseen, ?_, hstopped⟩
      have hpause : Event.output (.pause :: (after.playOn display none).events) =
          Event.output (after.playOn display none).events := rfl
      rw [Event.output_append, Event.output_append, Event.output_map_log, hpause, hshown]
      rfl

/-! ### Anything that happens before

A history is made of operations and of plays, and a play may react to a snapshot by an action of its
own. -/

/-- The second session is what some history makes of the first. -/
inductive LeadsTo (first : Session) : Session → Prop
  | refl : LeadsTo first first
  | perform {s : Session} (h : LeadsTo first s) (op : Operation) :
      LeadsTo first (s.perform op).session
  | play {s : Session} (h : LeadsTo first s) (program : Text) (display : State → List Event)
      (reaction : Option Reaction) :
      LeadsTo first (s.play program display reaction).value.session

/-- **Any history** keeps the level and the limits. -/
theorem LeadsTo.reset_eq {first : Session} (h : LeadsTo first s) : s.reset = first.reset := by
  induction h with
  | refl => rfl
  | perform _ op ih => exact (reset_perform _ op).trans ih
  | play _ program display reaction ih => exact (reset_play _ program display reaction).trans ih

/-- Starting a program prints nothing. -/
theorem output_events_start (s : Session) (program : Text) :
    Event.output (s.start program).events = [] := by
  simp only [start, Simulation.start, Recorded.log, Recorded.events_bind, Recorded.events_emit,
    Recorded.events_pure, Event.output_append, Event.output_map_log, List.append_nil,
    List.nil_append]
  split <;> rfl

/-- **Playing a program** that has a simulation. The session may be in any state before. -/
theorem play_delivers {program : Text}
    (hsim : Simulation.ofProgram program s.reset.state s.maxDepth s.maxSteps = .ok sim)
    (h : sim.DeliversExactly snapshots) (display : State → List Event) :
    Complete display snapshots (s.play program display none) ∧
      (s.play program display none).value.session.state =
        snapshots.getLast?.getD s.reset.state := by
  have hstart : (s.start program).value = ({ s.reset with simulation := some sim }, none) := by
    rw [value_start, hsim]
  have hplay : s.play program display none =
      ⟨(playOn display none { s.reset with simulation := some sim }).value,
        (s.start program).events ++
          (playOn display none { s.reset with simulation := some sim }).events⟩ := by
    show s.start program >>= _ = _
    simp only [bind, hstart]
  have hplayed :=
    playOn_delivers ⟨sim, rfl, h⟩ display (s := { s.reset with simulation := some sim })
  have hshows := (s.shows_reset (some sim)).playOn display
  rw [List.nil_append, Shows, reset_playOn, hplayed.seen] at hshows
  rw [hplay]
  refine ⟨⟨hplayed.unfailing, hplayed.seen, ?_, hplayed.stopped⟩, hshows⟩
  rw [Event.output_append, output_events_start, List.nil_append]
  exact hplayed.shown

end Session

/-! ### In a terminal -/

/-- A diagnostic can be shown if its labels have columns. -/
theorem Renderer.exists_format_eq {r : Renderer} {d : Diagnostic} (hw : 1 ≤ r.tabWidth)
    (h : ∀ label ∈ d.labels, HasColumns label) (source name : Text) :
    ∃ shown, r.format d source name = .ok shown := by
  rw [format, frameRows_eq hw h]
  split
  · exact ⟨_, rfl⟩
  · exact ⟨_, rfl⟩

namespace Terminal

variable {α β : Type} {o : RunOptions}

theorem value_bind_of_ok {x : Showing α} {a : α} (h : x.run.value = .ok a)
    (f : α → Showing β) : (x >>= f).run.value = (f a).run.value := by
  show (ExceptT.bindCont f x.run.value : Recorded _).value = _
  rw [h]
  rfl

theorem value_liftM (x : Recorded α) : (liftM x : Showing α).run.value = .ok x.value := rfl

/-- A step that may be left out makes no difference if it does not fail. -/
theorem value_unless {skip : Bool} {x : Showing Unit} (h : x.run.value = .ok ())
    (f : Unit → Showing α) :
    (if skip = true then f () else x >>= f).run.value = (f ()).run.value := by
  split
  · rfl
  · exact value_bind_of_ok h f

theorem value_report {r : Renderer} {d : Diagnostic} (source : Source) (hw : 1 ≤ r.tabWidth)
    (h : ∀ label ∈ d.labels, Renderer.HasColumns label) :
    (report r source d).run.value = .ok () := by
  obtain ⟨shown, hshown⟩ := Renderer.exists_format_eq hw h source.text source.name
  rw [report, hshown]
  exact value_liftM _

theorem value_forM {f : α → Showing Unit} {l : List α}
    (h : ∀ a ∈ l, (f a).run.value = .ok ()) : (l.forM f).run.value = .ok () := by
  induction l with
  | nil => rfl
  | cons a l ih =>
    show (f a >>= fun _ => l.forM f).run.value = _
    rw [value_bind_of_ok (h a List.mem_cons_self)]
    exact ih fun b hb => h b (List.mem_cons_of_mem a hb)

/-- All that the checks find can be shown. -/
theorem value_report_diagnostics {r : Renderer} (hw : 1 ≤ r.tabWidth) (source : Source) :
    ((Check.diagnostics source.text).forM (report r source)).run.value = .ok () := by
  refine value_forM fun d hd => value_report source hw fun label hlabel => ?_
  exact Renderer.hasColumns_of_inSource ((Check.exact_of_mem_diagnostics hd).2 label hlabel)

theorem hasColumns_depthDiagnostic (program : Text) (e : DepthExceeded) :
    ∀ label ∈ (depthDiagnostic program e).labels, Renderer.HasColumns label := by
  intro label hlabel
  simp only [depthDiagnostic] at hlabel
  split at hlabel
  · cases hlabel
  · rename_i d hget
    split at hlabel
    · cases hlabel
    · obtain ⟨c, -, hcovers⟩ := Check.covers_nameSpan (Check.mem_programLines_of_get? hget)
      rw [List.mem_singleton.1 hlabel]
      exact Renderer.hasColumns_of_inSource (hcovers.inSource (List.cons_ne_nil _ _))

theorem value_explainDepth {r : Renderer} (hw : 1 ≤ r.tabWidth) (source : Source)
    (e : DepthExceeded) : (explainDepth r source e).run.value = .ok () := by
  rw [explainDepth, value_bind_of_ok (value_liftM _)]
  exact value_report source hw (hasColumns_depthDiagnostic source.text e)

/-- **Running in a terminal.** If no setting is in the way and the play does not fail, the result is
the state that the session shows in the end. -/
theorem value_run (source : Source) (level : Text) (hw : 1 ≤ o.renderer.tabWidth)
    (hexpansion : o.expansionError? source.text = none) (hpause : o.pauseError? = none)
    (hplay : ((o.session level).play source.text (display o.quiet) none).value.failure = none) :
    (run o source level).run.value =
      .ok ((o.session level).play source.text (display o.quiet) none).value.session.state := by
  have hpauses : (withPauses o.pauseError?
      ((o.session level).play source.text (display o.quiet) none)).run.value =
        .ok ((o.session level).play source.text (display o.quiet) none).value := by
    rw [hpause]
    exact value_liftM _
  rw [run, value_bind_of_ok (value_report_diagnostics hw source), value_bind_of_ok (value_liftM _)]
  simp only [hexpansion]
  refine (value_unless (value_liftM _) _).trans ?_
  rw [value_bind_of_ok hpauses]
  simp only [hplay]
  split
  · rw [value_bind_of_ok (value_liftM _)]
    rfl
  · rw [value_bind_of_ok (value_explainDepth hw source _), value_bind_of_ok (value_liftM _)]
    rfl

end Terminal

/-! ### Agreement -/

/-- **All ways to run a program agree.** Let a program have an expansion on a level of at least one
cell, or at least none that raises an error for a numeral. Then running it to its end gives a state.
A play of it, in a session that has been through any history, sees and shows exactly the snapshots
of the run, returns that state and has nothing left to run; and so does running it in a terminal,
quiet or not, as long as the time between two frames is one that a clock can count. -/
theorem runs_agree (level program : Text) {size : Int} (maxDepth maxSteps : Int) (hsize : 1 ≤ size)
    (hexpands : ∀ e, Simulation.expandForRun program maxDepth maxSteps ≠ .error (.literal e)) :
    ∃ snapshots final,
      (simulate program (Level.newGame level size) maxDepth maxSteps).value = .ok snapshots ∧
      (runToEnd program (Level.newGame level size) maxDepth maxSteps).value = .ok (some final) ∧
      (∀ s, Session.LeadsTo (.new level size maxDepth maxSteps) s → ∀ display,
        Session.Complete display snapshots (s.play program display none) ∧
          (s.play program display none).value.session.state = final) ∧
      ∀ (o : Terminal.RunOptions) (name : Text), o.gridSize = size → o.maxDepth = some maxDepth →
        o.maxSteps = some maxSteps → o.pauseError? = none → 1 ≤ o.renderer.tabWidth →
        (Terminal.run o ⟨program, name⟩ level).run.value = .ok final := by
  obtain ⟨sim, hsim⟩ :=
    (Simulation.exists_start_iff_ne_literal (Level.newGame level size)).2 hexpands
  obtain ⟨snapshots, final, hdelivers, -, -, hsimulate, hlast, hrun⟩ :=
    Simulation.exists_runToEnd_eq hsize hsim
  have hplay : ∀ s, Session.LeadsTo (.new level size maxDepth maxSteps) s → ∀ display,
      Session.Complete display snapshots (s.play program display none) ∧
        (s.play program display none).value.session.state = final := by
    intro s hs display
    have hboard : s.reset.state = Level.newGame level size := congrArg Session.state hs.reset_eq
    have hdepth : s.maxDepth = maxDepth := congrArg Session.maxDepth hs.reset_eq
    have hsteps : s.maxSteps = maxSteps := congrArg Session.maxSteps hs.reset_eq
    have hown : Simulation.ofProgram program s.reset.state s.maxDepth s.maxSteps = .ok sim := by
      rw [hboard, hdepth, hsteps]
      exact hsim
    obtain ⟨hcomplete, hstate⟩ := Session.play_delivers hown hdelivers display
    rw [hlast] at hstate
    exact ⟨hcomplete, hstate⟩
  refine ⟨snapshots, final, hsimulate, hrun, hplay, ?_⟩
  intro o name hgrid hdepth hsteps hpause hw
  have hsession : o.session level = .new level size maxDepth maxSteps := by
    rw [Terminal.RunOptions.session, hgrid, hdepth, hsteps]
    rfl
  have hexpansion : o.expansionError? program = none := by
    rw [Terminal.RunOptions.expansionError?, hdepth, hsteps]
  have hs : Session.LeadsTo (.new level size maxDepth maxSteps) (o.session level) := by
    rw [hsession]
    exact .refl
  obtain ⟨hcomplete, hstate⟩ := hplay _ hs (Terminal.display o.quiet)
  have hvalue := Terminal.value_run ⟨program, name⟩ level hw hexpansion hpause hcomplete.unfailing
  rw [hvalue, hstate]

/-- A countdown that wins the game, in a session that has reset itself during its last play and has
been cancelled after that, and quietly in a terminal. -/
theorem runs_agree_countdown :
    let level := "o\nu".toList
    let program := "f(A):sf(A-1)\nf(2)".toList
    let first := Session.new level 2 9 9
    let s := ((first.play "srs".toList (fun _ => []) (some ⟨1, .reset⟩)).value.session.perform
      .cancel).session
    ∃ snapshots final,
      (simulate program (Level.newGame level 2) 9 9).value = .ok snapshots ∧
      (runToEnd program (Level.newGame level 2) 9 9).value = .ok (some final) ∧
      Session.Complete (Terminal.display false) snapshots
        (s.play program (Terminal.display false) none) ∧
      (s.play program (Terminal.display false) none).value.session.state = final ∧
      (Terminal.run { gridSize := 2, maxDepth := some 9, maxSteps := some 9, quiet := true }
        ⟨program, "p".toList⟩ level).run.value = .ok final := by
  intro level program first s
  have hshort : (Program.parse program).ShortRuns := by
    have hmain : (Program.parse program).main.length ≤ Numeral.maxDigits := by decide
    have hbodies : ∀ d ∈ (Program.parse program).functions, d.body.length ≤ Numeral.maxDigits := by
      decide
    exact ⟨Text.shortRuns_of_length_le hmain,
      fun d hd => Text.shortRuns_of_length_le (hbodies d hd)⟩
  have hstarts := (Simulation.exists_start_iff hshort 9 9 (Level.newGame level 2)).2
    (.inl (Numeral.writable_of_natAbs_le (by decide)))
  obtain ⟨snapshots, final, hsimulate, hrun, hplay, hterminal⟩ :=
    runs_agree level program 9 9 (by decide : (1 : Int) ≤ 2)
      ((Simulation.exists_start_iff_ne_literal _).1 hstarts)
  have hs : Session.LeadsTo first s := .perform (.play .refl _ _ _) .cancel
  obtain ⟨hcomplete, hstate⟩ := hplay s hs (Terminal.display false)
  exact ⟨snapshots, final, hsimulate, hrun, hcomplete, hstate,
    hterminal _ _ rfl rfl rfl rfl (by decide)⟩

end RobotMaze
