import FlowEngine.Proofs.Workbench.World
import FlowEngine.Workbench.Session
/-!
# `FlowEngine.Proofs.Workbench.Session` — what is done in a session is a history

Whoever works with an engine in a session, where nothing fails on purpose, sees what a service may
do: a request is an occasion of its own, time that passes lets jobs fire and flows be loaded anew,
and so does setting a schedule to work.  Requests that are answered one after the other, with time
between them, make one history with the answers that were given (`exists_history_answered`).  So
what holds of every history holds of every such session.
-/

namespace FlowEngine

open Program (Asks)

namespace Workbench

open Service (History Occasion)

/-! ## Probes -/

namespace Probe

theorem works_fork : fork.Works := by
  intro context
  show (executeFork context).Asks (Action.IsWorkOf context)
  unfold executeFork
  split
  · exact .pure _
  · exact (context.works_notify _).bind fun _ => .pure _

/-- The handlers of a session keep to the work of their nodes. -/
theorem works_registry : ∀ handler ∈ registry.handlers, handler.Works := by
  intro handler hmem
  rcases List.mem_append.mp (Registry.mem_of_mem_ofHandlers hmem) with hstandard | hprobe
  · exact works_standardHandlers handler hstandard
  · simp only [List.mem_cons, List.not_mem_nil, or_false] at hprobe
    rcases hprobe with rfl | rfl | rfl | rfl | rfl
    · exact fun _ => .pure _
    · exact fun _ => .pure _
    · exact works_fork
    · exact fun _ => .pure _
    · exact fun _ => .pure _

end Probe

namespace Session

variable {s : Session}

theorem inOrder_begun (settings : Settings) (time : Timestamp) (rejecting : Bool) :
    (begun settings time rejecting []).world.InOrder :=
  ⟨rfl, rfl, Probe.works_registry, List.forall_mem_nil _⟩

/-! ## Single steps -/

/-- Time that passes lets jobs fire and flows be loaded anew, if a schedule is at work, and lets the
tasks go on. -/
theorem exists_elapses_advance (h : s.world.InOrder) (millis : Nat) :
    ∃ past, World.Elapses s.world past (s.advance millis).world := by
  obtain ⟨past, hpast⟩ := World.exists_elapses_passTo h (s.world.clock + millis)
  have hsettled := World.goes_settle hpast.inOrder World.maxTurns
  exact ⟨_, hpast.trans hsettled.elapses⟩

theorem request_eq (s : Session) (asked : Api.Request) :
    s.request asked = ((s.world.perform (Api.answer s.engine asked)).1,
      { s with world := (s.world.perform (Api.answer s.engine asked)).2.passUntilIdle }) := by
  rw [request, perform]

/-- A request is answered on an occasion of its own, if no schedule is at work meanwhile or nobody
has to wait; then time passes until all tasks have ended. -/
theorem exists_occurs_request (h : s.world.InOrder) (asked : Api.Request)
    (halone : s.world.ticker = none ∨ (Api.answer s.engine asked).Asks Action.IsPrompt) :
    ∃ t past, World.Occurs s.world ((.request asked (s.request asked).1, t) :: past)
        (s.request asked).2.world ∧
      (∀ pair ∈ past, pair.1.isScheduled = true) ∧
      (s.world.ticker = none → past = [] ∧ (s.request asked).2.world.ticker = none) := by
  obtain ⟨t, hleads, hgoes⟩ := World.exists_goes_perform h halone
  have hrequest : Occasion.Leads s.world.engine t
      (.request asked (s.world.perform (Api.answer s.engine asked)).1) := hleads
  obtain ⟨past, hpast⟩ := World.exists_elapses_passUntilIdle hgoes.inOrder
  have hoccurs := (hgoes.single hrequest).trans hpast.toOccurs
  rw [List.singleton_append] at hoccurs
  rw [request_eq]
  refine ⟨t, past, ?_, hpast.scheduled, fun hidle => ?_⟩
  · dsimp only
    exact hoccurs
  · dsimp only
    exact hpast.idle (hgoes.ticker.trans hidle)

theorem exists_occurs_startSchedule (h : s.world.InOrder) :
    ∃ loaded t, World.Occurs s.world [(.reload .plain {} loaded, t)] s.startSchedule.world := by
  obtain ⟨t, hoccurs⟩ := World.exists_occurs_reloadTable h {}
  exact ⟨_, t, hoccurs _⟩

/-- Loading the flows anew is an occasion too, whether or not a schedule is at work. -/
theorem exists_occurs_reloadSchedule (h : s.world.InOrder) :
    ∃ loaded t, World.Occurs s.world [(.reload .plain s.table loaded, t)]
      s.reloadSchedule.2.2.world := by
  obtain ⟨t, hoccurs⟩ := World.exists_occurs_reloadTable h s.table
  exact ⟨_, t, hoccurs _⟩

/-! ## Whole sessions -/

/-- Requests answered one after the other, each after some time, and what is answered. -/
def answered : List (Nat × Api.Request) → Session → List (Api.Request × Api.Response) × Session
  | [], s => ([], s)
  | (millis, asked) :: rest, s =>
    let first := (s.advance millis).request asked
    let later := answered rest first.2
    ((asked, first.1) :: later.1, later.2)

/-- Where no schedule is at work, the requests of a session and their answers are the occasions of a
history, and nothing else is. -/
theorem exists_history_answered (h : s.world.InOrder) (hidle : s.world.ticker = none)
    (requests : List (Nat × Api.Request)) :
    ∃ past, History s.engine s.world.service past (answered requests s).2.world.service ∧
      past.map Prod.fst =
        (answered requests s).1.map fun pair => Occasion.request pair.1 pair.2 := by
  suffices hoccurs : ∃ past, World.Occurs s.world past (answered requests s).2.world ∧
      past.map Prod.fst =
        (answered requests s).1.map fun pair => Occasion.request pair.1 pair.2 by
    obtain ⟨past, hpast, hanswers⟩ := hoccurs
    exact ⟨past, hpast.history, hanswers⟩
  induction requests generalizing s with
  | nil => exact ⟨[], (World.Goes.refl h).occurs, rfl⟩
  | cons first rest ih =>
      obtain ⟨millis, asked⟩ := first
      obtain ⟨waited, hwaited⟩ := exists_elapses_advance h millis
      obtain ⟨rfl, hidle'⟩ := hwaited.idle hidle
      obtain ⟨t, behind, hrequest, -, hbehind⟩ :=
        exists_occurs_request hwaited.inOrder asked (Or.inl hidle')
      obtain ⟨rfl, hidle''⟩ := hbehind hidle'
      obtain ⟨past, hpast, hanswers⟩ := ih hrequest.inOrder hidle''
      have hoccurs := hwaited.toOccurs.trans (hrequest.trans hpast)
      rw [answered]
      dsimp only
      refine ⟨_, hoccurs, ?_⟩
      rw [List.nil_append, List.singleton_append, List.map_cons, hanswers, List.map_cons]

theorem exists_history_begun (settings : Settings) (time : Timestamp) (rejecting : Bool)
    (requests : List (Nat × Api.Request)) :
    let ended := answered requests (begun settings time rejecting [])
    ∃ past, History ⟨settings, Probe.registry⟩ ⟨{}, []⟩ past ended.2.world.service ∧
      past.map Prod.fst = ended.1.map fun pair => Occasion.request pair.1 pair.2 :=
  exists_history_answered (inOrder_begun settings time rejecting) rfl requests

end Session

end Workbench

end FlowEngine
