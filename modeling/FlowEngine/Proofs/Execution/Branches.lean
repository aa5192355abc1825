import FlowEngine.Proofs.Execution.Recording
import FlowEngine.Proofs.Reach
/-!
# `FlowEngine.Proofs.Execution.Branches` — the edges that a run takes

A run that minds the branches leaves a node by some of its edges only, and which they are is known
when the node has done its work.  `Canvas.takenEdges` collects them from behind, out of the visits
of a run that is over.  It is no part of the executor, which never has the list in hand.

The run is tied to that list by `Follows`, as a run along every edge is tied to the whole canvas.
What has to be shown is that the visits agree on an edge, and they do for a simple reason: at the
source of an edge there is one visit at most.
-/

namespace FlowEngine

/-! ## Taken edges -/

namespace Visit

/-- The branch that the node has reported. -/
def branch? (visit : Visit) : Option String :=
  match visit.result with
  | .ok out => out.branch
  | .error _ => none

/-- The edge leaves the node, and not by another branch than the one reported. -/
def leavesBy (edge : Edge) (visit : Visit) : Bool :=
  edge.source == visit.node.id &&
    (edge.sourceHandle.isNone || visit.branch?.isNone || edge.sourceHandle == visit.branch?)

theorem leavesBy_iff {edge : Edge} {visit : Visit} : visit.leavesBy edge = true ↔
    edge.source = visit.node.id ∧
      (edge.sourceHandle = none ∨ visit.branch? = none ∨ edge.sourceHandle = visit.branch?) := by
  simp [leavesBy, or_assoc]

/-- A traversal follows behind the node the edges that the node is left by. -/
theorem follows_branch {visit : Visit} {out : NodeOutput} (h : visit.result = .ok out)
    (edge : Edge) : Traversal.follows visit.node.id out.branch edge = visit.leavesBy edge := by
  have hbranch : visit.branch? = out.branch := by rw [branch?, h]
  rw [Bool.eq_iff_iff, Traversal.follows_iff, leavesBy_iff, hbranch]

/-- Where no node is visited twice, one visit decides about an edge that leaves its node. -/
theorem any_leavesBy {visits : List Visit} (hnodup : (ids visits).Nodup) {visit : Visit}
    (hvisit : visit ∈ visits) (edge : Edge) :
    (Traversal.follows visit.node.id none edge && visits.any (leavesBy edge)) =
      visit.leavesBy edge := by
  rw [Bool.eq_iff_iff, Bool.and_eq_true, List.any_eq_true]
  constructor
  · rintro ⟨hsource, other, hother, hleaves⟩
    have hid : other.node.id = visit.node.id := by
      rw [← (leavesBy_iff.mp hleaves).1]
      simpa [Traversal.follows] using hsource
    rwa [← List.inj_on_of_nodup_map hnodup hother hvisit hid]
  · intro hleaves
    refine ⟨?_, visit, hvisit, hleaves⟩
    simp [Traversal.follows, (leavesBy_iff.mp hleaves).1]

end Visit

/-- The edges that lead from a visited node to a node, and not by another branch than the one that
the visited node has reported. -/
def Canvas.takenEdges (canvas : Canvas) (visits : List Visit) : List Edge :=
  canvas.edges.filter fun edge => canvas.hasNode edge.target && visits.any (Visit.leavesBy edge)

theorem Canvas.mem_takenEdges {canvas : Canvas} {visits : List Visit} {edge : Edge} :
    edge ∈ canvas.takenEdges visits ↔ edge ∈ canvas.edges ∧ canvas.hasNode edge.target = true ∧
      ∃ visit ∈ visits, edge.source = visit.node.id ∧
        (edge.sourceHandle = none ∨ visit.branch? = none ∨
          edge.sourceHandle = visit.branch?) := by
  simp only [takenEdges, List.mem_filter, Bool.and_eq_true, List.any_eq_true, Visit.leavesBy_iff]

namespace Executor

variable {executor : Executor} {run : Run} {flow : Flow} {input : Json}

theorem follows_of_matchHandle {canvas : Canvas} {visits : List Visit}
    (hmode : executor.settings.branchMode = .matchHandle) (hnodup : (Visit.ids visits).Nodup) :
    executor.Follows canvas (canvas.takenEdges visits) visits := by
  intro visit hvisit out hok
  have hbranch : executor.takenBranch out = out.branch := by rw [takenBranch, hmode]
  rw [hbranch, Canvas.takenEdges, List.filter_map, List.filter_filter, List.filter_filter]
  congr 2
  funext edge
  rw [Bool.and_left_comm, Visit.any_leavesBy hnodup hvisit, Visit.follows_branch hok]
  rfl

/-- A run that minds the branches goes along the taken edges, all the way unless a node fails. -/
theorem Tour.prefix_takenEdges {visits : List Visit} {trigger : Node}
    (h : executor.Tour run flow input visits) (htrigger : flow.canvas.trigger? = some trigger)
    (hmode : executor.settings.branchMode = .matchHandle) :
    Visit.ids visits <+:
        trigger.id :: downstreamOrder trigger.id (flow.canvas.takenEdges visits) ∧
      (Visit.failure? visits = none → Visit.ids visits =
        trigger.id :: downstreamOrder trigger.id (flow.canvas.takenEdges visits)) :=
  h.prefix_downstreamOrder htrigger (follows_of_matchHandle hmode h.nodup_ids)

/-! ## What is executed -/

/-- What a run that has gone all the way along some edges has executed, recorded and invoked. -/
structure Covers (executor : Executor) (taken : List Edge) (trigger : String) (log : List Entry)
    (report : RunReport) : Prop where
  order : report.executed = trigger :: downstreamOrder trigger taken
  executed : ∀ id, id ∈ report.executed ↔ Reaches taken trigger id
  recorded : ∀ id, id ∈ report.steps.map RunStep.nodeId ↔ Reaches taken trigger id
  invoked : ∀ id, id ∈ Entry.invocations log ↔ Reaches taken trigger id ∧
    ∃ step ∈ report.steps, step.nodeId = id ∧ executor.registry.contains step.nodeType = true
  unblocked : ∀ edge ∈ taken, edge.target ∈ report.executed

/-- The handlers that have worked are those of the steps whose type has one. -/
theorem mem_invocations_log (input : Json) {chronicle : Chronicle} {id : String} :
    id ∈ Entry.invocations (chronicle.log executor run flow) ↔
      ∃ step ∈ (chronicle.report executor run flow input).steps, step.nodeId = id ∧
        executor.registry.contains step.nodeType = true := by
  rw [Chronicle.invocations_log, Visit.ids, Chronicle.report]
  simp only [List.mem_map, List.mem_filter, exists_exists_and_eq_and, Visit.nodeId_step,
    Visit.nodeType_step, Visit.isServed]
  constructor
  · rintro ⟨visit, ⟨hvisit, hserved⟩, hid⟩
    exact ⟨visit, hvisit, hid, hserved⟩
  · rintro ⟨visit, hvisit, hid, hserved⟩
    exact ⟨visit, ⟨hvisit, hserved⟩, hid⟩

theorem Tour.covers {chronicle : Chronicle} {trigger : Node}
    (h : executor.Tour run.running flow input chronicle.visits)
    (htrigger : flow.canvas.trigger? = some trigger)
    (hmode : executor.settings.branchMode = .matchHandle)
    (hsuccess : (chronicle.final run).status = .success) :
    executor.Covers (flow.canvas.takenEdges chronicle.visits) trigger.id
      (chronicle.log executor run flow) (chronicle.report executor run flow input) := by
  have horder := (h.prefix_takenEdges htrigger hmode).2
    (Visit.failure?_of_runError? (Chronicle.final_status_eq_success.mp hsuccess))
  have hexecuted : ∀ id, id ∈ (chronicle.report executor run flow input).executed ↔
      Reaches (flow.canvas.takenEdges chronicle.visits) trigger.id id := by
    intro id
    rw [← mem_cons_downstreamOrder, ← horder]
    rfl
  have hnodes : (chronicle.report executor run flow input).steps.map RunStep.nodeId =
      (chronicle.report executor run flow input).executed := h.settled.nodes
  refine ⟨horder, hexecuted, by rw [hnodes]; exact hexecuted, ?_, ?_⟩
  · intro id
    rw [mem_invocations_log input, ← hexecuted, ← hnodes]
    refine (and_iff_right_of_imp ?_).symm
    rintro ⟨step, hstep, rfl, -⟩
    exact List.mem_map_of_mem hstep
  · intro edge hedge
    -- The source of a taken edge is visited, so it is reached, and its target one edge further on.
    obtain ⟨-, -, visit, hvisit, hsource, -⟩ := Canvas.mem_takenEdges.mp hedge
    have hreach := (hexecuted visit.node.id).mp (List.mem_map_of_mem hvisit)
    exact (hexecuted edge.target).mpr (hreach.tail ⟨edge, hedge, hsource, rfl⟩)

/-- A run that minds the branches and succeeds has executed the nodes that the taken edges lead to,
breadth-first from its trigger, and no other; and one that fails has not gone beyond what is
downstream of its trigger. -/
theorem executed_takenEdges (executor : Executor) (run : Run) (flow : Flow) (input : Json)
    (hmode : executor.settings.branchMode = .matchHandle) (hq : run.status = .queued)
    {t : Transcript} {outcome : Except FlowError RunReport}
    (h : (executor.execute run flow input).Leads t outcome) :
    ∃ (chronicle : Chronicle) (report : RunReport),
      chronicle.Tells executor run flow input t outcome ∧ outcome = .ok report ∧
      report.executed = Visit.ids chronicle.visits ∧
      match flow.canvas.trigger? with
      | none => report.executed = [] ∧ report.run.status ≠ .success
      | some trigger =>
        (∀ id ∈ report.executed,
          id = trigger.id ∨ id ∈ downstreamOrder trigger.id flow.canvas.edges) ∧
        (report.run.status = .success →
          executor.Covers (flow.canvas.takenEdges chronicle.visits) trigger.id
            (chronicle.log executor run flow) report) := by
  obtain ⟨chronicle, htells⟩ := Program.leads_execute hq h
  refine ⟨chronicle, _, htells, htells.outcome, rfl, ?_⟩
  cases htrigger : flow.canvas.trigger? with
  | none =>
      obtain ⟨hfailed, -, -⟩ := htells.tour.settled.withoutTrigger htrigger
      refine ⟨?_, by rw [hfailed]; exact RunStatus.noConfusion⟩
      rw [Chronicle.report, htells.tour.eq_nil_iff.mpr htrigger]
      rfl
  | some trigger =>
      refine ⟨?_, htells.tour.covers htrigger hmode⟩
      intro id hid
      have hmem := (htells.tour.prefix_takenEdges htrigger hmode).1.subset hid
      have hreach := mem_cons_downstreamOrder.mp hmem
      exact List.mem_cons.mp (mem_cons_downstreamOrder.mpr
        (hreach.mono fun edge hedge => (Canvas.mem_takenEdges.mp hedge).1))

def choosing : Executor :=
  { settings := { branchMode := .matchHandle }
    registry :=
      { handlers :=
          [{ kind := "trigger.manual", execute := fun _ => return .ok { output := .null } },
            { kind := "choose"
              execute := fun _ => return .ok { output := .null, branch := some "yes" } }] } }

/-- A choice between two nodes; of the two edges to the one that is chosen, the first is for the
branch that is not taken. -/
def choice : Flow :=
  { id := "f", name := "f"
    canvas :=
      { nodes := [⟨"t", "trigger.manual", []⟩, ⟨"c", "choose", []⟩, ⟨"a", "log", []⟩,
          ⟨"b", "log", []⟩]
        edges := [{ source := "t", target := "c" },
          { source := "c", target := "a", sourceHandle := some "no" },
          { source := "c", target := "b", sourceHandle := some "no" },
          { source := "c", target := "a", sourceHandle := some "yes" }] } }

theorem takenEdges_choice :
    ∃ (t : Transcript) (outcome : Except FlowError RunReport) (chronicle : Chronicle)
      (report : RunReport),
      (choosing.execute (.queued "f" .manual false ⟨0, 0⟩) choice .null).Leads t outcome ∧
      outcome = .ok report ∧ report.executed = ["t", "c", "a"] ∧
      choosing.Covers (choice.canvas.takenEdges chronicle.visits) "t"
        (chronicle.log choosing (.queued "f" .manual false ⟨0, 0⟩) choice) report := by
  let run : Run := .queued "f" .manual false ⟨0, 0⟩
  obtain ⟨t, h⟩ := Program.leads_runWith outage (choosing.execute run choice .null) ()
  obtain ⟨chronicle, report, -, houtcome, -, -, hcovers⟩ :=
    executed_takenEdges choosing run choice .null rfl rfl h
  have hends : (((choosing.execute run choice .null).runWith outage ()).1.toOption.map
      fun report => (report.executed, report.run.status)) =
      some (["t", "c", "a"], .success) := rfl
  rw [houtcome] at hends
  simp only [Except.toOption, Option.map_some, Option.some.injEq, Prod.mk.injEq] at hends
  exact ⟨t, _, chronicle, report, h, houtcome, hends.1, hcovers hends.2⟩

end Executor

end FlowEngine
