import FlowEngine.Proofs.Execution.Order
import FlowEngine.Proofs.Json.Members
/-!
# `FlowEngine.Proofs.Execution.Data` — the data of a run on its way

The data of a run is a fold over its visits: each node is given what the visits before it have
made of the input, and hands on its output, unless that is null or there is none (`Visit.hand`).
The fold is the one thing that the four tellings of the data agree with: what the handler sees,
what the step keeps, what the context holds and what is reported.

`Itinerary.inTurn` says it for contexts: every visit has its turn in the context that the visits
before it have left.  The rest is what one visit leaves, taken over the list.
-/

namespace FlowEngine

theorem Json.isNull_iff {value : Json} : value.isNull = true ↔ value = .null := by
  cases value <;> simp [Json.isNull]

theorem snapshot_eq_none_iff {value : Json} : snapshot value = none ↔ value = .null := by
  rw [← Json.isNull_iff, snapshot]
  split <;> simp [*]

namespace Visit

/-! ## What visits make of the data -/

/-- What the data becomes by a visit: the output, unless it is null or the node has failed. -/
def hand (data : Json) (visit : Visit) : Json :=
  match visit.result with
  | .ok out => if out.output.isNull then data else out.output
  | .error _ => data

def threaded (data : Json) (visits : List Visit) : Json := visits.foldl hand data

/-- The output of a visit; a failed one has none. -/
def output? (visit : Visit) : Option Json :=
  match visit.result with
  | .ok out => some out.output
  | .error _ => none

variable {visit : Visit}

theorem output?_eq_some_iff {output : Json} :
    visit.output? = some output ↔ ∃ out, visit.result = .ok out ∧ out.output = output := by
  unfold output?
  cases visit.result <;> simp

theorem data_leave (context : ExecutionContext) :
    (visit.leave context).data = hand context.data visit := by
  unfold leave hand
  cases visit.result <;> rfl

theorem data_leaveAll (visits : List Visit) (context : ExecutionContext) :
    (leaveAll visits context).data = threaded context.data visits := by
  induction visits generalizing context with
  | nil => rfl
  | cons visit later ih =>
      rw [leaveAll, List.foldl_cons, ← leaveAll, ih, data_leave]
      rfl

/-! ## What visits make of the outputs -/

theorem lookup_leave (id : String) (context : ExecutionContext) :
    Json.lookup id (visit.leave context).outputs =
      if visit.node.id = id then visit.output?.or (Json.lookup id context.outputs)
      else Json.lookup id context.outputs := by
  unfold leave output?
  cases visit.result with
  | ok out => exact Json.lookup_insert visit.node.id id out.output context.outputs
  | error e => simp

theorem lookup_leaveAll {visits : List Visit} (hnodup : (ids visits).Nodup) (id : String)
    (output : Json) (context : ExecutionContext) (hid : id ∈ ids visits →
      Json.lookup id context.outputs = none) :
    Json.lookup id (leaveAll visits context).outputs = some output ↔
      Json.lookup id context.outputs = some output ∨
        ∃ visit ∈ visits, visit.node.id = id ∧ visit.output? = some output := by
  induction visits generalizing context with
  | nil => simp [leaveAll]
  | cons visit later ih =>
      obtain ⟨hnotin, hnodup⟩ := List.nodup_cons.mp hnodup
      rw [leaveAll, List.foldl_cons, ← leaveAll]
      by_cases h : visit.node.id = id
      · -- No later visit is at this node, so what it has left stays.
        subst h
        have hnone := hid List.mem_cons_self
        rw [ih hnodup _ fun h => absurd h hnotin, lookup_leave, if_pos rfl, hnone]
        simp
      · have hsame : Json.lookup id (visit.leave context).outputs =
            Json.lookup id context.outputs := by
          rw [lookup_leave, if_neg h]
        rw [ih hnodup _ fun hmem => hsame.trans (hid (List.mem_cons_of_mem _ hmem)), hsame]
        simp [h]

theorem sorted_leaveAll (visits : List Visit) (context : ExecutionContext)
    (h : Json.Sorted context.outputs) : Json.Sorted (leaveAll visits context).outputs := by
  induction visits generalizing context with
  | nil => exact h
  | cons visit later ih =>
      refine ih (visit.leave context) ?_
      unfold leave
      cases visit.result with
      | ok out => exact h.insert visit.node.id out.output
      | error e => exact h

end Visit

/-! ## Every visit in its context -/

namespace Executor

variable {executor : Executor} {run : Run} {canvas : Canvas} {flow : Flow} {input : Json}

/-- A visit is given what the visits before it have made of the input. -/
theorem Tour.data_eq {visits : List Visit} (h : executor.Tour run flow input visits) (i : Nat)
    (hi : i < visits.length) : visits[i].data = Visit.threaded input (visits.take i) := by
  rw [(h.inTurn.getElem i hi).1, Visit.data_leaveAll]
  rfl

end Executor

/-! ## The fold, in all its tellings -/

/-- A visit, and the step that is kept of it, in terms of the data that the node is given. -/
structure Visit.Given (executor : Executor) (run : Run) (data : Json) (visit : Visit)
    (step : RunStep) : Prop where
  /-- The handler is invoked with the data, and with the configuration filled from it. -/
  invoked : ∀ handler, executor.registry.resolve? visit.node.kind = some handler →
    visit.workLog executor run =
        [.worked handler (visit.node.seen run data) visit.work visit.result] ∧
      (handler.execute (visit.node.seen run data)).Leads visit.work visit.result
  unserved : executor.registry.resolve? visit.node.kind = none →
    visit.result = executor.unregistered visit.node
  nodeId : step.nodeId = visit.node.id
  input : step.input = snapshot data
  withoutInput : step.input = none ↔ data = .null
  succeeded : ∀ out, visit.result = .ok out →
    step.status = .success ∧ step.output = snapshot out.output
  failed : ∀ e, visit.result = .error e → step.status = .failed

namespace Executor

theorem Turn.given {executor : Executor} {run : Run} {context : ExecutionContext} {visit : Visit}
    (h : executor.Turn run context visit) :
    visit.Given executor run context.data (visit.step executor run) := by
  obtain ⟨hdata, hwork⟩ := h
  rw [← hdata]
  unfold Visit.IsWork at hwork
  refine
    { invoked := ?_
      unserved := ?_
      nodeId := Visit.nodeId_step
      input := Visit.input_step
      withoutInput := ?_
      succeeded := fun _ => Visit.step_of_ok
      failed := fun _ he => (Visit.step_of_error he).1 }
  · intro handler hhandler
    rw [hhandler] at hwork
    refine ⟨?_, hwork⟩
    rw [Visit.workLog, hhandler]
    rfl
  · intro hnone
    rw [hnone] at hwork
    exact hwork.2
  · rw [Visit.input_step]
    exact snapshot_eq_none_iff

/-- A run hands its data on from node to node, as a fold of the visits over the input: so the
handlers see it, so the steps keep it, and so it is reported. -/
theorem data_threaded (executor : Executor) (run : Run) (flow : Flow) (input : Json)
    (hq : run.status = .queued) {t : Transcript} {outcome : Except FlowError RunReport}
    (h : (executor.execute run flow input).Leads t outcome) :
    ∃ (chronicle : Chronicle) (report : RunReport),
      t = Entry.transcripts (chronicle.log executor run flow) ∧ outcome = .ok report ∧
      chronicle.visits.head?.map Visit.node = flow.canvas.trigger? ∧
      (∀ visit ∈ chronicle.visits.tail, flow.canvas.find? visit.node.id = some visit.node) ∧
      report.executed = Visit.ids chronicle.visits ∧
      report.steps.length = chronicle.visits.length ∧
      (∀ (i : Nat) (visit : Visit) (step : RunStep), chronicle.visits[i]? = some visit →
        report.steps[i]? = some step →
        visit.Given executor run.running (Visit.threaded input (chronicle.visits.take i)) step) ∧
      report.data = Visit.threaded input chronicle.visits ∧
      Json.Sorted report.outputs ∧
      ∀ id output, Json.lookup id report.outputs = some output ↔
        ∃ visit ∈ chronicle.visits, visit.node.id = id ∧
          ∃ out, visit.result = .ok out ∧ out.output = output := by
  obtain ⟨chronicle, htour, ht, houtcome⟩ := Program.leads_execute hq h
  obtain ⟨hhead, htail⟩ := htour.nodes
  refine ⟨chronicle, chronicle.report executor run flow input, ht, houtcome, hhead, htail, rfl,
    List.length_map _, ?_, Visit.data_leaveAll _ _, Visit.sorted_leaveAll _ _ List.Pairwise.nil, ?_⟩
  · intro i visit step hvisit hstep
    obtain ⟨hi, rfl⟩ := List.getElem?_eq_some_iff.mp hvisit
    have hsteps : (chronicle.report executor run flow input).steps[i]? =
        some (chronicle.visits[i].step executor run.running) := by
      rw [Chronicle.report, List.getElem?_map, hvisit]
      rfl
    obtain rfl := Option.some.inj (hstep.symm.trans hsteps)
    rw [← htour.data_eq i hi]
    have hturn := htour.inTurn.getElem i hi
    exact hturn.1 ▸ hturn.given
  · intro id output
    rw [Chronicle.report, Visit.lookup_leaveAll htour.nodup_ids id output _ fun _ => rfl]
    simp only [entryContext, Json.lookup, reduceCtorEq, false_or, Visit.output?_eq_some_iff]

theorem data_fadingLine :
    ∃ (t : Transcript) (outcome : Except FlowError RunReport),
      (fading.execute (.queued "f" .manual false ⟨0, 0⟩) fadingLine .null).Leads t outcome ∧
      ∃ (visits : List Visit) (report : RunReport), outcome = .ok report ∧
        Visit.ids visits = ["t", "m", "x"] ∧ Visit.threaded .null visits = .string "on" ∧
        report.outputs = [("m", .null), ("t", .string "on")] := by
  let run : Run := .queued "f" .manual false ⟨0, 0⟩
  obtain ⟨t, h⟩ := Program.leads_runWith outage (fading.execute run fadingLine .null) ()
  obtain ⟨chronicle, report, -, houtcome, -, -, hexecuted, -, -, hdata, -, -⟩ :=
    data_threaded fading run fadingLine .null rfl h
  have hends : (((fading.execute run fadingLine .null).runWith outage ()).1.toOption.map
      fun report => (report.executed, report.data, report.outputs)) =
      some (["t", "m", "x"], .string "on", [("m", .null), ("t", .string "on")]) := rfl
  rw [houtcome] at hends
  simp only [Except.toOption, Option.map_some, Option.some.injEq, Prod.mk.injEq] at hends
  obtain ⟨hids, hlast, houtputs⟩ := hends
  exact ⟨t, _, h, chronicle.visits, report, houtcome, hexecuted ▸ hids, hdata ▸ hlast, houtputs⟩

end Executor

end FlowEngine
