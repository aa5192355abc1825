import FlowEngine.Proofs.Execution.Itinerary
import FlowEngine.Proofs.Traversal
/-!
# `FlowEngine.Proofs.Execution.Chronicle` — all that a run can be

A chronicle is a list of visits with what the world answered before and behind them.  The log of a
run and its report are functions of the chronicle.  `leads_execute` is the inversion of `execute`:
a queued run has a chronicle whatever the world answers, and its transcript and its outcome are the
chronicle's.

The way there is by the parts of a run: `leads_visitQueued` and `leads_walk` find the visits, and
with them the fuel of the loop is gone for good.
-/

namespace FlowEngine

/-- How far a run has come after a list of visits. -/
def Executor.Progress.after (executor : Executor) (run : Run) (progress : Executor.Progress)
    (visits : List Visit) : Executor.Progress :=
  { context := Visit.leaveAll visits progress.context
    executed := progress.executed ++ visits.map fun visit => visit.node.id
    steps := progress.steps ++ visits.map (Visit.step executor run) }

section Walk

variable {executor : Executor} {run : Run} {canvas : Canvas} {flow : Flow} {input : Json}

/-- The progress behind one more node. -/
def Executor.Progress.next (executor : Executor) (run : Run) (progress : Executor.Progress)
    (visit : Visit) : Executor.Progress :=
  { progress with
    executed := progress.executed ++ [visit.node.id]
    steps := progress.steps ++ [visit.step executor run] }

theorem Executor.Progress.after_nil (progress : Executor.Progress) :
    progress.after executor run [] = progress := by
  simp [Executor.Progress.after, Visit.leaveAll]

theorem Executor.Progress.after_of_error {visit : Visit} {e : NodeError}
    (h : visit.result = .error e) (progress : Executor.Progress) :
    progress.after executor run [visit] = progress.next executor run visit := by
  simp [Executor.Progress.after, Executor.Progress.next, Visit.leaveAll, Visit.leave, h]

theorem Executor.Progress.after_cons_of_ok {visit : Visit} {out : NodeOutput}
    (h : visit.result = .ok out) (progress : Executor.Progress) (traversal : Traversal)
    (later : List Visit) :
    progress.after executor run (visit :: later) =
      (executor.pass visit.node.id out (progress.next executor run visit) traversal).1.after
        executor run later := by
  simp [Executor.Progress.after, Executor.Progress.next, Visit.leaveAll, Executor.pass,
    Visit.leave_of_ok h]

/-! ## The inversion of a walk -/

namespace Program

theorem leads_visitQueued {fuel : Nat} {traversal : Traversal} {progress : Executor.Progress}
    {t : Transcript} {walk : Executor.Walk} (hfuel : traversal.pending ≤ fuel)
    (h : (executor.visitQueued run canvas fuel traversal progress).Leads t walk) :
    ∃ visits, executor.Itinerary run canvas traversal progress.context visits ∧
      t = Entry.transcripts (Visit.logs executor run visits) ∧
      walk = ⟨progress.after executor run visits,
        (Visit.failure? visits).map NodeError.message⟩ := by
  -- Each turn of the loop takes one identifier from what is pending, and an expansion adds none.
  induction fuel generalizing traversal progress t with
  | zero =>
      obtain ⟨rfl, rfl⟩ := leads_pure.mp h
      have hq : traversal.queue = [] :=
        List.eq_nil_of_length_eq_zero (by simp only [Traversal.pending] at hfuel; omega)
      exact ⟨[], .done (by rw [hq]; rfl), rfl, by rw [Executor.Progress.after_nil]; rfl⟩
  | succ fuel ih =>
      unfold Executor.visitQueued at h
      cases hq : traversal.queue with
      | nil =>
          simp only [Traversal.next?, hq] at h
          obtain ⟨rfl, rfl⟩ := leads_pure.mp h
          exact ⟨[], .done (by rw [hq]; rfl), rfl, by rw [Executor.Progress.after_nil]; rfl⟩
      | cons id rest =>
          have hless := Traversal.pending_of_queue_cons hq
          simp only [Traversal.next?, hq] at h
          cases hid : canvas.find? id with
          | none =>
              simp only [hid] at h
              obtain ⟨visits, hvisits, ht, hwalk⟩ := ih (by omega) h
              exact ⟨visits, hvisits.skip hq hid, ht, hwalk⟩
          | some node =>
              simp only [hid] at h
              obtain rfl := Canvas.id_of_find? hid
              obtain ⟨t₁, t₂, out, rfl, hrun, h₁⟩ := leads_bind.mp h
              obtain ⟨visit, rfl, hdata, hwork, rfl, rfl⟩ := leads_runNode hrun
              have hfirst : canvas.firstNode? traversal.queue = some (visit.node, rest) := by
                rw [hq, Canvas.firstNode?, hid]
              cases hr : visit.result with
              | error e =>
                  simp only [hr] at h₁
                  obtain ⟨rfl, rfl⟩ := leads_pure.mp h₁
                  refine ⟨[visit], .failed hfirst ⟨hdata, hwork⟩ hr, ?_, ?_⟩
                  · rw [Visit.logs, List.flatMap_singleton, List.append_nil]
                  · rw [Executor.Progress.after_of_error hr, Visit.failure?_of_error hr]
                    rfl
              | ok out =>
                  simp only [hr] at h₁
                  have hpending : ({ traversal with queue := rest }.expand visit.node.id
                      (executor.takenBranch out)).pending ≤ fuel := by
                    rw [Traversal.pending_expand]
                    omega
                  obtain ⟨later, hlater, rfl, rfl⟩ := ih hpending h₁
                  refine ⟨visit :: later, .passed hfirst ⟨hdata, hwork⟩ hr ?_, ?_, ?_⟩
                  · rw [Visit.leave_of_ok hr]
                    exact hlater
                  · rw [Visit.transcripts_logs_cons]
                  · rw [Executor.Progress.after_cons_of_ok hr, Visit.failure?_cons_of_ok hr]
                    rfl

theorem leads_walk {t : Transcript} {walk : Executor.Walk}
    (h : (executor.walk run flow input).Leads t walk) :
    ∃ visits, executor.Tour run flow input visits ∧
      t = Entry.transcripts (Visit.logs executor run visits) ∧
      walk = ⟨Executor.Progress.after executor run
        { context := Executor.entryContext run flow input } visits, Visit.runError? visits⟩ := by
  unfold Executor.walk at h
  cases htrigger : flow.canvas.trigger? with
  | none =>
      rw [htrigger] at h
      obtain ⟨rfl, rfl⟩ := leads_pure.mp h
      exact ⟨[], .noTrigger htrigger, rfl, rfl⟩
  | some trigger =>
      rw [htrigger] at h
      obtain ⟨t₁, t₂, out, rfl, hrun, h₁⟩ := leads_bind.mp h
      obtain ⟨visit, rfl, hdata, hwork, rfl, rfl⟩ := leads_runNode hrun
      cases hr : visit.result with
      | error e =>
          rw [hr] at h₁
          obtain ⟨rfl, rfl⟩ := leads_pure.mp h₁
          refine ⟨[visit], .failed htrigger ⟨hdata, hwork⟩ hr, ?_, ?_⟩
          · rw [Visit.logs, List.flatMap_singleton, List.append_nil]
          · rw [Executor.Progress.after_of_error hr, Visit.runError?, Visit.failure?_of_error hr]
            rfl
      | ok out =>
          rw [hr] at h₁
          have hpending : ((Traversal.start flow.canvas.edges visit.node.id).expand visit.node.id
              (executor.takenBranch out)).pending ≤ flow.canvas.edges.length := by
            rw [Traversal.pending_expand]
            exact Traversal.pending_start_le _ _
          obtain ⟨later, hlater, rfl, rfl⟩ := leads_visitQueued hpending h₁
          refine ⟨visit :: later, .passed htrigger ⟨hdata, hwork⟩ hr ?_, ?_, ?_⟩
          · rw [Visit.leave_of_ok hr]
            exact hlater
          · rw [Visit.transcripts_logs_cons]
          · rw [Executor.Progress.after_cons_of_ok hr _ (.start flow.canvas.edges visit.node.id),
              Visit.runError?_cons_of_ok hr]
            rfl

end Program

end Walk

/-! ## Chronicles -/

def Run.running (run : Run) : Run := { run with status := .running }

def Run.ended (run : Run) (moment : Timestamp) (error : Option String) : Run :=
  { run with
    status := if error.isSome then .failed else .success
    finishedAt := some (moment.latest run.startedAt)
    error := error.or run.error }

/-- What the world answered in the course of a run, and the visits of the run. -/
structure Chronicle where
  watch : Nat
  /-- The answer to the update of the run's record at the beginning. -/
  started : Except StoreError Json
  announced : Timestamp
  visits : List Visit
  ended : Timestamp
  /-- The answer to the update of the run's record at the end. -/
  finished : Except StoreError Json
  stopped : Nat

namespace Chronicle

variable (executor : Executor) (run : Run) (flow : Flow) (input : Json) (chronicle : Chronicle)

def final : Run := run.running.ended chronicle.ended (Visit.runError? chronicle.visits)

def log : List Entry :=
  [.asked ⟨.elapsed, chronicle.watch⟩,
    .asked ⟨.update executor.settings.ledger.runs run.id run.running.toPatch, chronicle.started⟩,
    .asked ⟨.now, chronicle.announced⟩,
    .asked ⟨.publish (.runStarted run.id flow.id chronicle.announced), ()⟩] ++
  Visit.logs executor run.running chronicle.visits ++
  [.asked ⟨.now, chronicle.ended⟩,
    .asked ⟨.update executor.settings.ledger.runs run.id (chronicle.final run).toPatch,
      chronicle.finished⟩,
    .asked ⟨.elapsed, chronicle.stopped⟩,
    .asked ⟨.publish (.runCompleted run.id (chronicle.final run).status (chronicle.final run).error
      (chronicle.stopped - chronicle.watch) chronicle.ended), ()⟩]

def report : RunReport :=
  let context := Visit.leaveAll chronicle.visits (Executor.entryContext run flow input)
  { run := chronicle.final run, data := context.data, outputs := context.outputs
    executed := chronicle.visits.map fun visit => visit.node.id
    steps := chronicle.visits.map (Visit.step executor run.running) }

/-- The chronicle tells this execution: it is one of the run, and accounts for all that was asked
and answered and for what came of it. -/
structure Tells (t : Transcript) (outcome : Except FlowError RunReport) : Prop where
  tour : executor.Tour run.running flow input chronicle.visits
  transcript : t = Entry.transcripts (chronicle.log executor run flow)
  outcome : outcome = .ok (chronicle.report executor run flow input)

variable {run chronicle}

theorem final_status_eq_success :
    (chronicle.final run).status = .success ↔ Visit.runError? chronicle.visits = none := by
  unfold final Run.ended
  cases Visit.runError? chronicle.visits <;> simp

end Chronicle

/-! ## The inversion of a run -/

namespace Program

variable {executor : Executor} {run : Run} {flow : Flow} {input : Json}

theorem leads_record {t : Transcript} {u : Unit} (h : (executor.record run).Leads t u) :
    ∃ saved, t = [⟨.update executor.settings.ledger.runs run.id run.toPatch, saved⟩] := by
  obtain ⟨first, rest, answer, rfl, hsave, h₁⟩ := leads_bind.mp h
  obtain ⟨rfl, -⟩ := leads_pure.mp h₁
  obtain ⟨saved, rest, rfl, h₂⟩ := leads_perform_bind.mp hsave
  refine ⟨saved, ?_⟩
  cases saved with
  | error e => rw [(leads_pure.mp h₂).1]; rfl
  | ok record => rw [(leads_pure.mp h₂).1]; rfl

theorem start_of_queued (hq : run.status = .queued) : run.start = .ok run.running := by
  simp [Run.start, Run.transition, hq, RunStatus.mayBecome, Run.running]

theorem finish_running (error : Option String) (moment : Timestamp) :
    Executor.finish run.running error moment = .ok (run.running.ended moment error) := by
  cases error <;> rfl

theorem leads_execute (hq : run.status = .queued) {t : Transcript}
    {outcome : Except FlowError RunReport}
    (h : (executor.execute run flow input).Leads t outcome) :
    ∃ chronicle : Chronicle, chronicle.Tells executor run flow input t outcome := by
  obtain ⟨watch, t₁, rfl, h₁⟩ := leads_elapsed_bind.mp h
  rw [start_of_queued hq] at h₁
  obtain ⟨t₂, t₃, _, rfl, hstart, h₂⟩ := leads_bind.mp h₁
  obtain ⟨announced, t₄, rfl, h₃⟩ := leads_now_bind.mp h₂
  obtain ⟨t₅, rfl, h₄⟩ := leads_publish_bind.mp h₃
  obtain ⟨t₆, t₇, walk, rfl, hwalk, h₅⟩ := leads_bind.mp h₄
  obtain ⟨ended, t₈, rfl, h₆⟩ := leads_now_bind.mp h₅
  obtain ⟨visits, htour, rfl, rfl⟩ := leads_walk hwalk
  simp only [finish_running] at h₆
  obtain ⟨t₉, t₁₀, _, rfl, hfinish, h₇⟩ := leads_bind.mp h₆
  obtain ⟨stopped, t₁₁, rfl, h₈⟩ := leads_elapsed_bind.mp h₇
  obtain ⟨t₁₂, rfl, h₉⟩ := leads_publish_bind.mp h₈
  obtain ⟨rfl, rfl⟩ := leads_pure.mp h₉
  obtain ⟨started, rfl⟩ := leads_record hstart
  obtain ⟨finished, rfl⟩ := leads_record hfinish
  refine ⟨{ watch, started, announced, visits, ended, finished, stopped }, htour, ?_, rfl⟩
  simp only [Chronicle.log, Entry.transcripts_append]
  simp only [Entry.transcripts, Entry.transcript, List.flatMap_cons, List.flatMap_nil,
    List.cons_append, List.nil_append]
  rfl

/-- Whatever the world is, a queued run comes to its report, and has a chronicle. -/
theorem runWith_execute (hq : run.status = .queued) {σ : Type}
    (answer : (action : Action) → σ → action.Reply × σ) (world : σ) :
    ∃ (chronicle : Chronicle) (t : Transcript), chronicle.Tells executor run flow input t
      ((executor.execute run flow input).runWith answer world).1 := by
  obtain ⟨t, h⟩ := leads_runWith answer (executor.execute run flow input) world
  obtain ⟨chronicle, htells⟩ := leads_execute hq h
  exact ⟨chronicle, t, htells⟩

end Program

/-! ## A run to try things on -/

namespace Executor

/-- Three types of node: one leaves a text, one leaves null and one fails. -/
def fading : Executor :=
  { registry :=
      { handlers :=
          [{ kind := "trigger.manual", execute := fun _ => return .ok { output := .string "on" } },
            { kind := "mute", execute := fun _ => return .ok { output := .null } },
            { kind := "fail", execute := fun _ => return .error .missingRecipient }] } }

theorem fading_const : ∀ handler ∈ fading.registry.handlers,
    ∃ result, handler.execute = fun _ => return result := by
  simp only [fading, List.forall_mem_cons]
  exact ⟨⟨_, rfl⟩, ⟨_, rfl⟩, ⟨_, rfl⟩, List.forall_mem_nil _⟩

def fadingLine : Flow :=
  { id := "f", name := "f"
    canvas :=
      { nodes := [⟨"t", "trigger.manual", []⟩, ⟨"m", "mute", []⟩, ⟨"x", "fail", []⟩]
        edges := [{ source := "t", target := "m" }, { source := "m", target := "x" }] } }

end Executor

end FlowEngine
