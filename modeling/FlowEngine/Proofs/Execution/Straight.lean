import FlowEngine.Proofs.Execution.Order
import FlowEngine.Proofs.Execution.Outcome
/-!
# `FlowEngine.Proofs.Execution.Straight` — runs of valid canvases pass nothing over

The executor passes over an identifier without a node, and a run without a trigger ends with an error
of its own.  Neither happens on a canvas that validation accepts: every edge leads to a node there,
so whatever is queued has one, and there is a trigger.  `Straight` is the walk without these two
ways out.
-/

namespace FlowEngine

/-! ## The error of a run without a trigger is no other's -/

/-- The text has one of the marks that set off what an error is about. -/
def IsMarked (text : String) : Prop := ':' ∈ text.toList ∨ '\'' ∈ text.toList

theorem TransportError.isMarked_message (e : TransportError) : IsMarked e.message := by
  cases e <;> simp [IsMarked, message, String.toList_append]

theorem StoreError.isMarked_message (e : StoreError) : IsMarked e.message := by
  cases e with
  | transport e => exact e.isMarked_message
  | _ =>
      unfold message
      simp [IsMarked, String.toList_append]

theorem NodeError.isMarked_message (e : NodeError) :
    IsMarked e.message ∨ e.message = "No recordId or filter provided" := by
  cases e with
  | transport e => exact Or.inl e.isMarked_message
  | store e => exact Or.inl e.isMarked_message
  | missingSelector => exact Or.inr rfl
  | _ =>
      left
      unfold message
      simp [IsMarked, String.toList_append]

theorem not_isMarked_noTriggerNode : ¬ IsMarked FlowError.noTriggerNode.message := by
  unfold IsMarked
  decide

theorem NodeError.message_ne_noTriggerNode (e : NodeError) :
    e.message ≠ FlowError.noTriggerNode.message := by
  intro heq
  rcases e.isMarked_message with hmarked | hselector
  · exact not_isMarked_noTriggerNode (heq ▸ hmarked)
  · exact absurd (hselector.symm.trans heq) (by decide)

theorem Visit.runError?_ne_noTriggerNode {visits : List Visit} (h : visits ≠ []) :
    Visit.runError? visits ≠ some FlowError.noTriggerNode.message := by
  intro heq
  match visits with
  | [] => exact h rfl
  | [visit] =>
      obtain ⟨e, -, htext⟩ := Option.map_eq_some_iff.mp heq
      refine not_isMarked_noTriggerNode (htext ▸ Or.inl ?_)
      simp [String.toList_append]
  | first :: second :: later =>
      obtain ⟨e, -, htext⟩ := Option.map_eq_some_iff.mp heq
      exact e.message_ne_noTriggerNode htext

/-! ## Nothing is passed over -/

namespace Executor

variable {executor : Executor} {run : Run} {canvas : Canvas} {flow : Flow} {input : Json}
  {t : Traversal} {context : ExecutionContext} {visits : List Visit}

/-- From what is queued a walk goes on through these visits, and every identifier that it takes from
the queue has a node. -/
inductive Straight (executor : Executor) (canvas : Canvas) : Traversal → List Visit → Prop where
  | done {t : Traversal} : t.queue = [] → Straight executor canvas t []
  | failed {t : Traversal} {visit : Visit} {rest : List String} {e : NodeError} :
      t.queue = visit.node.id :: rest → canvas.find? visit.node.id = some visit.node →
      visit.result = .error e → Straight executor canvas t [visit]
  | passed {t : Traversal} {visit : Visit} {rest : List String} {out : NodeOutput}
      {later : List Visit} :
      t.queue = visit.node.id :: rest → canvas.find? visit.node.id = some visit.node →
      visit.result = .ok out →
      Straight executor canvas
        ({ t with queue := rest }.expand visit.node.id (executor.takenBranch out)) later →
      Straight executor canvas t (visit :: later)

/-- A whole run goes through these visits: it begins at a trigger, and every identifier that it takes
from the queue has a node. -/
inductive GoesStraight (executor : Executor) (canvas : Canvas) : List Visit → Prop where
  | failed {visit : Visit} {e : NodeError} : canvas.trigger? = some visit.node →
      visit.result = .error e → GoesStraight executor canvas [visit]
  | passed {visit : Visit} {out : NodeOutput} {later : List Visit} :
      canvas.trigger? = some visit.node → visit.result = .ok out →
      Straight executor canvas
        ((Traversal.start canvas.edges visit.node.id).expand visit.node.id
          (executor.takenBranch out)) later →
      GoesStraight executor canvas (visit :: later)

/-- Whatever is queued behind an expansion was queued before, or an edge leads to it. -/
theorem mem_queue_expand {id x : String} {branch : Option String}
    (h : x ∈ (t.expand id branch).queue) : x ∈ t.queue ∨ ∃ edge ∈ t.edges, edge.target = x := by
  rw [Traversal.queue_expand] at h
  refine (List.mem_append.mp h).imp_right fun hfresh => ?_
  obtain ⟨edge, hedge, htarget⟩ := List.mem_map.mp (Traversal.mem_fresh.mp hfresh).1
  exact ⟨edge, List.mem_of_mem_filter hedge, htarget⟩

/-- All that is queued, and all that edges lead to, has a node. -/
structure Joined (canvas : Canvas) (t : Traversal) : Prop where
  queue : ∀ id ∈ t.queue, (canvas.find? id).isSome
  edges : ∀ edge ∈ t.edges, (canvas.find? edge.target).isSome

theorem Joined.expand (h : Joined canvas t) (id : String) (branch : Option String) :
    Joined canvas (t.expand id branch) where
  queue := by
    intro x hx
    rcases mem_queue_expand hx with hqueue | ⟨edge, hedge, rfl⟩
    · exact h.queue x hqueue
    · exact h.edges edge hedge
  edges := by
    rw [Traversal.edges_expand]
    exact h.edges

theorem Joined.queue_eq (h : Joined canvas t) {node : Node} {rest : List String}
    (hfirst : canvas.firstNode? t.queue = some (node, rest)) :
    t.queue = node.id :: rest ∧ Joined canvas { t with queue := rest } := by
  obtain ⟨skipped, hqueue, hskipped, -⟩ := Canvas.exists_skipped hfirst
  have hnone : skipped = [] := by
    refine List.eq_nil_iff_forall_not_mem.mpr fun id hid => ?_
    have hsome := h.queue id (hqueue ▸ List.mem_append_left _ hid)
    rw [hskipped id hid] at hsome
    cases hsome
  rw [hnone, List.nil_append] at hqueue
  refine ⟨hqueue, ?_, h.edges⟩
  intro id hid
  exact h.queue id (hqueue ▸ List.mem_cons_of_mem _ hid)

theorem Itinerary.straight (h : executor.Itinerary run canvas t context visits)
    (hjoined : Joined canvas t) : executor.Straight canvas t visits := by
  induction h with
  | @done t context hnone =>
      refine .done (List.eq_nil_iff_forall_not_mem.mpr fun id hid => ?_)
      have hsome := hjoined.queue id hid
      rw [Canvas.find?_of_firstNode?_eq_none hnone id hid] at hsome
      cases hsome
  | failed hfirst _ he =>
      exact .failed (hjoined.queue_eq hfirst).1 (Canvas.find?_of_firstNode? hfirst) he
  | passed hfirst _ hok _ ih =>
      obtain ⟨hqueue, hrest⟩ := hjoined.queue_eq hfirst
      exact .passed hqueue (Canvas.find?_of_firstNode? hfirst) hok (ih (hrest.expand _ _))

theorem joined_start (h : canvas.validate = .ok ()) (id : String) :
    Joined canvas (.start canvas.edges id) where
  queue := List.forall_mem_nil _
  edges := by
    intro edge hedge
    have hsound := Canvas.isDangling_of_valid h edge hedge
    simp only [Canvas.isDangling, Bool.not_eq_false', Bool.and_eq_true] at hsound
    rw [← Canvas.hasNode_eq_isSome]
    exact hsound.2

theorem trigger?_ne_none_of_valid (h : canvas.validate = .ok ()) : canvas.trigger? ≠ none := by
  intro hnone
  unfold Canvas.validate at h
  rw [hnone] at h
  split at h
  · cases h
  · split at h <;> cases h

theorem Tour.goesStraight (h : executor.Tour run flow input visits)
    (hvalid : flow.canvas.validate = .ok ()) : executor.GoesStraight flow.canvas visits := by
  cases h with
  | noTrigger hnone => exact absurd hnone (trigger?_ne_none_of_valid hvalid)
  | failed htrigger _ he => exact .failed htrigger he
  | passed htrigger _ hok hlater =>
      exact .passed htrigger hok (hlater.straight ((joined_start hvalid _).expand _ _))

theorem GoesStraight.ne_nil (h : executor.GoesStraight canvas visits) : visits ≠ [] := by
  cases h <;> exact List.cons_ne_nil _ _

end Executor

/-- The run of a valid canvas passes nothing over, and does not end for want of a trigger. -/
theorem Chronicle.Tells.goesStraight {executor : Executor} {run : Run} {flow : Flow} {input : Json}
    {chronicle : Chronicle} {t : Transcript} {outcome : Except FlowError RunReport}
    (h : chronicle.Tells executor run flow input t outcome)
    (hvalid : flow.canvas.validate = .ok ()) (hnone : run.error = none) :
    executor.GoesStraight flow.canvas chronicle.visits ∧
      (chronicle.final run).error ≠ some FlowError.noTriggerNode.message := by
  have hstraight := h.tour.goesStraight hvalid
  refine ⟨hstraight, ?_⟩
  have herror : (chronicle.final run).error = Visit.runError? chronicle.visits := by
    rw [final, Run.ended, Run.running, hnone, Option.or_none]
  rw [herror]
  exact Visit.runError?_ne_noTriggerNode hstraight.ne_nil

end FlowEngine
