import FlowEngine.Proofs.Execution.Chronicle
/-!
# `FlowEngine.Proofs.Execution.Order` — the order in which a run visits its nodes

The executor drives a traversal step by step, between the nodes it executes, and skips identifiers
without a node.  The reference is `downstreamOrder`, a loop of its own over a list of edges.  The
two are tied by a simulation: `Shadows` says that the reference holds in its queue what of the
executor's queue has a node, and agrees with it on which nodes have been met.  One expansion keeps
it as long as the reference follows the same edges to nodes (`Shadows.expand`); the induction is
on the itinerary.

That no node is visited twice needs no reference.  It is an invariant of the traversal: what is
queued is queued once, and has been met.
-/

namespace FlowEngine

def Visit.ids (visits : List Visit) : List String := visits.map fun visit => visit.node.id

namespace Canvas

variable {canvas : Canvas}

theorem hasNode_eq_isSome (id : String) : canvas.hasNode id = (canvas.find? id).isSome := by
  rw [hasNode, find?, List.isSome_find?]

theorem filter_hasNode_of_none {ids : List String} (h : ∀ id ∈ ids, canvas.find? id = none) :
    ids.filter canvas.hasNode = [] := by
  refine List.filter_eq_nil_iff.mpr ?_
  intro id hid
  simp [hasNode_eq_isSome, h id hid]

theorem filter_hasNode_of_some {ids rest : List String} {node : Node}
    (h : canvas.firstNode? ids = some (node, rest)) :
    ids.filter canvas.hasNode = node.id :: rest.filter canvas.hasNode := by
  obtain ⟨skipped, rfl, hskipped, hnode⟩ := exists_skipped h
  rw [List.filter_append, filter_hasNode_of_none hskipped, List.nil_append,
    List.filter_cons_of_pos (by simp [hasNode_eq_isSome, hnode])]

end Canvas

/-! ## A node is visited once -/

namespace Traversal

/-- What is queued is queued once, and has been met. -/
structure Sound (t : Traversal) : Prop where
  nodup : t.queue.Nodup
  met : ∀ id ∈ t.queue, id ∈ t.visited

theorem Sound.start (edges : List Edge) (id : String) : (start edges id).Sound where
  nodup := List.nodup_nil
  met := by
    intro x hx
    exact absurd hx List.not_mem_nil

theorem Sound.pop {t : Traversal} (h : t.Sound) {id : String} {skipped rest : List String}
    (hq : t.queue = skipped ++ id :: rest) :
    { t with queue := rest }.Sound ∧ id ∉ rest ∧ id ∈ t.visited := by
  have hnodup : (id :: rest).Nodup := (List.nodup_append.mp (hq ▸ h.nodup)).2.1
  have hmet : ∀ x ∈ id :: rest, x ∈ t.visited := fun x hx =>
    h.met x (hq ▸ List.mem_append_right _ hx)
  refine ⟨⟨hnodup.of_cons, ?_⟩, (List.nodup_cons.mp hnodup).1, hmet id List.mem_cons_self⟩
  exact fun x hx => hmet x (List.mem_cons_of_mem _ hx)

theorem Sound.expand {t : Traversal} (h : t.Sound) (id : String) (branch : Option String) :
    (t.expand id branch).Sound where
  nodup := by
    rw [queue_expand]
    refine List.nodup_append.mpr ⟨h.nodup, nodup_fresh _ _, ?_⟩
    rintro x hx y hy rfl
    exact (mem_fresh.mp hy).2 (h.met x hx)
  met := by
    intro x hx
    rw [queue_expand] at hx
    rcases List.mem_append.mp hx with hx | hx
    · exact mem_visited_expand.mpr (Or.inl (h.met x hx))
    · exact mem_visited_expand.mpr (Or.inr (mem_fresh.mp hx).1)

/-- What is queued behind an expansion was queued before or had not been met. -/
theorem not_mem_visited_of_expand {t : Traversal} {id x : String} {branch : Option String}
    (h : x ∈ (t.expand id branch).queue ∨ x ∉ (t.expand id branch).visited) :
    x ∈ t.queue ∨ x ∉ t.visited := by
  rcases h with hq | hv
  · rw [queue_expand] at hq
    exact (List.mem_append.mp hq).imp_right fun hx => (mem_fresh.mp hx).2
  · exact Or.inr fun hx => hv (mem_visited_expand.mpr (Or.inl hx))

end Traversal

namespace Executor

variable {executor : Executor} {run : Run} {canvas : Canvas} {flow : Flow} {input : Json}

/-- A walk visits what is queued or has not been met, each node once. -/
theorem Itinerary.nodup_ids {t : Traversal} {context : ExecutionContext} {visits : List Visit}
    (h : executor.Itinerary run canvas t context visits) (ht : t.Sound) :
    (Visit.ids visits).Nodup ∧ ∀ id ∈ Visit.ids visits, id ∈ t.queue ∨ id ∉ t.visited := by
  induction h with
  | done => exact ⟨List.nodup_nil, fun _ h => absurd h List.not_mem_nil⟩
  | failed hfirst =>
      obtain ⟨skipped, hq, -, -⟩ := Canvas.exists_skipped hfirst
      refine ⟨List.nodup_singleton _, ?_⟩
      intro id hid
      rw [List.mem_singleton.mp hid, hq]
      exact Or.inl (List.mem_append_right _ List.mem_cons_self)
  | @passed t context visit rest out later hfirst _ _ _ ih =>
      obtain ⟨skipped, hq, -, -⟩ := Canvas.exists_skipped hfirst
      obtain ⟨hrest, hnotin, hmet⟩ := ht.pop hq
      obtain ⟨hnodup, hfrom⟩ := ih (hrest.expand _ _)
      have hlater : ∀ id ∈ Visit.ids later, id ∈ rest ∨ id ∉ t.visited := fun id hid =>
        Traversal.not_mem_visited_of_expand (hfrom id hid)
      refine ⟨List.nodup_cons.mpr ⟨?_, hnodup⟩, ?_⟩
      · -- The node has left the queue, and it has been met.
        intro hmem
        rcases hlater _ hmem with hin | hnew
        · exact hnotin hin
        · exact hnew hmet
      · intro id hid
        rw [hq]
        rcases List.mem_cons.mp hid with rfl | hid
        · exact Or.inl (List.mem_append_right _ List.mem_cons_self)
        · exact (hlater id hid).imp_left fun hin =>
            List.mem_append_right _ (List.mem_cons_of_mem _ hin)

theorem Tour.nodup_ids {visits : List Visit} (h : executor.Tour run flow input visits) :
    (Visit.ids visits).Nodup := by
  cases h with
  | noTrigger => exact List.nodup_nil
  | failed => exact List.nodup_singleton _
  | @passed visit out later _ _ _ hlater =>
      have hstart := Traversal.Sound.start flow.canvas.edges visit.node.id
      obtain ⟨hnodup, hfrom⟩ := hlater.nodup_ids (hstart.expand _ _)
      refine List.nodup_cons.mpr ⟨?_, hnodup⟩
      intro hmem
      rcases Traversal.not_mem_visited_of_expand (hfrom _ hmem) with hq | hv
      · exact List.not_mem_nil hq
      · exact hv List.mem_cons_self

end Executor

/-! ## The reference walks along -/

/-- The reference has queued what of the queue is known, and agrees on which of the known have been
met. -/
structure Traversal.Shadows (known : String → Bool) (t u : Traversal) : Prop where
  queue : u.queue = t.queue.filter known
  visited : ∀ id, known id = true → (id ∈ u.visited ↔ id ∈ t.visited)

theorem Traversal.Shadows.expand {known : String → Bool} {t u : Traversal} {id : String}
    {branch : Option String} (h : t.Shadows known u)
    (hs : u.successors id none = (t.successors id branch).filter known) :
    (t.expand id branch).Shadows known (u.expand id none) where
  queue := by
    rw [queue_expand, queue_expand, List.filter_append, h.queue, hs, filter_fresh h.visited]
  visited := by
    intro x hx
    rw [mem_visited_expand, mem_visited_expand, h.visited x hx, hs, List.mem_filter, hx]
    simp

namespace Executor

variable {executor : Executor} {run : Run} {canvas : Canvas} {flow : Flow} {input : Json}

/-- The reference follows the same edges to nodes as the run does behind its visits. -/
def Follows (executor : Executor) (canvas : Canvas) (edges : List Edge) (visits : List Visit) :
    Prop :=
  ∀ visit ∈ visits, ∀ out, visit.result = .ok out →
    (edges.filter (Traversal.follows visit.node.id none)).map Edge.target =
      ((canvas.edges.filter (Traversal.follows visit.node.id (executor.takenBranch out))).map
        Edge.target).filter canvas.hasNode

/-- A walk visits the nodes in the order of a reference that follows the same edges, and all of them
unless a node fails. -/
theorem Itinerary.prefix_order {t u : Traversal} {context : ExecutionContext}
    {visits : List Visit} (h : executor.Itinerary run canvas t context visits)
    (ht : t.edges = canvas.edges) (hu : t.Shadows canvas.hasNode u)
    (hf : executor.Follows canvas u.edges visits) :
    Visit.ids visits <+: u.order ∧
      (Visit.failure? visits = none → Visit.ids visits = u.order) := by
  induction h generalizing u with
  | @done t context hnone =>
      have hq : u.queue = [] := hu.queue.trans
        (Canvas.filter_hasNode_of_none (Canvas.find?_of_firstNode?_eq_none hnone))
      rw [Traversal.order_of_queue_nil hq]
      exact ⟨List.prefix_refl _, fun _ => rfl⟩
  | @failed t context visit rest e hsome _ hr =>
      have hq := hu.queue.trans (Canvas.filter_hasNode_of_some hsome)
      rw [Traversal.order_of_queue_cons hq]
      refine ⟨⟨_, rfl⟩, ?_⟩
      intro hnone
      rw [Visit.failure?_of_error hr] at hnone
      cases hnone
  | @passed t context visit rest out later hsome _ hr _ ih =>
      have hq := hu.queue.trans (Canvas.filter_hasNode_of_some hsome)
      have hnext : { t with queue := rest }.Shadows canvas.hasNode
          { u with queue := rest.filter canvas.hasNode } := ⟨rfl, hu.visited⟩
      have hs := hf visit List.mem_cons_self out hr
      rw [← ht] at hs
      obtain ⟨hpre, heq⟩ := ih (by rw [Traversal.edges_expand, ht]) (hnext.expand hs)
        (by
          rw [Traversal.edges_expand]
          exact fun v hv => hf v (List.mem_cons_of_mem _ hv))
      rw [Traversal.order_of_queue_cons hq, Visit.failure?_cons_of_ok hr]
      refine ⟨List.cons_prefix_cons.mpr ⟨rfl, hpre⟩, ?_⟩
      intro hnone
      exact congrArg (List.cons _) (heq hnone)

theorem Tour.prefix_downstreamOrder {visits : List Visit} {trigger : Node} {edges : List Edge}
    (h : executor.Tour run flow input visits) (htrigger : flow.canvas.trigger? = some trigger)
    (hf : executor.Follows flow.canvas edges visits) :
    Visit.ids visits <+: trigger.id :: downstreamOrder trigger.id edges ∧
      (Visit.failure? visits = none →
        Visit.ids visits = trigger.id :: downstreamOrder trigger.id edges) := by
  cases h with
  | noTrigger hnone => rw [hnone] at htrigger; cases htrigger
  | @failed visit e hsome _ hr =>
      obtain rfl := Option.some.inj (hsome.symm.trans htrigger)
      refine ⟨⟨_, rfl⟩, ?_⟩
      intro hnone
      rw [Visit.failure?_of_error hr] at hnone
      cases hnone
  | @passed visit out later hsome _ hr hlater =>
      obtain rfl := Option.some.inj (hsome.symm.trans htrigger)
      have hstart : (Traversal.start flow.canvas.edges visit.node.id).Shadows flow.canvas.hasNode
          (.start edges visit.node.id) := ⟨rfl, fun _ _ => Iff.rfl⟩
      have hs := hf visit List.mem_cons_self out hr
      obtain ⟨hpre, heq⟩ := hlater.prefix_order (by rw [Traversal.edges_expand]; rfl)
        (hstart.expand hs)
        (by
          rw [Traversal.edges_expand]
          exact fun v hv => hf v (List.mem_cons_of_mem _ hv))
      rw [downstreamOrder_eq_order, Visit.failure?_cons_of_ok hr]
      refine ⟨List.cons_prefix_cons.mpr ⟨rfl, hpre⟩, ?_⟩
      intro hnone
      exact congrArg (List.cons _) (heq hnone)

end Executor

/-! ## The order of a run that follows every edge -/

namespace Canvas

/-- The nodes breadth-first from one of them on, along the edges that lead to nodes. -/
def breadthFirst (canvas : Canvas) (id : String) : List String :=
  id :: downstreamOrder id (canvas.edges.filter fun edge => canvas.hasNode edge.target)

theorem isDangling_of_valid {canvas : Canvas} (h : canvas.validate = .ok ()) :
    ∀ edge ∈ canvas.edges, canvas.isDangling edge = false := by
  intro edge hedge
  unfold validate at h
  split at h
  · cases h
  · split at h
    · cases h
    · next hnone => simpa using List.find?_eq_none.mp hnone edge hedge

theorem breadthFirst_of_valid {canvas : Canvas} (h : canvas.validate = .ok ()) (id : String) :
    canvas.breadthFirst id = id :: downstreamOrder id canvas.edges := by
  rw [breadthFirst, List.filter_eq_self.mpr]
  intro edge hedge
  have hsound := isDangling_of_valid h edge hedge
  simp only [isDangling, Bool.not_eq_false', Bool.and_eq_true] at hsound
  exact hsound.2

end Canvas

namespace Executor

theorem follows_of_allSuccessors {executor : Executor} (canvas : Canvas) (visits : List Visit)
    (hmode : executor.settings.branchMode = .allSuccessors) :
    executor.Follows canvas (canvas.edges.filter fun edge => canvas.hasNode edge.target)
      visits := by
  intro visit _ out _
  have hbranch : executor.takenBranch out = none := by rw [takenBranch, hmode]
  rw [hbranch, List.filter_map, List.filter_filter, List.filter_filter]
  congr 2
  funext edge
  exact Bool.and_comm _ _

/-- A run that follows every edge visits the nodes breadth-first from its trigger on: as far as it
comes in that order, each once, and to the end of it if it succeeds. -/
theorem executed_breadthFirst (executor : Executor) (run : Run) (flow : Flow) (input : Json)
    (hmode : executor.settings.branchMode = .allSuccessors) (hq : run.status = .queued)
    {σ : Type} (answer : (action : Action) → σ → action.Reply × σ) (world : σ) :
    ∃ report, ((executor.execute run flow input).runWith answer world).1 = .ok report ∧
      report.executed.Nodup ∧
      match flow.canvas.trigger? with
      | none => report.executed = []
      | some trigger =>
        report.executed <+: flow.canvas.breadthFirst trigger.id ∧
        (report.run.status = .success →
          report.executed = flow.canvas.breadthFirst trigger.id) ∧
        (flow.canvas.validate = .ok () → flow.canvas.breadthFirst trigger.id =
          trigger.id :: downstreamOrder trigger.id flow.canvas.edges) := by
  obtain ⟨chronicle, t, htour, -, hreport⟩ := Program.runWith_execute hq answer world
  refine ⟨_, hreport, htour.nodup_ids, ?_⟩
  cases htrigger : flow.canvas.trigger? with
  | none =>
      rw [Chronicle.report, htour.eq_nil_iff.mpr htrigger]
      rfl
  | some trigger =>
      obtain ⟨hpre, heq⟩ := htour.prefix_downstreamOrder htrigger
        (follows_of_allSuccessors flow.canvas chronicle.visits hmode)
      refine ⟨hpre, ?_, fun h => Canvas.breadthFirst_of_valid h trigger.id⟩
      intro hs
      exact heq (Visit.failure?_of_runError? (Chronicle.final_status_eq_success.mp hs))

/-- A canvas with a loop at its trigger, a cycle, a repeated identifier, a doubled edge and an edge
to nowhere. -/
def tangled : Canvas :=
  { nodes := [⟨"b", "log", []⟩, ⟨"t", "trigger.manual", []⟩, ⟨"a", "log", []⟩, ⟨"b", "mark", []⟩]
    edges := [{ source := "t", target := "t" }, { source := "t", target := "gone" },
      { source := "gone", target := "c" }, { source := "t", target := "a" },
      { source := "a", target := "b" }, { source := "a", target := "b" },
      { source := "b", target := "t" }] }

theorem executed_tangled :
    ∃ report, ((Executor.execute { registry := {} } (.queued "f" .manual false ⟨0, 0⟩)
        { id := "f", name := "f", canvas := tangled } .null).runWith outage ()).1 = .ok report ∧
      report.executed.Nodup ∧ report.executed <+: ["t", "a", "b"] ∧
      (report.run.status = .success → report.executed = ["t", "a", "b"]) := by
  obtain ⟨report, hreport, hnodup, hpre, heq, -⟩ := executed_breadthFirst { registry := {} }
    (.queued "f" .manual false ⟨0, 0⟩) { id := "f", name := "f", canvas := tangled } .null rfl rfl
    outage ()
  exact ⟨report, hreport, hnodup, hpre, heq⟩

end Executor

end FlowEngine
