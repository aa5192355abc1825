import FlowEngine.CommandLine.Report
import FlowEngine.Proofs.Node.Registry
import FlowEngine.Proofs.Text
/-!
# `FlowEngine.Proofs.Execution.Known` — flows whose types are all served

What becomes of a node whose type nobody serves is for the operator to choose.  On a flow whose types
are all served the choice is never come to: under either policy its execution is the same program,
asking the same of the world and ending alike whatever it is answered (`Executor.execute_under`).

Whether a flow is of this kind is what checking it tells: it is if no warning is given
(`CommandLine.unwarned_reportValidate_iff`).
-/

namespace FlowEngine

/-- Somebody serves the type of every node. -/
def Registry.Knows (registry : Registry) (flow : Flow) : Prop :=
  ∀ node ∈ flow.canvas.nodes, registry.contains node.kind = true

instance (registry : Registry) (flow : Flow) : Decidable (registry.Knows flow) :=
  inferInstanceAs (Decidable (∀ node ∈ flow.canvas.nodes, registry.contains node.kind = true))

namespace Executor

/-- The executor with another policy for types that nobody serves. -/
def under (executor : Executor) (policy : UnknownNodePolicy) : Executor :=
  { executor with settings := { executor.settings with unknownNodes := policy } }

variable {executor : Executor} {flow : Flow} {node : Node} {id : String}

theorem invoke_under (h : executor.registry.contains node.kind = true) (policy : UnknownNodePolicy)
    (run : Run) (data : Json) :
    (executor.under policy).invoke run node data = executor.invoke run node data := by
  obtain ⟨handler, hhandler⟩ := Option.isSome_iff_exists.mp h
  have hunder : (executor.under policy).registry.resolve? node.kind = some handler := hhandler
  rw [invoke, invoke, hunder, hhandler]

theorem runNode_under (h : executor.registry.contains node.kind = true)
    (policy : UnknownNodePolicy) (run : Run) (progress : Progress) :
    (executor.under policy).runNode run node progress = executor.runNode run node progress := by
  unfold runNode
  simp only [invoke_under h]
  rfl

theorem mem_nodes_of_find? {canvas : Canvas} (h : canvas.find? id = some node) :
    node ∈ canvas.nodes :=
  List.mem_of_find?_eq_some h

theorem mem_nodes_of_trigger? {canvas : Canvas} (h : canvas.trigger? = some node) :
    node ∈ canvas.nodes :=
  (List.mem_filter.mp (List.mem_of_mem_head? h)).1

theorem visitQueued_under (h : executor.registry.Knows flow) (policy : UnknownNodePolicy)
    (run : Run) (fuel : Nat) (traversal : Traversal) (progress : Progress) :
    (executor.under policy).visitQueued run flow.canvas fuel traversal progress =
      executor.visitQueued run flow.canvas fuel traversal progress := by
  induction fuel generalizing traversal progress with
  | zero => rfl
  | succ fuel ih =>
      rw [visitQueued, visitQueued]
      cases traversal.next? with
      | none => rfl
      | some met =>
          obtain ⟨id, traversal⟩ := met
          dsimp only
          cases hfind : flow.canvas.find? id with
          | none => exact ih traversal progress
          | some node =>
              dsimp only
              rw [runNode_under (h node (mem_nodes_of_find? hfind))]
              refine bind_congr fun visited => ?_
              obtain ⟨result, progress⟩ := visited
              cases result with
              | error e => rfl
              | ok out => exact ih _ _

theorem walk_under (h : executor.registry.Knows flow) (policy : UnknownNodePolicy) (run : Run)
    (input : Json) :
    (executor.under policy).walk run flow input = executor.walk run flow input := by
  rw [walk, walk]
  dsimp only
  cases htrigger : flow.canvas.trigger? with
  | none => rfl
  | some trigger =>
      dsimp only
      rw [runNode_under (h trigger (mem_nodes_of_trigger? htrigger))]
      refine bind_congr fun visited => ?_
      obtain ⟨result, progress⟩ := visited
      cases result with
      | error e => rfl
      | ok out => exact visitQueued_under h policy run _ _ _

/-- A flow whose types are all served is executed alike under any policy. -/
theorem execute_under (h : executor.registry.Knows flow) (policy : UnknownNodePolicy) (run : Run)
    (input : Json) :
    (executor.under policy).execute run flow input = executor.execute run flow input := by
  unfold execute
  simp only [walk_under h]
  rfl

theorem runFlow_under (h : executor.registry.Knows flow) (policy : UnknownNodePolicy)
    (triggerType : TriggerType) (input : Json) (testMode : Bool) :
    Engine.runFlow (executor.under policy) flow triggerType input testMode =
      Engine.runFlow executor flow triggerType input testMode := by
  unfold Engine.runFlow
  simp only [execute_under h]
  rfl

end Executor

/-! ## What checking a flow says -/

namespace CommandLine

/-- What a warning of a node whose type nobody serves begins with. -/
def warningStart : String := "   ⚠️  Node "

/-- Nothing that is said is such a warning. -/
def Unwarned (said : List String) : Prop :=
  ∀ line ∈ said, Text.startsWith warningStart line = false

variable {file : String} {text : Option String} {flow : Flow}

theorem startsWith_warning (node : Node) : Text.startsWith warningStart
    ("   ⚠️  Node " ++ node.id ++ " has unknown type " ++ node.kind) = true := by
  refine Text.startsWith_iff.mpr ⟨node.id ++ " has unknown type " ++ node.kind, ?_⟩
  rw [warningStart, ← String.append_assoc, ← String.append_assoc]

/-- What is said of every flow is no warning, whatever the flow is called. -/
theorem unwarned_heading (file : String) (flow : Flow) :
    Unwarned (["🔍 Validating flow: " ++ file] ++
      ["✅ Flow is valid:", "   Name: " ++ flow.name,
        "   Nodes: " ++ toString flow.canvas.nodes.length,
        "   Edges: " ++ toString flow.canvas.edges.length]) := by
  simp only [Unwarned, List.cons_append, List.nil_append, List.forall_mem_cons, Text.startsWith,
    String.toList_append]
  exact ⟨rfl, rfl, rfl, rfl, rfl, List.forall_mem_nil _⟩

/-- A flow that can be run is checked without a warning if the types of its nodes are all served. -/
theorem unwarned_reportValidate_iff (hload : loadFlow file text = .ok flow)
    (hvalid : flow.canvas.validate = .ok ()) :
    Unwarned (reportValidate file text).said ↔ Registry.standard.Knows flow := by
  have hsaid : (reportValidate file text).said = ["🔍 Validating flow: " ++ file] ++
      ["✅ Flow is valid:", "   Name: " ++ flow.name,
        "   Nodes: " ++ toString flow.canvas.nodes.length,
        "   Edges: " ++ toString flow.canvas.edges.length] ++
      (flow.canvas.nodes.filter fun node => !Registry.standard.contains node.kind).map fun node =>
        "   ⚠️  Node " ++ node.id ++ " has unknown type " ++ node.kind := by
    rw [reportValidate, hload]
    dsimp only
    rw [hvalid]
  rw [hsaid]
  constructor
  · intro h node hnode
    by_contra hunknown
    have hline := h _ (List.mem_append_right _ (List.mem_map_of_mem
      (List.mem_filter.mpr ⟨hnode, by simpa using hunknown⟩)))
    rw [startsWith_warning] at hline
    cases hline
  · intro h line hline
    rcases List.mem_append.mp hline with hheading | hwarning
    · exact unwarned_heading file flow line hheading
    · obtain ⟨node, hnode, -⟩ := List.mem_map.mp hwarning
      obtain ⟨hmem, hunknown⟩ := List.mem_filter.mp hnode
      rw [h node hmem] at hunknown
      cases hunknown

end CommandLine

/-! ## Registrations -/

namespace Registry

/-- Whatever handlers are registered in turn: a type resolves to the last one of this very type, or
else to the last one of the wildcard for what stands behind its last point, and to nobody if there is
none; the order counts only among handlers of one type; and the registered types are listed in
strict order.  A flow whose types are all served is executed by the same program whether such nodes
are let pass or rejected, so there is one report under both policies, whatever the world answers.
By the standard handlers, these flows are those that are checked without a warning. -/
theorem resolved_by_history (handlers : List Handler) :
    (∀ kind found, (ofHandlers handlers).resolve? kind = found ↔ Serves handlers kind found) ∧
    (∀ others, SameByKind handlers others → ∀ kind,
      (ofHandlers handlers).resolve? kind = (ofHandlers others).resolve? kind) ∧
    (ofHandlers handlers).kinds.Pairwise (· < ·) ∧
    (∀ kind, kind ∈ (ofHandlers handlers).kinds ↔ ∃ handler ∈ handlers, handler.kind = kind) ∧
    (∀ (settings : Settings) (flow : Flow), (ofHandlers handlers).Knows flow →
      let executor : Executor := { settings, registry := ofHandlers handlers }
      (∀ run input, (executor.under .placeholder).execute run flow input =
        (executor.under .reject).execute run flow input) ∧
      ∀ triggerType input testMode,
        Engine.runFlow (executor.under .placeholder) flow triggerType input testMode =
          Engine.runFlow (executor.under .reject) flow triggerType input testMode) ∧
    ∀ file text flow, CommandLine.loadFlow file text = .ok flow → flow.canvas.validate = .ok () →
      (CommandLine.Unwarned (CommandLine.reportValidate file text).said ↔
        Registry.standard.Knows flow) := by
  refine ⟨resolve?_eq_iff handlers, fun _ => resolve?_congr, (apart_ofHandlers handlers).kinds_lt,
    mem_kinds_ofHandlers handlers, ?_, fun _ _ _ => CommandLine.unwarned_reportValidate_iff⟩
  intro settings flow hknows executor
  constructor
  · intro run input
    exact (Executor.execute_under hknows .placeholder run input).trans
      (Executor.execute_under hknows .reject run input).symm
  · intro triggerType input testMode
    exact (Executor.runFlow_under hknows .placeholder triggerType input testMode).trans
      (Executor.runFlow_under hknows .reject triggerType input testMode).symm

def relay (kind description : String) : Handler :=
  { kind, metadata := { description }, execute := fun context => return .ok ⟨context.data, none⟩ }

/-- Two handlers of one wildcard, with one of a type that it would serve between them. -/
def relays : List Handler :=
  [relay "*.send" "first", relay "email.send" "own", relay "*.send" "second",
    relay "trigger.manual" "start"]

/-- A trigger with a node served by name behind it, and one served by the wildcard. -/
def relayed : Flow :=
  { id := "f", name := "f"
    canvas :=
      { nodes := [⟨"t", "trigger.manual", []⟩, ⟨"e", "email.send", []⟩, ⟨"s", "sms.send", []⟩]
        edges := [{ source := "t", target := "e" }, { source := "e", target := "s" }] } }

/-- The later handler of the wildcard serves what is not served by name, and both policies give one
report. -/
theorem resolved_by_history_relays :
    Serves relays "sms.send" (some (relay "*.send" "second")) ∧
    Serves relays "email.send" (some (relay "email.send" "own")) ∧
    Serves relays "send" none ∧
    (ofHandlers relays).Knows relayed ∧
    ∀ run input, (({ registry := ofHandlers relays } : Executor).under .placeholder).execute run
        relayed input =
      (({ registry := ofHandlers relays } : Executor).under .reject).execute run relayed input := by
  obtain ⟨hserves, -, -, -, hreports, -⟩ := resolved_by_history relays
  have hknows : (ofHandlers relays).Knows relayed := by decide
  exact ⟨(hserves _ _).mp rfl, (hserves _ _).mp rfl, (hserves _ _).mp rfl, hknows,
    (hreports {} relayed hknows).1⟩

end Registry

end FlowEngine
