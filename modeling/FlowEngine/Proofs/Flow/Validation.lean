import FlowEngine.Flow.Validation
import FlowEngine.Proofs.Reach
import FlowEngine.Proofs.Text
/-!
# `FlowEngine.Proofs.Flow.Validation` — what validation says of a canvas, and of which

The four conditions are stated here without a search: no identifier repeats an earlier one, every
edge joins two nodes, some node starts runs, and no edges lead from a node back to itself
(`Acyclic`).  Validation decides each of them, and the first that fails is the one it reports, at the
first place where it fails (`validate_iff`).

The condition on cycles is the only one whose check is not its definition.  The check looks at one
edge after another and asks whether the walk from its end meets its beginning.  That is enough, since
a way round begins with some edge and goes on from the end of it to its beginning; and a walk meets
just what can be reached.
-/

namespace FlowEngine

/-! ## Repeated identifiers -/

/-- The text is the first of a list to repeat one before it; `seen` stands before the list. -/
def FirstRepeat (seen ids : List String) (id : String) : Prop :=
  ∃ earlier later, ids = earlier ++ id :: later ∧ earlier.Nodup ∧ (∀ x ∈ earlier, x ∉ seen) ∧
    (id ∈ earlier ∨ id ∈ seen)

theorem firstRepeat?_eq_none_iff {seen ids : List String} :
    firstRepeat? seen ids = none ↔ ids.Nodup ∧ ∀ x ∈ ids, x ∉ seen := by
  induction ids generalizing seen with
  | nil => simp [firstRepeat?]
  | cons head rest ih =>
      unfold firstRepeat?
      split
      · next hseen =>
          have hmem : head ∈ seen := by simpa using hseen
          simp [hmem]
      · next hseen =>
          have hnot : head ∉ seen := by simpa using hseen
          rw [ih]
          simp only [List.nodup_cons, List.mem_cons, forall_eq_or_imp, not_or]
          grind

theorem FirstRepeat.cons {seen rest : List String} {head id : String} (hhead : head ∉ seen) :
    FirstRepeat seen (head :: rest) id ↔ FirstRepeat (head :: seen) rest id := by
  constructor
  · rintro ⟨earlier, later, heq, hnodup, hfresh, hrepeats⟩
    cases earlier with
    | nil =>
        obtain ⟨rfl, -⟩ := List.cons.inj heq
        exact absurd (hrepeats.resolve_left List.not_mem_nil) hhead
    | cons first earlier =>
        obtain ⟨rfl, rfl⟩ := List.cons.inj heq
        obtain ⟨hfirst, hnodup⟩ := List.nodup_cons.mp hnodup
        refine ⟨earlier, later, rfl, hnodup, ?_, ?_⟩
        · grind
        · grind
  · rintro ⟨earlier, later, rfl, hnodup, hfresh, hrepeats⟩
    refine ⟨head :: earlier, later, rfl, ?_, ?_, ?_⟩
    · grind
    · grind
    · grind

theorem firstRepeat?_eq_some_iff {seen ids : List String} {id : String} :
    firstRepeat? seen ids = some id ↔ FirstRepeat seen ids id := by
  induction ids generalizing seen with
  | nil => simp [firstRepeat?, FirstRepeat]
  | cons head rest ih =>
      unfold firstRepeat?
      split
      · next hseen =>
          have hmem : head ∈ seen := by simpa using hseen
          constructor
          · rintro ⟨⟩
            exact ⟨[], rest, rfl, List.nodup_nil, by simp, Or.inr hmem⟩
          · -- Anything before the repetition would be the head, which is not fresh.
            rintro ⟨earlier, later, heq, -, hfresh, -⟩
            cases earlier with
            | nil => rw [(List.cons.inj heq).1]
            | cons first earlier =>
                obtain ⟨rfl, -⟩ := List.cons.inj heq
                exact absurd hmem (hfresh _ List.mem_cons_self)
      · next hseen =>
          have hnot : head ∉ seen := by simpa using hseen
          rw [ih, FirstRepeat.cons hnot]

/-! ## Cycles -/

/-- No edges of the list lead from a node back to itself. -/
def Acyclic (edges : List Edge) : Prop := ∀ a, ¬ Relation.TransGen (Joins edges) a a

namespace Canvas

variable {canvas : Canvas}

theorem closesCycle_iff {edge : Edge} :
    canvas.closesCycle edge = true ↔ Reaches canvas.edges edge.target edge.source := by
  rw [← mem_cons_downstreamOrder, closesCycle]
  simp

/-- A way round begins with an edge, from whose end it goes on to the beginning. -/
theorem acyclic_iff : Acyclic canvas.edges ↔ canvas.edges.any canvas.closesCycle = false := by
  have hround : Acyclic canvas.edges ↔
      ∀ a b, Joins canvas.edges a b → ¬ Reaches canvas.edges b a := by
    simp only [Acyclic, Relation.TransGen.head'_iff, not_exists, not_and]
  rw [hround, List.any_eq_false]
  simp only [closesCycle_iff]
  constructor
  · intro h edge hedge
    exact h _ _ ⟨edge, hedge, rfl, rfl⟩
  · rintro h _ _ ⟨edge, hedge, rfl, rfl⟩
    exact h edge hedge

/-! ## Edges and triggers -/

def ids (canvas : Canvas) : List String := canvas.nodes.map Node.id

/-- The edge leads from a node of the canvas to a node of it. -/
def IsJoined (canvas : Canvas) (edge : Edge) : Prop :=
  edge.source ∈ canvas.ids ∧ edge.target ∈ canvas.ids

/-- The edge is the first in the list that does not join two nodes. -/
def FirstDangling (canvas : Canvas) (edge : Edge) : Prop :=
  ∃ earlier later, canvas.edges = earlier ++ edge :: later ∧
    (∀ e ∈ earlier, canvas.IsJoined e) ∧ ¬ canvas.IsJoined edge

/-- Some node is of a type that begins with `trigger.`. -/
def HasTrigger (canvas : Canvas) : Prop :=
  ∃ node ∈ canvas.nodes, ∃ rest, node.kind = "trigger." ++ rest

theorem hasNode_iff {id : String} : canvas.hasNode id = true ↔ id ∈ canvas.ids := by
  simp [hasNode, ids]

theorem isDangling_iff {edge : Edge} : canvas.isDangling edge = true ↔ ¬ canvas.IsJoined edge := by
  rw [isDangling, IsJoined, ← hasNode_iff, ← hasNode_iff, ← Bool.and_eq_true, Bool.not_eq_true',
    Bool.not_eq_true]

theorem hasTrigger_iff : canvas.HasTrigger ↔ canvas.trigger?.isNone = false := by
  rw [Option.isNone_eq_false_iff, trigger?, List.isSome_head?, triggers]
  simp only [HasTrigger, ← Text.startsWith_iff, ne_eq, List.filter_eq_nil_iff, not_forall,
    not_not, exists_prop]
  rfl

/-! ## The first condition that fails -/

theorem firstRepeat?_ids_eq_none_iff : firstRepeat? [] canvas.ids = none ↔ canvas.ids.Nodup := by
  simp [firstRepeat?_eq_none_iff]

theorem firstRepeat?_ids_eq_some_iff {id : String} : firstRepeat? [] canvas.ids = some id ↔
    ∃ earlier later, canvas.ids = earlier ++ id :: later ∧ earlier.Nodup ∧ id ∈ earlier := by
  simp [firstRepeat?_eq_some_iff, FirstRepeat]

theorem find?_isDangling_eq_none_iff : canvas.edges.find? canvas.isDangling = none ↔
    ∀ edge ∈ canvas.edges, canvas.IsJoined edge := by
  simp [List.find?_eq_none, isDangling_iff]

theorem find?_isDangling_eq_some_iff {edge : Edge} :
    canvas.edges.find? canvas.isDangling = some edge ↔ canvas.FirstDangling edge := by
  simp only [FirstDangling, List.find?_eq_some_iff_append, isDangling_iff, Bool.not_eq_true',
    ← Bool.not_eq_true, not_not]
  grind

/-- A canvas is valid just when no identifier repeats an earlier one, every edge joins two nodes,
some node starts runs and there is no way round.  Of the conditions that fail the first is reported:
the first identifier in canvas order that repeats an earlier one, or else the first edge in the order
of the list that does not join two nodes, or else that no node starts runs, or else that there is a
way round. -/
theorem validate_iff (canvas : Canvas) :
    (canvas.validate = .ok () ↔
      canvas.ids.Nodup ∧ (∀ edge ∈ canvas.edges, canvas.IsJoined edge) ∧ canvas.HasTrigger ∧
        Acyclic canvas.edges) ∧
    (∀ id, canvas.validate = .error (.duplicateNode id) ↔
      ∃ earlier later, canvas.ids = earlier ++ id :: later ∧ earlier.Nodup ∧ id ∈ earlier) ∧
    (∀ source target, canvas.validate = .error (.danglingEdge source target) ↔
      canvas.ids.Nodup ∧
        ∃ edge, canvas.FirstDangling edge ∧ edge.source = source ∧ edge.target = target) ∧
    (canvas.validate = .error .missingTrigger ↔
      canvas.ids.Nodup ∧ (∀ edge ∈ canvas.edges, canvas.IsJoined edge) ∧ ¬ canvas.HasTrigger) ∧
    (canvas.validate = .error .cyclicDependency ↔
      canvas.ids.Nodup ∧ (∀ edge ∈ canvas.edges, canvas.IsJoined edge) ∧ canvas.HasTrigger ∧
        ¬ Acyclic canvas.edges) := by
  simp only [← firstRepeat?_ids_eq_none_iff, ← firstRepeat?_ids_eq_some_iff,
    ← find?_isDangling_eq_none_iff, ← find?_isDangling_eq_some_iff, acyclic_iff, hasTrigger_iff]
  unfold validate
  rw [← ids]
  cases firstRepeat? [] canvas.ids with
  | some id => simp
  | none =>
      cases canvas.edges.find? canvas.isDangling with
      | some edge => simp
      | none => cases canvas.trigger?.isNone <;> cases canvas.edges.any canvas.closesCycle <;> simp

/-- Two edges may lead from one node to the same other node; an edge may not lead back to where it
begins, and of two errors the first is reported. -/
example :
    validate ⟨[⟨"a", "trigger.manual", []⟩, ⟨"b", "set", []⟩],
      [{ source := "a", target := "b" }, { source := "a", target := "b" }]⟩ = .ok () ∧
    validate ⟨[⟨"b", "set", []⟩, ⟨"a", "trigger.manual", []⟩],
      [{ source := "a", target := "b" }, { source := "b", target := "b" }]⟩ =
        .error .cyclicDependency ∧
    validate ⟨[⟨"b", "set", []⟩], [{ source := "b", target := "b" }]⟩ = .error .missingTrigger := by
  refine ⟨?_, ?_, ?_⟩ <;> rfl

end Canvas

end FlowEngine
