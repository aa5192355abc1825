import FlowEngine.Proofs.Traversal
/-!
# `FlowEngine.Proofs.Flow.Stepwise` — a walk in the hands of any caller

The executor takes the next node and expands it, and so on in turn.  Nothing holds another caller to
that: a node can be expanded that has not been taken, or that no edge mentions, or once more and by
another branch; and the next node can be asked for while nothing is queued.  What holds of a walk
whatever is called is `met_once_in_order`.

It says nothing of nodes that can be reached, for a caller need not expand what it takes.  What has
been met is told by the calls alone: it is the start, and the nodes to which the edges lead that the
calls have followed (`Call.Offers`).

Some calls in a row, and each call by itself, are a `Passage` from one walk to another.  A passage
says which targets the edges gave, which of them were queued, and which nodes were taken; passages
one behind the other are a passage (`Passage.trans`), so one lemma about a single call
(`Call.passage_made`) carries the rest.
-/

namespace FlowEngine

namespace Traversal

/-! ## Calls -/

/-- A call on a walk. -/
inductive Call where
  | expand (id : String) (branch : Option String)
  | next
deriving DecidableEq, Repr

namespace Call

/-- What a call is answered with, and what the walk is then.  An expansion has no answer. -/
def made (t : Traversal) : Call → Option String × Traversal
  | expand id branch => (none, t.expand id branch)
  | next =>
    match t.next? with
    | none => (none, t)
    | some (id, t) => (some id, t)

def after (t : Traversal) (calls : List Call) : Traversal :=
  calls.foldl (fun t call => (call.made t).2) t

def returned (t : Traversal) : List Call → List String
  | [] => []
  | call :: calls => (call.made t).1.toList ++ returned (call.made t).2 calls

/-- What a call puts behind the nodes that are queued. -/
def queues (t : Traversal) : Call → List String
  | expand id branch => (t.expand id branch).queue.drop t.queue.length
  | next => []

/-- What calls in a row put into the queue, one after the other. -/
def queued (t : Traversal) : List Call → List String
  | [] => []
  | call :: calls => call.queues t ++ queued (call.made t).2 calls

/-- Where the edges lead that a call follows, in the order of the edges. -/
def targets (edges : List Edge) : Call → List String
  | expand id branch => (edges.filter (follows id branch)).map Edge.target
  | next => []

/-- One of the calls expands a node from which an edge leads to `x`, and the edge has no handle, or
the call names no branch, or its branch is the handle. -/
def Offers (edges : List Edge) (calls : List Call) (x : String) : Prop :=
  ∃ edge ∈ edges, edge.target = x ∧ ∃ branch, expand edge.source branch ∈ calls ∧
    (edge.sourceHandle = none ∨ branch = none ∨ edge.sourceHandle = branch)

end Call

variable {t t' t'' : Traversal} {edges : List Edge} {id x : String} {branch : Option String}
  {calls : List Call}

theorem Call.offers_iff : Offers edges calls x ↔ x ∈ calls.flatMap (targets edges) := by
  rw [List.mem_flatMap]
  constructor
  · rintro ⟨edge, hedge, rfl, branch, hcall, hbranch⟩
    refine ⟨_, hcall, List.mem_map_of_mem (List.mem_filter.mpr ⟨hedge, ?_⟩)⟩
    exact follows_iff.mpr ⟨rfl, hbranch⟩
  · rintro ⟨call, hcall, hx⟩
    cases call with
    | next => cases hx
    | expand id branch =>
        obtain ⟨edge, hmem, rfl⟩ := List.mem_map.mp hx
        obtain ⟨hedge, hfollows⟩ := List.mem_filter.mp hmem
        obtain ⟨rfl, hbranch⟩ := follows_iff.mp hfollows
        exact ⟨edge, hedge, rfl, branch, hcall, hbranch⟩

/-- An expansion whose edges lead to nothing new leaves the walk as it is. -/
theorem expand_of_met (h : ∀ x ∈ t.successors id branch, x ∈ t.visited) :
    t.expand id branch = t := by
  rw [expand_eq, fresh_eq_nil h, List.reverse_nil, List.nil_append, List.append_nil]

/-! ## Passages -/

/-- From one walk to another: edges lead to `targets`; those of them that have not been met are
`queued`, behind what is queued already, and counted as met; and the nodes `returned` are taken from
the front. -/
structure Passage (t : Traversal) (targets queued returned : List String) (t' : Traversal) :
    Prop where
  same : t'.edges = t.edges
  new : queued = fresh t.visited targets
  met : t'.visited = queued.reverse ++ t.visited
  line : t.queue ++ queued = returned ++ t'.queue

theorem Passage.refl (t : Traversal) : Passage t [] [] [] t :=
  ⟨rfl, rfl, rfl, List.append_nil _⟩

/-- One passage behind the other.  A node that the first one has met is not queued by the second. -/
theorem Passage.trans {targets targets' queued queued' returned returned' : List String}
    (h : Passage t targets queued returned t') (h' : Passage t' targets' queued' returned' t'') :
    Passage t (targets ++ targets') (queued ++ queued') (returned ++ returned') t'' where
  same := h'.same.trans h.same
  new := by
    rw [fresh_append, ← h.new, ← h.met, ← h'.new]
  met := by
    rw [h'.met, h.met, List.reverse_append, List.append_assoc]
  line := by
    calc t.queue ++ (queued ++ queued')
        = returned ++ (t'.queue ++ queued') := by
          rw [← List.append_assoc, h.line, List.append_assoc]
      _ = returned ++ returned' ++ t''.queue := by
          rw [h'.line, List.append_assoc]

namespace Call

theorem passage_made (t : Traversal) (call : Call) :
    Passage t (call.targets t.edges) (call.queues t) (call.made t).1.toList (call.made t).2 := by
  cases call with
  | expand id branch =>
      have hqueues : queues t (expand id branch) = fresh t.visited (t.successors id branch) := by
        rw [queues, queue_expand, List.drop_left]
      rw [hqueues]
      refine ⟨edges_expand t id branch, rfl, ?_, ?_⟩
      · rw [made, expand_eq]
      · exact (queue_expand t id branch).symm
  | next =>
      cases hq : t.queue with
      | nil =>
          have hmade : made t next = (none, t) := by rw [made, next?, hq]
          rw [hmade]
          exact .refl t
      | cons id rest =>
          have hmade : made t next = (some id, { t with queue := rest }) := by
            rw [made, next?, hq]
          rw [hmade]
          refine ⟨rfl, rfl, rfl, ?_⟩
          rw [hq]
          exact List.append_nil _

theorem passage_after (t : Traversal) (calls : List Call) :
    Passage t (calls.flatMap (targets t.edges)) (queued t calls) (returned t calls)
      (after t calls) := by
  induction calls generalizing t with
  | nil => exact .refl t
  | cons call calls ih =>
      have hfirst := passage_made t call
      have hothers := ih (call.made t).2
      rw [hfirst.same] at hothers
      rw [List.flatMap_cons]
      exact hfirst.trans hothers

end Call

/-! ## Any calls on a walk -/

/-- Calls in a row on a walk that has just begun, whatever they are.  What has been met is the start,
the nodes returned and the nodes still queued, and no node is twice among these; so neither the start
nor a node returned before is ever returned.  The nodes are returned in the order in which they have
been queued, which is that of the calls and of the edges that they follow, each node at its first
place.  A node other than the start has been met exactly if some call has followed an edge to it, and
so has every node that is returned.  An expansion that is called again does nothing. -/
theorem met_once_in_order (edges : List Edge) (id : String) (calls : List Call) :
    let t := Call.after (start edges id) calls
    let returned := Call.returned (start edges id) calls
    let queued := Call.queued (start edges id) calls
    t.visited.Perm (id :: (returned ++ t.queue)) ∧ (id :: (returned ++ t.queue)).Nodup ∧
    (id ∉ returned ∧ returned.Nodup) ∧
    (returned ++ t.queue = queued ∧ queued = fresh [id] (calls.flatMap (Call.targets edges))) ∧
    (∀ x, x ∈ t.visited ↔ x = id ∨ Call.Offers edges calls x) ∧
    (∀ x ∈ returned, Call.Offers edges calls x) ∧
    ∀ node branch, Call.expand node branch ∈ calls → t.expand node branch = t := by
  intro t returned queued
  -- The equations of one passage are all that is used of the calls; the rest is read off them.
  have hpassage : Passage (start edges id) (calls.flatMap (Call.targets edges)) queued returned t :=
    Call.passage_after (start edges id) calls
  have hvisited : t.visited = queued.reverse ++ [id] := hpassage.met
  have hqueued : queued = fresh [id] (calls.flatMap (Call.targets edges)) := hpassage.new
  have hline : queued = returned ++ t.queue := hpassage.line
  have hmem : ∀ x, x ∈ queued ↔ Call.Offers edges calls x ∧ x ≠ id := by
    intro x
    rw [hqueued, mem_fresh, Call.offers_iff, List.mem_singleton]
  have hmet : ∀ x, x ∈ t.visited ↔ x = id ∨ Call.Offers edges calls x := by
    intro x
    rw [hvisited, List.mem_append, List.mem_reverse, List.mem_singleton, hmem]
    by_cases hx : x = id <;> simp [hx]
  have hnodup : (id :: (returned ++ t.queue)).Nodup := by
    rw [← hline, List.nodup_cons]
    refine ⟨fun hid => ((hmem id).mp hid).2 rfl, ?_⟩
    rw [hqueued]
    exact nodup_fresh _ _
  refine ⟨?_, hnodup, ?_, ⟨hline.symm, hqueued⟩, hmet, ?_, ?_⟩
  · rw [hvisited, ← hline]
    exact (List.perm_append_singleton id _).trans ((List.reverse_perm queued).cons id)
  · obtain ⟨hid, hrest⟩ := List.nodup_cons.mp hnodup
    exact ⟨fun h => hid (List.mem_append_left _ h), (List.nodup_append.mp hrest).1⟩
  · intro x hx
    have hqueue : x ∈ queued := hline ▸ List.mem_append_left _ hx
    exact ((hmem x).mp hqueue).1
  · intro node branch hcall
    refine expand_of_met ?_
    intro x hx
    rw [successors, hpassage.same] at hx
    refine (hmet x).mpr (Or.inr (Call.offers_iff.mpr ?_))
    exact List.mem_flatMap.mpr ⟨_, hcall, hx⟩

/-- A fork with a way back to it, walked against the rule: `next` before anything is queued, a node
that is not there, and the fork by one branch, by the same one again and by the other. -/
theorem met_once_in_order_fork :
    let edges : List Edge := [⟨none, "fork", "yes", some "true"⟩, ⟨none, "fork", "no", some "false"⟩,
      ⟨none, "fork", "always", none⟩, ⟨none, "no", "fork", none⟩, ⟨none, "yes", "always", none⟩]
    let calls : List Call := [.next, .expand "ghost" none, .expand "fork" (some "false"), .next,
      .expand "no" none, .expand "fork" (some "false"), .expand "fork" (some "true"), .next, .next]
    let t := Call.after (start edges "fork") calls
    Call.returned (start edges "fork") calls = ["no", "always", "yes"] ∧ t.queue = [] ∧
    Call.Offers edges calls "yes" ∧ Call.expand "fork" (some "false") ∈ calls ∧
    t.expand "fork" (some "false") = t := by
  intro edges calls t
  have hreturned : Call.returned (start edges "fork") calls = ["no", "always", "yes"] := by decide
  have hcall : Call.expand "fork" (some "false") ∈ calls := by decide
  obtain ⟨-, -, -, -, -, hoffered, hagain⟩ := met_once_in_order edges "fork" calls
  have hyes : "yes" ∈ Call.returned (start edges "fork") calls := by
    rw [hreturned]
    decide
  exact ⟨hreturned, by decide, hoffered "yes" hyes, hcall, hagain _ _ hcall⟩

end Traversal

end FlowEngine
