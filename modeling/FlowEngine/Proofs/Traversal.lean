import FlowEngine.Flow.Traversal
import FlowEngine.Flow.Validation
import Mathlib.Data.Finset.Card
import Mathlib.Data.Finset.Dedup
/-!
# `FlowEngine.Proofs.Traversal` — what one expansion does, and the walk without its fuel

`expand_eq` says everything that an expansion does: of the successors that have not been met, each
at its first place is appended to the queue and counted as met.  Whatever is known of a walk
follows from it by induction on the list of successors, not on the walk.

The second half removes the fuel of `drain`.  `pending` counts what is queued together with the
targets that have not been met; an expansion keeps it and taking the next node lowers it by one, so
`drain` with that much fuel or more is `order`, which obeys the equations of the loop.  At the start
there are no more targets than edges, hence the number of edges is fuel enough.
-/

namespace FlowEngine

namespace Traversal

/-- Those of the identifiers that have not been met, each at its first place. -/
def fresh (visited : List String) : List String → List String
  | [] => []
  | id :: rest =>
    if visited.contains id then fresh visited rest else id :: fresh (id :: visited) rest

theorem mem_fresh {visited ids : List String} {x : String} :
    x ∈ fresh visited ids ↔ x ∈ ids ∧ x ∉ visited := by
  induction ids generalizing visited with
  | nil => simp [fresh]
  | cons id rest ih =>
      by_cases h : id ∈ visited
      · simp only [fresh, List.contains_eq_mem, h, decide_true, if_true, ih, List.mem_cons]
        constructor
        · rintro ⟨hx, hv⟩
          exact ⟨Or.inr hx, hv⟩
        · rintro ⟨rfl | hx, hv⟩
          · exact absurd h hv
          · exact ⟨hx, hv⟩
      · simp only [fresh, List.contains_eq_mem, h, decide_false, Bool.false_eq_true, if_false,
          List.mem_cons, ih, not_or]
        constructor
        · rintro (rfl | ⟨hx, -, hv⟩)
          · exact ⟨Or.inl rfl, h⟩
          · exact ⟨Or.inr hx, hv⟩
        · rintro ⟨hx, hv⟩
          by_cases he : x = id
          · exact Or.inl he
          · exact Or.inr ⟨hx.resolve_left he, he, hv⟩

theorem nodup_fresh (visited ids : List String) : (fresh visited ids).Nodup := by
  induction ids generalizing visited with
  | nil => exact List.nodup_nil
  | cons id rest ih =>
      simp only [fresh]
      split
      · exact ih visited
      · refine List.nodup_cons.mpr ⟨?_, ih _⟩
        intro hid
        exact (mem_fresh.mp hid).2 List.mem_cons_self

theorem fresh_eq_nil {visited ids : List String} (h : ∀ id ∈ ids, id ∈ visited) :
    fresh visited ids = [] := by
  refine List.eq_nil_iff_forall_not_mem.mpr ?_
  intro x hx
  obtain ⟨hmem, hnew⟩ := mem_fresh.mp hx
  exact hnew (h x hmem)

/-- Once the first of some identifiers have been met, only the fresh ones are left of the others. -/
theorem fresh_append (visited ids more : List String) :
    fresh visited (ids ++ more) =
      fresh visited ids ++ fresh ((fresh visited ids).reverse ++ visited) more := by
  induction ids generalizing visited with
  | nil => rfl
  | cons id rest ih =>
      rw [List.cons_append]
      by_cases h : visited.contains id = true
      · simp only [fresh, h, if_true]
        exact ih visited
      · simp only [fresh, h, if_false, Bool.false_eq_true, List.cons_append, List.reverse_cons,
          List.append_assoc, List.nil_append]
        rw [ih (id :: visited)]

/-- What passes a test among the fresh is fresh among what passes it; only the met that pass the
test matter. -/
theorem filter_fresh {visited visited' : List String} {p : String → Bool}
    (h : ∀ id, p id = true → (id ∈ visited' ↔ id ∈ visited)) (ids : List String) :
    (fresh visited ids).filter p = fresh visited' (ids.filter p) := by
  induction ids generalizing visited visited' with
  | nil => rfl
  | cons id rest ih =>
      cases hp : p id with
      | false =>
          rw [List.filter_cons_of_neg (by simp [hp])]
          by_cases hv : id ∈ visited
          · simpa [fresh, hv] using ih h
          · have hstep : ∀ x, p x = true → (x ∈ visited' ↔ x ∈ id :: visited) := by
              intro x hx
              have hne : x ≠ id := by
                rintro rfl
                rw [hp] at hx
                exact Bool.noConfusion hx
              simp [h x hx, hne]
            simpa [fresh, hv, hp] using ih hstep
      | true =>
          rw [List.filter_cons_of_pos hp]
          by_cases hv : id ∈ visited
          · simpa [fresh, hv, (h id hp).mpr hv] using ih h
          · have hstep : ∀ x, p x = true → (x ∈ id :: visited' ↔ x ∈ id :: visited) := by
              intro x hx
              simp [h x hx]
            have hv' : id ∉ visited' := fun hmem => hv ((h id hp).mp hmem)
            simpa [fresh, hv, hv', hp] using ih hstep

/-! ## One expansion -/

/-- An edge is followed behind its source, unless it is another branch's. -/
theorem follows_iff {id : String} {branch : Option String} {edge : Edge} :
    follows id branch edge = true ↔ edge.source = id ∧
      (edge.sourceHandle = none ∨ branch = none ∨ edge.sourceHandle = branch) := by
  unfold follows
  rw [Bool.and_eq_true, beq_iff_eq]
  refine and_congr_right ?_
  intro _
  cases branch with
  | none => simp
  | some taken =>
      cases edge.sourceHandle with
      | none => simp
      | some handle => simpa using eq_comm

/-- Where the edges that are followed behind a node lead, in the order of the edges. -/
def successors (t : Traversal) (id : String) (branch : Option String) : List String :=
  (t.edges.filter (follows id branch)).map Edge.target

theorem foldl_enqueue (t : Traversal) (ids : List String) :
    ids.foldl enqueue t =
      { t with visited := (fresh t.visited ids).reverse ++ t.visited
               queue := t.queue ++ fresh t.visited ids } := by
  induction ids generalizing t with
  | nil => simp [fresh]
  | cons id rest ih =>
      rw [List.foldl_cons, ih]
      by_cases h : id ∈ t.visited
      · simp [enqueue, fresh, h]
      · simp [enqueue, fresh, h]

theorem expand_eq (t : Traversal) (id : String) (branch : Option String) :
    t.expand id branch =
      { t with visited := (fresh t.visited (t.successors id branch)).reverse ++ t.visited
               queue := t.queue ++ fresh t.visited (t.successors id branch) } :=
  foldl_enqueue t _

theorem edges_expand (t : Traversal) (id : String) (branch : Option String) :
    (t.expand id branch).edges = t.edges := by rw [expand_eq]

theorem queue_expand (t : Traversal) (id : String) (branch : Option String) :
    (t.expand id branch).queue = t.queue ++ fresh t.visited (t.successors id branch) := by
  rw [expand_eq]

theorem mem_visited_expand {t : Traversal} {id : String} {branch : Option String} {x : String} :
    x ∈ (t.expand id branch).visited ↔ x ∈ t.visited ∨ x ∈ t.successors id branch := by
  rw [expand_eq]
  simp only [List.mem_append, List.mem_reverse, mem_fresh]
  by_cases h : x ∈ t.visited <;> simp [h]

/-! ## The walk without fuel -/

/-- The targets that have not been met. -/
def unmet (t : Traversal) : Finset String :=
  (t.edges.map Edge.target).toFinset \ t.visited.toFinset

/-- How many nodes a walk can still take. -/
def pending (t : Traversal) : Nat := t.queue.length + t.unmet.card

theorem pending_expand (t : Traversal) (id : String) (branch : Option String) :
    (t.expand id branch).pending = t.pending := by
  have hsub : (fresh t.visited (t.successors id branch)).toFinset ⊆ t.unmet := by
    intro x hx
    obtain ⟨hs, hv⟩ := mem_fresh.mp (List.mem_toFinset.mp hx)
    obtain ⟨edge, he, rfl⟩ := List.mem_map.mp hs
    simp only [unmet, Finset.mem_sdiff, List.mem_toFinset]
    exact ⟨List.mem_map_of_mem (List.mem_filter.mp he).1, hv⟩
  have hunmet : (t.expand id branch).unmet =
      t.unmet \ (fresh t.visited (t.successors id branch)).toFinset := by
    rw [expand_eq]
    ext x
    simp only [unmet, Finset.mem_sdiff, List.mem_toFinset, List.mem_append, List.mem_reverse]
    tauto
  have hlen := List.toFinset_card_of_nodup (nodup_fresh t.visited (t.successors id branch))
  have hle := Finset.card_le_card hsub
  simp only [pending, queue_expand, hunmet, Finset.card_sdiff_of_subset hsub, List.length_append]
  omega

theorem pending_of_queue_cons {t : Traversal} {id : String} {rest : List String}
    (h : t.queue = id :: rest) : t.pending = { t with queue := rest }.pending + 1 := by
  simp only [pending, h, List.length_cons, unmet]
  omega

theorem pending_start_le (edges : List Edge) (id : String) :
    (start edges id).pending ≤ edges.length := by
  simp only [pending, start, List.length_nil, Nat.zero_add, unmet]
  calc _ ≤ (edges.map Edge.target).toFinset.card := Finset.card_le_card Finset.sdiff_subset
    _ ≤ (edges.map Edge.target).length := List.toFinset_card_le _
    _ = edges.length := List.length_map _

/-- The nodes still to come when each is expanded by every edge. -/
def order (t : Traversal) : List String := drain t.pending t

theorem order_of_queue_nil {t : Traversal} (h : t.queue = []) : t.order = [] := by
  simp only [order]
  cases t.pending with
  | zero => rfl
  | succ fuel => simp [drain, next?, h]

/-- Any fuel from `pending` on gives the same walk. -/
theorem drain_eq_order {fuel : Nat} {t : Traversal} (h : t.pending ≤ fuel) :
    drain fuel t = t.order := by
  induction fuel generalizing t with
  | zero =>
      have hq : t.queue = [] := List.eq_nil_of_length_eq_zero (by simp only [pending] at h; omega)
      rw [order_of_queue_nil hq]
      rfl
  | succ fuel ih =>
      cases hq : t.queue with
      | nil => rw [order_of_queue_nil hq]; simp [drain, next?, hq]
      | cons id rest =>
          have hp : t.pending = ({ t with queue := rest }.expand id none).pending + 1 := by
            rw [pending_expand]
            exact pending_of_queue_cons hq
          rw [order, hp]
          simp only [drain, next?, hq]
          rw [ih (by omega)]
          rfl

theorem order_of_queue_cons {t : Traversal} {id : String} {rest : List String}
    (h : t.queue = id :: rest) :
    t.order = id :: ({ t with queue := rest }.expand id none).order := by
  rw [← drain_eq_order (Nat.le_succ t.pending)]
  simp only [drain, next?, h]
  rw [drain_eq_order]
  rw [pending_expand, pending_of_queue_cons h]
  exact Nat.le_succ _

end Traversal

theorem downstreamOrder_eq_order (id : String) (edges : List Edge) :
    downstreamOrder id edges = ((Traversal.start edges id).expand id none).order := by
  refine Traversal.drain_eq_order ?_
  rw [Traversal.pending_expand]
  exact Traversal.pending_start_le edges id

end FlowEngine
