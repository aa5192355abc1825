import FlowEngine.Proofs.Traversal
import Mathlib.Logic.Relation
/-!
# `FlowEngine.Proofs.Reach` — a walk meets what can be reached, and nothing else

`Reaches` is reachability along a list of edges, by any number of them.  A walk is sound for it
because a node is queued only as the target of an edge that leaves an expanded node
(`exists_reaches_of_mem_order`).  It is complete because of an invariant of the traversal: a node
that has been met is still queued, or it has been expanded and all its successors have been met
(`Settled`).  At the end of a walk nothing is queued, so what has been met is closed under the
edges.

Nothing is said here of the order in which the nodes are met.
-/

namespace FlowEngine

/-- An edge of the list leads from one node to another. -/
def Joins (edges : List Edge) (a b : String) : Prop :=
  ∃ edge ∈ edges, edge.source = a ∧ edge.target = b

/-- Edges of the list lead from one node to another. -/
abbrev Reaches (edges : List Edge) : String → String → Prop := Relation.ReflTransGen (Joins edges)

theorem Reaches.mono {edges more : List Edge} (h : ∀ edge ∈ edges, edge ∈ more) {a b : String}
    (hab : Reaches edges a b) : Reaches more a b := by
  refine Relation.ReflTransGen.mono ?_ _ _ hab
  rintro x y ⟨edge, hedge, hx, hy⟩
  exact ⟨edge, h edge hedge, hx, hy⟩

namespace Traversal

theorem mem_successors_none {t : Traversal} {a b : String} :
    b ∈ t.successors a none ↔ Joins t.edges a b := by
  simp [successors, follows, Joins, and_assoc]

/-- What has been met is still queued, or all its successors have been met. -/
structure Settled (t : Traversal) : Prop where
  queued : ∀ id ∈ t.queue, id ∈ t.visited
  expanded : ∀ a ∈ t.visited, a ∉ t.queue → ∀ b, Joins t.edges a b → b ∈ t.visited

/-- An expansion settles the node that has just left the queue. -/
theorem Settled.expand {t : Traversal} {id : String}
    (h : { t with queue := id :: t.queue }.Settled) : (t.expand id none).Settled where
  queued := by
    intro x hx
    rw [queue_expand] at hx
    rw [mem_visited_expand]
    rcases List.mem_append.mp hx with hx | hx
    · exact Or.inl (h.queued x (List.mem_cons_of_mem _ hx))
    · exact Or.inr (mem_fresh.mp hx).1
  expanded := by
    intro a ha hnotin b hjoins
    rw [queue_expand, List.mem_append, not_or] at hnotin
    rw [edges_expand] at hjoins
    rw [mem_visited_expand] at ha ⊢
    by_cases hid : a = id
    · exact Or.inr (mem_successors_none.mpr (hid ▸ hjoins))
    · -- A node that the expansion had met would be queued now, so this one was met before.
      have hmet : a ∈ t.visited := by
        by_contra hv
        exact hnotin.2 (mem_fresh.mpr ⟨ha.resolve_left hv, hv⟩)
      have hqueue : a ∉ id :: t.queue := by simp [hid, hnotin.1]
      exact Or.inl (h.expanded a hmet hqueue b hjoins)

theorem Settled.pop {t : Traversal} (h : t.Settled) {id : String} {rest : List String}
    (hq : t.queue = id :: rest) : ({ t with queue := rest }.expand id none).Settled := by
  refine Settled.expand ?_
  rw [← hq]
  exact h

theorem Settled.start (edges : List Edge) (id : String) :
    ((start edges id).expand id none).Settled := by
  refine Settled.expand ⟨fun x hx => hx, ?_⟩
  intro a ha hnotin
  exact absurd ha hnotin

/-! ## Along a walk -/

/-- What holds of a traversal with nothing queued, and of one as soon as it holds when the next node
has been taken and expanded, holds of every traversal. -/
theorem walk_induction {motive : Traversal → Prop} (t : Traversal)
    (done : ∀ t : Traversal, t.queue = [] → motive t)
    (next : ∀ (t : Traversal) (id : String) (rest : List String), t.queue = id :: rest →
      motive ({ t with queue := rest }.expand id none) → motive t) : motive t := by
  -- On the number of nodes still to be taken, for that is what a walk runs out of.
  induction hn : t.pending generalizing t with
  | zero =>
      have hq : t.queue = [] := List.eq_nil_of_length_eq_zero (by simp only [pending] at hn; omega)
      exact done t hq
  | succ n ih =>
      cases hq : t.queue with
      | nil => exact done t hq
      | cons id rest =>
          refine next t id rest hq (ih _ ?_)
          have hless := pending_of_queue_cons hq
          rw [pending_expand]
          omega

theorem mem_order_of_mem_queue {t : Traversal} {x : String} (h : x ∈ t.queue) : x ∈ t.order := by
  induction t using walk_induction with
  | done t hq =>
      rw [hq] at h
      exact absurd h List.not_mem_nil
  | next t id rest hq ih =>
      rw [order_of_queue_cons hq]
      rw [hq] at h
      rcases List.mem_cons.mp h with rfl | h
      · exact List.mem_cons_self
      · refine List.mem_cons_of_mem _ (ih ?_)
        rw [queue_expand]
        exact List.mem_append_left _ h

/-- What an expansion has met it has queued, and what is queued is met in its turn. -/
theorem mem_order_of_expand {t : Traversal} {id x : String} {branch : Option String}
    (h : x ∈ (t.expand id branch).visited) : x ∈ t.visited ∨ x ∈ (t.expand id branch).order := by
  by_cases hv : x ∈ t.visited
  · exact Or.inl hv
  · have hs := (mem_visited_expand.mp h).resolve_left hv
    refine Or.inr (mem_order_of_mem_queue ?_)
    rw [queue_expand]
    exact List.mem_append_right _ (mem_fresh.mpr ⟨hs, hv⟩)

theorem exists_reaches_of_mem_order {t : Traversal} {x : String} (h : x ∈ t.order) :
    ∃ q ∈ t.queue, Reaches t.edges q x := by
  induction t using walk_induction with
  | done t hq =>
      rw [order_of_queue_nil hq] at h
      exact absurd h List.not_mem_nil
  | next t id rest hq ih =>
      rw [order_of_queue_cons hq] at h
      rw [hq]
      rcases List.mem_cons.mp h with rfl | h
      · exact ⟨x, List.mem_cons_self, .refl⟩
      obtain ⟨q, hmem, hreach⟩ := ih h
      rw [edges_expand] at hreach
      rw [queue_expand] at hmem
      rcases List.mem_append.mp hmem with hmem | hmem
      · exact ⟨q, List.mem_cons_of_mem _ hmem, hreach⟩
      · have hjoins := mem_successors_none.mp (mem_fresh.mp hmem).1
        exact ⟨id, List.mem_cons_self, .head hjoins hreach⟩

/-- What has been met by the end of a walk is closed under the edges. -/
theorem Settled.closed {t : Traversal} (h : t.Settled) {a b : String}
    (ha : a ∈ t.visited ∨ a ∈ t.order) (hab : Joins t.edges a b) :
    b ∈ t.visited ∨ b ∈ t.order := by
  induction t using walk_induction with
  | done t hq =>
      rw [order_of_queue_nil hq] at ha
      have hmet := ha.resolve_right List.not_mem_nil
      exact Or.inl (h.expanded a hmet (hq ▸ List.not_mem_nil) b hab)
  | next t id rest hq ih =>
      rw [order_of_queue_cons hq] at ha ⊢
      have ha' : a ∈ ({ t with queue := rest }.expand id none).visited ∨
          a ∈ ({ t with queue := rest }.expand id none).order := by
        rw [mem_visited_expand]
        rcases ha with ha | ha
        · exact Or.inl (Or.inl ha)
        · rcases List.mem_cons.mp ha with rfl | ha
          · exact Or.inl (Or.inl (h.queued a (hq ▸ List.mem_cons_self)))
          · exact Or.inr ha
      rcases ih (h.pop hq) ha' (by rw [edges_expand]; exact hab) with hb | hb
      · exact (mem_order_of_expand hb).imp_right (List.mem_cons_of_mem _)
      · exact Or.inr (List.mem_cons_of_mem _ hb)

end Traversal

/-- A node and what comes downstream of it are the nodes that can be reached from it. -/
theorem mem_cons_downstreamOrder {edges : List Edge} {id x : String} :
    x ∈ id :: downstreamOrder id edges ↔ Reaches edges id x := by
  rw [downstreamOrder_eq_order, List.mem_cons]
  constructor
  · rintro (rfl | h)
    · exact .refl
    · obtain ⟨q, hq, hreach⟩ := Traversal.exists_reaches_of_mem_order h
      rw [Traversal.edges_expand] at hreach
      rw [Traversal.queue_expand] at hq
      have hfresh := (List.mem_append.mp hq).resolve_left List.not_mem_nil
      exact .head (Traversal.mem_successors_none.mp (Traversal.mem_fresh.mp hfresh).1) hreach
  · intro h
    have hmet : x ∈ ((Traversal.start edges id).expand id none).visited ∨
        x ∈ ((Traversal.start edges id).expand id none).order := by
      induction h with
      | refl => exact Or.inl (Traversal.mem_visited_expand.mpr (Or.inl List.mem_cons_self))
      | tail _ hjoins ih =>
          refine (Traversal.Settled.start edges id).closed ih ?_
          rw [Traversal.edges_expand]
          exact hjoins
    refine hmet.elim (fun hv => ?_) Or.inr
    exact (Traversal.mem_order_of_expand hv).imp_left List.mem_singleton.mp

end FlowEngine
