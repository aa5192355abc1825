import FlowEngine.Proofs.Reach
import Mathlib.Data.List.Nodup
import Mathlib.Order.Lattice.Nat
/-!
# `FlowEngine.Proofs.BreadthFirst` — the order in which a walk lists the nodes

`downstreamOrder` is a loop that ends, and what it lists is told by the edges alone.  Each node is
led to by an edge from a node listed before it, the start counting as the first, and the nodes stand
in the order in which they are led to first: by the place of the first node with an edge to them, and
by the place of the first such edge (`LedBefore`).

The invariant behind that is `Ranked`.  When a node is taken, whatever has been led to before is met
already, so what is queued now is led to from this node for the first time and goes behind all
the rest.

That no node is listed before a nearer one needs nothing but this order.  A chain of edges to a node
has a last edge; the first node with an edge to it stands no later than where that edge begins, and a
node listed earlier is led to from no later node (`Listed.exists_chain`).
-/

namespace FlowEngine

variable {edges : List Edge} {a b x y : String} {n : Nat}

/-! ## Distance -/

/-- So many edges of the list lead from one node to another, one behind the other. -/
inductive Chain (edges : List Edge) (a : String) : Nat → String → Prop where
  | nil : Chain edges a 0 a
  | snoc {n : Nat} {b c : String} :
      Chain edges a n b → Joins edges b c → Chain edges a (n + 1) c

theorem reaches_iff_chain : Reaches edges a b ↔ ∃ n, Chain edges a n b := by
  constructor
  · intro h
    induction h with
    | refl => exact ⟨0, .nil⟩
    | tail _ hjoins ih =>
        obtain ⟨n, hn⟩ := ih
        exact ⟨n + 1, hn.snoc hjoins⟩
  · rintro ⟨n, h⟩
    induction h with
    | nil => exact .refl
    | snoc _ hjoins ih => exact ih.tail hjoins

/-- The least number of edges that lead from one node to another. -/
noncomputable def distance (edges : List Edge) (a b : String) : Nat := sInf {n | Chain edges a n b}

/-- A node is no farther than another if every chain to the other is matched by one to it. -/
theorem distance_le (hreach : Reaches edges a y)
    (h : ∀ n, Chain edges a n y → ∃ m ≤ n, Chain edges a m x) :
    distance edges a x ≤ distance edges a y := by
  have hnearest : Chain edges a (distance edges a y) y := Nat.sInf_mem (reaches_iff_chain.mp hreach)
  obtain ⟨m, hm, hchain⟩ := h _ hnearest
  exact (Nat.sInf_le hchain).trans hm

/-! ## Where a node is led to first -/

/-- An edge of the list leads from one node to another. -/
def joins (edges : List Edge) (a b : String) : Bool :=
  edges.any fun edge => edge.source == a && edge.target == b

@[simp] theorem joins_iff : joins edges a b = true ↔ Joins edges a b := by
  simp [joins, Joins]

/-- The place of the first edge from one node to another. -/
def edgeIndex (edges : List Edge) (a b : String) : Nat :=
  edges.findIdx fun edge => edge.source == a && edge.target == b

theorem edgeIndex_cons_self (edge : Edge) (edges : List Edge) :
    edgeIndex (edge :: edges) edge.source edge.target = 0 := by
  rw [edgeIndex, List.findIdx_cons, beq_self_eq_true, beq_self_eq_true]
  rfl

theorem edgeIndex_cons_of_not {edge : Edge} (h : ¬ (edge.source = a ∧ edge.target = b)) :
    edgeIndex (edge :: edges) a b = edgeIndex edges a b + 1 := by
  have hmiss : (edge.source == a && edge.target == b) = false := by simpa using h
  rw [edgeIndex, List.findIdx_cons, hmiss]
  rfl

/-- The place, among the nodes listed, of the first one from which an edge leads to a node. -/
def predecessorPlace (edges : List Edge) (listed : List String) (x : String) : Nat :=
  listed.findIdx (joins edges · x)

/-- The place of the first edge from that one to the node. -/
def edgePlace (edges : List Edge) (listed : List String) (x : String) : Nat :=
  (listed.find? (joins edges · x)).elim edges.length (edgeIndex edges · x)

/-- The first of the nodes listed that has an edge to `x` stands before the first that has one to
`y`, or it is the same one and its first edge to `x` stands before its first edge to `y`. -/
def LedBefore (edges : List Edge) (listed : List String) (x y : String) : Prop :=
  predecessorPlace edges listed x < predecessorPlace edges listed y ∨
    predecessorPlace edges listed x = predecessorPlace edges listed y ∧
      edgePlace edges listed x < edgePlace edges listed y

/-- One of the nodes has an edge to the node. -/
def Led (edges : List Edge) (listed : List String) (x : String) : Prop :=
  ∃ a ∈ listed, Joins edges a x

variable {listed more : List String}

theorem Led.place_lt (h : Led edges listed x) : predecessorPlace edges listed x < listed.length := by
  obtain ⟨a, ha, hjoins⟩ := h
  exact List.findIdx_lt_length_of_exists ⟨a, ha, joins_iff.mpr hjoins⟩

/-- Where a node is led to first does not depend on what is listed later. -/
theorem Led.place_append (h : Led edges listed x) (more : List String) :
    predecessorPlace edges (listed ++ more) x = predecessorPlace edges listed x := by
  have hlt := h.place_lt
  rw [predecessorPlace] at hlt
  rw [predecessorPlace, List.findIdx_append, if_pos hlt, predecessorPlace]

theorem Led.edgePlace_append (h : Led edges listed x) (more : List String) :
    edgePlace edges (listed ++ more) x = edgePlace edges listed x := by
  obtain ⟨a, ha, hjoins⟩ := h
  have hfound : (listed.find? (joins edges · x)).isSome = true :=
    List.find?_isSome.mpr ⟨a, ha, joins_iff.mpr hjoins⟩
  obtain ⟨first, hfirst⟩ := Option.isSome_iff_exists.mp hfound
  rw [edgePlace, List.find?_append, edgePlace, hfirst]
  rfl

theorem LedBefore.append (h : LedBefore edges listed x y) (hx : Led edges listed x)
    (hy : Led edges listed y) (more : List String) : LedBefore edges (listed ++ more) x y := by
  rw [LedBefore, hx.place_append, hy.place_append, hx.edgePlace_append, hy.edgePlace_append]
  exact h

/-- A node to which none of the nodes has an edge is led to from the next one that has. -/
theorem places_concat (hnot : ¬ Led edges listed x) (hjoins : Joins edges a x) :
    predecessorPlace edges (listed ++ [a]) x = listed.length ∧
      edgePlace edges (listed ++ [a]) x = edgeIndex edges a x := by
  have hnone : ∀ b ∈ listed, joins edges b x = false := by
    intro b hb
    rw [← Bool.not_eq_true, joins_iff]
    exact fun hb' => hnot ⟨b, hb, hb'⟩
  have hlength : listed.findIdx (joins edges · x) = listed.length :=
    List.findIdx_eq_length.mpr hnone
  have hfind : listed.find? (joins edges · x) = none := by
    refine List.find?_eq_none.mpr ?_
    intro b hb
    simp [hnone b hb]
  have hself : joins edges a x = true := joins_iff.mpr hjoins
  constructor
  · rw [predecessorPlace, List.findIdx_append, hlength, if_neg (Nat.lt_irrefl _)]
    simp [List.findIdx_cons, hself]
  · rw [edgePlace, List.find?_append, hfind, Option.none_or, List.find?_singleton, if_pos hself]
    rfl

namespace Traversal

theorem ne_of_mem_fresh {visited ids : List String} (hx : x ∈ fresh visited ids)
    (hy : y ∈ visited) : x ≠ y := by
  rintro rfl
  exact (mem_fresh.mp hx).2 hy

/-- The successors of a node are queued in the order of the first edges to them. -/
theorem pairwise_edgeIndex_fresh (edges : List Edge) (id : String) (visited : List String) :
    (fresh visited ((edges.filter (follows id none)).map Edge.target)).Pairwise fun x y =>
      edgeIndex edges id x < edgeIndex edges id y := by
  induction edges generalizing visited with
  | nil => exact .nil
  | cons edge edges ih =>
      -- Where the first edge leads to neither of two nodes, it puts both one place back.
      have hback : ∀ {x y : String}, ¬ (edge.source = id ∧ edge.target = x) →
          ¬ (edge.source = id ∧ edge.target = y) → edgeIndex edges id x < edgeIndex edges id y →
            edgeIndex (edge :: edges) id x < edgeIndex (edge :: edges) id y := by
        intro x y hx hy hxy
        rw [edgeIndex_cons_of_not hx, edgeIndex_cons_of_not hy]
        exact Nat.succ_lt_succ hxy
      by_cases hsource : edge.source = id
      · have hfollows : follows id none edge = true := by simp [follows, hsource]
        rw [List.filter_cons_of_pos hfollows, List.map_cons, fresh]
        by_cases hmet : edge.target ∈ visited
        · rw [if_pos (by simpa using hmet)]
          refine (ih visited).imp_of_mem ?_
          intro x y hx hy hxy
          exact hback (fun h => ne_of_mem_fresh hx hmet h.2.symm)
            (fun h => ne_of_mem_fresh hy hmet h.2.symm) hxy
        · rw [if_neg (by simpa using hmet)]
          refine List.pairwise_cons.mpr ⟨?_, (ih _).imp_of_mem ?_⟩
          · intro y hy
            rw [← hsource, edgeIndex_cons_self, edgeIndex_cons_of_not fun h =>
              ne_of_mem_fresh hy List.mem_cons_self h.2.symm]
            exact Nat.succ_pos _
          · intro x y hx hy hxy
            exact hback (fun h => ne_of_mem_fresh hx List.mem_cons_self h.2.symm)
              (fun h => ne_of_mem_fresh hy List.mem_cons_self h.2.symm) hxy
      · have hfollows : ¬ follows id none edge = true := by simp [follows, hsource]
        rw [List.filter_cons_of_neg hfollows]
        refine (ih visited).imp ?_
        intro x y hxy
        exact hback (fun h => hsource h.1) (fun h => hsource h.1) hxy

/-! ## The invariant of a walk -/

/-- Some nodes have been taken from the queue and expanded.  What has been met is these and what is
queued behind them, each once; it holds all that the nodes taken lead to; and but for the first, all
of it is led to from them and stands in the order in which it is led to. -/
structure Ranked (edges : List Edge) (taken : List String) (t : Traversal) : Prop where
  same : t.edges = edges
  met : ∀ x, x ∈ t.visited ↔ x ∈ taken ++ t.queue
  nodup : (taken ++ t.queue).Nodup
  closed : ∀ x, Led edges taken x → x ∈ taken ++ t.queue
  led : ∀ x ∈ (taken ++ t.queue).tail, Led edges taken x
  ordered : (taken ++ t.queue).tail.Pairwise (LedBefore edges taken)

variable {t : Traversal} {taken rest : List String} {id : String}

theorem Ranked.start (edges : List Edge) (id : String) :
    Ranked edges [] { start edges id with queue := [id] } where
  same := rfl
  met := fun _ => Iff.rfl
  nodup := List.nodup_singleton id
  closed := by
    rintro x ⟨a, ha, -⟩
    exact absurd ha List.not_mem_nil
  led := by
    intro x hx
    exact absurd hx List.not_mem_nil
  ordered := .nil

theorem Ranked.next (h : Ranked edges taken t) (hq : t.queue = id :: rest) :
    Ranked edges (taken ++ [id]) ({ t with queue := rest }.expand id none) := by
  set new := fresh t.visited (t.successors id none) with hnew
  have hlist : (taken ++ [id]) ++ ({ t with queue := rest }.expand id none).queue =
      (taken ++ t.queue) ++ new := by
    rw [queue_expand, hq]
    simp [hnew, successors]
  have htail : ((taken ++ t.queue) ++ new).tail = (taken ++ t.queue).tail ++ new :=
    List.tail_append_of_ne_nil (by simp [hq])
  have hmem : ∀ x, x ∈ new ↔ Joins edges id x ∧ x ∉ taken ++ t.queue := by
    intro x
    rw [hnew, mem_fresh, mem_successors_none, h.same, h.met]
  -- What is queued now has not been led to before, or else it would have been met.
  have hnot : ∀ x ∈ new, ¬ Led edges taken x := by
    intro x hx hled
    exact ((hmem x).mp hx).2 (h.closed x hled)
  have hplaces : ∀ x ∈ new, predecessorPlace edges (taken ++ [id]) x = taken.length ∧
      edgePlace edges (taken ++ [id]) x = edgeIndex edges id x :=
    fun x hx => places_concat (hnot x hx) ((hmem x).mp hx).1
  have hold : ∀ x ∈ (taken ++ t.queue).tail, Led edges (taken ++ [id]) x := by
    intro x hx
    obtain ⟨a, ha, hjoins⟩ := h.led x hx
    exact ⟨a, List.mem_append_left _ ha, hjoins⟩
  constructor
  case same =>
    rw [edges_expand]
    exact h.same
  case met =>
    intro x
    rw [hlist, List.mem_append, hmem, mem_visited_expand, mem_successors_none]
    show x ∈ t.visited ∨ Joins t.edges id x ↔ _
    rw [h.met, h.same]
    tauto
  case nodup =>
    rw [hlist]
    refine List.nodup_append.mpr ⟨h.nodup, nodup_fresh _ _, ?_⟩
    rintro x hx _ hx' rfl
    exact ((hmem x).mp hx').2 hx
  case closed =>
    rintro x ⟨a, ha, hjoins⟩
    rw [hlist, List.mem_append]
    by_cases hx : x ∈ taken ++ t.queue
    · exact Or.inl hx
    · refine Or.inr ((hmem x).mpr ⟨?_, hx⟩)
      rcases List.mem_append.mp ha with ha | ha
      · exact absurd (h.closed x ⟨a, ha, hjoins⟩) hx
      · exact List.mem_singleton.mp ha ▸ hjoins
  case led =>
    rw [hlist, htail]
    intro x hx
    rcases List.mem_append.mp hx with hx | hx
    · exact hold x hx
    · exact ⟨id, List.mem_append_right _ List.mem_cons_self, ((hmem x).mp hx).1⟩
  case ordered =>
    rw [hlist, htail]
    refine List.pairwise_append.mpr ⟨?_, ?_, ?_⟩
    · refine h.ordered.imp_of_mem ?_
      intro x y hx hy hxy
      exact hxy.append (h.led x hx) (h.led y hy) _
    · have hedges : t.successors id none = (edges.filter (follows id none)).map Edge.target := by
        rw [successors, h.same]
      rw [hnew, hedges] at hplaces ⊢
      refine (pairwise_edgeIndex_fresh edges id t.visited).imp_of_mem ?_
      intro x y hx hy hxy
      refine Or.inr ?_
      rw [(hplaces x hx).1, (hplaces y hy).1, (hplaces x hx).2, (hplaces y hy).2]
      exact ⟨rfl, hxy⟩
    · intro x hx y hy
      refine Or.inl ?_
      rw [(h.led x hx).place_append, (hplaces y hy).1]
      exact (h.led x hx).place_lt

theorem Ranked.finish (h : Ranked edges taken t) :
    ∃ t' : Traversal, t'.queue = [] ∧ Ranked edges (taken ++ t.order) t' := by
  induction t using walk_induction generalizing taken with
  | done t hq =>
      rw [order_of_queue_nil hq, List.append_nil]
      exact ⟨t, hq, h⟩
  | next t id rest hq ih =>
      obtain ⟨t', hdone, hranked⟩ := ih (h.next hq)
      rw [order_of_queue_cons hq]
      rw [List.append_assoc, List.singleton_append] at hranked
      exact ⟨t', hdone, hranked⟩

/-- The loop that takes the next node, expands it by every edge and begins again, as long as there is
a next node, ends; and these are the nodes that it takes. -/
inductive Drains : Traversal → List String → Prop where
  | done {t : Traversal} : t.next? = none → Drains t []
  | next {t t' : Traversal} {id : String} {rest : List String} :
      t.next? = some (id, t') → Drains (t'.expand id none) rest → Drains t (id :: rest)

theorem drains_order (t : Traversal) : Drains t t.order := by
  induction t using walk_induction with
  | done t hq =>
      rw [order_of_queue_nil hq]
      exact .done (by rw [next?, hq])
  | next t id rest hq ih =>
      rw [order_of_queue_cons hq]
      exact .next (by rw [next?, hq]) ih

end Traversal

/-! ## What is listed -/

/-- Behind a start there are nodes, each once, that are led to from the start and from each other, in
the order in which they are led to, and nothing else is. -/
structure Listed (edges : List Edge) (start : String) (order : List String) : Prop where
  nodup : (start :: order).Nodup
  closed : ∀ x, Led edges (start :: order) x → x ∈ start :: order
  led : ∀ x ∈ order, Led edges (start :: order) x
  ordered : order.Pairwise (LedBefore edges (start :: order))

theorem listed_downstreamOrder (start : String) (edges : List Edge) :
    Listed edges start (downstreamOrder start edges) := by
  obtain ⟨t, hq, hranked⟩ := (Traversal.Ranked.start edges start).finish
  have horder : ({ Traversal.start edges start with queue := [start] } : Traversal).order =
      start :: downstreamOrder start edges := by
    rw [Traversal.order_of_queue_cons rfl, downstreamOrder_eq_order]
    rfl
  rw [horder, List.nil_append] at hranked
  obtain ⟨-, -, hnodup, hclosed, hled, hordered⟩ := hranked
  rw [hq, List.append_nil] at hnodup hclosed hled hordered
  exact ⟨hnodup, hclosed, hled, hordered⟩

namespace Listed

variable {start : String} {order : List String}

theorem mem_of_chain (h : Listed edges start order) (hchain : Chain edges start n x) :
    x ∈ start :: order := by
  induction hchain with
  | nil => exact List.mem_cons_self
  | snoc _ hjoins ih => exact h.closed _ ⟨_, ih, hjoins⟩

/-- What stands earlier is led to from no later node. -/
theorem predecessorPlace_le (h : Listed edges start order) (hx : x ∈ order) (hy : y ∈ order)
    (hxy : order.idxOf x ≤ order.idxOf y) :
    predecessorPlace edges (start :: order) x ≤ predecessorPlace edges (start :: order) y := by
  rcases Nat.lt_or_eq_of_le hxy with hlt | heq
  · have hled := List.pairwise_iff_getElem.mp h.ordered _ _ (List.idxOf_lt_length_iff.mpr hx)
      (List.idxOf_lt_length_iff.mpr hy) hlt
    rw [List.getElem_idxOf, List.getElem_idxOf] at hled
    rcases hled with hless | ⟨hsame, -⟩
    · exact hless.le
    · exact hsame.le
  · rw [(List.idxOf_inj hx).mp heq]

theorem exists_predecessor (h : Listed edges start order) (hx : x ∈ order) :
    ∃ b ∈ start :: order, Joins edges b x ∧
      (start :: order).idxOf b = predecessorPlace edges (start :: order) x := by
  have hlt := (h.led x hx).place_lt
  refine ⟨(start :: order)[predecessorPlace edges (start :: order) x], List.getElem_mem hlt, ?_,
    h.nodup.idxOf_getElem _ hlt⟩
  exact joins_iff.mp (List.findIdx_getElem (w := hlt))

/-- Every chain of edges to a node is matched by one, no longer, to any node listed before it. -/
theorem exists_chain (h : Listed edges start order) (hchain : Chain edges start n y)
    (hx : x ∈ start :: order) (hxy : (start :: order).idxOf x ≤ (start :: order).idxOf y) :
    ∃ m ≤ n, Chain edges start m x := by
  -- On the chain, for its last edge tells where its end is led to at the latest.
  induction hchain generalizing x with
  | nil =>
      rw [List.idxOf_cons_self, Nat.le_zero, ← List.idxOf_cons_self (a := start) (l := order)] at hxy
      rw [(List.idxOf_inj hx).mp hxy]
      exact ⟨0, Nat.le_refl _, .nil⟩
  | @snoc n b y hchain hjoins ih =>
      by_cases hstart : x = start
      · rw [hstart]
        exact ⟨0, Nat.zero_le _, .nil⟩
      have hx' := (List.mem_cons.mp hx).resolve_left hstart
      rw [List.idxOf_cons_ne _ (Ne.symm hstart)] at hxy
      have hy : y ≠ start := by
        rintro rfl
        rw [List.idxOf_cons_self] at hxy
        exact absurd hxy (Nat.not_succ_le_zero _)
      have hy' := (List.mem_cons.mp (h.mem_of_chain (hchain.snoc hjoins))).resolve_left hy
      rw [List.idxOf_cons_ne _ (Ne.symm hy)] at hxy
      obtain ⟨first, hmem, hfirst, hplace⟩ := h.exists_predecessor hx'
      have hearly : predecessorPlace edges (start :: order) y ≤ (start :: order).idxOf b := by
        by_contra hlate
        have hnot := List.not_of_lt_findIdx (Nat.lt_of_not_le hlate)
        rw [List.getElem_idxOf, joins_iff.mpr hjoins] at hnot
        cases hnot
      have hle := h.predecessorPlace_le hx' hy' (Nat.succ_le_succ_iff.mp hxy)
      obtain ⟨m, hm, hnearer⟩ := ih hmem (by omega)
      exact ⟨m + 1, Nat.succ_le_succ hm, hnearer.snoc hfirst⟩

end Listed

/-- The loop behind `downstreamOrder` ends and gives its list.  The list holds every node that can be
reached from the start by at least one edge, other than the start, once, and nothing else.  No node
stands before a nearer one, and the nodes stand in the order of the first node with an edge to them,
the start and then those of the list, and behind the same one in the order of its first edges to
them. -/
theorem downstreamOrder_breadthFirst (start : String) (edges : List Edge) :
    Traversal.Drains ((Traversal.start edges start).expand start none)
        (downstreamOrder start edges) ∧
      (downstreamOrder start edges).Nodup ∧
      (∀ x, x ∈ downstreamOrder start edges ↔
        x ≠ start ∧ Relation.TransGen (Joins edges) start x) ∧
      (downstreamOrder start edges).Pairwise fun x y =>
        distance edges start x ≤ distance edges start y ∧
          LedBefore edges (start :: downstreamOrder start edges) x y := by
  have hlisted := listed_downstreamOrder start edges
  obtain ⟨hstart, hnodup⟩ := List.nodup_cons.mp hlisted.nodup
  refine ⟨?_, hnodup, ?_, ?_⟩
  · rw [downstreamOrder_eq_order]
    exact Traversal.drains_order _
  · intro x
    constructor
    · intro hx
      have hne : x ≠ start := by
        rintro rfl
        exact hstart hx
      have hreach := mem_cons_downstreamOrder.mp (List.mem_cons_of_mem start hx)
      exact ⟨hne, (Relation.reflTransGen_iff_eq_or_transGen.mp hreach).resolve_left hne⟩
    · rintro ⟨hne, htrans⟩
      have hreach := mem_cons_downstreamOrder.mpr htrans.to_reflTransGen
      exact (List.mem_cons.mp hreach).resolve_left hne
  · refine List.pairwise_iff_getElem.mpr ?_
    intro i j hi hj hij
    have hbefore := List.pairwise_iff_getElem.mp hlisted.ordered i j hi hj hij
    refine ⟨distance_le ?_ ?_, hbefore⟩
    · exact mem_cons_downstreamOrder.mp (List.mem_cons_of_mem start (List.getElem_mem hj))
    · intro n hchain
      refine hlisted.exists_chain hchain (List.mem_cons_of_mem start (List.getElem_mem hi)) ?_
      have hplaces := hlisted.nodup
      have hi' : (start :: downstreamOrder start edges).idxOf (downstreamOrder start edges)[i] =
          i + 1 := hplaces.idxOf_getElem (i + 1) (Nat.succ_lt_succ hi)
      have hj' : (start :: downstreamOrder start edges).idxOf (downstreamOrder start edges)[j] =
          j + 1 := hplaces.idxOf_getElem (j + 1) (Nat.succ_lt_succ hj)
      rw [hi', hj']
      omega

end FlowEngine
