import FlowEngine.Library.Basic
import FlowEngine.Proofs.Library.Stored
import FlowEngine.Proofs.Store.Kept
/-!
# `FlowEngine.Proofs.Library.Saved` — what is saved is got back

A library that has only ever been saved to and archived from holds flows with distinct identifiers,
and each is read back as it is held.  `Filed` says what a save does to the flows held: a new one
goes behind the others, and one of an identifier that is there takes the place of the old.

The place, but not all of it.  A flow without a description is written without the field, a patch
leaves alone what it does not name, and so the description of the old flow stays.
-/

namespace FlowEngine

/-- How flows are kept. -/
def Flow.keeping : Keeping Flow where
  stored := Flow.stored
  id := Flow.id
  hasId_stored := Flow.hasId_stored

namespace Library

variable {library : Library} {store : MemoryStore} {flow : Flow} {flows flows' : List Flow}

/-- The collection holds the records of these flows, each under its own identifier. -/
structure Holds (library : Library) (store : MemoryStore) (flows : List Flow) : Prop where
  lists : store.Lists Flow.keeping library.collection flows
  exact : ∀ flow ∈ flows, flow.Exact
  distinct : (flows.map Flow.id).Nodup

/-- Filing a flow: it takes the place of the one of its identifier, or goes behind the others. -/
inductive Filed (flow : Flow) : Option Flow → List Flow → List Flow → Prop where
  | replaced {before after : List Flow} {old : Flow} : old.id = flow.id →
      Filed flow (some old) (before ++ old :: after) (before ++ flow.inPlaceOf (some old) :: after)
  | added {flows : List Flow} : (∀ x ∈ flows, x.id ≠ flow.id) →
      Filed flow none flows (flows ++ [flow.inPlaceOf none])

/-! ## Filing -/

namespace Filed

variable {old : Option Flow}

theorem split (h : Filed flow old flows flows') : ∃ before after,
    flows = before ++ old.toList ++ after ∧ flows' = before ++ flow.inPlaceOf old :: after ∧
      ∀ x ∈ old, x.id = flow.id := by
  cases h with
  | @replaced before after old hid =>
      refine ⟨before, after, ?_, rfl, ?_⟩
      · rw [Option.toList_some, List.append_assoc, List.singleton_append]
      · intro x hx
        obtain rfl := Option.mem_some_iff.mp hx
        exact hid
  | added _ => exact ⟨flows, [], by simp, rfl, by simp⟩

theorem distinct (h : Filed flow old flows flows') (hflows : (flows.map Flow.id).Nodup) :
    (flows'.map Flow.id).Nodup := by
  cases h with
  | replaced hid =>
      rw [List.map_append, List.map_cons] at hflows ⊢
      rwa [show (flow.inPlaceOf _).id = flow.id from rfl, ← hid]
  | added hfree =>
      rw [List.map_append, List.map_singleton]
      refine List.nodup_append.mpr ⟨hflows, List.pairwise_singleton _ _, ?_⟩
      intro id hmem id' hid'
      obtain ⟨x, hx, rfl⟩ := List.mem_map.mp hmem
      obtain rfl := List.mem_singleton.mp hid'
      exact hfree x hx

theorem exact (h : Filed flow old flows flows') (hflows : ∀ x ∈ flows, x.Exact)
    (hflow : flow.canvas.Tidy) : ∀ x ∈ flows', x.Exact := by
  obtain ⟨before, after, rfl, rfl, -⟩ := h.split
  simp only [List.forall_mem_append, List.forall_mem_cons, Option.mem_toList] at hflows ⊢
  exact ⟨hflows.1.1, Flow.Exact.inPlaceOf hflow hflows.1.2, hflows.2⟩

theorem filter_ne (h : Filed flow old flows flows') :
    flows'.filter (fun x => x.id != flow.id) = flows.filter (fun x => x.id != flow.id) := by
  obtain ⟨before, after, rfl, rfl, hid⟩ := h.split
  have hold : old.toList.filter (fun x => x.id != flow.id) = [] := by
    refine List.filter_eq_nil_iff.mpr ?_
    intro x hx
    simp [hid x (Option.mem_toList.mp hx)]
  rw [List.filter_append, List.filter_append, List.filter_append, hold, List.append_nil,
    List.filter_cons_of_neg]
  simp [Flow.inPlaceOf]

/-- There is one flow of the identifier, and it is the one that is filed. -/
theorem filter_eq (h : Filed flow old flows flows') (hflows : (flows.map Flow.id).Nodup) :
    flows'.filter (fun x => x.id == flow.id) = [flow.inPlaceOf old] := by
  have hdistinct := h.distinct hflows
  obtain ⟨before, after, -, rfl, -⟩ := h.split
  rw [List.map_append, List.map_cons, List.nodup_append, List.nodup_cons] at hdistinct
  obtain ⟨-, ⟨hafter, -⟩, hbefore⟩ := hdistinct
  have hnot : ∀ x, x ∈ before ∨ x ∈ after → ¬ (x.id == flow.id) = true := by
    rintro x (hx | hx) heq
    · exact hbefore x.id (List.mem_map_of_mem hx) flow.id (List.mem_cons_self ..)
        (beq_iff_eq.mp heq)
    · refine hafter ?_
      rw [show (flow.inPlaceOf old).id = x.id from (beq_iff_eq.mp heq).symm]
      exact List.mem_map_of_mem hx
  rw [List.filter_append, List.filter_cons_of_pos (by simp [Flow.inPlaceOf]),
    List.filter_eq_nil_iff.mpr fun x hx => hnot x (Or.inl hx),
    List.filter_eq_nil_iff.mpr fun x hx => hnot x (Or.inr hx)]
  rfl

end Filed

/-! ## Reading -/

theorem Holds.get? (h : library.Holds store flows) (id : String) :
    (library.get? id).runWith MemoryStore.answer store =
      (.ok (flows.find? fun x => x.id == id), store) := by
  rw [Library.get?, MemoryStore.runWith_getOne_bind, h.lists.getOne_eq id]
  cases hfind : flows.find? (fun x => x.id == id) with
  | none =>
      rw [show flows.find? (fun x => Flow.keeping.id x == id) = none from hfind]
      rfl
  | some flow =>
      have hread : Json.readRecord Flow.ofRecord? library.collection flow.stored = .ok flow := by
        rw [Json.readRecord, Flow.ofRecord?_stored (h.exact flow (List.mem_of_find?_eq_some hfind))]
      rw [show flows.find? (fun x => Flow.keeping.id x == id) = some flow from hfind]
      simp only [Flow.keeping, hread]
      rfl

/-- The flow that a save replaces is the one that is held under its identifier. -/
theorem Holds.existing? (h : library.Holds store flows) (flow : Flow) :
    (library.existing? flow).runWith MemoryStore.answer store =
      (.ok (if flow.id.isEmpty then none else flows.find? fun x => x.id == flow.id), store) := by
  rw [Library.existing?]
  split
  · rfl
  · exact h.get? flow.id

theorem Holds.records_filter (h : library.Holds store flows) (id : String) (p : Bool → Bool) :
    (store.records library.collection).filter (fun x => p (MemoryStore.hasId id x)) =
      (flows.filter fun x => p (x.id == id)).map Flow.stored := by
  rw [h.lists, List.filter_map]
  refine congrArg (List.map Flow.stored) (List.filter_congr ?_)
  intro x _
  exact congrArg p (x.hasId_stored id)

/-! ## Saving -/

theorem runWith_save_over {old saved : Flow}
    (h : (library.existing? flow).runWith MemoryStore.answer store = (.ok (some old), store))
    (hsaved : saved = { flow with version := nextVersion (some old) }) :
    (library.save flow).runWith MemoryStore.answer store =
      ((store.update library.collection saved.id saved.toRecord).1.map fun _ => saved,
        (store.update library.collection saved.id saved.toRecord).2) := by
  rw [save, Program.runWith_bind, h, hsaved]
  show Program.runWith _ (Program.update _ _ _ >>= _) _ = _
  rw [MemoryStore.runWith_update_bind]
  cases (store.update library.collection flow.id
    { flow with version := nextVersion (some old) }.toRecord).1 <;> rfl

theorem runWith_save_new {saved : Flow}
    (h : (library.existing? flow).runWith MemoryStore.answer store = (.ok none, store))
    (hsaved : saved = { flow with version := nextVersion none }) :
    (library.save flow).runWith MemoryStore.answer store =
      ((store.create library.collection saved.toRecord).1.map fun created =>
        { saved with id := ((created.get? "id").bind Json.text?).getD saved.id },
        (store.create library.collection saved.toRecord).2) := by
  rw [save, Program.runWith_bind, h, hsaved]
  show Program.runWith _ (Program.create _ _ >>= _) _ = _
  rw [MemoryStore.runWith_create_bind]
  cases (store.create library.collection { flow with version := nextVersion none }.toRecord).1 <;>
    rfl

theorem Holds.update (h : library.Holds store flows) (saved : Flow) {old : Flow}
    (hsaved : saved.canvas.Tidy) (hfind : flows.find? (fun x => x.id == saved.id) = some old) :
    ∃ flows' reply, (store.update library.collection saved.id saved.toRecord).1 = .ok reply ∧
      Filed saved (some old) flows flows' ∧
      library.Holds (store.update library.collection saved.id saved.toRecord).2 flows' := by
  obtain ⟨hid, before, after, rfl, hbefore⟩ := List.find?_eq_some_iff_append.mp hfind
  have hid' : old.id = saved.id := beq_iff_eq.mp hid
  have hbefore' : ∀ x ∈ before, x.id ≠ saved.id := by
    intro x hx
    simpa using hbefore x hx
  obtain ⟨members, hrecord, hoverlay⟩ := Flow.overlay_stored hid'
  obtain ⟨hreply, hlists⟩ := h.lists.update_at hbefore' hid' hoverlay
  have hfiled : Filed saved (some old) (before ++ old :: after) _ := .replaced hid'
  rw [hrecord]
  exact ⟨_, _, hreply, hfiled, hlists, hfiled.exact h.exact hsaved, hfiled.distinct h.distinct⟩

/-- The call that saves a new flow files it behind the others, unless its identifier is there. -/
theorem Holds.create (h : library.Holds store flows) (saved : Flow) (hsaved : saved.canvas.Tidy) :
    (∃ e, (store.create library.collection saved.toRecord).1 = .error e) ∧
        library.Holds (store.create library.collection saved.toRecord).2 flows ∨
      ∃ id flows', (saved.id ≠ "" → id = saved.id) ∧
        (store.create library.collection saved.toRecord).1 =
          .ok ({ saved with id }.inPlaceOf none).stored ∧
        Filed { saved with id } none flows flows' ∧
        library.Holds (store.create library.collection saved.toRecord).2 flows' := by
  obtain ⟨members, hrecord, -⟩ := saved.isRecord_toRecord
  have hstored := saved.withId_toRecord (store.idFor members)
  rw [hrecord] at hstored ⊢
  rcases h.lists.create_under hstored rfl with ⟨hrefused, hlists⟩ | ⟨hfree, hcreated, hlists⟩
  · exact Or.inl ⟨hrefused, hlists, h.exact, h.distinct⟩
  · have hfiled : Filed { saved with id := store.idFor members } none flows _ := .added hfree
    refine Or.inr ⟨store.idFor members, _, ?_, hcreated, hfiled, hlists,
      hfiled.exact h.exact hsaved, hfiled.distinct h.distinct⟩
    intro hne
    exact saved.idFor_toRecord store hrecord hne

/-- All that a save can do: it is refused, and what is held stays; or the flow is filed, over the
one that was there before. -/
theorem Holds.save (h : library.Holds store flows) (hflow : flow.canvas.Tidy) :
    (∃ e store', (library.save flow).runWith MemoryStore.answer store = (.error e, store') ∧
        library.Holds store' flows) ∨
      ∃ old saved flows' store',
        (library.existing? flow).runWith MemoryStore.answer store = (.ok old, store) ∧
        (library.save flow).runWith MemoryStore.answer store = (.ok saved, store') ∧
        saved = { flow with id := saved.id, version := nextVersion old } ∧
        (flow.id ≠ "" → saved.id = flow.id) ∧
        Filed saved old flows flows' ∧ library.Holds store' flows' := by
  have hexisting := h.existing? flow
  cases hfind : if flow.id.isEmpty then none else flows.find? fun x => x.id == flow.id with
  | some old =>
      rw [hfind] at hexisting
      have hfind' : flows.find? (fun x => x.id == flow.id) = some old := by
        split at hfind
        · cases hfind
        · exact hfind
      obtain ⟨flows', reply, hreply, hfiled, hholds⟩ :=
        h.update { flow with version := nextVersion (some old) } hflow hfind'
      refine Or.inr ⟨some old, { flow with version := nextVersion (some old) }, flows', _,
        hexisting, ?_, rfl, fun _ => rfl, hfiled, hholds⟩
      rw [runWith_save_over hexisting rfl, hreply]
      rfl
  | none =>
      rw [hfind] at hexisting
      have hsave := runWith_save_new hexisting rfl
      rcases h.create { flow with version := nextVersion none } hflow with
        ⟨⟨e, hrefused⟩, hholds⟩ | ⟨id, flows', hid, hcreated, hfiled, hholds⟩
      · refine Or.inl ⟨e, _, ?_, hholds⟩
        rw [hsave, hrefused]
        rfl
      · refine Or.inr ⟨none, _, flows', _, hexisting, ?_, rfl, hid, hfiled, hholds⟩
        rw [hsave, hcreated, Except.map, Flow.get?_stored, if_pos rfl]
        rfl

/-! ## Archiving -/

/-- The flows when the one of an identifier is archived. -/
def archiving (id : String) (flows : List Flow) : List Flow :=
  flows.map fun flow => if flow.id = id then { flow with status := .archived } else flow

theorem archiving_of_ne {id : String} (h : ∀ flow ∈ flows, flow.id ≠ id) :
    archiving id flows = flows := by
  refine (List.map_congr_left ?_).trans (List.map_id' flows)
  intro flow hflow
  exact if_neg (h flow hflow)

theorem map_id_archiving (id : String) (flows : List Flow) :
    (archiving id flows).map Flow.id = flows.map Flow.id := by
  rw [archiving, List.map_map]
  refine List.map_congr_left ?_
  intro flow _
  rw [Function.comp_apply]
  split <;> rfl

/-- Archiving changes the status of the flow of the identifier, and says whether there is one. -/
theorem Holds.archived (h : library.Holds store flows) (id : String) :
    ∃ store', (library.archive id).runWith MemoryStore.answer store =
        (.ok (flows.any fun flow => flow.id == id), store') ∧
      library.Holds store' (archiving id flows) := by
  rw [Library.archive, MemoryStore.runWith_update_bind]
  rcases MemoryStore.exists_first Flow.keeping flows id with
    hnone | ⟨before, flow, after, rfl, hbefore, hid⟩
  · have hnone' : ∀ flow ∈ flows, flow.id ≠ id := hnone
    have hunknown : ∀ x ∈ store.records library.collection, MemoryStore.hasId id x = false := by
      rw [h.lists]
      exact MemoryStore.Lists.hasId_eq_false hnone
    have hany : (flows.any fun flow => flow.id == id) = false := by
      simpa using hnone'
    rw [MemoryStore.update_of_unknown hunknown, archiving_of_ne hnone', hany]
    exact ⟨store, rfl, h⟩
  · obtain ⟨hreply, hlists⟩ := h.lists.update_at hbefore hid flow.overlay_archived
    have hid' : flow.id = id := hid
    have hany : ((before ++ flow :: after).any fun flow => flow.id == id) = true := by
      simp [hid']
    have hafter : ∀ x ∈ after, x.id ≠ id := by
      have hdistinct := h.distinct
      rw [List.map_append, List.map_cons, List.nodup_append, List.nodup_cons] at hdistinct
      intro x hx heq
      refine hdistinct.2.1.1 ?_
      rw [hid', ← heq]
      exact List.mem_map_of_mem hx
    have harchiving : archiving id (before ++ flow :: after) =
        before ++ { flow with status := .archived } :: after := by
      rw [archiving, List.map_append, List.map_cons, if_pos hid']
      exact congr (congrArg _ (archiving_of_ne hbefore)) (congrArg _ (archiving_of_ne hafter))
    rw [hany, hreply]
    refine ⟨_, rfl, ?_, ?_, ?_⟩
    · rwa [harchiving]
    · rw [harchiving]
      have hexact := h.exact
      rw [List.forall_mem_append, List.forall_mem_cons] at hexact ⊢
      exact ⟨hexact.1, ⟨hexact.2.1.canvas, hexact.2.1.description⟩, hexact.2.2⟩
    · rw [map_id_archiving]
      exact h.distinct

/-! ## Libraries -/

/-- All flows in the store were saved or archived by the library; the other collections are
anyone's. -/
inductive Built (library : Library) : MemoryStore → Prop where
  | empty {store : MemoryStore} : store.records library.collection = [] → Built library store
  | save {store : MemoryStore} {flow : Flow} : Built library store → flow.canvas.Tidy →
      Built library ((library.save flow).runWith MemoryStore.answer store).2
  | archive {store : MemoryStore} (id : String) : Built library store →
      Built library ((library.archive id).runWith MemoryStore.answer store).2
  | elsewhere {store store' : MemoryStore} : Built library store →
      store'.records library.collection = store.records library.collection → Built library store'

theorem Built.holds (h : library.Built store) : ∃ flows, library.Holds store flows := by
  induction h with
  | empty hrecords => exact ⟨[], hrecords, List.forall_mem_nil _, List.nodup_nil⟩
  | save _ hflow ih =>
      obtain ⟨flows, hholds⟩ := ih
      rcases hholds.save hflow with
        ⟨e, store', hsave, hkept⟩ | ⟨_, _, flows', store', -, hsave, -, -, -, hholds'⟩
      · rw [hsave]
        exact ⟨flows, hkept⟩
      · rw [hsave]
        exact ⟨flows', hholds'⟩
  | archive id _ ih =>
      obtain ⟨flows, hholds⟩ := ih
      obtain ⟨store', harchived, hholds'⟩ := hholds.archived id
      rw [harchived]
      exact ⟨archiving id flows, hholds'⟩
  | elsewhere _ hrecords ih =>
      obtain ⟨flows, hholds⟩ := ih
      exact ⟨flows, hrecords.trans hholds.lists, hholds.exact, hholds.distinct⟩

/-- A flow that is saved is got back as it was saved, but for its description: where it has none,
that of the flow that it replaces stays.  Of that flow there is nothing else left, and the records
of the other flows are as they were. -/
theorem Built.save_replaces (h : library.Built store) (hflow : flow.canvas.Tidy) {saved : Flow}
    {store' : MemoryStore}
    (hsave : (library.save flow).runWith MemoryStore.answer store = (.ok saved, store')) :
    ∃ old, ((library.existing? flow).runWith MemoryStore.answer store).1 = .ok old ∧
      saved = { flow with id := saved.id, version := nextVersion old } ∧
      (flow.id ≠ "" → saved.id = flow.id) ∧
      ((library.get? saved.id).runWith MemoryStore.answer store').1 =
        .ok (some (saved.inPlaceOf old)) ∧
      (store'.records library.collection).filter (MemoryStore.hasId saved.id) =
        [(saved.inPlaceOf old).stored] ∧
      (store'.records library.collection).filter (fun x => !MemoryStore.hasId saved.id x) =
        (store.records library.collection).filter (fun x => !MemoryStore.hasId saved.id x) ∧
      ∀ id, id ≠ saved.id → ((library.get? id).runWith MemoryStore.answer store').1 =
        ((library.get? id).runWith MemoryStore.answer store).1 := by
  obtain ⟨flows, hholds⟩ := h.holds
  rcases hholds.save hflow with ⟨e, _, hrefused, -⟩ |
    ⟨old, filed, flows', after, hexisting, hsaved, hself, hid, hfiled, hholds'⟩
  · rw [hrefused] at hsave
    cases hsave
  obtain ⟨hok, rfl⟩ := Prod.mk.inj (hsave.symm.trans hsaved)
  obtain rfl := Except.ok.inj hok
  have hone := hfiled.filter_eq hholds.distinct
  have hothers := hfiled.filter_ne
  refine ⟨old, congrArg Prod.fst hexisting, hself, hid, ?_, ?_, ?_, ?_⟩
  · rw [hholds'.get?, ← List.head?_filter, hone]
    rfl
  · exact (hholds'.records_filter _ id).trans (congrArg (List.map Flow.stored) hone)
  · rw [hholds'.records_filter _ not, hholds.records_filter _ not]
    exact congrArg (List.map Flow.stored) hothers
  · intro id hne
    have hfind : ∀ items : List Flow, items.find? (fun x => x.id == id) =
        (items.filter fun x => x.id != saved.id).find? fun x => x.id == id := by
      intro items
      rw [List.find?_filter]
      refine congrArg (fun p => items.find? p) (funext fun x => ?_)
      by_cases hx : x.id = id
      · simp [hx, hne]
      · simp [hx]
    rw [hholds'.get?, hholds.get?, hfind flows', hfind flows, hothers]

def orders (description : Option String) : Flow := { id := "f1", name := "Orders", description }

/-- A library in which that flow has been saved with a description. -/
def ofOrders : MemoryStore :=
  ((save {} (orders (some "old"))).runWith MemoryStore.answer {}).2

theorem built_ofOrders : Built {} ofOrders := .save (.empty rfl) (List.forall_mem_nil _)

theorem replaces_orders : ∃ saved store', Built {} ofOrders ∧ (orders (some "new")).canvas.Tidy ∧
    (save {} (orders (some "new"))).runWith MemoryStore.answer ofOrders = (.ok saved, store') ∧
    saved.version = 2 ∧
    ((get? {} saved.id).runWith MemoryStore.answer store').1 = .ok (some saved) := by
  have htidy : (orders (some "new")).canvas.Tidy := List.forall_mem_nil _
  have hsave : (save {} (orders (some "new"))).runWith MemoryStore.answer ofOrders =
      (.ok { orders (some "new") with version := 2 }, _) := rfl
  obtain ⟨old, -, -, -, hget, -⟩ := built_ofOrders.save_replaces htidy hsave
  exact ⟨_, _, built_ofOrders, htidy, hsave, rfl, hget⟩

/-- A description that is taken out stays. -/
theorem not_replaced_undescribed : Built {} ofOrders ∧
    ∃ saved store', (save {} (orders none)).runWith MemoryStore.answer ofOrders =
        (.ok saved, store') ∧
      ¬ ∃ got, ((get? {} saved.id).runWith MemoryStore.answer store').1 = .ok (some got) ∧
        got.description = saved.description.filter (!·.isEmpty) := by
  refine ⟨built_ofOrders, { orders none with version := 2 }, _, rfl, ?_⟩
  rintro ⟨got, hget, hdescription⟩
  have hkept : (Except.toOption (.ok (some got) : Except StoreError (Option Flow))).bind
      (Option.bind · Flow.description) = some "old" := by
    rw [← hget]
    decide +kernel
  exact absurd (hkept.symm.trans hdescription) (by decide)

end Library

end FlowEngine
