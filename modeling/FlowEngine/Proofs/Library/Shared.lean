import FlowEngine.Proofs.Library.Listing
import FlowEngine.Proofs.Library.Versions
import FlowEngine.Proofs.Store.Beside
/-!
# `FlowEngine.Proofs.Library.Shared` — a library in a store on which others work

What the library does to the flows that it holds is the same whether it has the store for itself or
not, as long as nobody else writes to its collection: a save reads before it writes, and finds at
the write what it has read.
-/

namespace FlowEngine

namespace Library

variable {library : Library} {store store' : MemoryStore} {flows : List Flow} {flow : Flow}
  {t : Transcript}

theorem Holds.of_records (h : library.Holds store flows)
    (hrecords : store'.records library.collection = store.records library.collection) :
    library.Holds store' flows :=
  ⟨hrecords.trans h.lists, h.exact, h.distinct⟩

/-! ## Reading -/

theorem asks_get? {kind : Action → Prop} (library : Library) {id : String}
    (h : kind (.getOne library.collection id {})) : (library.get? id).Asks kind := by
  rw [get?_eq]
  exact .act h fun _ => .done _

theorem asks_listFrom {kind : Action → Prop} (library : Library) (filter : Option String)
    (h : ∀ query, kind (.list library.collection query)) (fuel : Nat) (page : UInt32)
    (read : List Flow) : (library.listFrom filter fuel page read).Asks kind := by
  induction fuel generalizing page read with
  | zero => exact .pure _
  | succ fuel ih =>
      refine (Program.Asks.perform (h _)).bind fun reply => ?_
      cases reply with
      | error e => exact .pure _
      | ok found =>
          cases hread : Json.readRecords Flow.ofRecord? library.collection found.items with
          | error e =>
              simp only [hread]
              exact .pure _
          | ok flows =>
              simp only [hread]
              split
              · exact .pure _
              · exact ih _ _

theorem observes_get? (library : Library) (id : String) : (library.get? id).Observes :=
  library.asks_get? rfl

theorem observes_listFrom (library : Library) (filter : Option String) (fuel : Nat) (page : UInt32)
    (read : List Flow) : (library.listFrom filter fuel page read).Observes :=
  library.asks_listFrom filter (fun _ => rfl) fuel page read

theorem leads_get? {id : String} {got : Except StoreError (Option Flow)}
    (h : (library.get? id).Leads t got) :
    ∃ reply, t = [⟨.getOne library.collection id {}, reply⟩] ∧ got = library.gotten reply := by
  rw [get?_eq] at h
  obtain ⟨reply, rest, rfl, hrest⟩ := Program.leads_act.mp h
  obtain ⟨rfl, rfl⟩ := Program.leads_pure.mp hrest
  exact ⟨reply, rfl, rfl⟩

theorem Holds.got (h : library.Holds store flows) {id : String}
    {got : Except StoreError (Option Flow)} (hget : (library.get? id).Leads t got)
    (hbeside : t.Beside library.collection store store') :
    got = .ok (flows.find? fun x => x.id == id) := by
  obtain ⟨reply, rfl, rfl⟩ := leads_get? hget
  obtain ⟨met, hmet, hanswered, -⟩ := hbeside
  have hgot := (h.of_records hmet).get? id
  rw [get?_eq] at hgot
  obtain rfl : reply = met.getOne library.collection id {} := hanswered rfl
  exact (Prod.mk.inj hgot).1

def ForActive (filter : Option String) : Prop :=
  MemoryStore.condition filter = .ok (some (.compare .eq (.path ["status"]) (.text "active")))

/-- The flows on a page of active flows are flows that are held, and active. -/
theorem Holds.active_of_page (h : library.Holds store flows) {filter : Option String}
    (hfilter : ForActive filter) {page : UInt32} {found : RecordPage}
    (hlist : store.list library.collection (pageQuery filter page) = .ok found)
    {read : List Flow}
    (hread : Json.readRecords Flow.ofRecord? library.collection found.items = .ok read) :
    ∀ flow ∈ read, flow ∈ flows ∧ flow.isActive = true := by
  have hstatus : ∀ flow ∈ flows,
      (Flow.keeping.stored flow).get? "status" = some (.string flow.status.text) :=
    fun flow _ => flow.get?_stored "status"
  have hmatching := h.lists.filter_equals "active" hstatus
  simp only [FlowStatus.text_eq_active] at hmatching
  have hitem : ∀ item ∈ found.items, ∃ flow ∈ flows, flow.isActive = true ∧ flow.stored = item := by
    intro item hitem
    simp only [MemoryStore.list, pageQuery, show MemoryStore.condition filter = _ from hfilter]
      at hlist
    obtain rfl := Except.ok.inj hlist
    obtain ⟨record, hrecord, rfl⟩ := List.mem_map.mp hitem
    have hselected := List.mem_of_mem_drop (List.mem_of_mem_take hrecord)
    simp only [MemoryStore.select, Option.map_some, Option.getD_some, hmatching] at hselected
    obtain ⟨flow, hflow, rfl⟩ := List.mem_map.mp ((store.sorting.perm _ _).mem_iff.mp hselected)
    obtain ⟨hmem, hactive⟩ := List.mem_filter.mp hflow
    exact ⟨flow, hmem, hactive, rfl⟩
  intro flow hflow
  have hsome : some flow ∈ found.items.map Flow.ofRecord? := by
    rw [Json.map_of_readRecords hread]
    exact List.mem_map_of_mem hflow
  obtain ⟨item, hmem, hdecoded⟩ := List.mem_map.mp hsome
  obtain ⟨held, hheld, hactive, rfl⟩ := hitem item hmem
  rw [Flow.ofRecord?_stored (h.exact held hheld)] at hdecoded
  obtain rfl := Option.some.inj hdecoded
  exact ⟨hheld, hactive⟩

theorem Holds.active_of_listFrom (h : library.Holds store flows) {filter : Option String}
    (hfilter : ForActive filter) {fuel : Nat} {page : UInt32} {read listed : List Flow}
    (hread : ∀ flow ∈ read, flow ∈ flows ∧ flow.isActive = true)
    (hleads : (library.listFrom filter fuel page read).Leads t (.ok listed))
    (hbeside : t.Beside library.collection store store') :
    ∀ flow ∈ listed, flow ∈ flows ∧ flow.isActive = true := by
  induction fuel generalizing page read t store with
  | zero =>
      obtain ⟨-, hlisted⟩ := Program.leads_pure.mp hleads
      obtain rfl := Except.ok.inj hlisted
      exact hread
  | succ fuel ih =>
      obtain ⟨reply, rest, rfl, hrest⟩ := Program.leads_perform_bind.mp hleads
      obtain ⟨met, hmet, hanswered, hbeside'⟩ := hbeside
      have hmet' := h.of_records hmet
      have hlist : reply = met.list library.collection (pageQuery filter page) := hanswered rfl
      cases reply with
      | error e => cases (Program.leads_pure.mp hrest).2
      | ok found =>
          cases hvalues : Json.readRecords Flow.ofRecord? library.collection found.items with
          | error e =>
              simp only [hvalues] at hrest
              cases (Program.leads_pure.mp hrest).2
          | ok values =>
              simp only [hvalues] at hrest
              have hgrown : ∀ flow ∈ read ++ values, flow ∈ flows ∧ flow.isActive = true :=
                List.forall_mem_append.mpr
                  ⟨hread, hmet'.active_of_page hfilter hlist.symm hvalues⟩
              split at hrest
              · obtain ⟨-, hlisted⟩ := Program.leads_pure.mp hrest
                obtain rfl := Except.ok.inj hlisted
                exact hgrown
              · exact ih hmet' hgrown hrest hbeside'

/-! ## Writing -/

theorem observes_existing? (library : Library) (flow : Flow) :
    (library.existing? flow).Observes := by
  unfold existing?
  split
  · exact .pure _
  · exact observes_get? library _

/-- The flow that a save replaces is the one that is held under its identifier. -/
theorem Holds.existed (h : library.Holds store flows) {existing : Except StoreError (Option Flow)}
    (hleads : (library.existing? flow).Leads t existing)
    (hbeside : t.Beside library.collection store store') :
    existing = .ok (if flow.id.isEmpty then none else flows.find? fun x => x.id == flow.id) := by
  unfold Library.existing? at hleads
  split at hleads
  · next hempty => rw [(Program.leads_pure.mp hleads).2, if_pos hempty]
  · next hnamed => rw [h.got hleads hbeside, if_neg hnamed]

/-- The flow with the identifier that its new record has. -/
def identified (saved : Flow) (created : Json) : Flow :=
  { saved with id := ((created.get? "id").bind Json.text?).getD saved.id }

/-- A save reads, and then writes over the flow that it has found or creates a record. -/
theorem leads_save {result : Except StoreError Flow} (h : (library.save flow).Leads t result) :
    ∃ first existing, (library.existing? flow).Leads first existing ∧
      match existing with
      | .error e => t = first ∧ result = .error e
      | .ok (some old) => ∃ (saved : Flow) (reply : Except StoreError Json),
          saved = { flow with version := nextVersion (some old) } ∧
          t = first ++ [⟨.update library.collection saved.id saved.toRecord, reply⟩] ∧
          result = reply.map fun _ => saved
      | .ok none => ∃ (saved : Flow) (reply : Except StoreError Json),
          saved = { flow with version := nextVersion none } ∧
          t = first ++ [⟨.create library.collection saved.toRecord, reply⟩] ∧
          result = reply.map (identified saved) := by
  obtain ⟨first, rest, existing, rfl, hfirst, hrest⟩ := Program.leads_bind.mp h
  refine ⟨first, existing, hfirst, ?_⟩
  cases existing with
  | error e =>
      obtain ⟨rfl, rfl⟩ := Program.leads_pure.mp hrest
      exact ⟨List.append_nil _, rfl⟩
  | ok old =>
      cases old with
      | some old =>
          obtain ⟨reply, last, rfl, hlast⟩ := Program.leads_perform_bind.mp hrest
          refine ⟨_, reply, rfl, ?_⟩
          cases reply <;> obtain ⟨rfl, rfl⟩ := Program.leads_pure.mp hlast <;> exact ⟨rfl, rfl⟩
      | none =>
          obtain ⟨reply, last, rfl, hlast⟩ := Program.leads_perform_bind.mp hrest
          refine ⟨_, reply, rfl, ?_⟩
          cases reply <;> obtain ⟨rfl, rfl⟩ := Program.leads_pure.mp hlast <;> exact ⟨rfl, rfl⟩

/-- All that a save can do: it is refused, and what is held stays; or the flow is filed, over the
one that was there before. -/
theorem Holds.saved (h : library.Holds store flows) (hflow : flow.canvas.Tidy)
    {result : Except StoreError Flow} (hleads : (library.save flow).Leads t result)
    (hbeside : t.Beside library.collection store store') :
    (∃ e, result = .error e) ∧ library.Holds store' flows ∨
      ∃ old saved flows', result = .ok saved ∧
        saved = { flow with id := saved.id, version := nextVersion old } ∧
        (flow.id ≠ "" → saved.id = flow.id) ∧
        Filed saved old flows flows' ∧ library.Holds store' flows' := by
  obtain ⟨first, existing, hfirst, hwrite⟩ := leads_save hleads
  -- The library finds at the write what it has read: nobody has written in between.
  have hmet : ∀ {exchange : Exchange}, t = first ++ [exchange] →
      ∃ met, library.Holds met flows ∧ exchange.Answered met ∧
        store'.records library.collection = (met.after exchange).records library.collection ∧
        existing =
          .ok (if flow.id.isEmpty then none else flows.find? fun x => x.id == flow.id) := by
    rintro exchange rfl
    obtain ⟨between, hbefore, met, hmet, hanswered, hlast⟩ := Transcript.beside_append.mp hbeside
    have hread := hbefore.observed ((observes_existing? library flow).forall_mem hfirst)
    exact ⟨met, (h.of_records hread).of_records hmet, hanswered, hlast, h.existed hfirst hbefore⟩
  cases existing with
  | error e =>
      obtain ⟨rfl, rfl⟩ := hwrite
      cases h.existed hfirst hbeside
  | ok old =>
      cases old with
      | some old =>
          obtain ⟨saved, reply, hsaved, ht, rfl⟩ := hwrite
          obtain ⟨met, hheld, hanswered, hlast, hexisting⟩ := hmet ht
          have hfind : flows.find? (fun x => x.id == saved.id) = some old := by
            have hold := (Except.ok.inj hexisting).symm
            rw [hsaved]
            split at hold
            · cases hold
            · exact hold
          have htidy : saved.canvas.Tidy := by rwa [hsaved]
          obtain ⟨flows', _, hreply, hfiled, hholds⟩ := hheld.update saved htidy hfind
          obtain rfl : reply = (met.update library.collection saved.id saved.toRecord).1 :=
            hanswered rfl
          refine Or.inr ⟨some old, saved, flows', ?_, ?_, ?_, hfiled, hholds.of_records hlast⟩
          · rw [hreply]
            rfl
          · rw [hsaved]
          · intro _
            rw [hsaved]
      | none =>
          obtain ⟨saved, reply, hsaved, ht, rfl⟩ := hwrite
          obtain ⟨met, hheld, hanswered, hlast, -⟩ := hmet ht
          obtain rfl : reply = (met.create library.collection saved.toRecord).1 := hanswered rfl
          have htidy : saved.canvas.Tidy := by rwa [hsaved]
          rcases hheld.create saved htidy with
            ⟨⟨e, hrefused⟩, hholds⟩ | ⟨id, flows', hid, hcreated, hfiled, hholds⟩
          · refine Or.inl ⟨⟨e, ?_⟩, hholds.of_records hlast⟩
            rw [hrefused]
            rfl
          · refine Or.inr ⟨none, { saved with id }, flows', ?_, ?_, ?_, hfiled,
              hholds.of_records hlast⟩
            · rw [hcreated, Except.map, identified, Flow.get?_stored, if_pos rfl]
              rfl
            · rw [hsaved]
            · rwa [hsaved] at hid

def told : Except StoreError Json → Except StoreError Bool
  | .ok _ => .ok true
  | .error (.notFound _ _) => .ok false
  | .error e => .error e

theorem archive_eq (library : Library) (id : String) :
    library.archive id = .act (.update library.collection id
      (.object [("status", .string FlowStatus.archived.text)])) fun reply =>
        .done (told reply) := by
  refine congrArg (Program.act _) (funext fun reply => ?_)
  rcases reply with e | record
  · cases e <;> rfl
  · rfl

/-- Archiving changes the status of the flow of the identifier, and says whether there is one. -/
theorem Holds.archivedBeside (h : library.Holds store flows) {id : String}
    {result : Except StoreError Bool} (hleads : (library.archive id).Leads t result)
    (hbeside : t.Beside library.collection store store') :
    result = .ok (flows.any fun flow => flow.id == id) ∧
      library.Holds store' (archiving id flows) := by
  rw [archive_eq] at hleads
  obtain ⟨reply, rest, rfl, hrest⟩ := Program.leads_act.mp hleads
  obtain ⟨rfl, rfl⟩ := Program.leads_pure.mp hrest
  obtain ⟨met, hmet, hanswered, hlast⟩ := hbeside
  obtain ⟨after, harchived, hholds⟩ := (h.of_records hmet).archived id
  rw [archive_eq] at harchived
  obtain ⟨htold, hafter⟩ := Prod.mk.inj harchived
  rw [show reply = _ from hanswered rfl]
  refine ⟨htold, hholds.of_records ?_⟩
  rw [← hafter]
  exact hlast

end Library

end FlowEngine
