import FlowEngine.Proofs.Json.Reading
import FlowEngine.Proofs.Store.Served
/-!
# `FlowEngine.Proofs.Store.History` — a store holds what its history tells

Of the calls on a store in memory only those count that were answered without an error, and of these
only two kinds: a creation adds an object to a collection, and an update lays a patch over the
object of an identifier.  A transcript therefore tells what each collection holds (`Recounts`): the
objects that were created in it, in that order, each with the patches of its updates laid over it in
theirs.

The telling has no state.  Where the store keeps records that it changes, the transcript is searched
for creations and for updates, and `Json.patched` puts all that was written of an object in a row,
of which the last value of a name counts and the identifier comes last.

Nothing is assumed of the calls, except that data stand in the order of their names, as they do in
whatever has been read.  A supply that gives out the empty identifier is excluded; one that repeats
itself is not, since the store refuses what is in use.
-/

namespace FlowEngine

/-! ## Objects with patches -/

namespace Json

/-- An object under an identifier, with patches laid over it one after the other. -/
def patched (id : String) (created : Members) (patches : List Members) : Json :=
  .record (created ++ patches.flatten ++ [("id", .string id)])

variable {id : String} {created : Members} {patches : List Members}

theorem get?_patched (id : String) (created : Members) (patches : List Members) (key : String) :
    (patched id created patches).get? key =
      if key = "id" then some (.string id)
      else (lookup key patches.flatten.reverse).or (lookup key created.reverse) := by
  rw [patched, get?_record, List.reverse_append, List.reverse_append, List.reverse_singleton,
    lookup_append, lookup_append]
  by_cases h : key = "id"
  · rw [if_pos h, lookup, if_pos h.symm, Option.some_or]
  · rw [if_neg h, lookup, if_neg (Ne.symm h), lookup, Option.none_or]

theorem isRecord_patched (id : String) (created : Members) (patches : List Members) :
    (patched id created patches).IsRecord :=
  isRecord_record _

theorem hasId_patched (name : String) :
    MemoryStore.hasId name (patched id created patches) = (id == name) := by
  unfold MemoryStore.hasId
  rw [get?_patched, if_pos rfl]

theorem withId_eq_patched (h : Sorted created) (id : String) :
    (object created).withId id = patched id created [] := by
  have hrecord : (object created).IsRecord := ⟨created, rfl, h⟩
  refine (hrecord.withId id).ext (isRecord_patched id created []) ?_
  intro key
  rw [get?_withId hrecord, get?_patched, List.flatten_nil, List.reverse_nil, lookup,
    Option.none_or, lookup_reverse h.nodup]
  by_cases hkey : key = "id"
  · rw [if_pos hkey, if_pos hkey.symm]
  · rw [if_neg hkey, if_neg (Ne.symm hkey)]
    rfl

theorem overlay_patched (patch : Members) :
    MemoryStore.overlay patch (patched id created patches) =
      patched id created (patches ++ [patch]) := by
  have hrecord := isRecord_patched id created patches
  refine (MemoryStore.isRecord_overlay hrecord).ext (isRecord_patched id created _) ?_
  intro key
  obtain ⟨members, hmembers, -⟩ := hrecord
  have hlookup : lookup key members = (patched id created patches).get? key := by
    rw [hmembers]
    rfl
  rw [hmembers, MemoryStore.get?_overlay_last, hlookup, get?_patched, get?_patched]
  by_cases hkey : key = "id"
  · rw [if_pos hkey, if_pos hkey, if_pos hkey]
  · rw [if_neg hkey, if_neg hkey, if_neg hkey, List.flatten_append, List.reverse_append,
      lookup_append, List.flatten_singleton, Option.or_assoc]

end Json

/-! ## What a transcript tells -/

def Action.data? : Action → Option Json
  | create _ data => some data
  | update _ _ data => some data
  | _ => none

/-- An object was created in the collection: its identifier and its members. -/
def Exchange.created? (collection : String) : Exchange → Option (String × Json.Members)
  | ⟨.create name (.object members), .ok record⟩ =>
    if name = collection then ((record.get? "id").bind Json.text?).map fun id => (id, members)
    else none
  | _ => none

/-- An object of the collection was updated: its identifier and the patch. -/
def Exchange.patched? (collection : String) : Exchange → Option (String × Json.Members)
  | ⟨.update name id (.object patch), .ok _⟩ => if name = collection then some (id, patch) else none
  | _ => none

namespace Transcript

def created (t : Transcript) (collection : String) : List (String × Json.Members) :=
  t.filterMap (Exchange.created? collection)

def patched (t : Transcript) (collection : String) : List (String × Json.Members) :=
  t.filterMap (Exchange.patched? collection)

def patchesOf (t : Transcript) (collection id : String) : List Json.Members :=
  ((t.patched collection).filter fun update => update.1 == id).map Prod.snd

theorem created_concat (t : Transcript) (exchange : Exchange) (collection : String) :
    created (t ++ [exchange]) collection =
      t.created collection ++ (exchange.created? collection).toList := by
  rw [created, List.filterMap_append]
  unfold created
  cases h : exchange.created? collection <;> simp [h]

theorem patched_concat (t : Transcript) (exchange : Exchange) (collection : String) :
    patched (t ++ [exchange]) collection =
      t.patched collection ++ (exchange.patched? collection).toList := by
  rw [patched, List.filterMap_append]
  unfold patched
  cases h : exchange.patched? collection <;> simp [h]

theorem created_concat_of_none {exchange : Exchange} (h : ∀ c, exchange.created? c = none)
    (t : Transcript) (collection : String) :
    created (t ++ [exchange]) collection = t.created collection := by
  rw [created_concat, h, Option.toList_none, List.append_nil]

theorem patched_concat_of_none {exchange : Exchange} (h : ∀ c, exchange.patched? c = none)
    (t : Transcript) (collection : String) :
    patched (t ++ [exchange]) collection = t.patched collection := by
  rw [patched_concat, h, Option.toList_none, List.append_nil]

end Transcript

namespace MemoryStore

/-- The store holds what the transcript tells. -/
structure Recounts (store : MemoryStore) (t : Transcript) : Prop where
  /-- A collection holds the objects that were created in it, in order, each with its patches. -/
  records : ∀ collection, store.records collection =
    (t.created collection).map fun x => Json.patched x.1 x.2 (t.patchesOf collection x.1)
  /-- No two objects of a collection have one identifier. -/
  distinct : ∀ collection, ((t.created collection).map Prod.fst).Nodup
  /-- An object has the identifier that it asked for, or one of the supply. -/
  requested : ∀ collection, ∀ x ∈ t.created collection, requestedId? x.2 = some x.1 ∨
    requestedId? x.2 = none ∧ ∃ n, store.supply n = x.1
  /-- What is updated has been created. -/
  known : ∀ collection, ∀ x ∈ t.patched collection,
    x.1 ∈ (t.created collection).map Prod.fst
  updateCount : ∀ collection, store.updateCount collection = (t.patched collection).length

namespace Recounts

variable {store store' : MemoryStore} {t : Transcript} {exchange : Exchange}

/-- An exchange that neither creates nor updates, and leaves the store as it is. -/
theorem quiet (h : store.Recounts t) (hcreated : ∀ c, exchange.created? c = none)
    (hpatched : ∀ c, exchange.patched? c = none)
    (hrecords : ∀ c, store'.records c = store.records c)
    (hupdates : ∀ c, store'.updateCount c = store.updateCount c)
    (hsupply : store'.supply = store.supply) : store'.Recounts (t ++ [exchange]) := by
  have hc := Transcript.created_concat_of_none hcreated t
  have hp := Transcript.patched_concat_of_none hpatched t
  constructor
  case records =>
    intro c
    simp only [hrecords, h.records, hc, Transcript.patchesOf, hp]
  case distinct =>
    intro c
    rw [hc]
    exact h.distinct c
  case requested =>
    intro c
    rw [hc, hsupply]
    exact h.requested c
  case known =>
    intro c
    rw [hc, hp]
    exact h.known c
  case updateCount =>
    intro c
    rw [hupdates, h.updateCount, hp]

/-- What has not been created has no patches. -/
theorem patchesOf_eq_nil (h : store.Recounts t) {collection id : String}
    (hid : id ∉ (t.created collection).map Prod.fst) : t.patchesOf collection id = [] := by
  have hnone : (t.patched collection).filter (fun update => update.1 == id) = [] := by
    refine List.filter_eq_nil_iff.mpr ?_
    intro update hupdate heq
    exact hid (beq_iff_eq.mp heq ▸ h.known collection update hupdate)
  rw [Transcript.patchesOf, hnone, List.map_nil]

theorem not_mem_created (h : store.Recounts t) {collection id : String}
    (hfree : ∀ x ∈ store.records collection, hasId id x = false) :
    id ∉ (t.created collection).map Prod.fst := by
  intro hmem
  obtain ⟨x, hx, rfl⟩ := List.mem_map.mp hmem
  rw [h.records] at hfree
  have hother := hfree _ (List.mem_map_of_mem hx)
  rw [Json.hasId_patched, beq_self_eq_true] at hother
  cases hother

theorem create (h : store.Recounts t) {collection id : String} {members : Json.Members}
    (hcreated : ∀ c, exchange.created? c = if collection = c then some (id, members) else none)
    (hpatched : ∀ c, exchange.patched? c = none) (hmembers : Json.Sorted members)
    (hfree : ∀ x ∈ store.records collection, hasId id x = false)
    (hrequested : requestedId? members = some id ∨
      requestedId? members = none ∧ ∃ n, store.supply n = id)
    (hrecords : ∀ c, store'.records c =
      if collection = c then store.records collection ++ [(Json.object members).withId id]
      else store.records c)
    (hupdates : ∀ c, store'.updateCount c = store.updateCount c)
    (hsupply : store'.supply = store.supply) : store'.Recounts (t ++ [exchange]) := by
  have hnew := h.not_mem_created hfree
  have hc : ∀ c, Transcript.created (t ++ [exchange]) c =
      t.created c ++ if collection = c then [(id, members)] else [] := by
    intro c
    rw [Transcript.created_concat, hcreated]
    split <;> rfl
  have hp := Transcript.patched_concat_of_none hpatched t
  constructor
  case records =>
    intro c
    simp only [hrecords, hc, Transcript.patchesOf, hp, h.records]
    split
    · next hname =>
        subst hname
        rw [List.map_append, List.map_singleton, ← Transcript.patchesOf, h.patchesOf_eq_nil hnew,
          Json.withId_eq_patched hmembers]
    · rw [List.append_nil]
  case distinct =>
    intro c
    rw [hc]
    split
    · next hname =>
        subst hname
        rw [List.map_append, List.nodup_append]
        refine ⟨h.distinct collection, List.pairwise_singleton _ _, ?_⟩
        intro name hname other hother heq
        obtain rfl : other = id := List.mem_singleton.mp hother
        exact hnew (heq ▸ hname)
    · rw [List.append_nil]
      exact h.distinct c
  case requested =>
    intro c
    rw [hc, hsupply, List.forall_mem_append]
    refine ⟨h.requested c, ?_⟩
    intro x hx
    split at hx
    · obtain rfl := List.mem_singleton.mp hx
      exact hrequested
    · cases hx
  case known =>
    intro c update hupdate
    rw [hp] at hupdate
    rw [hc, List.map_append]
    exact List.mem_append_left _ (h.known c update hupdate)
  case updateCount =>
    intro c
    rw [hupdates, h.updateCount, hp]

/-- Where a patch is laid over the record of an identifier, it is one patch more of the object that
was created under it, and of no other. -/
theorem map_overlaid (h : store.Recounts t) {collection id : String} (patch : Json.Members)
    {before after : List Json} {record : Json}
    (hsplit : store.records collection = before ++ record :: after)
    (hrecord : hasId id record = true) :
    id ∈ (t.created collection).map Prod.fst ∧
      before ++ overlay patch record :: after = (t.created collection).map fun x =>
        Json.patched x.1 x.2
          (t.patchesOf collection x.1 ++ if id = x.1 then [patch] else []) := by
  obtain ⟨earlier, others, heq, rfl, hothers⟩ :=
    List.map_eq_append_iff.mp ((h.records collection).symm.trans hsplit)
  obtain ⟨x, later, rfl, rfl, rfl⟩ := List.map_eq_cons_iff.mp hothers
  rw [Json.hasId_patched, beq_iff_eq] at hrecord
  have hdistinct := h.distinct collection
  rw [heq, List.map_append, List.map_cons, hrecord, List.nodup_append, List.nodup_cons] at hdistinct
  obtain ⟨-, ⟨hlater, -⟩, hearlier⟩ := hdistinct
  have hother : ∀ y : String × Json.Members, id ≠ y.1 →
      Json.patched y.1 y.2 (t.patchesOf collection y.1) = Json.patched y.1 y.2
        (t.patchesOf collection y.1 ++ if id = y.1 then [patch] else []) := by
    intro y hy
    rw [if_neg hy, List.append_nil]
  constructor
  · rw [heq, List.map_append, List.map_cons, hrecord]
    exact List.mem_append_right _ List.mem_cons_self
  · rw [heq, List.map_append, List.map_cons, Json.overlay_patched, if_pos hrecord.symm]
    congr 1
    · refine List.map_congr_left fun y hy => hother y ?_
      rintro rfl
      exact hearlier y.1 (List.mem_map_of_mem hy) y.1 List.mem_cons_self rfl
    · refine congrArg _ (List.map_congr_left fun y hy => hother y ?_)
      rintro rfl
      exact hlater (List.mem_map_of_mem hy)

theorem update (h : store.Recounts t) {collection id : String} {patch : Json.Members}
    {before after : List Json} {record : Json} (hcreated : ∀ c, exchange.created? c = none)
    (hpatched : ∀ c, exchange.patched? c = if collection = c then some (id, patch) else none)
    (hsplit : store.records collection = before ++ record :: after)
    (hrecord : hasId id record = true)
    (hrecords : ∀ c, store'.records c =
      if collection = c then before ++ overlay patch record :: after else store.records c)
    (hupdates : ∀ c, store'.updateCount c =
      if collection = c then store.updateCount collection + 1 else store.updateCount c)
    (hsupply : store'.supply = store.supply) : store'.Recounts (t ++ [exchange]) := by
  have hc := Transcript.created_concat_of_none hcreated t
  have hp : ∀ c, Transcript.patched (t ++ [exchange]) c =
      t.patched c ++ if collection = c then [(id, patch)] else [] := by
    intro c
    rw [Transcript.patched_concat, hpatched]
    split <;> rfl
  have hpatches : ∀ name, Transcript.patchesOf (t ++ [exchange]) collection name =
      t.patchesOf collection name ++ if id = name then [patch] else [] := by
    intro name
    rw [Transcript.patchesOf, hp, if_pos rfl, List.filter_append, List.map_append]
    by_cases hname : id = name <;> simp [Transcript.patchesOf, hname]
  obtain ⟨hid, hoverlaid⟩ := h.map_overlaid patch hsplit hrecord
  constructor
  case records =>
    intro c
    rw [hrecords, hc]
    split
    · next hname =>
        subst hname
        simp only [hoverlaid, hpatches]
    · next hname =>
        simp only [h.records, Transcript.patchesOf, hp, if_neg hname, List.append_nil]
  case distinct =>
    intro c
    rw [hc]
    exact h.distinct c
  case requested =>
    intro c
    rw [hc, hsupply]
    exact h.requested c
  case known =>
    intro c
    rw [hc, hp, List.forall_mem_append]
    refine ⟨h.known c, ?_⟩
    intro update hupdate
    split at hupdate
    · next hname =>
        subst hname
        obtain rfl := List.mem_singleton.mp hupdate
        exact hid
    · cases hupdate
  case updateCount =>
    intro c
    rw [hupdates, hp, List.length_append, h.updateCount, h.updateCount]
    split
    · next hname => rw [hname, List.length_singleton]
    · rfl

/-- Whatever the store is asked, its answer tells what becomes of it. -/
theorem step (h : store.Recounts t) (hdata : ∀ data ∈ exchange.action.data?, data.Tidy)
    (hreply : exchange.action.isStoreCall = true →
      exchange.reply = (answer exchange.action store).1) :
    (answer exchange.action store).2.Recounts (t ++ [exchange]) := by
  obtain ⟨action, reply⟩ := exchange
  have hsupply : (answer action store).2.supply = store.supply := (answer_frame action store).1
  cases action with
  | create collection data =>
      obtain rfl : reply = (store.create collection data).1 := hreply rfl
      rcases store.create_cases collection data with
        ⟨⟨e, he⟩, hcollections, hupdates⟩ | ⟨members, rfl, hfree, hok, hrecords, hupdates⟩
      · refine h.quiet ?_ (fun c => rfl) ?_ ?_ hsupply
        · intro c
          rw [he]
          cases data <;> rfl
        · intro c
          exact congrArg (fun pairs => (valueOf c pairs).getD []) hcollections
        · intro c
          exact congrArg (fun pairs => (valueOf c pairs).getD 0) hupdates
      · have hmembers : Json.Sorted members := (hdata _ rfl).1
        refine h.create ?_ (fun c => rfl) hmembers hfree ?_ hrecords ?_ hsupply
        · intro c
          rw [hok, Exchange.created?, Json.get?_withId ⟨members, rfl, hmembers⟩, if_pos rfl]
          rfl
        · unfold idFor
          cases hid : requestedId? members with
          | some id => exact Or.inl rfl
          | none => exact Or.inr ⟨rfl, _, rfl⟩
        · intro c
          exact congrArg (fun pairs => (valueOf c pairs).getD 0) hupdates
  | update collection id data =>
      obtain rfl : reply = (store.update collection id data).1 := hreply rfl
      rcases store.update_cases collection id data with
        ⟨⟨e, he⟩, hstore⟩ |
          ⟨patch, before, record, after, rfl, hsplit, -, hrecord, hok, hrecords, hupdates⟩
      · have hsame : (answer (.update collection id data) store).2 = store := hstore
        rw [hsame]
        refine h.quiet (fun c => rfl) ?_ (fun c => rfl) (fun c => rfl) rfl
        intro c
        rw [he]
        cases data <;> rfl
      · refine h.update (fun c => rfl) ?_ hsplit hrecord hrecords hupdates hsupply
        intro c
        rw [hok]
        rfl
  | _ => exact h.quiet (fun c => rfl) (fun c => rfl) (fun c => rfl) (fun c => rfl) rfl

/-- What a store holds is told on by what it is asked later. -/
theorem run (h : store.Recounts t) {later : Transcript} (hkeeps : later.Keeps store store')
    (hdata : ∀ x ∈ later, ∀ data ∈ x.action.data?, data.Tidy) : store'.Recounts (t ++ later) := by
  induction later generalizing t store with
  | nil =>
      obtain rfl : store' = store := hkeeps
      rw [List.append_nil]
      exact h
  | cons exchange rest ih =>
      obtain ⟨hreply, hrest⟩ := hkeeps
      obtain ⟨hfirst, hothers⟩ := List.forall_mem_cons.mp hdata
      have hwhole := ih (h.step hfirst hreply) hrest hothers
      rwa [List.append_assoc] at hwhole

theorem of_empty (hcollections : store.collections = []) (hupdates : store.updates = []) :
    store.Recounts [] where
  records := by
    intro c
    rw [MemoryStore.records, hcollections]
    rfl
  distinct := fun c => List.Pairwise.nil
  requested := fun c => List.forall_mem_nil _
  known := fun c => List.forall_mem_nil _
  updateCount := by
    intro c
    rw [MemoryStore.updateCount, hupdates]
    rfl

theorem isRecord (h : store.Recounts t) (hsupply : ∀ n, store.supply n ≠ "") {collection : String}
    {record : Json} (hrecord : record ∈ store.records collection) :
    record.IsRecord ∧ ∃ id, id ≠ "" ∧ record.get? "id" = some (.string id) := by
  rw [h.records] at hrecord
  obtain ⟨x, hx, rfl⟩ := List.mem_map.mp hrecord
  refine ⟨Json.isRecord_patched _ _ _, x.1, ?_, by rw [Json.get?_patched, if_pos rfl]⟩
  rcases h.requested collection x hx with hasked | ⟨-, n, hn⟩
  · intro hempty
    unfold requestedId? at hasked
    split at hasked
    · split at hasked
      · cases hasked
      · next hne =>
          obtain rfl := Option.some.inj hasked
          exact hne (by rw [hempty]; rfl)
    · cases hasked
  · exact hn ▸ hsupply n

theorem nodup_ids (h : store.Recounts t) (collection : String) :
    ((store.records collection).map fun x => x.get? "id").Nodup := by
  have hids : (store.records collection).map (fun x => x.get? "id") =
      ((t.created collection).map Prod.fst).map fun id => some (Json.string id) := by
    rw [h.records, List.map_map, List.map_map]
    refine List.map_congr_left ?_
    intro x _
    exact (Json.get?_patched _ _ _ _).trans (if_pos rfl)
  rw [hids]
  refine List.Pairwise.map _ ?_ (h.distinct collection)
  intro id name hne heq
  exact hne (Json.string.inj (Option.some.inj heq))

theorem getOne_of_mem (h : store.Recounts t) {collection id : String} {members : Json.Members}
    (hmem : (id, members) ∈ t.created collection) :
    store.getOne collection id {} =
      .ok (Json.patched id members (t.patchesOf collection id)) := by
  obtain ⟨before, after, heq⟩ := List.append_of_mem hmem
  have hdistinct := h.distinct collection
  rw [heq, List.map_append, List.map_cons, List.nodup_append] at hdistinct
  have hbefore : ∀ record ∈ before.map (fun x : String × Json.Members =>
      Json.patched x.1 x.2 (t.patchesOf collection x.1)), hasId id record = false := by
    intro record hrecord
    obtain ⟨x, hx, rfl⟩ := List.mem_map.mp hrecord
    rw [Json.hasId_patched, beq_eq_false_iff_ne]
    exact hdistinct.2.2 _ (List.mem_map_of_mem hx) id List.mem_cons_self
  rw [getOne, h.records, heq, List.map_append, List.map_cons,
    find?_append hbefore (by rw [Json.hasId_patched, beq_self_eq_true])]
  rfl

theorem getOne_of_not_mem (h : store.Recounts t) {collection id : String}
    (hid : id ∉ (t.created collection).map Prod.fst) :
    store.getOne collection id {} = .error (.notFound collection id) := by
  have hnone : (store.records collection).find? (hasId id) = none := by
    refine List.find?_eq_none.mpr ?_
    intro record hrecord
    rw [h.records] at hrecord
    obtain ⟨x, hx, rfl⟩ := List.mem_map.mp hrecord
    rw [Json.hasId_patched, beq_iff_eq]
    rintro rfl
    exact hid (List.mem_map_of_mem hx)
  rw [getOne, hnone]

end Recounts

theorem unchanged_of_create_error {store : MemoryStore} {collection : String} {data : Json}
    {e : StoreError} (he : (store.create collection data).1 = .error e) :
    (store.create collection data).2.collections = store.collections ∧
      (store.create collection data).2.updates = store.updates := by
  rcases store.create_cases collection data with ⟨-, hsame⟩ | ⟨_, -, -, hok, -⟩
  · exact hsame
  · rw [he] at hok
    cases hok

theorem unchanged_of_update_error {store : MemoryStore} {collection id : String} {data : Json}
    {e : StoreError} (he : (store.update collection id data).1 = .error e) :
    (store.update collection id data).2 = store := by
  rcases store.update_cases collection id data with ⟨-, hsame⟩ | ⟨_, _, _, _, -, -, -, -, hok, -⟩
  · exact hsame
  · rw [he] at hok
    cases hok

/-- A store that was empty holds what its transcript tells, however the calls came and whichever of
them were refused.  Each record is an object under an identifier of its own, and that of an
identifier is got by it; what has not been created is not found.  A call that is refused leaves
every collection and every count as it was. -/
theorem refines_history {t : Transcript} {store store' : MemoryStore}
    (hcollections : store.collections = []) (hupdates : store.updates = [])
    (hsupply : ∀ n, store.supply n ≠ "") (hkeeps : t.Keeps store store')
    (hdata : ∀ x ∈ t, ∀ data ∈ x.action.data?, data.Tidy) :
    store'.Recounts t ∧
      (∀ collection, ∀ record ∈ store'.records collection,
        record.IsRecord ∧ ∃ id, id ≠ "" ∧ record.get? "id" = some (.string id)) ∧
      (∀ collection, ((store'.records collection).map fun x => x.get? "id").Nodup) ∧
      (∀ collection id members, (id, members) ∈ t.created collection →
        store'.getOne collection id {} =
          .ok (Json.patched id members (t.patchesOf collection id))) ∧
      (∀ collection id, id ∉ (t.created collection).map Prod.fst →
        store'.getOne collection id {} = .error (.notFound collection id)) ∧
      (∀ collection data e, (store'.create collection data).1 = .error e →
        (store'.create collection data).2.collections = store'.collections ∧
          (store'.create collection data).2.updates = store'.updates) ∧
      ∀ collection id data e, (store'.update collection id data).1 = .error e →
        (store'.update collection id data).2 = store' := by
  have h : store'.Recounts t := (Recounts.of_empty hcollections hupdates).run hkeeps hdata
  have hsupply' : ∀ n, store'.supply n ≠ "" := by
    rw [hkeeps.frame.1]
    exact hsupply
  refine ⟨h, ?_, h.nodup_ids, ?_, ?_, ?_, ?_⟩
  · intro collection record hrecord
    exact h.isRecord hsupply' hrecord
  · intro collection id members hmem
    exact h.getOne_of_mem hmem
  · intro collection id hid
    exact h.getOne_of_not_mem hid
  · intro collection data e he
    exact unchanged_of_create_error he
  · intro collection id data e he
    exact unchanged_of_update_error he

/-- Two notes are created, of which one asks for an identifier and the other for a number; a third
asks for what is taken.  The first is patched, and keeps its identifier; nothing goes by the new
one. -/
def noted : Transcript :=
  [⟨.create "notes" (.object [("id", .string "a"), ("text", .string "x")]),
      .ok (.object [("id", .string "a"), ("text", .string "x")])⟩,
    ⟨.create "notes" (.object [("id", .number (.integer 7))]),
      .ok (.object [("id", .string "<id:1>")])⟩,
    ⟨.create "notes" (.object [("id", .string "a")]),
      .error (.malformed "notes" "id a is already taken")⟩,
    ⟨.update "notes" "a" (.object [("id", .string "b"), ("text", .null)]),
      .ok (.object [("id", .string "a"), ("text", .null)])⟩,
    ⟨.update "notes" "b" (.object []), .error (.notFound "notes" "b")⟩]

theorem tidy_noted : ∀ x ∈ noted, ∀ data ∈ x.action.data?, data.Tidy := by
  have hall : (noted.map fun x => x.action.data?) =
      [some (.object [("id", .string "a"), ("text", .string "x")]),
        some (.object [("id", .number (.integer 7))]), some (.object [("id", .string "a")]),
        some (.object [("id", .string "b"), ("text", .null)]), some (.object [])] := rfl
  intro x hx data hdata
  have hmem := List.mem_map_of_mem (f := fun x : Exchange => x.action.data?) hx
  rw [hall, hdata] at hmem
  simp only [List.mem_cons, List.not_mem_nil, or_false, Option.some.injEq] at hmem
  rcases hmem with rfl | rfl | rfl | rfl | rfl
  · exact ⟨by decide, trivial, trivial, trivial⟩
  · exact ⟨by decide, trivial, trivial⟩
  · exact ⟨by decide, trivial, trivial⟩
  · exact ⟨by decide, trivial, trivial, trivial⟩
  · exact ⟨by decide, trivial⟩

theorem refines_noted : ∃ store' : MemoryStore, ({} : MemoryStore).collections = [] ∧
    ({} : MemoryStore).updates = [] ∧ (∀ n, ({} : MemoryStore).supply n ≠ "") ∧
    noted.Keeps {} store' ∧ (∀ x ∈ noted, ∀ data ∈ x.action.data?, data.Tidy) ∧
    store'.Recounts noted ∧ (noted.created "notes").map Prod.fst = ["a", "<id:1>"] ∧
    store'.getOne "notes" "a" {} = .ok (.object [("id", .string "a"), ("text", .null)]) ∧
    store'.getOne "notes" "b" {} = .error (.notFound "notes" "b") := by
  have hsupply : ∀ n, ({} : MemoryStore).supply n ≠ "" := by
    intro n h
    have hlength := congrArg String.length h
    simp at hlength
  have hkeeps : noted.Keeps {} _ := ⟨fun _ => rfl, fun _ => rfl, fun _ => rfl, fun _ => rfl,
    fun _ => rfl, rfl⟩
  obtain ⟨h, -, -, hget, hnone, -, -⟩ := refines_history rfl rfl hsupply hkeeps tidy_noted
  refine ⟨_, rfl, rfl, hsupply, hkeeps, tidy_noted, h, rfl, ?_, ?_⟩
  · exact hget "notes" "a" [("id", .string "a"), ("text", .string "x")] List.mem_cons_self
  · exact hnone "notes" "b" (by decide)

end MemoryStore

end FlowEngine
