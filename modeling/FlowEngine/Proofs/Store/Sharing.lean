import FlowEngine.Proofs.Ledger.Growth
import FlowEngine.Proofs.Store.Replay
import Mathlib.Data.List.Nodup
/-!
# `FlowEngine.Proofs.Store.Sharing` — a collection that many write to

Programs that share a collection do not get in each other's way if each of them minds it: it leaves
the identifiers of its records to the store, and patches none but those that it has created itself
(`Transcript.Minds`).  A store gives no two programs the same identifier.

So the records of a program can be had from the collection by their identifiers, and they are what
the share of the program makes of an empty collection (`Shared.filter_records`).  What was in the
collection before stays in front as it was, and behind it there is nothing that is not of one of
the programs (`Shared.records_eq`, `Shared.exists_owner`).  And if the store gives out what is not
in use, it turns no call away (`Sharing.taken`).
-/

namespace FlowEngine

open MemoryStore (hasId)

/-! ## Minding a collection -/

/-- The action minds a collection: it creates a record there without choosing the identifier, or
patches one of its own, or does not write there. -/
def Action.Minds (collection : String) (own : List String) : Action → Prop
  | create name data => name = collection → data.IsRecord ∧ data.get? "id" = none
  | update name id data => name = collection → data.IsRecord ∧ id ∈ own
  | _ => True

theorem Action.minds_of_ne {action : Action} {collection : String} {own : List String}
    (h : action.written? ≠ some collection) : action.Minds collection own := by
  cases action with
  | create name data => exact fun hname => absurd (congrArg some hname) h
  | update name id data => exact fun hname => absurd (congrArg some hname) h
  | _ => trivial

namespace Transcript

variable {t t' : Transcript} {collection id : String} {own : List String}

def writes (collection : String) (t : Transcript) : Transcript :=
  t.filter fun exchange => exchange.action.written? = some collection

theorem writes_append (collection : String) (t t' : Transcript) :
    writes collection (t ++ t') = writes collection t ++ writes collection t' :=
  List.filter_append _ _

theorem writes_cons_of_ne {exchange : Exchange}
    (h : exchange.action.written? ≠ some collection) (t : Transcript) :
    writes collection (exchange :: t) = writes collection t :=
  List.filter_cons_of_neg fun heq => h (of_decide_eq_true heq)

theorem writes_cons_of_eq {exchange : Exchange}
    (h : exchange.action.written? = some collection) (t : Transcript) :
    writes collection (exchange :: t) = exchange :: writes collection t :=
  List.filter_cons_of_pos (decide_eq_true h)

theorem writes_now_cons (collection : String) (moment : Timestamp) (t : Transcript) :
    writes collection (⟨.now, moment⟩ :: t) = writes collection t := rfl

theorem writes_create_cons_of_ne {name : String} (h : name ≠ collection) (data : Json)
    (reply : Except StoreError Json) (t : Transcript) :
    writes collection (⟨.create name data, reply⟩ :: t) = writes collection t := by
  have hne : (Action.create name data).written? ≠ some collection :=
    fun heq => h (Option.some.inj heq)
  exact writes_cons_of_ne hne t

theorem writes_eq_nil (h : ∀ exchange ∈ t, exchange.action.written? ≠ some collection) :
    writes collection t = [] :=
  List.filter_eq_nil_iff.mpr fun exchange hmem heq => h exchange hmem (of_decide_eq_true heq)

/-- What a collection comes to is told by what is written to it. -/
theorem replay_writes (collection : String) (t : Transcript) (records : List Json) :
    replay collection (writes collection t) records = replay collection t records := by
  induction t generalizing records with
  | nil => rfl
  | cons exchange rest ih =>
      by_cases h : exchange.action.written? = some collection
      · rw [writes_cons_of_eq h]
        exact ih _
      · have hsame : exchange.amend collection records = records :=
          Exchange.amend_of_untouched (Exchange.touched?_of_not_written h)
        rw [writes_cons_of_ne h, ih, replay, replay, List.foldl_cons, hsame]

/-- The identifiers that were given out in a collection, in order. -/
def given (collection : String) (t : Transcript) : List String :=
  (t.created collection).map Prod.fst

theorem given_append (collection : String) (t t' : Transcript) :
    given collection (t ++ t') = given collection t ++ given collection t' := by
  rw [given, created, List.filterMap_append, List.map_append]
  rfl

theorem mem_given {exchange : Exchange} {created : String × Json.Members} (h : exchange ∈ t)
    (hcreated : exchange.created? collection = some created) :
    created.1 ∈ given collection t :=
  List.mem_map_of_mem (List.mem_filterMap.mpr ⟨exchange, h, hcreated⟩)

/-- The actions mind a collection, in which these are their own from the beginning, and whatever
they are given on the way. -/
def Minds (collection : String) : List String → Transcript → Prop
  | _, [] => True
  | own, exchange :: rest =>
    exchange.action.Minds collection own ∧ Minds collection (own ++ given collection [exchange]) rest

theorem minds_append : Minds collection own (t ++ t') ↔
    Minds collection own t ∧ Minds collection (own ++ given collection t) t' := by
  induction t generalizing own with
  | nil =>
      rw [List.nil_append, given, created, List.filterMap_nil, List.map_nil, List.append_nil]
      exact (and_iff_right trivial).symm
  | cons exchange rest ih =>
      have hgiven : given collection (exchange :: rest) =
          given collection [exchange] ++ given collection rest :=
        given_append collection [exchange] rest
      rw [List.cons_append, Minds, ih, Minds, hgiven, and_assoc, List.append_assoc]

theorem given_cons_of_ne {exchange : Exchange}
    (h : exchange.action.written? ≠ some collection) (t : Transcript) :
    given collection (exchange :: t) = given collection t := by
  have hnone := (Option.or_eq_none_iff.mp (Exchange.touched?_of_not_written h)).1
  rw [given, created, List.filterMap_cons_none (Option.map_eq_none_iff.mp hnone)]
  rfl

theorem minds_writes : Minds collection own (writes collection t) ↔ Minds collection own t := by
  induction t generalizing own with
  | nil => rfl
  | cons exchange rest ih =>
      by_cases h : exchange.action.written? = some collection
      · rw [writes_cons_of_eq h, Minds, Minds, ih]
      · have hnone : given collection [exchange] = [] := given_cons_of_ne h []
        rw [writes_cons_of_ne h, ih, Minds, hnone, List.append_nil]
        exact (and_iff_right (Action.minds_of_ne h)).symm

theorem created_writes (collection : String) (t : Transcript) :
    created (writes collection t) collection = created t collection := by
  rw [created, writes, List.filterMap_filter, created]
  refine List.filterMap_congr fun exchange _ => ?_
  by_cases h : exchange.action.written? = some collection
  · rw [if_pos (decide_eq_true h)]
  · have hnone := (Option.or_eq_none_iff.mp (Exchange.touched?_of_not_written h)).1
    rw [if_neg fun heq => h (of_decide_eq_true heq), Option.map_eq_none_iff.mp hnone]

theorem given_writes (collection : String) (t : Transcript) :
    given collection (writes collection t) = given collection t :=
  congrArg (List.map Prod.fst) (created_writes collection t)

theorem mem_patchesOf {patch : Json.Members} : patch ∈ patchesOf t collection id ↔
    ∃ exchange ∈ t, exchange.patched? collection = some (id, patch) := by
  constructor
  · intro h
    obtain ⟨⟨name, patch⟩, hupdate, rfl⟩ := List.mem_map.mp h
    obtain ⟨hpatched, hname⟩ := List.mem_filter.mp hupdate
    obtain rfl : name = id := beq_iff_eq.mp hname
    exact List.mem_filterMap.mp hpatched
  · intro h
    exact List.mem_map.mpr ⟨(id, patch),
      List.mem_filter.mpr ⟨List.mem_filterMap.mpr h, beq_self_eq_true id⟩, rfl⟩

theorem patchesOf_cons (exchange : Exchange) (t : Transcript) (collection id : String) :
    patchesOf (exchange :: t) collection id =
      patchesOf [exchange] collection id ++ patchesOf t collection id :=
  patchesOf_append [exchange] t collection id

theorem patchesOf_singleton_of_untouched {exchange : Exchange}
    (h : exchange.touched? collection ≠ some id) : patchesOf [exchange] collection id = [] := by
  refine List.eq_nil_iff_forall_not_mem.mpr fun patch hmem => h ?_
  obtain ⟨_, hself, hpatched⟩ := mem_patchesOf.mp hmem
  obtain rfl := List.mem_singleton.mp hself
  exact Exchange.touched?_of_patched hpatched

/-- The patches of a record are told by what is written to its collection. -/
theorem patchesOf_writes (collection id : String) (t : Transcript) :
    patchesOf (writes collection t) collection id = patchesOf t collection id := by
  induction t with
  | nil => rfl
  | cons exchange rest ih =>
      by_cases h : exchange.action.written? = some collection
      · rw [writes_cons_of_eq h, patchesOf_cons, ih, ← patchesOf_cons]
      · have huntouched := Exchange.touched?_of_not_written h
        rw [writes_cons_of_ne h, ih, patchesOf_cons exchange rest,
          patchesOf_singleton_of_untouched (by rw [huntouched]; exact nofun)]
        rfl

/-- The patches of a record that one of several has patched and no other. -/
theorem patchesOf_share {ι : Type} [DecidableEq ι] {history : List (Option ι × Exchange)} {i : ι}
    (h : ∀ asked ∈ history, asked.1 ≠ some i → patchesOf [asked.2] collection id = []) :
    patchesOf (history.map Prod.snd) collection id =
      patchesOf (share history i) collection id := by
  induction history with
  | nil => rfl
  | cons asked rest ih =>
      obtain ⟨hfirst, hrest⟩ := List.forall_mem_cons.mp h
      have hsplit : share (asked :: rest) i = share [asked] i ++ share rest i :=
        share_append [asked] rest i
      rw [List.map_cons, patchesOf_cons, ih hrest, hsplit, patchesOf_append]
      refine congrArg (· ++ _) ?_
      by_cases howner : asked.1 = some i
      · simp [share, howner]
      · rw [hfirst howner]
        simp [share, howner, patchesOf, Transcript.patched]

/-- Whoever minds a collection touches there what is its own, and what it is given. -/
theorem Minds.touched (h : Minds collection own t) :
    ∀ exchange ∈ t, ∀ id ∈ exchange.touched? collection, id ∈ own ++ given collection t := by
  intro exchange hmem id hid
  obtain ⟨earlier, later, rfl⟩ := List.append_of_mem hmem
  rcases Exchange.touched?_cases hid with ⟨members, hcreated⟩ | ⟨patch, hpatched⟩
  · exact List.mem_append_right _ (mem_given hmem hcreated)
  · rw [minds_append] at h
    obtain ⟨-, hminds, -⟩ := h
    rw [Exchange.action_of_patched hpatched] at hminds
    rw [given_append, ← List.append_assoc]
    exact List.mem_append_left _ (hminds rfl).2

end Transcript

/-- The identifiers that the store has yet to give out are all different and not in use in the
collection. -/
structure MemoryStore.Fresh (store : MemoryStore) (collection : String) : Prop where
  distinct : ∀ m n, store.issued < m → store.issued < n → store.supply m = store.supply n → m = n
  free : ∀ id, store.WillIssue id → (store.records collection).any (hasId id) = false

section Call

variable {store : MemoryStore} {exchange : Exchange} {collection : String} {own : List String}

/-- An identifier from a fresh supply is taken for a record that asks for none. -/
theorem MemoryStore.Fresh.created?_eq (h : store.Fresh collection)
    (hanswered : exchange.Answered store) {data : Json}
    (haction : exchange.action = .create collection data) (hrecord : data.IsRecord)
    (hid : data.get? "id" = none) :
    ∃ members, exchange.created? collection = some (store.issue.1, members) := by
  obtain ⟨action, reply⟩ := exchange
  obtain rfl : action = .create collection data := haction
  obtain rfl : reply = (store.create collection data).1 := hanswered rfl
  obtain ⟨members, rfl, hsorted⟩ := hrecord
  have hfree := h.free _ store.willIssue_issue
  rw [MemoryStore.create_anonymous ⟨members, rfl, hsorted⟩ hid, hfree]
  refine ⟨members, ?_⟩
  have hget : ((Json.object members).withId store.issue.1).get? "id" =
      some (.string store.issue.1) := (Json.lookup_insert _ _ _ _).trans (if_pos rfl)
  rw [if_neg Bool.false_ne_true, Exchange.created?, if_pos rfl, hget]
  rfl

theorem Exchange.Answered.patched?_eq (hanswered : exchange.Answered store) {id : String}
    {data : Json} (haction : exchange.action = .update collection id data)
    (hrecord : data.IsRecord) (hused : (store.records collection).any (hasId id) = true) :
    ∃ patch, exchange.patched? collection = some (id, patch) := by
  obtain ⟨action, reply⟩ := exchange
  obtain rfl : action = .update collection id data := haction
  obtain rfl : reply = (store.update collection id data).1 := hanswered rfl
  obtain ⟨patch, rfl, -⟩ := hrecord
  refine ⟨patch, ?_⟩
  obtain ⟨record, hfound⟩ :=
    Option.isSome_iff_exists.mp (List.find?_isSome.mpr (List.any_eq_true.mp hused))
  have hreply : (store.update collection id (.object patch)).1 =
      .ok (MemoryStore.overlay patch record) := by
    rw [MemoryStore.update, hfound]
  rw [hreply]
  exact if_pos rfl

/-- Whatever minds a collection is not turned away there, and what it is given is not given
again. -/
theorem MemoryStore.Fresh.taken (h : store.Fresh collection) (hanswered : exchange.Answered store)
    (hminds : exchange.action.Minds collection own)
    (hown : ∀ id ∈ own, (store.records collection).any (hasId id) = true) :
    (exchange.action.written? = some collection → (exchange.touched? collection).isSome) ∧
      ∀ created ∈ exchange.created? collection,
        store.WillIssue created.1 ∧ ¬ (store.after exchange).WillIssue created.1 := by
  by_cases hwritten : exchange.action.written? = some collection
  · cases haction : exchange.action with
    | create name data =>
        rw [haction] at hminds hwritten
        obtain rfl : name = collection := Option.some.inj hwritten
        obtain ⟨hrecord, hid⟩ := hminds rfl
        obtain ⟨members, hcreated⟩ := h.created?_eq hanswered haction hrecord hid
        refine ⟨fun _ => ?_, ?_⟩
        · rw [Exchange.touched?_of_created hcreated]
          rfl
        · intro created hmem
          obtain rfl := Option.some.inj (hcreated.symm.trans hmem)
          refine ⟨store.willIssue_issue, ?_⟩
          have hissued : (store.after exchange).issued = store.issued + 1 := by
            rw [MemoryStore.after, haction]
            exact MemoryStore.issued_create_anonymous hrecord hid
          rintro ⟨n, hn, heq⟩
          rw [show (store.after exchange).supply = store.supply from
            (MemoryStore.answer_frame exchange.action store).1] at heq
          rw [hissued] at hn
          have hsame : n = store.issued + 1 :=
            h.distinct n _ (by omega) (Nat.lt_succ_self _) heq
          omega
    | update name id data =>
        rw [haction] at hminds hwritten
        obtain rfl : name = collection := Option.some.inj hwritten
        obtain ⟨hrecord, hid⟩ := hminds rfl
        obtain ⟨patch, hpatched⟩ := hanswered.patched?_eq haction hrecord (hown id hid)
        refine ⟨fun _ => ?_, ?_⟩
        · rw [Exchange.touched?_of_patched hpatched]
          rfl
        · intro created hmem
          rw [Exchange.created?_of_patched hpatched] at hmem
          cases hmem
    | _ =>
        rw [haction] at hwritten
        cases hwritten
  · refine ⟨fun h => absurd h hwritten, ?_⟩
    intro created hmem
    have huntouched := Exchange.touched?_of_not_written hwritten
    rw [Exchange.touched?_of_created hmem] at huntouched
    cases huntouched

/-- A supply stays fresh if nothing is created under an identifier that is still to come. -/
theorem MemoryStore.Fresh.after (h : store.Fresh collection) (hanswered : exchange.Answered store)
    (hcreated : ∀ created ∈ exchange.created? collection,
      ¬ (store.after exchange).WillIssue created.1) :
    (store.after exchange).Fresh collection := by
  obtain ⟨hsupply, hissued, -⟩ := MemoryStore.answer_frame exchange.action store
  constructor
  · intro m n hm hn heq
    rw [show (store.after exchange).supply = store.supply from hsupply] at heq
    exact h.distinct m n (Nat.lt_of_le_of_lt hissued hm) (Nat.lt_of_le_of_lt hissued hn) heq
  · intro id hid
    rw [hanswered.records_after, Exchange.any_amend, h.free id (hid.earlier hsupply hissued),
      Bool.false_or, beq_eq_false_iff_ne]
    intro heq
    obtain ⟨created, hmem, rfl⟩ := Option.map_eq_some_iff.mp heq
    exact hcreated created hmem hid

end Call

/-! ## A shared collection -/

/-- Programs that mind a collection have shared it, and nothing else has written to it. -/
structure Transcript.Shared {ι : Type} [DecidableEq ι] (collection : String)
    (history : List (Option ι × Exchange)) (store current : MemoryStore) : Prop where
  keeps : Transcript.Keeps (history.map Prod.snd) store current
  minds : ∀ i, Transcript.Minds collection [] (Transcript.share history i)
  asides : ∀ asked ∈ history, asked.1 = none → asked.2.action.written? ≠ some collection

/-- Programs have shared a collection of a store with a fresh supply of identifiers. -/
structure Transcript.Sharing {ι : Type} [DecidableEq ι] (collection : String)
    (history : List (Option ι × Exchange)) (store current : MemoryStore) : Prop
    extends Transcript.Shared collection history store current where
  fresh : store.Fresh collection

namespace Transcript.Sharing

variable {ι : Type} [DecidableEq ι] {collection : String} {history : List (Option ι × Exchange)}

theorem mem_given_of_share {i : ι} {id : String}
    (h : id ∈ given collection (share history i)) :
    id ∈ given collection (history.map Prod.snd) := by
  obtain ⟨created, hcreated, rfl⟩ := List.mem_map.mp h
  obtain ⟨exchange, hmem, hexchange⟩ := List.mem_filterMap.mp hcreated
  obtain ⟨asked, hasked, rfl⟩ := List.mem_map.mp hmem
  exact mem_given (List.mem_map_of_mem (List.mem_filter.mp hasked).1) hexchange

/-- The records that a share makes of an empty collection have identifiers that were given to it. -/
theorem exists_given_of_mem {t : Transcript} {record : Json} (h : record ∈ replay collection t []) :
    ∃ id ∈ given collection t, record.get? "id" = some (.string id) := by
  have hget := List.mem_map_of_mem (f := Json.get? "id") h
  rw [ids_replay] at hget
  obtain ⟨created, hcreated, hid⟩ := List.mem_map.mp hget
  exact ⟨created.1, List.mem_map_of_mem hcreated, hid.symm⟩

end Transcript.Sharing

namespace Transcript.Shared

variable {ι : Type} [DecidableEq ι] {collection : String} {history : List (Option ι × Exchange)}
  {store current : MemoryStore}

/-- Where a list without repetitions is picked out of another, no two places give the same. -/
theorem eq_of_nodup_filterMap {α β : Type} {f : α → Option β} {l : List α}
    (h : (l.filterMap f).Nodup) {x y : α} (hx : x ∈ l) (hy : y ∈ l) {b : β} (hfx : f x = some b)
    (hfy : f y = some b) : x = y := by
  induction l with
  | nil => cases hx
  | cons a rest ih =>
      have hrest : (rest.filterMap f).Nodup := h.sublist ((List.sublist_cons_self a rest).filterMap f)
      rcases List.mem_cons.mp hx with rfl | hx'
      · rcases List.mem_cons.mp hy with rfl | hy'
        · rfl
        · rw [List.filterMap_cons_some hfx, List.nodup_cons] at h
          exact absurd (List.mem_filterMap.mpr ⟨y, hy', hfy⟩) h.1
      · rcases List.mem_cons.mp hy with rfl | hy'
        · rw [List.filterMap_cons_some hfy, List.nodup_cons] at h
          exact absurd (List.mem_filterMap.mpr ⟨x, hx', hfx⟩) h.1
        · exact ih hrest hx' hy'

/-- What is touched in a shared collection is touched by the program that it was given to. -/
theorem exists_owner (h : Shared collection history store current) :
    ∀ asked ∈ history, ∀ id ∈ asked.2.touched? collection,
      ∃ i, asked.1 = some i ∧ id ∈ given collection (share history i) := by
  intro asked hasked id hid
  cases howner : asked.1 with
  | none =>
      rw [Exchange.touched?_of_not_written (h.asides asked hasked howner)] at hid
      cases hid
  | some i => exact ⟨i, rfl, (h.minds i).touched _ (mem_share hasked howner) id hid⟩

/-- No identifier is given to two programs. -/
theorem given_unique (h : Shared collection history store current) {i j : ι} {id : String}
    (hi : id ∈ given collection (share history i))
    (hj : id ∈ given collection (share history j)) : i = j := by
  have hasker : ∀ k, id ∈ given collection (share history k) →
      ∃ asked ∈ history, asked.1 = some k ∧
        (asked.2.created? collection).map Prod.fst = some id := by
    intro k hk
    obtain ⟨created, hcreated, rfl⟩ := List.mem_map.mp hk
    obtain ⟨exchange, hmem, hexchange⟩ := List.mem_filterMap.mp hcreated
    obtain ⟨asked, hasked, rfl⟩ := List.mem_map.mp hmem
    obtain ⟨hasked, howner⟩ := List.mem_filter.mp hasked
    exact ⟨asked, hasked, of_decide_eq_true howner, by rw [hexchange]; rfl⟩
  obtain ⟨first, hfirst, hi, hid⟩ := hasker i hi
  obtain ⟨second, hsecond, hj, hid'⟩ := hasker j hj
  have hnodup := h.keeps.nodup_created collection
  rw [created, List.filterMap_map, List.map_filterMap] at hnodup
  obtain rfl := eq_of_nodup_filterMap hnodup hfirst hsecond hid hid'
  exact Option.some.inj (hi.symm.trans hj)

/-- No identifier is given to a program twice. -/
theorem nodup_given_share (h : Shared collection history store current) (i : ι) :
    (given collection (share history i)).Nodup := by
  refine (h.keeps.nodup_created collection).sublist ?_
  exact ((List.filter_sublist.map Prod.snd).filterMap _).map Prod.fst

/-- What was in the collection has none of the identifiers that have been given out. -/
theorem any_eq_false (h : Shared collection history store current) {id : String}
    (hid : id ∈ given collection (history.map Prod.snd)) :
    (store.records collection).any (hasId id) = false :=
  h.keeps.any_eq_false hid

/-- What is of a program in all that has come into the collection is what its share makes of an
empty one. -/
theorem filter_replay_share (h : Shared collection history store current) (i : ι)
    (records : List Json) :
    (replay collection (history.map Prod.snd) records).filter
        (Json.among fun id => id ∈ given collection (share history i)) =
      replay collection (share history i) (records.filter
        (Json.among fun id => id ∈ given collection (share history i))) := by
  have hown : ∀ asked ∈ history, ∀ id ∈ asked.2.touched? collection,
      decide (id ∈ given collection (share history i)) = decide (asked.1 = some i) := by
    intro asked hasked id hid
    obtain ⟨j, howner, hgiven⟩ := h.exists_owner asked hasked id hid
    rw [decide_eq_decide, howner, Option.some_inj]
    exact ⟨fun hmine => h.given_unique hgiven hmine, fun heq => heq ▸ hgiven⟩
  rw [filter_replay hown]
  rfl

/-- The records of a program are what its share makes of an empty collection. -/
theorem filter_records (h : Shared collection history store current) (i : ι) :
    (current.records collection).filter
        (Json.among fun id => id ∈ given collection (share history i)) =
      replay collection (share history i) [] := by
  have hnone : (store.records collection).filter
      (Json.among fun id => id ∈ given collection (share history i)) = [] := by
    refine List.filter_eq_nil_iff.mpr fun record hrecord hamong => ?_
    unfold Json.among at hamong
    split at hamong
    · next id hid =>
        have hnew := List.any_eq_false.mp
          (h.any_eq_false (Sharing.mem_given_of_share (of_decide_eq_true hamong))) record hrecord
        refine hnew ?_
        unfold hasId
        rw [hid]
        exact beq_self_eq_true id
    · cases hamong
  rw [h.keeps.replay, h.filter_replay_share, hnone]

theorem records_eq (h : Shared collection history store current) :
    current.records collection =
      store.records collection ++ replay collection (history.map Prod.snd) [] := by
  rw [h.keeps.replay, ← replay_append_left, List.append_nil]
  intro patched hpatched
  obtain ⟨exchange, hmem, hexchange⟩ := List.mem_filterMap.mp hpatched
  obtain ⟨asked, hasked, rfl⟩ := List.mem_map.mp hmem
  obtain ⟨i, -, hgiven⟩ := h.exists_owner asked hasked patched.1
    (Exchange.touched?_of_patched hexchange)
  exact h.any_eq_false (Sharing.mem_given_of_share hgiven)

theorem nodup_ids (h : Shared collection history store current) :
    ((replay collection (history.map Prod.snd) []).map (Json.get? "id")).Nodup := by
  have hinjective : Function.Injective fun id : String => some (Json.string id) :=
    fun _ _ heq => Json.string.inj (Option.some.inj heq)
  have hids := (List.nodup_map_iff hinjective).mpr (h.keeps.nodup_created collection)
  rw [List.map_map] at hids
  rw [ids_replay]
  exact hids

theorem exists_share_of_mem (h : Shared collection history store current) {record : Json}
    (hrecord : record ∈ replay collection (history.map Prod.snd) []) :
    ∃ i, record ∈ replay collection (share history i) [] := by
  obtain ⟨id, hid, hget⟩ := Sharing.exists_given_of_mem hrecord
  obtain ⟨created, hcreated, rfl⟩ := List.mem_map.mp hid
  obtain ⟨exchange, hmem, hexchange⟩ := List.mem_filterMap.mp hcreated
  obtain ⟨asked, hasked, rfl⟩ := List.mem_map.mp hmem
  obtain ⟨i, -, hgiven⟩ := h.exists_owner asked hasked created.1
    (Exchange.touched?_of_created hexchange)
  refine ⟨i, ?_⟩
  rw [← h.filter_records i, h.records_eq, List.mem_filter]
  refine ⟨List.mem_append_right _ hrecord, ?_⟩
  unfold Json.among
  rw [hget]
  exact decide_eq_true hgiven

end Transcript.Shared

namespace Transcript.Sharing

variable {ι : Type} [DecidableEq ι] {collection : String} {history : List (Option ι × Exchange)}
  {last : Option ι × Exchange} {store current : MemoryStore}

theorem split_last (h : Sharing collection (history ++ [last]) store current) :
    ∃ between, Sharing collection history store between ∧ last.2.Answered between ∧
      current = between.after last.2 ∧
      (last.1 = none ∧ last.2.action.written? ≠ some collection ∨
        ∃ i, last.1 = some i ∧
          last.2.action.Minds collection (given collection (share history i))) := by
  have hkeeps := h.keeps
  rw [List.map_append, List.map_singleton, keeps_concat] at hkeeps
  obtain ⟨between, hkeeps, hanswered, hcurrent⟩ := hkeeps
  have hminds : ∀ i, Minds collection [] (share history i) := by
    intro i
    have hall := h.minds i
    rw [share_append, minds_append] at hall
    exact hall.1
  have hasides : ∀ asked ∈ history, asked.1 = none → asked.2.action.written? ≠ some collection :=
    fun asked hasked => h.asides asked (List.mem_append_left _ hasked)
  refine ⟨between, ⟨⟨hkeeps, hminds, hasides⟩, h.fresh⟩, hanswered, hcurrent, ?_⟩
  obtain ⟨owner, exchange⟩ := last
  cases owner with
  | none =>
      exact Or.inl ⟨rfl, h.asides _ (List.mem_append_right _ (List.mem_singleton_self _)) rfl⟩
  | some i =>
      have hall := h.minds i
      rw [share_concat_self, minds_append] at hall
      exact Or.inr ⟨i, rfl, hall.2.1⟩

/-- The supply is still fresh, nobody was turned away, and what has been given out was not to be had
before and is not to be had again. -/
theorem taken (h : Sharing collection history store current) :
    current.Fresh collection ∧
      (∀ asked ∈ history, asked.2.action.written? = some collection →
        (asked.2.touched? collection).isSome) ∧
      ∀ id ∈ given collection (history.map Prod.snd),
        store.WillIssue id ∧ ¬ current.WillIssue id := by
  induction history using List.reverseRecOn generalizing current with
  | nil =>
      obtain rfl : current = store := h.keeps
      exact ⟨h.fresh, List.forall_mem_nil _, List.forall_mem_nil _⟩
  | append_singleton history last ih =>
      obtain ⟨between, hbetween, hanswered, rfl, hlast⟩ := h.split_last
      obtain ⟨hfresh, htaken, hgiven⟩ := ih hbetween
      have hone : (last.2.action.written? = some collection →
            (last.2.touched? collection).isSome) ∧
          ∀ created ∈ last.2.created? collection,
            between.WillIssue created.1 ∧ ¬ (between.after last.2).WillIssue created.1 := by
        rcases hlast with ⟨-, hspares⟩ | ⟨i, -, hminds⟩
        · exact hfresh.taken hanswered (Action.minds_of_ne hspares) (List.forall_mem_nil _)
        · exact hfresh.taken hanswered hminds fun _ hid =>
            hbetween.keeps.any_hasId.mpr (Or.inr (mem_given_of_share hid))
      obtain ⟨hsupply, hissued, -⟩ := MemoryStore.answer_frame last.2.action between
      obtain ⟨hsupply', hissued', -⟩ := hbetween.keeps.frame
      refine ⟨hfresh.after hanswered fun created hcreated => (hone.2 created hcreated).2, ?_, ?_⟩
      · exact List.forall_mem_append.mpr ⟨htaken, List.forall_mem_singleton.mpr hone.1⟩
      · rw [List.map_append, given_append]
        refine List.forall_mem_append.mpr ⟨fun id hid => ?_, ?_⟩
        · obtain ⟨hbefore, hgone⟩ := hgiven id hid
          exact ⟨hbefore, fun hwill => hgone (hwill.earlier hsupply hissued)⟩
        · intro id hid
          obtain ⟨created, hmem, rfl⟩ := List.mem_map.mp hid
          obtain ⟨exchange, hexchange, hcreated⟩ := List.mem_filterMap.mp hmem
          obtain rfl := List.mem_singleton.mp hexchange
          obtain ⟨hwill, hgone⟩ := hone.2 created hcreated
          exact ⟨hwill.earlier hsupply' hissued', hgone⟩

end Transcript.Sharing

end FlowEngine
