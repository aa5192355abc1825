import FlowEngine.Proofs.Interleaving
import FlowEngine.Proofs.Store.History
import Mathlib.Data.List.Induction
/-!
# `FlowEngine.Proofs.Store.Replay` — a collection as its history leaves it

What becomes of the records of a collection can be told from the answers alone, without the store
that gave them: a creation that was accepted adds its object, an update that was accepted lays its
patch over the record of its identifier, and everything else changes nothing (`Exchange.amend`).
A transcript is replayed one exchange after the other, and a store in memory holds what the replay
says (`Keeps.replay`).

Each of these changes concerns the records of one identifier.  So the records of some identifiers
can be had from the exchanges that touch them, whatever else has happened in between
(`filter_replay`), and a record is what was created with its patches laid over it in order
(`Keeps.accounts`).
-/

namespace FlowEngine

open MemoryStore (changeFirst hasId overlay)

/-! ## Records by identifier -/

/-- The record has one of these identifiers. -/
def Json.among (mine : String → Bool) (record : Json) : Bool :=
  match record.get? "id" with
  | some (.string id) => mine id
  | _ => false

namespace Json

theorem among_of_hasId {mine : String → Bool} {id : String} {record : Json}
    (h : hasId id record = true) : record.among mine = mine id := by
  unfold hasId at h
  split at h
  · next name heq =>
      obtain rfl := beq_iff_eq.mp h
      rw [among, heq]
  · cases h

theorem among_withId (mine : String → Bool) (members : Members) (id : String) :
    ((object members).withId id).among mine = mine id := by
  have hget : ((object members).withId id).get? "id" = some (.string id) :=
    (lookup_insert _ _ _ _).trans (if_pos rfl)
  unfold among
  rw [hget]

theorem get?_overlay_spared {patch : Members} {key : String}
    (h : key = "id" ∨ lookup key patch = none) (record : Json) :
    (overlay patch record).get? key = record.get? key := by
  cases record with
  | object members =>
      rw [MemoryStore.get?_overlay_last]
      by_cases hkey : key = "id"
      · rw [if_pos hkey]
        rfl
      · have hnone : lookup key patch.reverse = none := by
          rw [lookup_eq_none_iff, List.map_reverse, List.mem_reverse]
          exact lookup_eq_none_iff.mp (h.resolve_left hkey)
        rw [if_neg hkey, hnone, Option.none_or]
        rfl
  | _ => rfl

theorem among_overlay (mine : String → Bool) (patch : Members) (record : Json) :
    (overlay patch record).among mine = record.among mine := by
  unfold among
  rw [get?_overlay_spared (Or.inl rfl)]

theorem hasId_overlay (id : String) (patch : Members) (record : Json) :
    hasId id (overlay patch record) = hasId id record :=
  among_overlay (· == id) patch record

end Json

section ChangeFirst

variable {mine : String → Bool} {id : String} {patch : Json.Members} {records : List Json}

theorem changeFirst_cons (change : Json → Json) (record : Json) (rest : List Json) :
    changeFirst id change (record :: rest) =
      if hasId id record then change record :: rest else record :: changeFirst id change rest :=
  rfl

theorem filter_changeFirst (h : mine id = true) :
    (changeFirst id (overlay patch) records).filter (Json.among mine) =
      changeFirst id (overlay patch) (records.filter (Json.among mine)) := by
  induction records with
  | nil => rfl
  | cons record rest ih =>
      rw [changeFirst_cons]
      by_cases hid : hasId id record = true
      · have hmine : record.among mine = true := (Json.among_of_hasId hid).trans h
        have hpatched := (Json.among_overlay mine patch record).trans hmine
        rw [if_pos hid, List.filter_cons_of_pos hpatched, List.filter_cons_of_pos hmine,
          changeFirst_cons, if_pos hid]
      · rw [if_neg hid]
        by_cases hmine : record.among mine = true
        · rw [List.filter_cons_of_pos hmine, List.filter_cons_of_pos hmine, changeFirst_cons,
            if_neg hid, ih]
        · rw [List.filter_cons_of_neg hmine, List.filter_cons_of_neg hmine, ih]

theorem filter_changeFirst_of_other (h : mine id = false) :
    (changeFirst id (overlay patch) records).filter (Json.among mine) =
      records.filter (Json.among mine) := by
  induction records with
  | nil => rfl
  | cons record rest ih =>
      rw [changeFirst_cons]
      by_cases hid : hasId id record = true
      · have hother : ¬ record.among mine = true := by
          rw [Json.among_of_hasId hid, h]
          exact Bool.false_ne_true
        have hpatched : ¬ (overlay patch record).among mine = true := by
          rwa [Json.among_overlay]
        rw [if_pos hid, List.filter_cons_of_neg hpatched, List.filter_cons_of_neg hother]
      · rw [if_neg hid, List.filter_cons, List.filter_cons, ih]

theorem any_changeFirst (name : String) :
    (changeFirst id (overlay patch) records).any (hasId name) = records.any (hasId name) := by
  induction records with
  | nil => rfl
  | cons record rest ih =>
      rw [changeFirst_cons]
      split
      · rw [List.any_cons, List.any_cons, Json.hasId_overlay]
      · rw [List.any_cons, List.any_cons, ih]

theorem map_get?_changeFirst {key : String} (h : key = "id" ∨ Json.lookup key patch = none) :
    (changeFirst id (overlay patch) records).map (Json.get? key) =
      records.map (Json.get? key) := by
  induction records with
  | nil => rfl
  | cons record rest ih =>
      rw [changeFirst_cons]
      split
      · rw [List.map_cons, List.map_cons, Json.get?_overlay_spared h]
      · rw [List.map_cons, List.map_cons, ih]

theorem changeFirst_append_of_none {more : List Json}
    (h : records.any (hasId id) = false) :
    changeFirst id (overlay patch) (records ++ more) =
      records ++ changeFirst id (overlay patch) more := by
  induction records with
  | nil => rfl
  | cons record rest ih =>
      rw [List.any_cons, Bool.or_eq_false_iff] at h
      rw [List.cons_append, changeFirst_cons, h.1, ih h.2]
      rfl

end ChangeFirst

/-! ## One exchange -/

namespace Exchange

variable {exchange : Exchange} {collection id : String} {members patch : Json.Members}
  {mine : String → Bool} {records more : List Json} {store : MemoryStore}

/-- What an exchange makes of the records of a collection. -/
def amend (collection : String) (exchange : Exchange) (records : List Json) : List Json :=
  match exchange.created? collection, exchange.patched? collection with
  | some (id, members), _ => records ++ [(Json.object members).withId id]
  | none, some (id, patch) => changeFirst id (overlay patch) records
  | none, none => records

/-- The identifier of the record that an exchange has created or patched. -/
def touched? (collection : String) (exchange : Exchange) : Option String :=
  ((exchange.created? collection).map Prod.fst).or ((exchange.patched? collection).map Prod.fst)

theorem amend_of_created (h : exchange.created? collection = some (id, members)) :
    exchange.amend collection records = records ++ [(Json.object members).withId id] := by
  rw [amend, h]

theorem action_of_created (h : exchange.created? collection = some (id, members)) :
    exchange.action = .create collection (.object members) := by
  unfold created? at h
  split at h
  · split at h
    · next hname =>
        obtain ⟨_, -, hcreated⟩ := Option.map_eq_some_iff.mp h
        obtain ⟨-, rfl⟩ := Prod.mk.inj hcreated
        rw [hname]
    · cases h
  · cases h

theorem action_of_patched (h : exchange.patched? collection = some (id, patch)) :
    exchange.action = .update collection id (.object patch) := by
  unfold patched? at h
  split at h
  · split at h
    · next hname =>
        obtain ⟨rfl, rfl⟩ := Prod.mk.inj (Option.some.inj h)
        rw [hname]
    · cases h
  · cases h

theorem patched?_of_created (h : exchange.created? collection = some (id, members)) :
    exchange.patched? collection = none := by
  obtain ⟨action, reply⟩ := exchange
  obtain rfl : action = _ := action_of_created h
  rfl

theorem created?_of_patched (h : exchange.patched? collection = some (id, patch)) :
    exchange.created? collection = none := by
  obtain ⟨action, reply⟩ := exchange
  obtain rfl : action = _ := action_of_patched h
  rfl

theorem amend_of_patched (h : exchange.patched? collection = some (id, patch)) :
    exchange.amend collection records = changeFirst id (overlay patch) records := by
  rw [amend, created?_of_patched h, h]

theorem touched?_of_created (h : exchange.created? collection = some (id, members)) :
    exchange.touched? collection = some id := by
  rw [touched?, h]
  rfl

theorem touched?_of_patched (h : exchange.patched? collection = some (id, patch)) :
    exchange.touched? collection = some id := by
  rw [touched?, created?_of_patched h, h]
  rfl

theorem amend_of_untouched (h : exchange.touched? collection = none) :
    exchange.amend collection records = records := by
  obtain ⟨hcreated, hpatched⟩ := Option.or_eq_none_iff.mp h
  rw [amend, Option.map_eq_none_iff.mp hcreated, Option.map_eq_none_iff.mp hpatched]

theorem touched?_cases (h : exchange.touched? collection = some id) :
    (∃ members, exchange.created? collection = some (id, members)) ∨
      ∃ patch, exchange.patched? collection = some (id, patch) := by
  rcases Option.or_eq_some_iff.mp h with hcreated | ⟨-, hpatched⟩
  · obtain ⟨⟨_, members⟩, hc, rfl⟩ := Option.map_eq_some_iff.mp hcreated
    exact Or.inl ⟨members, hc⟩
  · obtain ⟨⟨_, patch⟩, hp, rfl⟩ := Option.map_eq_some_iff.mp hpatched
    exact Or.inr ⟨patch, hp⟩

theorem touched?_of_not_written (h : exchange.action.written? ≠ some collection) :
    exchange.touched? collection = none := by
  obtain ⟨action, reply⟩ := exchange
  cases action with
  | create name data =>
      have hname : name ≠ collection := fun heq => h (congrArg some heq)
      cases data with
      | object members =>
          cases reply with
          | ok record => simp [touched?, created?, patched?, hname]
          | error e => rfl
      | _ => rfl
  | update name id data =>
      have hname : name ≠ collection := fun heq => h (congrArg some heq)
      cases data with
      | object patch =>
          cases reply with
          | ok record => simp [touched?, created?, patched?, hname]
          | error e => rfl
      | _ => rfl
  | _ => rfl

theorem touched?_of_refused (h : exchange.reply = exchange.action.refusal) (collection : String) :
    exchange.touched? collection = none := by
  obtain ⟨action, reply⟩ := exchange
  obtain rfl : reply = action.refusal := h
  cases action with
  | create name data => cases data <;> rfl
  | update name id data => cases data <;> rfl
  | _ => rfl

/-- Mine are changed by what touches one of mine, and by nothing else. -/
theorem filter_amend {keep : Bool} (h : ∀ id ∈ exchange.touched? collection, mine id = keep) :
    (exchange.amend collection records).filter (Json.among mine) =
      if keep then exchange.amend collection (records.filter (Json.among mine))
      else records.filter (Json.among mine) := by
  cases htouched : exchange.touched? collection with
  | none => rw [amend_of_untouched htouched, amend_of_untouched htouched, ite_self]
  | some id =>
      have hmine := h id htouched
      rcases touched?_cases htouched with ⟨members, hcreated⟩ | ⟨patch, hpatched⟩
      · rw [amend_of_created hcreated, amend_of_created hcreated, List.filter_append,
          List.filter_cons, Json.among_withId, hmine]
        cases keep
        · exact List.append_nil _
        · rfl
      · rw [amend_of_patched hpatched, amend_of_patched hpatched]
        cases keep
        · exact filter_changeFirst_of_other hmine
        · exact filter_changeFirst hmine

/-- Identifiers do not go out of use, and come into use by a creation. -/
theorem any_amend (name : String) :
    (exchange.amend collection records).any (hasId name) =
      (records.any (hasId name) || ((exchange.created? collection).map Prod.fst == some name)) := by
  cases hcreated : exchange.created? collection with
  | some created =>
      obtain ⟨id, members⟩ := created
      rw [amend_of_created hcreated, List.any_append, List.any_cons, List.any_nil, Bool.or_false]
      exact congrArg (records.any (hasId name) || ·) (Json.among_withId (· == name) members id)
  | none =>
      rw [amend, hcreated]
      cases exchange.patched? collection with
      | some patched => exact (any_changeFirst name).trans (Bool.or_false _).symm
      | none => exact (Bool.or_false _).symm

/-- Records whose identifiers an exchange does not patch stay in front as they are. -/
theorem amend_append (h : ∀ patched ∈ exchange.patched? collection,
      records.any (hasId patched.1) = false) :
    exchange.amend collection (records ++ more) = records ++ exchange.amend collection more := by
  cases hpatched : exchange.patched? collection with
  | some patched =>
      rw [amend_of_patched hpatched, amend_of_patched hpatched]
      exact changeFirst_append_of_none (h patched hpatched)
  | none =>
      rw [amend, amend, hpatched]
      cases exchange.created? collection with
      | some created => exact List.append_assoc _ _ _
      | none => rfl

/-! ### As a store in memory answers -/

/-- All that an exchange can be for the records of a collection, if the store has answered it. -/
theorem Answered.cases (h : exchange.Answered store) (collection : String) :
    (∃ members, exchange.action = .create collection (.object members) ∧
        exchange.created? collection = some (store.idFor members, members) ∧
        (store.records collection).any (hasId (store.idFor members)) = false ∧
        (store.after exchange).records collection = store.records collection ++
          [(Json.object members).withId (store.idFor members)]) ∨
      (∃ id patch, exchange.action = .update collection id (.object patch) ∧
        exchange.patched? collection = some (id, patch) ∧
        (store.records collection).any (hasId id) = true ∧
        (store.after exchange).records collection =
          changeFirst id (overlay patch) (store.records collection)) ∨
      exchange.touched? collection = none ∧
        (store.after exchange).records collection = store.records collection := by
  by_cases hwritten : exchange.action.written? = some collection
  · obtain ⟨action, reply⟩ := exchange
    cases action with
    | create name data =>
        obtain rfl : name = collection := Option.some.inj hwritten
        obtain rfl : reply = (store.create name data).1 := h rfl
        rcases store.create_cases name data with
          ⟨⟨e, he⟩, hcollections, -⟩ | ⟨members, rfl, hfree, hok, hrecords, -⟩
        · refine Or.inr (Or.inr ⟨?_, congrArg (fun pairs =>
            (MemoryStore.valueOf name pairs).getD []) hcollections⟩)
          rw [he]
          cases data <;> rfl
        · refine Or.inl ⟨members, rfl, ?_, ?_, (hrecords name).trans (if_pos rfl)⟩
          · have hget : ((Json.object members).withId (store.idFor members)).get? "id" =
                some (.string (store.idFor members)) :=
              (Json.lookup_insert _ _ _ _).trans (if_pos rfl)
            rw [hok, created?, if_pos rfl, hget]
            rfl
          · exact List.any_eq_false.mpr fun x hx => by rw [hfree x hx]; exact Bool.false_ne_true
    | update name id data =>
        obtain rfl : name = collection := Option.some.inj hwritten
        obtain rfl : reply = (store.update name id data).1 := h rfl
        rcases store.update_cases name id data with
          ⟨⟨e, he⟩, hstore⟩ |
            ⟨patch, before, record, after, rfl, hsplit, hbefore, hrecord, hok, hrecords, -⟩
        · refine Or.inr (Or.inr ⟨?_, congrArg (MemoryStore.records · name) hstore⟩)
          rw [he]
          cases data <;> rfl
        · refine Or.inr (Or.inl ⟨id, patch, rfl, ?_, ?_, ?_⟩)
          · rw [hok, patched?, if_pos rfl]
          · rw [hsplit]
            exact List.any_eq_true.mpr
              ⟨record, List.mem_append_right _ List.mem_cons_self, hrecord⟩
          · rw [hsplit, MemoryStore.changeFirst_append hbefore hrecord]
            exact (hrecords name).trans (if_pos rfl)
    | _ => cases hwritten
  · exact Or.inr (Or.inr ⟨touched?_of_not_written hwritten,
      (MemoryStore.answer_frame exchange.action store).2.2 collection hwritten⟩)

theorem Answered.records_after (h : exchange.Answered store) (collection : String) :
    (store.after exchange).records collection =
      exchange.amend collection (store.records collection) := by
  rcases h.cases collection with
    ⟨members, -, hcreated, -, hrecords⟩ | ⟨id, patch, -, hpatched, -, hrecords⟩ |
      ⟨huntouched, hrecords⟩
  · rw [hrecords, amend_of_created hcreated]
  · rw [hrecords, amend_of_patched hpatched]
  · rw [hrecords, amend_of_untouched huntouched]

theorem Answered.any_of_created (h : exchange.Answered store)
    (hcreated : exchange.created? collection = some (id, members)) :
    (store.records collection).any (hasId id) = false := by
  rcases h.cases collection with
    ⟨members', -, hcreated', hfree, -⟩ | ⟨_, _, -, hpatched, -⟩ | ⟨huntouched, -⟩
  · obtain ⟨rfl, -⟩ := Prod.mk.inj (Option.some.inj (hcreated.symm.trans hcreated'))
    exact hfree
  · rw [created?_of_patched hpatched] at hcreated
    cases hcreated
  · rw [touched?_of_created hcreated] at huntouched
    cases huntouched

theorem Answered.any_of_patched (h : exchange.Answered store)
    (hpatched : exchange.patched? collection = some (id, patch)) :
    (store.records collection).any (hasId id) = true := by
  rcases h.cases collection with
    ⟨members', -, hcreated, -⟩ | ⟨_, _, -, hpatched', hused, -⟩ | ⟨huntouched, -⟩
  · rw [patched?_of_created hcreated] at hpatched
    cases hpatched
  · obtain ⟨rfl, -⟩ := Prod.mk.inj (Option.some.inj (hpatched.symm.trans hpatched'))
    exact hused
  · rw [touched?_of_patched hpatched] at huntouched
    cases huntouched

end Exchange

/-! ## Transcripts -/

namespace Transcript

variable {t t' : Transcript} {exchange : Exchange} {collection id : String}
  {mine : String → Bool} {records more : List Json} {store store' : MemoryStore}

/-- The records of a collection with all that a transcript has made of them. -/
def replay (collection : String) (t : Transcript) (records : List Json) : List Json :=
  t.foldl (fun records exchange => exchange.amend collection records) records

theorem replay_append : replay collection (t ++ t') records =
    replay collection t' (replay collection t records) :=
  List.foldl_append

/-- What touches nothing of a collection creates nothing there, and leaves it as it is. -/
theorem created_of_untouched (h : ∀ exchange ∈ t, exchange.touched? collection = none) :
    t.created collection = [] :=
  List.filterMap_eq_nil_iff.mpr fun exchange hmem =>
    Option.map_eq_none_iff.mp (Option.or_eq_none_iff.mp (h exchange hmem)).1

theorem replay_of_untouched (h : ∀ exchange ∈ t, exchange.touched? collection = none) :
    replay collection t records = records := by
  induction t with
  | nil => rfl
  | cons exchange rest ih =>
      obtain ⟨hfirst, hrest⟩ := List.forall_mem_cons.mp h
      rw [replay, List.foldl_cons, Exchange.amend_of_untouched hfirst]
      exact ih hrest

/-- One exchange more is one that is answered by the store as the others have left it. -/
theorem keeps_concat : Keeps (t ++ [exchange]) store store' ↔
    ∃ between, t.Keeps store between ∧ exchange.Answered between ∧
      store' = between.after exchange :=
  keeps_append

theorem Keeps.replay (h : t.Keeps store store') (collection : String) :
    store'.records collection = Transcript.replay collection t (store.records collection) := by
  induction t using List.reverseRecOn generalizing store' with
  | nil =>
      obtain rfl : store' = store := h
      rfl
  | append_singleton t exchange ih =>
      obtain ⟨between, ht, hanswered, rfl⟩ := keeps_concat.mp h
      rw [hanswered.records_after, ih ht, replay_append]
      rfl

/-- The records of some identifiers are told by the exchanges that touch them. -/
theorem filter_replay {β : Type} {asked : List β} {exchange : β → Exchange} {keep : β → Bool}
    (h : ∀ x ∈ asked, ∀ id ∈ (exchange x).touched? collection, mine id = keep x) :
    (Transcript.replay collection (asked.map exchange) records).filter (Json.among mine) =
      Transcript.replay collection ((asked.filter keep).map exchange)
        (records.filter (Json.among mine)) := by
  induction asked generalizing records with
  | nil => rfl
  | cons x rest ih =>
      obtain ⟨hfirst, hrest⟩ := List.forall_mem_cons.mp h
      rw [List.map_cons, Transcript.replay, List.foldl_cons, ← Transcript.replay, ih hrest,
        Exchange.filter_amend hfirst]
      by_cases hkeep : keep x = true
      · rw [List.filter_cons_of_pos hkeep, if_pos hkeep]
        rfl
      · rw [List.filter_cons_of_neg hkeep, if_neg hkeep]

theorem any_replay {name : String} :
    (Transcript.replay collection t records).any (hasId name) = true ↔
      records.any (hasId name) = true ∨ name ∈ (t.created collection).map Prod.fst := by
  induction t using List.reverseRecOn with
  | nil => exact (or_iff_left List.not_mem_nil).symm
  | append_singleton t exchange ih =>
      rw [replay_append]
      show (exchange.amend collection (Transcript.replay collection t records)).any _ = true ↔ _
      rw [Exchange.any_amend, Bool.or_eq_true, ih, created_concat, List.map_append, List.mem_append,
        or_assoc]
      refine or_congr_right (or_congr_right ?_)
      cases exchange.created? collection with
      | none => simp
      | some created =>
          rw [Option.map_some, beq_iff_eq, Option.some_inj, Option.toList_some, List.map_singleton,
            List.mem_singleton, eq_comm]

/-- The records that come into an empty collection have the identifiers that were given out. -/
theorem ids_replay (collection : String) (t : Transcript) :
    (Transcript.replay collection t []).map (Json.get? "id") =
      (t.created collection).map fun created => some (.string created.1) := by
  induction t using List.reverseRecOn with
  | nil => rfl
  | append_singleton t exchange ih =>
      rw [replay_append, created_concat, List.map_append, ← ih]
      show (exchange.amend collection (Transcript.replay collection t [])).map _ = _
      cases hcreated : exchange.created? collection with
      | some created =>
          obtain ⟨id, members⟩ := created
          rw [Exchange.amend_of_created hcreated, List.map_append]
          refine congrArg _ (congrArg (fun value => [value]) ?_)
          exact (Json.lookup_insert _ _ _ _).trans (if_pos rfl)
      | none =>
          rw [Exchange.amend, hcreated, Option.toList_none, List.map_nil, List.append_nil]
          cases exchange.patched? collection with
          | some patched => exact map_get?_changeFirst (Or.inl rfl)
          | none => rfl

theorem Keeps.any_hasId (h : t.Keeps store store') {collection name : String} :
    (store'.records collection).any (hasId name) = true ↔
      (store.records collection).any (hasId name) = true ∨
        name ∈ (t.created collection).map Prod.fst := by
  rw [h.replay]
  exact any_replay

/-- No identifier is given out twice in a collection, nor one that was in use before. -/
theorem Keeps.nodup_created (h : t.Keeps store store') (collection : String) :
    ((t.created collection).map Prod.fst).Nodup := by
  induction t using List.reverseRecOn generalizing store' with
  | nil => exact List.nodup_nil
  | append_singleton t exchange ih =>
      obtain ⟨between, ht, hanswered, rfl⟩ := keeps_concat.mp h
      rw [created_concat, List.map_append]
      cases hcreated : exchange.created? collection with
      | none =>
          rw [Option.toList_none, List.map_nil, List.append_nil]
          exact ih ht
      | some created =>
          refine List.nodup_append.mpr ⟨ih ht, List.pairwise_singleton _ _, ?_⟩
          rintro name hname _ hlast rfl
          obtain rfl := List.mem_singleton.mp hlast
          have hfree := hanswered.any_of_created hcreated
          rw [ht.any_hasId.mpr (Or.inr hname)] at hfree
          cases hfree

/-- Whatever is created has an identifier that was not in use before. -/
theorem Keeps.any_eq_false (h : t.Keeps store store')
    (hid : id ∈ (t.created collection).map Prod.fst) :
    (store.records collection).any (hasId id) = false := by
  induction t using List.reverseRecOn generalizing store' with
  | nil => cases hid
  | append_singleton t exchange ih =>
      obtain ⟨between, ht, hanswered, rfl⟩ := keeps_concat.mp h
      rw [created_concat, List.map_append, List.mem_append] at hid
      rcases hid with hearlier | hlast
      · exact ih ht hearlier
      · obtain ⟨⟨_, members⟩, hcreated, rfl⟩ := List.mem_map.mp hlast
        have hfree := hanswered.any_of_created (Option.mem_toList.mp hcreated)
        refine Bool.eq_false_iff.mpr fun hused => ?_
        rw [ht.any_hasId.mpr (Or.inl hused)] at hfree
        cases hfree

/-- What was there stays as it is, if nothing of it is patched. -/
theorem replay_append_left (h : ∀ patched ∈ t.patched collection,
      records.any (hasId patched.1) = false) :
    Transcript.replay collection t (records ++ more) =
      records ++ Transcript.replay collection t more := by
  induction t using List.reverseRecOn with
  | nil => rfl
  | append_singleton t exchange ih =>
      rw [patched_concat, List.forall_mem_append] at h
      rw [replay_append, ih h.1, replay_append]
      exact Exchange.amend_append fun patched hpatched =>
        h.2 patched (Option.mem_toList.mpr hpatched)

/-! ### One record -/

/-- An object with patches laid over it in their order. -/
def laid (record : Json) (patches : List Json.Members) : Json :=
  patches.foldl (fun record patch => overlay patch record) record

theorem patchesOf_append (t t' : Transcript) (collection id : String) :
    patchesOf (t ++ t') collection id = t.patchesOf collection id ++ t'.patchesOf collection id := by
  rw [patchesOf, Transcript.patched, List.filterMap_append, List.filter_append, List.map_append]
  rfl

theorem patchesOf_concat (t : Transcript) (exchange : Exchange) (collection id : String) :
    patchesOf (t ++ [exchange]) collection id = t.patchesOf collection id ++
      (((exchange.patched? collection).toList.filter fun update => update.1 == id).map
        Prod.snd) := by
  rw [patchesOf, patched_concat, List.filter_append, List.map_append]
  rfl

theorem laid_concat (record : Json) (patches : List Json.Members) (patch : Json.Members) :
    laid record (patches ++ [patch]) = overlay patch (laid record patches) :=
  List.foldl_append

/-- What is known of the record of a new identifier: it is what was created with its patches, or
there is none, and there are no patches for it. -/
def Accounts (t : Transcript) (collection id : String) (records : List Json) : Prop :=
  (∃ members, (id, members) ∈ t.created collection ∧ records.filter (hasId id) =
      [laid ((Json.object members).withId id) (t.patchesOf collection id)]) ∨
    id ∉ (t.created collection).map Prod.fst ∧ t.patchesOf collection id = [] ∧
      records.filter (hasId id) = []

theorem Accounts.other (h : Accounts t collection id records)
    (htouched : exchange.touched? collection ≠ some id) :
    Accounts (t ++ [exchange]) collection id (exchange.amend collection records) := by
  have hother : ∀ name ∈ exchange.touched? collection, (name == id) = false := by
    intro name hname
    rw [beq_eq_false_iff_ne]
    rintro rfl
    exact htouched hname
  have hfilter : (exchange.amend collection records).filter (hasId id) =
      records.filter (hasId id) := Exchange.filter_amend hother
  have hpatches : patchesOf (t ++ [exchange]) collection id = t.patchesOf collection id := by
    rw [patchesOf_concat]
    cases hpatched : exchange.patched? collection with
    | none => exact List.append_nil _
    | some patched =>
        rw [Option.toList_some, List.filter_cons_of_neg, List.filter_nil, List.map_nil,
          List.append_nil]
        rw [hother _ (Exchange.touched?_of_patched hpatched)]
        exact Bool.false_ne_true
  unfold Accounts
  rw [hfilter, hpatches, created_concat]
  rcases h with ⟨members, hmem, hrecord⟩ | ⟨hnew, hnone, hrecord⟩
  · exact Or.inl ⟨members, List.mem_append_left _ hmem, hrecord⟩
  · refine Or.inr ⟨?_, hnone, hrecord⟩
    rw [List.map_append, List.mem_append, not_or]
    refine ⟨hnew, ?_⟩
    rintro hlast
    obtain ⟨created, hcreated, rfl⟩ := List.mem_map.mp hlast
    exact htouched (Exchange.touched?_of_created (Option.mem_toList.mp hcreated))

theorem Accounts.create (h : Accounts t collection id records) {members : Json.Members}
    (hcreated : exchange.created? collection = some (id, members))
    (hfree : records.any (hasId id) = false) :
    Accounts (t ++ [exchange]) collection id (exchange.amend collection records) := by
  have hnone : records.filter (hasId id) = [] :=
    List.filter_eq_nil_iff.mpr (List.any_eq_false.mp hfree)
  have hself : hasId id ((Json.object members).withId id) = true :=
    (Json.among_withId (· == id) members id).trans (beq_self_eq_true id)
  rcases h with ⟨_, -, hrecord⟩ | ⟨-, hpatches, -⟩
  · rw [hnone] at hrecord
    cases hrecord
  · refine Or.inl ⟨members, ?_, ?_⟩
    · rw [created_concat, hcreated]
      exact List.mem_append_right _ List.mem_cons_self
    · rw [Exchange.amend_of_created hcreated, List.filter_append, hnone, patchesOf_concat, hpatches,
        Exchange.patched?_of_created hcreated, List.filter_cons_of_pos hself]
      rfl

theorem Accounts.patch (h : Accounts t collection id records) {patch : Json.Members}
    (hpatched : exchange.patched? collection = some (id, patch))
    (hused : records.any (hasId id) = true) :
    Accounts (t ++ [exchange]) collection id (exchange.amend collection records) := by
  rcases h with ⟨members, hmem, hrecord⟩ | ⟨-, -, hnone⟩
  · have hself : hasId id (laid ((Json.object members).withId id) (t.patchesOf collection id)) =
        true := by
      have hself : laid ((Json.object members).withId id) (t.patchesOf collection id) ∈
          records.filter (hasId id) := by
        rw [hrecord]
        exact List.mem_cons_self
      exact (List.mem_filter.mp hself).2
    refine Or.inl ⟨members, ?_, ?_⟩
    · rw [created_concat]
      exact List.mem_append_left _ hmem
    · have hfilter : (changeFirst id (overlay patch) records).filter (hasId id) =
          changeFirst id (overlay patch) (records.filter (hasId id)) :=
        filter_changeFirst (beq_self_eq_true id)
      rw [hrecord, changeFirst_cons, if_pos hself] at hfilter
      have hlast : patchesOf (t ++ [exchange]) collection id =
          t.patchesOf collection id ++ [patch] := by
        rw [patchesOf_concat, hpatched]
        simp
      rw [Exchange.amend_of_patched hpatched, hfilter, hlast, laid_concat]
  · obtain ⟨record, hmem, hid⟩ := List.any_eq_true.mp hused
    rw [List.filter_eq_nil_iff] at hnone
    exact absurd hid (hnone record hmem)

/-- A record that is there and not patched stays as it is, and the only one of its identifier. -/
theorem Keeps.filter_of_unpatched (h : t.Keeps store store')
    (hused : (store.records collection).any (hasId id) = true)
    (hnone : t.patchesOf collection id = []) :
    (store'.records collection).filter (hasId id) =
      (store.records collection).filter (hasId id) := by
  induction t using List.reverseRecOn generalizing store' with
  | nil =>
      obtain rfl : store' = store := h
      rfl
  | append_singleton t exchange ih =>
      obtain ⟨between, ht, hanswered, rfl⟩ := keeps_concat.mp h
      rw [patchesOf_concat, List.append_eq_nil_iff] at hnone
      obtain ⟨hnone, hlast⟩ := hnone
      have hother : ∀ name ∈ exchange.touched? collection, (name == id) = false := by
        intro name hname
        refine beq_eq_false_iff_ne.mpr ?_
        rintro rfl
        rcases Exchange.touched?_cases hname with ⟨members, hcreated⟩ | ⟨patch, hpatched⟩
        · have hfree := hanswered.any_of_created hcreated
          rw [ht.any_hasId.mpr (Or.inl hused)] at hfree
          cases hfree
        · rw [hpatched] at hlast
          simp at hlast
      rw [hanswered.records_after, ← ih ht hnone]
      exact Exchange.filter_amend hother

theorem Keeps.accounts (h : t.Keeps store store')
    (hfree : (store.records collection).any (hasId id) = false) :
    Accounts t collection id (store'.records collection) := by
  induction t using List.reverseRecOn generalizing store' with
  | nil =>
      obtain rfl : store' = store := h
      exact Or.inr ⟨List.not_mem_nil, rfl,
        List.filter_eq_nil_iff.mpr (List.any_eq_false.mp hfree)⟩
  | append_singleton t exchange ih =>
      obtain ⟨between, ht, hanswered, rfl⟩ := keeps_concat.mp h
      rw [hanswered.records_after]
      by_cases htouched : exchange.touched? collection = some id
      · rcases Exchange.touched?_cases htouched with ⟨members, hcreated⟩ | ⟨patch, hpatched⟩
        · exact (ih ht).create hcreated (hanswered.any_of_created hcreated)
        · exact (ih ht).patch hpatched (hanswered.any_of_patched hpatched)
      · exact (ih ht).other htouched

end Transcript

end FlowEngine
