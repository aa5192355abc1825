import FlowEngine.Proofs.Json.Members
import FlowEngine.Store.Memory
/-!
# `FlowEngine.Proofs.Store.Memory` — the store in memory, call by call

One equation for each call that writes, in terms of the records of the collections.  A store is no
more than that and a supply of identifiers: `records_setRecords` says what a collection holds once
one of them has been replaced, and how the collections are kept is not opened after it.
-/

namespace FlowEngine

namespace Json

/-- The record under an identifier. -/
def withId (id : String) : Json → Json
  | .object members => .object (insert "id" (.string id) members)
  | other => other

theorem IsRecord.withId {value : Json} (h : value.IsRecord) (id : String) :
    (value.withId id).IsRecord := by
  obtain ⟨members, rfl, hsorted⟩ := h
  exact ⟨_, rfl, hsorted.insert _ _⟩

theorem get?_withId {value : Json} (h : value.IsRecord) (id key : String) :
    (value.withId id).get? key = if "id" = key then some (.string id) else value.get? key := by
  obtain ⟨members, rfl, -⟩ := h
  exact lookup_insert _ _ _ _

end Json

namespace MemoryStore

variable {store : MemoryStore} {collection id : String}

/-! ## Collections -/

theorem valueOf_setValue {α : Type} (name key : String) (value : α) (pairs : List (String × α)) :
    valueOf key (setValue name value pairs) =
      if name = key then some value else valueOf key pairs := by
  induction pairs with
  | nil => rfl
  | cons pair rest ih =>
      obtain ⟨head, old⟩ := pair
      unfold setValue
      split
      · next h =>
          subst h
          by_cases hk : head = key <;> simp [valueOf, hk]
      · next h =>
          by_cases hk : head = key
          · subst hk
            simp [valueOf, Ne.symm h]
          · simp [valueOf, hk, ih]

theorem records_setRecords (store : MemoryStore) (collection other : String)
    (records : List Json) : (store.setRecords collection records).records other =
      if collection = other then records else store.records other := by
  unfold setRecords MemoryStore.records
  rw [valueOf_setValue]
  split <;> rfl

/-! ## Creating -/

/-- The identifier that an object is created under: the one that it asks for, or else the next of
the supply. -/
def idFor (store : MemoryStore) (members : Json.Members) : String :=
  (requestedId? members).getD store.issue.1

/-- The store once the identifier has been chosen. -/
def chosenFor (store : MemoryStore) (members : Json.Members) : MemoryStore :=
  if (requestedId? members).isSome then store else store.issue.2

theorem create_object (members : Json.Members) :
    store.create collection (.object members) =
      if (store.records collection).any (hasId (store.idFor members)) then
        (.error (.malformed collection ("id " ++ store.idFor members ++ " is already taken")),
          store.chosenFor members)
      else
        (.ok ((Json.object members).withId (store.idFor members)),
          (store.chosenFor members).setRecords collection
            (store.records collection ++ [(Json.object members).withId (store.idFor members)])) := by
  rw [create, idFor, chosenFor]
  cases requestedId? members <;> rfl

theorem chosenFor_frame (store : MemoryStore) (members : Json.Members) :
    (store.chosenFor members).collections = store.collections ∧
      (store.chosenFor members).updates = store.updates := by
  unfold chosenFor
  split <;> exact ⟨rfl, rfl⟩

/-- A record without an identifier is taken under the next one, unless that is in use. -/
theorem create_anonymous {data : Json} (hrecord : data.IsRecord) (hid : data.get? "id" = none) :
    store.create collection data =
      if (store.records collection).any (hasId store.issue.1) then
        (.error (.malformed collection ("id " ++ store.issue.1 ++ " is already taken")),
          store.issue.2)
      else
        (.ok (data.withId store.issue.1), store.issue.2.setRecords collection
          (store.records collection ++ [data.withId store.issue.1])) := by
  obtain ⟨members, rfl, -⟩ := hrecord
  have hrequested : requestedId? members = none := by
    rw [requestedId?, show Json.lookup "id" members = none from hid]
  rw [create_object, idFor, chosenFor, hrequested]
  rfl

/-- A record without an identifier takes one from the supply, kept or not. -/
theorem issued_create_anonymous {data : Json} (hrecord : data.IsRecord)
    (hid : data.get? "id" = none) :
    (store.create collection data).2.issued = store.issued + 1 := by
  rw [create_anonymous hrecord hid]
  split <;> rfl

/-- All that a creation can do: it is refused and changes no collection, or an object is added under
an identifier that was not in use. -/
theorem create_cases (store : MemoryStore) (collection : String) (data : Json) :
    ((∃ e, (store.create collection data).1 = .error e) ∧
        (store.create collection data).2.collections = store.collections ∧
        (store.create collection data).2.updates = store.updates) ∨
      ∃ members, data = .object members ∧
        (∀ x ∈ store.records collection, hasId (store.idFor members) x = false) ∧
        (store.create collection data).1 = .ok (data.withId (store.idFor members)) ∧
        (∀ other, (store.create collection data).2.records other =
          if collection = other then
            store.records collection ++ [data.withId (store.idFor members)]
          else store.records other) ∧
        (store.create collection data).2.updates = store.updates := by
  cases data with
  | object members =>
      obtain ⟨hcollections, hupdates⟩ := store.chosenFor_frame members
      rw [create_object]
      cases hused : (store.records collection).any (hasId (store.idFor members)) with
      | true => exact Or.inl ⟨⟨_, rfl⟩, hcollections, hupdates⟩
      | false =>
          refine Or.inr ⟨members, rfl, ?_, rfl, ?_, hupdates⟩
          · intro x hx
            simpa using List.any_eq_false.mp hused x hx
          · intro other
            rw [if_neg Bool.false_ne_true, records_setRecords]
            unfold records
            rw [hcollections]
  | _ => exact Or.inl ⟨⟨_, rfl⟩, rfl, rfl⟩

/-! ## Changing -/

theorem changeFirst_append {change : Json → Json} {before after : List Json} {record : Json}
    (hbefore : ∀ x ∈ before, hasId id x = false) (hrecord : hasId id record = true) :
    changeFirst id change (before ++ record :: after) = before ++ change record :: after := by
  induction before with
  | nil =>
      rw [List.nil_append, changeFirst, if_pos hrecord]
      rfl
  | cons x rest ih =>
      obtain ⟨hx, hrest⟩ := List.forall_mem_cons.mp hbefore
      rw [List.cons_append, changeFirst, if_neg (by simp [hx]), ih hrest]
      rfl

theorem find?_append {before after : List Json} {record : Json}
    (hbefore : ∀ x ∈ before, hasId id x = false) (hrecord : hasId id record = true) :
    (before ++ record :: after).find? (hasId id) = some record := by
  refine List.find?_eq_some_iff_append.mpr ⟨hrecord, before, after, rfl, ?_⟩
  intro x hx
  rw [hbefore x hx]
  rfl

theorem update_of_unknown {patch : Json.Members}
    (h : ∀ x ∈ store.records collection, hasId id x = false) :
    store.update collection id (.object patch) = (.error (.notFound collection id), store) := by
  have hnone : (store.records collection).find? (hasId id) = none := by
    refine List.find?_eq_none.mpr ?_
    intro x hx
    rw [h x hx]
    exact Bool.false_ne_true
  rw [update, hnone]

/-- A patch is laid over the record of its identifier; nothing else changes but the count. -/
theorem update_of_split {members : Json.Members} {before after : List Json} {record : Json}
    (h : store.records collection = before ++ record :: after)
    (hbefore : ∀ x ∈ before, hasId id x = false) (hrecord : hasId id record = true) :
    store.update collection id (.object members) =
      (.ok (overlay members record),
        { store.setRecords collection (before ++ overlay members record :: after) with
          updates := setValue collection (store.updateCount collection + 1) store.updates }) := by
  rw [update, h, find?_append hbefore hrecord]
  simp only [changeFirst_append hbefore hrecord]
  rfl

/-- All that a change can do: it is refused and changes nothing, or a patch is laid over the first
record of the identifier. -/
theorem update_cases (store : MemoryStore) (collection id : String) (data : Json) :
    ((∃ e, (store.update collection id data).1 = .error e) ∧
        (store.update collection id data).2 = store) ∨
      ∃ patch before record after, data = .object patch ∧
        store.records collection = before ++ record :: after ∧
        (∀ x ∈ before, hasId id x = false) ∧ hasId id record = true ∧
        (store.update collection id data).1 = .ok (overlay patch record) ∧
        (∀ other, (store.update collection id data).2.records other =
          if collection = other then before ++ overlay patch record :: after
          else store.records other) ∧
        ∀ other, (store.update collection id data).2.updateCount other =
          if collection = other then store.updateCount collection + 1
          else store.updateCount other := by
  cases data with
  | object patch =>
      cases h : (store.records collection).find? (hasId id) with
      | none =>
          have hunknown : ∀ x ∈ store.records collection, hasId id x = false := by
            intro x hx
            simpa using List.find?_eq_none.mp h x hx
          rw [update_of_unknown hunknown]
          exact Or.inl ⟨⟨_, rfl⟩, rfl⟩
      | some record =>
          obtain ⟨hrecord, before, after, hsplit, hbefore⟩ := List.find?_eq_some_iff_append.mp h
          have hbefore' : ∀ x ∈ before, hasId id x = false := by
            intro x hx
            simpa using hbefore x hx
          refine Or.inr ⟨patch, before, record, after, rfl, hsplit, hbefore', hrecord, ?_⟩
          rw [update_of_split hsplit hbefore' hrecord]
          refine ⟨rfl, fun other => records_setRecords store collection other _, ?_⟩
          intro other
          show (valueOf other (setValue collection _ store.updates)).getD 0 = _
          rw [valueOf_setValue]
          split <;> rfl
  | _ => exact Or.inl ⟨⟨_, rfl⟩, rfl⟩

/-! ## Patches -/

/-- A patch changes what its members stand for, the last one of a name, except the identifier. -/
theorem get?_overlay_last (patch members : Json.Members) (key : String) :
    (overlay patch (.object members)).get? key =
      if key = "id" then Json.lookup key members
      else (Json.lookup key patch.reverse).or (Json.lookup key members) := by
  show Json.lookup key (List.foldl _ members patch) = _
  induction patch generalizing members with
  | nil => simp [Json.lookup]
  | cons member rest ih =>
      obtain ⟨name, value⟩ := member
      rw [List.foldl_cons, ih, List.reverse_cons, Json.lookup_append, Option.or_assoc]
      by_cases hname : name = "id"
      · by_cases hkey : key = "id"
        · simp [hname, hkey]
        · simp [hname, hkey, Json.lookup, Ne.symm hkey]
      · by_cases hkey : key = "id"
        · simp [hname, hkey, Json.lookup_insert]
        · by_cases heq : name = key <;> simp [hname, hkey, heq, Json.lookup, Json.lookup_insert]

theorem get?_overlay {patch members : Json.Members} (hpatch : Json.Sorted patch) (key : String) :
    (overlay patch (.object members)).get? key =
      if key = "id" then Json.lookup key members
      else (Json.lookup key patch).or (Json.lookup key members) := by
  rw [get?_overlay_last, Json.lookup_reverse hpatch.nodup]

theorem isRecord_overlay {patch : Json.Members} {record : Json} (h : record.IsRecord) :
    (overlay patch record).IsRecord := by
  obtain ⟨members, rfl, hsorted⟩ := h
  refine ⟨_, rfl, ?_⟩
  induction patch generalizing members with
  | nil => exact hsorted
  | cons member rest ih =>
      rw [List.foldl_cons]
      refine ih _ ?_
      show Json.Sorted (if member.1 = "id" then members else Json.insert member.1 member.2 members)
      split
      · exact hsorted
      · exact hsorted.insert _ _

end MemoryStore

end FlowEngine
