import FlowEngine.Proofs.Condition.Filter
import FlowEngine.Proofs.Store.Order
import FlowEngine.Proofs.Store.Served
/-!
# `FlowEngine.Proofs.Store.Kept` — collections as lists of values

Whoever keeps values in a collection writes a record for each, patches it, and reads it back.
`Lists` says that a collection holds the records of some values and no others, in the order of their
creation; the calls on the store are told as what they do to that list.  Nothing is assumed of the
identifiers: where two values have the same, a patch goes to the first.

What the values are, and how they are written, is a parameter.
-/

namespace FlowEngine

/-- How values are kept: each as a record under its identifier. -/
structure Keeping (α : Type) where
  stored : α → Json
  id : α → String
  hasId_stored : ∀ a name, MemoryStore.hasId name (stored a) = (id a == name)

namespace MemoryStore

variable {α : Type} {keeping : Keeping α} {store : MemoryStore} {collection : String}
  {items : List α}

/-- The collection holds the records of these values, in this order. -/
def Lists (store : MemoryStore) (keeping : Keeping α) (collection : String) (items : List α) :
    Prop := store.records collection = items.map keeping.stored

/-! ## Calls that write -/

theorem Lists.hasId_eq_false {name : String} (h : ∀ a ∈ items, keeping.id a ≠ name) :
    ∀ x ∈ items.map keeping.stored, hasId name x = false := by
  intro x hx
  obtain ⟨a, ha, rfl⟩ := List.mem_map.mp hx
  rw [keeping.hasId_stored]
  simpa using h a ha

/-- A value without an identifier is kept behind the others under the next one; while that is in
use, nothing is changed. -/
theorem Lists.create (h : store.Lists keeping collection items) {data : Json}
    (hrecord : data.IsRecord) (hid : data.get? "id" = none) {a : α}
    (ha : data.withId store.issue.1 = keeping.stored a) :
    (∃ b ∈ items, keeping.id b = store.issue.1) ∧
        (store.create collection data).2.Lists keeping collection items ∨
      (store.create collection data).1 = .ok (keeping.stored a) ∧
        (store.create collection data).2.Lists keeping collection (items ++ [a]) := by
  by_cases hused : ∃ b ∈ items, keeping.id b = store.issue.1
  · refine Or.inl ⟨hused, ?_⟩
    rw [create_anonymous hrecord hid]
    split
    · exact h
    · next hfree =>
        obtain ⟨b, hb, heq⟩ := hused
        refine absurd (List.any_eq_true.mpr ⟨keeping.stored b, ?_, ?_⟩) hfree
        · rw [h]
          exact List.mem_map_of_mem hb
        · rw [keeping.hasId_stored]
          simpa using heq
  · have hfree : ¬ (store.records collection).any (hasId store.issue.1) = true := by
      rw [h, List.any_eq_true]
      rintro ⟨x, hx, htaken⟩
      rw [Lists.hasId_eq_false (fun b hb heq => hused ⟨b, hb, heq⟩) x hx] at htaken
      cases htaken
    rw [create_anonymous hrecord hid, if_neg hfree, ha]
    refine Or.inr ⟨rfl, ?_⟩
    show records (setRecords _ _ _) _ = _
    rw [records_setRecords, if_pos rfl, h, List.map_append, List.map_singleton]

/-- A value is kept behind the others under the identifier that it asks for or the next one, unless
that is in use; then nothing is changed. -/
theorem Lists.create_under (h : store.Lists keeping collection items) {members : Json.Members}
    {a : α} (ha : (Json.object members).withId (store.idFor members) = keeping.stored a)
    (hid : keeping.id a = store.idFor members) :
    (∃ e, (store.create collection (.object members)).1 = .error e) ∧
        (store.create collection (.object members)).2.Lists keeping collection items ∨
      (∀ b ∈ items, keeping.id b ≠ keeping.id a) ∧
        (store.create collection (.object members)).1 = .ok (keeping.stored a) ∧
        (store.create collection (.object members)).2.Lists keeping collection (items ++ [a]) := by
  rcases store.create_cases collection (.object members) with
    ⟨hrefused, hcollections, -⟩ | ⟨_, hmembers, hfree, hcreated, hrecords, -⟩
  · refine Or.inl ⟨hrefused, ?_⟩
    show records _ _ = _
    unfold records
    rw [hcollections]
    exact h
  · obtain rfl := Json.object.inj hmembers
    rw [h] at hfree
    refine Or.inr ⟨?_, hcreated.trans (congrArg Except.ok ha), ?_⟩
    · intro b hb heq
      have hb' := hfree _ (List.mem_map_of_mem hb)
      rw [keeping.hasId_stored, heq, hid, beq_self_eq_true] at hb'
      cases hb'
    · show records _ _ = _
      rw [hrecords, if_pos rfl, h, ha, List.map_append, List.map_singleton]

theorem Lists.update_at {before after : List α} {a b : α} {patch : Json.Members} {name : String}
    (h : store.Lists keeping collection (before ++ a :: after))
    (hbefore : ∀ x ∈ before, keeping.id x ≠ name) (ha : keeping.id a = name)
    (hb : overlay patch (keeping.stored a) = keeping.stored b) :
    (store.update collection name (.object patch)).1 = .ok (keeping.stored b) ∧
      (store.update collection name (.object patch)).2.Lists keeping collection
        (before ++ b :: after) := by
  have hrecords : store.records collection =
      before.map keeping.stored ++ keeping.stored a :: after.map keeping.stored := by
    rw [h, List.map_append, List.map_cons]
  have hname : hasId name (keeping.stored a) = true := by
    rw [keeping.hasId_stored]
    simpa using ha
  rw [update_of_split hrecords (Lists.hasId_eq_false hbefore) hname, hb]
  refine ⟨rfl, ?_⟩
  show records (setRecords _ _ _) _ = _
  rw [records_setRecords, if_pos rfl, List.map_append, List.map_cons]

/-- The first value of an identifier stands behind values of other identifiers, if there is one. -/
theorem exists_first (keeping : Keeping α) (items : List α) (name : String) :
    (∀ a ∈ items, keeping.id a ≠ name) ∨ ∃ before a after, items = before ++ a :: after ∧
      (∀ x ∈ before, keeping.id x ≠ name) ∧ keeping.id a = name := by
  cases h : items.find? (fun a => keeping.id a == name) with
  | none => exact Or.inl fun a ha => by simpa using List.find?_eq_none.mp h a ha
  | some a =>
      obtain ⟨ha, before, after, heq, hbefore⟩ := List.find?_eq_some_iff_append.mp h
      exact Or.inr ⟨before, a, after, heq, fun x hx => by simpa using hbefore x hx,
        by simpa using ha⟩

theorem Lists.update_absent (h : store.Lists keeping collection items) {name : String}
    (hnone : ∀ a ∈ items, keeping.id a ≠ name) (patch : Json.Members) :
    (store.update collection name (.object patch)).2 = store := by
  have hunknown : ∀ x ∈ store.records collection, hasId name x = false := by
    rw [h]
    exact Lists.hasId_eq_false hnone
  rw [update_of_unknown hunknown]

/-! ## Calls that read -/

theorem Lists.getOne_eq (h : store.Lists keeping collection items) (name : String) :
    store.getOne collection name {} =
      match items.find? fun a => keeping.id a == name with
      | some a => .ok (keeping.stored a)
      | none => .error (.notFound collection name) := by
  have hfind : (store.records collection).find? (hasId name) =
      (items.find? fun a => keeping.id a == name).map keeping.stored := by
    rw [h, List.find?_map]
    refine congrArg (Option.map keeping.stored) (congrArg (fun p => items.find? p) ?_)
    funext a
    exact keeping.hasId_stored a name
  rw [getOne, hfind]
  cases items.find? fun a => keeping.id a == name <;> rfl

theorem Lists.getOne_at {before after : List α} {a : α} {name : String}
    (h : store.Lists keeping collection (before ++ a :: after))
    (hbefore : ∀ x ∈ before, keeping.id x ≠ name) (ha : keeping.id a = name) :
    store.getOne collection name {} = .ok (keeping.stored a) := by
  have hname : hasId name (keeping.stored a) = true := by
    rw [keeping.hasId_stored]
    simpa using ha
  rw [getOne, h, List.map_append, List.map_cons, find?_append (Lists.hasId_eq_false hbefore) hname]
  rfl

theorem pageOf_one (limit : UInt32) (records : List Json) :
    pageOf limit 1 records = records.take (max limit.toNat 1) := by
  have hskipped : max (1 : UInt32).toNat 1 - 1 = 0 := by decide
  rw [pageOf, hskipped, Nat.zero_mul, List.drop_zero]

theorem condition_equals {field value : String} (hfield : Condition.IsField field)
    (hvalue : '"' ∉ value.toList) : condition (some (field ++ " = \"" ++ value ++ "\"")) =
      .ok (some (.compare .eq (.path [field]) (.text value))) := by
  rw [condition, Option.bind_some, Condition.nonBlank?_equals hfield]
  simp only [Condition.parse_equals hfield hvalue]

/-- The records with a text in a field are those of the values that have the text there. -/
theorem Lists.filter_equals (h : store.Lists keeping collection items) {field : String}
    (value : String) {text : α → String}
    (htext : ∀ a ∈ items, (keeping.stored a).get? field = some (.string (text a))) :
    (store.records collection).filter
        (fun r => (Condition.Expr.compare .eq (.path [field]) (.text value)).holds r) =
      (items.filter fun a => text a == value).map keeping.stored := by
  rw [h, List.filter_map]
  refine congrArg (List.map keeping.stored) (List.filter_congr ?_)
  intro a ha
  exact Condition.holds_equals (htext a ha)

/-- The query for the values with a text in a field: they are selected by that text, sorted, and the
first of them make up the page. -/
theorem Lists.list_equals (h : store.Lists keeping collection items) {field value : String}
    (sort : String) (hfield : Condition.IsField field) (hvalue : '"' ∉ value.toList)
    {text : α → String}
    (htext : ∀ a ∈ items, (keeping.stored a).get? field = some (.string (text a)))
    (limit : UInt32) :
    store.list collection
        { filter := some (field ++ " = \"" ++ value ++ "\""), sort := some sort, limit } =
      .ok ⟨((store.sorting.sort (Store.sortKeys sort)
          ((items.filter fun a => text a == value).map keeping.stored)).take
            (max limit.toNat 1)), (items.filter fun a => text a == value).length⟩ := by
  have hmatching := h.filter_equals value htext
  have hlength : (store.sorting.sort (Store.sortKeys sort)
      ((items.filter fun a => text a == value).map keeping.stored)).length =
        (items.filter fun a => text a == value).length := by
    rw [(store.sorting.perm _ _).length_eq, List.length_map]
  have hproject : ∀ records : List Json, records.map (project none) = records :=
    fun records => List.map_id records
  rw [list, condition_equals hfield hvalue]
  simp only [select, Option.map_some, Option.getD_some, hmatching, hlength, hproject, pageOf_one]

end MemoryStore

end FlowEngine
