import FlowEngine.Json.Basic
/-!
# `FlowEngine.Proofs.Json.Members` — the members of an object as a finite map

`insert` is written for the order of the names, and is used for the map that it makes.  Both sides
are here: what is looked up behind an insertion (`lookup_insert`, which asks nothing of the
members), and that the order of the names is kept (`Sorted.insert`), so that no name stands twice.
-/

namespace FlowEngine

namespace Json

variable {name key : String} {value : Json} {members : Members}

theorem text?_eq_some_iff {s : String} : value.text? = some s ↔ value = .string s := by
  cases value <;> simp [text?]

theorem lookup_insert (name key : String) (value : Json) (members : Members) :
    lookup key (insert name value members) =
      if name = key then some value else lookup key members := by
  induction members with
  | nil => simp [insert, lookup]
  | cons member rest ih =>
      obtain ⟨head, old⟩ := member
      unfold insert
      split
      · next h =>
          subst h
          by_cases hk : name = key <;> simp [lookup, hk]
      · next h =>
          split
          · simp [lookup]
          · by_cases hk : head = key
            · subst hk
              simp [lookup, h]
            · simp [lookup, hk, ih]

theorem lookup_append (key : String) (members more : Members) :
    lookup key (members ++ more) = (lookup key members).or (lookup key more) := by
  induction members with
  | nil => rfl
  | cons member rest ih =>
      obtain ⟨head, value⟩ := member
      by_cases h : head = key <;> simp [lookup, h, ih]

theorem lookup_foldl_insert (key : String) (members kept : Members) :
    lookup key (members.foldl (fun kept (name, value) => insert name value kept) kept) =
      (lookup key members.reverse).or (lookup key kept) := by
  induction members generalizing kept with
  | nil => rfl
  | cons member rest ih =>
      obtain ⟨head, value⟩ := member
      rw [List.foldl_cons, ih, List.reverse_cons, lookup_append, lookup_insert, Option.or_assoc]
      by_cases h : head = key <;> simp [lookup, h]

theorem lookup_ordered (key : String) (members : Members) :
    lookup key (ordered members) = lookup key members.reverse := by
  rw [ordered, lookup_foldl_insert]
  exact Option.or_none

theorem get?_record (key : String) (members : Members) :
    (record members).get? key = lookup key members.reverse :=
  lookup_ordered key members

theorem lookup_eq_none_iff : lookup key members = none ↔ key ∉ members.map Prod.fst := by
  induction members with
  | nil => simp [lookup]
  | cons member rest ih =>
      obtain ⟨head, value⟩ := member
      by_cases h : head = key
      · simp [lookup, h]
      · simp [lookup, h, ih, Ne.symm h]

/-- Where no name stands twice, the first value of a name is the last one. -/
theorem lookup_reverse (h : (members.map Prod.fst).Nodup) (key : String) :
    lookup key members.reverse = lookup key members := by
  induction members with
  | nil => rfl
  | cons member rest ih =>
      obtain ⟨head, value⟩ := member
      obtain ⟨hhead, hrest⟩ := List.nodup_cons.mp h
      rw [List.reverse_cons, lookup_append, ih hrest, lookup, lookup, lookup]
      by_cases hk : head = key
      · subst hk
        rw [lookup_eq_none_iff.mpr hhead, if_pos rfl, Option.none_or]
      · rw [if_neg hk, if_neg hk, Option.or_none]

/-- The names stand in order, each once. -/
def Sorted (members : Members) : Prop := (members.map Prod.fst).Pairwise (· < ·)

instance (members : Members) : Decidable (Sorted members) :=
  inferInstanceAs (Decidable ((members.map Prod.fst).Pairwise (· < ·)))

theorem mem_names_insert (h : key ∈ (insert name value members).map Prod.fst) :
    key = name ∨ key ∈ members.map Prod.fst := by
  induction members with
  | nil => exact Or.inl (List.mem_singleton.mp h)
  | cons member rest ih =>
      obtain ⟨head, old⟩ := member
      unfold insert at h
      split at h
      · next hk => exact hk ▸ Or.inr h
      · split at h
        · exact List.mem_cons.mp h
        · rcases List.mem_cons.mp h with rfl | h
          · exact Or.inr List.mem_cons_self
          · exact (ih h).imp_right (List.mem_cons_of_mem _)

theorem Sorted.insert (h : Sorted members) (name : String) (value : Json) :
    Sorted (insert name value members) := by
  induction members with
  | nil => exact List.pairwise_singleton _ _
  | cons member rest ih =>
      obtain ⟨head, old⟩ := member
      obtain ⟨hhead, hrest⟩ := List.pairwise_cons.mp h
      unfold Json.insert
      split
      · next hk => exact hk ▸ h
      · next hk =>
          split
          · next hlt =>
              refine List.pairwise_cons.mpr ⟨?_, h⟩
              intro x hx
              rcases List.mem_cons.mp hx with rfl | hx
              · exact hlt
              · exact String.lt_trans hlt (hhead x hx)
          · next hlt =>
              -- The head stays the head: the new name is neither before it nor the same.
              refine List.pairwise_cons.mpr ⟨?_, ih hrest⟩
              intro x hx
              rcases mem_names_insert hx with rfl | hx
              · refine String.not_le.mp fun hle => hk ?_
                exact String.le_antisymm hle (String.not_lt.mp hlt)
              · exact hhead x hx

theorem sorted_ordered (members : Members) : Sorted (ordered members) := by
  have hfold : ∀ kept : Members, Sorted kept →
      Sorted (members.foldl (fun kept (name, value) => Json.insert name value kept) kept) := by
    induction members with
    | nil => exact fun _ h => h
    | cons member rest ih => exact fun kept h => ih _ (h.insert member.1 member.2)
  exact hfold [] List.Pairwise.nil

theorem Sorted.nodup (h : Sorted members) : (members.map Prod.fst).Nodup :=
  List.Pairwise.imp (fun hlt => String.ne_of_lt hlt) h

theorem Sorted.tail {member : String × Json} (h : Sorted (member :: members)) : Sorted members :=
  (List.pairwise_cons.mp h).2

theorem Sorted.lookup_eq_none {member : String × Json} (h : Sorted (member :: members))
    (hlt : key < member.1) : lookup key (member :: members) = none := by
  refine lookup_eq_none_iff.mpr ?_
  intro hmem
  rcases List.mem_cons.mp hmem with rfl | hmem
  · exact String.lt_irrefl _ hlt
  · exact String.lt_irrefl _ (String.lt_trans hlt ((List.pairwise_cons.mp h).1 _ hmem))

/-- In order, members are what is looked up in them. -/
theorem Sorted.ext {others : Members} (h : Sorted members) (h' : Sorted others)
    (hlookup : ∀ key, lookup key members = lookup key others) : members = others := by
  induction members generalizing others with
  | nil =>
      cases others with
      | nil => rfl
      | cons other rest' =>
          have hother := hlookup other.1
          simp [lookup] at hother
  | cons member rest ih =>
      cases others with
      | nil =>
          have hmember := hlookup member.1
          simp [lookup] at hmember
      | cons other rest' =>
          obtain ⟨name, value⟩ := member
          obtain ⟨name', value'⟩ := other
          -- Neither of the two first names may come before the other.
          have hname : name = name' := by
            refine String.le_antisymm (String.not_lt.mp fun hlt => ?_)
              (String.not_lt.mp fun hlt => ?_)
            · have hnone := (hlookup name').symm.trans (h.lookup_eq_none hlt)
              simp [lookup] at hnone
            · have hnone := (hlookup name).trans (h'.lookup_eq_none hlt)
              simp [lookup] at hnone
          subst hname
          have hvalue := hlookup name
          simp only [lookup, if_true, Option.some.injEq] at hvalue
          subst hvalue
          refine congrArg (List.cons _) (ih h.tail h'.tail ?_)
          intro key
          have hkey := hlookup key
          by_cases hk : name = key
          · subst hk
            rw [lookup_eq_none_iff.mpr (List.nodup_cons.mp h.nodup).1,
              lookup_eq_none_iff.mpr (List.nodup_cons.mp h'.nodup).1]
          · simpa [lookup, hk] using hkey

theorem ordered_of_sorted (h : Sorted members) : ordered members = members := by
  refine (sorted_ordered members).ext h fun key => ?_
  rw [lookup_ordered, lookup_reverse h.nodup]

/-! ## Records -/

/-- The value is an object whose members stand in order. -/
def IsRecord (value : Json) : Prop := ∃ members, value = .object members ∧ Sorted members

theorem isRecord_record (members : Members) : (record members).IsRecord :=
  ⟨_, rfl, sorted_ordered members⟩

theorem IsRecord.ext {x y : Json} (hx : x.IsRecord) (hy : y.IsRecord)
    (h : ∀ key, x.get? key = y.get? key) : x = y := by
  obtain ⟨members, rfl, hsorted⟩ := hx
  obtain ⟨others, rfl, hsorted'⟩ := hy
  exact congrArg Json.object (hsorted.ext hsorted' h)

end Json

end FlowEngine
