import FlowEngine.Proofs.Json.Finding
import FlowEngine.Proofs.Json.Numeral
import FlowEngine.Proofs.Json.Reading
/-!
# `FlowEngine.Proofs.Json.Tidy` — whatever is read stands in order

A text may write the members of an object in any order and more than once.  The document that it is
keeps them so, but the value of the document does not, and neither does the value of any part of it:
it is made by `record`.  All there is to know of the reader for this is that the literals that it
makes hold no members at all.
-/

namespace FlowEngine

/-! ## Values -/

namespace Json

theorem TidyMembers.insert {members : Members} (h : TidyMembers members) {name : String}
    {value : Json} (hvalue : value.Tidy) : TidyMembers (insert name value members) := by
  induction members with
  | nil => exact ⟨hvalue, trivial⟩
  | cons member rest ih =>
      obtain ⟨key, old⟩ := member
      unfold Json.insert
      split
      · exact ⟨hvalue, h.2⟩
      · split
        · exact ⟨hvalue, h⟩
        · exact ⟨h.1, ih h.2⟩

theorem TidyMembers.ordered {members : Members} (h : TidyMembers members) :
    TidyMembers (ordered members) := by
  have hfold : ∀ kept : Members, TidyMembers kept →
      TidyMembers (members.foldl (fun kept member => Json.insert member.1 member.2 kept) kept) := by
    induction members with
    | nil => exact fun _ hkept => hkept
    | cons member rest ih => exact fun kept hkept => ih h.2 _ (hkept.insert h.1)
  exact hfold [] trivial

theorem TidyMembers.tidy_record {members : Members} (h : TidyMembers members) :
    (record members).Tidy := ⟨sorted_ordered members, h.ordered⟩

end Json

/-! ## Documents -/

namespace Document

/-- The values that the literals of the document stand for are in order. -/
inductive Tidy : Document → Prop where
  | literal {value : Option Json} : (∀ v ∈ value, v.Tidy) → Tidy (.literal value)
  | array {items : List Document} : (∀ d ∈ items, Tidy d) → Tidy (.array items)
  | object {members : List (Option String × Document)} : (∀ m ∈ members, Tidy m.2) →
      Tidy (.object members)

mutual

theorem Tidy.value? {d : Document} (h : d.Tidy) {v : Json} (hv : d.value? = some v) : v.Tidy := by
  match d, h with
  | .literal value, .literal hvalue => exact hvalue v hv
  | .array items, .array hitems =>
      obtain ⟨vs, hvs, rfl⟩ := Option.map_eq_some_iff.mp hv
      exact tidyItems_of_values? hitems hvs
  | .object members, .object hmembers =>
      obtain ⟨vs, hvs, rfl⟩ := Option.map_eq_some_iff.mp hv
      exact (tidyMembers_of_memberValues? hmembers hvs).tidy_record

theorem tidyItems_of_values? {ds : List Document} (h : ∀ d ∈ ds, d.Tidy) {vs : List Json}
    (hvs : values? ds = some vs) : Json.TidyItems vs := by
  match ds with
  | [] =>
      obtain rfl := Option.some.inj hvs
      trivial
  | d :: rest =>
      obtain ⟨hd, hrest⟩ := List.forall_mem_cons.mp h
      rw [values?] at hvs
      split at hvs
      · next v vs' hv hvs' =>
          obtain rfl := Option.some.inj hvs
          exact ⟨hd.value? hv, tidyItems_of_values? hrest hvs'⟩
      · cases hvs

theorem tidyMembers_of_memberValues? {ms : List (Option String × Document)}
    (h : ∀ m ∈ ms, m.2.Tidy) {vs : Json.Members} (hvs : memberValues? ms = some vs) :
    Json.TidyMembers vs := by
  match ms with
  | [] =>
      obtain rfl := Option.some.inj hvs
      trivial
  | (name, d) :: rest =>
      obtain ⟨hd, hrest⟩ := List.forall_mem_cons.mp h
      unfold memberValues? at hvs
      split at hvs
      · next n v vs' hv hvs' =>
          obtain rfl := Option.some.inj hvs
          exact ⟨Tidy.value? hd hv, tidyMembers_of_memberValues? hrest hvs'⟩
      · cases hvs

end

/-! ## What the reader makes -/

theorem tidy_literal_text (s : Option String) : (literal (s.map Json.string)).Tidy := by
  refine .literal ?_
  intro v hv
  obtain ⟨text, -, rfl⟩ := Option.map_eq_some_iff.mp hv
  trivial

theorem Tidy.within {d : Document} (h : d.Tidy) (room : Nat) : (within room d).Tidy := by
  unfold Document.within
  split
  · exact .literal fun v hv => absurd hv (by simp)
  · exact h

theorem tidy_of_readNumber? {negative : Bool} {cs rest : List Char} {d : Document}
    (h : readNumber? negative cs = some (d, rest)) : d.Tidy := by
  obtain ⟨n, rfl⟩ := literal_of_readNumber? h
  refine .literal ?_
  intro v hv
  obtain ⟨m, -, rfl⟩ := Option.map_eq_some_iff.mp hv
  trivial

/-- With this fuel, whatever is read is in order, if what has been read before is. -/
structure ReadsTidy (fuel : Nat) : Prop where
  value : ∀ {room cs d rest}, readValue? fuel room cs = some (d, rest) → d.Tidy
  items : ∀ {room read cs d rest}, (∀ x ∈ read, x.Tidy) →
    readItems? fuel room read cs = some (d, rest) → d.Tidy
  members : ∀ {room read cs d rest}, (∀ m ∈ read, m.2.Tidy) →
    readMembers? fuel room read cs = some (d, rest) → d.Tidy

theorem tidy_of_mem_words {word : String} {v : Json} (h : (word, v) ∈ words) : v.Tidy := by
  simp only [words, List.mem_cons, Prod.mk.injEq, List.not_mem_nil, or_false] at h
  rcases h with ⟨-, rfl⟩ | ⟨-, rfl⟩ | ⟨-, rfl⟩ <;> trivial

theorem ReadsTidy.value_succ {fuel : Nat} (ih : ReadsTidy fuel) {room : Nat}
    {cs rest : List Char} {d : Document} (h : readValue? (fuel + 1) room cs = some (d, rest)) :
    d.Tidy := by
  cases found_of_readValue? h with
  | number _ hnumber => exact tidy_of_readNumber? hnumber
  | word hmem _ hd =>
      subst hd
      exact .literal fun v hv => Option.mem_some_iff.mp hv ▸ tidy_of_mem_words hmem
  | text _ _ hd =>
      subst hd
      exact tidy_literal_text _
  | emptyArray _ _ hd =>
      subst hd
      exact Tidy.within (.array (List.forall_mem_nil _)) room
  | array _ hinside => exact ih.items (List.forall_mem_nil _) hinside
  | emptyObject _ _ hd =>
      subst hd
      exact Tidy.within (.object (List.forall_mem_nil _)) room
  | object _ hinside => exact ih.members (List.forall_mem_nil _) hinside

theorem ReadsTidy.items_succ {fuel : Nat} (ih : ReadsTidy fuel) {room : Nat}
    {read : List Document} (hread : ∀ x ∈ read, x.Tidy) {cs rest : List Char} {d : Document}
    (h : readItems? (fuel + 1) room read cs = some (d, rest)) : d.Tidy := by
  cases foundItem_of_readItems? h with
  | item hitem _ hinside =>
      exact ih.items (List.forall_mem_cons.mpr ⟨ih.value hitem, hread⟩) hinside
  | last hitem _ hd =>
      subst hd
      have hread' := List.forall_mem_cons.mpr ⟨ih.value hitem, hread⟩
      exact Tidy.within (.array fun x hx => hread' x (List.mem_reverse.mp hx)) room

theorem ReadsTidy.members_succ {fuel : Nat} (ih : ReadsTidy fuel) {room : Nat}
    {read : List (Option String × Document)} (hread : ∀ m ∈ read, m.2.Tidy)
    {cs rest : List Char} {d : Document}
    (h : readMembers? (fuel + 1) room read cs = some (d, rest)) : d.Tidy := by
  cases foundMember_of_readMembers? h with
  | @member name item _ _ _ _ _ _ _ _ hitem _ hinside =>
      have hread' : ∀ m ∈ (name, item) :: read, m.2.Tidy :=
        List.forall_mem_cons.mpr ⟨ih.value hitem, hread⟩
      exact ih.members hread' hinside
  | @last name item _ _ _ _ _ _ _ hitem _ hd =>
      subst hd
      have hread' : ∀ m ∈ (name, item) :: read, m.2.Tidy :=
        List.forall_mem_cons.mpr ⟨ih.value hitem, hread⟩
      exact Tidy.within (.object fun m hm => hread' m (List.mem_reverse.mp hm)) room

theorem readsTidy (fuel : Nat) : ReadsTidy fuel := by
  induction fuel with
  | zero =>
      refine ⟨?_, ?_, ?_⟩
      · intro room cs d rest h
        simp [readValue?] at h
      · intro room read cs d rest _ h
        simp [readItems?] at h
      · intro room read cs d rest _ h
        simp [readMembers?] at h
  | succ fuel ih => exact ⟨fun h => ih.value_succ h, fun hread h => ih.items_succ hread h,
        fun hread h => ih.members_succ hread h⟩

theorem tidy_of_parse? {text : String} {d : Document} (h : parse? text = some d) : d.Tidy := by
  rw [parse?] at h
  split at h
  · next hread =>
      split at h
      · obtain rfl := Option.some.inj h
        exact (readsTidy _).value hread
      · cases h
  · cases h

end Document

end FlowEngine
