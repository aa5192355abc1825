import FlowEngine.Json.Record
import FlowEngine.Proofs.Json.Members
/-!
# `FlowEngine.Proofs.Json.Reading` — reading records out of values

A record is read by filling places, one for each field, as its members come by.  Out of an object in
which no name stands twice that is the same as looking every field up (`fields?_ofMembers`), so the
places can be forgotten.

A field may hold any value.  A value is read as itself if the members of all the objects in it stand
in order (`Tidy`), as they do in whatever has been read or built by `insert`.
-/

namespace FlowEngine

namespace Document

/-! ## Places -/

theorem fillField_map {names : List String} (hnames : names.Nodup) {name : String} {d : Document}
    {place : String → Option Document} (hplace : place name = none) :
    fillField name d (names.map fun n => [n]) (names.map place) =
      some (names.map fun n => if n = name then some d else place n) := by
  induction names with
  | nil => rfl
  | cons n rest ih =>
      obtain ⟨hnotin, hrest⟩ := List.nodup_cons.mp hnames
      simp only [List.map_cons, fillField]
      by_cases hn : n = name
      · subst hn
        have hothers : rest.map (fun m => if m = n then some d else place m) = rest.map place := by
          refine List.map_congr_left ?_
          intro m hm
          have hne : m ≠ n := fun heq => hnotin (heq ▸ hm)
          exact if_neg hne
        rw [if_pos (by simp), if_pos rfl, hplace, hothers]
      · rw [if_neg (by simpa using Ne.symm hn), if_neg hn, ih hrest]
        rfl

theorem fillFields_ofMembers {names : List String} (hnames : names.Nodup) {members : Json.Members}
    (hmembers : (members.map Prod.fst).Nodup) (place : String → Option Document)
    (hplace : ∀ name ∈ members.map Prod.fst, place name = none) :
    fillFields (names.map fun n => [n]) (ofMembers members) (names.map place) =
      some (names.map fun n => (place n).or ((Json.lookup n members).map ofJson)) := by
  induction members generalizing place with
  | nil =>
      rw [ofMembers, fillFields]
      simp [Json.lookup]
  | cons member rest ih =>
      obtain ⟨name, value⟩ := member
      obtain ⟨hnotin, hrest⟩ := List.nodup_cons.mp hmembers
      obtain ⟨hname, hlater⟩ := List.forall_mem_cons.mp hplace
      rw [ofMembers, fillFields, fillField_map hnames hname]
      show fillFields _ _ (names.map fun n => if n = name then some (ofJson value) else place n) = _
      rw [ih hrest (fun n => if n = name then some (ofJson value) else place n)]
      · congr 1
        refine List.map_congr_left ?_
        intro n _
        by_cases hn : n = name
        · subst hn
          simp [Json.lookup, hname]
        · simp [Json.lookup, hn, Ne.symm hn]
      · intro n hn
        have hne : n ≠ name := fun heq => hnotin (heq ▸ hn)
        rw [if_neg hne, hlater n hn]

/-- The fields of an object in which no name stands twice are what is looked up in it. -/
theorem fields?_ofMembers {names : List String} (hnames : names.Nodup) {members : Json.Members}
    (hmembers : (members.map Prod.fst).Nodup) :
    (ofJson (.object members)).fields? (names.map fun n => [n]) =
      some (names.map fun n => (Json.lookup n members).map ofJson) := by
  rw [ofJson, fields?, List.map_map]
  exact fillFields_ofMembers hnames hmembers (fun _ => none) fun _ _ => rfl

end Document

/-! ## Values -/

namespace Json

mutual

/-- The members of every object in the value stand in order. -/
def Tidy : Json → Prop
  | .array items => TidyItems items
  | .object members => Sorted members ∧ TidyMembers members
  | _ => True

def TidyItems : List Json → Prop
  | [] => True
  | x :: xs => Tidy x ∧ TidyItems xs

def TidyMembers : Members → Prop
  | [] => True
  | (_, x) :: xs => Tidy x ∧ TidyMembers xs

end

end Json

namespace Document

mutual

/-- Every value can be read, and one that is in order is read as itself. -/
theorem value?_ofJson (v : Json) : ∃ w, value? (ofJson v) = some w ∧ (v.Tidy → w = v) := by
  match v with
  | .null => exact ⟨_, rfl, fun _ => rfl⟩
  | .bool b => exact ⟨_, rfl, fun _ => rfl⟩
  | .number n => exact ⟨_, rfl, fun _ => rfl⟩
  | .string s => exact ⟨_, rfl, fun _ => rfl⟩
  | .array items =>
      obtain ⟨ws, hws, hself⟩ := values?_ofItems items
      refine ⟨.array ws, ?_, fun htidy => ?_⟩
      · rw [ofJson, value?, hws]
        rfl
      · rw [hself htidy]
  | .object members =>
      obtain ⟨ms, hms, hself⟩ := memberValues?_ofMembers members
      refine ⟨.record ms, ?_, ?_⟩
      · rw [ofJson, value?, hms]
        rfl
      · rintro ⟨hsorted, htidy⟩
        rw [hself htidy, Json.record, Json.ordered_of_sorted hsorted]

theorem values?_ofItems (items : List Json) :
    ∃ ws, values? (ofItems items) = some ws ∧ (Json.TidyItems items → ws = items) := by
  match items with
  | [] => exact ⟨[], rfl, fun _ => rfl⟩
  | x :: xs =>
      obtain ⟨w, hw, hself⟩ := value?_ofJson x
      obtain ⟨ws, hws, hselves⟩ := values?_ofItems xs
      refine ⟨w :: ws, ?_, ?_⟩
      · rw [ofItems, values?, hw, hws]
      · rintro ⟨hx, hxs⟩
        rw [hself hx, hselves hxs]

theorem memberValues?_ofMembers (members : Json.Members) :
    ∃ ms, memberValues? (ofMembers members) = some ms ∧
      (Json.TidyMembers members → ms = members) := by
  match members with
  | [] => exact ⟨[], rfl, fun _ => rfl⟩
  | (name, x) :: xs =>
      obtain ⟨w, hw, hself⟩ := value?_ofJson x
      obtain ⟨ms, hms, hselves⟩ := memberValues?_ofMembers xs
      refine ⟨(name, w) :: ms, ?_, ?_⟩
      · simp only [ofMembers, memberValues?, hw, hms]
      · rintro ⟨hx, hxs⟩
        rw [hself hx, hselves hxs]

end

/-- A value that may be absent can be read; one that is in order and not null is read as itself. -/
theorem optional_value?_ofJson (v : Option Json) :
    ∃ w, optional value? (v.map ofJson) = some w ∧
      ((∀ x ∈ v, x.Tidy ∧ x ≠ .null) → w = v) := by
  cases v with
  | none => exact ⟨none, rfl, fun _ => rfl⟩
  | some x =>
      obtain ⟨y, hy, hself⟩ := value?_ofJson x
      rw [Option.map_some, optional]
      by_cases hnull : (ofJson x).isNull = true
      · refine ⟨none, if_pos hnull, fun h => ?_⟩
        -- Only the document of null is null.
        refine absurd ?_ (h x rfl).2
        cases x <;> first | rfl | exact absurd hnull (by simp [ofJson, isNull])
      · refine ⟨some y, ?_, fun h => congrArg some (hself (h x rfl).1)⟩
        rw [if_neg hnull, hy]
        rfl

/-- A text that may be absent can be read, and is read as itself unless it is empty. -/
theorem settable_text?_ofJson (s : Option String) :
    ∃ t, settable text? ((s.map Json.string).map ofJson) = some t ∧ (s ≠ some "" → t = s) := by
  cases s with
  | none => exact ⟨none, rfl, fun _ => rfl⟩
  | some text =>
      have hsettable : settable text? (((some text).map Json.string).map ofJson) =
          if text.isEmpty then some none else some (some text) := rfl
      rw [hsettable]
      split
      · next hempty =>
          exact ⟨none, rfl, fun h => absurd (congrArg some (String.isEmpty_iff.mp hempty)) h⟩
      · exact ⟨some text, rfl, fun _ => rfl⟩

end Document

end FlowEngine
