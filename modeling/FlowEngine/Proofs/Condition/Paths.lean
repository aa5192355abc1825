import FlowEngine.Condition.Eval
import FlowEngine.Proofs.Condition.Filter
import FlowEngine.Template
/-!
# `FlowEngine.Proofs.Condition.Paths` — one path, read by a template and by a condition

A template and a condition each walk into the data on their own: a template gives up where a segment
leads nowhere, a condition reads null there.  Wherever the template arrives, the condition arrives
at the same value, also at a member that happens to be called `length`.

There is one path that leads a condition somewhere and a template nowhere: `length` as the last
segment behind an array or a text, which is not a member of either.  `Measures` says that a path is
of this kind, and everywhere else a condition reads null (`resolve_of_walk?_eq_none`).
-/

namespace FlowEngine

/-! ## Segments joined by dots -/

namespace Text

/-- A text that is joined of parts without the separator is cut into these parts again. -/
theorem splitAt_intercalate {sep : Char} {first : String} {rest : List String}
    (h : ∀ part ∈ first :: rest, sep ∉ part.toList) :
    splitAt sep (String.intercalate (String.singleton sep) (first :: rest)) = first :: rest := by
  induction rest generalizing first with
  | nil =>
      rw [String.intercalate_singleton]
      exact splitAt_of_not_mem (h first List.mem_cons_self)
  | cons second rest ih =>
      obtain ⟨hfirst, hrest⟩ := List.forall_mem_cons.mp h
      have hchars : (String.intercalate (String.singleton sep) (first :: second :: rest)).toList =
          first.toList ++
            sep :: (String.intercalate (String.singleton sep) (second :: rest)).toList := by
        rw [String.intercalate_cons_cons, String.toList_append, String.toList_append,
          String.toList_singleton, List.append_assoc]
        rfl
      rw [splitAt, hchars, pieces_append_cons, pieces_of_not_mem hfirst, List.singleton_append,
        List.map_cons, String.ofList_toList]
      exact congrArg (first :: ·) (ih hrest)

end Text

namespace Condition

open Template (walk? resolve? rootName)

variable {data current value : Json} {segments : List String} {n : Nat}

/-! ## Two walks -/

/-- Wherever a template arrives, a condition arrives at the same value. -/
theorem resolve_of_walk? (h : walk? current segments = some value) :
    resolve current segments = value := by
  induction segments generalizing current with
  | nil => exact Option.some.inj h
  | cons segment rest ih =>
      obtain ⟨next, hnext, hrest⟩ := Option.bind_eq_some_iff.mp h
      rw [resolve, hnext]
      exact ih hrest

/-- The value is an array of this many items, or a text of this many characters. -/
inductive HasLength : Json → Nat → Prop where
  | array (items : List Json) : HasLength (.array items) items.length
  | text (s : String) : HasLength (.string s) s.length

theorem hasLength_iff : HasLength value n ↔ size? value = some n := by
  constructor
  · rintro (items | s) <;> rfl
  · intro h
    cases value with
    | array items =>
        obtain rfl := Option.some.inj h
        exact .array items
    | string s =>
        obtain rfl := Option.some.inj h
        exact .text s
    | _ => cases h

/-- The last of the segments asks for the length of what those before it lead to. -/
def Measures (current : Json) (segments : List String) (n : Nat) : Prop :=
  ∃ before value, segments = before ++ ["length"] ∧ walk? current before = some value ∧
    HasLength value n

/-- A step into a value is left out of the question what is measured. -/
theorem measures_cons_iff {segment : String} {next : Json}
    (hnext : current.child? segment = some next) :
    Measures current (segment :: segments) n ↔ Measures next segments n := by
  constructor
  · rintro ⟨before, value, hsegments, hwalk, hlength⟩
    cases before with
    | nil =>
        -- Neither an array nor a text has a member of that name.
        obtain ⟨rfl, -⟩ := List.cons.inj hsegments
        obtain rfl := Option.some.inj hwalk
        cases hlength with
        | array items => exact absurd hnext (by simp [Json.child?, Text.index?, Text.natural?])
        | text s => cases hnext
    | cons first before =>
        obtain ⟨rfl, hrest⟩ := List.cons.inj hsegments
        obtain ⟨next', hnext', hwalk'⟩ := Option.bind_eq_some_iff.mp hwalk
        obtain rfl := Option.some.inj (hnext'.symm.trans hnext)
        exact ⟨before, value, hrest, hwalk', hlength⟩
  · rintro ⟨before, value, rfl, hwalk, hlength⟩
    exact ⟨segment :: before, value, rfl, Option.bind_eq_some_iff.mpr ⟨next, hnext, hwalk⟩, hlength⟩

/-- Where the first segment leads nowhere, only a length can be asked for, and only by it. -/
theorem measures_cons_of_none {segment : String} (hnone : current.child? segment = none) :
    Measures current (segment :: segments) n ↔
      segment = "length" ∧ segments = [] ∧ HasLength current n := by
  constructor
  · rintro ⟨before, value, hsegments, hwalk, hlength⟩
    cases before with
    | nil =>
        obtain ⟨rfl, rfl⟩ := List.cons.inj hsegments
        obtain rfl := Option.some.inj hwalk
        exact ⟨rfl, rfl, hlength⟩
    | cons first before =>
        obtain ⟨rfl, -⟩ := List.cons.inj hsegments
        obtain ⟨next, hnext, -⟩ := Option.bind_eq_some_iff.mp hwalk
        exact nomatch hnone.symm.trans hnext
  · rintro ⟨rfl, rfl, hlength⟩
    exact ⟨[], current, rfl, rfl, hlength⟩

/-- Where a template arrives nowhere, a condition reads the length that is asked for, or else
null. -/
theorem resolve_of_walk?_eq_none (h : walk? current segments = none) :
    (∀ n, Measures current segments n → resolve current segments = .ofNat n) ∧
      ((∀ n, ¬ Measures current segments n) → resolve current segments = .null) := by
  induction segments generalizing current with
  | nil => cases h
  | cons segment rest ih =>
      cases hnext : current.child? segment with
      | some next =>
          have hrest : walk? next rest = none := by
            rwa [walk?, hnext] at h
          rw [resolve, hnext]
          simp only [measures_cons_iff hnext]
          exact ih hrest
      | none =>
          simp only [resolve, hnext, measures_cons_of_none hnext]
          refine ⟨?_, ?_⟩
          · rintro n ⟨rfl, rfl, hlength⟩
            simp [hasLength_iff.mp hlength]
          · intro hnothing
            split
            · next hasked =>
                obtain ⟨hlast, hrest⟩ := by simpa using hasked
                cases hsize : size? current with
                | none => rfl
                | some n => exact absurd ⟨hlast, hrest, hasLength_iff.mpr hsize⟩ (hnothing n)
            · rfl

/-! ## Paths into the data -/

/-- The path of these segments into the data, as a template writes it. -/
def dotted (segments : List String) : String := String.intercalate "." ("input" :: segments)

theorem resolve?_dotted (h : ∀ segment ∈ segments, '.' ∉ segment.toList) (data : Json) :
    resolve? data (dotted segments) = walk? data segments := by
  have hroot : '.' ∉ "input".toList := by decide
  rw [resolve?, dotted, show "." = String.singleton '.' from rfl,
    Text.splitAt_intercalate (List.forall_mem_cons.mpr ⟨hroot, h⟩)]
  exact if_pos rfl

theorem eval_path (data : Json) (segments : List String) :
    (Expr.path ("input" :: segments)).eval (.object [("input", data)]) = resolve data segments :=
  rfl

/-- A condition reads at a path what a template reads there.  Where a template reads nothing, a
condition reads null, except where the last segment asks for the length of an array or a text that
the path before it leads to. -/
theorem eval_path_resolve? (data : Json) {segments : List String}
    (h : ∀ segment ∈ segments, '.' ∉ segment.toList) :
    (∀ value, resolve? data (dotted segments) = some value →
      (Expr.path ("input" :: segments)).eval (.object [("input", data)]) = value) ∧
    (resolve? data (dotted segments) = none →
      (∀ before items, segments = before ++ ["length"] →
        resolve? data (dotted before) = some (.array items) →
        (Expr.path ("input" :: segments)).eval (.object [("input", data)]) =
          .ofNat items.length) ∧
      (∀ before s, segments = before ++ ["length"] →
        resolve? data (dotted before) = some (.string s) →
        (Expr.path ("input" :: segments)).eval (.object [("input", data)]) = .ofNat s.length) ∧
      ((¬ ∃ before value, segments = before ++ ["length"] ∧
          resolve? data (dotted before) = some value ∧
          ((∃ items, value = .array items) ∨ ∃ s, value = .string s)) →
        (Expr.path ("input" :: segments)).eval (.object [("input", data)]) = .null)) := by
  have hbefore : ∀ before, segments = before ++ ["length"] →
      resolve? data (dotted before) = walk? data before := by
    rintro before rfl
    exact resolve?_dotted (List.forall_mem_append.mp h).1 data
  rw [eval_path, resolve?_dotted h]
  refine ⟨fun value hwalk => resolve_of_walk? hwalk, fun hnone => ?_⟩
  obtain ⟨hmeasured, hnull⟩ := resolve_of_walk?_eq_none hnone
  refine ⟨?_, ?_, ?_⟩
  · intro before items hsegments hwalk
    rw [hbefore before hsegments] at hwalk
    exact hmeasured _ ⟨before, _, hsegments, hwalk, .array items⟩
  · intro before s hsegments hwalk
    rw [hbefore before hsegments] at hwalk
    exact hmeasured _ ⟨before, _, hsegments, hwalk, .text s⟩
  · intro hnothing
    refine hnull ?_
    rintro n ⟨before, value, hsegments, hwalk, hlength⟩
    refine hnothing ⟨before, value, hsegments, (hbefore before hsegments).trans hwalk, ?_⟩
    cases hlength with
    | array items => exact Or.inl ⟨items, rfl⟩
    | text s => exact Or.inr ⟨s, rfl⟩

/-- An order with a box that has a `length` of its own, and with a list of rows. -/
def parcel : Json :=
  .object [("box", .object [("length", .ofNat 40)]), ("rows", .array [.string "né", .null])]

/-- The length of the box is read by both, those of the rows and of a text by a condition alone, and
behind the last row there is nothing. -/
theorem eval_path_parcel :
    (∀ segments ∈ [["box", "length"], ["rows", "length"], ["rows", "0", "length"], ["rows", "2"]],
      ∀ segment ∈ segments, '.' ∉ segment.toList) ∧
    (resolve? parcel "input.box.length" = some (.ofNat 40) ∧
      (Expr.path ["input", "box", "length"]).eval (.object [("input", parcel)]) = .ofNat 40) ∧
    (resolve? parcel "input.rows.length" = none ∧
      (Expr.path ["input", "rows", "length"]).eval (.object [("input", parcel)]) = .ofNat 2) ∧
    (resolve? parcel "input.rows.0.length" = none ∧
      (Expr.path ["input", "rows", "0", "length"]).eval (.object [("input", parcel)]) =
        .ofNat 2) ∧
    (resolve? parcel "input.rows.2" = none ∧
      (Expr.path ["input", "rows", "2"]).eval (.object [("input", parcel)]) = .null) := by
  have hplain : ∀ segments ∈ [["box", "length"], ["rows", "length"], ["rows", "0", "length"],
      ["rows", "2"]], ∀ segment ∈ segments, '.' ∉ segment.toList := by decide
  have hbox : resolve? parcel (dotted ["box", "length"]) = some (.ofNat 40) := rfl
  have hrows : resolve? parcel (dotted ["rows", "length"]) = none := rfl
  have htext : resolve? parcel (dotted ["rows", "0", "length"]) = none := rfl
  have hbehind : resolve? parcel (dotted ["rows", "2"]) = none := rfl
  refine ⟨hplain, ⟨hbox, ?_⟩, ⟨hrows, ?_⟩, ⟨htext, ?_⟩, ⟨hbehind, ?_⟩⟩
  · exact (eval_path_resolve? parcel (hplain _ (.head _))).1 _ hbox
  · exact ((eval_path_resolve? parcel (hplain _ (.tail _ (.head _)))).2 hrows).1 ["rows"] _ rfl rfl
  · exact ((eval_path_resolve? parcel (hplain _ (.tail _ (.tail _ (.head _))))).2 htext).2.1
      ["rows", "0"] "né" rfl rfl
  · refine ((eval_path_resolve? parcel (hplain _ (.tail _ (.tail _ (.tail _ (.head _)))))).2
      hbehind).2.2 ?_
    rintro ⟨before, value, hsegments, -⟩
    have hlast := congrArg List.getLast? hsegments
    rw [List.getLast?_concat] at hlast
    exact absurd hlast (by decide)

end Condition

end FlowEngine
