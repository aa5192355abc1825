import FlowEngine.Node.Registry
import Mathlib.Data.List.Nodup
import Mathlib.Data.List.TakeWhile
import Mathlib.Data.String.Basic
/-!
# `FlowEngine.Proofs.Node.Registry` — whom a registry finds, by its history

A registry is made by registering handlers one after the other.  It keeps one for each type, and that
is the one registered last (`Registry.named?_ofHandlers`); so the order of registration counts only
among handlers of one type (`Registry.resolve?_congr`).

Whom a type resolves to is said by `Registry.Serves` from the history alone: the last handler of this
very type, or else the last one of the wildcard for what stands behind the last point of the type, if
there is a point.
-/

namespace FlowEngine

namespace Text

theorem cutLast?_append {sep : Char} {stem suffix : String} (h : sep ∉ suffix.toList) :
    cutLast? sep (stem ++ String.singleton sep ++ suffix) = some (stem, suffix) := by
  have hchars : (stem ++ String.singleton sep ++ suffix).toList.reverse =
      suffix.toList.reverse ++ sep :: stem.toList.reverse := by simp
  have hpass : ∀ c ∈ suffix.toList.reverse, (c != sep) = true := by
    intro c hc
    rw [bne_iff_ne]
    rintro rfl
    exact h (List.mem_reverse.mp hc)
  have hdrop : (suffix.toList.reverse ++ sep :: stem.toList.reverse).dropWhile (· != sep) =
      sep :: stem.toList.reverse := by
    rw [List.dropWhile_append_of_pos hpass]
    exact List.dropWhile_cons_of_neg (by simp)
  have htake : (suffix.toList.reverse ++ sep :: stem.toList.reverse).takeWhile (· != sep) =
      suffix.toList.reverse := by
    rw [List.takeWhile_append_of_pos hpass, List.takeWhile_cons_of_neg (by simp), List.append_nil]
  rw [cutLast?, hchars, hdrop, htake]
  simp

theorem cutLast?_of_not_mem {sep : Char} {s : String} (h : sep ∉ s.toList) :
    cutLast? sep s = none := by
  have hdrop : s.toList.reverse.dropWhile (· != sep) = [] := by
    rw [List.dropWhile_eq_nil_iff]
    intro c hc
    rw [bne_iff_ne]
    rintro rfl
    exact h (List.mem_reverse.mp hc)
  rw [cutLast?, hdrop]

end Text

namespace Registry

variable {registry : Registry} {handler : Handler} {handlers others : List Handler} {kind : String}

/-! ## The handler of a type -/

/-- Of handlers registered in turn, the last one of a type. -/
def latest? (handlers : List Handler) (kind : String) : Option Handler :=
  (handlers.filter fun handler => handler.kind == kind).getLast?

theorem latest?_cons (handler : Handler) (later : List Handler) (kind : String) :
    latest? (handler :: later) kind =
      (latest? later kind).or (if handler.kind = kind then some handler else none) := by
  unfold latest?
  by_cases h : handler.kind = kind
  · rw [List.filter_cons_of_pos (by simp [h]), List.getLast?_cons, if_pos h]
    cases (later.filter fun handler => handler.kind == kind).getLast? <;> rfl
  · rw [List.filter_cons_of_neg (by simp [h]), if_neg h, Option.or_none]

/-- A registration decides about its own type and leaves the others alone. -/
theorem named?_register (registry : Registry) (handler : Handler) (kind : String) :
    (registry.register handler).named? kind =
      if handler.kind = kind then some handler else registry.named? kind := by
  by_cases h : handler.kind = kind
  · rw [register, named?, List.find?_cons_of_pos (by simp [h]), if_pos h]
  · rw [register, named?, List.find?_cons_of_neg (by simp [h]), if_neg h, List.find?_filter, named?]
    congr 1
    funext other
    by_cases hother : other.kind = kind
    · simp [hother, Ne.symm h]
    · simp [hother]

theorem named?_foldl (handlers : List Handler) (registry : Registry) (kind : String) :
    (handlers.foldl register registry).named? kind =
      (latest? handlers kind).or (registry.named? kind) := by
  induction handlers generalizing registry with
  | nil => rfl
  | cons handler later ih =>
      rw [List.foldl_cons, ih, named?_register, latest?_cons, Option.or_assoc]
      split <;> rfl

theorem named?_ofHandlers (handlers : List Handler) (kind : String) :
    (ofHandlers handlers).named? kind = latest? handlers kind := by
  rw [ofHandlers, named?_foldl]
  exact Option.or_none

/-! ## Resolving a type -/

/-- Whom a type resolves to, by the handlers that have been registered in turn. -/
inductive Serves (handlers : List Handler) (kind : String) : Option Handler → Prop where
  /-- Somebody serves this very type. -/
  | named {handler : Handler} : latest? handlers kind = some handler →
      Serves handlers kind (some handler)
  /-- Nobody does, and the type has a point: the wildcard counts. -/
  | wildcard {stem suffix : String} : latest? handlers kind = none →
      kind = stem ++ "." ++ suffix → '.' ∉ suffix.toList →
      Serves handlers kind (latest? handlers ("*." ++ suffix))
  /-- Nobody does, and there is no point. -/
  | nobody : latest? handlers kind = none → '.' ∉ kind.toList → Serves handlers kind none

theorem exists_lastPoint {cs : List Char} (h : '.' ∈ cs) :
    ∃ stem suffix, cs = stem ++ '.' :: suffix ∧ '.' ∉ suffix := by
  induction cs with
  | nil => cases h
  | cons c cs ih =>
      by_cases hlater : '.' ∈ cs
      · obtain ⟨stem, suffix, rfl, hsuffix⟩ := ih hlater
        exact ⟨c :: stem, suffix, rfl, hsuffix⟩
      · obtain rfl | hmem := List.mem_cons.mp h
        · exact ⟨[], cs, rfl, hlater⟩
        · exact absurd hmem hlater

theorem exists_suffix (kind : String) : '.' ∉ kind.toList ∨
    ∃ stem suffix : String, kind = stem ++ "." ++ suffix ∧ '.' ∉ suffix.toList := by
  by_cases h : '.' ∈ kind.toList
  · obtain ⟨stem, suffix, hkind, hsuffix⟩ := exists_lastPoint h
    refine Or.inr ⟨String.ofList stem, String.ofList suffix, ?_, by simpa using hsuffix⟩
    rw [← String.toList_inj, hkind]
    simp
  · exact Or.inl h

theorem resolve?_ofHandlers_dotted {stem suffix : String} (h : '.' ∉ suffix.toList) :
    (ofHandlers handlers).resolve? (stem ++ "." ++ suffix) =
      (latest? handlers (stem ++ "." ++ suffix)).or (latest? handlers ("*." ++ suffix)) := by
  have hcut : wildcard? (stem ++ "." ++ suffix) = some ("*." ++ suffix) := by
    rw [wildcard?, show "." = String.singleton '.' from rfl, Text.cutLast?_append h]
    rfl
  rw [resolve?, named?_ofHandlers, hcut]
  cases latest? handlers (stem ++ "." ++ suffix) with
  | none => exact named?_ofHandlers handlers _
  | some handler => rfl

theorem resolve?_ofHandlers_plain (h : '.' ∉ kind.toList) :
    (ofHandlers handlers).resolve? kind = latest? handlers kind := by
  have hcut : wildcard? kind = none := by
    rw [wildcard?, Text.cutLast?_of_not_mem h]
    rfl
  rw [resolve?, named?_ofHandlers, hcut]
  cases latest? handlers kind <;> rfl

/-- A registry resolves a type by its history. -/
theorem resolve?_eq_iff (handlers : List Handler) (kind : String) (found : Option Handler) :
    (ofHandlers handlers).resolve? kind = found ↔ Serves handlers kind found := by
  constructor
  · rintro rfl
    rcases exists_suffix kind with hplain | ⟨stem, suffix, rfl, hsuffix⟩
    · rw [resolve?_ofHandlers_plain hplain]
      cases hkind : latest? handlers kind with
      | none => exact .nobody hkind hplain
      | some handler => exact .named hkind
    · rw [resolve?_ofHandlers_dotted hsuffix]
      cases hkind : latest? handlers (stem ++ "." ++ suffix) with
      | none => exact .wildcard hkind rfl hsuffix
      | some handler => exact .named hkind
  · intro h
    cases h with
    | named hkind => rw [resolve?, named?_ofHandlers, hkind]
    | wildcard hkind heq hsuffix =>
        subst heq
        rw [resolve?_ofHandlers_dotted hsuffix, hkind, Option.none_or]
    | nobody hkind hplain => rw [resolve?_ofHandlers_plain hplain, hkind]

/-- The handlers of each type have been registered in the same order. -/
def SameByKind (handlers others : List Handler) : Prop :=
  ∀ kind, (handlers.filter fun handler => handler.kind == kind) =
    others.filter fun handler => handler.kind == kind

/-- The order of registration counts only among the handlers of one type. -/
theorem resolve?_congr (h : SameByKind handlers others) (kind : String) :
    (ofHandlers handlers).resolve? kind = (ofHandlers others).resolve? kind := by
  have hlatest : ∀ kind, latest? handlers kind = latest? others kind :=
    fun kind => congrArg List.getLast? (h kind)
  rcases exists_suffix kind with hplain | ⟨stem, suffix, rfl, hsuffix⟩
  · rw [resolve?_ofHandlers_plain hplain, resolve?_ofHandlers_plain hplain, hlatest]
  · rw [resolve?_ofHandlers_dotted hsuffix, resolve?_ofHandlers_dotted hsuffix, hlatest, hlatest]

/-! ## The registered types -/

/-- No two handlers at hand are of one type. -/
def Apart (registry : Registry) : Prop := (registry.handlers.map Handler.kind).Nodup

theorem Apart.register (h : registry.Apart) (handler : Handler) :
    (registry.register handler).Apart := by
  rw [Apart, Registry.register, List.map_cons, List.nodup_cons]
  constructor
  · intro hmem
    obtain ⟨other, hother, hkind⟩ := List.mem_map.mp hmem
    exact absurd hkind (bne_iff_ne.mp (List.mem_filter.mp hother).2)
  · exact h.sublist (List.filter_sublist.map _)

theorem apart_ofHandlers (handlers : List Handler) : (ofHandlers handlers).Apart := by
  have hfold : ∀ registry : Registry, registry.Apart →
      (handlers.foldl Registry.register registry).Apart := by
    induction handlers with
    | nil => exact fun _ h => h
    | cons handler later ih => exact fun _ h => ih _ (h.register handler)
  exact hfold {} List.nodup_nil

theorem mem_kinds_iff (registry : Registry) (kind : String) :
    kind ∈ registry.kinds ↔ (registry.named? kind).isSome = true := by
  rw [kinds, List.mem_mergeSort, named?, List.find?_isSome]
  simp

theorem isSome_latest?_iff : (latest? handlers kind).isSome = true ↔
    ∃ handler ∈ handlers, handler.kind = kind := by
  rw [latest?, ← not_iff_not, Bool.not_eq_true, Option.isSome_eq_false_iff, Option.isNone_iff_eq_none,
    List.getLast?_eq_none_iff, List.filter_eq_nil_iff]
  simp

theorem mem_kinds_ofHandlers (handlers : List Handler) (kind : String) :
    kind ∈ (ofHandlers handlers).kinds ↔ ∃ handler ∈ handlers, handler.kind = kind := by
  rw [mem_kinds_iff, named?_ofHandlers, isSome_latest?_iff]

theorem Apart.kinds_lt (h : registry.Apart) : registry.kinds.Pairwise (· < ·) := by
  have htrans : ∀ r s t : String, (!decide (s < r)) = true → (!decide (t < s)) = true →
      (!decide (t < r)) = true := by
    intro r s t hrs hst
    simp only [Bool.not_eq_true', decide_eq_false_iff_not, not_lt] at *
    exact le_trans hrs hst
  have htotal : ∀ s t : String, (!decide (t < s) || !decide (s < t)) = true := by
    intro s t
    simp only [Bool.or_eq_true, Bool.not_eq_true', decide_eq_false_iff_not, not_lt]
    exact le_total s t
  have hle := List.pairwise_mergeSort htrans htotal (registry.handlers.map Handler.kind)
  have hne : registry.kinds.Nodup := (List.mergeSort_perm _ _).nodup_iff.mpr h
  refine (hle.and hne).imp ?_
  intro s t hst
  simp only [Bool.not_eq_true', decide_eq_false_iff_not, not_lt] at hst
  exact lt_of_le_of_ne hst.1 hst.2

end Registry

end FlowEngine
