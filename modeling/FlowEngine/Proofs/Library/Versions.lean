import FlowEngine.Proofs.Interleaving
import FlowEngine.Proofs.Library.Saved
import Mathlib.Data.List.Induction
import Mathlib.Data.List.Nodup
/-!
# `FlowEngine.Proofs.Library.Versions` — flows saved by several at a time

A save over a flow that is there is two calls: it reads the flow, and then it writes the new one
with the version behind the one it has read.  Between the two others may have written.  Then their
versions are given out a second time, and the count of the saves is lost.

This is the only way to lose it.  A save is overtaken if another one writes between its two calls.
As long as no save has been, the versions that are returned are the numbers behind the first one, in
the order of the writes; once one has been, two saves have returned the same version, and the stored
one is behind the count for good (`save_versions`).

What carries the induction is that each save remembers the history at which it has read: the version
it has read is the count of the saves in it, or less if one of those was overtaken (`Counted`).
-/

namespace FlowEngine

namespace Library

/-! ## The two calls of a save -/

def gotten (library : Library) : Except StoreError Json → Except StoreError (Option Flow)
  | .ok record => (Json.readRecord Flow.ofRecord? library.collection record).map some
  | .error (.notFound _ _) => .ok none
  | .error e => .error e

theorem get?_eq (library : Library) (id : String) :
    library.get? id = .act (.getOne library.collection id {}) fun reply =>
      .done (library.gotten reply) := by
  refine congrArg (Program.act _) (funext fun reply => ?_)
  rcases reply with e | record
  · cases e <;> rfl
  · show Program.andThen _ _ = _
    unfold gotten
    cases h : Json.readRecord Flow.ofRecord? library.collection record <;>
      simp only [Program.andThen, h] <;> rfl

/-- What is left of a save that has found a flow to replace. -/
def overwrite (library : Library) (saved : Flow) : Program (Except StoreError Flow) :=
  .act (.update library.collection saved.id saved.toRecord) fun reply =>
    .done (reply.map fun _ => saved)

theorem save_eq (library : Library) {flow : Flow} (hid : flow.id ≠ "") :
    ∃ next, library.save flow = .act (.getOne library.collection flow.id {}) next ∧
      ∀ reply old, library.gotten reply = .ok (some old) →
        next reply = library.overwrite { flow with version := nextVersion (some old) } := by
  have hempty : flow.id.isEmpty = false := by
    rwa [← Bool.not_eq_true, String.isEmpty_iff]
  unfold save existing?
  rw [hempty, get?_eq]
  refine ⟨_, rfl, ?_⟩
  intro reply old hold
  show Program.andThen (.done (library.gotten reply)) _ = _
  rw [hold]
  refine congrArg (Program.act _) (funext fun reply => ?_)
  cases reply <;> rfl

theorem save_ne_done (library : Library) {flow : Flow} (hid : flow.id ≠ "")
    {outcome : Except StoreError Flow} : library.save flow ≠ .done outcome := by
  obtain ⟨next, hsave, -⟩ := library.save_eq hid
  rw [hsave]
  intro hdone
  cases hdone

/-! ## Saves in a history -/

section Histories

variable {ι : Type} {library : Library} {history later before : List (Option ι × Exchange)}
  {asked : Option ι × Exchange} {i : ι} {first version : Nat}

/-- Who has saved, in the order of the writes. -/
def savers (library : Library) (history : List (Option ι × Exchange)) : List ι :=
  history.filterMap fun asked =>
    if asked.2.action.written? = some library.collection then asked.1 else none

/-- Between the two calls of a save that has written there was the write of another one. -/
def Overtaken (library : Library) (history : List (Option ι × Exchange)) (i : ι) : Prop :=
  ∃ before read between write after,
    history = before ++ (some i, read) :: (between ++ (some i, write) :: after) ∧
      write.action.written? = some library.collection ∧ library.savers between ≠ []

/-- No save has been overtaken. -/
def InTurn (library : Library) (history : List (Option ι × Exchange)) : Prop :=
  ∀ i, ¬ library.Overtaken history i

theorem savers_append (history later : List (Option ι × Exchange)) :
    library.savers (history ++ later) = library.savers history ++ library.savers later :=
  List.filterMap_append

theorem savers_of_quiet (h : asked.2.action.written? ≠ some library.collection) :
    library.savers [asked] = [] := by
  rw [savers, List.filterMap_cons, if_neg h, List.filterMap_nil]

theorem savers_of_write {write : Exchange} (h : write.action.written? = some library.collection) :
    library.savers [(some i, write)] = [i] := by
  rw [savers, List.filterMap_cons, if_pos h, List.filterMap_nil]

theorem savers_append_quiet (h : library.savers later = []) :
    library.savers (history ++ later) = library.savers history := by
  rw [savers_append, h, List.append_nil]

theorem Overtaken.append (h : library.Overtaken history i) :
    library.Overtaken (history ++ later) i := by
  obtain ⟨before, read, between, write, after, rfl, hwrite, hothers⟩ := h
  refine ⟨before, read, between, write, after ++ later, ?_, hwrite, hothers⟩
  simp only [List.append_assoc, List.cons_append]

theorem InTurn.of_append (h : library.InTurn (history ++ later)) : library.InTurn history :=
  fun i hi => h i hi.append

/-- A save is overtaken already, or it is only now that it writes, and others have before it. -/
theorem Overtaken.of_concat (h : library.Overtaken (history ++ [asked]) i) :
    library.Overtaken history i ∨
      asked.1 = some i ∧ asked.2.action.written? = some library.collection ∧
        ∃ before read between, history = before ++ (some i, read) :: between ∧
          library.savers between ≠ [] := by
  obtain ⟨before, read, between, write, after, heq, hwrite, hothers⟩ := h
  rcases List.eq_nil_or_concat after with rfl | ⟨earlier, last, rfl⟩
  · have hsplit : history ++ [asked] =
        (before ++ (some i, read) :: between) ++ [(some i, write)] := by
      rw [heq, List.append_assoc, List.cons_append]
    obtain ⟨rfl, hlast⟩ := List.append_inj' hsplit rfl
    obtain rfl := List.singleton_inj.mp hlast
    exact Or.inr ⟨rfl, hwrite, before, read, between, rfl, hothers⟩
  · have hsplit : history ++ [asked] =
        (before ++ (some i, read) :: (between ++ (some i, write) :: earlier)) ++ [last] := by
      rw [heq]
      simp only [List.concat_eq_append, List.append_assoc, List.cons_append]
    obtain ⟨rfl, -⟩ := List.append_inj' hsplit rfl
    exact Or.inl ⟨before, read, between, write, earlier, rfl, hwrite, hothers⟩

theorem inTurn_append_quiet (h : library.savers later = []) :
    library.InTurn (history ++ later) ↔ library.InTurn history := by
  refine ⟨InTurn.of_append, fun hturn => ?_⟩
  induction later using List.reverseRecOn with
  | nil =>
      rw [List.append_nil]
      exact hturn
  | append_singleton later asked ih =>
      rw [savers_append, List.append_eq_nil_iff] at h
      rw [← List.append_assoc]
      intro i hi
      rcases hi.of_concat with hearlier | ⟨howner, hwrite, -⟩
      · exact ih h.1 i hearlier
      · obtain ⟨owner, write⟩ := asked
        obtain rfl : owner = some i := howner
        rw [savers_of_write hwrite] at h
        cases h.2

/-- A version counts the saves of a history: it is as far behind the first version, or less far if
one of them was overtaken. -/
structure Counted (library : Library) (first : Nat) (history : List (Option ι × Exchange))
    (version : Nat) : Prop where
  inTurn : library.InTurn history → version = first + (library.savers history).length
  overtaken : ¬ library.InTurn history → version < first + (library.savers history).length

theorem Counted.le (h : library.Counted first history version) :
    version ≤ first + (library.savers history).length := by
  by_cases hturn : library.InTurn history
  · exact Nat.le_of_eq (h.inTurn hturn)
  · exact Nat.le_of_lt (h.overtaken hturn)

theorem Counted.append_quiet (h : library.Counted first history version)
    (hquiet : library.savers later = []) :
    library.Counted first (history ++ later) version := by
  constructor <;> rw [inTurn_append_quiet hquiet, savers_append_quiet hquiet]
  · exact h.inTurn
  · exact h.overtaken

variable [DecidableEq ι] {between : List (Option ι × Exchange)} {read write : Exchange}

/-- Where a program has asked once only, there is one way to split the history there. -/
theorem between_unique (hbefore : Transcript.share before i = [])
    (hbetween : Transcript.share between i = []) {before' between' : List (Option ι × Exchange)}
    {read' : Exchange}
    (h : before ++ (some i, read) :: between = before' ++ (some i, read') :: between') :
    between' = between := by
  rcases List.append_eq_append_iff.mp h with ⟨gap, rfl, hrest⟩ | ⟨gap, rfl, hrest⟩
  · cases gap with
    | nil => exact (List.cons.inj hrest).2.symm
    | cons asked gap =>
        obtain ⟨-, rfl⟩ := List.cons.inj hrest
        have hmem : (some i, read') ∈ gap ++ (some i, read') :: between' :=
          List.mem_append_right _ List.mem_cons_self
        exact absurd (Transcript.mem_share hmem rfl)
          (List.eq_nil_iff_forall_not_mem.mp hbetween _)
  · cases gap with
    | nil => exact (List.cons.inj hrest).2
    | cons asked gap =>
        obtain ⟨rfl, -⟩ := List.cons.inj hrest
        have hmem : (some i, read') ∈ before' ++ (some i, read') :: gap :=
          List.mem_append_right _ List.mem_cons_self
        exact absurd (Transcript.mem_share hmem rfl)
          (List.eq_nil_iff_forall_not_mem.mp hbefore _)

/-- A save that writes is not overtaken if nobody has written since it has read. -/
theorem inTurn_concat_write (hbefore : Transcript.share before i = [])
    (hbetween : Transcript.share between i = [])
    (hwrite : write.action.written? = some library.collection) :
    library.InTurn (before ++ (some i, read) :: between ++ [(some i, write)]) ↔
      library.InTurn (before ++ (some i, read) :: between) ∧ library.savers between = [] := by
  constructor
  · intro hturn
    refine ⟨hturn.of_append, Decidable.byContradiction fun hothers => hturn i ?_⟩
    refine ⟨before, read, between, write, [], ?_, hwrite, hothers⟩
    rw [List.append_assoc, List.cons_append]
  · rintro ⟨hturn, hothers⟩ j hj
    rcases hj.of_concat with hearlier | ⟨howner, -, _, _, _, hsplit, hmore⟩
    · exact hturn j hearlier
    · obtain rfl := Option.some.inj howner
      rw [between_unique hbefore hbetween hsplit] at hmore
      exact hmore hothers

/-- The version of a save that writes is the one behind what it has read. -/
theorem Counted.next (h : library.Counted first before version)
    (hbefore : Transcript.share before i = []) (hbetween : Transcript.share between i = [])
    (hread : read.action.written? ≠ some library.collection)
    (hwrite : write.action.written? = some library.collection) :
    library.Counted first (before ++ (some i, read) :: between ++ [(some i, write)])
      (version + 1) := by
  have hquiet : library.savers [(some i, read)] = [] := savers_of_quiet hread
  have hlength : (library.savers (before ++ (some i, read) :: between ++ [(some i, write)])).length =
      (library.savers before).length + (library.savers between).length + 1 := by
    rw [← List.singleton_append, savers_append, savers_append, savers_append, hquiet,
      savers_of_write hwrite, List.nil_append, List.length_append, List.length_append]
    rfl
  have hle := h.le
  constructor <;> rw [inTurn_concat_write hbefore hbetween hwrite, hlength]
  · rintro ⟨hturn, hothers⟩
    have hversion := h.inTurn hturn.of_append
    rw [hothers, List.length_nil]
    omega
  · intro hturn
    by_cases hothers : library.savers between = []
    · -- Nobody has written since, so it was before that a save was overtaken.
      have hlate : library.savers ((some i, read) :: between) = [] := by
        rw [← List.singleton_append, savers_append, hquiet, hothers]
        rfl
      have hearlier : ¬ library.InTurn before := fun hbefore =>
        hturn ⟨(inTurn_append_quiet hlate).mpr hbefore, hothers⟩
      have hversion := h.overtaken hearlier
      omega
    · have hpos := List.length_pos_iff.mpr hothers
      omega

end Histories

/-! ## Saves of one flow -/

section Saves

variable {ι : Type} [DecidableEq ι] {library : Library} {flow : ι → Flow} {id : String}
  {first : Nat} {left left' : ι → Program (Except StoreError Flow)} {store current : MemoryStore}
  {history : List (Option ι × Exchange)} {asked : Option ι × Exchange} {i : ι}

def versionOf : Program (Except StoreError Flow) → Nat
  | .done (.ok saved) => saved.version.toNat
  | _ => 0

/-- A save has not begun, has read the flow that is there, or has ended. -/
inductive Stage (library : Library) (flow : ι → Flow) (first : Nat)
    (left : ι → Program (Except StoreError Flow)) (history : List (Option ι × Exchange)) (i : ι) :
    Prop where
  | waiting : left i = library.save (flow i) → Transcript.share history i = [] →
      Stage library flow first left history i
  | reading {before between : List (Option ι × Exchange)} {read : Exchange} {old : Flow} :
      left i = library.overwrite { flow i with version := nextVersion (some old) } →
      history = before ++ (some i, read) :: between →
      Transcript.share before i = [] → Transcript.share between i = [] →
      read.action.written? ≠ some library.collection →
      library.Counted first before old.version.toNat →
      Stage library flow first left history i
  | ended {saved : Flow} : left i = .done (.ok saved) → Stage library flow first left history i

theorem Stage.later (h : Stage library flow first left history i) (hleft : left' i = left i)
    (howner : asked.1 ≠ some i) : Stage library flow first left' (history ++ [asked]) i := by
  cases h with
  | waiting hstart hshare =>
      refine .waiting (hleft.trans hstart) ?_
      rw [Transcript.share_concat_other _ howner]
      exact hshare
  | @reading before between read old hwrite hhistory hbefore hbetween hread hcounted =>
      have hlater : history ++ [asked] = before ++ (some i, read) :: (between ++ [asked]) := by
        rw [hhistory, List.append_assoc, List.cons_append]
      have hshare : Transcript.share (between ++ [asked]) i = [] := by
        rw [Transcript.share_concat_other _ howner]
        exact hbetween
      exact .reading (hleft.trans hwrite) hlater hbefore hshare hread hcounted
  | ended hdone => exact .ended (hleft.trans hdone)

/-- How far the saves of a flow have come, and what is known of the versions. -/
structure Raced (library : Library) (flow : ι → Flow) (id : String) (first : Nat)
    (left : ι → Program (Except StoreError Flow)) (current : MemoryStore)
    (history : List (Option ι × Exchange)) : Prop where
  held : ∃ flows stored, library.Holds current flows ∧
    flows.find? (fun x => x.id == id) = some stored ∧
    library.Counted first history stored.version.toNat
  stage : ∀ i, Stage library flow first left history i
  nodup : (library.savers history).Nodup
  mem : ∀ i, i ∈ library.savers history ↔ ∃ outcome, left i = .done outcome
  /-- As long as no save is overtaken, the versions are the numbers behind the first. -/
  inTurn : library.InTurn history → (library.savers history).map (fun i => versionOf (left i)) =
    List.range' (first + 1) (library.savers history).length
  repeated : ¬ library.InTurn history →
    ¬ ((library.savers history).map fun i => versionOf (left i)).Nodup

theorem Raced.start {flows : List Flow} {old : Flow} (hholds : library.Holds store flows)
    (hfind : flows.find? (fun x => x.id == id) = some old) (hid : ∀ i, (flow i).id ≠ "") :
    Raced library flow id old.version.toNat (fun i => library.save (flow i)) store [] := by
  have hturn : library.InTurn ([] : List (Option ι × Exchange)) := by
    rintro i ⟨before, read, between, write, after, heq, -⟩
    exact List.append_ne_nil_of_right_ne_nil before (List.cons_ne_nil _ _) heq.symm
  refine
    { held := ⟨flows, old, hholds, hfind, fun _ => rfl, fun h => absurd hturn h⟩
      stage := fun i => .waiting rfl rfl
      nodup := List.nodup_nil
      mem := ?_
      inTurn := fun _ => rfl
      repeated := fun h => absurd hturn h }
  intro i
  refine ⟨fun h => absurd h List.not_mem_nil, ?_⟩
  rintro ⟨outcome, hdone⟩
  exact absurd hdone (library.save_ne_done (hid i))

/-- An exchange that writes nothing, of no save or of one that has not ended by it. -/
theorem Raced.quiet (h : Raced library flow id first left current history)
    (hquiet : asked.2.action.written? ≠ some library.collection)
    (hothers : ∀ j, asked.1 ≠ some j → left' j = left j)
    (howner : ∀ j, asked.1 = some j → Stage library flow first left' (history ++ [asked]) j ∧
      (∀ outcome, left j ≠ .done outcome) ∧ ∀ outcome, left' j ≠ .done outcome) :
    Raced library flow id first left' (current.after asked.2) (history ++ [asked]) := by
  have hnone := savers_of_quiet hquiet
  have hmem : ∀ j, (∃ outcome, left' j = .done outcome) ↔ ∃ outcome, left j = .done outcome := by
    intro j
    by_cases hj : asked.1 = some j
    · obtain ⟨-, hbefore, hafter⟩ := howner j hj
      exact iff_of_false (fun ⟨outcome, hdone⟩ => hafter outcome hdone)
        fun ⟨outcome, hdone⟩ => hbefore outcome hdone
    · rw [hothers j hj]
  have hversions : (library.savers history).map (fun j => versionOf (left' j)) =
      (library.savers history).map fun j => versionOf (left j) := by
    refine List.map_congr_left fun j hj => ?_
    obtain ⟨outcome, hdone⟩ := (h.mem j).mp hj
    rw [hothers j fun heq => (howner j heq).2.1 outcome hdone]
  obtain ⟨flows, stored, hholds, hfind, hcounted⟩ := h.held
  have hrecords := (MemoryStore.answer_frame asked.2.action current).2.2 _ hquiet
  refine
    { held := ⟨flows, stored, ⟨hrecords.trans hholds.lists, hholds.exact, hholds.distinct⟩, hfind,
        hcounted.append_quiet hnone⟩
      stage := ?_
      nodup := ?_
      mem := ?_
      inTurn := ?_
      repeated := ?_ }
  · intro j
    by_cases hj : asked.1 = some j
    · exact (howner j hj).1
    · exact (h.stage j).later (hothers j hj) hj
  · rw [savers_append_quiet hnone]
    exact h.nodup
  · intro j
    rw [savers_append_quiet hnone, hmem]
    exact h.mem j
  · rw [savers_append_quiet hnone, inTurn_append_quiet hnone, hversions]
    exact h.inTurn
  · rw [savers_append_quiet hnone, inTurn_append_quiet hnone, hversions]
    exact h.repeated

theorem Holds.gotten {flows : List Flow} (h : library.Holds current flows) (id : String) :
    library.gotten (current.getOne library.collection id {}) =
      .ok (flows.find? fun x => x.id == id) := by
  have hget := h.get? id
  rw [get?_eq] at hget
  exact congrArg Prod.fst hget

theorem Raced.read (h : Raced library flow id first left current history)
    (hid : (flow i).id = id) {next : Except StoreError Json → Program (Except StoreError Flow)}
    (hleft : left i = .act (.getOne library.collection id {}) next)
    (hnext : ∀ reply old, library.gotten reply = .ok (some old) →
      next reply = library.overwrite { flow i with version := nextVersion (some old) })
    (hshare : Transcript.share history i = []) {reply : Except StoreError Json}
    (hreply : reply = current.getOne library.collection id {}) :
    Raced library flow id first (Function.update left i (next reply))
      (current.after ⟨.getOne library.collection id {}, reply⟩)
      (history ++ [(some i, ⟨.getOne library.collection id {}, reply⟩)]) := by
  obtain ⟨flows, stored, hholds, hfind, hcounted⟩ := h.held
  have hread : next reply =
      library.overwrite { flow i with version := nextVersion (some stored) } := by
    refine hnext reply stored ?_
    rw [hreply, hholds.gotten id, hfind]
  have hquiet : Action.written? (.getOne library.collection id {}) ≠ some library.collection := by
    intro hwrite
    cases hwrite
  refine @Raced.quiet ι _ library flow id first left _ current history
    (some i, ⟨.getOne library.collection id {}, reply⟩) h hquiet ?_ ?_
  · intro j hj
    have hother : j ≠ i := by
      rintro rfl
      exact hj rfl
    rw [Function.update_of_ne hother]
  · intro j hj
    obtain rfl := Option.some.inj hj
    rw [Function.update_self, hleft, hread]
    refine ⟨.reading (Function.update_self ..) rfl hshare rfl hquiet hcounted, ?_, ?_⟩ <;>
    · intro outcome hdone
      cases hdone

theorem Raced.not_mem_savers (h : Raced library flow id first left current history)
    (hopen : ∀ outcome, left i ≠ .done outcome) : i ∉ library.savers history := by
  rw [h.mem]
  rintro ⟨outcome, hdone⟩
  exact hopen outcome hdone

theorem map_versionOf_concat {ids : List ι} (hnew : i ∉ ids)
    (ended : Program (Except StoreError Flow)) :
    (ids ++ [i]).map (fun j => versionOf (Function.update left i ended j)) =
      ids.map (fun j => versionOf (left j)) ++ [versionOf ended] := by
  rw [List.map_append, List.map_singleton, Function.update_self]
  refine congrArg (· ++ [versionOf ended]) (List.map_congr_left fun j hj => ?_)
  have hother : j ≠ i := by
    rintro rfl
    exact hnew hj
  rw [Function.update_of_ne hother]

theorem Raced.not_nodup_concat (h : Raced library flow id first left current history)
    {before after : List (Option ι × Exchange)} {version : Nat}
    (hhistory : history = before ++ after) (hcounted : library.Counted first before version)
    (hlate : version < first + (library.savers history).length) :
    ¬ ((library.savers history).map (fun j => versionOf (left j)) ++ [version + 1]).Nodup := by
  rw [List.nodup_append]
  rintro ⟨hnodup, -, hdistinct⟩
  by_cases hearlier : library.InTurn history
  · -- Then the versions are a row, and the new one lies in it.
    have hstart := hcounted.inTurn (hhistory ▸ hearlier).of_append
    rw [h.inTurn hearlier] at hdistinct
    refine hdistinct (version + 1) (List.mem_range'_1.mpr ?_) _ List.mem_cons_self rfl
    omega
  · exact h.repeated hearlier hnodup

theorem Raced.write (h : Raced library flow id first left current history)
    {saved old : Flow} (hid : saved.id = id) (hcanvas : saved.canvas.Tidy)
    (hleft : left i = library.overwrite saved)
    {before between : List (Option ι × Exchange)} {read : Exchange}
    (hhistory : history = before ++ (some i, read) :: between)
    (hbefore : Transcript.share before i = []) (hbetween : Transcript.share between i = [])
    (hread : read.action.written? ≠ some library.collection)
    (hcounted : library.Counted first before old.version.toNat)
    (hversion : saved.version.toNat = old.version.toNat + 1) {reply : Except StoreError Json}
    (hreply : reply = (current.update library.collection saved.id saved.toRecord).1) :
    Raced library flow id first
      (Function.update left i (.done (reply.map fun _ => saved)))
      (current.after ⟨.update library.collection saved.id saved.toRecord, reply⟩)
      (history ++ [(some i, ⟨.update library.collection saved.id saved.toRecord, reply⟩)]) := by
  obtain ⟨flows, stored, hholds, hfind, -⟩ := h.held
  rw [← hid] at hfind
  obtain ⟨flows', record, hok, hfiled, hholds'⟩ := hholds.update saved hcanvas hfind
  rw [hok] at hreply
  subst hreply
  have hsavers : library.savers (history ++ [(some i,
      ⟨.update library.collection saved.id saved.toRecord, .ok record⟩)]) =
        library.savers history ++ [i] := by
    rw [savers_append, savers_of_write rfl]
  have hnew : i ∉ library.savers history := h.not_mem_savers fun outcome hdone => by
    rw [hleft] at hdone
    cases hdone
  have hversions : (library.savers history ++ [i]).map (fun j => versionOf
      (Function.update left i (.done (Except.map (fun _ => saved) (.ok record))) j)) =
        (library.savers history).map (fun j => versionOf (left j)) ++ [saved.version.toNat] :=
    map_versionOf_concat hnew _
  have hnext : library.Counted first (history ++ [(some i,
      ⟨.update library.collection saved.id saved.toRecord, .ok record⟩)]) saved.version.toNat := by
    rw [hhistory, hversion]
    exact hcounted.next hbefore hbetween hread rfl
  have hlength : (library.savers history ++ [i]).length =
      (library.savers history).length + 1 := List.length_append
  refine
    { held := ⟨flows', saved.inPlaceOf (some stored), hholds', ?_, hnext⟩
      stage := ?_
      nodup := ?_
      mem := ?_
      inTurn := ?_
      repeated := ?_ }
  · rw [← List.head?_filter, ← hid, hfiled.filter_eq hholds.distinct]
    rfl
  · intro j
    by_cases hj : j = i
    · subst hj
      exact .ended (Function.update_self ..)
    · exact (h.stage j).later (Function.update_of_ne hj _ _) fun heq => hj (Option.some.inj heq).symm
  · rw [hsavers, ← List.concat_eq_append]
    exact h.nodup.concat hnew
  · intro j
    rw [hsavers, List.mem_append, List.mem_singleton]
    by_cases hj : j = i
    · subst hj
      simp
    · rw [Function.update_of_ne hj, ← h.mem]
      simp [hj]
  · intro hturn
    have hcount := hnext.inTurn hturn
    rw [hsavers, hlength] at hcount
    have hlast : saved.version.toNat = first + 1 + (library.savers history).length := by omega
    rw [hsavers, hversions, hlength, List.range'_1_concat, h.inTurn hturn.of_append, hlast]
  · intro hturn
    have hcount := hnext.overtaken hturn
    rw [hsavers, hlength] at hcount
    rw [hsavers, hversions, hversion]
    exact h.not_nodup_concat hhistory hcounted (by omega)

/-- However the saves take turns, what is known of the versions stays true, while they can be
counted in thirty-two bits. -/
theorem raced_of_interleaved {flows : List Flow} {old : Flow}
    (hholds : library.Holds store flows) (hfind : flows.find? (fun x => x.id == id) = some old)
    (hid : id ≠ "") (hflow : ∀ i, (flow i).id = id ∧ (flow i).canvas.Tidy)
    (hsaves : Interleaved (fun i => library.save (flow i)) store left current history)
    (haside : ∀ asked ∈ history, asked.1 = none →
      asked.2.action.written? ≠ some library.collection)
    (hroom : old.version.toNat + (library.savers history).length < UInt32.size) :
    Raced library flow id old.version.toNat left current history := by
  have hnamed : ∀ i, (flow i).id ≠ "" := fun i heq => hid ((hflow i).1.symm.trans heq)
  induction hsaves with
  | start => exact .start hholds hfind hnamed
  | @aside left current history exchange _ _ ih =>
      obtain ⟨haside, hlast⟩ := List.forall_mem_append.mp haside
      have hquiet := hlast _ List.mem_cons_self rfl
      have hraced := ih haside (by rwa [savers_append_quiet (savers_of_quiet hquiet)] at hroom)
      exact @Raced.quiet ι _ library flow id _ left left current history (none, exchange) hraced
        hquiet (fun _ _ => rfl) fun j hj => nomatch hj
  | @turn left current history i action next reply _ hleft hanswered ih =>
      obtain ⟨haside, -⟩ := List.forall_mem_append.mp haside
      have hearlier : (library.savers history).length ≤
          (library.savers (history ++ [(some i, ⟨action, reply⟩)])).length := by
        rw [savers_append, List.length_append]
        exact Nat.le_add_right _ _
      have hraced := ih haside (by omega)
      cases hraced.stage i with
      | waiting hstart hshare =>
          obtain ⟨next', hsave, hnext⟩ := library.save_eq (hnamed i)
          rw [hstart, hsave, (hflow i).1] at hleft
          cases hleft
          exact hraced.read (hflow i).1 (by rw [hstart, hsave, (hflow i).1]) hnext hshare
            (hanswered rfl)
      | @reading before between read stored hwrite hhistory hbefore hbetween hread hcounted =>
          rw [hwrite] at hleft
          cases hleft
          have hnext : ({ flow i with version := nextVersion (some stored) } : Flow).id = id :=
            (hflow i).1
          refine hraced.write hnext (hflow i).2 hwrite hhistory hbefore hbetween hread hcounted ?_
            (hanswered rfl)
          have hcount := hcounted.le
          rw [savers_append, savers_of_write rfl, hhistory, savers_append] at hroom
          simp only [List.length_append, List.length_singleton] at hroom
          show (stored.version + 1).toNat = _
          rw [UInt32.toNat_add]
          exact Nat.mod_eq_of_lt (show stored.version.toNat + 1 < UInt32.size by omega)
      | ended hdone =>
          rw [hdone] at hleft
          cases hleft

/-- Saves over a flow of the library do not fail, however they take turns.  The versions that they
return are all different, and the stored version is the old one with their number added, if no save
has been overtaken, and only then. -/
theorem Built.save_versions (h : library.Built store) {old : Flow}
    (hold : ((library.get? id).runWith MemoryStore.answer store).1 = .ok (some old))
    (hid : id ≠ "") (hflow : ∀ i, (flow i).id = id ∧ (flow i).canvas.Tidy)
    (hsaves : Interleaved (fun i => library.save (flow i)) store left current history)
    (haside : ∀ asked ∈ history, asked.1 = none →
      asked.2.action.written? ≠ some library.collection)
    (hroom : old.version.toNat + (library.savers history).length < UInt32.size) :
    (library.savers history).Nodup ∧
      (∀ i, i ∈ library.savers history ↔ ∃ outcome, left i = .done outcome) ∧
      ∃ (saved : ι → Flow) (stored : Flow),
        (∀ i ∈ library.savers history, left i = .done (.ok (saved i))) ∧
        ((library.get? id).runWith MemoryStore.answer current).1 = .ok (some stored) ∧
        (((library.savers history).map fun i => (saved i).version).Nodup ↔
          library.InTurn history) ∧
        (stored.version.toNat = old.version.toNat + (library.savers history).length ↔
          library.InTurn history) := by
  obtain ⟨flows, hholds⟩ := h.holds
  have hfind : flows.find? (fun x => x.id == id) = some old := by
    rw [hholds.get?] at hold
    exact Except.ok.inj hold
  have hraced := raced_of_interleaved hholds hfind hid hflow hsaves haside hroom
  have hended : ∀ i, ∃ saved, i ∈ library.savers history → left i = .done (.ok saved) := by
    intro i
    by_cases hi : i ∈ library.savers history
    · obtain ⟨outcome, hdone⟩ := (hraced.mem i).mp hi
      cases hraced.stage i with
      | ended hsaved => exact ⟨_, fun _ => hsaved⟩
      | waiting hstart =>
          exact absurd (hstart.symm.trans hdone) (library.save_ne_done
            fun heq => hid ((hflow i).1.symm.trans heq))
      | reading hwrite =>
          rw [hwrite] at hdone
          cases hdone
    · exact ⟨flow i, fun h => absurd h hi⟩
  choose saved hsaved using hended
  obtain ⟨flows', stored, hholds', hfind', hcounted⟩ := hraced.held
  refine ⟨hraced.nodup, hraced.mem, saved, stored, hsaved, ?_, ?_, ?_⟩
  · rw [hholds'.get?, hfind']
  · have hversions : (library.savers history).map (fun i => versionOf (left i)) =
        ((library.savers history).map fun i => (saved i).version).map UInt32.toNat := by
      rw [List.map_map]
      refine List.map_congr_left fun i hi => ?_
      rw [hsaved i hi]
      rfl
    have hinjective : Function.Injective UInt32.toNat := fun _ _ => UInt32.toNat_inj.mp
    constructor
    · intro hnodup
      refine Classical.byContradiction fun hturn => hraced.repeated hturn ?_
      rw [hversions]
      exact (List.nodup_map_iff hinjective).mpr hnodup
    · intro hturn
      rw [← List.nodup_map_iff hinjective, ← hversions, hraced.inTurn hturn]
      exact List.nodup_range'
  · constructor
    · intro hcount
      refine Classical.byContradiction fun hturn => ?_
      have hless := hcounted.overtaken hturn
      omega
    · exact hcounted.inTurn

end Saves

/-! ## Two saves of one flow -/

/-- The flow that is saved twice, as each of the two saves returns it. -/
def savedOrders : Flow := { orders (some "new") with version := 2 }

def orderRead : Exchange := ⟨.getOne "flows" "f1" {}, ofOrders.getOne "flows" "f1" {}⟩

def orderWrite (store : MemoryStore) : Exchange :=
  ⟨.update "flows" "f1" savedOrders.toRecord, (store.update "flows" "f1" savedOrders.toRecord).1⟩

/-- Both saves read the flow before one of them writes. -/
def orderRace : List (Option Bool × Exchange) :=
  [(some true, orderRead), (some false, orderRead), (some true, orderWrite ofOrders),
    (some false, orderWrite (ofOrders.after (orderWrite ofOrders)))]

def orderRaced : MemoryStore :=
  (ofOrders.after (orderWrite ofOrders)).after (orderWrite (ofOrders.after (orderWrite ofOrders)))

theorem interleaved_orderRace : Interleaved (fun _ : Bool => save {} (orders (some "new"))) ofOrders
    (fun _ => .done (.ok savedOrders)) orderRaced orderRace := by
  let saves : Bool → Program (Except StoreError Flow) := fun _ => save {} (orders (some "new"))
  let second : Program (Except StoreError Flow) := overwrite {} savedOrders
  have hid : (orders (some "new")).id ≠ "" := by decide
  obtain ⟨next, hsave, hnext⟩ := save_eq {} hid
  have hread : next orderRead.reply = second := hnext orderRead.reply (orders (some "old")) rfl
  have hreads : Interleaved saves ofOrders
      (Function.update (Function.update saves true second) false second) ofOrders
      [(some true, orderRead), (some false, orderRead)] := by
    rw [← hread]
    exact .turn false (.turn true .start hsave fun _ => rfl) hsave fun _ => rfl
  have hwrites : Interleaved saves ofOrders
      (Function.update (Function.update (Function.update (Function.update saves true second) false
        second) true (.done (.ok savedOrders))) false (.done (.ok savedOrders))) orderRaced orderRace :=
    .turn false (.turn true hreads rfl fun _ => rfl) rfl fun _ => rfl
  have hended : (fun _ : Bool => Program.done (Except.ok savedOrders)) =
      Function.update (Function.update (Function.update (Function.update saves true second) false
        second) true (.done (.ok savedOrders))) false (.done (.ok savedOrders)) := by
    funext i
    cases i <;> rfl
  rw [hended]
  exact hwrites

theorem orderRace_overtaken : Overtaken {} orderRace false :=
  ⟨[(some true, orderRead)], orderRead, [(some true, orderWrite ofOrders)], _, [], rfl, rfl,
    List.cons_ne_nil true []⟩

theorem get?_orderRaced :
    ((get? {} "f1").runWith MemoryStore.answer orderRaced).1 = .ok (some savedOrders) := rfl

/-- What the theorem says of these two saves: one of them is overtaken, and so their versions are the
same, and the stored version is behind. -/
theorem save_versions_orderRace : ∃ (saved : Bool → Flow) (stored : Flow),
    Built {} ofOrders ∧ (savers {} orderRace).Nodup ∧
    ((get? {} "f1").runWith MemoryStore.answer orderRaced).1 = .ok (some stored) ∧
    ¬ ((savers {} orderRace).map fun i => (saved i).version).Nodup ∧
    stored.version.toNat ≠ (orders (some "old")).version.toNat + (savers {} orderRace).length := by
  have hold : ((get? {} "f1").runWith MemoryStore.answer ofOrders).1 =
      .ok (some (orders (some "old"))) := rfl
  have hflow : ∀ _ : Bool, (orders (some "new")).id = "f1" ∧ (orders (some "new")).canvas.Tidy :=
    fun _ => ⟨rfl, List.forall_mem_nil _⟩
  have haside : ∀ asked ∈ orderRace, asked.1 = none →
      asked.2.action.written? ≠ some (Library.collection {}) := by
    simp [orderRace]
  have hroom : (orders (some "old")).version.toNat + (savers {} orderRace).length <
      UInt32.size := by decide
  obtain ⟨hnodup, -, saved, stored, -, hstored, hdistinct, hcount⟩ :=
    built_ofOrders.save_versions hold (by decide) hflow interleaved_orderRace haside hroom
  have hrace : ¬ InTurn {} orderRace := fun h => h false orderRace_overtaken
  exact ⟨saved, stored, built_ofOrders, hnodup, hstored, fun h => hrace (hdistinct.mp h),
    fun h => hrace (hcount.mp h)⟩

/-- Two saves at a time return one version, and only one of them is counted. -/
theorem not_counted_orderRace :
    Interleaved (fun _ : Bool => save {} (orders (some "new"))) ofOrders
        (fun _ => .done (.ok savedOrders)) orderRaced orderRace ∧
      ((get? {} "f1").runWith MemoryStore.answer ofOrders).1 = .ok (some (orders (some "old"))) ∧
      ((get? {} "f1").runWith MemoryStore.answer orderRaced).1 = .ok (some savedOrders) ∧
      ¬ ([savedOrders.version, savedOrders.version].Nodup ∧
        savedOrders.version.toNat = (orders (some "old")).version.toNat + 2) :=
  ⟨interleaved_orderRace, rfl, get?_orderRaced, by decide⟩

end Library

end FlowEngine
