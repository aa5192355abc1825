import FlowEngine.Proofs.Json.Finding
import FlowEngine.Proofs.Json.Numeral
import FlowEngine.Proofs.Json.Spelling
/-!
# `FlowEngine.Proofs.Json.Grammar` — the grammar of data

`Reads` is the grammar that the reader follows, without fuel and without what has been read before.
A `Draft` is what is found by it: data whose texts are still as they are written between the quotes.
A text is read to a value exactly if it is a draft of this value with nothing but blanks behind
(`Json.parse?_eq_some_iff`); twice the length of a text is fuel enough for it, since each call
behind a bracket, a comma or a colon has a character less before it.
-/

namespace FlowEngine

namespace Document

variable {c : Char} {cs body text name rest more : List Char} {room fuel : Nat} {v : Json}

/-! ## Drafts -/

/-- Data as it stands in a text: what is between quotes is as it is written. -/
inductive Draft where
  | literal (value : Json)
  | text (body : List Char)
  | array (items : List Draft)
  | object (members : List (List Char × Draft))

/-- The text that is written so between quotes. -/
def spelled (body : List Char) : String :=
  match readText? (body ++ ['"']) with
  | some (some s, _) => s
  | _ => ""

theorem Spells.spelled_eq (h : Spells body text) : spelled body = String.ofList text := by
  rw [spelled, h.readText? []]

theorem spelled_of_all {s : String} (h : (s.toList.all fun c => decide (Plain c)) = true) :
    spelled s.toList = s := by
  rw [(Spells.of_all h).spelled_eq, String.ofList_toList]

namespace Draft

mutual

/-- The value of a draft; of several members of one name the last counts. -/
def value : Draft → Json
  | .literal value => value
  | .text body => .string (spelled body)
  | .array items => .array (values items)
  | .object members => .record (memberValues members)

def values : List Draft → List Json
  | [] => []
  | d :: ds => value d :: values ds

def memberValues : List (List Char × Draft) → Json.Members
  | [] => []
  | (name, d) :: ds => (spelled name, value d) :: memberValues ds

end

end Draft

/-! ## The grammar -/

/-- What may be read: a value, or items or members up to the closing bracket. -/
inductive Form where
  | value (d : Draft)
  | items (ds : List Draft)
  | members (ms : List (List Char × Draft))

/-- The form stands at the front of the first text, and the second is what follows it; `room` is how
many more levels may be opened. -/
inductive Reads : Nat → Form → List Char → List Char → Prop where
  | number {room : Nat} {cs body rest : List Char} {negative : Bool} {v : Json} :
      skipGaps cs = (if negative then ['-'] else []) ++ body →
      readNumber? negative body = some (.literal (some v), rest) →
      Reads room (.value (.literal v)) cs rest
  | word {room : Nat} {cs rest : List Char} {word : String} {v : Json} :
      (word, v) ∈ words → skipGaps cs = word.toList ++ rest →
      Reads room (.value (.literal v)) cs rest
  | text {room : Nat} {cs body text rest : List Char} :
      skipGaps cs = '"' :: (body ++ '"' :: rest) → Spells body text →
      Reads room (.value (.text body)) cs rest
  | emptyArray {room : Nat} {cs body rest : List Char} :
      skipGaps cs = '[' :: body → skipGaps body = ']' :: rest →
      Reads (room + 1) (.value (.array [])) cs rest
  | array {room : Nat} {cs body rest : List Char} {ds : List Draft} :
      skipGaps cs = '[' :: body → Reads room (.items ds) body rest →
      Reads (room + 1) (.value (.array ds)) cs rest
  | emptyObject {room : Nat} {cs body rest : List Char} :
      skipGaps cs = '\x7b' :: body → skipGaps body = '\x7d' :: rest →
      Reads (room + 1) (.value (.object [])) cs rest
  | object {room : Nat} {cs body rest : List Char} {ms : List (List Char × Draft)} :
      skipGaps cs = '\x7b' :: body → Reads room (.members ms) body rest →
      Reads (room + 1) (.value (.object ms)) cs rest
  | lastItem {room : Nat} {cs more rest : List Char} {d : Draft} :
      Reads room (.value d) cs more → skipGaps more = ']' :: rest →
      Reads room (.items [d]) cs rest
  | item {room : Nat} {cs more body rest : List Char} {d : Draft} {ds : List Draft} :
      Reads room (.value d) cs more → skipGaps more = ',' :: body →
      Reads room (.items ds) body rest → Reads room (.items (d :: ds)) cs rest
  | lastMember {room : Nat} {cs name text more body more' rest : List Char} {d : Draft} :
      skipGaps cs = '"' :: (name ++ '"' :: more) → Spells name text →
      skipGaps more = ':' :: body → Reads room (.value d) body more' →
      skipGaps more' = '\x7d' :: rest → Reads room (.members [(name, d)]) cs rest
  | member {room : Nat} {cs name text more body more' body' rest : List Char} {d : Draft}
      {ms : List (List Char × Draft)} :
      skipGaps cs = '"' :: (name ++ '"' :: more) → Spells name text →
      skipGaps more = ':' :: body → Reads room (.value d) body more' →
      skipGaps more' = ',' :: body' → Reads room (.members ms) body' rest →
      Reads room (.members ((name, d) :: ms)) cs rest

/-- What follows a form is not longer than the text in front of which it stands. -/
theorem Reads.length_le {form : Form} (h : Reads room form cs rest) : rest.length ≤ cs.length := by
  induction h with
  | @number _ cs body rest negative _ hcs hread =>
      obtain ⟨taken, rfl, -⟩ := steady_readNumber? _ _ _ _ hread
      have hle := length_skipGaps_le cs
      rw [hcs] at hle
      simp only [List.length_append] at hle
      omega
  | @word _ cs _ _ _ _ hcs =>
      have hle := length_skipGaps_le cs
      rw [hcs, List.length_append] at hle
      omega
  | text hcs _ =>
      have hless := length_lt_of_quoted hcs
      omega
  | emptyArray hcs hbody =>
      have hless := length_lt_of_skipGaps hcs
      have hless' := length_lt_of_skipGaps hbody
      omega
  | array hcs _ ih =>
      have hless := length_lt_of_skipGaps hcs
      omega
  | emptyObject hcs hbody =>
      have hless := length_lt_of_skipGaps hcs
      have hless' := length_lt_of_skipGaps hbody
      omega
  | object hcs _ ih =>
      have hless := length_lt_of_skipGaps hcs
      omega
  | lastItem _ hmore ih =>
      have hless := length_lt_of_skipGaps hmore
      omega
  | item _ hmore _ ih ih' =>
      have hless := length_lt_of_skipGaps hmore
      omega
  | lastMember hcs _ hmore _ hmore' ih =>
      have hless := length_lt_of_quoted hcs
      have hless := length_lt_of_skipGaps hmore
      have hless := length_lt_of_skipGaps hmore'
      omega
  | member hcs _ hmore _ hmore' _ ih ih' =>
      have hless := length_lt_of_quoted hcs
      have hless := length_lt_of_skipGaps hmore
      have hless := length_lt_of_skipGaps hmore'
      omega

/-! ## What is read stands there -/

theorem value?_of_mem {ds : List Document} {vs : List Json} {d : Document}
    (h : values? ds = some vs) (hd : d ∈ ds) : ∃ v, value? d = some v := by
  induction ds generalizing vs with
  | nil => cases hd
  | cons e ds ih =>
      rw [values?] at h
      split at h
      · next v vs' hv hvs =>
          rcases List.mem_cons.mp hd with rfl | hd
          · exact ⟨v, hv⟩
          · exact ih hvs hd
      · cases h

theorem memberValue?_of_mem {ms : List (Option String × Document)} {vs : Json.Members}
    {name : Option String} {d : Document} (h : memberValues? ms = some vs) (hd : (name, d) ∈ ms) :
    (∃ n, name = some n) ∧ ∃ v, value? d = some v := by
  induction ms generalizing vs with
  | nil => cases hd
  | cons m ms ih =>
      obtain ⟨name', d'⟩ := m
      unfold memberValues? at h
      split at h
      · next n v vs' hv hvs =>
          rcases List.mem_cons.mp hd with heq | hd
          · obtain ⟨rfl, rfl⟩ := Prod.mk.inj heq
            exact ⟨⟨n, rfl⟩, v, hv⟩
          · exact ih hvs hd
      · cases h

theorem within_eq_of_value? {d : Document} (h : value? (within room d) = some v) :
    ∃ inner, room = inner + 1 ∧ within room d = d := by
  cases room with
  | zero => cases h
  | succ inner => exact ⟨inner, rfl, rfl⟩

/-- With this fuel, a value that is read is a draft of it. -/
def SoundValues (fuel : Nat) : Prop :=
  ∀ {room cs d rest v}, readValue? fuel room cs = some (d, rest) → value? d = some v →
    ∃ draft, Reads room (.value draft) cs rest ∧ draft.value = v

/-- With this fuel, items that are read behind others are drafts of them. -/
def SoundItems (fuel : Nat) : Prop :=
  ∀ {room read cs d rest v}, readItems? fuel room read cs = some (d, rest) → value? d = some v →
    ∃ inner items ds, room = inner + 1 ∧ d = .array (read.reverse ++ items) ∧
      Reads inner (.items ds) cs rest ∧ values? items = some (Draft.values ds)

/-- With this fuel, members that are read behind others are drafts of them. -/
def SoundMembers (fuel : Nat) : Prop :=
  ∀ {room read cs d rest v}, readMembers? fuel room read cs = some (d, rest) → value? d = some v →
    ∃ inner members ms, room = inner + 1 ∧ d = .object (read.reverse ++ members) ∧
      Reads inner (.members ms) cs rest ∧ memberValues? members = some (Draft.memberValues ms)

theorem soundItems_succ (hvalues : SoundValues fuel) (hitems : SoundItems fuel) :
    SoundItems (fuel + 1) := by
  intro room read cs d rest v hread hvalue
  cases foundItem_of_readItems? hread with
  | @item item _ _ hitem hmore hinside =>
      obtain ⟨inner, items, ds, rfl, rfl, hreads, hvs⟩ := hitems hinside hvalue
      obtain ⟨vs, hvs', -⟩ := Option.map_eq_some_iff.mp hvalue
      obtain ⟨w, hw⟩ := value?_of_mem (d := item) hvs' (by simp)
      obtain ⟨draft, hdraft, rfl⟩ := hvalues hitem hw
      refine ⟨inner, item :: items, draft :: ds, rfl, by simp, .item hdraft hmore hreads, ?_⟩
      rw [values?, hw, hvs]
      rfl
  | @last item _ hitem hmore hd =>
      subst hd
      obtain ⟨inner, rfl, hwithin⟩ := within_eq_of_value? hvalue
      rw [hwithin] at hvalue ⊢
      obtain ⟨vs, hvs', -⟩ := Option.map_eq_some_iff.mp hvalue
      obtain ⟨w, hw⟩ := value?_of_mem (d := item) hvs' (by simp)
      obtain ⟨draft, hdraft, rfl⟩ := hvalues hitem hw
      refine ⟨inner, [item], [draft], rfl, by simp, .lastItem hdraft hmore, ?_⟩
      rw [values?, hw]
      rfl

theorem soundMembers_succ (hvalues : SoundValues fuel) (hmembers : SoundMembers fuel) :
    SoundMembers (fuel + 1) := by
  intro room read cs d rest v hread hvalue
  cases foundMember_of_readMembers? hread with
  | @member name item _ _ _ _ _ hcs hname hmore hitem hmore' hinside =>
      obtain ⟨inner, members, ms, rfl, rfl, hreads, hvs⟩ := hmembers hinside hvalue
      obtain ⟨vs, hvs', -⟩ := Option.map_eq_some_iff.mp hvalue
      have hmem : (name, item) ∈ ((name, item) :: read).reverse ++ members := by simp
      obtain ⟨⟨n, rfl⟩, w, hw⟩ := memberValue?_of_mem hvs' hmem
      obtain ⟨written, rfl, hspells⟩ := readText?_eq_some_iff.mp hname
      obtain ⟨draft, hdraft, rfl⟩ := hvalues hitem hw
      refine ⟨inner, (some n, item) :: members, (written, draft) :: ms, rfl, by simp,
        .member hcs hspells hmore hdraft hmore' hreads, ?_⟩
      simp only [memberValues?, hw, hvs, Draft.memberValues, hspells.spelled_eq,
        String.ofList_toList]
  | @last name item _ _ _ _ hcs hname hmore hitem hmore' hd =>
      subst hd
      obtain ⟨inner, rfl, hwithin⟩ := within_eq_of_value? hvalue
      rw [hwithin] at hvalue ⊢
      obtain ⟨vs, hvs', -⟩ := Option.map_eq_some_iff.mp hvalue
      have hmem : (name, item) ∈ ((name, item) :: read).reverse := by simp
      obtain ⟨⟨n, rfl⟩, w, hw⟩ := memberValue?_of_mem hvs' hmem
      obtain ⟨written, rfl, hspells⟩ := readText?_eq_some_iff.mp hname
      obtain ⟨draft, hdraft, rfl⟩ := hvalues hitem hw
      refine ⟨inner, [(some n, item)], [(written, draft)], rfl, by simp,
        .lastMember hcs hspells hmore hdraft hmore', ?_⟩
      simp only [memberValues?, hw, Draft.memberValues, hspells.spelled_eq, String.ofList_toList]

theorem soundValues_succ (hitems : SoundItems fuel) (hmembers : SoundMembers fuel) :
    SoundValues (fuel + 1) := by
  intro room cs d rest v hread hvalue
  cases found_of_readValue? hread with
  | number hcs hnumber =>
      obtain ⟨n, rfl⟩ := literal_of_readNumber? hnumber
      have hvalue : Option.map Json.number n = some v := hvalue
      rw [hvalue] at hnumber
      exact ⟨.literal v, .number hcs hnumber, rfl⟩
  | @word _ w hmem hcs hd =>
      subst hd
      exact ⟨.literal w, .word hmem hcs, Option.some.inj hvalue⟩
  | text hcs htext hd =>
      subst hd
      obtain ⟨text, rfl, rfl⟩ := Option.map_eq_some_iff.mp hvalue
      obtain ⟨written, rfl, hspells⟩ := readText?_eq_some_iff.mp htext
      refine ⟨.text written, .text hcs hspells, ?_⟩
      rw [Draft.value, hspells.spelled_eq, String.ofList_toList]
  | emptyArray hcs hbody hd =>
      subst hd
      obtain ⟨inner, rfl, hwithin⟩ := within_eq_of_value? hvalue
      exact ⟨.array [], .emptyArray hcs hbody, Option.some.inj hvalue⟩
  | array hcs hinside =>
      obtain ⟨inner, items, ds, rfl, rfl, hreads, hvs⟩ := hitems hinside hvalue
      refine ⟨.array ds, .array hcs hreads, ?_⟩
      rw [List.reverse_nil, List.nil_append, value?, hvs] at hvalue
      exact Option.some.inj hvalue
  | emptyObject hcs hbody hd =>
      subst hd
      obtain ⟨inner, rfl, hwithin⟩ := within_eq_of_value? hvalue
      exact ⟨.object [], .emptyObject hcs hbody, Option.some.inj hvalue⟩
  | object hcs hinside =>
      obtain ⟨inner, members, ms, rfl, rfl, hreads, hvs⟩ := hmembers hinside hvalue
      refine ⟨.object ms, .object hcs hreads, ?_⟩
      rw [List.reverse_nil, List.nil_append, value?, hvs] at hvalue
      exact Option.some.inj hvalue

theorem sound (fuel : Nat) : SoundValues fuel ∧ SoundItems fuel ∧ SoundMembers fuel := by
  induction fuel with
  | zero =>
      refine ⟨?_, ?_, ?_⟩
      · intro room cs d rest v h
        simp [readValue?] at h
      · intro room read cs d rest v h
        simp [readItems?] at h
      · intro room read cs d rest v h
        simp [readMembers?] at h
  | succ fuel ih =>
      obtain ⟨hvalues, hitems, hmembers⟩ := ih
      exact ⟨soundValues_succ hitems hmembers, soundItems_succ hvalues hitems,
        soundMembers_succ hvalues hmembers⟩

/-! ## What stands there is read -/

/-- Twice the length of the text is fuel enough to read the form, behind whatever has been read
before it. -/
def Form.ReadFrom (room : Nat) (cs rest : List Char) : Form → Prop
  | .value draft => ∀ fuel, 2 * cs.length + 1 ≤ fuel →
      ∃ d, readValue? fuel room cs = some (d, rest) ∧ value? d = some draft.value
  | .items ds => ∀ fuel read, 2 * cs.length + 2 ≤ fuel →
      ∃ items, readItems? fuel (room + 1) read cs = some (.array (read.reverse ++ items), rest) ∧
        values? items = some (Draft.values ds)
  | .members ms => ∀ fuel read, 2 * cs.length + 2 ≤ fuel →
      ∃ members, readMembers? fuel (room + 1) read cs =
          some (.object (read.reverse ++ members), rest) ∧
        memberValues? members = some (Draft.memberValues ms)

theorem readValue?_bracket (hcs : skipGaps cs = '[' :: body)
    (hbody : ∀ rest, skipGaps body ≠ ']' :: rest) :
    readValue? (fuel + 1) room cs = readItems? fuel room [] body := by
  rw [← readItems?_skipGaps]
  simp [readValue?, hcs]

theorem readValue?_brace (hcs : skipGaps cs = '\x7b' :: body)
    (hbody : ∀ rest, skipGaps body ≠ '\x7d' :: rest) :
    readValue? (fuel + 1) room cs = readMembers? fuel room [] body := by
  rw [← readMembers?_skipGaps]
  simp [readValue?, hcs]

theorem readItems?_bracket (h : skipGaps cs = ']' :: rest) (read : List Document) :
    readItems? fuel room read cs = none := by
  match fuel with
  | 0 => rfl
  | 1 => rfl
  | fuel + 2 => simp [readItems?, readValue?, h]

theorem readMembers?_brace (h : skipGaps cs = '\x7d' :: rest)
    (read : List (Option String × Document)) : readMembers? fuel room read cs = none := by
  cases fuel with
  | zero => rfl
  | succ fuel => simp [readMembers?, h]

theorem readValue?_number {negative : Bool} {d : Document}
    (hcs : skipGaps cs = (if negative then ['-'] else []) ++ body)
    (hread : readNumber? negative body = some (d, rest)) :
    readValue? (fuel + 1) room cs = some (d, rest) := by
  obtain ⟨c, more, rfl, hc⟩ := isDigit_of_readNumber? hread
  have hne : ∀ d : Char, d.isDigit = false → c ≠ d := by
    rintro d hd rfl
    rw [hc] at hd
    cases hd
  cases negative with
  | true =>
      rw [readValue?, hcs]
      exact hread
  | false =>
      have hcs : skipGaps cs = c :: more := hcs
      simp only [readValue?, hcs]
      rwa [if_neg (hne '"' rfl), if_neg (hne '[' rfl), if_neg (hne '\x7b' rfl),
        if_neg (hne '-' rfl), if_pos hc]

theorem readValue?_word {word : String} (hword : (word, v) ∈ words)
    (hcs : skipGaps cs = word.toList ++ rest) :
    readValue? (fuel + 1) room cs = some (.literal (some v), rest) := by
  have hread : readWord? word v (word.toList ++ rest) = some (.literal (some v), rest) :=
    readWord?_eq_some_iff.mpr ⟨rfl, rfl⟩
  simp only [words, List.mem_cons, Prod.mk.injEq, List.not_mem_nil, or_false] at hword
  rcases hword with ⟨rfl, rfl⟩ | ⟨rfl, rfl⟩ | ⟨rfl, rfl⟩ <;>
    (rw [readValue?, hcs]; exact hread)

theorem Reads.readFrom {form : Form} (h : Reads room form cs rest) :
    form.ReadFrom room cs rest := by
  induction h with
  | number hcs hread =>
      rintro (- | fuel) hfuel
      · omega
      · exact ⟨_, readValue?_number hcs hread, rfl⟩
  | word hword hcs =>
      rintro (- | fuel) hfuel
      · omega
      · exact ⟨_, readValue?_word hword hcs, rfl⟩
  | @text _ cs body text rest hcs hspells =>
      rintro (- | fuel) hfuel
      · omega
      refine ⟨.literal (some (.string (String.ofList text))), ?_, ?_⟩
      · simp [readValue?, hcs, hspells.readText? rest]
      · rw [value?, Draft.value, hspells.spelled_eq]
  | emptyArray hcs hbody =>
      rintro (- | fuel) hfuel
      · omega
      · exact ⟨.array [], by simp [readValue?, hcs, hbody, within], rfl⟩
  | @array room cs body rest ds hcs _ ih =>
      rintro (- | fuel) hfuel
      · omega
      have hless := length_lt_of_skipGaps hcs
      obtain ⟨items, hread, hvalues⟩ := ih fuel [] (by omega)
      have hbody : ∀ rest', skipGaps body ≠ ']' :: rest' := by
        intro rest' hbracket
        rw [readItems?_bracket hbracket] at hread
        cases hread
      refine ⟨.array items, ?_, ?_⟩
      · rw [readValue?_bracket hcs hbody, hread]
        rfl
      · rw [value?, hvalues]
        rfl
  | emptyObject hcs hbody =>
      rintro (- | fuel) hfuel
      · omega
      · exact ⟨.object [], by simp [readValue?, hcs, hbody, within], rfl⟩
  | @object room cs body rest ms hcs _ ih =>
      rintro (- | fuel) hfuel
      · omega
      have hless := length_lt_of_skipGaps hcs
      obtain ⟨members, hread, hvalues⟩ := ih fuel [] (by omega)
      have hbody : ∀ rest', skipGaps body ≠ '\x7d' :: rest' := by
        intro rest' hbrace
        rw [readMembers?_brace hbrace] at hread
        cases hread
      refine ⟨.object members, ?_, ?_⟩
      · rw [readValue?_brace hcs hbody, hread]
        rfl
      · rw [value?, hvalues]
        rfl
  | lastItem _ hmore ih =>
      rintro (- | fuel) read hfuel
      · omega
      obtain ⟨d, hread, hvalue⟩ := ih fuel (by omega)
      refine ⟨[d], ?_, ?_⟩
      · simp [readItems?, hread, hmore, within]
      · simp [values?, hvalue, Draft.values]
  | item hvalue hmore _ ih ih' =>
      rintro (- | fuel) read hfuel
      · omega
      have hlength := hvalue.length_le
      have hless := length_lt_of_skipGaps hmore
      obtain ⟨d, hread, hvalue⟩ := ih fuel (by omega)
      obtain ⟨items, hread', hvalues⟩ := ih' fuel (d :: read) (by omega)
      refine ⟨d :: items, ?_, ?_⟩
      · simp [readItems?, hread, hmore, hread']
      · simp [values?, hvalue, hvalues, Draft.values]
  | @lastMember _ cs name text more _ _ _ _ hcs hspells hmore _ hmore' ih =>
      rintro (- | fuel) read hfuel
      · omega
      have hless := length_lt_of_quoted hcs
      have hless' := length_lt_of_skipGaps hmore
      have hname := hspells.readText? more
      obtain ⟨d, hread, hvalue⟩ := ih fuel (by omega)
      refine ⟨[(some (String.ofList text), d)], ?_, ?_⟩
      · simp [readMembers?, hcs, hname, hmore, hread, hmore', within]
      · simp [memberValues?, hvalue, Draft.memberValues, hspells.spelled_eq]
  | @member _ cs name text more _ _ _ _ _ _ hcs hspells hmore hvalue hmore' _ ih ih' =>
      rintro (- | fuel) read hfuel
      · omega
      have hless := length_lt_of_quoted hcs
      have hless' := length_lt_of_skipGaps hmore
      have hlength := hvalue.length_le
      have hless'' := length_lt_of_skipGaps hmore'
      have hname := hspells.readText? more
      obtain ⟨d, hread, hvalue⟩ := ih fuel (by omega)
      obtain ⟨members, hread', hvalues⟩ :=
        ih' fuel ((some (String.ofList text), d) :: read) (by omega)
      refine ⟨(some (String.ofList text), d) :: members, ?_, ?_⟩
      · simp [readMembers?, hcs, hname, hmore, hread, hmore', hread']
      · simp [memberValues?, hvalue, hvalues, Draft.memberValues, hspells.spelled_eq]

/-! ## Whole texts -/

/-- The text is the draft, with blanks around it. -/
def Draft.Writes (draft : Draft) (s : String) : Prop :=
  ∃ rest, Reads maxDepth (.value draft) s.toList rest ∧ skipGaps rest = []

end Document

/-- A text is read to the value of the draft that it is. -/
theorem Json.parse?_eq_some_iff {s : String} {v : Json} :
    Json.parse? s = some v ↔ ∃ draft : Document.Draft, draft.Writes s ∧ draft.value = v := by
  constructor
  · intro h
    obtain ⟨d, hparse, hvalue⟩ := Option.bind_eq_some_iff.mp h
    rw [Document.parse?] at hparse
    split at hparse
    · next hread =>
        split at hparse
        · next hrest =>
            obtain rfl := Option.some.inj hparse
            obtain ⟨draft, hreads, rfl⟩ := (Document.sound _).1 hread hvalue
            exact ⟨draft, ⟨_, hreads, List.isEmpty_iff.mp hrest⟩, rfl⟩
        · cases hparse
    · cases hparse
  · rintro ⟨draft, ⟨rest, hreads, hrest⟩, rfl⟩
    obtain ⟨d, hread, hvalue⟩ := hreads.readFrom _ (Nat.le_succ _)
    rw [Json.parse?, Document.parse?, hread]
    simp [hrest, hvalue]

end FlowEngine
