import FlowEngine.Proofs.Http.Percent
/-!
# `FlowEngine.Proofs.Http.Target` — where a URL made of names leads

Who knows the URL of a directory appends names to it, with a slash in front of each, and leaves the
reading of the whole to the rules for the web.  The host stays what it is.  Names that the rules take
as they stand (`IsStep`) are entered one after the other.  What stands behind the last slash need not
be such a name: only its own characters then decide where it leads from there (`ofUrl?_chained`).
-/

namespace FlowEngine.Http.Target

open Text (pieces splitAt)

variable {base text : String} {c : Char} {cs rest last name : List Char}
  {names : List (List Char)} {client : Client}

/-! ## Texts made of names -/

/-- Names with a slash behind each, and what stands behind the last slash. -/
def chained (names : List (List Char)) (last : List Char) : List Char :=
  names.foldr (fun name rest => name ++ '/' :: rest) last

theorem chained_cons : chained (name :: names) last = name ++ '/' :: chained names last := rfl

theorem takeWhile_chained {p : Char → Bool} (hslash : p '/' = true)
    (hnames : ∀ name ∈ names, ∀ c ∈ name, p c = true) :
    (chained names last).takeWhile p = chained names (last.takeWhile p) := by
  induction names with
  | nil => rfl
  | cons name names ih =>
      obtain ⟨hname, hrest⟩ := List.forall_mem_cons.mp hnames
      rw [chained_cons, List.takeWhile_append_of_pos hname, List.takeWhile_cons_of_pos hslash,
        ih hrest, chained_cons]

theorem dropWhile_chained {p : Char → Bool} (hslash : p '/' = true)
    (hnames : ∀ name ∈ names, ∀ c ∈ name, p c = true) :
    (chained names last).dropWhile p = last.dropWhile p := by
  induction names with
  | nil => rfl
  | cons name names ih =>
      obtain ⟨hname, hrest⟩ := List.forall_mem_cons.mp hnames
      rw [chained_cons, List.dropWhile_append_of_pos hname, List.dropWhile_cons_of_pos hslash,
        ih hrest]

/-! ## What counts in a text -/

/-- Characters without those that are dropped wherever they stand. -/
def kept (cs : List Char) : List Char := cs.filter fun c => !isDropped c

theorem kept_eq_self (htab : '\t' ∉ cs) (hline : '\n' ∉ cs) (hreturn : '\r' ∉ cs) :
    kept cs = cs := by
  rw [kept, List.filter_eq_self]
  intro c hc
  rw [isDropped, Bool.not_eq_true', Bool.or_eq_false_iff, Bool.or_eq_false_iff,
    beq_eq_false_iff_ne, beq_eq_false_iff_ne, beq_eq_false_iff_ne]
  exact ⟨⟨ne_of_mem_of_not_mem hc htab, ne_of_mem_of_not_mem hc hline⟩,
    ne_of_mem_of_not_mem hc hreturn⟩

theorem padding_stops : ∀ c ∈ ('/' :: rest).head?, isPadding c = false := by
  intro c hc
  rw [← Option.mem_some_iff.mp hc]
  decide

/-- Blanks in front of a slash are not at the end. -/
theorem significant_append_cons (cs rest : List Char) :
    significant (cs ++ '/' :: rest) = kept cs ++ '/' :: significant rest := by
  have hreverse : (cs ++ '/' :: rest).reverse = rest.reverse ++ '/' :: cs.reverse := by
    rw [List.reverse_append, List.reverse_cons, List.append_assoc, List.singleton_append]
  rw [significant, hreverse, Text.dropWhile_append_of_stops padding_stops, List.reverse_append,
    List.reverse_cons, List.reverse_reverse, List.append_assoc, List.filter_append,
    List.singleton_append, List.filter_cons_of_pos (by decide)]
  rfl

theorem significant_chained :
    significant (chained names last) = chained (names.map kept) (significant last) := by
  induction names with
  | nil => rfl
  | cons name names ih =>
      rw [chained_cons, significant_append_cons, ih, List.map_cons, chained_cons]

/-- The name begins neither a query nor a fragment. -/
def IsInPath (name : List Char) : Prop := '#' ∉ name ∧ '?' ∉ name

theorem IsInPath.forall_ne (hnames : ∀ name ∈ names, IsInPath name) :
    (∀ name ∈ names, ∀ c ∈ name, (c != '#') = true) ∧
      ∀ name ∈ names, ∀ c ∈ name, (c != '?') = true := by
  constructor
  · intro name hname c hc
    exact bne_iff_ne.mpr (ne_of_mem_of_not_mem hc (hnames name hname).1)
  · intro name hname c hc
    exact bne_iff_ne.mpr (ne_of_mem_of_not_mem hc (hnames name hname).2)

theorem pathOf_chained (hnames : ∀ name ∈ names, IsInPath name) :
    pathOf (chained names last) = chained names (pathOf last) := by
  obtain ⟨hhash, hmark⟩ := IsInPath.forall_ne hnames
  rw [pathOf, takeWhile_chained (by decide) hhash, takeWhile_chained (by decide) hmark, pathOf]

theorem queryOf_chained (hnames : ∀ name ∈ names, IsInPath name) :
    queryOf (chained names last) = queryOf last := by
  obtain ⟨hhash, hmark⟩ := IsInPath.forall_ne hnames
  rw [queryOf, takeWhile_chained (by decide) hhash, dropWhile_chained (by decide) hmark, queryOf]

/-! ## Segments -/

theorem spelled_ne_nil (cs : List Char) : spelled cs ≠ [] := by
  rw [spelled, splitAt, String.toList_ofList, Ne, List.map_eq_nil_iff]
  exact Text.pieces_ne_nil _ _

theorem exists_last_spelled (cs : List Char) : ∃ front last, spelled cs = front ++ [last] := by
  have hne := spelled_ne_nil cs
  exact ⟨(spelled cs).dropLast, (spelled cs).getLast hne, (List.dropLast_concat_getLast hne).symm⟩

theorem spelled_append_cons (cs rest : List Char) :
    spelled (cs ++ '/' :: rest) = spelled cs ++ spelled rest := by
  have hslash : slashed '/' = '/' := by decide
  simp only [spelled, splitAt, String.toList_ofList, List.map_append, List.map_cons, hslash,
    Text.pieces_append_cons]

theorem map_slashed (hslash : '\\' ∉ cs) : cs.map slashed = cs := by
  have hid : ∀ c ∈ cs, slashed c = id c := fun c hc => if_neg (ne_of_mem_of_not_mem hc hslash)
  rw [List.map_congr_left hid, List.map_id]

theorem spelled_of_not_mem (hslash : '/' ∉ cs) (hback : '\\' ∉ cs) :
    spelled cs = [String.ofList cs] := by
  rw [spelled, map_slashed hback, Text.splitAt_of_not_mem (by rwa [String.toList_ofList])]

theorem spelled_chained (hnames : ∀ name ∈ names, '/' ∉ name ∧ '\\' ∉ name) :
    spelled (chained names last) = names.map String.ofList ++ spelled last := by
  induction names with
  | nil => rfl
  | cons name names ih =>
      obtain ⟨hname, hrest⟩ := List.forall_mem_cons.mp hnames
      rw [chained_cons, spelled_append_cons, spelled_of_not_mem hname.1 hname.2, ih hrest]
      rfl

theorem slash_not_mem_spelled {segment : String} (h : segment ∈ spelled cs) :
    '/' ∉ segment.toList := by
  obtain ⟨piece, hpiece, rfl⟩ := List.mem_map.mp h
  rw [String.toList_ofList]
  exact (Text.sublist_of_mem_pieces hpiece).2

/-! ## Following segments -/

section Follow

variable {place rest segments : List String} {segment : String}

/-- Go on from a place by a segment that is not the last. -/
def enter (place : List String) (segment : String) : List String :=
  if isAbove segment then place.drop 1
  else if isHere segment then place
  else percentEncode isEscaped segment :: place

theorem follow_cons (hrest : rest ≠ []) :
    follow place (segment :: rest) = follow (enter place segment) rest := by
  obtain ⟨next, more, rfl⟩ := List.exists_cons_of_ne_nil hrest
  rw [follow, enter]
  · split
    · rfl
    · split <;> rfl
  · exact List.cons_ne_nil next more

theorem follow_append (hrest : rest ≠ []) :
    follow place (segments ++ rest) = follow (segments.foldl enter place) rest := by
  induction segments generalizing place with
  | nil => rfl
  | cons segment segments ih =>
      rw [List.cons_append, follow_cons (List.append_ne_nil_of_right_ne_nil segments hrest), ih]
      rfl

/-- The segment names something in the place where it stands. -/
def IsName (segment : String) : Prop := isAbove segment = false ∧ isHere segment = false

theorem enter_of_isName (h : IsName segment) :
    enter place segment = percentEncode isEscaped segment :: place := by
  rw [enter, h.1, h.2]
  rfl

theorem foldl_enter (h : ∀ segment ∈ segments, IsName segment) :
    segments.foldl enter place = (segments.map (percentEncode isEscaped)).reverse ++ place := by
  induction segments generalizing place with
  | nil => rfl
  | cons segment segments ih =>
      obtain ⟨hsegment, hrest⟩ := List.forall_mem_cons.mp h
      rw [List.foldl_cons, enter_of_isName hsegment, ih hrest, List.map_cons, List.reverse_cons,
        List.append_assoc, List.singleton_append]

/-- The last segment stays as it is written, or leaves the empty one behind. -/
theorem follow_singleton_cases (place : List String) (segment : String) :
    ∃ above, follow place [segment] = "" :: above ∨
      follow place [segment] = percentEncode isEscaped segment :: above := by
  rw [follow]
  split
  · exact ⟨_, Or.inl rfl⟩
  · split
    · exact ⟨_, Or.inl rfl⟩
    · exact ⟨_, Or.inr rfl⟩

theorem follow_singleton (h : IsName segment) :
    follow place [segment] = percentEncode isEscaped segment :: place := by
  rw [follow, h.1, h.2]
  rfl

theorem isName_empty : IsName "" := by
  constructor <;> decide

theorem follow_ne_nil (h : segments ≠ []) : follow place segments ≠ [] := by
  have hfront := List.dropLast_concat_getLast h
  obtain ⟨above, hlast | hlast⟩ :=
    follow_singleton_cases (segments.dropLast.foldl enter place) (segments.getLast h)
  all_goals
    rw [← hfront, follow_append (List.cons_ne_nil _ _), hlast]
    exact List.cons_ne_nil _ _

/-- No segment of a place holds a slash. -/
def IsClear (place : List String) : Prop := ∀ segment ∈ place, '/' ∉ segment.toList

theorem IsClear.tail (h : IsClear place) : IsClear (place.drop 1) :=
  fun segment hmem => h segment (List.mem_of_mem_drop hmem)

theorem IsClear.cons (h : IsClear place) (hsegment : '/' ∉ segment.toList) :
    IsClear (segment :: place) := List.forall_mem_cons.mpr ⟨hsegment, h⟩

theorem IsClear.enter (h : IsClear place) (hsegment : '/' ∉ segment.toList) :
    IsClear (enter place segment) := by
  rw [Target.enter]
  split
  · exact h.tail
  · split
    · exact h
    · exact h.cons (slash_not_mem_percentEncode hsegment)

theorem IsClear.follow (h : IsClear place) (hsegments : IsClear segments) :
    IsClear (follow place segments) := by
  induction segments generalizing place with
  | nil => exact h
  | cons segment rest ih =>
      obtain ⟨hsegment, hrest⟩ := List.forall_mem_cons.mp hsegments
      by_cases hnil : rest = []
      · have hempty : '/' ∉ "".toList := by decide
        subst hnil
        rw [Target.follow]
        split
        · exact h.tail.cons hempty
        · split
          · exact h.cons hempty
          · exact h.cons (slash_not_mem_percentEncode hsegment)
      · rw [follow_cons hnil]
        exact ih (h.enter hsegment) hrest

end Follow

/-! ## The path of a URL -/

/-- The segments of the path as they are written, the empty one in front of the first slash too. -/
def written (target : Target) : List String := splitAt '/' target.path

theorem pieces_slashes (cs : List Char) {segments : List String} (h : IsClear segments) :
    pieces '/' (cs ++ segments.flatMap fun segment => '/' :: segment.toList) =
      pieces '/' cs ++ segments.map String.toList := by
  induction segments generalizing cs with
  | nil => simp
  | cons segment segments ih =>
      obtain ⟨hsegment, hrest⟩ := List.forall_mem_cons.mp h
      rw [List.flatMap_cons, List.cons_append, Text.pieces_append_cons, ih _ hrest,
        Text.pieces_of_not_mem hsegment]
      rfl

theorem toList_join_slashes (segments : List String) :
    (String.join (segments.map fun segment => "/" ++ segment)).toList =
      segments.flatMap fun segment => '/' :: segment.toList := by
  induction segments with
  | nil => rfl
  | cons segment segments ih =>
      rw [List.map_cons, String.join_cons, String.toList_append, String.toList_append, ih]
      rfl

theorem splitAt_resolvedPath (h : (spelled cs).drop 1 ≠ []) :
    splitAt '/' (resolvedPath cs) = "" :: (follow [] ((spelled cs).drop 1)).reverse := by
  have hclear : IsClear (follow [] ((spelled cs).drop 1)) :=
    IsClear.follow (fun _ hmem => absurd hmem List.not_mem_nil)
      fun _ hmem => slash_not_mem_spelled (List.mem_of_mem_drop hmem)
  have hpath : resolvedPath cs = String.join ((follow [] ((spelled cs).drop 1)).reverse.map
      fun segment => "/" ++ segment) :=
    if_neg (by rw [List.isEmpty_iff]; exact follow_ne_nil h)
  have hreverse : IsClear (follow [] ((spelled cs).drop 1)).reverse :=
    fun segment hmem => hclear segment (List.mem_reverse.mp hmem)
  have hpieces := pieces_slashes [] hreverse
  rw [List.nil_append] at hpieces
  rw [hpath, splitAt, toList_join_slashes, hpieces, List.map_append, List.map_map]
  simp [pieces]

/-! ## Steps -/

/-- A name that the rules for the web take as it stands. -/
structure IsStep (name : List Char) : Prop where
  inPath : IsInPath name
  noSlash : '/' ∉ name ∧ '\\' ∉ name
  allKept : kept name = name
  isName : IsName (String.ofList name)

/-- The place that the characters in front of the last slash lead to, given by its segments in
reverse. -/
def placeOf (cs : List Char) : List String := ((spelled cs).drop 1).foldl enter []

theorem splitAt_resolvedPath_append_cons (front rest : List Char) :
    splitAt '/' (resolvedPath (front ++ '/' :: rest)) =
      "" :: (follow (placeOf front) (spelled rest)).reverse := by
  have hdrop : (spelled (front ++ '/' :: rest)).drop 1 = (spelled front).drop 1 ++ spelled rest := by
    rw [spelled_append_cons, List.drop_append_of_le_length
      (List.length_pos_iff.mpr (spelled_ne_nil front))]
  have hne : (spelled (front ++ '/' :: rest)).drop 1 ≠ [] := by
    rw [hdrop]
    exact List.append_ne_nil_of_right_ne_nil _ (spelled_ne_nil rest)
  rw [splitAt_resolvedPath hne, hdrop, follow_append (spelled_ne_nil rest)]
  rfl

theorem splitAt_resolvedPath_chained (front : List Char) (hnames : ∀ name ∈ names, IsStep name) :
    splitAt '/' (resolvedPath (front ++ '/' :: chained names last)) =
      "" :: (follow
        ((names.map fun name => percentEncode isEscaped (String.ofList name)).reverse ++ placeOf front)
        (spelled last)).reverse := by
  have hsteps : ∀ segment ∈ names.map String.ofList, IsName segment := by
    intro segment hsegment
    obtain ⟨name, hname, rfl⟩ := List.mem_map.mp hsegment
    exact (hnames name hname).isName
  rw [splitAt_resolvedPath_append_cons,
    spelled_chained fun name hname => (hnames name hname).noSlash,
    follow_append (spelled_ne_nil _), foldl_enter hsteps, List.map_map]
  rfl

theorem significant_steps (hnames : ∀ name ∈ names, IsStep name) :
    significant (chained names last) = chained names (significant last) := by
  have hkept : names.map kept = names := by
    rw [List.map_congr_left fun name hname => (hnames name hname).allKept, List.map_id']
  rw [significant_chained, hkept]

/-! ## Hosts -/

theorem behindScheme_append (h : behindScheme cs ≠ []) (rest : List Char) :
    behindScheme (cs ++ rest) = behindScheme cs ++ rest := by
  have hscheme : cs.dropWhile (· != ':') ≠ [] := by
    intro hnil
    rw [behindScheme, hnil] at h
    exact h rfl
  have hfirst : (cs ++ rest).dropWhile (· != ':') = cs.dropWhile (· != ':') ++ rest := by
    rw [List.dropWhile_append, if_neg (by rwa [List.isEmpty_iff])]
  rw [behindScheme, hfirst,
    List.drop_append_of_le_length (List.length_pos_iff.mpr hscheme), List.dropWhile_append,
    if_neg (by rwa [List.isEmpty_iff]), behindScheme]

/-- Slashes do not begin a host. -/
theorem behindScheme_append_slash (h : behindScheme cs = []) : behindScheme (cs ++ ['/']) = [] := by
  rw [behindScheme, List.dropWhile_append]
  split
  · rfl
  · next hscheme =>
    rw [List.isEmpty_iff] at hscheme
    rw [List.drop_append_of_le_length (List.length_pos_iff.mpr hscheme), List.dropWhile_append,
      if_pos (by rwa [List.isEmpty_iff])]
    rfl

theorem schemeOf_append (h : behindScheme cs ≠ []) (rest : List Char) :
    schemeOf (cs ++ rest) = schemeOf cs := by
  have hscheme : (cs.takeWhile (· != ':')).length ≠ cs.length := by
    intro hlength
    have hall := List.takeWhile_eq_self_iff.mp
      ((List.takeWhile_sublist (· != ':')).eq_of_length hlength)
    rw [behindScheme, List.dropWhile_eq_nil_iff.mpr hall] at h
    exact h rfl
  rw [schemeOf, List.takeWhile_append, if_neg hscheme, schemeOf]

theorem host_stops : ∀ c ∈ ('/' :: rest).head?, (!endsHost c) = false := by
  intro c hc
  rw [← Option.mem_some_iff.mp hc]
  decide

theorem authorityOf_append_cons (h : behindScheme cs ≠ []) (rest : List Char) :
    authorityOf (cs ++ '/' :: rest) = authorityOf cs := by
  rw [authorityOf, behindScheme_append h, Text.takeWhile_append_of_stops host_stops, authorityOf]

theorem behindHost_append_cons (h : behindScheme cs ≠ []) (rest : List Char) :
    behindHost (cs ++ '/' :: rest) = behindHost cs ++ '/' :: rest := by
  rw [behindHost, behindScheme_append h, Text.dropWhile_append_of_stops host_stops, behindHost]

theorem behindScheme_ne_nil_of_isReachable (h : isReachable client (cs ++ ['/']) = true) :
    behindScheme cs ≠ [] := by
  intro hnil
  rw [isReachable, authorityOf, behindScheme_append_slash hnil] at h
  simp at h

theorem isReachable_append_cons (h : behindScheme cs ≠ []) (rest : List Char) :
    isReachable client (cs ++ '/' :: rest) = isReachable client cs := by
  rw [isReachable, schemeOf_append h, authorityOf_append_cons h, isReachable]

theorem behindHost_sublist (cs : List Char) : (behindHost cs).Sublist cs :=
  (List.dropWhile_sublist _).trans
    ((List.dropWhile_sublist _).trans ((List.drop_sublist 1 _).trans (List.dropWhile_sublist _)))

/-- The characters of a base that count. -/
def baseOf (base : String) : List Char := kept (base.toList.dropWhile isPadding)

theorem significant_of_base (htext : text.toList = base.toList ++ '/' :: rest) :
    significant (text.toList.dropWhile isPadding) = baseOf base ++ '/' :: significant rest := by
  rw [htext, Text.dropWhile_append_of_stops padding_stops, significant_append_cons, baseOf]

theorem toList_append_slash (base : String) : (base ++ "/").toList = base.toList ++ ['/'] := by
  simp [String.toList_append]

/-- The slash behind a base adds no host to it. -/
theorem behindScheme_baseOf_ne_nil {directory : Target}
    (h : ofUrl? client (base ++ "/") = some directory) : behindScheme (baseOf base) ≠ [] := by
  rw [ofUrl?, significant_of_base (toList_append_slash base)] at h
  exact behindScheme_ne_nil_of_isReachable (Option.ite_none_right_eq_some.mp h).1

theorem ofUrl?_of_base (client : Client) (hbase : behindScheme (baseOf base) ≠ [])
    (htext : text.toList = base.toList ++ '/' :: rest) :
    ofUrl? client text =
      if isReachable client (baseOf base) then
        some
          { origin := schemeOf (baseOf base) ++ "://" ++ authorityOf (baseOf base)
            path := resolvedPath (pathOf (behindHost (baseOf base) ++ '/' :: significant rest))
            query := queryOf (behindHost (baseOf base) ++ '/' :: significant rest) }
      else none := by
  rw [ofUrl?, significant_of_base htext]
  simp only [isReachable_append_cons hbase, schemeOf_append hbase, authorityOf_append_cons hbase,
    behindHost_append_cons hbase]

theorem isInPath_behindHost (hbase : IsInPath base.toList) :
    IsInPath (behindHost (baseOf base)) := by
  have hsub : (behindHost (baseOf base)).Sublist base.toList :=
    (behindHost_sublist _).trans (List.filter_sublist.trans (List.dropWhile_sublist _))
  exact ⟨fun hmem => hbase.1 (hsub.mem hmem), fun hmem => hbase.2 (hsub.mem hmem)⟩

/-! ## Names behind a base -/

/-- Names behind a base lead from its place to one place after the other; what the last of them, or
what stands there, means is up to its own characters. -/
theorem ofUrl?_chained {directory : Target} (hbase : IsInPath base.toList)
    (hdirectory : ofUrl? client (base ++ "/") = some directory) :
    ∃ place, directory.written = "" :: ("" :: place).reverse ∧
      ∀ {names last text}, (∀ name ∈ names, IsStep name) →
        text.toList = chained (base.toList :: names) last →
        ∃ target, ofUrl? client text = some target ∧ target.origin = directory.origin ∧
          target.query = queryOf (significant last) ∧
          target.written = "" :: (follow
            ((names.map fun name => percentEncode isEscaped (String.ofList name)).reverse ++ place)
            (spelled (pathOf (significant last)))).reverse := by
  have hhost := behindScheme_baseOf_ne_nil hdirectory
  have hfront := isInPath_behindHost hbase
  rw [ofUrl?_of_base client hhost (toList_append_slash base)] at hdirectory
  obtain ⟨hreach, hdirectory⟩ := Option.ite_none_right_eq_some.mp hdirectory
  obtain rfl := Option.some.inj hdirectory
  refine ⟨placeOf (behindHost (baseOf base)), ?_, ?_⟩
  · have hpath : pathOf (behindHost (baseOf base) ++ '/' :: significant []) =
        behindHost (baseOf base) ++ '/' :: [] :=
      pathOf_chained (List.forall_mem_singleton.mpr hfront)
    rw [written, hpath, splitAt_resolvedPath_append_cons, spelled_of_not_mem List.not_mem_nil
      List.not_mem_nil, follow_singleton isName_empty]
    rfl
  · intro names last text hnames htext
    have hinPath : ∀ name ∈ behindHost (baseOf base) :: names, IsInPath name :=
      List.forall_mem_cons.mpr ⟨hfront, fun name hname => (hnames name hname).inPath⟩
    have hpath : pathOf (behindHost (baseOf base) ++ '/' :: chained names (significant last)) =
        behindHost (baseOf base) ++ '/' :: chained names (pathOf (significant last)) := by
      rw [← chained_cons, pathOf_chained hinPath, chained_cons]
    have hquery : queryOf (behindHost (baseOf base) ++ '/' :: chained names (significant last)) =
        queryOf (significant last) := by
      rw [← chained_cons, queryOf_chained hinPath]
    have hbehind : text.toList = base.toList ++ '/' :: chained names last := htext
    have htarget := ofUrl?_of_base client hhost hbehind
    rw [if_pos hreach, significant_steps hnames, hpath, hquery] at htarget
    refine ⟨_, htarget, rfl, rfl, ?_⟩
    rw [written, splitAt_resolvedPath_chained _ hnames]

/-! ## Texts that stay as they are -/

section Stays

variable {d : Char} {s segment : String}

theorem eq_of_toLower (h : c.toLower = d) (hd : d.toNat < 97) : c = d := by
  obtain hsame | ⟨hcapital, hshift⟩ := Text.toLower_cases c
  · exact hsame.symm.trans h
  · rw [h] at hshift
    omega

theorem isSome_hexValue?_of_toLower (h : c.toLower = 'e') : (Text.hexValue? c).isSome = true := by
  obtain hsame | ⟨-, hshift⟩ := Text.toLower_cases c
  · rw [← hsame, h]
    decide
  · have hsmall : 'e'.toNat = 'E'.toNat + 32 := rfl
    rw [h, hsmall] at hshift
    rw [Char.toNat_inj.mp (Nat.add_right_cancel hshift).symm]
    decide

theorem hasEscape_of_toLower (before behind : List Char)
    (h : cs.map Char.toLower = before ++ '%' :: '2' :: 'e' :: behind) : HasEscape cs := by
  obtain ⟨front, rest, rfl, -, hrest⟩ := List.map_eq_append_iff.mp h
  obtain ⟨sign, rest, rfl, hsign, hrest⟩ := List.map_eq_cons_iff.mp hrest
  obtain ⟨two, rest, rfl, htwo, hrest⟩ := List.map_eq_cons_iff.mp hrest
  obtain ⟨e, rest, rfl, he, -⟩ := List.map_eq_cons_iff.mp hrest
  obtain rfl := eq_of_toLower hsign (by decide)
  obtain rfl := eq_of_toLower htwo (by decide)
  exact ⟨front, _, rfl, _, _, rest, rfl, by decide, isSome_hexValue?_of_toLower he⟩

theorem isName_of_not_hasEscape (hescape : ¬ HasEscape s.toList) (hhere : s ≠ ".")
    (habove : s ≠ "..") : IsName s := by
  have hlower : ∀ {t : String}, Text.lower s = t → s.toList.map Char.toLower = t.toList := by
    rintro t rfl
    exact String.toList_ofList.symm
  constructor
  · rw [isAbove, ← Bool.not_eq_true, List.contains_iff_mem]
    intro hmem
    simp only [List.mem_cons, List.not_mem_nil, or_false] at hmem
    obtain hdots | hfirst | hsecond | hboth := hmem
    · obtain ⟨a, rest, hs, ha, hrest⟩ := List.map_eq_cons_iff.mp (hlower hdots)
      obtain ⟨b, rest, rfl, hb, hrest⟩ := List.map_eq_cons_iff.mp hrest
      obtain rfl := List.map_eq_nil_iff.mp hrest
      rw [eq_of_toLower ha (by decide), eq_of_toLower hb (by decide)] at hs
      exact habove (String.toList_inj.mp hs)
    · exact hescape (hasEscape_of_toLower ['.'] [] (hlower hfirst))
    · exact hescape (hasEscape_of_toLower [] ['.'] (hlower hsecond))
    · exact hescape (hasEscape_of_toLower [] ['%', '2', 'e'] (hlower hboth))
  · rw [isHere, Bool.or_eq_false_iff, beq_eq_false_iff_ne, beq_eq_false_iff_ne]
    refine ⟨hhere, fun hdot => ?_⟩
    exact hescape (hasEscape_of_toLower [] [] (hlower hdot))

/-- The characters that end a path or a segment of it, and those that are dropped. -/
def marks : List Char := ['/', '\\', '?', '#', '\t', '\n', '\r']

/-- A text that the rules for the web leave as it is, wherever in a path it is appended: no character
ends the path or a segment of it, none is dropped, and no escape is decoded. -/
structure Stays (cs : List Char) : Prop where
  chars : ∀ c ∈ cs, c ∉ marks
  ending : ∀ c ∈ cs.getLast?, isPadding c = false
  noEscape : ¬ HasEscape cs

theorem pathOf_sublist (cs : List Char) : (pathOf cs).Sublist cs :=
  (List.takeWhile_sublist _).trans (List.takeWhile_sublist _)

theorem ne_of_mem_pathOf (h : c ∈ pathOf cs) : c ≠ '#' ∧ c ≠ '?' := by
  have hhash := List.mem_takeWhile_imp ((List.takeWhile_sublist _).mem h)
  have hmark := List.mem_takeWhile_imp h
  exact ⟨bne_iff_ne.mp hhash, bne_iff_ne.mp hmark⟩

theorem isDropped_of_mem_significant (h : c ∈ significant cs) : isDropped c = false := by
  have hkept := (List.mem_filter.mp h).2
  rwa [Bool.not_eq_true'] at hkept

theorem significant_sublist (cs : List Char) : (significant cs).Sublist cs := by
  have hdrop := (List.dropWhile_sublist isPadding (l := cs.reverse)).reverse
  rw [List.reverse_reverse] at hdrop
  exact List.filter_sublist.trans hdrop

theorem significant_of_ending (h : ∀ c ∈ cs.getLast?, isPadding c = false) :
    significant cs = kept cs := by
  have hstops : ∀ c ∈ cs.reverse.head?, isPadding c = false := by rwa [List.head?_reverse]
  have hnone : ([] ++ cs.reverse).dropWhile isPadding = cs.reverse :=
    Text.dropWhile_append_of_stops hstops
  rw [List.nil_append] at hnone
  rw [significant, hnone, List.reverse_reverse]
  rfl

theorem ending_of_significant (h : significant cs = cs) :
    ∀ c ∈ cs.getLast?, isPadding c = false := by
  have hdrop := (List.dropWhile_sublist isPadding (l := cs.reverse)).length_le
  have hlength := congrArg List.length h
  have hfilter := List.length_filter_le (fun c => !isDropped c)
    (cs.reverse.dropWhile isPadding).reverse
  rw [significant] at hlength
  rw [List.length_reverse] at hdrop hfilter
  have hnone : cs.reverse.dropWhile isPadding = cs.reverse :=
    (List.dropWhile_sublist isPadding).eq_of_length (by rw [List.length_reverse]; omega)
  intro c hc
  obtain ⟨front, rfl⟩ := List.getLast?_eq_some_iff.mp hc
  rw [List.reverse_append, List.reverse_singleton, List.singleton_append] at hnone
  exact Bool.eq_false_iff.mpr (List.dropWhile_eq_self_iff.mp hnone (Nat.succ_pos _))

theorem Stays.not_mem (h : Stays cs) (hd : d ∈ marks) : d ∉ cs := fun hmem => h.chars d hmem hd

theorem Stays.significant (h : Stays cs) : significant cs = cs := by
  rw [significant_of_ending h.ending,
    kept_eq_self (h.not_mem (by decide)) (h.not_mem (by decide)) (h.not_mem (by decide))]

theorem Stays.takeWhile_hash (h : Stays cs) : cs.takeWhile (· != '#') = cs :=
  List.takeWhile_eq_self_iff.mpr fun c hc => bne_iff_ne.mpr (ne_of_mem_of_not_mem hc (h.not_mem (by decide)))

theorem Stays.pathOf (h : Stays cs) : pathOf cs = cs := by
  rw [Target.pathOf, h.takeWhile_hash, List.takeWhile_eq_self_iff]
  exact fun c hc => bne_iff_ne.mpr (ne_of_mem_of_not_mem hc (h.not_mem (by decide)))

theorem Stays.queryOf (h : Stays cs) : queryOf cs = [] := by
  have hmark : cs.dropWhile (· != '?') = [] :=
    List.dropWhile_eq_nil_iff.mpr fun c hc => bne_iff_ne.mpr (ne_of_mem_of_not_mem hc (h.not_mem (by decide)))
  rw [Target.queryOf, h.takeWhile_hash, hmark]
  rfl

theorem Stays.spelled (h : Stays cs) : spelled cs = [String.ofList cs] :=
  spelled_of_not_mem (h.not_mem (by decide)) (h.not_mem (by decide))

/-- Where no character means anything to the rules, they change nothing. -/
theorem stays_of_all (hsign : '%' ∉ cs) (hchars : cs.all (fun c => !marks.contains c) = true)
    (hending : cs.getLast?.all (fun c => !isPadding c) = true) : Stays cs where
  chars := fun c hc hmem => by
    have hnot := List.all_eq_true.mp hchars c hc
    rw [Bool.not_eq_true', ← Bool.not_eq_true, List.contains_iff_mem] at hnot
    exact hnot hmem
  ending := fun c hc => by
    rw [Option.mem_def.mp hc, Option.all_some, Bool.not_eq_true'] at hending
    exact hending
  noEscape := by
    rintro ⟨before, behind, rfl, -⟩
    exact hsign (List.mem_append_right before List.mem_cons_self)

/-- A text that is a path as a whole, and one segment of it, and stands for itself. -/
theorem stays_of_pathOf (hpath : pathOf (significant cs) = cs) (hslash : '/' ∉ cs)
    (hback : '\\' ∉ cs) (hescape : ¬ HasEscape cs) : Stays cs := by
  have hlonger := (pathOf_sublist (significant cs)).length_le
  rw [hpath] at hlonger
  have hcounts : significant cs = cs := (significant_sublist cs).eq_of_length_le hlonger
  refine ⟨fun c hc => ?_, ending_of_significant hcounts, hescape⟩
  obtain ⟨hhash, hmark⟩ := ne_of_mem_pathOf (hpath.symm ▸ hc)
  have hdropped := isDropped_of_mem_significant (hcounts.symm ▸ hc)
  rw [isDropped, Bool.or_eq_false_iff, Bool.or_eq_false_iff, beq_eq_false_iff_ne,
    beq_eq_false_iff_ne, beq_eq_false_iff_ne] at hdropped
  simp only [marks, List.mem_cons, List.not_mem_nil, or_false, not_or]
  exact ⟨ne_of_mem_of_not_mem hc hslash, ne_of_mem_of_not_mem hc hback, hmark, hhash,
    hdropped.1.1, hdropped.1.2, hdropped.2⟩

/-! ### Counting bytes -/

/-- A slash has as many bytes as the backslash that counts as one. -/
theorem length_toBytes_map_slashed (cs : List Char) :
    (Text.toBytes (cs.map slashed)).length = (Text.toBytes cs).length := by
  induction cs with
  | nil => rfl
  | cons c cs ih =>
      have hc : (String.utf8EncodeChar (slashed c)).length = (String.utf8EncodeChar c).length := by
        rw [slashed]
        split
        · next heq => subst heq; decide
        · rfl
      rw [List.map_cons, Text.toBytes_cons, Text.toBytes_cons, List.length_append,
        List.length_append, hc, ih]

/-- Whatever the rules do to a text that does not stay as it is makes all its segments stand for
fewer bytes than the text has. -/
theorem stays_of_length_le (hmem : segment ∈ spelled (pathOf (significant cs)))
    (hlength : (Text.toBytes cs).length ≤ (meant segment.toList).length) : Stays cs := by
  obtain ⟨piece, hpiece, rfl⟩ := List.mem_map.mp hmem
  rw [String.toList_ofList] at hpiece hlength
  obtain ⟨hpath, hslash⟩ := Text.sublist_of_mem_pieces hpiece
  have hsub := (pathOf_sublist (significant cs)).trans (significant_sublist cs)
  have hmeant := length_meant_le piece
  have hpieceLength := Text.length_toBytes_le hpath
  have hpathLength := Text.length_toBytes_le hsub
  rw [length_toBytes_map_slashed] at hpieceLength
  have hwhole : pathOf (significant cs) = cs :=
    Text.eq_of_length_toBytes_le hsub (by omega)
  have hone : piece = (pathOf (significant cs)).map slashed :=
    Text.eq_of_length_toBytes_le hpath (by rw [length_toBytes_map_slashed]; omega)
  rw [hwhole] at hone
  have hslashes : '/' ∉ cs ∧ '\\' ∉ cs := by
    constructor
    · exact fun hin => hslash (hone ▸ List.mem_map.mpr ⟨_, hin, by decide⟩)
    · exact fun hin => hslash (hone ▸ List.mem_map.mpr ⟨_, hin, by decide⟩)
  rw [map_slashed hslashes.2] at hone
  subst hone
  refine stays_of_pathOf hwhole hslashes.1 hslashes.2 fun hescape => ?_
  have hshorter := length_meant_lt hescape
  omega

end Stays

end FlowEngine.Http.Target
