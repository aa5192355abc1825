import FlowEngine.Gateway.Records
import FlowEngine.Proofs.Http.Target
import FlowEngine.Text.Letter
/-!
# `FlowEngine.Proofs.Gateway.Addressing` — which record a request goes to

The identifier of a record is put at the end of a URL as it is, and the rules for the web then read
the whole.  So a request goes to the record that was asked for exactly if these rules leave the
identifier as it is (`addresses_iff_stays`), and among such identifiers no two records share an
address (`Addresses.unique`).  Any other identifier goes astray: it may cut the path short, put
something in the query, or climb out of the collection (`not_addressed_climbing`).
-/

namespace FlowEngine

namespace Http.Target

def segments (target : Target) : List (List UInt8) :=
  target.written.map fun segment => meant segment.toList

end Http.Target

namespace RecordGateway

open Http (Target meant HasEscape meant_percentEncode meant_of_not_hasEscape percentEncode)
open Http.Target (IsStep Stays chained follow spelled pathOf queryOf significant kept isEscaped)
open Text (toBytes)

variable {gateway : RecordGateway} {directory target : Target} {c : Char}
  {collection id : String} {parameters : List (String × String)} {made : Option Http.Request}

/-! ## Names of collections -/

def isNamePart (c : Char) : Bool := Text.isLetterOrNumeral c || c == '_'

def IsCollection (name : String) : Prop := ∀ c ∈ name.toList, isNamePart c = true

theorem IsCollection.not_mem (h : IsCollection collection) (hc : isNamePart c = false) :
    c ∉ collection.toList := by
  intro hmem
  rw [h c hmem] at hc
  cases hc

theorem IsCollection.not_hasEscape (h : IsCollection collection) :
    ¬ HasEscape collection.toList := by
  rintro ⟨before, behind, hcs, -⟩
  refine h.not_mem (by decide) (c := '%') ?_
  rw [hcs]
  exact List.mem_append_right _ List.mem_cons_self

theorem IsCollection.isStep (h : IsCollection collection) : IsStep collection.toList where
  inPath := ⟨h.not_mem (by decide), h.not_mem (by decide)⟩
  noSlash := ⟨h.not_mem (by decide), h.not_mem (by decide)⟩
  allKept := Target.kept_eq_self (h.not_mem (by decide)) (h.not_mem (by decide))
    (h.not_mem (by decide))
  isName := by
    have hdot : '.' ∉ collection.toList := h.not_mem (by decide)
    rw [String.ofList_toList]
    refine Target.isName_of_not_hasEscape h.not_hasEscape ?_ ?_
    · rintro rfl
      exact hdot (by decide)
    · rintro rfl
      exact hdot (by decide)

/-! ## The address of a record -/

/-- The gateway's base is the URL of a directory on a host that its client can name, and has neither a
query nor a fragment. -/
structure IsAt (gateway : RecordGateway) (directory : Target) : Prop where
  inPath : Target.IsInPath gateway.base.toList
  directory : Target.ofUrl? gateway.client (gateway.base ++ "/") = some directory

/-- The names between the base and the identifier. -/
def way (collection : String) : List String := ["api", "collections", collection, "records"]

/-- The target is the one record in the directory, on the same host, with the parameters and nothing
else for a query. -/
structure Addresses (directory : Target) (collection id : String)
    (parameters : List (String × String)) (target : Target) : Prop where
  origin : target.origin = directory.origin
  segments : target.segments =
    directory.segments.dropLast ++ (way collection ++ [id]).map fun name => toBytes name.toList
  query : target.query = parameters

/-- A path is the address of one record at most. -/
theorem Addresses.unique {collection' id' : String} {parameters' : List (String × String)}
    {target' : Target} (h : Addresses directory collection id parameters target)
    (h' : Addresses directory collection' id' parameters' target')
    (hpath : target.path = target'.path) : collection = collection' ∧ id = id' := by
  have hsegments : target.segments = target'.segments := by
    rw [Target.segments, Target.segments, Target.written, Target.written, hpath]
  rw [h.segments, h'.segments] at hsegments
  have hnames := List.append_cancel_left hsegments
  simp only [way, List.cons_append, List.nil_append, List.map_cons, List.map_nil,
    List.cons.injEq, and_true, true_and] at hnames
  exact ⟨String.toList_inj.mp (Text.toBytes_injective hnames.1),
    String.toList_inj.mp (Text.toBytes_injective hnames.2)⟩

theorem isCollection_way (h : IsCollection collection) :
    ∀ name ∈ way collection, IsCollection name := by
  have hword : ∀ {name : String}, name.toList.all isNamePart = true → IsCollection name :=
    fun hall => List.all_eq_true.mp hall
  intro name hname
  rw [way, List.mem_cons, List.mem_cons, List.mem_cons, List.mem_singleton] at hname
  obtain rfl | rfl | rfl | rfl := hname
  · exact hword (by decide)
  · exact hword (by decide)
  · exact h
  · exact hword (by decide)

theorem toList_recordUrl (gateway : RecordGateway) (collection id : String) :
    (gateway.recordUrl collection id).toList =
      chained (gateway.base.toList :: (way collection).map String.toList) id.toList := by
  simp [recordUrl, recordsUrl, way, chained, String.toList_append]

/-- The address of a record leads along the way, and from there on wherever the identifier does. -/
theorem IsAt.ofUrl? (hat : gateway.IsAt directory) (hcollection : IsCollection collection)
    (id : String) :
    ∃ target place, Target.ofUrl? gateway.client (gateway.recordUrl collection id) = some target ∧
      target.origin = directory.origin ∧ target.query = queryOf (significant id.toList) ∧
      target.written =
        "" :: (follow place (spelled (pathOf (significant id.toList)))).reverse ∧
      ("" :: place.reverse).map (fun segment => meant segment.toList) =
        directory.segments.dropLast ++ (way collection).map fun name => toBytes name.toList := by
  have hway := isCollection_way hcollection
  have hsteps : ∀ name ∈ (way collection).map String.toList, IsStep name := by
    intro name hname
    obtain ⟨word, hword, rfl⟩ := List.mem_map.mp hname
    exact (hway word hword).isStep
  obtain ⟨place, hdirectory, hchained⟩ := Target.ofUrl?_chained hat.inPath hat.directory
  obtain ⟨target, htarget, horigin, hquery, hwritten⟩ :=
    hchained hsteps (toList_recordUrl gateway collection id)
  refine ⟨target, _, htarget, horigin, hquery, hwritten, ?_⟩
  have hnames : ∀ name ∈ way collection,
      meant (percentEncode isEscaped (String.ofList name.toList)).toList = toBytes name.toList := by
    intro name hname
    rw [String.ofList_toList, meant_percentEncode,
      meant_of_not_hasEscape (hway name hname).not_hasEscape]
  have hplace : directory.segments.dropLast =
      ("" :: place.reverse).map fun segment => meant segment.toList := by
    rw [Target.segments, hdirectory, List.reverse_cons, ← List.cons_append, List.map_append,
      List.map_singleton, List.dropLast_concat]
  rw [hplace, List.reverse_append, List.reverse_reverse, ← List.cons_append, List.map_append,
    List.map_map, List.map_map]
  simp only [Function.comp_def]
  rw [List.map_congr_left hnames]

/-! ## Identifiers -/

/-- An identifier that names something. -/
def IsIdentifier (id : String) : Prop := id ≠ "" ∧ id ≠ "." ∧ id ≠ ".."

/-- An identifier that the rules leave alone is the last segment, and nothing gets into the query. -/
theorem addresses_of_stays {place : List String} (hid : IsIdentifier id) (hstays : Stays id.toList)
    (horigin : target.origin = directory.origin)
    (hquery : target.query = queryOf (significant id.toList))
    (hwritten : target.written =
      "" :: (follow place (spelled (pathOf (significant id.toList)))).reverse)
    (hplace : ("" :: place.reverse).map (fun segment => meant segment.toList) =
      directory.segments.dropLast ++ (way collection).map fun name => toBytes name.toList) :
    Addresses directory collection id parameters
      { target with query := target.query ++ parameters } where
  origin := horigin
  segments := by
    have hname := Target.isName_of_not_hasEscape hstays.noEscape hid.2.1 hid.2.2
    have hlast : meant (percentEncode isEscaped id).toList = toBytes id.toList := by
      rw [meant_percentEncode, meant_of_not_hasEscape hstays.noEscape]
    show target.segments = _
    rw [hstays.significant, hstays.pathOf, hstays.spelled, String.ofList_toList,
      Target.follow_singleton hname, List.reverse_cons, ← List.cons_append] at hwritten
    rw [Target.segments, hwritten, List.map_append, hplace, List.map_append, List.append_assoc,
      List.map_singleton, List.map_singleton, hlast]
  query := by
    show target.query ++ parameters = parameters
    rw [hquery, hstays.significant, hstays.queryOf, List.nil_append]

/-- The last segment stands for the identifier only if the rules leave the identifier alone. -/
theorem stays_of_segments {place : List String} (hid : IsIdentifier id)
    (hwritten : target.written =
      "" :: (follow place (spelled (pathOf (significant id.toList)))).reverse)
    (hsegments : target.segments =
      directory.segments.dropLast ++ (way collection ++ [id]).map fun name => toBytes name.toList) :
    Stays id.toList := by
  obtain ⟨front, last, hspelled⟩ := Target.exists_last_spelled (pathOf (significant id.toList))
  have hlast : last ∈ spelled (pathOf (significant id.toList)) := by
    rw [hspelled]
    exact List.mem_append_right _ List.mem_cons_self
  rw [Target.segments, hwritten, hspelled, Target.follow_append (List.cons_ne_nil _ _),
    List.map_append, ← List.append_assoc] at hsegments
  obtain ⟨above, hempty | hencoded⟩ :=
    Target.follow_singleton_cases (front.foldl Target.enter place) last
  · rw [hempty, List.reverse_cons, ← List.cons_append, List.map_append, List.map_singleton,
      List.map_singleton] at hsegments
    have hnothing : meant "".toList = toBytes id.toList :=
      (List.append_singleton_inj.mp hsegments).2
    have hempty : toBytes "".toList = toBytes id.toList := hnothing
    exact absurd (String.toList_inj.mp (Text.toBytes_injective hempty)).symm hid.1
  · rw [hencoded, List.reverse_cons, ← List.cons_append, List.map_append, List.map_singleton,
      List.map_singleton] at hsegments
    have hmeant : meant (percentEncode isEscaped last).toList = toBytes id.toList :=
      (List.append_singleton_inj.mp hsegments).2
    rw [meant_percentEncode] at hmeant
    exact Target.stays_of_length_le hlast (Nat.le_of_eq (congrArg List.length hmeant.symm))

/-! ## Requests for one record -/

/-- A request for one record, if it can be made, and its parameters. -/
inductive Asks (gateway : RecordGateway) (collection id : String) :
    List (String × String) → Option Http.Request → Prop
  | getOne (options : FetchOptions) :
      Asks gateway collection id (fetchParameters options)
        (gateway.getOneRequest? collection id options)
  | update (data : Json) :
      Asks gateway collection id [] (gateway.updateRequest? collection id data)

theorem request?_of_ofUrl? {method url : String} {body : Option Json}
    (h : Target.ofUrl? gateway.client url = some target) :
    (gateway.request? method url parameters body).isSome = gateway.token.all Http.isHeaderValue ∧
      ∀ request ∈ gateway.request? method url parameters body,
        request.target = { target with query := target.query ++ parameters } := by
  cases htoken : gateway.token.all Http.isHeaderValue with
  | true => simp [request?, h, htoken]
  | false => simp [request?, h, htoken]

/-- A request is made unless the token does not fit into a header, and what is appended to the
address of the record are the parameters. -/
theorem Asks.leads (h : Asks gateway collection id parameters made)
    (htarget : Target.ofUrl? gateway.client (gateway.recordUrl collection id) = some target) :
    made.isSome = gateway.token.all Http.isHeaderValue ∧
      ∀ request ∈ made, request.target = { target with query := target.query ++ parameters } := by
  cases h with
  | getOne options => exact request?_of_ofUrl? htarget
  | update data => exact request?_of_ofUrl? htarget

/-- Every request for one record is made, and it goes to this record exactly if the rules for the web
leave the identifier as it is. -/
theorem Asks.addresses_iff (h : Asks gateway collection id parameters made)
    (hat : gateway.IsAt directory) (hcollection : IsCollection collection)
    (hid : IsIdentifier id) :
    made.isSome = gateway.token.all Http.isHeaderValue ∧
      ∀ request ∈ made,
        (Addresses directory collection id parameters request.target ↔ Stays id.toList) := by
  obtain ⟨target, place, htarget, horigin, hquery, hwritten, hplace⟩ := hat.ofUrl? hcollection id
  obtain ⟨hmade, hrequest⟩ := h.leads htarget
  refine ⟨hmade, fun request hmem => ?_⟩
  rw [hrequest request hmem]
  constructor
  · intro haddresses
    have hsegments : target.segments = _ := haddresses.segments
    exact stays_of_segments hid hwritten hsegments
  · intro hstays
    exact addresses_of_stays hid hstays horigin hquery hwritten hplace

/-- Whatever the base, the collection and the identifier, a request for one record goes to the record
in the directory with its parameters for a query exactly if the identifier is one that the rules for
the web leave as it is; and no path that such an identifier leads to belongs to another identifier or
another collection. -/
theorem addresses_iff_stays (hat : gateway.IsAt directory) (hcollection : IsCollection collection)
    (hid : IsIdentifier id) :
    (∀ {parameters made}, Asks gateway collection id parameters made →
      made.isSome = gateway.token.all Http.isHeaderValue ∧
        ∀ request ∈ made,
          (Addresses directory collection id parameters request.target ↔ Stays id.toList)) ∧
      ∀ {collection' id' parameters parameters' made made'}, IsCollection collection' →
        IsIdentifier id' → Stays id.toList → Stays id'.toList →
        Asks gateway collection id parameters made →
        Asks gateway collection' id' parameters' made' →
        ∀ request ∈ made, ∀ request' ∈ made', request.target.path = request'.target.path →
          collection = collection' ∧ id = id' := by
  refine ⟨fun h => h.addresses_iff hat hcollection hid, ?_⟩
  intro collection' id' parameters parameters' made made' hcollection' hid' hstays hstays' h h'
    request hmem request' hmem' hpath
  have haddresses := ((h.addresses_iff hat hcollection hid).2 request hmem).mpr hstays
  have haddresses' := ((h'.addresses_iff hat hcollection' hid').2 request' hmem').mpr hstays'
  exact haddresses.unique haddresses' hpath

/-- A record store below a base with dots in it, and an identifier with a blank. -/
theorem addresses_iff_stays_blank :
    let gateway : RecordGateway :=
      { client := .plain, base := "http://127.0.0.1:8090/v1/../pb" }
    let directory : Target := { origin := "http://127.0.0.1:8090", path := "/pb/" }
    gateway.IsAt directory ∧ IsCollection "notes" ∧ IsIdentifier "ab 7" ∧ Stays "ab 7".toList ∧
      ∃ request ∈ gateway.updateRequest? "notes" "ab 7" .null,
        request.target.path = "/pb/api/collections/notes/records/ab%207" ∧
          Addresses directory "notes" "ab 7" [] request.target := by
  intro gateway directory
  have hat : gateway.IsAt directory := ⟨⟨by decide, by decide⟩, by decide +kernel⟩
  have hcollection : IsCollection "notes" := List.all_eq_true.mp (by decide)
  have hid : IsIdentifier "ab 7" := by
    refine ⟨?_, ?_, ?_⟩ <;> decide
  have hstays : Stays "ab 7".toList := Target.stays_of_all (by decide) (by decide) (by decide)
  obtain ⟨hmade, haddresses⟩ := (addresses_iff_stays hat hcollection hid).1 (.update .null)
  obtain ⟨request, hrequest⟩ := Option.isSome_iff_exists.mp hmade
  have hpath : (gateway.updateRequest? "notes" "ab 7" .null).map (·.target.path) =
      some "/pb/api/collections/notes/records/ab%207" := by decide +kernel
  rw [hrequest] at hpath
  have hin := Option.mem_def.mpr hrequest
  exact ⟨hat, hcollection, hid, hstays, request, hin, Option.some.inj hpath,
    (haddresses request hin).mpr hstays⟩

/-- An identifier that climbs out of the collection that was asked for.  Its request goes to a record
of another collection, which has an identifier of its own. -/
theorem not_addressed_climbing :
    let gateway : RecordGateway := { client := .plain, base := "http://127.0.0.1:8090" }
    let directory : Target := { origin := "http://127.0.0.1:8090", path := "/" }
    gateway.IsAt directory ∧ IsCollection "notes" ∧ IsIdentifier "../../users/records/u1" ∧
      ∃ request ∈ gateway.getOneRequest? "notes" "../../users/records/u1" {},
        ¬ Addresses directory "notes" "../../users/records/u1" [] request.target ∧
          Addresses directory "users" "u1" [] request.target ∧
          ∃ request' ∈ gateway.getOneRequest? "users" "u1" {},
            request'.target = request.target := by
  intro gateway directory
  have hat : gateway.IsAt directory := ⟨⟨by decide, by decide⟩, by decide +kernel⟩
  have hnotes : IsCollection "notes" := List.all_eq_true.mp (by decide)
  have husers : IsCollection "users" := List.all_eq_true.mp (by decide)
  have hclimbing : IsIdentifier "../../users/records/u1" := by
    refine ⟨?_, ?_, ?_⟩ <;> decide
  have hid : IsIdentifier "u1" := by
    refine ⟨?_, ?_, ?_⟩ <;> decide
  have hstays : Stays "u1".toList := Target.stays_of_all (by decide) (by decide) (by decide)
  have hsame : (gateway.getOneRequest? "users" "u1" {}).map (·.target) =
      (gateway.getOneRequest? "notes" "../../users/records/u1" {}).map (·.target) := by
    decide +kernel
  obtain ⟨hmade, haddresses⟩ := (Asks.getOne {}).addresses_iff hat husers hid
  obtain ⟨request', hrequest'⟩ := Option.isSome_iff_exists.mp hmade
  rw [hrequest', Option.map_some, eq_comm, Option.map_eq_some_iff] at hsame
  obtain ⟨request, hrequest, htarget⟩ := hsame
  have hother : Addresses directory "users" "u1" [] request.target :=
    htarget ▸ (haddresses request' (Option.mem_def.mpr hrequest')).mpr hstays
  have hastray : ¬ Addresses directory "notes" "../../users/records/u1" [] request.target :=
    fun h => absurd (h.unique hother rfl).1 (by decide)
  exact ⟨hat, hnotes, hclimbing, request, Option.mem_def.mpr hrequest, hastray, hother, request',
    Option.mem_def.mpr hrequest', htarget.symm⟩

end RecordGateway

end FlowEngine
