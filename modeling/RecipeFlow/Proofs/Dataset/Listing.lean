import RecipeFlow.Dataset.Node
import RecipeFlow.Proofs.Except
import RecipeFlow.Proofs.Json.Path
import RecipeFlow.Proofs.Json.Reading
import RecipeFlow.Proofs.Url.Encoding

/-! The files of a dataset as a node lists them: a node answers with no more of them than it is
asked for. -/
namespace RecipeFlow.Dataset.Node

variable {ν : Type} {net : Http.Network ν} {node dataset name : String}
  {holds : String → List Json} {doc : Json} {docs : List Json} {u : Url} {r : Http.Request}
  {e : Entry}

/-! The question. -/

theorem toList_encodePairs (p : String × String) (ps : List (String × String)) :
    (encodePairs (p :: ps)).toList =
      Url.pairChars p ++ ps.flatMap fun q => '&' :: Url.pairChars q := by
  have hpair : ∀ q : String × String,
      (Url.formEncode q.1 ++ "=" ++ Url.formEncode q.2).toList = Url.pairChars q := by
    intro q
    simp [Url.pairChars]
  induction ps generalizing p with
  | nil => simp [encodePairs, hpair]
  | cons q ps ih =>
    have hcons : encodePairs (p :: q :: ps) =
        Url.formEncode p.1 ++ "=" ++ Url.formEncode p.2 ++ "&" ++ encodePairs (q :: ps) :=
      String.intercalate_cons_cons
    rw [hcons, String.toList_append, String.toList_append, hpair, ih, List.flatMap_cons]
    simp

/-- What a locator has not asked for before is asked for by the pairs that are added. -/
theorem asked?_addPairs (p : String × String) (ps : List (String × String))
    (hnew : u.asked? name = none) :
    (addPairs (p :: ps) u).asked? name = Table.find? name (p :: ps) := by
  have hpairs : Url.pairs (encodePairs (p :: ps)).toList = p :: ps := by
    rw [toList_encodePairs, Url.pairs_cons]
  unfold Url.asked? addPairs at *
  cases hquery : u.query with
  | none => simp [hpairs]
  | some q =>
    by_cases hempty : q.isEmpty
    · simp [hempty, hpairs]
    · rw [hquery] at hnew
      have hnone : Table.find? name (Url.pairs q) = none := hnew
      simp [hempty, Url.pairs_append, hpairs, Table.find?_append, hnone]

theorem request_eq_ok (h : request node dataset = .ok r) :
    ∃ u, Url.parse (queryUrl node) = .ok u ∧
      r = ⟨.get, addPairs (parameters dataset) u, none⟩ := by
  unfold request at h
  split at h
  · cases h
  · next u hu =>
    dsimp only at h
    split at h
    · cases h
    · split at h
      · exact ⟨u, hu, (Except.ok.inj h).symm⟩
      · cases h

/-! The answer. -/

/-- The first of some documents, and how many there are. -/
structure IsListing (docs : List Json) (rows : Nat) (v : Json) : Prop where
  items : v.at? ["response", "docs"] = some (.arr (docs.take rows))
  total : v.at? ["response", "numFound"] = some (.int docs.length)

/-- A node serves the documents that meet a condition: asked for so many of them, it lists the first
so many. Its own locator asks for nothing. -/
structure Serves (net : Http.Network ν) (node : String) (holds : String → List Json) : Prop where
  plain : ∀ u, Url.parse (queryUrl node) = .ok u →
    u.asked? "q" = none ∧ u.asked? "rows" = none
  answers : ∀ u v q rows s, Url.parse (queryUrl node) = .ok u →
    v = { u with query := v.query } → v.asked? "q" = some q →
    (v.asked? "rows").bind (Text.digits? 10 ·.toList) = some rows →
    ∃ body listing, (net.exchange ⟨.get, v, none⟩ s).1 = some ⟨200, body⟩ ∧
      Json.parse? body = some listing ∧ IsListing (holds q) rows listing

/-- The first of the names that stand as one text or several. -/
def firstName? : Json → Option String
  | .str s => some s
  | .arr (.str s :: _) => some s
  | _ => none

/-- What a file is called: by the first name in its document, or by what follows the last colon of
its identifier. -/
def IsNamed (doc : Json) (id name : String) : Prop :=
  match (doc.get? "fileName").bind firstName? with
  | some s => name = s
  | none => ':' ∉ name.toList ∧ (name = id ∨ ∃ front, id = front ++ ":" ++ name)

/-- A file is the one of a document. -/
structure Describes (node : String) (doc : Json) (o : DataObject) : Prop where
  identifier : doc.get? "id" = some (.str o.identifier)
  url : o.url = objectUrl node o.identifier
  filename : IsNamed doc o.identifier o.filename

theorem afterLastColon_spec (id : String) : ':' ∉ (afterLastColon id).toList ∧
    (afterLastColon id = id ∨ ∃ front, id = front ++ ":" ++ afterLastColon id) := by
  have hlast : (afterLastColon id).toList =
      (id.toList.reverse.takeWhile (· != ':')).reverse := String.toList_ofList
  obtain ⟨hcolon, hwhole⟩ := Text.last_takeWhile ':' id.toList
  rw [← hlast] at hcolon hwhole
  refine ⟨hcolon, hwhole.imp String.toList_inj.1 ?_⟩
  rintro ⟨front, hfront⟩
  refine ⟨String.ofList front, String.toList_inj.1 ?_⟩
  rw [hfront, String.toList_append, String.toList_append, String.toList_ofList, List.append_assoc]
  rfl

theorem member_of_get? {α : Type} {k : String} {absent : α} {read? : Json → Option α}
    {v m : Json} (h : v.get? k = some m) : Server.member k absent read? v = read? m := by
  cases v with
  | obj ms => simp only [Server.member, h]
  | _ => cases h

theorem member_eq_some {α : Type} {k : String} {absent a : α} {read? : Json → Option α}
    {v : Json} (h : Server.member k absent read? v = some a) :
    (∃ m, v.get? k = some m ∧ read? m = some a) ∨ v.get? k = none ∧ a = absent := by
  cases v with
  | obj ms =>
    simp only [Server.member] at h
    split at h
    · next m hm => exact .inl ⟨m, hm, h⟩
    · next hm => exact .inr ⟨hm, (Option.some.inj h).symm⟩
  | _ => cases h

theorem text?_eq_some {v : Json} {t : String} : Server.text? v = some t ↔ v = .str t := by
  cases v with
  | str s => simp [Server.text?]
  | _ => simp [Server.text?]

theorem head?_of_names? {v : Json} {names : List String} (h : names? v = some names) :
    names.head? = firstName? v := by
  cases v with
  | null =>
    cases h
    rfl
  | str s =>
    cases h
    rfl
  | arr vs =>
    cases vs with
    | nil =>
      cases h
      rfl
    | cons v vs =>
      rw [names?, List.mapM_cons] at h
      obtain ⟨t, ht, h⟩ := Option.bind_eq_some_iff.1 h
      obtain ⟨ts, -, h⟩ := Option.bind_eq_some_iff.1 h
      cases h
      rw [text?_eq_some.1 ht]
      rfl
  | _ => cases h

theorem describes_of_entry (h : entry? doc = some e) : Describes node doc (e.object node) := by
  obtain ⟨v, hv, h⟩ := Option.bind_eq_some_iff.1 h
  obtain ⟨id, hid, h⟩ := Option.bind_eq_some_iff.1 h
  obtain ⟨title, -, h⟩ := Option.bind_eq_some_iff.1 h
  obtain ⟨formatId, -, h⟩ := Option.bind_eq_some_iff.1 h
  obtain ⟨size, -, h⟩ := Option.bind_eq_some_iff.1 h
  obtain ⟨names, hnames, h⟩ := Option.bind_eq_some_iff.1 h
  cases h
  have hfirst : (doc.get? "fileName").bind firstName? = names.head? := by
    rcases member_eq_some hnames with ⟨m, hm, hread⟩ | ⟨hnone, rfl⟩
    · rw [hm, Option.bind_some, head?_of_names? hread]
    · rw [hnone]
      rfl
  refine ⟨hv.trans (congrArg some (text?_eq_some.1 hid)), rfl, ?_⟩
  rw [IsNamed, hfirst]
  cases names with
  | nil => exact afterLastColon_spec id
  | cons name names => rfl

theorem readListed_ok (a : Http.Response) : readListed node dataset (.ok a) =
    match (Json.parse? a.body).bind entries? with
    | some es => .ok (es.map (Entry.object node))
    | none => .error (failed ("Failed to parse DataONE response for " ++ dataset)
        .undecodable) := by
  change ((a.decode entries?).mapError _ >>= fun es => .ok (es.map (Entry.object node))) = _
  rw [Http.Response.decode]
  cases (Json.parse? a.body).bind entries? with
  | none => rfl
  | some es => rfl

/-- What a node that serves documents makes a resolver list: the files of the first documents. -/
theorem list_eq (h : Serves net node holds) (hr : request node dataset = .ok r) (s : ν) :
    ((resolver net node).list dataset s).1 =
      match ((holds (condition dataset)).take rowLimit).mapM entry? with
      | some es => .ok (es.map (Entry.object node))
      | none => .error (failed ("Failed to parse DataONE response for " ++ dataset)
          .undecodable) := by
  obtain ⟨u, hu, rfl⟩ := request_eq_ok hr
  obtain ⟨hq, hrows⟩ := h.plain u hu
  have hnumber : Text.digits? 10 (toString rowLimit).toList = some rowLimit := by decide +kernel
  obtain ⟨body, listing, hanswer, hbody, hlisting⟩ :=
    h.answers u (addPairs (parameters dataset) u) (condition dataset) rowLimit s hu rfl
      ((asked?_addPairs _ _ hq).trans (by simp [Table.find?]))
      (by rw [parameters, asked?_addPairs _ _ hrows]; simpa [Table.find?] using hnumber)
  have hentries : entries? listing =
      ((holds (condition dataset)).take rowLimit).mapM entry? := by
    obtain ⟨response, hresponse, hdocs⟩ := Option.bind_eq_some_iff.1 hlisting.items
    obtain ⟨items, hitems, hend⟩ := Option.bind_eq_some_iff.1 hdocs
    cases hend
    rw [entries?, hresponse, Option.bind_eq_bind, Option.bind_some, member_of_get? hitems]
    rfl
  have hsend : (net.send ⟨.get, addPairs (parameters dataset) u, none⟩ s).1 =
      .ok ⟨200, body⟩ := by
    rw [Http.Network.send]
    split
    · next a s' hx =>
      rw [hx] at hanswer
      cases hanswer
      rfl
    · next s' hx =>
      rw [hx] at hanswer
      cases hanswer
  have haccepted : (⟨200, body⟩ : Http.Response).accepted
      (addPairs (parameters dataset) u) = .ok ⟨200, body⟩ := rfl
  simp only [resolver, hr, hsend, Except.bind, haccepted]
  rw [readListed_ok, hbody, Option.bind_some, hentries]

/-- A resolver lists the files of the first documents, if all of them are readable. These are the
whole dataset just if it has no more documents than are asked for. -/
theorem list_whole_iff (h : Serves net node holds) (dataset : String) (s : ν) :
    ((∃ os, ((resolver net node).list dataset s).1 = .ok os) ↔
      (∃ r, request node dataset = .ok r) ∧
        ∀ doc ∈ (holds (condition dataset)).take rowLimit, entry? doc ≠ none) ∧
    ∀ os, ((resolver net node).list dataset s).1 = .ok os →
      List.Forall₂ (Describes node) ((holds (condition dataset)).take rowLimit) os ∧
        (List.Forall₂ (Describes node) (holds (condition dataset)) os ↔
          (holds (condition dataset)).length ≤ rowLimit) := by
  cases hr : request node dataset with
  | error f =>
    have hfails : ∀ os, ((resolver net node).list dataset s).1 ≠ .ok os := by
      intro os
      simp only [resolver, hr]
      nofun
    exact ⟨by simp [hfails], fun os hos => absurd hos (hfails os)⟩
  | ok r =>
    rw [list_eq h hr, ← mapM_ne_none_iff]
    cases hes : ((holds (condition dataset)).take rowLimit).mapM entry? with
    | none => simp
    | some es =>
      refine ⟨by simp, ?_⟩
      rintro _ ⟨⟩
      have hfirst : List.Forall₂ (Describes node) ((holds (condition dataset)).take rowLimit)
          (es.map (Entry.object node)) := by
        rw [List.forall₂_map_right_iff]
        exact (mapM_eq_some_iff.1 hes).imp fun _ _ => describes_of_entry
      refine ⟨hfirst, ?_, ?_⟩
      · intro hwhole
        have hlength := hwhole.length_eq.trans hfirst.length_eq.symm
        rw [List.length_take] at hlength
        omega
      · intro hle
        rwa [List.take_of_length_le hle] at hfirst

/-! A network in which a node serves what it has. -/

/-- The first of some documents, and how many there are. -/
def listing (docs : List Json) (rows : Nat) : Json :=
  .obj [("response", .obj [("docs", .arr (docs.take rows)), ("numFound", .int docs.length),
    ("start", .int 0)])]

theorem isListing_listing (docs : List Json) (rows : Nat) :
    IsListing docs rows (listing docs rows) where
  items := by simp [listing, Json.at?, Json.get?, Json.members, Table.find?]
  total := by simp [listing, Json.at?, Json.get?, Json.members, Table.find?]

theorem isPlain_listing (hdocs : ∀ doc ∈ docs, doc.IsPlain 124)
    (hlength : docs.length ≤ Json.maxUnsigned) (rows : Nat) :
    (listing docs rows).IsPlain 127 := by
  refine .obj (List.pairwise_singleton _ _) ?_
  rintro _ (_ | ⟨_, ⟨⟩⟩)
  have hkeys : ["docs", "numFound", "start"].Pairwise (· < ·) := by decide
  refine .obj hkeys ?_
  intro m hm
  simp only [List.mem_cons, List.not_mem_nil, or_false] at hm
  rcases hm with rfl | rfl | rfl
  · exact .arr fun doc hdoc => hdocs doc (List.mem_of_mem_take hdoc)
  · exact .int ⟨by omega, Int.ofNat_le.2 hlength⟩
  · exact .int (by decide)

/-- The answer of a node that has documents under conditions. -/
def reply? (holds : String → List Json) (u : Url) : Option Http.Response := do
  let rows ← (u.asked? "rows").bind (Text.digits? 10 ·.toList)
  let q ← u.asked? "q"
  return ⟨200, (listing (holds q) rows).compact⟩

/-- A network in which every question is put to one node. -/
def library (holds : String → List Json) : Http.Network Unit where
  exchange r s := (reply? holds r.url, s)

theorem serves_library (hplain : ∀ u, Url.parse (queryUrl node) = .ok u → u.query = none)
    (hdocs : ∀ q, ∀ doc ∈ holds q, doc.IsPlain 124)
    (hlength : ∀ q, (holds q).length ≤ Json.maxUnsigned) :
    Serves (library holds) node holds where
  plain u hu := by simp [Url.asked?, hplain u hu]
  answers u v q rows s hu hv hq hrows := by
    have hread := Json.parse?_compact (isPlain_listing (hdocs q) (hlength q) rows)
    refine ⟨(listing (holds q) rows).compact, listing (holds q) rows, ?_, hread,
      isListing_listing _ _⟩
    change reply? holds v = _
    rw [reply?, hrows, hq]
    rfl

/-- The documents of one dataset, and no others. -/
def filed (docs : List Json) (q : String) : List Json :=
  if q = condition "ds" then docs else []

theorem filed_condition (docs : List Json) : filed docs (condition "ds") = docs := if_pos rfl

theorem serves_filed (hdocs : ∀ doc ∈ docs, doc.IsPlain 124)
    (hlength : docs.length ≤ Json.maxUnsigned) :
    Serves (library (filed docs)) "https://h.example" (filed docs) := by
  have hquery : (Url.parse (queryUrl "https://h.example")).toOption.map (·.query) =
      some none := by decide +kernel
  refine serves_library (fun u hu => ?_) (fun q => ?_) fun q => ?_
  · rw [hu] at hquery
    exact Option.some.inj hquery
  · unfold filed
    split
    · exact hdocs
    · nofun
  · unfold filed
    split
    · exact hlength
    · exact Nat.zero_le _

theorem exists_request : ∃ r, request "https://h.example" "ds" = .ok r :=
  exists_ok_of_isSome (by decide +kernel)

/-- Files with one name, with two and with none. -/
def few : List Json :=
  [.obj [("fileName", .str "a.nc"), ("id", .str "urn:uuid:1")],
    .obj [("fileName", .arr [.str "b.nc", .str "c.nc"]), ("id", .str "urn:uuid:2")],
    .obj [("id", .str "doi:10.5063/F1")]]

theorem isPlain_few : ∀ doc ∈ few, doc.IsPlain 124 := by
  have hkeys : ["fileName", "id"].Pairwise (· < ·) := by decide
  intro doc hdoc
  simp only [few, List.mem_cons, List.not_mem_nil, or_false] at hdoc
  rcases hdoc with rfl | rfl | rfl
  · exact .obj hkeys (by simp [Json.IsPlain.str])
  · refine .obj hkeys ?_
    rw [List.forall_mem_cons, List.forall_mem_singleton]
    exact ⟨.arr (by simp [Json.IsPlain.str]), .str _⟩
  · exact .obj (List.pairwise_singleton _ _) (by simp [Json.IsPlain.str])

theorem list_whole_iff_few : Serves (library (filed few)) "https://h.example" (filed few) ∧
    ∃ os, ((resolver (library (filed few)) "https://h.example").list "ds" ()).1 = .ok os ∧
      List.Forall₂ (Describes "https://h.example") few os := by
  have hserves := serves_filed isPlain_few (by decide)
  obtain ⟨hok, hwhole⟩ := list_whole_iff hserves "ds" ()
  rw [filed_condition] at hok hwhole
  obtain ⟨os, hos⟩ := hok.2 ⟨exists_request, by decide +kernel⟩
  exact ⟨hserves, os, hos, (hwhole os hos).2.2 (by decide)⟩

/-- One file more than is asked for. -/
def many : List Json :=
  (List.range (rowLimit + 1)).map fun k => .obj [("id", .str (toString k))]

/-- Of one file too many nothing is said: the first ones are listed as if they were all. -/
theorem list_short : Serves (library (filed many)) "https://h.example" (filed many) ∧
    many.length = rowLimit + 1 ∧
    ∃ os, ((resolver (library (filed many)) "https://h.example").list "ds" ()).1 = .ok os ∧
      os.length = rowLimit ∧ ¬ List.Forall₂ (Describes "https://h.example") many os := by
  have hlength : many.length = rowLimit + 1 := by simp [many]
  have hserves : Serves (library (filed many)) "https://h.example" (filed many) := by
    refine serves_filed ?_ (by rw [hlength]; decide)
    intro doc hdoc
    obtain ⟨k, -, rfl⟩ := List.mem_map.1 hdoc
    exact .obj (List.pairwise_singleton _ _) (by simp [Json.IsPlain.str])
  have hread : ∀ doc ∈ many.take rowLimit, entry? doc ≠ none := by
    intro doc hdoc
    obtain ⟨k, -, rfl⟩ := List.mem_map.1 (List.mem_of_mem_take hdoc)
    simp [Json.get?, Json.members, Table.find?, Server.text?, Server.member, entry?]
  obtain ⟨r, hr⟩ := exists_request
  obtain ⟨es, hes⟩ := Option.ne_none_iff_exists'.1 (mapM_ne_none_iff.2 hread)
  have hlist := list_eq hserves hr ()
  rw [filed_condition, hes] at hlist
  have hcount : (es.map (Entry.object "https://h.example")).length = rowLimit := by
    rw [List.length_map, ← (mapM_eq_some_iff.1 hes).length_eq, List.length_take, hlength]
    decide
  refine ⟨hserves, hlength, _, hlist, hcount, fun hwhole => ?_⟩
  have hsame := hwhole.length_eq
  omega

end RecipeFlow.Dataset.Node
