import RecipeFlow.Engine.Server
import RecipeFlow.Engine.Settings
import RecipeFlow.Proofs.Url.Part

/-! Where a server is asked for an execution: which names lead to a resource of their own. -/
namespace RecipeFlow.Server

open Text Url

variable {c : EngineConfig} {root u : Url} {dirs : List (List Char)} {name name' : String}
  {ν : Type}

/-- What stands between a server's own path and a name space. -/
def entry : List (List Char) :=
  ["api".toList, "v1".toList, "workflows".toList]

/-- A locator leads to an execution below the path of a server: its last two segments stand for the
name space and the name. -/
structure Addresses (root : Url) (dirs : List (List Char)) (space name : String) (u : Url) :
    Prop where
  server : (u.scheme, u.username, u.password, u.host, u.port) =
    (root.scheme, root.username, root.password, root.host, root.port)
  path : ∃ s n, u.path = .segments (dirs ++ entry ++ [s, n]) ∧
    percentDecode (encode s) = encode space.toList ∧ percentDecode (encode n) = encode name.toList

/-- A name that is one segment, with nothing at its end that is trimmed. -/
def IsAddressable (name : String) : Prop :=
  IsPart name.toList ∧ ∀ c ∈ name.toList.getLast?, isTrimmed c = false

instance : Decidable (IsAddressable name) :=
  letI : Decidable (∀ c ∈ name.toList.getLast?, isTrimmed c = false) := Option.decidableForallMem _
  inferInstanceAs (Decidable (_ ∧ _))

/-- The locator of an execution, whose path is put behind that of the server. -/
def executionUrl (root : Url) (dirs : List (List Char)) (space name : String) : Url :=
  { root with path := .segments (dirs ++ entry ++
      [percentEncode pathSet space.toList, percentEncode pathSet name.toList]) }

theorem written_entry (zs : List Char) :
    written ("api/v1/workflows/".toList ++ zs) = entry ++ written zs := by
  have hsplit : "api/v1/workflows/".toList ++ zs =
      "api".toList ++ '/' :: ("v1".toList ++ '/' :: ("workflows".toList ++ '/' :: zs)) := rfl
  have hentry : written "api".toList ++ (written "v1".toList ++ written "workflows".toList) =
      entry := by decide
  rw [hsplit, written_append, written_append, written_append, ← hentry]
  simp only [List.append_assoc]

/-- What counts of a name space and a name. -/
def counted (space name : String) : List Char :=
  space.toList.filter (!isIgnored ·) ++
    '/' :: (dropEnd isTrimmed name.toList).filter (!isIgnored ·)

/-- The locator that is read where a name space and a name stand behind a server's own path, which
is held in reverse. -/
def reached (root : Url) (rev : List (List Char)) (space name : String) : Url :=
  let (path, query, fragment) := splitTail (counted space name)
  withTail true query fragment
    { root with path := .segments (appendSegments false (entry.reverse ++ rev) (written path)) }

/-- What is read of a root's text with a name space and a name behind it. -/
theorem exists_reached (h : IsRoot c.baseUrl root) : ∃ rev : List (List Char),
    (∃ m, root.path = .segments (rev.reverse ++ List.replicate m [])) ∧
      ∀ name, parse (workflowUrl c name) = .ok (reached root rev c.space name) := by
  obtain ⟨ss, hpath, hread⟩ := h.extends
  refine ⟨walk [] ss, hpath, ?_⟩
  intro name
  have htext : (workflowUrl c name).toList = (trimSlashes c.baseUrl).toList ++
      '/' :: (("api/v1/workflows/".toList ++ c.space.toList) ++ '/' :: name.toList) := by
    simp [workflowUrl, workflowsUrl]
  have hkept : "api/v1/workflows/".toList.filter (!isIgnored ·) = "api/v1/workflows/".toList := by
    decide
  have hcounted : (dropEnd isTrimmed (("api/v1/workflows/".toList ++ c.space.toList) ++
      '/' :: name.toList)).filter (!isIgnored ·) =
        "api/v1/workflows/".toList ++ counted c.space name := by
    rw [dropEnd_append_of_head rfl, List.filter_append, List.filter_append, hkept,
      List.append_assoc]
    rfl
  have htail : splitTail ("api/v1/workflows/".toList ++ counted c.space name) =
      ("api/v1/workflows/".toList ++ (splitTail (counted c.space name)).1,
        (splitTail (counted c.space name)).2) :=
    splitTail_append (by decide) (by decide) (counted c.space name)
  have hentry : ∀ s ∈ entry, dots s = 0 := by decide
  rw [parse, htext, hread _ _ hcounted, htail, written_entry, ← List.append_assoc,
    appendSegments_append _ _ (written_ne_nil _), walk_append, walk_of_undotted hentry]
  rfl

/-- Where name space and name are parts, they are what is added to the path, and nothing else is. -/
theorem reached_eq {rev : List (List Char)} {space : String} (hask : root.query = none)
    (hmark : root.fragment = none) (hspace : IsPart space.toList) (hname : IsAddressable name) :
    reached root rev space name = executionUrl root rev.reverse space name := by
  have hwritten : written (space.toList ++ '/' :: name.toList) =
      [percentEncode pathSet space.toList] ++ [percentEncode pathSet name.toList] := by
    rw [written_append, hspace.written_eq, hname.1.written_eq]
  have hwalk : ∀ rev, walk rev [percentEncode pathSet space.toList] =
      percentEncode pathSet space.toList :: rev :=
    fun rev => enter_of_undotted hspace.dots_eq_zero
  rw [reached, counted, splitTail_parts hspace hname.1 hname.2]
  dsimp only
  rw [hwritten, appendSegments_concat, hwalk, finish_of_undotted hname.1.dots_eq_zero,
    executionUrl, hask, hmark, withTail]
  simp

theorem addresses_executionUrl {space : String} (hspace : IsPart space.toList)
    (hname : IsPart name.toList) :
    Addresses root dirs space name (executionUrl root dirs space name) :=
  ⟨rfl, _, _, rfl, hspace.decoded, hname.decoded⟩

/-- An execution is addressed only if name space and name are parts. -/
theorem isPart_of_addresses {rev : List (List Char)} {space : String}
    (h : Addresses root rev.reverse space name (reached root rev space name)) :
    IsPart space.toList ∧ IsAddressable name := by
  obtain ⟨-, s, n, hsegments, hs, hn⟩ := h
  obtain ⟨ts, t, hsplit⟩ := exists_written_eq (splitTail (counted space name)).1
  have happend : appendSegments false (entry.reverse ++ rev)
      (written (splitTail (counted space name)).1) = rev.reverse ++ entry ++ [s, n] :=
    UrlPath.segments.inj hsegments
  rw [hsplit, appendSegments_concat] at happend
  have hfinish : finish (walk (entry.reverse ++ rev) ts) t = n :: s :: (entry.reverse ++ rev) := by
    simpa using congrArg List.reverse happend
  exact isPart_of_finish hsplit hfinish hs hn

/-- Below one server and in one name space no two names are requested in one place. -/
theorem eq_of_requestText {space : String} {host : List Char} (hhost : root.host = some host)
    (hname : IsPart name.toList) (hname' : IsPart name'.toList)
    (h : requestText (executionUrl root dirs space name) =
      requestText (executionUrl root dirs space name')) : name = name' := by
  have hchars := congrArg String.toList h
  simp only [requestText, String.toList_ofList, requestChars, executionUrl, hhost, pathChars,
    List.flatMap_append, List.flatMap_cons, List.flatMap_nil, List.append_assoc,
    List.append_cancel_left_eq, List.cons_append, List.append_nil, List.cons.injEq,
    true_and] at hchars
  have hsame : percentEncode pathSet name.toList = percentEncode pathSet name'.toList :=
    List.append_cancel_right hchars
  apply String.toList_injective
  apply encode_inj.1
  rw [← hname.decoded, hsame, hname'.decoded]

/-! What is requested. -/

/-- Where something can be requested, one request is sent; elsewhere none is. -/
theorem state_call {α : Type} (net : Http.Network ν) (method : Http.Method) {url : String}
    (hu : parse url = .ok u) (read : Url → Http.Response → Except Http.Failure α) (s : ν) :
    (call net method url none read s).2 =
      if Http.isSendable u then (net.send ⟨method, u, none⟩ s).2 else s := by
  rw [call, Http.locate, hu]
  dsimp only
  cases Http.isSendable u with
  | true => rfl
  | false => rfl

theorem state_find (net : Http.Network ν) (hu : parse (workflowUrl c name) = .ok u) (s : ν) :
    ((engine net).find name c s).2 =
      if Http.isSendable u then (net.send ⟨.get, u, none⟩ s).2 else s := by
  rw [← state_call net .get hu (readFound name) s]
  simp only [engine]

theorem state_delete (net : Http.Network ν) (hu : parse (workflowUrl c name) = .ok u) (s : ν) :
    ((engine net).delete name c s).2 =
      if Http.isSendable u then (net.send ⟨.delete, u, none⟩ s).2 else s := by
  rw [← state_call net .delete hu readDeleted s]
  simp only [engine]

/-- What a server's settings are read as leads to a directory of it. Below that directory, name by
name, an execution is addressed just if its name and the name space are whole segments: then the
request goes to just these segments, and to other ones for another name. -/
theorem workflowUrl_addresses_iff (h : IsRoot c.baseUrl root) : ∃ dirs : List (List Char),
    (∃ m, root.path = .segments (dirs ++ List.replicate m [])) ∧
      (∀ name, (∃ u, parse (workflowUrl c name) = .ok u ∧ Addresses root dirs c.space name u) ↔
        IsPart c.space.toList ∧ IsAddressable name) ∧
      (IsPart c.space.toList → ∀ name, IsAddressable name →
        parse (workflowUrl c name) = .ok (executionUrl root dirs c.space name) ∧
        ∀ (ν : Type) (net : Http.Network ν) (s : ν),
          ((engine net).find name c s).2 =
            (if Http.isSendable (executionUrl root dirs c.space name) then
              (net.send ⟨.get, executionUrl root dirs c.space name, none⟩ s).2 else s) ∧
          ((engine net).delete name c s).2 =
            if Http.isSendable (executionUrl root dirs c.space name) then
              (net.send ⟨.delete, executionUrl root dirs c.space name, none⟩ s).2 else s) ∧
      ∀ name name', IsAddressable name → IsAddressable name' →
        requestText (executionUrl root dirs c.space name) =
          requestText (executionUrl root dirs c.space name') → name = name' := by
  obtain ⟨host, hhost⟩ := h.exists_host
  obtain ⟨rev, hpath, hread⟩ := exists_reached h
  have hreached : IsPart c.space.toList → ∀ name, IsAddressable name →
      parse (workflowUrl c name) = .ok (executionUrl root rev.reverse c.space name) := by
    intro hspace name hname
    rw [hread name, reached_eq h.unasked h.unmarked hspace hname]
  refine ⟨rev.reverse, hpath, ?_, ?_, ?_⟩
  · intro name
    constructor
    · rintro ⟨u, hu, haddresses⟩
      obtain rfl := Except.ok.inj ((hread name).symm.trans hu)
      exact isPart_of_addresses haddresses
    · rintro ⟨hspace, hname⟩
      exact ⟨_, hreached hspace name hname, addresses_executionUrl hspace hname.1⟩
  · intro hspace name hname
    have hu := hreached hspace name hname
    exact ⟨hu, fun ν net s => ⟨state_find net hu s, state_delete net hu s⟩⟩
  · exact fun name name' hname hname' => eq_of_requestText hhost hname.1 hname'.1

/-- The server that the default settings name. -/
def localRoot : Url where
  scheme := "http".toList
  host := some "localhost".toList
  port := some 2746
  path := .segments [[]]

theorem workflowUrl_addresses_iff_local : IsRoot ({} : EngineConfig).baseUrl localRoot ∧
    IsPart ({} : EngineConfig).space.toList ∧ IsAddressable "demo 1" ∧ ∃ dirs,
      parse (workflowUrl {} "demo 1") = .ok (executionUrl localRoot dirs "argo-helm" "demo 1") ∧
      Addresses localRoot dirs "argo-helm" "demo 1"
        (executionUrl localRoot dirs "argo-helm" "demo 1") := by
  have hlast : ({} : EngineConfig).baseUrl.toList.getLast? = some '6' := by decide +kernel
  have hended : ∀ c ∈ ({} : EngineConfig).baseUrl.toList.getLast?, isTrimmed c = false := by
    rw [hlast]
    rintro c ⟨⟩
    rfl
  have hroot : IsRoot ({} : EngineConfig).baseUrl localRoot :=
    ⟨by decide +kernel, .inl rfl, rfl, rfl, hended⟩
  have hspace : IsPart ({} : EngineConfig).space.toList := by decide +kernel
  have hname : IsAddressable "demo 1" := by decide +kernel
  obtain ⟨dirs, -, hiff, hplain, -⟩ := workflowUrl_addresses_iff hroot
  obtain ⟨hparse, -⟩ := hplain hspace "demo 1" hname
  obtain ⟨u, hu, haddresses⟩ := (hiff "demo 1").2 ⟨hspace, hname⟩
  obtain rfl := Except.ok.inj (hu.symm.trans hparse)
  exact ⟨hroot, hspace, hname, dirs, hparse, haddresses⟩

/-- A name with dots and slashes leads to an execution in another name space, and one with a number
sign to that of a shorter name. -/
theorem workflowUrl_elsewhere : EngineConfig.validate {} = .ok () ∧
    parse (workflowUrl {} "../other/wf") = .ok (executionUrl localRoot [] "other" "wf") ∧
    parse (workflowUrl { space := "other" } "wf") = .ok (executionUrl localRoot [] "other" "wf") ∧
    (∀ dirs, (∃ m, localRoot.path = .segments (dirs ++ List.replicate m [])) →
      ¬ Addresses localRoot dirs "argo-helm" "../other/wf"
        (executionUrl localRoot [] "other" "wf")) ∧
    (parse (workflowUrl {} "wf#1")).map requestText =
      .ok "http://localhost:2746/api/v1/workflows/argo-helm/wf" ∧
    (parse (workflowUrl {} "wf#2")).map requestText =
      .ok "http://localhost:2746/api/v1/workflows/argo-helm/wf" := by
  refine ⟨by decide +kernel, by decide +kernel, by decide +kernel, ?_, by decide +kernel,
    by decide +kernel⟩
  rintro dirs - ⟨-, s, n, hpath, -, hn⟩
  have hlast : (dirs ++ entry ++ [s, n]).getLast? = some n := by
    rw [List.getLast?_append]
    rfl
  rw [← UrlPath.segments.inj hpath] at hlast
  obtain rfl : "wf".toList = n := Option.some.inj hlast
  exact absurd hn (by decide +kernel)

end RecipeFlow.Server
