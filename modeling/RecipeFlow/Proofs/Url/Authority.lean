import RecipeFlow.Proofs.Url.Path

/-! Locators of the web whose texts start alike: they lead to one server, and what stands behind a
slash only tells where on it. -/
namespace RecipeFlow.Url

open Text

variable {scheme cs xs ys : List Char} {p : Char → Bool} {root u : Url} {text : String}

/-! Texts that go on behind a character that a test fails on. -/

theorem takeWhile_append_of_head (h : ∀ c ∈ ys.head?, p c = false) :
    (xs ++ ys).takeWhile p = xs.takeWhile p := by
  induction xs with
  | nil =>
    cases ys with
    | nil => rfl
    | cons c ys => exact List.takeWhile_cons_of_neg (by simp [h c rfl])
  | cons c xs ih => rw [List.cons_append, List.takeWhile_cons, List.takeWhile_cons, ih]

theorem dropWhile_append_of_head (h : ∀ c ∈ ys.head?, p c = false) :
    (xs ++ ys).dropWhile p = xs.dropWhile p ++ ys := by
  have hys : ys.dropWhile p = ys := by
    cases ys with
    | nil => rfl
    | cons c ys => exact List.dropWhile_cons_of_neg (by simp [h c rfl])
  rw [List.dropWhile_append]
  split
  · next hempty => rw [List.isEmpty_iff.1 hempty, hys, List.nil_append]
  · rfl

theorem dropEnd_append_of_head {c : Char} (hc : p c = false) (xs ys : List Char) :
    dropEnd p (xs ++ c :: ys) = xs ++ c :: dropEnd p ys := by
  have hhead : ∀ d ∈ (c :: xs.reverse).head?, p d = false := by
    rintro d ⟨⟩
    exact hc
  have hchars : (xs ++ c :: ys).reverse = ys.reverse ++ c :: xs.reverse := by simp
  rw [dropEnd, hchars, dropWhile_append_of_head hhead]
  simp [dropEnd]

theorem dropEnd_of_last (h : ∀ c ∈ xs.getLast?, p c = false) : dropEnd p xs = xs := by
  rw [← List.head?_reverse] at h
  rw [dropEnd, ← List.nil_append xs.reverse, dropWhile_append_of_head h, List.dropWhile_nil,
    List.nil_append, List.reverse_reverse]

/-- What counts of a text that goes on behind a slash. -/
theorem significant_append (xs ys : List Char) : significant (xs ++ '/' :: ys) =
    (xs.dropWhile isTrimmed).filter (!isIgnored ·) ++
      '/' :: (dropEnd isTrimmed ys).filter (!isIgnored ·) := by
  have hhead : ∀ c ∈ ('/' :: ys).head?, isTrimmed c = false := by
    rintro c ⟨⟩
    rfl
  rw [significant, dropWhile_append_of_head hhead, dropEnd_append_of_head rfl, List.filter_append]
  rfl

theorem significant_of_last (h : ∀ c ∈ xs.getLast?, isTrimmed c = false) :
    significant xs = (xs.dropWhile isTrimmed).filter (!isIgnored ·) := by
  rw [significant, dropEnd_of_last]
  intro c hc
  apply h
  obtain ⟨zs, hzs⟩ := List.getLast?_eq_some_iff.1 hc
  rw [← List.takeWhile_append_dropWhile (p := isTrimmed) (l := xs), hzs, ← List.append_assoc]
  exact List.getLast?_concat

theorem scheme?_append (h : ∀ c ∈ ys.head?, isSchemeChar c = false ∧ c ≠ ':') :
    scheme? (xs ++ ys) = (scheme? xs).map fun (s, r) => (s, r ++ ys) := by
  have hhead : ∀ c ∈ ys.head?, isSchemeChar c = false := fun c hc => (h c hc).1
  cases xs with
  | nil =>
    cases ys with
    | nil => rfl
    | cons c ys =>
      have hletter : isAsciiLetter c = false := by
        have hc := hhead c rfl
        simp only [isSchemeChar, Bool.or_eq_false_iff] at hc
        exact hc.1.1.1.1
      have hnone : scheme? (c :: ys) = none := by rw [scheme?, hletter, if_neg Bool.false_ne_true]
      exact hnone
  | cons c xs =>
    rw [List.cons_append, scheme?, scheme?, ← List.cons_append, dropWhile_append_of_head hhead,
      takeWhile_append_of_head hhead]
    split
    · cases hrest : (c :: xs).dropWhile isSchemeChar with
      | nil =>
        rw [List.nil_append]
        cases ys with
        | nil => rfl
        | cons d ys =>
          have hd : d ≠ ':' := (h d rfl).2
          simp [hd]
      | cons d rest =>
        by_cases hd : d = ':'
        · subst hd
          rfl
        · simp [hd]
    · rfl

/-! Authorities. -/

/-- What a locator has before its path, but for its scheme. -/
structure Site where
  username : List Char
  password : List Char
  host : List Char
  port : Option Nat

/-- What the part of an authority behind its user says. -/
def siteAt? (scheme user word hostPort : List Char) (named : Bool) : Except UrlFault Site := do
  let (h, p) := splitPort false hostPort
  if h.isEmpty then throw .emptyHost
  let host ← host? h
  if host.isEmpty && p.isSome then throw .emptyHost
  let port ← match p with
    | some ds => port? scheme ds
    | none => pure none
  if host.isEmpty && named then throw .emptyHost
  return ⟨user, word, host, port⟩

def site? (scheme authority : List Char) : Except UrlFault Site :=
  match splitLastAt authority with
  | none => siteAt? scheme [] [] authority false
  | some (info, h) =>
    if info.isEmpty then siteAt? scheme [] [] h false
    else
      let (n, w) := credentials info
      siteAt? scheme n w h (!(n.isEmpty && w.isEmpty))

/-- The locator of a site with what follows the authority. -/
def Site.locator (site : Site) (scheme rest : List Char) : Url :=
  let (path, query, fragment) := splitTail rest
  withTail true query fragment ⟨scheme, site.username, site.password, some site.host, site.port,
    .segments (pathBelow path), none, none⟩

theorem withAuthority_eq (scheme cs : List Char) : withAuthority scheme true cs =
    (site? scheme (cs.takeWhile (!endsAuthority true ·))).map
      (·.locator scheme (cs.dropWhile (!endsAuthority true ·))) := by
  unfold withAuthority site?
  extract_lets authority rest make
  have hmake : ∀ user word hostPort named, make (user, word, hostPort, named) =
      (siteAt? scheme user word hostPort named).map (·.locator scheme rest) := by
    intro user word hostPort named
    unfold siteAt? Site.locator
    dsimp only [make]
    cases splitTail rest with
    | mk path tail =>
    cases splitPort false hostPort with
    | mk h p =>
    cases h with
    | nil => rfl
    | cons c h =>
      dsimp only [List.isEmpty_cons]
      cases host? (c :: h) with
      | error e => rfl
      | ok host =>
        cases p with
        | none => cases host <;> cases named <;> cases path <;> rfl
        | some ds =>
          dsimp only
          cases port? scheme ds with
          | error e => cases host <;> rfl
          | ok port => cases host <;> cases named <;> cases path <;> rfl
  cases splitLastAt authority with
  | none => exact hmake _ _ _ _
  | some p =>
    obtain ⟨info, h⟩ := p
    dsimp only
    cases info with
    | cons c info => exact hmake _ _ _ _
    | nil =>
      cases h with
      | nil =>
        have hempty := hmake [] [] [] false
        cases hrest : rest.isEmpty with
        | true => exact hempty
        | false => rfl
      | cons c h => exact hmake [] [] (c :: h) false

theorem scheme_withAuthority {special : Bool} :
    Yields (·.scheme = scheme) (withAuthority scheme special cs) := by
  unfold withAuthority
  dsimp only
  repeat' first
    | exact Yields.ok rfl
    | refine Yields.guard fun _ => ?_
    | refine Yields.bind fun _ => ?_
    | refine Yields.ite (fun _ => ?_) (fun _ => ?_)
    | split

theorem scheme_fileUrl : Yields (·.scheme = "file".toList) (fileUrl cs) := by
  unfold fileUrl
  dsimp only
  repeat' first
    | exact Yields.ok rfl
    | refine Yields.bind fun _ => ?_
    | refine Yields.ite (fun _ => ?_) (fun _ => ?_)
    | split

theorem scheme_otherUrl : Yields (·.scheme = scheme) (otherUrl scheme cs) := by
  unfold otherUrl
  split
  · exact scheme_withAuthority
  · exact Yields.ok rfl
  · exact Yields.ok rfl

/-- What has been read of a text with a web scheme starts with just that. -/
theorem withAuthority_of_parse (h : parse text = .ok u)
    (hweb : u.scheme = "http".toList ∨ u.scheme = "https".toList) :
    ∃ r, scheme? (significant text.toList) = some (u.scheme, r) ∧
      withAuthority u.scheme true (r.dropWhile (isSlash true)) = .ok u := by
  rw [parse, parseChars] at h
  split at h
  · cases h
  · next s r hs =>
    split at h
    · have hfile := scheme_fileUrl u h
      rw [hfile] at hweb
      exact absurd hweb (by decide)
    · split at h
      · have hscheme := scheme_withAuthority u h
        rw [hscheme]
        exact ⟨r, hs, h⟩
      · next hspecial =>
        have hscheme := scheme_otherUrl u h
        rw [hscheme] at hweb
        rcases hweb with rfl | rfl <;> exact absurd rfl hspecial

/-- A web text is read by its scheme and what follows the slashes behind it. -/
theorem parseChars_of_scheme? (hscheme : scheme? (significant cs) = some (scheme, xs))
    (hweb : scheme = "http".toList ∨ scheme = "https".toList) :
    parseChars cs = withAuthority scheme true (xs.dropWhile (isSlash true)) := by
  rw [parseChars, hscheme]
  rcases hweb with rfl | rfl <;> rfl

/-! Roots. -/

/-- A text whose locator others are put behind: it is one of the web, says nothing but a path, and
does not end in what is trimmed. -/
structure IsRoot (text : String) (root : Url) : Prop where
  parsed : parse text = .ok root
  web : root.scheme = "http".toList ∨ root.scheme = "https".toList
  unasked : root.query = none
  unmarked : root.fragment = none
  ended : ∀ c ∈ text.toList.getLast?, isTrimmed c = false

theorem exists_eq_trimSlashes (text : String) :
    ∃ n, text.toList = (trimSlashes text).toList ++ List.replicate n '/' := by
  have hsplit := List.takeWhile_append_dropWhile (p := (· == '/')) (l := text.toList.reverse)
  have hslashes : ∀ c ∈ text.toList.reverse.takeWhile (· == '/'), c = '/' := by
    intro c hc
    simpa using List.mem_takeWhile_imp hc
  obtain ⟨n, hn⟩ : ∃ n, text.toList.reverse.takeWhile (· == '/') = List.replicate n '/' :=
    ⟨_, List.eq_replicate_of_mem hslashes⟩
  have hchars := congrArg List.reverse hsplit
  rw [hn, List.reverse_append, List.reverse_replicate, List.reverse_reverse] at hchars
  refine ⟨n, ?_⟩
  rw [trimSlashes, String.toList_ofList, dropEnd]
  exact hchars.symm

/-- Slashes at the end of a text all count, and so does what is in front of them, unless there are
none and it is trimmed. -/
theorem significant_replicate (n : Nat)
    (h : ∀ c ∈ (xs ++ List.replicate n '/').getLast?, isTrimmed c = false) :
    significant (xs ++ List.replicate n '/') =
      (xs.dropWhile isTrimmed).filter (!isIgnored ·) ++ List.replicate n '/' := by
  cases n with
  | zero =>
    rw [List.replicate_zero, List.append_nil] at h ⊢
    rw [List.append_nil]
    exact significant_of_last h
  | succ n =>
    have hlast : ∀ c ∈ (List.replicate n '/').getLast?, isTrimmed c = false := by
      intro c hc
      rw [List.eq_of_mem_replicate (List.mem_of_getLast? hc)]
      rfl
    rw [List.replicate_succ, significant_append, dropEnd_of_last hlast,
      List.filter_replicate_of_pos rfl]

theorem withAuthority_append (h : ∀ c ∈ ys.head?, endsAuthority true c = true) :
    withAuthority scheme true (xs ++ ys) =
      (site? scheme (xs.takeWhile (!endsAuthority true ·))).map
        (·.locator scheme (xs.dropWhile (!endsAuthority true ·) ++ ys)) := by
  have hhead : ∀ c ∈ ys.head?, (!endsAuthority true c) = false := by
    intro c hc
    rw [h c hc]
    rfl
  rw [withAuthority_eq, takeWhile_append_of_head hhead, dropWhile_append_of_head hhead]

/-- Where an authority is read with slashes behind it, it is read alike with a slash and anything
else. -/
theorem withAuthority_extends {n : Nat} (h : withAuthority scheme true
      ((cs ++ List.replicate n '/').dropWhile (isSlash true)) = .ok u) : ∃ site rest,
    u = Site.locator site scheme (rest ++ List.replicate n '/') ∧
      ∀ ys, withAuthority scheme true ((cs ++ '/' :: ys).dropWhile (isSlash true)) =
        .ok (site.locator scheme (rest ++ '/' :: ys)) := by
  -- Were there nothing but slashes, there would be no host.
  have hhost : cs.dropWhile (isSlash true) ≠ [] := by
    intro hempty
    have hall : (List.replicate n '/').dropWhile (isSlash true) = [] := by
      rw [List.dropWhile_eq_nil_iff]
      intro c hc
      rw [List.eq_of_mem_replicate hc]
      rfl
    rw [List.dropWhile_append, hempty, List.isEmpty_nil, if_pos rfl, hall] at h
    cases h
  have hafter : ∀ ys, (cs ++ ys).dropWhile (isSlash true) = cs.dropWhile (isSlash true) ++ ys := by
    intro ys
    rw [List.dropWhile_append, if_neg (by simpa using hhost)]
  have hends : ∀ c ∈ (List.replicate n '/').head?, endsAuthority true c = true := by
    intro c hc
    rw [List.eq_of_mem_replicate (List.mem_of_head? hc)]
    rfl
  rw [hafter, withAuthority_append hends] at h
  obtain ⟨site, hsite, hlocator⟩ := map_eq_ok h
  refine ⟨site, _, hlocator.symm, ?_⟩
  intro ys
  have hends' : ∀ c ∈ ('/' :: ys).head?, endsAuthority true c = true := by
    rintro c ⟨⟩
    rfl
  rw [hafter, withAuthority_append hends', hsite]
  rfl

/-- What is read of a root's text and of what goes on behind it differs only in what follows the
authority. -/
theorem IsRoot.exists_site (h : IsRoot text root) : ∃ site rest n,
    root = Site.locator site root.scheme (rest ++ List.replicate n '/') ∧
      ∀ more, parseChars ((trimSlashes text).toList ++ '/' :: more) =
        .ok (site.locator root.scheme
          (rest ++ '/' :: (dropEnd isTrimmed more).filter (!isIgnored ·))) := by
  obtain ⟨n, htext⟩ := exists_eq_trimSlashes text
  have hlast := h.ended
  obtain ⟨r, hscheme, hroot⟩ := withAuthority_of_parse h.parsed h.web
  rw [htext] at hlast hscheme
  have hslashes : ∀ c ∈ (List.replicate n '/').head?, isSchemeChar c = false ∧ c ≠ ':' := by
    intro c hc
    rw [List.eq_of_mem_replicate (List.mem_of_head? hc)]
    decide
  rw [significant_replicate n hlast, scheme?_append hslashes] at hscheme
  obtain ⟨⟨s, after⟩, hs, heq⟩ := Option.map_eq_some_iff.1 hscheme
  obtain ⟨rfl, rfl⟩ := Prod.mk.inj heq
  obtain ⟨site, rest, hlocator, hextends⟩ := withAuthority_extends hroot
  refine ⟨site, rest, n, hlocator, ?_⟩
  intro more
  have hslash : ∀ c ∈ ('/' :: (dropEnd isTrimmed more).filter (!isIgnored ·)).head?,
      isSchemeChar c = false ∧ c ≠ ':' := by
    rintro c ⟨⟩
    decide
  have hread : scheme? (significant ((trimSlashes text).toList ++ '/' :: more)) =
      some (root.scheme, after ++ '/' :: (dropEnd isTrimmed more).filter (!isIgnored ·)) := by
    rw [significant_append, scheme?_append hslash, hs]
    rfl
  rw [parseChars_of_scheme? hread h.web, hextends]

theorem IsRoot.exists_host (h : IsRoot text root) : ∃ host, root.host = some host := by
  obtain ⟨site, rest, n, hroot, -⟩ := h.exists_site
  exact ⟨site.host, congrArg Url.host hroot⟩

/-! What follows the authority. -/

theorem splitTail_append (hask : '?' ∉ xs) (hmark : '#' ∉ xs) (ys : List Char) :
    splitTail (xs ++ ys) = (xs ++ (splitTail ys).1, (splitTail ys).2) := by
  have hne : ∀ d : Char, d ∉ xs → ∀ c ∈ xs, (c != d) = true := by
    intro d hd c hc
    rw [bne_iff_ne]
    rintro rfl
    exact hd hc
  simp only [splitTail, List.takeWhile_append_of_pos (hne '#' hmark),
    List.dropWhile_append_of_pos (hne '#' hmark), List.takeWhile_append_of_pos (hne '?' hask),
    List.dropWhile_append_of_pos (hne '?' hask)]

theorem notMem_of_splitTail (hask : (splitTail cs).2.1 = none) (hmark : (splitTail cs).2.2 = none) :
    '?' ∉ cs ∧ '#' ∉ cs := by
  have hnil : ∀ (d : Char) (ds : List Char), ds.dropWhile (· != d) = [] → d ∉ ds := by
    intro d ds hds hmem
    have hne := List.dropWhile_eq_nil_iff.1 hds d hmem
    simp at hne
  have hnone : '#' ∉ cs := by
    apply hnil
    dsimp only [splitTail] at hmark
    split at hmark
    · cases hmark
    · next hdrop => exact hdrop
  refine ⟨?_, hnone⟩
  have hwhole : cs.takeWhile (· != '#') = cs := by
    rw [List.takeWhile_eq_self_iff]
    intro c hc
    rw [bne_iff_ne]
    rintro rfl
    exact hnone hc
  apply hnil
  dsimp only [splitTail] at hask
  rw [hwhole] at hask
  split at hask
  · cases hask
  · next hdrop => exact hdrop

theorem splitTail_append_slash (hask : '?' ∉ xs) (hmark : '#' ∉ xs) (ys : List Char) :
    splitTail (xs ++ '/' :: ys) = (xs ++ '/' :: (splitTail ys).1, (splitTail ys).2) := by
  have hslash : '?' ∉ xs ++ ['/'] ∧ '#' ∉ xs ++ ['/'] := by simp [hask, hmark]
  have hsplit := splitTail_append hslash.1 hslash.2 ys
  rw [List.append_assoc, List.append_assoc] at hsplit
  exact hsplit

theorem splitTail_of_notMem (hask : '?' ∉ cs) (hmark : '#' ∉ cs) :
    splitTail cs = (cs, none, none) := by
  have hwhole := splitTail_append hask hmark []
  rwa [List.append_nil, show splitTail [] = ([], none, none) from rfl, List.append_nil] at hwhole

/-- Behind a root's text and a slash, segments go on from where its path leads to. -/
theorem IsRoot.extends (h : IsRoot text root) : ∃ ss : List (List Char),
    (∃ m, root.path = .segments ((walk [] ss).reverse ++ List.replicate m [])) ∧
      ∀ more ys, (dropEnd isTrimmed more).filter (!isIgnored ·) = ys →
        parseChars ((trimSlashes text).toList ++ '/' :: more) = .ok { root with
          path := .segments (appendSegments false [] (ss ++ written (splitTail ys).1))
          query := (splitTail ys).2.1.map (percentEncode specialQuerySet)
          fragment := (splitTail ys).2.2.map (percentEncode fragmentSet) } := by
  obtain ⟨site, rest, n, hroot, hread⟩ := h.exists_site
  have hask : (splitTail (rest ++ List.replicate n '/')).2.1 = none :=
    Option.map_eq_none_iff.1 ((congrArg Url.query hroot).symm.trans h.unasked)
  have hmark : (splitTail (rest ++ List.replicate n '/')).2.2 = none :=
    Option.map_eq_none_iff.1 ((congrArg Url.fragment hroot).symm.trans h.unmarked)
  obtain ⟨hask, hmark⟩ := notMem_of_splitTail hask hmark
  have hbase := splitTail_of_notMem hask hmark
  rw [List.mem_append, not_or] at hask hmark
  refine ⟨below rest, ?_, ?_⟩
  · obtain ⟨m, hm⟩ := exists_pathBelow_eq rest n
    refine ⟨m, ?_⟩
    rw [← hm]
    have hpath : root.path = .segments (pathBelow (splitTail (rest ++ List.replicate n '/')).1) :=
      congrArg Url.path hroot
    rw [hpath, hbase]
  · rintro more ys rfl
    have htail := splitTail_append_slash hask.1 hmark.1
      ((dropEnd isTrimmed more).filter (!isIgnored ·))
    have huser : root.username = site.username := congrArg Url.username hroot
    have hword : root.password = site.password := congrArg Url.password hroot
    have hhost : root.host = some site.host := congrArg Url.host hroot
    have hport : root.port = site.port := congrArg Url.port hroot
    rw [hread, Site.locator, htail, huser, hword, hhost, hport, ← pathBelow_append]
    rfl

end RecipeFlow.Url
