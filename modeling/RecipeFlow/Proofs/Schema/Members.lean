import RecipeFlow.Proofs.Yaml.Meaning

/-! Records and choices read from what means them: the order of the members does not count. -/
namespace RecipeFlow.Schema

open Yaml

variable {σ κ α : Type} {known kinds : List String} {kind type : String} {init s s' : σ}
  {put : σ → String → σ} {n : Node} {t : Tree} {entries : List (Node × Node)}
  {members l : List (String × Tree)}

/-! Texts. -/

section

variable {x : String}

theorem text_of_means (h : n.Means (.text x)) : text n = .ok x := by
  obtain ⟨s, rfl, rfl⟩ := Node.text_of_tree h.tree_eq
  rfl

theorem fieldName_of_tree (h : n.tree = .ok (.text x)) : fieldName n = .ok x := by
  obtain ⟨s, rfl, rfl⟩ := Node.text_of_tree h
  rfl

theorem variant_of_tree (h : n.tree = .ok (.text x)) (hx : x ∈ kinds) :
    variant kinds n = .ok x := by
  obtain ⟨s, rfl, rfl⟩ := Node.text_of_tree h
  exact if_pos (by simpa using hx)

/-- What says that there is nothing does not mean a text. -/
theorem textOrNull_of_means (h : n.Means (.text x)) : textOrNull n = .ok (some x) := by
  obtain ⟨s, rfl, rfl⟩ := Node.text_of_tree h.tree_eq
  have hatom := Node.atom_of_tree h.tree_eq
  have htag : s.tag ≠ some (standardTag "null") := by
    intro htag
    rw [Scalar.atom, htag] at hatom
    dsimp only at hatom
    rw [if_neg (by decide), if_neg (by decide), if_neg (by decide), if_pos rfl] at hatom
    cases hnull : isNullText s.text <;> simp [hnull] at hatom
  have hplain : s.plain = true → s.tag = none → ¬(s.text = "" ∨ isNullText s.text = true) := by
    intro hplain htag hnull
    rw [Scalar.atom, htag] at hatom
    dsimp only at hatom
    rw [hplain, if_pos rfl, plainAtom, if_pos (by simpa using hnull)] at hatom
    cases hatom
  have hempty : s.text.isEmpty = true ↔ s.text = "" := String.isEmpty_iff
  rw [textOrNull, if_neg (by simp [htag]), if_neg]
  simp only [Bool.and_eq_true, Bool.or_eq_true, Option.isNone_iff_eq_none, hempty]
  rintro ⟨⟨hp, ht⟩, hnull⟩
  exact hplain hp ht hnull

end

/-! Numbers. -/

theorem treeInt_bounds {k : Int} (ht : t.IsMeant) (h : treeInt t = .ok k) :
    -(Nat.pow 2 63) ≤ k ∧ k < Nat.pow 2 63 := by
  unfold treeInt at h
  split at h
  · split at h
    · next hlt =>
      cases h
      omega
    · cases h
  · cases h
    obtain ⟨n, hn⟩ := ht
    obtain ⟨hlow, hhigh⟩ := Node.signed_of_tree hn
    have hpos : 0 < Nat.pow 2 63 := by decide
    omega
  · cases h

theorem treeCount_bound {k : Nat} (ht : t.IsMeant) (h : treeCount t = .ok k) :
    k < Nat.pow 2 32 := by
  unfold treeCount at h
  split at h
  · split at h
    · next hlt =>
      cases h
      exact hlt
    · cases h
  · split at h
    · cases h
    · cases h
      obtain ⟨n, hn⟩ := ht
      obtain ⟨-, hhigh⟩ := Node.signed_of_tree hn
      have hpos : 0 < Nat.pow 2 32 := by decide
      omega
  · cases h

theorem treeInt_int {k : Int} (h : k < Nat.pow 2 63) : treeInt (.int k) = .ok k := by
  unfold Tree.int
  split
  · rfl
  · next hneg =>
    have hk : (k.toNat : Int) = k := by omega
    have hlt : k.toNat < Nat.pow 2 63 := by omega
    rw [treeInt, if_pos hlt, hk]

theorem orNull_eq_ok {read : Tree → Except Misfit α} {a : α} (h : read t = .ok a)
    (ht : t ≠ .atom .null) : orNull read t = .ok (some a) := by
  unfold orNull
  split
  · exact absurd rfl ht
  · rw [h]
    rfl

/-! Records. -/

section

variable {name : κ → Except Misfit String} {set : Setter σ α} {R : α → Tree → Prop}
  {fields : List (κ × α)}

/-- Reading fields fills them in one after the other. -/
theorem readFields_eq_foldl {seen : List String}
    (h : List.Forall₂ (fun e m => name e.1 = .ok m.1 ∧ R e.2 m.2) fields l)
    (hset : ∀ m ∈ l, ∀ v, R v m.2 → ∀ s, set s m.1 v = .ok (put s m.1))
    (hknown : l.map Prod.fst ⊆ known) (hnodup : (l.map Prod.fst).Nodup)
    (hseen : (l.map Prod.fst).Disjoint seen) :
    readFields name known set seen s fields = .ok ((l.map Prod.fst).foldl put s) := by
  induction h generalizing seen s with
  | nil => rfl
  | @cons e m fields l he _ ih =>
    obtain ⟨k, v⟩ := e
    obtain ⟨hname, hv⟩ := he
    rw [List.map_cons] at hknown hnodup hseen
    rw [List.cons_subset] at hknown
    rw [List.nodup_cons] at hnodup
    rw [List.disjoint_cons_left] at hseen
    have hcontains : known.contains m.1 = true := by simpa using hknown.1
    have hnew : seen.contains m.1 = false := by simpa using hseen.1
    have hrest : (l.map Prod.fst).Disjoint (m.1 :: seen) := by
      rw [List.disjoint_cons_right]
      exact ⟨hnodup.1, hseen.2⟩
    rw [readFields, hname]
    dsimp only [bind, Except.bind]
    rw [hcontains, hnew, hset m List.mem_cons_self v hv s]
    exact ih (fun m hm => hset m (List.mem_cons_of_mem _ hm)) hknown.2 hnodup.2 hrest

/-- Where the order in which fields are filled in does not count, the order in which they stand does
not either. -/
theorem readFields_of_perm (hl : l.Perm members)
    (h : List.Forall₂ (fun e m => name e.1 = .ok m.1 ∧ R e.2 m.2) fields l)
    (hset : ∀ m ∈ members, ∀ v, R v m.2 → ∀ s, set s m.1 v = .ok (put s m.1))
    (hknown : (members.map Prod.fst).Sublist known) (hnodup : known.Nodup)
    (hcomm : ∀ f ∈ known, ∀ g ∈ known, ∀ s, put (put s f) g = put (put s g) f) :
    readFields name known set [] s fields = .ok ((members.map Prod.fst).foldl put s) := by
  have hnames : (l.map Prod.fst).Perm (members.map Prod.fst) := hl.map _
  have hsubset : l.map Prod.fst ⊆ known := fun f hf => hknown.subset (hnames.mem_iff.1 hf)
  rw [← hnames.foldl_eq' (fun f hf g hg => hcomm f (hsubset hf) g (hsubset hg)) s]
  exact readFields_eq_foldl h (fun m hm => hset m (hl.mem_iff.1 hm)) hsubset
    (hnames.nodup_iff.2 (hnodup.sublist hknown))
    (List.disjoint_nil_right _)

end

theorem record_of_means {set : Setter σ Node} (put : σ → String → σ)
    (h : n.Means (.record members))
    (hset : ∀ m ∈ members, ∀ v : Node, v.Means m.2 → ∀ s, set s m.1 v = .ok (put s m.1))
    (hknown : (members.map Prod.fst).Sublist known) (hnodup : known.Nodup)
    (hcomm : ∀ f ∈ known, ∀ g ∈ known, ∀ s, put (put s f) g = put (put s g) f) :
    record type known set init n = .ok ((members.map Prod.fst).foldl put init) := by
  obtain ⟨tag, entries, l, rfl, -, hl, hentries⟩ := h.of_record
  refine readFields_of_perm hl (hentries.imp ?_) hset hknown hnodup hcomm
  rintro e m ⟨hk, hv⟩
  exact ⟨fieldName_of_tree hk, hv⟩

theorem treeRecord_of_same {set : Setter σ Tree} (put : σ → String → σ)
    (h : t.Same (.record members))
    (hset : ∀ m ∈ members, ∀ v : Tree, v.Same m.2 → ∀ s, set s m.1 v = .ok (put s m.1))
    (hknown : (members.map Prod.fst).Sublist known) (hnodup : known.Nodup)
    (hcomm : ∀ f ∈ known, ∀ g ∈ known, ∀ s, put (put s f) g = put (put s g) f) :
    treeRecord type known set init t = .ok ((members.map Prod.fst).foldl put init) := by
  obtain ⟨es, l, rfl, hl, hes⟩ := Tree.same_record_iff.1 h
  refine readFields_of_perm hl (hes.imp ?_) hset hknown hnodup hcomm
  rintro e m ⟨hk, hv⟩
  exact ⟨by rw [hk]; rfl, hv⟩

/-! Sequences. -/

/-- Items that are each read back from what is written of them. -/
theorem items_of_means {read : Node → Except Misfit α} {write : α → Tree} {as : List α}
    (h : n.Means (.sequence (as.map write)))
    (hread : ∀ a ∈ as, ∀ v : Node, v.Means (write a) → read v = .ok a) :
    items read n = .ok as := by
  obtain ⟨tag, ns, rfl, hns⟩ := h.of_sequence
  rw [List.forall₂_map_right_iff] at hns
  refine mapM_eq_ok_iff.2 ?_
  clear h
  induction hns with
  | nil => exact .nil
  | @cons v a ns as hv _ ih =>
    have hrest := ih fun a ha => hread a (List.mem_cons_of_mem _ ha)
    exact .cons (hread a List.mem_cons_self v hv) hrest

theorem items_keeps {read : Node → Except Misfit α} {as : List α} (h : items read n = .ok as)
    {P : α → Prop} (hread : ∀ v a, read v = .ok a → P a) : ∀ a ∈ as, P a := by
  unfold items at h
  split at h
  · intro a ha
    obtain ⟨v, hv⟩ := exists_forall₂_iff.1 ⟨_, mapM_eq_ok_iff.1 h⟩ a ha
    exact hread v a hv
  · split at h
    · cases h
      simp
    · cases h

/-! Choices. -/

/-- An entry that does not name the variant is kept. -/
theorem splitVariant_keep {chosen : Option String} {ts : List (Tree × Tree)} {e : Node × Node}
    {m : String × Tree} (h : Node.IsMember e m) (hne : m.1 ≠ "type") :
    ∃ e', Tree.IsMember e' m ∧ splitVariant kinds chosen ts (e :: entries) =
      splitVariant kinds chosen (ts ++ [e']) entries := by
  obtain ⟨hk, v, hv, hsame⟩ := h
  have htext : Tree.text m.1 ≠ .text "type" := by simpa [Tree.text] using hne
  exact ⟨(.text m.1, v), ⟨rfl, hsame⟩, splitVariant_skip hk htext hv⟩

theorem splitVariant_rest {chosen : Option String} {ts : List (Tree × Tree)}
    (h : List.Forall₂ Node.IsMember entries l) (hl : "type" ∉ l.map Prod.fst) :
    ∃ es, splitVariant kinds chosen ts entries = .ok (chosen, ts ++ es) ∧
      List.Forall₂ Tree.IsMember es l := by
  induction h generalizing ts with
  | nil => exact ⟨[], by rw [List.append_nil]; rfl, .nil⟩
  | @cons e m entries l he _ ih =>
    rw [List.map_cons, List.mem_cons, not_or] at hl
    obtain ⟨e', he', hkeep⟩ := splitVariant_keep he (Ne.symm hl.1)
    obtain ⟨es, hes, hmembers⟩ := ih hl.2
    refine ⟨e' :: es, ?_, .cons he' hmembers⟩
    rw [hkeep, hes, List.append_assoc, List.singleton_append]

/-- The entry that names the variant may stand anywhere. -/
theorem splitVariant_middle {ts : List (Tree × Tree)} {pre post : List (String × Tree)}
    (h : List.Forall₂ Node.IsMember entries (pre ++ ("type", .text kind) :: post))
    (hkind : kind ∈ kinds) (hpre : "type" ∉ pre.map Prod.fst) (hpost : "type" ∉ post.map Prod.fst) :
    ∃ es, splitVariant kinds none ts entries = .ok (some kind, ts ++ es) ∧
      List.Forall₂ Tree.IsMember es (pre ++ post) := by
  induction pre generalizing entries ts with
  | nil =>
    obtain ⟨⟨k, v⟩, entries, ⟨hk, hv⟩, hrest, rfl⟩ := List.forall₂_cons_right_iff.1 h
    obtain ⟨es, hes, hmembers⟩ := splitVariant_rest hrest hpost
    exact ⟨es, by rw [splitVariant_type hk (variant_of_tree hv.tree_eq hkind), hes], hmembers⟩
  | cons m pre ih =>
    obtain ⟨e, entries, he, hrest, rfl⟩ := List.forall₂_cons_right_iff.1 h
    rw [List.map_cons, List.mem_cons, not_or] at hpre
    obtain ⟨e', he', hkeep⟩ := splitVariant_keep he (Ne.symm hpre.1)
    obtain ⟨es, hes, hmembers⟩ := ih hrest hpre.2
    refine ⟨e' :: es, ?_, .cons he' hmembers⟩
    rw [hkeep, hes, List.append_assoc, List.singleton_append]

theorem choice_of_means (h : n.Means (.record (("type", .text kind) :: members)))
    (hkind : kind ∈ kinds) (hmembers : "type" ∉ members.map Prod.fst) :
    ∃ rest, choice type kinds n = .ok (kind, rest) ∧ rest.Same (.record members) := by
  obtain ⟨tag, entries, l, rfl, htag, hl, hentries⟩ := h.of_record
  -- The member that names the variant may have come to stand between the others.
  obtain ⟨pre, post, rfl⟩ := List.append_of_mem (hl.mem_iff.2 List.mem_cons_self)
  have hrest : (pre ++ post).Perm members :=
    (List.perm_cons _).1 (List.perm_middle.symm.trans hl)
  have htype : "type" ∉ (pre ++ post).map Prod.fst :=
    fun hmem => hmembers ((hrest.map _).mem_iff.1 hmem)
  rw [List.map_append, List.mem_append, not_or] at htype
  obtain ⟨es, hes, hsame⟩ := splitVariant_middle hentries hkind htype.1 htype.2
  refine ⟨.mapping es, choice_mapping.2 ⟨htag, es, hes, rfl⟩, ?_⟩
  exact Tree.same_record_iff.2 ⟨es, pre ++ post, rfl, hrest, hsame⟩

/-! What holds of a record that has been read, because no field that is filled in changes it. -/

theorem required_eq_ok {a : α} {o : Option α} {name : String} (h : required name o = .ok a) :
    o = some a := by
  cases o with
  | none => cases h
  | some b =>
    cases h
    rfl

section

variable {P : σ → Prop}

theorem readFields_keeps {name : κ → Except Misfit String} {set : Setter σ α} {seen : List String}
    {fields : List (κ × α)} (h : readFields name known set seen s fields = .ok s') (hs : P s)
    (hset : ∀ s s' f e, e ∈ fields → set s f e.2 = .ok s' → P s → P s') : P s' := by
  induction fields generalizing seen s with
  | nil =>
    cases h
    exact hs
  | cons e fields ih =>
    obtain ⟨k, v⟩ := e
    rw [readFields] at h
    obtain ⟨f, -, h⟩ := bind_eq_ok.1 h
    split at h
    · cases h
    · split at h
      · cases h
      · obtain ⟨s₁, hs₁, h⟩ := bind_eq_ok.1 h
        exact ih h (hset s s₁ f (k, v) List.mem_cons_self hs₁ hs) fun s s' f e he =>
          hset s s' f e (List.mem_cons_of_mem _ he)

theorem record_keeps {set : Setter σ Node} (h : record type known set init n = .ok s')
    (hinit : P init) (hset : ∀ s s' f v, set s f v = .ok s' → P s → P s') : P s' := by
  cases n with
  | mapping tag entries =>
    exact readFields_keeps h hinit fun s s' f e _ => hset s s' f e.2
  | scalar | sequence | broken =>
    simp only [record] at h
    split at h
    · cases h
      exact hinit
    · cases h

theorem readInOrder_keeps {set : Setter σ Tree} {fs : List String} {vs : List Tree}
    (h : readInOrder set s fs vs = .ok s') (hs : P s)
    (hset : ∀ s s' f v, v ∈ vs → set s f v = .ok s' → P s → P s') : P s' := by
  induction fs generalizing s vs with
  | nil =>
    cases h
    exact hs
  | cons f fs ih =>
    cases vs with
    | nil =>
      cases h
      exact hs
    | cons v vs =>
      rw [readInOrder] at h
      obtain ⟨s₁, hs₁, h⟩ := bind_eq_ok.1 h
      exact ih h (hset s s₁ f v List.mem_cons_self hs₁ hs) fun s s' f v hv =>
        hset s s' f v (List.mem_cons_of_mem _ hv)

theorem treeRecord_keeps {set : Setter σ Tree} (h : treeRecord type known set init t = .ok s')
    (ht : t.IsMeant) (hinit : P init)
    (hset : ∀ s s' f v, v.IsMeant → set s f v = .ok s' → P s → P s') : P s' := by
  cases t with
  | atom a => cases h
  | sequence vs =>
    obtain ⟨s, hs, h⟩ := bind_eq_ok.1 h
    split at h
    · cases h
      exact readInOrder_keeps hs hinit fun s s' f v hv =>
        hset s s' f v (Tree.isMeant_sequence_iff.1 ht v hv)
    · cases h
  | mapping es =>
    exact readFields_keeps h hinit fun s s' f e he =>
      hset s s' f e.2 (Tree.isMeant_mapping_iff.1 ht e he).2

end

theorem isMeant_of_splitVariant {chosen chosen' : Option String} {ts ts' : List (Tree × Tree)}
    (h : splitVariant kinds chosen ts entries = .ok (chosen', ts'))
    (hts : (Tree.mapping ts).IsMeant) : (Tree.mapping ts').IsMeant := by
  induction entries generalizing chosen ts with
  | nil =>
    cases h
    exact hts
  | cons e entries ih =>
    obtain ⟨k, v⟩ := e
    rcases splitVariant_cons h with ⟨-, -, kind, -, hrest⟩ | ⟨kt, vt, hk, -, hv, hrest⟩
    · exact ih hrest hts
    · refine ih hrest (Tree.isMeant_mapping_iff.2 fun e he => ?_)
      rcases List.mem_append.1 he with he | he
      · exact Tree.isMeant_mapping_iff.1 hts e he
      · obtain rfl := List.mem_singleton.1 he
        exact ⟨⟨k, hk⟩, v, hv⟩

theorem isMeant_of_choice (h : choice type kinds n = .ok (kind, t)) : t.IsMeant := by
  cases n with
  | scalar s => exact absurd h choice_scalar
  | sequence tag ns =>
    obtain ⟨-, ns, ts, -, -, -, rfl, hts⟩ := items_of_choice h
    exact Tree.isMeant_sequence_iff.2 (exists_forall₂_iff.1 ⟨ns, mapM_eq_ok_iff.1 hts⟩)
  | mapping tag entries =>
    obtain ⟨-, ts, hts, rfl⟩ := choice_mapping.1 h
    exact isMeant_of_splitVariant hts (Tree.isMeant_mapping_iff.2 fun e he => by cases he)
  | broken => cases h

end RecipeFlow.Schema
