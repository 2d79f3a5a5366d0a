import RecipeFlow.Proofs.Except
import RecipeFlow.Schema.Record

/-! What a node looks like that was read as a record or as a choice: no entry was passed over. -/
namespace RecipeFlow

namespace Yaml

variable {a : Atom} {n k v : Node} {s : Scalar} {t : Tree} {tag : Option String} {ns : List Node}
  {entries : List (Node × Node)}

/-- A text that has no meaning but itself. -/
def isWord (s : String) : Bool :=
  s ≠ "" && !isNullText s && (truth? s).isNone && (whole? s.toList).isNone && (float? s).isNone

/-- Whatever tag a word carries, it is read as itself. -/
theorem atom_of_isWord (hw : isWord s.text = true) (h : s.atom = .ok a) : a = .text s.text := by
  simp only [isWord, Bool.and_eq_true, Bool.not_eq_true', Option.isNone_iff_eq_none, ne_eq,
    decide_not] at hw
  obtain ⟨⟨⟨⟨hempty, hnull⟩, htruth⟩, hwhole⟩, hfloat⟩ := hw
  have hplain : plainAtom s.text = .text s.text := by
    simp [plainAtom, hempty, hnull, htruth, hwhole, hfloat]
  simp only [Scalar.atom, htruth, hwhole, hfloat, hnull, hplain] at h
  grind

theorem whole?_ne_text (cs : List Char) (x : String) : whole? cs ≠ some (.text x) := by
  intro h
  unfold whole? at h
  split at h
  · obtain ⟨n, -, h⟩ := Option.bind_eq_some_iff.1 h
    grind
  · obtain ⟨n, -, h⟩ := Option.bind_eq_some_iff.1 h
    grind

theorem plainAtom_eq_text {s x : String} (h : plainAtom s = .text x) : s = x := by
  unfold plainAtom at h
  grind [whole?_ne_text]

/-- What is read as a text stands there as it is read. -/
theorem atom_eq_text {x : String} (h : s.atom = .ok (.text x)) : s.text = x := by
  simp only [Scalar.atom] at h
  grind [whole?_ne_text, plainAtom_eq_text, Option.map_eq_some_iff]

namespace Node

theorem tree_of_isWord (hw : isWord s.text = true) (h : (Node.scalar s).tree = .ok t) :
    t = .text s.text := by
  rw [tree] at h
  split at h
  · cases h
  · obtain ⟨a, ha, h⟩ := bind_eq_ok.1 h
    obtain rfl := atom_of_isWord hw ha
    cases h
    rfl

theorem tree_scalar (h : (Node.scalar s).tree = .ok t) : ∃ a, s.atom = .ok a ∧ t = .atom a := by
  rw [tree] at h
  split at h
  · cases h
  · obtain ⟨a, ha, h⟩ := bind_eq_ok.1 h
    split at h
    · cases h
    · cases h
      exact ⟨a, ha, rfl⟩

theorem tree_mapping (h : (Node.mapping tag entries).tree = .ok t) :
    ∃ ts, treeEntries entries = .ok ts ∧ t = .mapping ts := by
  rw [tree] at h
  split at h
  · cases h
  · obtain ⟨ts, hts, ht⟩ := map_eq_ok h
    exact ⟨ts, hts, ht.symm⟩

theorem treeItems_eq (ns : List Node) : treeItems ns = ns.mapM tree := by
  induction ns with
  | nil => rfl
  | cons n ns ih => rw [treeItems, List.mapM_cons, ih]

theorem tree_sequence (h : (Node.sequence tag ns).tree = .ok t) :
    ∃ ts, ns.mapM tree = .ok ts ∧ t = .sequence ts := by
  rw [tree, treeItems_eq] at h
  split at h
  · cases h
  · obtain ⟨ts, hts, ht⟩ := map_eq_ok h
    exact ⟨ts, hts, ht.symm⟩

/-- Only scalars have atoms as their meaning. -/
theorem scalar_of_tree (h : n.tree = .ok (.atom a)) : ∃ s, n = .scalar s := by
  cases n with
  | scalar s => exact ⟨s, rfl⟩
  | sequence tag ns =>
    obtain ⟨ts, -, ht⟩ := tree_sequence h
    cases ht
  | mapping tag entries =>
    obtain ⟨ts, -, ht⟩ := tree_mapping h
    cases ht
  | broken => cases h

theorem atom_of_tree (h : (Node.scalar s).tree = .ok (.atom a)) : s.atom = .ok a := by
  obtain ⟨a', ha, heq⟩ := tree_scalar h
  cases heq
  exact ha

/-- Where the meaning is a text, it is the text that stands there. -/
theorem text_of_tree {x : String} (h : n.tree = .ok (.text x)) :
    ∃ s, n = .scalar s ∧ s.text = x := by
  obtain ⟨s, rfl⟩ := scalar_of_tree h
  exact ⟨s, rfl, atom_eq_text (atom_of_tree h)⟩

theorem mem_of_treeEntries {ts : List (Tree × Tree)} (h : treeEntries entries = .ok ts)
    (hmem : (k, v) ∈ entries) :
    ∃ kt vt, k.tree = .ok kt ∧ v.tree = .ok vt ∧ (kt, vt) ∈ ts := by
  induction entries generalizing ts with
  | nil => cases hmem
  | cons e entries ih =>
    obtain ⟨k', v'⟩ := e
    rw [treeEntries] at h
    obtain ⟨kt, hk, h⟩ := bind_eq_ok.1 h
    obtain ⟨vt, hv, h⟩ := bind_eq_ok.1 h
    obtain ⟨ts', hts, h⟩ := bind_eq_ok.1 h
    cases h
    rcases List.mem_cons.1 hmem with heq | hmem
    · cases heq
      exact ⟨kt, vt, hk, hv, List.mem_cons_self⟩
    · obtain ⟨kt', vt', hk', hv', hin⟩ := ih hts hmem
      exact ⟨kt', vt', hk', hv', List.mem_cons_of_mem _ hin⟩

end Node

end Yaml

namespace Schema

open Yaml

variable {σ κ α : Type} {known names kinds : List String} {kind type : String} {init s' : σ}
  {tag : Option String} {entries : List (Node × Node)} {ns : List Node} {n k v : Node}
  {t rest : Tree}

/-- A value that is taken for a field, in some state of the record. -/
def Takes (set : Setter σ α) (field : String) (v : α) : Prop :=
  ∃ s s', set s field v = .ok s'

/-- Fields that are read are known, and their values are taken. -/
theorem takes_of_readFields {name : κ → Except Misfit String} {set : Setter σ α}
    {seen : List String} {s : σ} {l : List (κ × α)}
    (h : readFields name known set seen s l = .ok s') {k : κ} {v : α} (hmem : (k, v) ∈ l) :
    ∃ f, name k = .ok f ∧ f ∈ known ∧ Takes set f v := by
  induction l generalizing seen s with
  | nil => cases hmem
  | cons e l ih =>
    obtain ⟨k', v'⟩ := e
    rw [readFields] at h
    obtain ⟨f, hname, h⟩ := bind_eq_ok.1 h
    split at h
    · cases h
    · next hknown =>
      split at h
      · cases h
      · obtain ⟨t, hset, h⟩ := bind_eq_ok.1 h
        rcases List.mem_cons.1 hmem with heq | hmem
        · cases heq
          exact ⟨f, hname, by simpa using hknown, s, t, hset⟩
        · exact ih h hmem

theorem takes_of_record {set : Setter σ Node}
    (h : record type known set init (.mapping tag entries) = .ok s') (hmem : (k, v) ∈ entries) :
    ∃ s, k = .scalar s ∧ s.text ∈ known ∧ Takes set s.text v := by
  obtain ⟨f, hname, hf, htakes⟩ := takes_of_readFields h hmem
  cases k with
  | scalar s =>
    cases hname
    exact ⟨s, rfl, hf, htakes⟩
  | sequence | mapping | broken => cases hname

theorem record_sequence {set : Setter σ Node} :
    record type known set init (.sequence tag ns) ≠ .ok s' := by
  rintro ⟨⟩

/-- How a key names a field: by its text or by its number. -/
theorem names_of_nameOrIndex {what f : String} (h : nameOrIndex what names t = .ok f) :
    t = .text f ∨ ∃ i, t = .atom (.natural i) ∧ names[i]? = some f := by
  unfold nameOrIndex at h
  split at h
  · cases h
    exact .inl rfl
  · next i =>
    split at h
    · next hi =>
      cases h
      exact .inr ⟨i, rfl, hi⟩
    · cases h
  · cases h

/-- A tree that was read as a record, with what holds of each field's value. -/
def Reads (known : List String) (P : String → Tree → Prop) : Tree → Prop
  | .mapping entries => ∀ k v, (k, v) ∈ entries →
      ∃ f, nameOrIndex "field" known k = .ok f ∧ f ∈ known ∧ P f v
  | .sequence vs => ∀ (i : Nat) v, vs[i]? = some v → ∃ f, known[i]? = some f ∧ P f v
  | .atom _ => False

theorem takes_of_readInOrder {set : Setter σ Tree} {s : σ} {vs : List Tree}
    (h : readInOrder set s known vs = .ok s') (hlength : vs.length ≤ known.length) {i : Nat}
    {v : Tree} (hv : vs[i]? = some v) : ∃ f, known[i]? = some f ∧ Takes set f v := by
  induction known generalizing s vs i with
  | nil =>
    obtain rfl := List.length_eq_zero_iff.1 (Nat.le_zero.1 hlength)
    cases hv
  | cons f known ih =>
    cases vs with
    | nil => cases hv
    | cons v' vs =>
      rw [readInOrder] at h
      obtain ⟨t, hset, h⟩ := bind_eq_ok.1 h
      cases i with
      | zero =>
        cases hv
        exact ⟨f, rfl, s, t, hset⟩
      | succ i => exact ih h (Nat.le_of_succ_le_succ hlength) hv

theorem reads_of_treeRecord {set : Setter σ Tree} {P : String → Tree → Prop}
    (h : treeRecord type known set init t = .ok s')
    (hset : ∀ f v, Takes set f v → P f v) : Reads known P t := by
  cases t with
  | atom a => cases h
  | mapping ts =>
    intro k v hmem
    obtain ⟨f, hname, hf, htakes⟩ := takes_of_readFields h hmem
    exact ⟨f, hname, hf, hset f v htakes⟩
  | sequence vs =>
    obtain ⟨s, hread, h⟩ := bind_eq_ok.1 h
    split at h
    · next hlength =>
      intro i v hv
      obtain ⟨f, hf, htakes⟩ := takes_of_readInOrder hread hlength hv
      exact ⟨f, hf, hset f v htakes⟩
    · cases h

/-! Choices. -/

theorem variant_ok (h : variant kinds n = .ok kind) :
    kind ∈ kinds ∧ ∃ s, n = .scalar s ∧ s.text = kind := by
  cases n with
  | scalar s =>
    rw [variant] at h
    split at h
    · next hknown =>
      cases h
      exact ⟨by simpa using hknown, s, rfl, rfl⟩
    · cases h
  | sequence | mapping | broken => cases h

/-- The first entry names the variant, or it is kept for later. -/
theorem splitVariant_cons {chosen chosen' : Option String} {ts ts' : List (Tree × Tree)}
    (h : splitVariant kinds chosen ts ((k, v) :: entries) = .ok (chosen', ts')) :
    (k.tree = .ok (.text "type") ∧ chosen = none ∧ ∃ kind, variant kinds v = .ok kind ∧
        splitVariant kinds (some kind) ts entries = .ok (chosen', ts')) ∨
      ∃ kt vt, k.tree = .ok kt ∧ kt ≠ .text "type" ∧ v.tree = .ok vt ∧
        splitVariant kinds chosen (ts ++ [(kt, vt)]) entries = .ok (chosen', ts') := by
  rw [splitVariant] at h
  obtain ⟨kt, hk, h⟩ := bind_eq_ok.1 h
  split at h
  · split at h
    · cases h
    · next hnone =>
      obtain ⟨kind, hv, h⟩ := bind_eq_ok.1 h
      exact .inl ⟨hk, by simpa using hnone, kind, hv, h⟩
  · next hne =>
    obtain ⟨vt, hv, h⟩ := bind_eq_ok.1 h
    exact .inr ⟨kt, vt, hk, hne, hv, h⟩

theorem splitVariant_type {ts : List (Tree × Tree)} (hk : k.tree = .ok (.text "type"))
    (hv : variant kinds v = .ok kind) :
    splitVariant kinds none ts ((k, v) :: entries) =
      splitVariant kinds (some kind) ts entries := by
  rw [splitVariant, hk, hv]
  rfl

theorem splitVariant_skip {chosen : Option String} {ts : List (Tree × Tree)} {kt vt : Tree}
    (hk : k.tree = .ok kt) (hne : kt ≠ .text "type") (hv : v.tree = .ok vt) :
    splitVariant kinds chosen ts ((k, v) :: entries) =
      splitVariant kinds chosen (ts ++ [(kt, vt)]) entries := by
  rw [splitVariant, hk, hv]
  dsimp only [bind, Except.bind]
  split
  · exact absurd rfl hne
  · rfl

section

variable {chosen chosen' : Option String} {ts ts' : List (Tree × Tree)}

theorem subset_of_splitVariant (h : splitVariant kinds chosen ts entries = .ok (chosen', ts')) :
    ts ⊆ ts' := by
  induction entries generalizing chosen ts with
  | nil =>
    cases h
    exact List.Subset.refl _
  | cons e entries ih =>
    rcases splitVariant_cons h with ⟨-, -, kind, -, hrest⟩ | ⟨kt, vt, -, -, -, hrest⟩
    · exact ih hrest
    · exact List.Subset.trans (List.subset_append_left _ _) (ih hrest)

theorem chosen_of_splitVariant
    (h : splitVariant kinds (some kind) ts entries = .ok (chosen', ts')) :
    chosen' = some kind := by
  induction entries generalizing ts with
  | nil =>
    cases h
    rfl
  | cons e entries ih =>
    rcases splitVariant_cons h with ⟨-, hnone, -⟩ | ⟨kt, vt, -, -, -, hrest⟩
    · cases hnone
    · exact ih hrest

/-- No entry is lost: it names the variant, or it is among those that are kept. -/
theorem mem_of_splitVariant (h : splitVariant kinds chosen ts entries = .ok (chosen', ts'))
    (hmem : (k, v) ∈ entries) :
    (k.tree = .ok (.text "type") ∧ ∃ kind, variant kinds v = .ok kind ∧ chosen' = some kind) ∨
      ∃ kt vt, k.tree = .ok kt ∧ kt ≠ .text "type" ∧ v.tree = .ok vt ∧ (kt, vt) ∈ ts' := by
  induction entries generalizing chosen ts with
  | nil => cases hmem
  | cons e entries ih =>
    obtain ⟨k', v'⟩ := e
    rcases splitVariant_cons h with ⟨hk, -, kind, hv, hrest⟩ | ⟨kt, vt, hk, hne, hv, hrest⟩
    · rcases List.mem_cons.1 hmem with heq | hmem
      · cases heq
        exact .inl ⟨hk, kind, hv, chosen_of_splitVariant hrest⟩
      · exact ih hrest hmem
    · rcases List.mem_cons.1 hmem with heq | hmem
      · cases heq
        refine .inr ⟨kt, vt, hk, hne, hv, subset_of_splitVariant hrest ?_⟩
        exact List.mem_append_right ts List.mem_cons_self
      · exact ih hrest hmem

theorem exists_of_splitVariant (h : splitVariant kinds none ts entries = .ok (some kind, ts')) :
    ∃ k v, (k, v) ∈ entries ∧ k.tree = .ok (.text "type") ∧ variant kinds v = .ok kind := by
  induction entries generalizing ts with
  | nil => cases h
  | cons e entries ih =>
    obtain ⟨k', v'⟩ := e
    rcases splitVariant_cons h with ⟨hk, -, kind', hv, hrest⟩ | ⟨kt, vt, -, -, -, hrest⟩
    · cases chosen_of_splitVariant hrest
      exact ⟨k', v', List.mem_cons_self, hk, hv⟩
    · obtain ⟨k, v, hmem, hk, hv⟩ := ih hrest
      exact ⟨k, v, List.mem_cons_of_mem _ hmem, hk, hv⟩

/-- Which variant is named does not depend on what is kept. -/
theorem splitVariant_keeping (h : splitVariant kinds chosen ts entries = .ok (chosen', ts'))
    (us : List (Tree × Tree)) :
    ∃ us', splitVariant kinds chosen us entries = .ok (chosen', us') := by
  induction entries generalizing chosen ts us with
  | nil =>
    cases h
    exact ⟨us, rfl⟩
  | cons e entries ih =>
    rcases splitVariant_cons h with ⟨hk, rfl, kind', hv, hrest⟩ | ⟨kt, vt, hk, hne, hv, hrest⟩
    · rw [splitVariant_type hk hv]
      exact ih hrest us
    · rw [splitVariant_skip hk hne hv]
      exact ih hrest _

/-- Nor does it depend on an entry that is kept. -/
theorem splitVariant_insert {before after : List (Node × Node)} {kt vt : Tree}
    (hk : k.tree = .ok kt) (hne : kt ≠ .text "type")
    (hv : v.tree = .ok vt)
    (h : splitVariant kinds chosen ts (before ++ after) = .ok (chosen', ts'))
    (us : List (Tree × Tree)) :
    ∃ us', splitVariant kinds chosen us (before ++ (k, v) :: after) = .ok (chosen', us') := by
  induction before generalizing chosen ts us with
  | nil =>
    rw [List.nil_append, splitVariant_skip hk hne hv]
    exact splitVariant_keeping h _
  | cons e before ih =>
    rcases splitVariant_cons h with ⟨hk', rfl, kind', hv', hrest⟩ |
      ⟨kt', vt', hk', hne', hv', hrest⟩
    · rw [List.cons_append, splitVariant_type hk' hv']
      exact ih hrest us
    · rw [List.cons_append, splitVariant_skip hk' hne' hv']
      exact ih hrest _

end

theorem choice_mapping : choice type kinds (.mapping tag entries) = .ok (kind, rest) ↔
    tag.any isLocalTag = false ∧
      ∃ ts, splitVariant kinds none [] entries = .ok (some kind, ts) ∧ rest = .mapping ts := by
  rw [choice]
  constructor
  · intro h
    dsimp only at h
    split at h
    · cases h
    · next htag =>
      obtain ⟨⟨chosen, ts⟩, hsplit, h⟩ := bind_eq_ok.1 h
      cases chosen with
      | none => cases h
      | some kind' =>
        cases h
        exact ⟨by simpa [Node.hasLocalTag] using htag, ts, hsplit, rfl⟩
  · rintro ⟨htag, ts, hsplit, rfl⟩
    have hlocal : (Node.mapping tag entries).hasLocalTag = false := htag
    simp only [hlocal, hsplit]
    rfl

/-- An entry of a choice names the variant, or it is read with the rest. -/
theorem mem_of_choice (h : choice type kinds (.mapping tag entries) = .ok (kind, rest)) :
    ∃ ts, rest = .mapping ts ∧
      (∃ k v, (k, v) ∈ entries ∧ k.tree = .ok (.text "type") ∧ variant kinds v = .ok kind) ∧
      ∀ k v, (k, v) ∈ entries →
        (k.tree = .ok (.text "type") ∧ variant kinds v = .ok kind) ∨
          ∃ kt vt, k.tree = .ok kt ∧ kt ≠ .text "type" ∧ v.tree = .ok vt ∧ (kt, vt) ∈ ts := by
  obtain ⟨-, ts, hsplit, rfl⟩ := choice_mapping.1 h
  refine ⟨ts, rfl, exists_of_splitVariant hsplit, fun k v hmem => ?_⟩
  rcases mem_of_splitVariant hsplit hmem with ⟨hk, kind, hv, heq⟩ | hkept
  · cases heq
    exact .inl ⟨hk, hv⟩
  · exact .inr hkept

theorem items_of_choice (h : choice type kinds (.sequence tag ns) = .ok (kind, rest)) :
    ∃ s ns' vs, ns = .scalar s :: ns' ∧ s.text = kind ∧ kind ∈ kinds ∧ rest = .sequence vs ∧
      ns'.mapM Node.tree = .ok vs := by
  unfold choice at h
  dsimp only at h
  split at h
  · cases h
  · cases ns with
    | nil => cases h
    | cons n ns =>
      obtain ⟨kind', hvariant, h⟩ := bind_eq_ok.1 h
      obtain ⟨vs, hvs, h⟩ := bind_eq_ok.1 h
      cases h
      obtain ⟨hkind, s, rfl, hs⟩ := variant_ok hvariant
      exact ⟨s, ns, vs, rfl, hs, hkind, rfl, hvs⟩

theorem choice_scalar {s : Scalar} : choice type kinds (.scalar s) ≠ .ok (kind, rest) := by
  intro h
  unfold choice at h
  dsimp only at h
  split at h
  · cases h
  · cases h

/-- The variant is one of those that there are. -/
theorem mem_kinds_of_choice (h : choice type kinds n = .ok (kind, rest)) : kind ∈ kinds := by
  cases n with
  | scalar s => exact absurd h choice_scalar
  | sequence tag ns =>
    obtain ⟨s, ns', vs, -, -, hkind, -⟩ := items_of_choice h
    exact hkind
  | mapping tag entries =>
    obtain ⟨ts, -, ⟨k, v, -, -, hv⟩, -⟩ := mem_of_choice h
    exact (variant_ok hv).1
  | broken => cases h

end Schema

end RecipeFlow
