import Mathlib.Control.Monad.Basic
import RecipeFlow.Proofs.Schema.Record
import RecipeFlow.Recipe.Load

/-! The keys of a recipe's document. Each place of the document has its own keys, and a document
with others is malformed; but an output may have any, and a workflow's fields may go by their
numbers. -/
namespace RecipeFlow.RecipeDocument

open Yaml Schema

/-- The places of a document. -/
inductive Place where
  | document
  | input
  | params
  | param
  | output
  | shell
  | visualization
  | parallel
  | strategy
  /-- What has no keys. -/
  | value
  deriving DecidableEq

/-- What an entry has under `type`. -/
def typeOf? : Node × Node → Option String
  | (.scalar k, .scalar v) => if k.text = "type" then some v.text else none
  | _ => none

/-- The variant that a section names, under `type` or in front of its values. -/
def kind? : Node → Option String
  | .mapping _ entries => entries.findSome? typeOf?
  | .sequence _ (.scalar v :: _) => some v.text
  | _ => none

namespace Place

/-- The keys that a mapping may have at a place. -/
def fields : Place → List String
  | document => ["name", "image", "input", "output", "workflow"]
  | input => ["params"]
  | param => ["type", "value", "filename"]
  | output => ["type"]
  | shell => ["type", "sh_file", "parallel"]
  | visualization => ["type", "batch_size", "config_file"]
  | parallel => ["enabled", "partition_strategy", "partition_size"]
  | strategy => ["by_file_count", "files"]
  | params | value => []

/-- The place of what stands under a key. -/
def below : Place → String → Node → Place
  | document, "input", _ => input
  | document, "output", _ => output
  | document, "workflow", n =>
    if kind? n = some "shell" then shell
    else if kind? n = some "visualization" then visualization else value
  | input, "params", _ => params
  | shell, "parallel", _ => parallel
  | parallel, "partition_strategy", _ => strategy
  | _, _, _ => value

/-- The place of an item: in a sequence the fields' values stand in order. -/
def item (p : Place) (i : Nat) (n : Node) : Place :=
  if p = params then param
  else match p.fields[i]? with
    | some f => p.below f n
    | none => value

/-- The places of a workflow, where a field may go by its number. -/
def IsBuffered (p : Place) : Prop :=
  p = shell ∨ p = visualization ∨ p = parallel ∨ p = strategy

/-- A key that a mapping may have at a place. -/
def Defines (p : Place) (k : Node) : Prop :=
  ∃ s, k = .scalar s ∧ s.text ∈ p.fields

/-- A key that stands for a field by its number. -/
def Numbers (p : Place) (k : Node) : Prop :=
  p.IsBuffered ∧ ∃ i < p.fields.length, k.tree = .ok (.atom (.natural i))

theorem isWord_of_mem_fields {p : Place} {f : String} (h : f ∈ p.fields) : isWord f = true := by
  have hall : ∀ p : Place, ∀ f ∈ p.fields, isWord f = true := by
    intro p
    cases p <;> decide +kernel
  exact hall p f h

end Place

/-- What stands at the places of a document with a given root. -/
inductive Stands (root : Node) : Place → Node → Prop
  | root : Stands root .document root
  | field {p : Place} {tag : Option String} {entries : List (Node × Node)} {s : Scalar} {v : Node}
      (h : Stands root p (.mapping tag entries)) (hmem : (.scalar s, v) ∈ entries)
      (hs : s.text ∈ p.fields) : Stands root (p.below s.text v) v
  | item {p : Place} {tag : Option String} {ns : List Node} {i : Nat} {n : Node}
      (h : Stands root p (.sequence tag ns)) (hn : ns[i]? = some n) : Stands root (p.item i n) n

/-- What stands under a key. -/
def under? (f : String) : Node → Option Node
  | .mapping _ entries => (entries.find? fun
      | (.scalar s, _) => s.text = f
      | _ => false).map Prod.snd
  | _ => none

theorem mem_of_under? {f : String} {n v : Node} (h : under? f n = some v) :
    ∃ tag entries s, n = .mapping tag entries ∧ (.scalar s, v) ∈ entries ∧ s.text = f := by
  cases n with
  | mapping tag entries =>
    obtain ⟨⟨k, v'⟩, hfound, rfl⟩ := Option.map_eq_some_iff.1 h
    have hkey := List.find?_some hfound
    split at hkey
    · next heq =>
      cases heq
      exact ⟨tag, entries, _, rfl, List.mem_of_find?_eq_some hfound, by simpa using hkey⟩
    · cases hkey
  | scalar | sequence | broken => cases h

theorem Stands.under {root n v : Node} {p : Place} {f : String} (h : Stands root p n)
    (hv : under? f n = some v) (hf : f ∈ p.fields) : Stands root (p.below f v) v := by
  obtain ⟨tag, entries, s, rfl, hmem, rfl⟩ := mem_of_under? hv
  exact h.field hmem hf

variable {n k v : Node} {t : Tree} {p : Place} {tag : Option String}
  {entries : List (Node × Node)} {ns : List Node}

/-- A scalar, or a mapping without entries. -/
def IsValue (n : Node) : Prop :=
  (∃ s, n = .scalar s) ∨ ∃ tag, n = .mapping tag []

/-- What is read at a place. -/
def Place.Accepts : Place → Node → Prop
  | document, n => ∃ d, ofNode n = .ok d
  | input, n => ∃ is, readInputs n = .ok is
  | params, n => ∃ is, items readInput n = .ok is
  | param, n => ∃ i, readInput n = .ok i
  | output, n => ∃ o, readOutput n = .ok o
  | shell, n => ∃ t w, choice "WorkflowConfig" ["shell", "visualization"] n = .ok ("shell", t) ∧
      readShell t = .ok w
  | visualization, n => ∃ t w,
      choice "WorkflowConfig" ["shell", "visualization"] n = .ok ("visualization", t) ∧
        readVisualization t = .ok w
  | parallel, n => ∃ t q, n.tree = .ok t ∧ readParallel t = .ok q
  | strategy, n => ∃ t s, n.tree = .ok t ∧
      treeName ["by_file_count", "files"] ["files"] t = .ok s
  | value, n => IsValue n

/-- An entry of a mapping that is read: its key is one of those that it may have, or it is a
number, or it is passed over. -/
inductive Admits (p : Place) : Node → Node → Prop
  | defined {s : Scalar} {v : Node} (hs : s.text ∈ p.fields)
      (hv : (p.below s.text v).Accepts v) : Admits p (.scalar s) v
  | numbered {k v : Node} (hk : p.Numbers k) : Admits p k v
  | passedOver {k v : Node} {t : Tree} (hp : p = .output) (hk : k.tree = .ok t)
      (hne : t ≠ .text "type") : Admits p k v

/-- Words are no numbers, so an entry whose key is defined is read as this key says. -/
theorem Admits.accepts {s : Scalar} (h : Admits p (.scalar s) v) (hs : s.text ∈ p.fields) :
    (p.below s.text v).Accepts v := by
  have hword : isWord s.text = true := Place.isWord_of_mem_fields hs
  cases h with
  | defined _ hv => exact hv
  | numbered hk =>
    obtain ⟨-, i, -, htree⟩ := hk
    cases Node.tree_of_isWord hword htree
  | passedOver hp hk hne =>
    subst hp
    have htype : s.text = "type" := List.mem_singleton.1 hs
    have htree := Node.tree_of_isWord hword hk
    rw [htype] at htree
    exact absurd htree hne

/-! Values. -/

theorem isValue_of_text {x : String} (h : text n = .ok x) : IsValue n := by
  cases n with
  | scalar s => exact .inl ⟨s, rfl⟩
  | sequence | mapping | broken => cases h

theorem isValue_of_textOrNull {x : Option String} (h : textOrNull n = .ok x) : IsValue n := by
  cases n with
  | scalar s => exact .inl ⟨s, rfl⟩
  | sequence | mapping | broken => cases h

theorem isValue_of_variant {kinds : List String} {kind : String}
    (h : variant kinds n = .ok kind) : IsValue n :=
  .inl ((variant_ok h).2.imp fun _ hs => hs.1)

theorem isValue_of_tree (ht : ∃ a, t = .atom a) (h : n.tree = .ok t) : IsValue n := by
  obtain ⟨a, rfl⟩ := ht
  exact .inl (Node.scalar_of_tree h)

/-- A reader that takes neither sequences nor mappings. -/
def TakesAtoms {α : Type} (read : Tree → Except Misfit α) : Prop :=
  ∀ t x, read t = .ok x → ∃ a, t = .atom a

theorem takesAtoms_treeText : TakesAtoms treeText
  | .atom a, _, _ => ⟨a, rfl⟩

theorem takesAtoms_treeBool : TakesAtoms treeBool
  | .atom a, _, _ => ⟨a, rfl⟩

theorem takesAtoms_treeCount : TakesAtoms treeCount
  | .atom a, _, _ => ⟨a, rfl⟩

theorem takesAtoms_treeInt : TakesAtoms treeInt
  | .atom a, _, _ => ⟨a, rfl⟩

theorem takesAtoms_orNull {α : Type} {read : Tree → Except Misfit α} (hread : TakesAtoms read) :
    TakesAtoms (orNull read) := by
  intro t x h
  cases t with
  | atom a => exact ⟨a, rfl⟩
  | sequence vs =>
    obtain ⟨a, ha, -⟩ := map_eq_ok h
    exact hread _ a ha
  | mapping es =>
    obtain ⟨a, ha, -⟩ := map_eq_ok h
    exact hread _ a ha

/-! Sections. -/

theorem typeOf?_eq_some {kind : String} : typeOf? (k, v) = some kind ↔
    ∃ s s', k = .scalar s ∧ s.text = "type" ∧ v = .scalar s' ∧ s'.text = kind := by
  constructor
  · intro h
    unfold typeOf? at h
    split at h
    · next heq =>
      cases heq
      split at h
      · next htype =>
        cases h
        exact ⟨_, _, rfl, htype, rfl, rfl⟩
      · cases h
    · cases h
  · rintro ⟨s, s', rfl, htype, rfl, rfl⟩
    rw [typeOf?, if_pos htype]

theorem isWord_type : isWord "type" = true :=
  Place.isWord_of_mem_fields (p := .output) List.mem_cons_self

theorem kind?_of_choice {type kind : String} {kinds : List String}
    (h : choice type kinds n = .ok (kind, t)) : kind? n = some kind := by
  cases n with
  | scalar s => exact absurd h choice_scalar
  | sequence tag ns =>
    obtain ⟨s, ns', vs, rfl, rfl, -⟩ := items_of_choice h
    rfl
  | mapping tag entries =>
    obtain ⟨ts, -, ⟨k, v, hmem, hk, hv⟩, hall⟩ := mem_of_choice h
    -- Some entry has a `type`, and whichever has one has this kind.
    cases hfound : kind? (.mapping tag entries) with
    | none =>
      obtain ⟨s, rfl, htype⟩ := Node.text_of_tree hk
      obtain ⟨-, s', rfl, hkind⟩ := variant_ok hv
      have hnone := List.findSome?_eq_none_iff.1 hfound _ hmem
      rw [typeOf?_eq_some.2 ⟨s, s', rfl, htype, rfl, hkind⟩] at hnone
      cases hnone
    | some kind' =>
      obtain ⟨⟨k', v'⟩, hmem', heq⟩ := List.exists_of_findSome?_eq_some hfound
      obtain ⟨s, s', rfl, htype, rfl, rfl⟩ := typeOf?_eq_some.1 heq
      rcases hall _ _ hmem' with ⟨-, hv'⟩ | ⟨kt, vt, hkt, hne, -⟩
      · obtain ⟨-, s'', heq, hs''⟩ := variant_ok hv'
        cases heq
        rw [hs'']
      · have htree := Node.tree_of_isWord (htype ▸ isWord_type) hkt
        rw [htype] at htree
        exact absurd htree hne
  | broken => cases h

theorem accepts_workflow (h : ∃ w, readWorkflow n = .ok w) :
    (Place.below .document "workflow" n).Accepts n := by
  obtain ⟨w, h⟩ := h
  obtain ⟨⟨kind, t⟩, hchoice, h⟩ := bind_eq_ok.1 h
  have hkind := kind?_of_choice hchoice
  have hknown := mem_kinds_of_choice hchoice
  rcases List.mem_cons.1 hknown with rfl | hknown
  · rw [Place.below, if_pos hkind]
    exact ⟨t, w, hchoice, h⟩
  · obtain rfl := List.mem_singleton.1 hknown
    have hne : kind? n ≠ some "shell" := by simp [hkind]
    rw [Place.below, if_neg hne, if_pos hkind]
    exact ⟨t, w, hchoice, h⟩

/-- What is taken for a section of the document is read as the section says. -/
theorem accepts_section {field : String} (hf : field ∈ Place.document.fields)
    (h : Takes setSection field v) : (Place.below .document field v).Accepts v := by
  obtain ⟨s, s', h⟩ := h
  simp only [Place.fields, List.mem_cons, List.not_mem_nil, or_false] at hf
  rcases hf with rfl | rfl | rfl | rfl | rfl
  · obtain ⟨x, hx, -⟩ := map_eq_ok h
    exact isValue_of_text hx
  · obtain ⟨x, hx, -⟩ := map_eq_ok h
    exact isValue_of_textOrNull hx
  · obtain ⟨x, hx, -⟩ := map_eq_ok h
    exact ⟨x, hx⟩
  · obtain ⟨x, hx, -⟩ := map_eq_ok h
    exact ⟨x, hx⟩
  · obtain ⟨x, hx, -⟩ := map_eq_ok h
    exact accepts_workflow ⟨x, hx⟩

theorem admits_document (h : Place.document.Accepts (.mapping tag entries))
    (hmem : (k, v) ∈ entries) : Admits .document k v := by
  obtain ⟨d, h⟩ := h
  obtain ⟨sections, hrecord, -⟩ := bind_eq_ok.1 h
  obtain ⟨s, rfl, hs, htakes⟩ := takes_of_record hrecord hmem
  exact .defined hs (accepts_section hs htakes)

theorem admits_input (h : Place.input.Accepts (.mapping tag entries)) (hmem : (k, v) ∈ entries) :
    Admits .input k v := by
  obtain ⟨is, h⟩ := h
  obtain ⟨read, hrecord, -⟩ := bind_eq_ok.1 h
  obtain ⟨s, rfl, hs, _, _, htakes⟩ := takes_of_record hrecord hmem
  obtain ⟨is', his, -⟩ := map_eq_ok htakes
  refine .defined hs ?_
  rw [List.mem_singleton.1 hs]
  exact ⟨is', his⟩

theorem admits_param (h : Place.param.Accepts (.mapping tag entries)) (hmem : (k, v) ∈ entries) :
    Admits .param k v := by
  obtain ⟨i, h⟩ := h
  obtain ⟨draft, hrecord, -⟩ := bind_eq_ok.1 h
  obtain ⟨s, rfl, hs, _, _, htakes⟩ := takes_of_record hrecord hmem
  refine .defined hs (show IsValue v from ?_)
  dsimp only at htakes
  split at htakes
  · obtain ⟨x, hx, -⟩ := map_eq_ok htakes
    exact isValue_of_text hx
  · obtain ⟨x, hx, -⟩ := map_eq_ok htakes
    exact isValue_of_text hx
  · obtain ⟨x, hx, -⟩ := map_eq_ok htakes
    exact isValue_of_textOrNull hx

theorem admits_output (h : Place.output.Accepts (.mapping tag entries)) (hmem : (k, v) ∈ entries) :
    Admits .output k v := by
  obtain ⟨o, h⟩ := h
  obtain ⟨⟨kind, t⟩, hchoice, -⟩ := bind_eq_ok.1 h
  obtain ⟨ts, -, -, hall⟩ := mem_of_choice hchoice
  rcases hall k v hmem with ⟨hk, hv⟩ | ⟨kt, vt, hk, hne, -⟩
  · obtain ⟨s, rfl, htype⟩ := Node.text_of_tree hk
    exact .defined (List.mem_singleton.2 htype) (isValue_of_variant hv)
  · exact .passedOver rfl hk hne

/-! What is read only when the variant is known. -/

/-- A variant of a choice: its fields, and what holds of each field's value. -/
structure IsVariant (p : Place) (known : List String) (P : String → Tree → Prop) : Prop where
  buffered : p.IsBuffered
  fields : p.fields = "type" :: known
  type : ∀ v, p.below "type" v = .value
  accepts : ∀ f ∈ known, ∀ v t, v.tree = .ok t → P f t → (p.below f v).Accepts v

theorem admits_of_nameOrIndex {what f : String} {names : List String} (hp : p.IsBuffered)
    (hk : k.tree = .ok t) (hname : nameOrIndex what names t = .ok f)
    (hlength : names.length ≤ p.fields.length) (hf : f ∈ p.fields)
    (hv : (p.below f v).Accepts v) : Admits p k v := by
  rcases names_of_nameOrIndex hname with rfl | ⟨i, rfl, hi⟩
  · obtain ⟨s, rfl, rfl⟩ := Node.text_of_tree hk
    exact .defined hf hv
  · obtain ⟨hlt, -⟩ := List.getElem?_eq_some_iff.1 hi
    exact .numbered ⟨hp, i, Nat.lt_of_lt_of_le hlt hlength, hk⟩

theorem IsVariant.admits {known kinds : List String} {P : String → Tree → Prop}
    {type kind : String} (h : IsVariant p known P)
    (hchoice : choice type kinds (.mapping tag entries) = .ok (kind, t)) (hread : Reads known P t)
    (hmem : (k, v) ∈ entries) : Admits p k v := by
  obtain ⟨ts, rfl, -, hall⟩ := mem_of_choice hchoice
  rcases hall k v hmem with ⟨hk, hv⟩ | ⟨kt, vt, hk, -, hv, hin⟩
  · obtain ⟨s, rfl, htype⟩ := Node.text_of_tree hk
    refine .defined ?_ ?_
    · rw [h.fields, htype]
      exact List.mem_cons_self
    · rw [htype, h.type]
      exact isValue_of_variant hv
  · obtain ⟨f, hname, hf, hP⟩ := hread kt vt hin
    refine admits_of_nameOrIndex h.buffered hk hname ?_ ?_ (h.accepts f hf v vt hv hP)
    · rw [h.fields]
      exact Nat.le_succ _
    · rw [h.fields]
      exact List.mem_cons_of_mem _ hf

theorem item_eq {i : Nat} {f : String} (h : p.fields[i]? = some f) : p.item i n = p.below f n := by
  have hne : p ≠ .params := by
    rintro rfl
    cases h
  rw [Place.item, if_neg hne, h]

theorem IsVariant.accepts_item {known kinds : List String} {P : String → Tree → Prop}
    {type kind : String} (h : IsVariant p known P)
    (hchoice : choice type kinds (.sequence tag ns) = .ok (kind, t)) (hread : Reads known P t)
    {i : Nat} (hn : ns[i]? = some n) : (p.item i n).Accepts n := by
  obtain ⟨s, ns', vs, rfl, -, -, rfl, hvs⟩ := items_of_choice hchoice
  cases i with
  | zero =>
    cases hn
    rw [item_eq (f := "type") (by rw [h.fields]; rfl), h.type]
    exact .inl ⟨s, rfl⟩
  | succ i =>
    obtain ⟨vt, hvt, hi⟩ := getElem?_of_mapM hvs hn
    obtain ⟨f, hf, hP⟩ := hread i vt hi
    rw [item_eq (by rw [h.fields]; exact hf)]
    exact h.accepts f (List.mem_of_getElem? hf) n vt hvt hP

/-- What the fields of a shell workflow take. -/
def ShellField (f : String) (t : Tree) : Prop :=
  if f = "sh_file" then ∃ a, t = .atom a else ∃ q, readParallel t = .ok q

theorem reads_shell {w : WorkflowSection} (h : readShell t = .ok w) :
    Reads ["sh_file", "parallel"] ShellField t := by
  obtain ⟨read, hrecord, -⟩ := bind_eq_ok.1 h
  refine reads_of_treeRecord hrecord ?_
  rintro f v ⟨_, _, htakes⟩
  unfold ShellField
  dsimp only at htakes
  split at htakes
  · next hf =>
    obtain ⟨x, hx, -⟩ := map_eq_ok htakes
    rw [if_pos hf]
    exact takesAtoms_treeText v x hx
  · next hf =>
    obtain ⟨q, hq, -⟩ := map_eq_ok htakes
    rw [if_neg hf]
    exact ⟨q, hq⟩

theorem isVariant_shell : IsVariant .shell ["sh_file", "parallel"] ShellField where
  buffered := .inl rfl
  fields := rfl
  type _ := rfl
  accepts f hf v t ht hP := by
    rcases List.mem_cons.1 hf with rfl | hf
    · exact isValue_of_tree hP ht
    · obtain rfl := List.mem_singleton.1 hf
      obtain ⟨q, hq⟩ := hP
      exact ⟨t, q, ht, hq⟩

theorem reads_visualization {w : WorkflowSection} (h : readVisualization t = .ok w) :
    Reads ["batch_size", "config_file"] (fun _ t => ∃ a, t = .atom a) t := by
  obtain ⟨read, hrecord, -⟩ := bind_eq_ok.1 h
  refine reads_of_treeRecord hrecord ?_
  rintro f v ⟨_, _, htakes⟩
  dsimp only at htakes
  split at htakes
  · obtain ⟨x, hx, -⟩ := map_eq_ok htakes
    exact takesAtoms_treeCount v x hx
  · obtain ⟨x, hx, -⟩ := map_eq_ok htakes
    exact takesAtoms_orNull takesAtoms_treeText v x hx

theorem isVariant_visualization : IsVariant .visualization ["batch_size", "config_file"]
    fun _ t => ∃ a, t = .atom a where
  buffered := .inr (.inl rfl)
  fields := rfl
  type _ := rfl
  accepts _ _ _ _ ht hP := isValue_of_tree hP ht

/-- What the fields of the parallel settings take. -/
def ParallelField (f : String) (t : Tree) : Prop :=
  if f = "partition_strategy" then
    ∃ s, treeName ["by_file_count", "files"] ["files"] t = .ok s
  else ∃ a, t = .atom a

theorem reads_parallel {q : Parallel} (h : readParallel t = .ok q) :
    Reads Place.parallel.fields ParallelField t := by
  refine reads_of_treeRecord h ?_
  rintro f v ⟨_, _, htakes⟩
  unfold ParallelField
  unfold setParallel at htakes
  split at htakes
  · obtain ⟨b, hb, -⟩ := map_eq_ok htakes
    exact takesAtoms_treeBool v b hb
  · obtain ⟨s, hs, -⟩ := map_eq_ok htakes
    exact ⟨s, hs⟩
  · next hf =>
    obtain ⟨x, hx, -⟩ := map_eq_ok htakes
    rw [if_neg hf]
    exact takesAtoms_orNull takesAtoms_treeInt v x hx

theorem accepts_parallel {f : String} (hf : f ∈ Place.parallel.fields) (hv : v.tree = .ok t)
    (hP : ParallelField f t) : (Place.below .parallel f v).Accepts v := by
  simp only [Place.fields, List.mem_cons, List.not_mem_nil, or_false] at hf
  rcases hf with rfl | rfl | rfl
  · exact isValue_of_tree hP hv
  · obtain ⟨s, hs⟩ := hP
    exact ⟨t, s, hv, hs⟩
  · exact isValue_of_tree hP hv

theorem admits_parallel (h : Place.parallel.Accepts (.mapping tag entries))
    (hmem : (k, v) ∈ entries) : Admits .parallel k v := by
  obtain ⟨t, q, ht, hq⟩ := h
  obtain ⟨ts, hts, rfl⟩ := Node.tree_mapping ht
  obtain ⟨kt, vt, hk, hv, hin⟩ := Node.mem_of_treeEntries hts hmem
  obtain ⟨f, hname, hf, hP⟩ := reads_parallel hq kt vt hin
  exact admits_of_nameOrIndex (.inr (.inr (.inl rfl))) hk hname (Nat.le_refl _) hf
    (accepts_parallel hf hv hP)

theorem isValue_of_empty (h : n.tree = .ok (.mapping [])) : IsValue n := by
  cases n with
  | scalar s => exact .inl ⟨s, rfl⟩
  | sequence tag ns =>
    obtain ⟨ts, -, heq⟩ := Node.tree_sequence h
    cases heq
  | mapping tag entries =>
    obtain ⟨ts, hts, heq⟩ := Node.tree_mapping h
    cases heq
    cases entries with
    | nil => exact .inr ⟨tag, rfl⟩
    | cons e entries =>
      obtain ⟨k, v⟩ := e
      obtain ⟨kt, vt, -, -, hin⟩ := Node.mem_of_treeEntries hts List.mem_cons_self
      cases hin
  | broken => cases h

/-- A name that stands as a key is the key of nothing. -/
theorem treeName_mapping {known names : List String} {ts : List (Tree × Tree)} {x : String}
    (h : treeName known names (.mapping ts) = .ok x) {kt vt : Tree} (hin : (kt, vt) ∈ ts) :
    ∃ f, nameOrIndex "variant" names kt = .ok f ∧ f ∈ known ∧
      ((∃ a, vt = .atom a) ∨ vt = .mapping []) := by
  unfold treeName at h
  split at h
  · next k v heq =>
    cases heq
    cases List.mem_singleton.1 hin
    obtain ⟨f, hname, h⟩ := bind_eq_ok.1 h
    obtain ⟨f', hf', hname⟩ := bind_eq_ok.1 hname
    have hknown : f' ∈ known := by
      split at hname
      · next hcontains => simpa using hcontains
      · cases hname
    refine ⟨f', hf', hknown, ?_⟩
    split at h
    · exact .inl ⟨_, rfl⟩
    · exact .inr rfl
    · cases h
  · cases h
  · next heq => cases heq
  · cases h

theorem admits_strategy (h : Place.strategy.Accepts (.mapping tag entries))
    (hmem : (k, v) ∈ entries) : Admits .strategy k v := by
  obtain ⟨t, x, ht, hx⟩ := h
  obtain ⟨ts, hts, rfl⟩ := Node.tree_mapping ht
  obtain ⟨kt, vt, hk, hv, hin⟩ := Node.mem_of_treeEntries hts hmem
  obtain ⟨f, hname, hf, hvt⟩ := treeName_mapping hx hin
  refine admits_of_nameOrIndex (.inr (.inr (.inr rfl))) hk hname (by decide) hf ?_
  rcases hvt with hatom | rfl
  · exact isValue_of_tree hatom hv
  · exact isValue_of_empty hv

/-- Each entry of a mapping that is read is admitted at its place. -/
theorem admits_of_accepts (h : p.Accepts (.mapping tag entries)) (hmem : (k, v) ∈ entries) :
    Admits p k v := by
  cases p with
  | document => exact admits_document h hmem
  | input => exact admits_input h hmem
  | params =>
    obtain ⟨is, h⟩ := h
    cases h
  | param => exact admits_param h hmem
  | output => exact admits_output h hmem
  | shell =>
    obtain ⟨t, w, hchoice, hread⟩ := h
    exact isVariant_shell.admits hchoice (reads_shell hread) hmem
  | visualization =>
    obtain ⟨t, w, hchoice, hread⟩ := h
    exact isVariant_visualization.admits hchoice (reads_visualization hread) hmem
  | parallel => exact admits_parallel h hmem
  | strategy => exact admits_strategy h hmem
  | value =>
    rcases h with ⟨s, hs⟩ | ⟨tag', heq⟩
    · cases hs
    · cases heq
      cases hmem

/-- Each item of a sequence that is read is read at its place. -/
theorem accepts_item_of_accepts (h : p.Accepts (.sequence tag ns)) {i : Nat}
    (hn : ns[i]? = some n) : (p.item i n).Accepts n := by
  cases p with
  | document =>
    obtain ⟨d, h⟩ := h
    obtain ⟨read, hrecord, -⟩ := bind_eq_ok.1 h
    exact absurd hrecord record_sequence
  | input =>
    obtain ⟨is, h⟩ := h
    obtain ⟨read, hrecord, -⟩ := bind_eq_ok.1 h
    exact absurd hrecord record_sequence
  | params =>
    obtain ⟨is, h⟩ := h
    obtain ⟨i, hi, -⟩ := getElem?_of_mapM h hn
    exact ⟨i, hi⟩
  | param =>
    obtain ⟨i, h⟩ := h
    obtain ⟨read, hrecord, -⟩ := bind_eq_ok.1 h
    exact absurd hrecord record_sequence
  | output =>
    obtain ⟨o, h⟩ := h
    obtain ⟨⟨kind, t⟩, hchoice, h⟩ := bind_eq_ok.1 h
    obtain ⟨s, ns', vs, rfl, -, -, rfl, hvs⟩ := items_of_choice hchoice
    cases i with
    | zero =>
      cases hn
      exact .inl ⟨s, rfl⟩
    | succ i =>
      obtain ⟨vt, -, hi⟩ := getElem?_of_mapM hvs hn
      cases vs with
      | nil => cases hi
      | cons v vs => cases h
  | shell =>
    obtain ⟨t, w, hchoice, hread⟩ := h
    exact isVariant_shell.accepts_item hchoice (reads_shell hread) hn
  | visualization =>
    obtain ⟨t, w, hchoice, hread⟩ := h
    exact isVariant_visualization.accepts_item hchoice (reads_visualization hread) hn
  | parallel =>
    obtain ⟨t, q, ht, hq⟩ := h
    obtain ⟨ts, hts, rfl⟩ := Node.tree_sequence ht
    obtain ⟨vt, hvt, hi⟩ := getElem?_of_mapM hts hn
    obtain ⟨f, hf, hP⟩ := reads_parallel hq i vt hi
    rw [item_eq hf]
    exact accepts_parallel (List.mem_of_getElem? hf) hvt hP
  | strategy =>
    obtain ⟨t, x, ht, hx⟩ := h
    obtain ⟨ts, hts, rfl⟩ := Node.tree_sequence ht
    cases hx
  | value =>
    rcases h with ⟨s, hs⟩ | ⟨tag', heq⟩
    · cases hs
    · cases heq

/-- What stands at a place of a document that is read is itself read, as the place says. -/
theorem accepts_of_stands {root : Node} (hroot : Place.document.Accepts root)
    (h : Stands root p n) : p.Accepts n := by
  -- By induction on the way down from the root, where each step is one of the two lemmas above.
  induction h with
  | root => exact hroot
  | field _ hmem hs ih => exact (admits_of_accepts ih hmem).accepts hs
  | item _ hn ih => exact accepts_item_of_accepts ih hn

/-- In a document that is read every key is defined at its place, but for numbers of fields, and
but for the output. -/
theorem defines_of_ofNode {root : Node} {d : RecipeDocument} (h : ofNode root = .ok d)
    (hstands : Stands root p (.mapping tag entries)) (hmem : (k, v) ∈ entries) :
    p.Defines k ∨ p.Numbers k ∨ p = .output := by
  have haccepts := accepts_of_stands (p := p) ⟨d, h⟩ hstands
  cases admits_of_accepts haccepts hmem with
  | defined hs _ => exact .inl ⟨_, rfl, hs⟩
  | numbered hk => exact .inr (.inl hk)
  | passedOver hp _ _ => exact .inr (.inr hp)

/-- An output is open: an entry that does not name its variant makes no difference. -/
theorem readOutput_insert {before after : List (Node × Node)} {o : Output} {kt vt : Tree}
    (hk : k.tree = .ok kt) (hne : kt ≠ .text "type") (hv : v.tree = .ok vt)
    (h : readOutput (.mapping tag (before ++ after)) = .ok o) :
    readOutput (.mapping tag (before ++ (k, v) :: after)) = .ok o := by
  obtain ⟨⟨kind, t⟩, hchoice, h⟩ := bind_eq_ok.1 h
  obtain ⟨htag, ts, hsplit, rfl⟩ := choice_mapping.1 hchoice
  obtain ⟨us, hsplit'⟩ := splitVariant_insert hk hne hv hsplit []
  exact bind_eq_ok.2 ⟨(kind, .mapping us), choice_mapping.2 ⟨htag, us, hsplit', rfl⟩, h⟩

end RecipeFlow.RecipeDocument

namespace RecipeFlow.Recipe

open Yaml RecipeDocument

/-- A text is malformed, or each key of each mapping in its document is one that is defined at the
mapping's place. But an output may have any keys, and the fields of a workflow may go by their
numbers. -/
theorem defines_or_malformed (files : Files) (dir s : String) :
    (∃ f, ofText files dir s = .error f ∧ f.code = 2003) ∨
      ∀ p tag entries, Stands (document s).1 p (.mapping tag entries) →
        ∀ k v, (k, v) ∈ entries → p.Defines k ∨ p.Numbers k ∨ p = .output := by
  cases hnode : ofNode (document s).1 with
  | ok d => exact .inr fun p tag entries hstands k v => defines_of_ofNode hnode hstands
  | error m =>
    refine .inl ⟨malformed m, ?_, rfl⟩
    have htext : RecipeDocument.ofText s = .error m := by
      rw [RecipeDocument.ofText]
      simp only [hnode]
      rfl
    rw [ofText, htext]
    rfl

/-- Without any files. -/
def noFiles : Files where
  read _ := .error .notFound
  isFile _ := false
  subdirectories? _ := none

/-- The name and the input of a recipe. -/
def inputText : String :=
  "name: r\ninput:\n  params:\n  - type: file_system\n    value: /a\n"

/-- A recipe whose parallel settings name a bucket. -/
def bucketInParallel : String :=
  inputText ++ "workflow:\n  type: shell\n  parallel:\n    enabled: true\n    bucket: b\n"

theorem defines_or_malformed_bucket :
    ∃ f, ofText noFiles "d" bucketInParallel = .error f ∧ f.code = 2003 := by
  refine (defines_or_malformed noFiles "d" bucketInParallel).resolve_right fun hall => ?_
  have hpath : (((under? "workflow" (document bucketInParallel).1).filter
      (kind? · = some "shell")).bind (under? "parallel")).bind (under? "bucket") |>.isSome := by
    decide +kernel
  obtain ⟨v, hpath⟩ := Option.isSome_iff_exists.1 hpath
  obtain ⟨q, hpath, hv⟩ := Option.bind_eq_some_iff.1 hpath
  obtain ⟨w, hpath, hq⟩ := Option.bind_eq_some_iff.1 hpath
  obtain ⟨hw, hkind⟩ := Option.filter_eq_some_iff.1 hpath
  obtain ⟨tag, entries, s, rfl, hmem, hs⟩ := mem_of_under? hv
  have hshell : Stands (document bucketInParallel).1 .shell w := by
    have hbelow := Stands.root.under hw (by decide)
    rwa [Place.below, if_pos (by simpa using hkind)] at hbelow
  have hparallel : Stands (document bucketInParallel).1 .parallel (.mapping tag entries) :=
    hshell.under hq (by decide)
  rcases hall _ _ _ hparallel _ _ hmem with ⟨s', heq, hs'⟩ | ⟨-, i, -, htree⟩ | hp
  · cases heq
    rw [hs] at hs'
    exact absurd hs' (by decide)
  · cases Node.tree_of_isWord (hs ▸ by decide +kernel) htree
  · cases hp

/-- A recipe whose output names a bucket. -/
def bucketInOutput : String :=
  inputText ++ "output:\n  type: pvc\n  bucket: b\nworkflow:\n  type: visualization\n"

/-- The recipe without it. -/
def bucketless : Recipe where
  name := "r"
  id := "r"
  image := none
  inputs := [⟨.fileSystem, "/a", none, []⟩]
  output := .pvc
  workflow := .visualization ⟨200, none, "\x7b\x7d"⟩
  directory := "d"

/-- Nothing is amiss with a bucket in the output. -/
theorem ofText_bucketInOutput : ofText noFiles "d" bucketInOutput = .ok bucketless ∧
    ∃ tag entries k v, Stands (document bucketInOutput).1 .output (.mapping tag entries) ∧
      (k, v) ∈ entries ∧ ¬ Place.output.Defines k := by
  have hpath : ((under? "output" (document bucketInOutput).1).bind (under? "bucket")).isSome =
      true := by decide +kernel
  obtain ⟨v, hpath⟩ := Option.isSome_iff_exists.1 hpath
  obtain ⟨n, hn, hv⟩ := Option.bind_eq_some_iff.1 hpath
  obtain ⟨tag, entries, s, rfl, hmem, hs⟩ := mem_of_under? hv
  refine ⟨by decide +kernel, tag, entries, .scalar s, v, Stands.root.under hn (by decide), hmem, ?_⟩
  rintro ⟨s', heq, hs'⟩
  cases heq
  rw [hs] at hs'
  exact absurd hs' (by decide)

end RecipeFlow.Recipe
