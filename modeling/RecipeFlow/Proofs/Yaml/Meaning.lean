import Mathlib.Data.List.Perm.Basic
import RecipeFlow.Proofs.Yaml.Numeral

/-! What nodes mean when the order of a mapping's entries does not count, and which trees are the
meaning of some node. -/
namespace RecipeFlow

/-- Where each item of a list has a partner, there is a list of partners. -/
theorem exists_forall₂_iff {α β : Type} {R : α → β → Prop} {bs : List β} :
    (∃ as, List.Forall₂ R as bs) ↔ ∀ b ∈ bs, ∃ a, R a b := by
  induction bs with
  | nil => simp
  | cons b bs ih =>
    simp only [List.forall₂_cons_right_iff, List.forall_mem_cons, ← ih]
    constructor
    · rintro ⟨_, a, as, ha, has, rfl⟩
      exact ⟨⟨a, ha⟩, as, has⟩
    · rintro ⟨⟨a, ha⟩, as, has⟩
      exact ⟨a :: as, a, as, ha, has, rfl⟩

theorem forall₂_comp {α β γ : Type} {R : α → β → Prop} {S : β → γ → Prop} {T : α → γ → Prop}
    {as : List α} {bs : List β} {cs : List γ} (h : ∀ a b c, R a b → S b c → T a c)
    (hR : List.Forall₂ R as bs) (hS : List.Forall₂ S bs cs) : List.Forall₂ T as cs := by
  induction hR generalizing cs with
  | nil =>
    obtain rfl := List.forall₂_nil_left_iff.1 hS
    exact .nil
  | cons ha _ ih =>
    obtain ⟨c, cs, hc, hcs, rfl⟩ := List.forall₂_cons_left_iff.1 hS
    exact .cons (h _ _ _ ha hc) (ih hcs)

namespace Yaml

variable {a : Atom} {n : Node} {i : Int} {t : Tree} {ts us : List Tree}
  {members : List (String × Tree)} {entries : List (Node × Node)} {es : List (Tree × Tree)}

/-- Trees that are equal up to the order of the entries of their mappings. -/
inductive Tree.Same : Tree → Tree → Prop where
  | atom (a : Atom) : Same (.atom a) (.atom a)
  | sequence {ts us : List Tree} : List.Forall₂ Same ts us → Same (.sequence ts) (.sequence us)
  | mapping {es gs fs : List (Tree × Tree)} : es.Perm gs →
      gs.map Prod.fst = fs.map Prod.fst →
      List.Forall₂ Same (gs.map Prod.snd) (fs.map Prod.snd) → Same (.mapping es) (.mapping fs)

/-- A node that means a tree, up to the order of the entries of its mappings. -/
def Node.Means (n : Node) (t : Tree) : Prop :=
  ∃ u, n.tree = .ok u ∧ u.Same t

/-- A tree that is the meaning of some node. -/
def Tree.IsMeant (t : Tree) : Prop :=
  ∃ n : Node, n.tree = .ok t

namespace Tree

namespace Same

theorem refl : (t : Tree) → t.Same t
  | .atom a => .atom a
  | .sequence ts => .sequence (List.forall₂_same.2 fun t ht =>
      have := List.sizeOf_lt_of_mem ht
      refl t)
  | .mapping es => .mapping (.refl es) rfl (List.forall₂_map_left_iff.2
      (List.forall₂_map_right_iff.2 (List.forall₂_same.2 fun e he =>
        have := List.sizeOf_lt_of_mem he
        have : sizeOf e.2 < sizeOf e := by
          cases e
          simp +arith
        refl e.2)))
termination_by t => sizeOf t

theorem eq_atom (h : t.Same (.atom a)) : t = .atom a := by
  cases h
  rfl

theorem of_sequence (h : t.Same (.sequence us)) :
    ∃ ts, t = .sequence ts ∧ List.Forall₂ Same ts us := by
  cases h with
  | sequence h => exact ⟨_, rfl, h⟩

end Same

theorem int_ne_null (k : Int) : int k ≠ .atom .null := by
  unfold int
  split <;> rintro ⟨⟩

/-- An entry of a mapping that stands for a member of a record. -/
def IsMember (e : Tree × Tree) (m : String × Tree) : Prop :=
  e.1 = .text m.1 ∧ e.2.Same m.2

theorem forall₂_isMember_iff : List.Forall₂ IsMember es members ↔
    es.map Prod.fst = (members.map fun m => (text m.1, m.2)).map Prod.fst ∧
      List.Forall₂ Same (es.map Prod.snd)
        ((members.map fun m => (text m.1, m.2)).map Prod.snd) := by
  rw [← List.forall₂_eq_eq_eq]
  simp only [List.forall₂_map_left_iff, List.forall₂_map_right_iff]
  constructor
  · intro h
    exact ⟨h.imp fun e m he => he.1, h.imp fun e m he => he.2⟩
  · rintro ⟨hkeys, hvalues⟩
    exact hkeys.mp (fun e m hkey hvalue => ⟨hkey, hvalue⟩) hvalues

/-- The same as a record is what has its members, in any order. -/
theorem same_record_iff : t.Same (.record members) ↔
    ∃ es l, t = .mapping es ∧ l.Perm members ∧ List.Forall₂ IsMember es l := by
  constructor
  · intro h
    cases h with
    | @mapping es gs fs hperm hkeys hvalues =>
      obtain ⟨l, hl, hlperm⟩ :=
        List.perm_comp_forall₂ hperm (forall₂_isMember_iff.2 ⟨hkeys, hvalues⟩)
      exact ⟨es, l, rfl, hlperm, hl⟩
  · rintro ⟨es, l, rfl, hperm, hl⟩
    have hcomp : Relation.Comp (List.Forall₂ IsMember) List.Perm es members := ⟨l, hl, hperm⟩
    rw [List.forall₂_comp_perm_eq_perm_comp_forall₂] at hcomp
    obtain ⟨gs, hgs, hmembers⟩ := hcomp
    obtain ⟨hkeys, hvalues⟩ := forall₂_isMember_iff.1 hmembers
    exact .mapping hgs hkeys hvalues

end Tree

namespace Node

theorem sequence_of_tree (h : n.tree = .ok (.sequence ts)) :
    ∃ tag ns, n = .sequence tag ns ∧ List.Forall₂ (fun n t => n.tree = .ok t) ns ts := by
  cases n with
  | scalar s =>
    obtain ⟨a, -, h⟩ := tree_scalar h
    cases h
  | sequence tag ns =>
    obtain ⟨ts', hts, h⟩ := tree_sequence h
    cases h
    exact ⟨tag, ns, rfl, mapM_eq_ok_iff.1 hts⟩
  | mapping tag entries =>
    obtain ⟨es, -, h⟩ := tree_mapping h
    cases h
  | broken => cases h

theorem treeEntries_eq_ok_iff : treeEntries entries = .ok es ↔
    List.Forall₂ (fun e e' => e.1.tree = .ok e'.1 ∧ e.2.tree = .ok e'.2) entries es := by
  induction entries generalizing es with
  | nil =>
    rw [List.forall₂_nil_left_iff, treeEntries]
    grind
  | cons e entries ih =>
    obtain ⟨k, v⟩ := e
    rw [treeEntries, List.forall₂_cons_left_iff]
    constructor
    · intro h
      obtain ⟨kt, hk, h⟩ := bind_eq_ok.1 h
      obtain ⟨vt, hv, h⟩ := bind_eq_ok.1 h
      obtain ⟨es', hes, h⟩ := bind_eq_ok.1 h
      cases h
      exact ⟨(kt, vt), es', ⟨hk, hv⟩, ih.1 hes, rfl⟩
    · rintro ⟨⟨kt, vt⟩, es', ⟨hk, hv⟩, hes, rfl⟩
      dsimp only at hk hv
      rw [hk, hv, ih.2 hes]
      rfl

theorem mapping_of_tree (h : n.tree = .ok (.mapping es)) :
    ∃ tag entries, n = .mapping tag entries ∧ tag.any isLocalTag = false ∧
      treeEntries entries = .ok es := by
  cases n with
  | scalar s =>
    obtain ⟨a, -, h⟩ := tree_scalar h
    cases h
  | sequence tag ns =>
    obtain ⟨ts, -, h⟩ := tree_sequence h
    cases h
  | mapping tag entries =>
    obtain ⟨es', hes, heq⟩ := tree_mapping h
    cases heq
    refine ⟨tag, entries, rfl, ?_, hes⟩
    rw [tree] at h
    grind
  | broken => cases h

/-- An entry of a mapping that means a member of a record. -/
def IsMember (e : Node × Node) (m : String × Tree) : Prop :=
  e.1.tree = .ok (.text m.1) ∧ e.2.Means m.2

theorem means_of_tree (h : n.tree = .ok t) : n.Means t :=
  ⟨t, h, .refl t⟩

namespace Means

theorem tree_eq (h : n.Means (.atom a)) : n.tree = .ok (.atom a) := by
  obtain ⟨u, hu, hsame⟩ := h
  rw [hu, hsame.eq_atom]

theorem of_sequence (h : n.Means (.sequence ts)) :
    ∃ tag ns, n = .sequence tag ns ∧ List.Forall₂ Means ns ts := by
  obtain ⟨u, hu, hsame⟩ := h
  obtain ⟨us, rfl, hts⟩ := hsame.of_sequence
  obtain ⟨tag, ns, rfl, hns⟩ := sequence_of_tree hu
  exact ⟨tag, ns, rfl, forall₂_comp (fun n u t hn hsame => ⟨u, hn, hsame⟩) hns hts⟩

/-- What means a record is a mapping that has its members, in some order. -/
theorem of_record (h : n.Means (.record members)) :
    ∃ tag entries l, n = .mapping tag entries ∧ tag.any isLocalTag = false ∧ l.Perm members ∧
      List.Forall₂ IsMember entries l := by
  obtain ⟨u, hu, hsame⟩ := h
  obtain ⟨es, l, rfl, hperm, hl⟩ := Tree.same_record_iff.1 hsame
  obtain ⟨tag, entries, rfl, htag, hes⟩ := mapping_of_tree hu
  refine ⟨tag, entries, l, rfl, htag, hperm, forall₂_comp ?_ (treeEntries_eq_ok_iff.1 hes) hl⟩
  rintro e e' m ⟨hk, hv⟩ ⟨hname, hsame⟩
  exact ⟨hname ▸ hk, e'.2, hv, hsame⟩

end Means

end Node

/-! Trees that some node means. -/

namespace Tree

theorem isMeant_sequence_iff : (sequence ts).IsMeant ↔ ∀ t ∈ ts, t.IsMeant := by
  rw [← show _ ↔ ∀ t ∈ ts, t.IsMeant from exists_forall₂_iff]
  constructor
  · rintro ⟨n, hn⟩
    obtain ⟨tag, ns, rfl, hns⟩ := Node.sequence_of_tree hn
    exact ⟨ns, hns⟩
  · rintro ⟨ns, hns⟩
    refine ⟨.sequence none ns, ?_⟩
    rw [Node.tree, Node.treeItems_eq, mapM_eq_ok_iff.2 hns]
    rfl

theorem isMeant_mapping_iff :
    (mapping es).IsMeant ↔ ∀ e ∈ es, e.1.IsMeant ∧ e.2.IsMeant := by
  have hentries : (∀ e ∈ es, e.1.IsMeant ∧ e.2.IsMeant) ↔
      ∃ entries, Node.treeEntries entries = .ok es := by
    simp only [Node.treeEntries_eq_ok_iff, exists_forall₂_iff, IsMeant, Prod.exists,
      exists_and_left, exists_and_right]
  rw [hentries]
  constructor
  · rintro ⟨n, hn⟩
    obtain ⟨tag, entries, rfl, -, hes⟩ := Node.mapping_of_tree hn
    exact ⟨entries, hes⟩
  · rintro ⟨entries, hes⟩
    refine ⟨.mapping none entries, ?_⟩
    rw [Node.tree, hes]
    rfl

theorem isMeant_text (s : String) : (text s).IsMeant :=
  ⟨.scalar ⟨s, none, false⟩, rfl⟩

theorem isMeant_bool (b : Bool) : (bool b).IsMeant := by
  cases b with
  | false => exact ⟨.scalar ⟨"false", none, true⟩, rfl⟩
  | true => exact ⟨.scalar ⟨"true", none, true⟩, rfl⟩

/-- A number is the meaning of its digits, tagged as such. -/
theorem isMeant_of_whole? {s : String} {a : Atom} (h : whole? s.toList = some a)
    (hwide : ∀ i signed, a ≠ .wide i signed) : (atom a).IsMeant := by
  refine ⟨.scalar ⟨s, some (standardTag "int"), true⟩, ?_⟩
  have hatom : Scalar.atom ⟨s, some (standardTag "int"), true⟩ = .ok a := by
    rw [Scalar.atom]
    dsimp only
    rw [if_neg (by decide), if_pos rfl, h]
  have hlocal : (some (standardTag "int")).any isLocalTag = false := by decide
  rw [Node.tree, hlocal, if_neg Bool.false_ne_true, Node.atomTree, hatom]
  cases a with
  | wide i signed => exact absurd rfl (hwide i signed)
  | _ => rfl

theorem isMeant_natural {n : Nat} (h : n < Nat.pow 2 64) : (natural n).IsMeant :=
  isMeant_of_whole? (s := String.ofList (Nat.toDigits 10 n))
    (by rw [String.toList_ofList, whole?_toDigits h]) fun _ _ heq => by cases heq

theorem isMeant_int (hlow : -(Nat.pow 2 63) ≤ i) (hhigh : i < Nat.pow 2 63) : (int i).IsMeant := by
  unfold int
  split
  · next hneg =>
    have hi : -(i.natAbs : Int) = i := by omega
    refine isMeant_of_whole? (s := String.ofList ('-' :: Nat.toDigits 10 i.natAbs)) ?_ ?_
    · rw [String.toList_ofList, whole?_neg (by omega), hi]
    · rintro _ _ ⟨⟩
  · have hbits : Nat.pow 2 63 ≤ Nat.pow 2 64 := by decide
    exact isMeant_natural (by omega)

theorem isMeant_record (h : ∀ m ∈ members, m.2.IsMeant) : (record members).IsMeant := by
  rw [record, isMeant_mapping_iff]
  intro e he
  obtain ⟨m, hm, rfl⟩ := List.mem_map.1 he
  exact ⟨isMeant_text m.1, h m hm⟩

end Tree

end Yaml

end RecipeFlow
