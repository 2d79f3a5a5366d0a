import RecipeFlow.Table

/-! Tables: what is found under a key, and that the keys stay ascending and apart. -/
namespace RecipeFlow.Table

variable {α : Type} {k k' : String} {v : α} {t : Table α} {ps qs : List (String × α)}

/-- The last value under a key among pairs that may have one key twice. -/
def lastValue? (k : String) : List (String × α) → Option α
  | [] => none
  | (k', v) :: ps => (lastValue? k ps).or (if k = k' then some v else none)

@[simp] theorem lastValue?_nil : lastValue? k ([] : List (String × α)) = none := rfl

@[simp] theorem lastValue?_cons :
    lastValue? k ((k', v) :: ps) = (lastValue? k ps).or (if k = k' then some v else none) := rfl

@[simp] theorem lastValue?_append :
    lastValue? k (ps ++ qs) = (lastValue? k qs).or (lastValue? k ps) := by
  induction ps with
  | nil => simp
  | cons p ps ih =>
    obtain ⟨k', v⟩ := p
    rw [List.cons_append, lastValue?_cons, lastValue?_cons, ih, Option.or_assoc]

theorem mem_of_lastValue? (h : lastValue? k ps = some v) : (k, v) ∈ ps := by
  induction ps with
  | nil => cases h
  | cons p ps ih =>
    obtain ⟨k', u⟩ := p
    rw [lastValue?_cons, Option.or_eq_some_iff] at h
    rcases h with h | ⟨-, h⟩
    · exact List.mem_cons_of_mem _ (ih h)
    · split at h
      · next hk =>
        cases h
        rw [hk]
        exact List.mem_cons_self
      · cases h

theorem lastValue?_ne_none (h : (k, v) ∈ ps) : lastValue? k ps ≠ none := by
  induction ps with
  | nil => cases h
  | cons p ps ih =>
    obtain ⟨k', u⟩ := p
    rw [lastValue?_cons, ne_eq, Option.or_eq_none_iff, not_and]
    rcases List.mem_cons.1 h with heq | hmem
    · cases heq
      simp
    · exact fun hnone => absurd hnone (ih hmem)

/-- No pair is overwritten if and only if those with one key have one value. -/
theorem lastValue?_eq_iff : (∀ p ∈ ps, lastValue? p.1 ps = some p.2) ↔
    ∀ p ∈ ps, ∀ q ∈ ps, p.1 = q.1 → p.2 = q.2 := by
  constructor
  · intro h p hp q hq hkey
    have hlast := h p hp
    rw [hkey, h q hq] at hlast
    exact (Option.some.inj hlast).symm
  · intro h p hp
    obtain ⟨v, hv⟩ := Option.ne_none_iff_exists'.1 (lastValue?_ne_none hp)
    exact hv.trans (congrArg some (h _ (mem_of_lastValue? hv) p hp rfl))

theorem find?_append (ps qs : Table α) :
    find? k (ps ++ qs) = (find? k ps).or (find? k qs) := by
  induction ps with
  | nil => rfl
  | cons p ps ih =>
    rw [List.cons_append, find?, find?, ih]
    split
    · rfl
    · rfl

theorem find?_insert : find? k (insert k' v t) = if k = k' then some v else find? k t := by
  induction t with
  | nil => simp [insert, find?]
  | cons p t ih =>
    rw [insert]
    split
    · next h =>
      subst h
      simp only [find?]
      split
      · rfl
      · rfl
    · next h =>
      split
      · rfl
      · simp only [find?, ih]
        split
        · next hk =>
          subst hk
          rw [if_neg (Ne.symm h)]
        · rfl

theorem find?_filter_ne (h : k ≠ k') : find? k (t.filter (·.1 ≠ k')) = find? k t := by
  induction t with
  | nil => rfl
  | cons p t ih =>
    obtain ⟨l, v⟩ := p
    rw [List.filter_cons]
    split
    · simp only [find?, ih]
    · next hl =>
      have hkl : k ≠ l := fun he => h (he.trans (by simpa using hl))
      simp only [find?, ih, if_neg hkl]

theorem find?_filter_self : find? k (t.filter (·.1 ≠ k)) = none := by
  induction t with
  | nil => rfl
  | cons p t ih =>
    rw [List.filter_cons]
    split
    · next hp =>
      have hne : k ≠ p.1 := Ne.symm (by simpa using hp)
      rw [find?, if_neg hne, ih]
    · exact ih

/-- Pairs that are put into a table count before what it has. -/
theorem find?_foldl_insert : find? k (ps.foldl (fun t p => insert p.1 p.2 t) t) =
    (lastValue? k ps).or (find? k t) := by
  induction ps generalizing t with
  | nil => simp
  | cons p ps ih =>
    obtain ⟨k', v⟩ := p
    rw [List.foldl_cons, ih, find?_insert, lastValue?_cons, Option.or_assoc]
    split
    · rfl
    · rfl

/-- Of two pairs with one key a table has the last. -/
theorem find?_ofList : find? k (ofList ps) = lastValue? k ps := by
  rw [ofList, find?_foldl_insert]
  exact Option.or_none

theorem mem_of_find? (h : find? k t = some v) : (k, v) ∈ t := by
  induction t with
  | nil => cases h
  | cons p t ih =>
    obtain ⟨k', u⟩ := p
    rw [find?] at h
    split at h
    · next hk =>
      cases h
      rw [hk]
      exact List.mem_cons_self
    · exact List.mem_cons_of_mem _ (ih h)

theorem mem_keys_insert {x : String} :
    x ∈ (insert k v t).map Prod.fst ↔ x = k ∨ x ∈ t.map Prod.fst := by
  induction t with
  | nil => simp [insert]
  | cons p t ih =>
    rw [insert]
    split
    · next h =>
      subst h
      simp
    · split
      · simp
      · simp only [List.map_cons, List.mem_cons, ih]
        exact or_left_comm

/-- The keys ascend. -/
def Ascending (t : Table α) : Prop :=
  (t.map Prod.fst).Pairwise (· < ·)

theorem Ascending.insert (h : Ascending t) : Ascending (insert k v t) := by
  induction t with
  | nil => exact List.pairwise_singleton _ _
  | cons p t ih =>
    obtain ⟨hp, ht⟩ := List.pairwise_cons.1 h
    rw [Table.insert]
    split
    · next hk =>
      subst hk
      exact h
    · next hk =>
      split
      · next hlt =>
        refine List.pairwise_cons.2 ⟨?_, h⟩
        intro x hx
        rcases List.mem_cons.1 hx with rfl | hx
        · exact hlt
        · exact String.lt_trans hlt (hp x hx)
      · next hlt =>
        refine List.pairwise_cons.2 ⟨?_, ih ht⟩
        intro x hx
        rcases mem_keys_insert.1 hx with rfl | hx
        · exact Std.lt_of_le_of_ne (String.not_lt.1 hlt) (Ne.symm hk)
        · exact hp x hx

theorem ascending_ofList (ps : List (String × α)) : Ascending (ofList ps) := by
  have hall : ∀ t : Table α, Ascending t →
      Ascending (ps.foldl (fun t p => insert p.1 p.2 t) t) := by
    induction ps with
    | nil => exact fun t h => h
    | cons p ps ih => exact fun t h => ih _ h.insert
  exact hall [] List.Pairwise.nil

/-- Under each of its keys an ascending table has the one value that stands there. -/
theorem Ascending.find?_eq_some (h : Ascending t) : find? k t = some v ↔ (k, v) ∈ t := by
  refine ⟨mem_of_find?, ?_⟩
  induction t with
  | nil => nofun
  | cons p t ih =>
    obtain ⟨k', u⟩ := p
    obtain ⟨hlt, ht⟩ := List.pairwise_cons.1 h
    intro hmem
    rw [find?]
    rcases List.mem_cons.1 hmem with heq | hmem
    · cases heq
      exact if_pos rfl
    · have hk : k' < k := hlt k (List.mem_map.2 ⟨_, hmem, rfl⟩)
      have hne : k ≠ k' := by
        rintro rfl
        exact String.lt_irrefl k hk
      rw [if_neg hne]
      exact ih ht hmem

/-- Lists that ascend and have the same members are the same. -/
theorem eq_of_ascending {β : Type} {f : β → String} {xs ys : List β}
    (hxs : xs.Pairwise fun a b => f a < f b) (hys : ys.Pairwise fun a b => f a < f b)
    (h : ∀ a, a ∈ xs ↔ a ∈ ys) : xs = ys := by
  have hnodup : ∀ {zs : List β}, zs.Pairwise (fun a b => f a < f b) → zs.Nodup := by
    intro zs hzs
    refine hzs.imp ?_
    rintro a _ hlt rfl
    exact String.lt_irrefl _ hlt
  have hperm := (List.perm_ext_iff_of_nodup (hnodup hxs) (hnodup hys)).2 h
  refine hperm.eq_of_pairwise ?_ hxs hys
  intro a b _ _ hab hba
  exact absurd (String.lt_trans hab hba) (String.lt_irrefl _)

/-- Ascending tables with the same under each key are the same. -/
theorem Ascending.ext {t' : Table α} (h : Ascending t) (h' : Ascending t')
    (hfind : ∀ k, find? k t = find? k t') : t = t' := by
  refine eq_of_ascending (List.pairwise_map.1 h) (List.pairwise_map.1 h') ?_
  rintro ⟨k, v⟩
  rw [← h.find?_eq_some, ← h'.find?_eq_some, hfind]

/-- Pairs in the order of their keys are a table already. -/
theorem Ascending.ofList_eq (h : Ascending ps) : ofList ps = ps := by
  refine eq_of_ascending (List.pairwise_map.1 (ascending_ofList ps)) (List.pairwise_map.1 h) ?_
  rintro ⟨k, v⟩
  rw [← (ascending_ofList ps).find?_eq_some, find?_ofList]
  refine ⟨mem_of_lastValue?, fun hmem => lastValue?_eq_iff.2 ?_ _ hmem⟩
  intro p hp q hq hkey
  have hfirst := h.find?_eq_some.2 hp
  rw [hkey, h.find?_eq_some.2 hq] at hfirst
  exact (Option.some.inj hfirst).symm

theorem mem_keys_ofList : k ∈ (ofList ps).map Prod.fst ↔ k ∈ ps.map Prod.fst := by
  simp only [List.mem_map]
  constructor
  · rintro ⟨⟨k, v⟩, hmem, rfl⟩
    have hfind := (ascending_ofList ps).find?_eq_some.2 hmem
    rw [find?_ofList] at hfind
    exact ⟨_, mem_of_lastValue? hfind, rfl⟩
  · rintro ⟨⟨k, v⟩, hmem, rfl⟩
    obtain ⟨u, hu⟩ := Option.ne_none_iff_exists'.1 (lastValue?_ne_none hmem)
    rw [← find?_ofList] at hu
    exact ⟨_, mem_of_find? hu, rfl⟩

/-- The keys of a table do not depend on the order of its pairs. -/
theorem keys_ofList_perm (h : ps.Perm qs) :
    (ofList ps).map Prod.fst = (ofList qs).map Prod.fst := by
  refine @eq_of_ascending _ id _ _ (ascending_ofList ps) (ascending_ofList qs) ?_
  intro k
  rw [mem_keys_ofList, mem_keys_ofList, (h.map Prod.fst).mem_iff]

theorem Ascending.nodup (h : Ascending t) : (t.map Prod.fst).Nodup := by
  refine List.Pairwise.imp ?_ h
  rintro a b hlt rfl
  exact String.lt_irrefl a hlt

end RecipeFlow.Table
