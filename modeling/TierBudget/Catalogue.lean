/-!
# Catalogues

A `Catalogue` keeps one value per name, in the order of the names (by code points, which is also the
order of their UTF-8 bytes). The order is part of the type, so a catalogue is determined by what it
holds: `ext_get?` says that two catalogues with the same look-ups are equal.
-/

namespace TierBudget

/-- Puts a value under a name into a list sorted by name, in place of the one it has. -/
def sortedInsert {α : Type} (name : String) (value : α) : List (String × α) → List (String × α)
  | [] => [(name, value)]
  | (k, v) :: rest =>
    if name < k then (name, value) :: (k, v) :: rest
    else if name = k then (name, value) :: rest
    else (k, v) :: sortedInsert name value rest

theorem mem_sortedInsert {α : Type} {name : String} {value : α} {x : String × α} :
    ∀ {l : List (String × α)}, x ∈ sortedInsert name value l → x = (name, value) ∨ x ∈ l
  | [], h => by simpa [sortedInsert] using h
  | (k, v) :: rest, h => by
    rw [sortedInsert] at h
    split at h
    · simpa using h
    · split at h
      · rcases List.mem_cons.1 h with h | h
        · exact .inl h
        · exact .inr (List.mem_cons_of_mem _ h)
      · rcases List.mem_cons.1 h with h | h
        · exact .inr (h ▸ List.mem_cons_self)
        · exact (mem_sortedInsert h).imp id (List.mem_cons_of_mem _)

theorem pairwise_sortedInsert {α : Type} (name : String) (value : α) :
    ∀ {l : List (String × α)}, l.Pairwise (·.1 < ·.1) →
      (sortedInsert name value l).Pairwise (·.1 < ·.1)
  | [], _ => by simp [sortedInsert]
  | (k, v) :: rest, h => by
    rw [List.pairwise_cons] at h
    rw [sortedInsert]
    split
    · next hlt =>
      refine List.pairwise_cons.2 ⟨fun x hx => ?_, List.pairwise_cons.2 h⟩
      rcases List.mem_cons.1 hx with rfl | hx
      · exact hlt
      · exact String.lt_trans hlt (h.1 x hx)
    · split
      · next heq => exact List.pairwise_cons.2 ⟨fun x hx => heq ▸ h.1 x hx, h.2⟩
      · next hlt hne =>
        refine List.pairwise_cons.2 ⟨fun x hx => ?_, pairwise_sortedInsert name value h.2⟩
        rcases mem_sortedInsert hx with rfl | hx
        · exact Std.lt_of_le_of_ne (Std.not_lt.1 hlt) (Ne.symm hne)
        · exact h.1 x hx

/-- Values under names, sorted by name. -/
structure Catalogue (α : Type) where
  toList : List (String × α)
  sorted : toList.Pairwise (·.1 < ·.1)

namespace Catalogue

variable {α : Type}

/-- The catalogue of nothing. -/
def empty : Catalogue α := ⟨[], .nil⟩

instance : Inhabited (Catalogue α) := ⟨empty⟩

/-- The value under a name. -/
def get? (c : Catalogue α) (name : String) : Option α := c.toList.lookup name

/-- Puts a value under a name, in place of the one it has. -/
def insert (c : Catalogue α) (name : String) (value : α) : Catalogue α :=
  ⟨sortedInsert name value c.toList, pairwise_sortedInsert name value c.sorted⟩

/-- Takes a name and its value out. -/
def erase (c : Catalogue α) (name : String) : Catalogue α :=
  ⟨c.toList.filter (·.1 != name), c.sorted.filter _⟩

/-- The catalogue of the pairs, the last of those that share a name. -/
def ofList (l : List (String × α)) : Catalogue α :=
  l.foldl (fun c (name, value) => c.insert name value) empty

theorem lookup_sortedInsert (name other : String) (value : α) :
    ∀ l : List (String × α), (sortedInsert name value l).lookup other =
      if other = name then some value else l.lookup other
  | [] => by
    by_cases h : other = name
    · simp [sortedInsert, h]
    · simp [sortedInsert, List.lookup_cons, h, beq_eq_false_iff_ne.2 h]
  | (k, v) :: rest => by
    have ih := lookup_sortedInsert name other value rest
    rw [sortedInsert]
    split
    · by_cases h : other = name
      · simp [h]
      · simp [List.lookup_cons, h, beq_eq_false_iff_ne.2 h]
    · split
      · next heq =>
        subst heq
        by_cases h : other = name
        · simp [h]
        · simp [List.lookup_cons, h, beq_eq_false_iff_ne.2 h]
      · next hne =>
        by_cases h : other = k
        · subst h
          simp [Ne.symm hne]
        · simp [List.lookup_cons, beq_eq_false_iff_ne.2 h, ih]

@[simp] theorem get?_insert (c : Catalogue α) (name other : String) (value : α) :
    (c.insert name value).get? other = if other = name then some value else c.get? other :=
  lookup_sortedInsert name other value c.toList

theorem lookup_filter_ne (name other : String) :
    ∀ l : List (String × α), (l.filter (·.1 != name)).lookup other =
      if other = name then none else l.lookup other
  | [] => by simp
  | (k, v) :: rest => by
    have ih := lookup_filter_ne name other rest
    by_cases hk : k = name
    · subst hk
      rw [List.filter_cons_of_neg (by simp), ih]
      by_cases h : other = k
      · simp [h]
      · simp [List.lookup_cons, h, beq_eq_false_iff_ne.2 h]
    · rw [List.filter_cons_of_pos (by simpa using hk), List.lookup_cons, List.lookup_cons, ih]
      by_cases h : other = k
      · subst h
        simp [hk]
      · simp [beq_eq_false_iff_ne.2 h]

@[simp] theorem get?_erase (c : Catalogue α) (name other : String) :
    (c.erase name).get? other = if other = name then none else c.get? other :=
  lookup_filter_ne name other c.toList

/-- Each name is listed once, so what is listed is what is looked up. -/
theorem get?_eq_some_iff {c : Catalogue α} {name : String} {value : α} :
    c.get? name = some value ↔ (name, value) ∈ c.toList := by
  rw [get?, List.lookup_eq_some_iff]
  constructor
  · rintro ⟨before, rest, hl, -⟩
    simp [hl]
  · intro h
    obtain ⟨before, rest, hl⟩ := List.append_of_mem h
    have hsorted := c.sorted
    rw [hl, List.pairwise_append] at hsorted
    refine ⟨before, rest, hl, fun x hx => bne_iff_ne.2 ?_⟩
    exact (Std.ne_of_lt (hsorted.2.2 x hx _ List.mem_cons_self)).symm

/-- Nothing is under a name that all names of the list follow. -/
theorem lookup_eq_none {l : List (String × α)} {name : String} (h : ∀ x ∈ l, name < x.1) :
    l.lookup name = none :=
  List.lookup_eq_none_iff.2 fun x hx => bne_iff_ne.2 (Std.ne_of_lt (h x hx))

/-- Two lists sorted by name with the same look-ups are equal. -/
theorem eq_of_lookup_eq : ∀ {l l' : List (String × α)}, l.Pairwise (·.1 < ·.1) →
    l'.Pairwise (·.1 < ·.1) → (∀ name, l.lookup name = l'.lookup name) → l = l'
  | [], [], _, _, _ => rfl
  | [], (k, v) :: _, _, _, h => by simpa using h k
  | (k, v) :: _, [], _, _, h => by simpa using h k
  | (k, v) :: r, (k', v') :: r', h₁, h₂, h => by
    rw [List.pairwise_cons] at h₁ h₂
    have key : k = k' := by
      rcases Std.lt_trichotomy k k' with hlt | heq | hlt
      · exact absurd (h k) (by simp [List.lookup_cons, beq_eq_false_iff_ne.2 (Std.ne_of_lt hlt),
          lookup_eq_none fun x hx => Std.lt_trans hlt (h₂.1 x hx)])
      · exact heq
      · exact absurd (h k') (by simp [List.lookup_cons, beq_eq_false_iff_ne.2 (Std.ne_of_lt hlt),
          lookup_eq_none fun x hx => Std.lt_trans hlt (h₁.1 x hx)])
    subst key
    have value : v = v' := by simpa using h k
    subst value
    congr 1
    refine eq_of_lookup_eq h₁.2 h₂.2 fun name => ?_
    by_cases hn : name = k
    · subst hn
      rw [lookup_eq_none h₁.1, lookup_eq_none h₂.1]
    · simpa [List.lookup_cons, beq_eq_false_iff_ne.2 hn] using h name

theorem ext_get? {c d : Catalogue α} (h : ∀ name, c.get? name = d.get? name) : c = d := by
  obtain ⟨l, hl⟩ := c
  obtain ⟨l', hl'⟩ := d
  obtain rfl : l = l' := eq_of_lookup_eq hl hl' h
  rfl

/-! ## From lists -/

/-- What follows all names of a list goes to its end. -/
theorem sortedInsert_eq_append {name : String} {value : α} :
    ∀ {l : List (String × α)}, (∀ x ∈ l, x.1 < name) →
      sortedInsert name value l = l ++ [(name, value)]
  | [], _ => rfl
  | (k, v) :: rest, h => by
    rw [List.forall_mem_cons] at h
    have hlt : k < name := h.1
    rw [sortedInsert, if_neg (Std.not_lt.2 (Std.le_of_lt hlt)), if_neg (Std.ne_of_lt hlt).symm,
      sortedInsert_eq_append h.2]
    rfl

theorem toList_foldl_insert : ∀ (l : List (String × α)) (c : Catalogue α),
    (c.toList ++ l).Pairwise (·.1 < ·.1) →
      (l.foldl (fun c (name, value) => c.insert name value) c).toList = c.toList ++ l
  | [], c, _ => by simp
  | (name, value) :: l, c, h => by
    have hlast : (c.insert name value).toList = c.toList ++ [(name, value)] :=
      sortedInsert_eq_append fun x hx => (List.pairwise_append.1 h).2.2 x hx _ List.mem_cons_self
    have hrest := toList_foldl_insert l (c.insert name value)
      (by rwa [hlast, List.append_assoc, List.singleton_append])
    rw [List.foldl_cons, hrest, hlast, List.append_assoc, List.singleton_append]

/-- The list of a catalogue makes the same catalogue again. -/
theorem ofList_toList (c : Catalogue α) : ofList c.toList = c := by
  have h : (ofList c.toList).toList = c.toList := toList_foldl_insert c.toList empty c.sorted
  obtain ⟨l, hl⟩ := c
  cases hcat : ofList l with
  | mk l' hl' =>
    obtain rfl : l' = l := by rwa [hcat] at h
    rfl

/-! ## Changing values -/

theorem insert_of_get? {c : Catalogue α} {name : String} {value : α}
    (h : c.get? name = some value) : c.insert name value = c := by
  refine ext_get? fun other => ?_
  rw [get?_insert]
  split
  · next he => rw [he, h]
  · rfl

theorem insert_insert (c : Catalogue α) (name : String) (value value' : α) :
    (c.insert name value).insert name value' = c.insert name value' := by
  refine ext_get? fun other => ?_
  simp only [get?_insert]
  split <;> rfl

section

variable {β : Type}

/-- The catalogue of other values under the same names. -/
def map (f : α → β) (c : Catalogue α) : Catalogue β :=
  ⟨c.toList.map fun x => (x.1, f x.2), List.pairwise_map.2 c.sorted⟩

theorem lookup_map (f : α → β) (name : String) : ∀ l : List (String × α),
    (l.map fun x => (x.1, f x.2)).lookup name = (l.lookup name).map f
  | [] => rfl
  | (k, v) :: rest => by
    rw [List.map_cons, List.lookup_cons, List.lookup_cons, lookup_map f name rest]
    cases name == k <;> rfl

@[simp] theorem get?_map (f : α → β) (c : Catalogue α) (name : String) :
    (c.map f).get? name = (c.get? name).map f := lookup_map f name c.toList

theorem map_insert (f : α → β) (c : Catalogue α) (name : String) (value : α) :
    (c.insert name value).map f = (c.map f).insert name (f value) := by
  refine ext_get? fun other => ?_
  simp only [get?_map, get?_insert]
  split <;> rfl

end

end Catalogue

end TierBudget
