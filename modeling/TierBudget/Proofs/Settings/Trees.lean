import TierBudget.Tree.Overlay
/-!
# Trees laid over defaults

What a layer of settings says is meant to be independent of the defaults under it. Laying a tree or
following a path only looks at the entries and the elements of what is there, so a default that is a
single value leaves no trace once something is laid over it, and a table of defaults shows through
key by key where nothing is said. `Tree.Over` is this relation between a tree on top of defaults and
the same tree without them; whatever is laid over both keeps it (`Tree.Over.putAll`).

Of a setting, which is an entry in a table of the root, it follows that single values laid over a
tree settle it by the last of them whose path leads there (`Tree.setting?_putAll`). Entries under
plain keys, on the other hand, are laid where they already are (`Tree.putAll_of_plain`).
-/

namespace TierBudget

/-- The name of a path starts with a key. -/
theorem Path.exists_ofName_eq_key_cons (name : String) :
    ∃ k rest, Path.ofName name = .key k :: rest := by
  unfold Path.ofName
  cases hkey : Path.scanKey name.toList with
  | none => exact ⟨name, [], rfl⟩
  | some found =>
    obtain ⟨step, r⟩ := found
    obtain ⟨k, rfl⟩ : ∃ k, step = .key k := by
      unfold Path.scanKey at hkey
      split at hkey
      · cases hkey
      · cases hkey
        exact ⟨_, rfl⟩
    cases hsteps : Path.scanSteps r.length r with
    | none => exact ⟨name, [], by simp [hsteps]⟩
    | some rest => exact ⟨k, rest, by simp [hsteps]⟩

/-- A path that leads into the table under a key leads to a single entry of it. -/
def Path.Respects (s : String) (path : Path) : Prop :=
  path.head? = some (.key s) → ∃ n, path = [.key s, .key n]

namespace Tree

variable {b v : Tree} {es : List (String × Tree)} {s n : String}

theorem eq_of_integer? {z : Int} (h : integer? z = some v) : v = .integer z := by
  unfold integer? at h
  split at h
  · exact (Option.some.inj h).symm
  · cases h

theorem putAll_cons (b : Tree) (e : String × Tree) (es : List (String × Tree)) :
    b.putAll (e :: es) = (b.put (.ofName e.1) e.2).putAll es := rfl

/-! ## Defaults that show through -/

/-- How a tree `t` on top of the defaults `d` is related to the same tree `f` without them: it is
`f`, with defaults in the places of which `f` says nothing. -/
inductive Over : Option Tree → Option Tree → Option Tree → Prop
  /-- There may be nothing left of the defaults. -/
  | same (d t : Option Tree) : Over d t t
  /-- A default that is a single value. -/
  | value {d : Tree} (he : d.entries = []) (hs : d.elements = []) : Over (some d) (some d) none
  /-- A table of defaults. -/
  | missing {d t : List (String × Tree)} (h : ∀ k, Over (d.lookup k) (t.lookup k) none) :
      Over (some (.table d)) (some (.table t)) none
  /-- A table on top of what may be a table of defaults. -/
  | table {d : Option Tree} {t f : List (String × Tree)}
      (h : ∀ k, Over ((d.getD .nothing).entries.lookup k) (t.lookup k) (f.lookup k)) :
      Over d (some (.table t)) (some (.table f))

namespace Over

variable {d t f : Option Tree}

theorem elements_eq (h : Over d t f) :
    (t.getD .nothing).elements = (f.getD .nothing).elements := by
  cases h with
  | same => rfl
  | value _ hs => exact hs
  | missing => rfl
  | table => rfl

/-- The relation holds of what stands under any key. -/
theorem lookup (h : Over d t f) (k : String) :
    Over ((d.getD .nothing).entries.lookup k) ((t.getD .nothing).entries.lookup k)
      ((f.getD .nothing).entries.lookup k) := by
  cases h with
  | same => exact .same _ _
  | value he =>
    rw [Option.getD_some, he]
    exact .same _ _
  | missing h => exact h k
  | table h => exact h k

/-- Defaults on which nothing lies. -/
theorem lookup_defaults {es : List (String × Tree)} (h : ∀ e ∈ es, Over (some e.2) (some e.2) none)
    (k : String) : Over (es.lookup k) (es.lookup k) none := by
  induction es with
  | nil => exact .same _ _
  | cons e es ih =>
    obtain ⟨he, h⟩ := List.forall_mem_cons.1 h
    rw [List.lookup_cons]
    split
    · exact he
    · exact ih h

/-- On a table of defaults there is a table where there is one, or nothing, without it. -/
theorem eq_table {e : String × Tree} {es : List (String × Tree)}
    (h : Over (some (.table (e :: es))) t f) (hf : ∀ u, f = some u → ∃ es, u = .table es) {u : Tree}
    (hu : t = some u) : ∃ es, u = .table es := by
  cases h with
  | same => exact hf u hu
  | value he => cases he
  | missing => exact ⟨_, (Option.some.inj hu).symm⟩
  | table => exact ⟨_, (Option.some.inj hu).symm⟩

mutual

/-- Laying the same tree over both keeps the relation. -/
theorem overlay {d t f : Option Tree} (h : Over d t f) :
    ∀ v, Over d (some ((t.getD .nothing).overlay v)) (some ((f.getD .nothing).overlay v))
  | .table es => .table (overlayEntries h.lookup es)
  | .nothing => .same _ _
  | .boolean _ => .same _ _
  | .integer _ => .same _ _
  | .float _ => .same _ _
  | .text _ => .same _ _
  | .array _ => .same _ _

theorem overlayEntries {d t f : List (String × Tree)}
    (h : ∀ k, Over (d.lookup k) (t.lookup k) (f.lookup k)) :
    ∀ es k, Over (d.lookup k) ((Tree.overlayEntries t es).lookup k)
      ((Tree.overlayEntries f es).lookup k)
  | [], k => h k
  | (j, v) :: rest, k => by
    rw [Tree.overlayEntries, Tree.overlayEntries]
    refine overlayEntries (fun i => ?_) rest k
    rw [List.lookup_cons, List.lookup_cons]
    split
    · next hi =>
      rw [eq_of_beq hi]
      exact (h j).overlay v
    · exact h i

end

/-- **Laying the same tree at the end of a path in both keeps the relation.** -/
theorem put (h : Over d t f) (path : Path) (v : Tree) :
    Over d (some ((t.getD .nothing).put path v)) (some ((f.getD .nothing).put path v)) := by
  induction path generalizing d t f with
  | nil => exact h.overlay v
  | cons step rest ih =>
    cases step with
    | key k =>
      refine .table fun j => ?_
      rw [List.lookup_cons, List.lookup_cons]
      split
      · next hj =>
        rw [eq_of_beq hj]
        exact ih (h.lookup k)
      · exact h.lookup j
    | index i =>
      rw [Tree.put, Tree.put, modify, modify, h.elements_eq]
      exact .same _ _

/-- Laying the same entries over both keeps the relation. -/
theorem putAll {t f : Tree} (h : Over d (some t) (some f)) (es : List (String × Tree)) :
    Over d (some (t.putAll es)) (some (f.putAll es)) := by
  induction es generalizing t f with
  | nil => exact h
  | cons e es ih => exact ih (h.put (.ofName e.1) e.2)

end Over

/-! ## Settings in a tree -/

/-- Whether a tree is a table. -/
def isTable : Tree → Bool
  | .table _ => true
  | _ => false

theorem isTable_eq_true_iff {t : Tree} : t.isTable = true ↔ ∃ es, t = .table es := by
  cases t <;> simp [isTable]

/-- The entry of a name in the table under a key of the root, if there is one. -/
def setting? (t : Tree) (s n : String) : Option Tree :=
  ((t.entries.lookup s).getD .nothing).entries.lookup n

/-- Whatever stands under a key of the root is a table. -/
def IsTableAt (t : Tree) (s : String) : Prop :=
  ∀ u, t.entries.lookup s = some u → ∃ es, u = .table es

instance (t : Tree) (s : String) : Decidable (t.IsTableAt s) :=
  decidable_of_iff (∀ u ∈ t.entries.lookup s, u.isTable = true) <| by
    unfold IsTableAt
    simp only [Option.mem_def, isTable_eq_true_iff]

theorem overlay_of_ne_table (h : ∀ es, v ≠ .table es) (b : Tree) : b.overlay v = v := by
  cases v with
  | table es => exact absurd rfl (h es)
  | _ => rfl

/-- A path that starts with another key leads elsewhere. -/
theorem lookup_entries_put_of_ne {k : String} (h : k ≠ s) (rest : Path) (v : Tree) :
    (b.put (.key k :: rest) v).entries.lookup s = b.entries.lookup s := by
  have hkey : (s == k) = false := beq_eq_false_iff_ne.2 h.symm
  rw [put, modify, entries, List.lookup_cons, hkey]

/-- What a single value makes of the table that it is laid in. -/
theorem lookup_entries_put_setting (h : ∀ es, v ≠ .table es) (b : Tree) (s n : String) :
    (b.put [.key s, .key n] v).entries.lookup s =
      some (.table ((n, v) :: ((b.entries.lookup s).getD .nothing).entries)) := by
  rw [put, modify, entries, List.lookup_cons_self, modify, modify, overlay_of_ne_table h]

section

variable {name : String} (h : Path.Respects s (.ofName name)) (hv : ∀ es, v ≠ .table es)

include h hv

/-- **A single value is a setting if its path leads there, and changes none otherwise.** -/
theorem setting?_put (b : Tree) (n : String) :
    (b.put (.ofName name) v).setting? s n =
      if Path.ofName name = [.key s, .key n] then some v else b.setting? s n := by
  obtain ⟨k, rest, hpath⟩ := Path.exists_ofName_eq_key_cons name
  by_cases hk : k = s
  · obtain ⟨m, hm⟩ := h (by rw [hpath, hk, List.head?_cons])
    rw [hm, setting?, lookup_entries_put_setting hv, Option.getD_some, entries, List.lookup_cons]
    by_cases hmn : m = n
    · rw [hmn, beq_self_eq_true, if_pos rfl]
    · rw [beq_eq_false_iff_ne.2 (Ne.symm hmn), if_neg (by simpa using hmn), setting?]
  · rw [hpath, setting?, lookup_entries_put_of_ne hk, if_neg (by simp [hk]), setting?]

theorem IsTableAt.put (hb : b.IsTableAt s) : (b.put (.ofName name) v).IsTableAt s := by
  intro u hu
  obtain ⟨k, rest, hpath⟩ := Path.exists_ofName_eq_key_cons name
  by_cases hk : k = s
  · obtain ⟨m, hm⟩ := h (by rw [hpath, hk, List.head?_cons])
    rw [hm, lookup_entries_put_setting hv] at hu
    exact ⟨_, (Option.some.inj hu).symm⟩
  · rw [hpath, lookup_entries_put_of_ne hk] at hu
    exact hb u hu

end

/-- The last of the values whose name is that of a path. -/
def lastAt (values : List (String × Tree)) (path : Path) : Option Tree :=
  (values.reverse.find? fun x => Path.ofName x.1 = path).map Prod.snd

theorem lastAt_cons (x : String × Tree) (values : List (String × Tree)) (path : Path) :
    lastAt (x :: values) path =
      (lastAt values path).or (if Path.ofName x.1 = path then some x.2 else none) := by
  rw [lastAt, List.reverse_cons, List.find?_append, Option.map_or, List.find?_singleton, lastAt]
  by_cases h : Path.ofName x.1 = path <;> simp [h]

section

variable {values : List (String × Tree)} (h : ∀ x ∈ values, Path.Respects s (.ofName x.1))
  (hv : ∀ x ∈ values, ∀ es, x.2 ≠ .table es)

include h hv

/-- **Single values settle a setting by the last of them whose path leads there.** -/
theorem setting?_putAll (b : Tree) (n : String) :
    (b.putAll values).setting? s n =
      (lastAt values [.key s, .key n]).or (b.setting? s n) := by
  induction values generalizing b with
  | nil => rfl
  | cons x values ih =>
    obtain ⟨hx, h⟩ := List.forall_mem_cons.1 h
    obtain ⟨hvx, hv⟩ := List.forall_mem_cons.1 hv
    rw [putAll_cons, ih h hv, setting?_put hx hvx, lastAt_cons, Option.or_assoc]
    congr 1
    split <;> rfl

theorem IsTableAt.putAll (hb : b.IsTableAt s) : (b.putAll values).IsTableAt s := by
  induction values generalizing b with
  | nil => exact hb
  | cons x values ih =>
    obtain ⟨hx, h⟩ := List.forall_mem_cons.1 h
    obtain ⟨hvx, hv⟩ := List.forall_mem_cons.1 hv
    exact ih h hv (hb.put hx hvx)

end

/-! ## Plain keys -/

/-- No key of a tree stands twice at its top. -/
def KeysNodup (t : Tree) : Prop := (t.entries.map Prod.fst).Nodup

theorem keysNodup_of_entries_eq_nil {t : Tree} (h : t.entries = []) : t.KeysNodup := by
  rw [KeysNodup, h]
  exact List.nodup_nil

/-- Entries with distinct keys are laid each over what stands under its key. -/
theorem lookup_overlayEntries (h : (es.map Prod.fst).Nodup) (base : List (String × Tree))
    (k : String) : (overlayEntries base es).lookup k =
      ((es.lookup k).map ((base.lookup k).getD .nothing).overlay).or (base.lookup k) := by
  induction es generalizing base with
  | nil => rfl
  | cons e es ih =>
    obtain ⟨j, v⟩ := e
    obtain ⟨hj, h⟩ := List.nodup_cons.1 h
    rw [overlayEntries, ih h, List.lookup_cons, List.lookup_cons]
    by_cases hk : k = j
    · have hnone : es.lookup k = none := List.lookup_eq_none_iff.2 fun e he =>
        bne_iff_ne.2 fun hke => hj (List.mem_map.2 ⟨e, he, hke.symm.trans hk⟩)
      rw [hnone, hk, beq_self_eq_true]
      rfl
    · rw [beq_eq_false_iff_ne.2 hk]

/-- Laid in an empty table, entries under plain keys stay the table that they are. -/
theorem putAll_of_plain (h : ∀ e ∈ es, Path.ofName e.1 = [.key e.1])
    (base : List (String × Tree)) :
    (Tree.table base).putAll es = .table (overlayEntries base es) := by
  induction es generalizing base with
  | nil => rfl
  | cons e es ih =>
    obtain ⟨he, h⟩ := List.forall_mem_cons.1 h
    rw [putAll_cons, he]
    exact ih h _

theorem entries_nothing_overlay (v : Tree) :
    (nothing.overlay v).entries = overlayEntries [] v.entries := by
  cases v <;> rfl

/-- **A setting in a document is the same when the document is laid on nothing**, but for tables in
it. -/
theorem setting?_overlay_nothing {t : Tree} {s n : String} (h : t.KeysNodup)
    (hs : ((t.entries.lookup s).getD .nothing).KeysNodup) :
    (nothing.overlay t).setting? s n = (t.setting? s n).map nothing.overlay := by
  have hsection : (((t.entries.lookup s).map nothing.overlay).getD .nothing) =
      nothing.overlay ((t.entries.lookup s).getD .nothing) := by
    cases t.entries.lookup s <;> rfl
  rw [setting?, setting?, entries_nothing_overlay, lookup_overlayEntries h, List.lookup_nil,
    Option.or_none, Option.getD_none, hsection, entries_nothing_overlay, lookup_overlayEntries hs,
    List.lookup_nil, Option.or_none, Option.getD_none]

end Tree

end TierBudget
