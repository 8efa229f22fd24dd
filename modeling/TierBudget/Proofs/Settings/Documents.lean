import Mathlib.Data.List.Nodup
import TierBudget.Proofs.Settings.Trees
import TierBudget.Toml.Document
/-!
# The keys of a TOML document

No table of a TOML document has a key twice. Whatever a line adds, it adds below the keys that are
there or under a new one, which is what `Node.Distinct` says of a document that is being read: every
function that adds to one keeps it, and so do all lines (`Toml.distinct_of_readLines`). So the
tables of a complete document, at the top and under each key, have distinct keys
(`Toml.keysNodup_of_read`).
-/

namespace TierBudget.Toml

/-- In the node no table has a key twice; of a value only the value itself is meant. -/
inductive Node.Distinct : Node → Prop
  | value {t : Tree} (h : t.KeysNodup) : Distinct (.value t)
  | table {origin : Origin} {es : Entries} (hkeys : (es.map Prod.fst).Nodup)
      (h : ∀ e ∈ es, e.2.Distinct) : Distinct (.table origin es)
  | tables {elements : List Entries} (hkeys : ∀ es ∈ elements, (es.map Prod.fst).Nodup)
      (h : ∀ es ∈ elements, ∀ e ∈ es, e.2.Distinct) : Distinct (.tables elements)

/-! ## Adding to a table -/

namespace Entries

/-- No table has a key twice. -/
structure Distinct (es : Entries) : Prop where
  keys : (es.map Prod.fst).Nodup
  nodes : ∀ e ∈ es, e.2.Distinct

namespace Distinct

variable {es es' : Entries} {key : String} {node : Node} {t : Tree}

theorem nil : Distinct [] := ⟨List.nodup_nil, nofun⟩

theorem lookup (h : es.Distinct) (hnode : es.lookup key = some node) : node.Distinct := by
  obtain ⟨l, r, rfl, -⟩ := List.lookup_eq_some_iff.1 hnode
  exact h.nodes _ (List.mem_append_right _ List.mem_cons_self)

theorem append (h : es.Distinct) (hnew : ∀ e ∈ es, e.1 ≠ key) (hnode : node.Distinct) :
    Distinct (es ++ [(key, node)]) where
  keys := by
    rw [List.map_append, List.map_singleton, ← List.concat_eq_append]
    refine h.keys.concat fun hmem => ?_
    obtain ⟨e, he, hk⟩ := List.mem_map.1 hmem
    exact hnew e he hk
  nodes e he := by
    rcases List.mem_append.1 he with he | he
    · exact h.nodes e he
    · rwa [List.mem_singleton.1 he]

theorem put (h : es.Distinct) (hnode : node.Distinct) : (es.put key node).Distinct := by
  unfold Entries.put
  split
  · constructor
    · have hkeys : (es.map fun e => if e.1 = key then (key, node) else e).map Prod.fst =
          es.map Prod.fst := by
        rw [List.map_map]
        refine List.map_congr_left fun e _ => ?_
        rw [Function.comp_apply]
        split
        · next he => exact he.symm
        · rfl
      rw [hkeys]
      exact h.keys
    · intro e he
      obtain ⟨e', he', rfl⟩ := List.mem_map.1 he
      split
      · exact hnode
      · exact h.nodes e' he'
  · next hany =>
    refine h.append (fun e he hk => hany ?_) hnode
    exact List.any_eq_true.2 ⟨e, he, by simpa using hk⟩

theorem table_iff {origin : Origin} : (Node.table origin es).Distinct ↔ es.Distinct := by
  constructor
  · intro h
    cases h with
    | table hkeys h => exact ⟨hkeys, h⟩
  · exact fun h => .table h.keys h.nodes

theorem tables_cons_iff {before : List Entries} :
    (Node.tables (es :: before)).Distinct ↔ es.Distinct ∧ (Node.tables before).Distinct := by
  constructor
  · intro h
    cases h with
    | tables hkeys h =>
      obtain ⟨hes, hkeys⟩ := List.forall_mem_cons.1 hkeys
      obtain ⟨hnodes, h⟩ := List.forall_mem_cons.1 h
      exact ⟨⟨hes, hnodes⟩, .tables hkeys h⟩
  · rintro ⟨⟨hes, hnodes⟩, h⟩
    cases h with
    | tables hkeys h =>
      exact .tables (List.forall_mem_cons.2 ⟨hes, hkeys⟩) (List.forall_mem_cons.2 ⟨hnodes, h⟩)

/-- Going down into a table. -/
theorem put_table {origin origin' : Origin} {below below' : Entries} (h : es.Distinct)
    (hlookup : es.lookup key = some (.table origin below))
    (hbelow : below.Distinct → below'.Distinct) : (es.put key (.table origin' below')).Distinct :=
  h.put (table_iff.2 (hbelow (table_iff.1 (h.lookup hlookup))))

/-- Going down into the last of repeated tables. -/
theorem put_last {last last' : Entries} {before : List Entries} (h : es.Distinct)
    (hlookup : es.lookup key = some (.tables (last :: before)))
    (hlast : last.Distinct → last'.Distinct) :
    (es.put key (.tables (last' :: before))).Distinct := by
  obtain ⟨hfirst, hbefore⟩ := tables_cons_iff.1 (h.lookup hlookup)
  exact h.put (tables_cons_iff.2 ⟨hlast hfirst, hbefore⟩)

theorem assign (h : es.Distinct) (ht : t.KeysNodup) {path : List String}
    (hassign : es.assign path t = some es') : es'.Distinct := by
  induction path generalizing es es' with
  | nil => cases hassign
  | cons key rest ih =>
    cases rest with
    | nil =>
      rw [Entries.assign] at hassign
      split at hassign
      · cases hassign
      · next hany =>
        cases hassign
        refine h.append (fun e he hk => hany ?_) (.value ht)
        exact List.any_eq_true.2 ⟨e, he, by simpa using hk⟩
    | cons next rest =>
      rw [Entries.assign] at hassign
      split at hassign
      · obtain ⟨below, hbelow, hes⟩ := Option.bind_eq_some_iff.1 hassign
        cases hes
        exact h.put (table_iff.2 (ih nil hbelow))
      · next hlookup =>
        split at hassign
        · cases hassign
        · obtain ⟨below, hbelow, hes⟩ := Option.bind_eq_some_iff.1 hassign
          cases hes
          exact h.put_table hlookup fun hb => ih hb hbelow
      · cases hassign

theorem openTable (h : es.Distinct) {path : List String} (hopen : es.openTable path = some es') :
    es'.Distinct := by
  induction path generalizing es es' with
  | nil => cases hopen
  | cons key rest ih =>
    cases rest with
    | nil =>
      rw [Entries.openTable] at hopen
      split at hopen
      · cases hopen
        exact h.put (table_iff.2 nil)
      · next hlookup =>
        cases hopen
        exact h.put_table hlookup id
      · cases hopen
    | cons next rest =>
      rw [Entries.openTable] at hopen
      split at hopen
      · obtain ⟨below, hbelow, hes⟩ := Option.bind_eq_some_iff.1 hopen
        cases hes
        exact h.put (table_iff.2 (ih nil hbelow))
      · next hlookup =>
        obtain ⟨below, hbelow, hes⟩ := Option.bind_eq_some_iff.1 hopen
        cases hes
        exact h.put_table hlookup fun hb => ih hb hbelow
      · next hlookup =>
        obtain ⟨last, hlast, hes⟩ := Option.bind_eq_some_iff.1 hopen
        cases hes
        exact h.put_last hlookup fun hb => ih hb hlast
      · cases hopen

theorem openElement (h : es.Distinct) {path : List String}
    (hopen : es.openElement path = some es') : es'.Distinct := by
  induction path generalizing es es' with
  | nil => cases hopen
  | cons key rest ih =>
    cases rest with
    | nil =>
      rw [Entries.openElement] at hopen
      split at hopen
      · cases hopen
        exact h.put (tables_cons_iff.2 ⟨nil, .tables nofun nofun⟩)
      · next hlookup =>
        cases hopen
        exact h.put (tables_cons_iff.2 ⟨nil, h.lookup hlookup⟩)
      · cases hopen
    | cons next rest =>
      rw [Entries.openElement] at hopen
      split at hopen
      · obtain ⟨below, hbelow, hes⟩ := Option.bind_eq_some_iff.1 hopen
        cases hes
        exact h.put (table_iff.2 (ih nil hbelow))
      · next hlookup =>
        obtain ⟨below, hbelow, hes⟩ := Option.bind_eq_some_iff.1 hopen
        cases hes
        exact h.put_table hlookup fun hb => ih hb hbelow
      · next hlookup =>
        obtain ⟨last, hlast, hes⟩ := Option.bind_eq_some_iff.1 hopen
        cases hes
        exact h.put_last hlookup fun hb => ih hb hlast
      · cases hopen

theorem assignIn (h : es.Distinct) (ht : t.KeysNodup)
    {path header : List String} (hassign : es.assignIn path t header = some es') :
    es'.Distinct := by
  induction header generalizing es es' with
  | nil => exact h.assign ht hassign
  | cons key rest ih =>
    rw [Entries.assignIn] at hassign
    split at hassign
    · next hlookup =>
      obtain ⟨below, hbelow, hes⟩ := Option.bind_eq_some_iff.1 hassign
      cases hes
      exact h.put_table hlookup fun hb => ih hb hbelow
    · next hlookup =>
      obtain ⟨last, hlast, hes⟩ := Option.bind_eq_some_iff.1 hassign
      cases hes
      exact h.put_last hlookup fun hb => ih hb hlast
    · cases hassign

end Distinct

end Entries

/-! ## Values -/

theorem entries_of_finite? {x : Float} {t : Tree} (h : Tree.finite? x = some t) :
    t.entries = [] := by
  unfold Tree.finite? at h
  split at h
  · cases h
    rfl
  · cases h

theorem entries_of_based? {base : ℕ} {cs : List Char} {t : Tree} (h : based? base cs = some t) :
    t.entries = [] := by
  obtain ⟨ds, -, h⟩ := Option.bind_eq_some_iff.1 h
  split at h
  · cases h
  · obtain ⟨n, -, h⟩ := Option.bind_eq_some_iff.1 h
    rw [Tree.eq_of_integer? h]
    rfl

theorem entries_of_special? {cs : List Char} {t : Tree} (h : special? cs = some t) :
    t.entries = [] := by
  unfold special? at h
  split at h
  · cases h
    rfl
  · cases h
    rfl
  · cases h

theorem entries_of_decimal? {cs : List Char} {t : Tree} (h : decimal? cs = some t) :
    t.entries = [] := by
  obtain ⟨ds, -, h⟩ := Option.bind_eq_some_iff.1 h
  split at h
  · split at h
    · cases h
    · split at h
      · rw [Tree.eq_of_integer? h]
        rfl
      · split at h
        · cases h
        · exact entries_of_finite? h
  · cases h

theorem entries_of_scalar? {cs : List Char} {t : Tree} (h : scalar? cs = some t) :
    t.entries = [] := by
  unfold scalar? at h
  split at h
  · cases h
    rfl
  split at h
  · cases h
    rfl
  split at h
  · cases h
    rfl
  split at h
  · exact entries_of_based? h
  · exact entries_of_based? h
  · exact entries_of_based? h
  · rcases Option.or_eq_some_iff.1 h with h | ⟨-, h⟩
    · exact entries_of_special? h
    · exact entries_of_decimal? h

theorem entries_of_scanElements {fuel room : ℕ} {acc : List Tree} {cs r : List Char} {t : Tree}
    (h : scanElements fuel room acc cs = some (t, r)) : t.entries = [] := by
  induction fuel generalizing acc cs with
  | zero => rw [scanElements] at h; cases h
  | succ fuel ih =>
    rw [scanElements] at h
    split at h
    · cases h
      rfl
    · split at h
      · cases h
      · split at h
        · exact ih h
        · cases h
          rfl
        · cases h

theorem entriesToTrees_eq_map : ∀ es : Entries,
    entriesToTrees es = es.map fun e => (e.1, e.2.toTree)
  | [] => rfl
  | (k, n) :: es => congrArg ((k, n.toTree) :: ·) (entriesToTrees_eq_map es)

theorem Entries.Distinct.nodup_toTrees {es : Entries} (h : es.Distinct) :
    ((entriesToTrees es).map Prod.fst).Nodup := by
  rw [entriesToTrees_eq_map, List.map_map]
  exact h.keys

/-- Tables in braces have distinct keys. -/
theorem nodup_of_scan (fuel : ℕ) :
    (∀ room cs t r, scanValue fuel room cs = some (t, r) → t.KeysNodup) ∧
    ∀ room es cs t r, Entries.Distinct es → scanInline fuel room es cs = some (t, r) →
      t.KeysNodup := by
  induction fuel with
  | zero =>
    constructor
    · intro room cs t r h
      rw [scanValue] at h
      cases h
    · intro room es cs t r _ h
      rw [scanInline] at h
      cases h
  | succ fuel ih =>
    obtain ⟨ihvalue, ihinline⟩ := ih
    constructor
    · intro room cs t r h
      unfold scanValue at h
      split at h
      · cases h
      · exact Tree.keysNodup_of_entries_eq_nil (entries_of_scanElements h)
      · next fuel' _ _ hfuel =>
        cases hfuel
        exact ihinline _ _ _ _ _ .nil h
      · split at h
        · cases h
        · cases h
        · obtain ⟨⟨s, r'⟩, -, h⟩ := Option.map_eq_some_iff.1 h
          cases h
          exact List.nodup_nil
        · obtain ⟨⟨s, r'⟩, -, h⟩ := Option.map_eq_some_iff.1 h
          cases h
          exact List.nodup_nil
        · obtain ⟨u, hu, h⟩ := Option.map_eq_some_iff.1 h
          cases h
          exact Tree.keysNodup_of_entries_eq_nil (entries_of_scalar? hu)
    · intro room es cs t r hes h
      rw [scanInline] at h
      split at h
      · cases h
        exact hes.nodup_toTrees
      · split at h
        · split at h
          · cases h
          · next hvalue =>
            have ht := ihvalue _ _ _ _ hvalue
            split at h
            · next hassign _ => exact ihinline _ _ _ _ _ (hes.assign ht hassign) h
            · next hassign _ =>
              cases h
              exact (hes.assign ht hassign).nodup_toTrees
            · cases h
        · cases h

/-! ## Lines -/

theorem distinct_of_readAssignment {es es' : Entries} {header : List String} {cs r : List Char}
    (hes : es.Distinct) (h : readAssignment es header cs = some (es', r)) : es'.Distinct := by
  obtain ⟨⟨path, r₁⟩, -, h⟩ := Option.bind_eq_some_iff.1 h
  obtain ⟨r₂, -, h⟩ := Option.bind_eq_some_iff.1 h
  obtain ⟨⟨t, r₃⟩, hvalue, h⟩ := Option.bind_eq_some_iff.1 h
  obtain ⟨es₁, hassign, h⟩ := Option.bind_eq_some_iff.1 h
  obtain ⟨r₄, -, h⟩ := Option.bind_eq_some_iff.1 h
  cases h
  exact hes.assignIn ((nodup_of_scan _).1 _ _ _ _ hvalue) hassign

theorem distinct_of_readHeader {es es' : Entries} {repeated : Bool} {cs r : List Char}
    {header : List String} (hes : es.Distinct)
    (h : readHeader es repeated cs = some (es', header, r)) : es'.Distinct := by
  obtain ⟨⟨path, r₁⟩, -, h⟩ := Option.bind_eq_some_iff.1 h
  obtain ⟨r₂, -, h⟩ := Option.bind_eq_some_iff.1 h
  cases repeated with
  | true =>
    obtain ⟨r₃, -, h⟩ := Option.bind_eq_some_iff.1 h
    obtain ⟨es₁, hopen, h⟩ := Option.bind_eq_some_iff.1 h
    obtain ⟨r₄, -, h⟩ := Option.bind_eq_some_iff.1 h
    cases h
    exact hes.openElement hopen
  | false =>
    obtain ⟨es₁, hopen, h⟩ := Option.bind_eq_some_iff.1 h
    obtain ⟨r₄, -, h⟩ := Option.bind_eq_some_iff.1 h
    cases h
    exact hes.openTable hopen

theorem distinct_of_readLines {fuel : ℕ} {es es' : Entries} {header : List String}
    {cs : List Char} (hes : es.Distinct) (h : readLines fuel es header cs = some es') :
    es'.Distinct := by
  induction fuel generalizing es header cs with
  | zero =>
    rw [readLines] at h
    cases h
    exact hes
  | succ fuel ih =>
    rw [readLines] at h
    split at h
    · cases h
      exact hes
    · obtain ⟨⟨es₁, header₁, r⟩, hheader, h⟩ := Option.bind_eq_some_iff.1 h
      exact ih (distinct_of_readHeader hes hheader) h
    · obtain ⟨⟨es₁, header₁, r⟩, hheader, h⟩ := Option.bind_eq_some_iff.1 h
      exact ih (distinct_of_readHeader hes hheader) h
    · split at h
      · exact ih hes h
      · obtain ⟨⟨es₁, r⟩, hassign, h⟩ := Option.bind_eq_some_iff.1 h
        exact ih (distinct_of_readAssignment hes hassign) h

theorem keysNodup_toTree {node : Node} (h : node.Distinct) :
    node.toTree.KeysNodup := by
  cases h with
  | value h => exact h
  | table hkeys h => exact Entries.Distinct.nodup_toTrees ⟨hkeys, h⟩
  | tables => exact List.nodup_nil

/-- **No key stands twice in a TOML document**, neither at its top nor in the table under a key. -/
theorem keysNodup_of_read {s : String} {entries : List (String × Tree)}
    (h : read s = some entries) :
    (Tree.table entries).KeysNodup ∧ ∀ e ∈ entries, e.2.KeysNodup := by
  obtain ⟨es, hes, rfl⟩ := Option.map_eq_some_iff.1 h
  have hdistinct := distinct_of_readLines .nil hes
  refine ⟨hdistinct.nodup_toTrees, fun e he => ?_⟩
  rw [entriesToTrees_eq_map] at he
  obtain ⟨e', he', rfl⟩ := List.mem_map.1 he
  exact keysNodup_toTree (hdistinct.nodes e' he')

end TierBudget.Toml
