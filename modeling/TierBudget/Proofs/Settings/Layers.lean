import TierBudget.Proofs.Settings.Documents
import TierBudget.Settings.Load
/-!
# Settings are resolved one by one

Settings come in three layers, and yet each of them can be read on its own: the environment's value
if there is one, else the file's, else the default. Only these three values are ever converted, so
what they are decides how loading ends, and nothing else in the file or the environment matters
(`Settings.layers_resolve_by_key`). The file must not replace a whole section by something else, and
the environment must not touch a section but in its settings.

The keys at the top of a file are names of paths, also where they are quoted, so a file without a
section can still set what belongs in it (`Settings.quoted_key_sets_scale`). Where they are plain, a
TOML file says just what stands in it (`Settings.resolves_iff_of_toml`).
-/

namespace TierBudget

theorem Scale.ofCount?_eq_some_iff {n : Count} {s : Scale} :
    Scale.ofCount? n = some s ↔ n = s.size := by
  unfold ofCount?
  constructor
  · intro h
    split at h
    · rw [← Option.some.inj h]
    · cases h
  · rintro rfl
    rw [dif_pos s.size_pos]

/-! ## The environment -/

namespace Environment

/-- A variable sets a single value. -/
theorem value_ne_table (s : String) (es : List (String × Tree)) : value s ≠ .table es := by
  unfold value
  split
  · nofun
  · split
    · nofun
    · cases hint : (readInt s).bind Tree.integer? with
      | some t =>
        obtain ⟨n, -, hn⟩ := Option.bind_eq_some_iff.1 hint
        rw [Option.getD_some, Tree.eq_of_integer? hn]
        nofun
      | none =>
        cases readFloat s with
        | some x => nofun
        | none => nofun

theorem ne_table_of_mem_settings {vars : List Variable} {x : String × Tree}
    (h : x ∈ settings vars) (es : List (String × Tree)) : x.2 ≠ .table es := by
  obtain ⟨y, -, hy⟩ := List.mem_filterMap.1 h
  obtain ⟨p, -, rfl⟩ := Option.map_eq_some_iff.1 hy
  exact value_ne_table y.2 es

/-- What the environment says of a setting: the value of the last variable that names it. -/
def setting? (vars : List Variable) (s n : String) : Option Tree :=
  Tree.lastAt (settings vars) [.key s, .key n]

end Environment

namespace Settings

/-! ## Converting values -/

theorem scale?_eq_some_iff {v : Tree} {s : Scale} :
    scale? v = some s ↔ whole? v = some s.size.toNat := by
  unfold scale?
  cases whole? v with
  | none => simp
  | some n =>
    have hscale : (some n >>= fun n => if n < UInt32.size then Scale.ofCount? (.ofNat n) else none) =
        some s ↔ n < UInt32.size ∧ Scale.ofCount? (.ofNat n) = some s := by
      simp
    rw [hscale, Scale.ofCount?_eq_some_iff, Option.some.injEq]
    constructor
    · rintro ⟨h, hn⟩
      rw [← hn, UInt32.toNat_ofNat_of_lt' h]
    · rintro rfl
      exact ⟨s.size.toNat_lt, UInt32.ofNat_toNat⟩

/-- A default and nothing at all convert alike. -/
theorem orDefault_eq_of_over {α : Type} {convert : Tree → Option α} {value : α} {d : Tree}
    {t f : Option Tree} (hd : convert d = some value) (htable : ∀ es, convert (.table es) = none)
    (h : Tree.Over (some d) t f) : orDefault convert value t = orDefault convert value f := by
  cases h with
  | same => rfl
  | value => exact hd
  | missing => exact absurd hd (by rw [htable]; nofun)
  | table => exact (htable _).trans (htable _).symm

/-! ## What a tree says -/

/-- The sections of the settings. -/
def sections : List String := ["rebalance", "staging"]

/-- The settings, each with its section. -/
def keys : List (String × String) :=
  [("rebalance", "scale"), ("rebalance", "percent_epsilon"), ("staging", "require_settled")]

/-- The paths of the settings. -/
def paths : List Path := keys.map fun key => [.key key.1, .key key.2]

/-- The settings that given values of the three convert to. -/
structure Resolves (value : String → String → Option Tree) (c : Settings) : Prop where
  scale : orDefault scale? default (value "rebalance" "scale") = some c.policy.scale
  epsilon : orDefault number? Policy.defaultEpsilon (value "rebalance" "percent_epsilon") =
    some c.policy.percentEpsilon
  settled : orDefault bool? true (value "staging" "require_settled") = some c.requireSettled

theorem resolves_iff_of_eq {value other : String → String → Option Tree} {c : Settings}
    (hscale : orDefault scale? default (value "rebalance" "scale") =
      orDefault scale? default (other "rebalance" "scale"))
    (hepsilon : orDefault number? Policy.defaultEpsilon (value "rebalance" "percent_epsilon") =
      orDefault number? Policy.defaultEpsilon (other "rebalance" "percent_epsilon"))
    (hsettled : orDefault bool? true (value "staging" "require_settled") =
      orDefault bool? true (other "staging" "require_settled")) :
    Resolves value c ↔ Resolves other c := by
  constructor
  · rintro ⟨h₁, h₂, h₃⟩
    exact ⟨hscale ▸ h₁, hepsilon ▸ h₂, hsettled ▸ h₃⟩
  · rintro ⟨h₁, h₂, h₃⟩
    exact ⟨hscale ▸ h₁, hepsilon ▸ h₂, hsettled ▸ h₃⟩

theorem Resolves.of_eq {value other : String → String → Option Tree} {c : Settings}
    (hc : Resolves value c) (h : ∀ key ∈ keys, other key.1 key.2 = value key.1 key.2) :
    Resolves other c :=
  (resolves_iff_of_eq (congrArg _ (h ("rebalance", "scale") (by decide)))
    (congrArg _ (h ("rebalance", "percent_epsilon") (by decide)))
    (congrArg _ (h ("staging", "require_settled") (by decide)))).2 hc

theorem member?_lookup {t : Tree} {s : String} (h : t.IsTableAt s) (n : String) (position : Nat) :
    member? n position (t.entries.lookup s) = some (t.setting? s n) := by
  rw [Tree.setting?]
  cases hs : t.entries.lookup s with
  | none => rfl
  | some u =>
    obtain ⟨es, rfl⟩ := h u hs
    rfl

/-- **The settings in a tree whose sections are tables.** -/
theorem ofTree?_eq_some_iff {t : Tree} {c : Settings} (h : ∀ s ∈ sections, t.IsTableAt s) :
    ofTree? t = some c ↔ Resolves t.setting? c := by
  have hrebalance : t.IsTableAt "rebalance" := h _ (by decide)
  have hstaging : t.IsTableAt "staging" := h _ (by decide)
  have hresolves : ofTree? t = some c ↔ ∃ scale,
      orDefault scale? default (t.setting? "rebalance" "scale") = some scale ∧ ∃ epsilon,
      orDefault number? Policy.defaultEpsilon (t.setting? "rebalance" "percent_epsilon") =
        some epsilon ∧ ∃ settled,
      orDefault bool? true (t.setting? "staging" "require_settled") = some settled ∧
        ⟨⟨scale, epsilon⟩, settled⟩ = c := by
    simp [ofTree?, member?_lookup hrebalance, member?_lookup hstaging, Option.bind_eq_some_iff]
  rw [hresolves]
  constructor
  · rintro ⟨scale, hscale, epsilon, hepsilon, settled, hsettled, rfl⟩
    exact ⟨hscale, hepsilon, hsettled⟩
  · rintro ⟨hscale, hepsilon, hsettled⟩
    exact ⟨_, hscale, _, hepsilon, _, hsettled, rfl⟩

/-! ## Layers -/

/-- What a file says, its keys being names of paths. -/
def fileTree (entries : List (String × Tree)) : Tree := (Tree.table []).putAll entries

/-- The value of a setting: the environment's if there is one, else the file's. -/
def resolved (file : Tree) (vars : List Variable) (s n : String) : Option Tree :=
  (Environment.setting? vars s n).or (file.setting? s n)

/-- A file in which nothing but a table takes the place of a section, and variables that touch
sections only in their settings. -/
structure WellPlaced (file : SettingsFile) (vars : List Variable) : Prop where
  file : ∀ entries, file.entries? = some entries →
    ∀ s ∈ sections, (fileTree entries).IsTableAt s
  vars : ∀ x ∈ Environment.settings vars, ∀ s ∈ sections,
    (Path.ofName x.1).head? = some (.key s) → Path.ofName x.1 ∈ paths

/-- A tree on the defaults is that tree, with defaults where it says nothing. -/
theorem over_fileTree (entries : List (String × Tree)) :
    Tree.Over (some defaults.toTree) (some (defaults.toTree.putAll entries))
      (some (fileTree entries)) := by
  have hvalues (es : List (String × Tree)) (h : ∀ e ∈ es, e.2.entries = [] ∧ e.2.elements = []) :
      Tree.Over (some (.table es)) (some (.table es)) none :=
    .missing (.lookup_defaults fun e he => .value (h e he).1 (h e he).2)
  have hsections : Tree.Over (some defaults.toTree) (some defaults.toTree) (some (.table [])) := by
    refine .table (.lookup_defaults fun e he => ?_)
    simp only [Option.getD_some, toTree, Tree.entries, List.mem_cons, List.not_mem_nil,
      or_false] at he
    obtain rfl | rfl := he
    · exact hvalues _ (by simp [Tree.entries, Tree.elements])
    · exact hvalues _ (by simp [Tree.entries, Tree.elements])
  exact hsections.putAll entries

section

variable {file : SettingsFile} {vars : List Variable} {entries : List (String × Tree)}

theorem WellPlaced.respects (h : WellPlaced file vars) {s : String} (hs : s ∈ sections) :
    ∀ x ∈ Environment.settings vars, Path.Respects s (.ofName x.1) := by
  intro x hx hhead
  obtain ⟨key, -, hkey⟩ := List.mem_map.1 (h.vars x hx s hs hhead)
  rw [← hkey] at hhead ⊢
  cases hhead
  exact ⟨key.2, rfl⟩

/-- The sections of the layers are tables. -/
theorem WellPlaced.isTableAt (h : WellPlaced file vars) (hentries : file.entries? = some entries)
    {s : String} (hs : s ∈ sections) : (layered entries vars).IsTableAt s := by
  refine Tree.IsTableAt.putAll (h.respects hs)
    (fun x hx => Environment.ne_table_of_mem_settings hx) ?_
  intro u hu
  have hover := (over_fileTree entries).lookup s
  have hfile := h.file entries hentries s hs
  simp only [sections, List.mem_cons, List.not_mem_nil, or_false] at hs
  obtain rfl | rfl := hs
  · exact hover.eq_table hfile hu
  · exact hover.eq_table hfile hu

/-- **Each setting in the layers is the environment's, or else the file's or its default.** -/
theorem orDefault_layered {α : Type} {convert : Tree → Option α} {value : α} {s n : String}
    (h : WellPlaced file vars) (hs : s ∈ sections) {d : Tree}
    (hd : defaults.toTree.setting? s n = some d) (hconvert : convert d = some value)
    (htable : ∀ es, convert (.table es) = none) :
    orDefault convert value ((layered entries vars).setting? s n) =
      orDefault convert value (resolved (fileTree entries) vars s n) := by
  have hover := ((over_fileTree entries).lookup s).lookup n
  have hfile : orDefault convert value ((defaults.toTree.putAll entries).setting? s n) =
      orDefault convert value ((fileTree entries).setting? s n) := by
    refine orDefault_eq_of_over hconvert htable ?_
    rw [← hd]
    exact hover
  rw [layered, Tree.setting?_putAll (h.respects hs)
    fun x hx => Environment.ne_table_of_mem_settings hx, resolved, Environment.setting?]
  cases Tree.lastAt (Environment.settings vars) [.key s, .key n] with
  | some v => rfl
  | none => exact hfile

/-- The settings in the layers are those that the resolved values convert to. -/
theorem resolves_layered_iff (h : WellPlaced file vars) {c : Settings} :
    Resolves (layered entries vars).setting? c ↔ Resolves (resolved (fileTree entries) vars) c :=
  resolves_iff_of_eq (orDefault_layered h (by decide) rfl rfl fun _ => rfl)
    (orDefault_layered h (by decide) rfl rfl fun _ => rfl)
    (orDefault_layered h (by decide) rfl rfl fun _ => rfl)

end

/-! ## Plain files -/

section

variable {entries : List (String × Tree)} (hplain : ∀ e ∈ entries, Path.ofName e.1 = [.key e.1])

include hplain

/-- A file with plain keys is laid on nothing as it is. -/
theorem fileTree_of_plain : fileTree entries = Tree.nothing.overlay (.table entries) :=
  Tree.putAll_of_plain hplain []

variable (hkeys : (Tree.table entries).KeysNodup)

include hkeys

theorem isTableAt_fileTree {s : String} (h : (Tree.table entries).IsTableAt s) :
    (fileTree entries).IsTableAt s := by
  intro u hu
  rw [fileTree_of_plain hplain, Tree.entries_nothing_overlay, Tree.lookup_overlayEntries hkeys,
    List.lookup_nil, Option.or_none] at hu
  obtain ⟨v, hv, rfl⟩ := Option.map_eq_some_iff.1 hu
  obtain ⟨es, rfl⟩ := h v hv
  exact ⟨_, rfl⟩

variable (hsections : ∀ e ∈ entries, e.2.KeysNodup)

include hsections

theorem orDefault_resolved_of_plain {α : Type} {convert : Tree → Option α} {value : α}
    (htable : ∀ es, convert (.table es) = none) (vars : List Variable) (s n : String) :
    orDefault convert value (resolved (fileTree entries) vars s n) =
      orDefault convert value (resolved (.table entries) vars s n) := by
  have hsection : ((entries.lookup s).getD .nothing).KeysNodup := by
    cases hs : entries.lookup s with
    | none => exact Tree.keysNodup_of_entries_eq_nil rfl
    | some v =>
      obtain ⟨l, r, rfl, -⟩ := List.lookup_eq_some_iff.1 hs
      exact hsections (s, v) (List.mem_append_right _ List.mem_cons_self)
  -- only tables change when they are laid on nothing, and they convert to nothing anyway
  have hconvert (v : Tree) : convert (Tree.nothing.overlay v) = convert v := by
    cases v with
    | table es => exact (htable _).trans (htable es).symm
    | _ => rfl
  rw [resolved, resolved, fileTree_of_plain hplain, Tree.setting?_overlay_nothing hkeys hsection]
  cases Environment.setting? vars s n with
  | some v => rfl
  | none =>
    cases (Tree.table entries).setting? s n with
    | none => rfl
    | some v => exact hconvert v

/-- **A file with plain keys says what stands in it.** -/
theorem resolves_iff_of_plain {vars : List Variable} {c : Settings} :
    Resolves (resolved (fileTree entries) vars) c ↔ Resolves (resolved (.table entries) vars) c :=
  resolves_iff_of_eq (orDefault_resolved_of_plain hplain hkeys hsections (fun _ => rfl) _ _ _)
    (orDefault_resolved_of_plain hplain hkeys hsections (fun _ => rfl) _ _ _)
    (orDefault_resolved_of_plain hplain hkeys hsections (fun _ => rfl) _ _ _)

end

/-- The entries of a TOML file are those of a document. -/
theorem read_of_toml {s : String} {entries : List (String × Tree)}
    (h : (SettingsFile.text .toml s).entries? = some entries) :
    Toml.read (Format.dropMark s) = some entries := by
  change Format.toml.read s = some entries at h
  unfold Format.read at h
  split at h
  · next es hes =>
    cases h
    obtain ⟨es', hread, heq⟩ := Option.map_eq_some_iff.1 hes
    cases heq
    exact hread
  · cases h

section

variable {s : String} {entries : List (String × Tree)}
  (hentries : (SettingsFile.text .toml s).entries? = some entries)
  (hplain : ∀ e ∈ entries, Path.ofName e.1 = [.key e.1]) {vars : List Variable}

include hentries hplain

theorem resolves_iff_of_toml {c : Settings} :
    Resolves (resolved (fileTree entries) vars) c ↔ Resolves (resolved (.table entries) vars) c :=
  have ⟨hkeys, hsections⟩ := Toml.keysNodup_of_read (read_of_toml hentries)
  resolves_iff_of_plain hplain hkeys hsections

/-- A TOML file with plain keys is well-placed if its sections are tables. -/
theorem WellPlaced.of_toml (htables : ∀ k ∈ sections, (Tree.table entries).IsTableAt k)
    (hvars : ∀ x ∈ Environment.settings vars, ∀ k ∈ sections,
      (Path.ofName x.1).head? = some (.key k) → Path.ofName x.1 ∈ paths) :
    WellPlaced (.text .toml s) vars where
  file entries' h' k hk := by
    cases Option.some.inj (hentries.symm.trans h')
    exact isTableAt_fileTree hplain (Toml.keysNodup_of_read (read_of_toml hentries)).1
      (htables k hk)
  vars := hvars

end

section

variable {file : SettingsFile} {vars : List Variable} {entries : List (String × Tree)}

/-! ## Loading -/

/-- The settings that a file and the environment have: the file can be read, and the resolved values
convert to them. -/
def Yields (file : SettingsFile) (vars : List Variable) (c : Settings) : Prop :=
  ∃ entries, file.entries? = some entries ∧ Resolves (resolved (fileTree entries) vars) c

theorem yields_iff (h : file.entries? = some entries) {c : Settings} :
    Yields file vars c ↔ Resolves (resolved (fileTree entries) vars) c := by
  constructor
  · rintro ⟨entries', h', hc⟩
    rwa [Option.some.inj (h.symm.trans h')]
  · exact fun hc => ⟨entries, h, hc⟩

theorem bind_ofTree?_eq_some_iff (h : WellPlaced file vars) {c : Settings} :
    (file.entries?.bind fun entries => ofTree? (layered entries vars)) = some c ↔
      Yields file vars c := by
  rw [Option.bind_eq_some_iff]
  refine exists_congr fun entries => and_congr_right fun hentries => ?_
  rw [ofTree?_eq_some_iff fun s hs => h.isTableAt hentries hs, resolves_layered_iff h]

/-- A tolerance that is accepted. -/
def IsTolerance (x : Float) : Prop := x.isFinite = true ∧ ¬ x < 0

theorem validate_of_isTolerance {p : Policy} (h : IsTolerance p.percentEpsilon) :
    p.validate = .ok () := if_neg (by simp [h.1, h.2])

theorem validate_of_not_isTolerance {p : Policy} (h : ¬ IsTolerance p.percentEpsilon) :
    p.validate = .error (.invalidEpsilon p.percentEpsilon) := by
  refine if_pos ?_
  rw [Bool.or_eq_true, Bool.not_eq_true', decide_eq_true_eq]
  cases hfinite : p.percentEpsilon.isFinite with
  | false => exact .inl rfl
  | true => exact .inr (Decidable.byContradiction fun hlt => h ⟨hfinite, hlt⟩)

/-- There are three ways in which loading ends. -/
theorem load_cases (h : WellPlaced file vars) :
    (∃ c, Yields file vars c ∧ IsTolerance c.policy.percentEpsilon ∧ load file vars = .ok c) ∨
    (∃ c, Yields file vars c ∧ ¬ IsTolerance c.policy.percentEpsilon ∧
      load file vars = .error (.invalid (.invalidEpsilon c.policy.percentEpsilon))) ∨
    (∀ c, ¬ Yields file vars c) ∧ load file vars = .error .unreadable := by
  unfold load
  split
  · next hnone =>
    refine .inr (.inr ⟨fun c hc => ?_, rfl⟩)
    rw [(bind_ofTree?_eq_some_iff h).2 hc] at hnone
    cases hnone
  · next c hsome =>
    have hyields := (bind_ofTree?_eq_some_iff h).1 hsome
    by_cases hx : IsTolerance c.policy.percentEpsilon
    · rw [validate_of_isTolerance hx]
      exact .inl ⟨c, hyields, hx, rfl⟩
    · rw [validate_of_not_isTolerance hx]
      exact .inr (.inl ⟨c, hyields, hx, rfl⟩)

/-- What a file and the environment yield is one thing. -/
theorem Yields.unique {c c' : Settings} (hp : WellPlaced file vars) (h : Yields file vars c)
    (h' : Yields file vars c') : c = c' :=
  Option.some.inj (((bind_ofTree?_eq_some_iff hp).2 h).symm.trans ((bind_ofTree?_eq_some_iff hp).2 h'))

theorem load_eq_ok_iff (hp : WellPlaced file vars) {c : Settings} :
    load file vars = .ok c ↔ Yields file vars c ∧ IsTolerance c.policy.percentEpsilon := by
  obtain ⟨c', hc', hx, hload⟩ | ⟨c', hc', hx, hload⟩ | ⟨hno, hload⟩ := load_cases hp
  · rw [hload, Except.ok.injEq]
    constructor
    · rintro rfl
      exact ⟨hc', hx⟩
    · exact fun ⟨hc, _⟩ => hc'.unique hp hc
  · rw [hload]
    exact iff_of_false nofun fun ⟨hc, hok⟩ => hx (hc.unique hp hc' ▸ hok)
  · rw [hload]
    exact iff_of_false nofun fun ⟨hc, _⟩ => hno c hc

theorem load_eq_invalid_iff (hp : WellPlaced file vars) {e : PolicyError} :
    load file vars = .error (.invalid e) ↔ ∃ c, Yields file vars c ∧
      ¬ IsTolerance c.policy.percentEpsilon ∧ e = .invalidEpsilon c.policy.percentEpsilon := by
  obtain ⟨c', hc', hx, hload⟩ | ⟨c', hc', hx, hload⟩ | ⟨hno, hload⟩ := load_cases hp
  · rw [hload]
    exact iff_of_false nofun fun ⟨c, hc, hnot, _⟩ => hnot (hc'.unique hp hc ▸ hx)
  · rw [hload, Except.error.injEq, SettingsError.invalid.injEq]
    constructor
    · rintro rfl
      exact ⟨c', hc', hx, rfl⟩
    · rintro ⟨c, hc, -, rfl⟩
      rw [hc.unique hp hc']
  · rw [hload]
    exact iff_of_false nofun fun ⟨c, hc, _⟩ => hno c hc

theorem load_eq_unreadable_iff (hp : WellPlaced file vars) :
    load file vars = .error .unreadable ↔ ∀ c, ¬ Yields file vars c := by
  obtain ⟨c, hc, -, hload⟩ | ⟨c, hc, -, hload⟩ | ⟨hno, hload⟩ := load_cases hp
  · rw [hload]
    exact iff_of_false nofun fun hno => hno c hc
  · rw [hload]
    exact iff_of_false nofun fun hno => hno c hc
  · rw [hload]
    exact iff_of_true rfl hno

/-- Only whether the file can be read and the resolved values decide what is yielded. -/
theorem Yields.of_resolved_eq {file' : SettingsFile} {vars' : List Variable} {c : Settings}
    (hc : Yields file vars c) (hreads : file'.entries?.isSome = file.entries?.isSome)
    (h : ∀ entries entries', file.entries? = some entries → file'.entries? = some entries' →
      ∀ key ∈ keys, resolved (fileTree entries') vars' key.1 key.2 =
        resolved (fileTree entries) vars key.1 key.2) : Yields file' vars' c := by
  obtain ⟨entries, hentries, hresolves⟩ := hc
  obtain ⟨entries', hentries'⟩ : ∃ entries', file'.entries? = some entries' :=
    Option.isSome_iff_exists.1 (by rw [hreads, hentries, Option.isSome_some])
  exact ⟨entries', hentries', hresolves.of_eq (h entries entries' hentries hentries')⟩

/-- Loading depends on what is yielded, and on nothing else. -/
theorem load_congr {file' : SettingsFile} {vars' : List Variable} (hp : WellPlaced file vars)
    (hp' : WellPlaced file' vars') (h : ∀ c, Yields file vars c ↔ Yields file' vars' c) :
    load file vars = load file' vars' := by
  have hbind : (file.entries?.bind fun entries => ofTree? (layered entries vars)) =
      file'.entries?.bind fun entries => ofTree? (layered entries vars') := by
    refine Option.ext fun c => ?_
    rw [bind_ofTree?_eq_some_iff hp, bind_ofTree?_eq_some_iff hp', h]
  rw [load, load, hbind]

end

/-- **Settings are resolved one by one.** A well-placed file and environment load exactly to the
settings that the three resolved values convert to, if the file can be read and the tolerance is
accepted; a tolerance that is not is all that can be invalid; and in every other case they are
unreadable. So two of them that agree on whether the file can be read, on the settings that the
environment sets, and on what the file says of the other ones, end alike, whatever else they hold. A
value converts to a scale if it is a whole number in the range of scales, and a TOML file with plain
keys says just what stands in it. -/
theorem layers_resolve_by_key (file : SettingsFile) (vars : List Variable)
    (h : WellPlaced file vars) :
    (∀ c, load file vars = .ok c ↔
      Yields file vars c ∧ IsTolerance c.policy.percentEpsilon) ∧
    (∀ e, load file vars = .error (.invalid e) ↔ ∃ c, Yields file vars c ∧
      ¬ IsTolerance c.policy.percentEpsilon ∧ e = .invalidEpsilon c.policy.percentEpsilon) ∧
    (load file vars = .error .unreadable ↔ ∀ c, ¬ Yields file vars c) ∧
    (∀ file' vars', WellPlaced file' vars' →
      file'.entries?.isSome = file.entries?.isSome →
      (∀ key ∈ keys, Environment.setting? vars' key.1 key.2 =
        Environment.setting? vars key.1 key.2) →
      (∀ entries entries', file.entries? = some entries → file'.entries? = some entries' →
        ∀ key ∈ keys, Environment.setting? vars key.1 key.2 = none →
          (fileTree entries').setting? key.1 key.2 = (fileTree entries).setting? key.1 key.2) →
      load file' vars' = load file vars) ∧
    (∀ v s, scale? v = some s ↔ whole? v = some s.size.toNat) ∧
    ∀ s entries, file = .text .toml s → file.entries? = some entries →
      (∀ e ∈ entries, Path.ofName e.1 = [.key e.1]) →
      ∀ c, Yields file vars c ↔ Resolves (resolved (.table entries) vars) c := by
  refine ⟨fun c => load_eq_ok_iff h, fun e => load_eq_invalid_iff h, load_eq_unreadable_iff h,
    fun file' vars' h' hreads henv hfile => load_congr h' h fun c => ?_,
    fun v s => scale?_eq_some_iff, fun s entries hs hentries hplain c => ?_⟩
  · have hresolved : ∀ entries entries', file.entries? = some entries →
        file'.entries? = some entries' → ∀ key ∈ keys,
          resolved (fileTree entries') vars' key.1 key.2 =
            resolved (fileTree entries) vars key.1 key.2 := by
      intro entries entries' hentries hentries' key hkey
      rw [resolved, resolved, henv key hkey]
      cases hset : Environment.setting? vars key.1 key.2 with
      | some v => rfl
      | none => rw [hfile entries entries' hentries hentries' key hkey hset]
    constructor
    · intro hc
      refine hc.of_resolved_eq hreads.symm fun entries' entries hentries' hentries key hkey => ?_
      exact (hresolved entries entries' hentries hentries' key hkey).symm
    · exact fun hc => hc.of_resolved_eq hreads hresolved
  · subst hs
    exact (yields_iff hentries).trans (resolves_iff_of_toml hentries hplain)

/-- A scale that is no number and a key that is no setting do no harm, if the environment sets the
scale. -/
theorem layers_resolve_by_key_shadowed :
    let file : SettingsFile := .text .toml "[rebalance]\nscale = \x22many\x22\nscales = 7\n"
    let vars := [("TIERWEIGHT_REBALANCE__SCALE", "50"), ("TIERWEIGHT_LOG", "debug")]
    WellPlaced file vars ∧ WellPlaced .absent vars ∧ load .absent vars = load file vars := by
  intro file vars
  have hvars : ∀ x ∈ Environment.settings vars, ∀ s ∈ sections,
      (Path.ofName x.1).head? = some (.key s) → Path.ofName x.1 ∈ paths := by decide +kernel
  obtain ⟨entries, hentries⟩ : ∃ entries, file.entries? = some entries :=
    Option.isSome_iff_exists.1 (by decide +kernel)
  have hget : file.entries?.getD [] = entries := by rw [hentries, Option.getD_some]
  have hplain : ∀ e ∈ entries, Path.ofName e.1 = [.key e.1] := by
    rw [← hget]
    decide +kernel
  have htables : ∀ s ∈ sections, (Tree.table entries).IsTableAt s := by
    rw [← hget]
    decide +kernel
  have hfile : WellPlaced file vars := .of_toml hentries hplain htables hvars
  have habsent : WellPlaced .absent vars := by
    refine ⟨fun entries' h' => ?_, hvars⟩
    cases h'
    decide +kernel
  refine ⟨hfile, habsent, (layers_resolve_by_key file vars hfile).2.2.2.1 .absent vars habsent ?_
    (fun _ _ => rfl) fun entries' es h' hes key hkey hnone => ?_⟩
  · rw [hentries]
    rfl
  · cases hes
    cases Option.some.inj (hentries.symm.trans h')
    -- the environment sets the scale, and of the other two the file says nothing
    have hsays : ∀ key ∈ keys, (Environment.setting? vars key.1 key.2).isSome = true ∨
        ((fileTree entries).setting? key.1 key.2).isNone = true := by
      rw [← hget]
      decide +kernel
    rcases hsays key hkey with hset | hsilent
    · rw [hnone] at hset
      cases hset
    · rw [Option.isNone_iff_eq_none.1 hsilent]
      rfl

/-- A file without sections sets the scale all the same. -/
theorem quoted_key_sets_scale :
    let file : SettingsFile := .text .toml "\x22rebalance.scale\x22 = 50\n"
    (∃ entries, file.entries? = some entries ∧ ∀ s ∈ sections, entries.lookup s = none) ∧
      load file [] = .ok ⟨⟨⟨50, by decide⟩, Policy.defaultEpsilon⟩, true⟩ ∧
      load file [] ≠ load .absent [] := by
  intro file
  obtain ⟨entries, hentries⟩ : ∃ entries, file.entries? = some entries :=
    Option.isSome_iff_exists.1 (by decide +kernel)
  have hget : file.entries?.getD [] = entries := by rw [hentries, Option.getD_some]
  have hlookup : ∀ s ∈ sections, (entries.lookup s).isNone = true := by
    rw [← hget]
    decide +kernel
  have hload : (load file []).toOption = some ⟨⟨⟨50, by decide⟩, Policy.defaultEpsilon⟩, true⟩ := by
    decide +kernel
  have hne : (load file []).toOption ≠ (load .absent []).toOption := by decide +kernel
  refine ⟨⟨entries, hentries, fun s hs => Option.isNone_iff_eq_none.1 (hlookup s hs)⟩, ?_,
    fun h => hne (congrArg _ h)⟩
  cases h : load file [] with
  | ok c =>
    rw [h] at hload
    rw [Option.some.inj hload]
  | error e =>
    rw [h] at hload
    cases hload

end Settings

end TierBudget
