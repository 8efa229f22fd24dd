import TierBudget.Proofs.Json.Codecs
/-!
# Snapshots of a store

What the snapshot of a store says is read back as it was, tier by tier and entry by entry, but for
the weights. Those are scaled from leading digits, which need not give the double that was written:
`Store.snapshot_reads_back` says what a store becomes, and exactly when it stays what it is. Reading
with correct rounding would lose nothing. A store with a weight that is not finite cannot be read
back at all.
-/

namespace TierBudget

/-! ## Stores with other weights -/

theorem map_eq_self_iff {α : Type} {f : α → α} {xs : List α} :
    xs.map f = xs ↔ ∀ x ∈ xs, f x = x := by
  have h := @List.map_inj_left _ _ xs f id
  rwa [List.map_id] at h

namespace Store

/-- The store with its weights changed. -/
def mapValues (f : Float → Float) (s : Store) : Store :=
  { s with tiers := s.tiers.map (·.map (·.mapValue f)) }

/-- A store of finite weights. -/
def IsFinite (s : Store) : Prop :=
  ∀ tier ∈ s.tiers.toList, ∀ e ∈ tier.2, e.weight.value.isFinite = true

instance (s : Store) : Decidable s.IsFinite :=
  inferInstanceAs
    (Decidable (∀ tier ∈ s.tiers.toList, ∀ e ∈ tier.2, e.weight.value.isFinite = true))

theorem mapValues_eq_self_iff {s : Store} {f : Float → Float} : s.mapValues f = s ↔
    ∀ tier ∈ s.tiers.toList, ∀ e ∈ tier.2, f e.weight.value = e.weight.value := by
  obtain ⟨scale, l, hl⟩ := s
  have hentry (e : RawEntry String) : e.mapValue f = e ↔ f e.weight.value = e.weight.value := by
    obtain ⟨id, value, d⟩ := e
    simp [RawEntry.mapValue]
  have htier (x : String × List (RawEntry String)) :
      (x.1, x.2.map (·.mapValue f)) = x ↔ ∀ e ∈ x.2, f e.weight.value = e.weight.value := by
    simp only [← hentry, ← map_eq_self_iff, Prod.ext_iff, true_and]
  simp only [mapValues, Catalogue.map, Store.mk.injEq, Catalogue.mk.injEq, true_and,
    map_eq_self_iff, htier]

end Store

/-! ## Reading a snapshot -/

namespace Codec

theorem readsBack_store {round : Numeral → Float} (hround : KeepsFinite round) :
    store.ReadsBack round Store.IsFinite (Store.mapValues fun x => round (.written x)) := by
  have htiers := readsBack_catalogue (readsBack_list (readsBack_rawEntry hround))
  have hreread (s : Store) : (store.encode s).reread round =
      .record [("scale", (scale.encode s.scale).reread round),
        ("tiers", (rawEntry.list.catalogue.encode s.tiers).reread round)] := by
    have hencode : store.encode s = .record [("scale", scale.encode s.scale),
      ("tiers", rawEntry.list.catalogue.encode s.tiers)] := rfl
    rw [hencode, Json.reread_record]
    rfl
  have hdecode (x y : Json) : store.decode (.record [("scale", x), ("tiers", y)]) =
    (scale.decode x).bind fun size => (rawEntry.list.catalogue.decode y).bind fun tiers =>
      some ⟨size, tiers⟩ := rfl
  refine ⟨fun {s} hs => ?_, fun {s} hs => ?_⟩
  · rw [hreread, hdecode, (readsBack_scale round).decode trivial, htiers.decode hs]
    rfl
  · rw [hreread, hdecode, (readsBack_scale round).decode trivial, htiers.refuse hs]
    rfl

end Codec

namespace Store

/-- The store that a snapshot text describes, its weights being read in the given way. -/
def ofSnapshotWith (round : Numeral → Float) (text : String) : Except StoreError Store :=
  match (Json.readWith round text).bind Codec.store.decode with
  | some s => .ok s
  | none => .error .malformed

theorem ofSnapshot_eq (text : String) :
    ofSnapshot text = ofSnapshotWith Numeral.scaledFloat text := rfl

theorem ofSnapshotWith_snapshot {s : Store} {round : Numeral → Float}
    (hround : Codec.KeepsFinite round) (hs : s.IsFinite) :
    ofSnapshotWith round s.snapshot = .ok (s.mapValues fun x => round (.written x)) := by
  rw [ofSnapshotWith, snapshot, Json.pretty, Json.readWith_write Json.Spacing.isBlank_pretty,
    Option.bind_some, (Codec.readsBack_store hround).decode hs]

theorem ofSnapshotWith_snapshot_of_not {s : Store} {round : Numeral → Float}
    (hround : Codec.KeepsFinite round) (hs : ¬ s.IsFinite) :
    ofSnapshotWith round s.snapshot = .error .malformed := by
  rw [ofSnapshotWith, snapshot, Json.pretty, Json.readWith_write Json.Spacing.isBlank_pretty,
    Option.bind_some, (Codec.readsBack_store hround).refuse hs]

/-- **With correct rounding nothing is lost.** -/
theorem ofSnapshotWith_toFloat {s : Store} (hs : s.IsFinite) :
    ofSnapshotWith Numeral.toFloat s.snapshot = .ok s := by
  rw [ofSnapshotWith_snapshot Codec.keepsFinite_toFloat hs,
    mapValues_eq_self_iff.2 fun tier ht e he => Numeral.toFloat_written _ (hs tier ht e he)]

/-- The text tells stores of finite weights apart. -/
theorem snapshot_inj {s t : Store} (hs : s.IsFinite) (ht : t.IsFinite) :
    s.snapshot = t.snapshot ↔ s = t := by
  refine ⟨fun h => ?_, congrArg snapshot⟩
  have hread := ofSnapshotWith_toFloat hs
  rw [h, ofSnapshotWith_toFloat ht] at hread
  exact (Except.ok.inj hread).symm

/-! ## What becomes of the weights -/

/-- What a finite weight becomes whose text is read. -/
def reread (x : Float) : Float := (Numeral.written x).scaledFloat

theorem isFinite_mapValues_reread {s : Store} (hs : s.IsFinite) :
    (s.mapValues reread).IsFinite := by
  intro tier' ht' e' he'
  obtain ⟨tier, ht, rfl⟩ := List.mem_map.1 ht'
  obtain ⟨e, he, rfl⟩ := List.mem_map.1 he'
  exact Numeral.isFinite_scaledFloat_written (hs tier ht e he)

/-- Weights of few digits stay what they are. -/
theorem reread_eq_self {x : Float} (hx : x.isFinite = true)
    (hdigits : (Numeral.written x).toDecimal.coefficient < 2 ^ 53)
    (hexp : (Numeral.written x).toDecimal.exponent.natAbs ≤ 22) : reread x = x := by
  rw [reread, Numeral.scaledFloat_eq_toFloat hdigits hexp, Numeral.toFloat_written x hx]

theorem ofSnapshot_snapshot {s : Store} (hs : s.IsFinite) :
    ofSnapshot s.snapshot = .ok (s.mapValues reread) := by
  rw [ofSnapshot_eq]
  exact ofSnapshotWith_snapshot Codec.keepsFinite_scaledFloat hs

theorem ofSnapshot_snapshot_eq_iff {s : Store} (hs : s.IsFinite) :
    ofSnapshot s.snapshot = .ok s ↔
      ∀ tier ∈ s.tiers.toList, ∀ e ∈ tier.2, reread e.weight.value = e.weight.value := by
  rw [ofSnapshot_snapshot hs, ← mapValues_eq_self_iff]
  exact ⟨Except.ok.inj, congrArg Except.ok⟩

/-- **Snapshots read back but for the weights.** The snapshot of a store of finite weights is read
as the store with each weight scaled from its leading digits, and of finite weights again: the same
scale, tiers, entries and denominations. It is the same store, and has the same text, exactly if
every weight is scaled to itself; with correct rounding it always is. A weight that is not finite
makes the snapshot unreadable either way. -/
theorem snapshot_reads_back (s : Store) :
    (s.IsFinite →
      ofSnapshot s.snapshot = .ok (s.mapValues reread) ∧ (s.mapValues reread).IsFinite ∧
      (ofSnapshot s.snapshot = .ok s ↔
        ∀ tier ∈ s.tiers.toList, ∀ e ∈ tier.2, reread e.weight.value = e.weight.value) ∧
      ((s.mapValues reread).snapshot = s.snapshot ↔ ofSnapshot s.snapshot = .ok s) ∧
      ofSnapshotWith Numeral.toFloat s.snapshot = .ok s) ∧
    (¬ s.IsFinite →
      ofSnapshot s.snapshot = .error .malformed ∧
      ofSnapshotWith Numeral.toFloat s.snapshot = .error .malformed) := by
  refine ⟨fun hs => ?_, fun hs => ?_⟩
  · have hfinite := isFinite_mapValues_reread hs
    have htext : (s.mapValues reread).snapshot = s.snapshot ↔ ofSnapshot s.snapshot = .ok s := by
      rw [snapshot_inj hfinite hs, ofSnapshot_snapshot hs]
      exact ⟨congrArg Except.ok, Except.ok.inj⟩
    exact ⟨ofSnapshot_snapshot hs, hfinite, ofSnapshot_snapshot_eq_iff hs, htext,
      ofSnapshotWith_toFloat hs⟩
  · refine ⟨?_, ofSnapshotWith_snapshot_of_not Codec.keepsFinite_toFloat hs⟩
    rw [ofSnapshot_eq]
    exact ofSnapshotWith_snapshot_of_not Codec.keepsFinite_scaledFloat hs

/-- A store of weights of few digits, a negative zero among them. -/
def plain : Store :=
  (new ⟨1000, by decide⟩).seed "primary"
    [⟨"a", 60, none⟩, ⟨"\x22\\\n", -0.0, some .percent⟩, ⟨"a", 0.25, some .fraction⟩]

/-- Weights of few digits survive a snapshot, and next to one that is not a number nothing does. -/
theorem snapshot_reads_back_plain : ofSnapshot plain.snapshot = .ok plain ∧
    ofSnapshot (plain.seed "t" [⟨"b", 0 / 0, none⟩]).snapshot = .error .malformed :=
  ⟨((snapshot_reads_back plain).1 (by decide +kernel)).2.2.1.2 (by decide +kernel),
    ((snapshot_reads_back _).2 (by decide +kernel)).1⟩

/-- One and ten elevenths, as a plan puts them. -/
def elevenths : Store := (new ⟨11, by decide⟩).put ⟨"t", [⟨"a", 1⟩, ⟨"b", 10⟩], []⟩

/-- Elevenths do not survive a snapshot. -/
theorem snapshot_changes_elevenths :
    elevenths.IsFinite ∧ ofSnapshot elevenths.snapshot ≠ .ok elevenths := by
  have hfinite : elevenths.IsFinite := by decide +kernel
  refine ⟨hfinite, fun h => ?_⟩
  rw [ofSnapshot_snapshot_eq_iff hfinite] at h
  exact absurd h (by decide +kernel)

end Store

end TierBudget
