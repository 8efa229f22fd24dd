import TierBudget.Proofs.Plans
import TierBudget.Proofs.RoundTrip
import TierBudget.Proofs.Tiers
/-!
# Tiers in step with the store

A tier is in step with the entries that a store holds for it (`InStep`) if both have the same ids,
each once, and every stored weight is the decoded count of the tier. A plan leads from one tier in
step to the next (`InStep.applyPlan`), though it lists only what changes. Reading the entries back
gives the counts of the tier again (`InStep.reload`): they are a budget in another order, which
normalizing recovers.
-/

namespace TierBudget

/-- A tier and stored entries have the same ids, each once. -/
structure SameIds (t : Tier) (stored : List (RawEntry String)) : Prop where
  nodup_ids : t.ids.Nodup
  nodup_stored : (stored.map RawEntry.id).Nodup
  mem_ids : ∀ id, id ∈ stored.map RawEntry.id ↔ id ∈ t.ids

/-- The stored entries are those of the tier. -/
structure InStep (p : Policy) (confirmed : Tier) (stored : List (RawEntry String)) : Prop where
  nodup_ids : confirmed.ids.Nodup
  nodup_stored : (stored.map RawEntry.id).Nodup
  mem_ids : ∀ id, id ∈ stored.map RawEntry.id ↔ id ∈ confirmed.ids
  weight_eq : ∀ e ∈ stored, ∀ w ∈ confirmed.fixedWeights p, w.id = e.id →
    e.weight = ⟨p.scale.decode w.count, some .fraction⟩

namespace InStep

variable {p : Policy} {confirmed staged : Tier} {stored : List (RawEntry String)}

theorem nodup_fixedWeights {t : Tier} (h : t.ids.Nodup) :
    ((t.fixedWeights p).map FixedEntry.id).Nodup := by rwa [Tier.map_id_fixedWeights]

/-- Every endpoint has a count. -/
theorem exists_fixedWeight {t : Tier} {id : String} (h : id ∈ t.ids) :
    ∃ w ∈ t.fixedWeights p, w.id = id := by
  rw [← Tier.map_id_fixedWeights p] at h
  exact List.mem_map.1 h

theorem mem_ids_of_fixedWeight {t : Tier} {w : FixedEntry String} (h : w ∈ t.fixedWeights p) :
    w.id ∈ t.ids := by
  rw [← Tier.map_id_fixedWeights p]
  exact List.mem_map_of_mem h

/-! ## Committing -/

/-- An endpoint that a plan does not list has the count that the store holds already. -/
theorem mem_updates_or {w : FixedEntry String} (hw : w ∈ staged.fixedWeights p) :
    w ∈ (CommitPlan.between p confirmed staged).updates ∨ w ∈ confirmed.fixedWeights p := by
  by_cases hc : CommitPlan.countOf? (confirmed.fixedWeights p) w.id = some w.count
  · exact .inr (CommitPlan.mem_of_countOf? hc)
  · exact .inl (CommitPlan.mem_updates_between.2 ⟨hw, hc⟩)

theorem sameIds (h : InStep p confirmed stored) : SameIds confirmed stored :=
  ⟨h.nodup_ids, h.nodup_stored, h.mem_ids⟩

end InStep

namespace SameIds

variable {p : Policy} {confirmed staged : Tier} {stored : List (RawEntry String)}

theorem nodup_updates (hstaged : staged.ids.Nodup) :
    ((CommitPlan.between p confirmed staged).updates.map FixedEntry.id).Nodup :=
  (CommitPlan.updates_between_sublist.map _).nodup (InStep.nodup_fixedWeights hstaged)

/-- A plan brings the ids of the store to those of the staged tier. -/
theorem applyPlan (h : SameIds confirmed stored) (hstaged : staged.ids.Nodup) :
    SameIds staged (Store.applyPlan p.scale (.between p confirmed staged) stored) := by
  have hu : ((CommitPlan.between p confirmed staged).updates.map FixedEntry.id).Nodup :=
    nodup_updates hstaged
  have hmem := fun e => Store.mem_applyPlan (e := e) p.scale hu h.nodup_stored
  refine ⟨hstaged, Store.nodup_applyPlan p.scale hu h.nodup_stored, fun id => ⟨?_, ?_⟩⟩
  · intro hid
    obtain ⟨e, he, rfl⟩ := List.mem_map.1 hid
    rcases (hmem e).1 he with ⟨u, hu, rfl⟩ | ⟨he, hkept, -⟩
    · exact InStep.mem_ids_of_fixedWeight (CommitPlan.mem_updates_between.1 hu).1
    · by_contra hnot
      exact hkept (CommitPlan.mem_removed_between.2
        ⟨(h.mem_ids e.id).1 (List.mem_map_of_mem he), hnot⟩)
  · intro hid
    obtain ⟨w, hw, rfl⟩ := InStep.exists_fixedWeight (p := p) hid
    by_cases hup : w.id ∈ (CommitPlan.between p confirmed staged).updates.map FixedEntry.id
    · obtain ⟨u, hu, hwu⟩ := List.mem_map.1 hup
      exact List.mem_map.2 ⟨Store.wire p.scale u, (hmem _).2 (.inl ⟨u, hu, rfl⟩), hwu⟩
    · -- not sent, so the store has it
      have hold := (InStep.mem_updates_or hw).resolve_left fun hu => hup (List.mem_map_of_mem hu)
      obtain ⟨e, he, heid⟩ :=
        List.mem_map.1 ((h.mem_ids w.id).2 (InStep.mem_ids_of_fixedWeight hold))
      refine List.mem_map.2 ⟨e, (hmem e).2 (.inr ⟨he, fun hrem => ?_, heid ▸ hup⟩), heid⟩
      exact (CommitPlan.mem_removed_between.1 hrem).2 (heid ▸ hid)

/-- After a plan an entry holds the staged count of its id, or it is an old one whose count the plan
does not change. -/
theorem eq_wire_or (h : SameIds confirmed stored) (hstaged : staged.ids.Nodup) {e : RawEntry String}
    (he : e ∈ Store.applyPlan p.scale (.between p confirmed staged) stored) {w : FixedEntry String}
    (hw : w ∈ staged.fixedWeights p) (hid : w.id = e.id) :
    e = Store.wire p.scale w ∨ e ∈ stored ∧ w ∈ confirmed.fixedWeights p ∧
      w ∉ (CommitPlan.between p confirmed staged).updates := by
  rcases (Store.mem_applyPlan p.scale (nodup_updates hstaged) h.nodup_stored).1 he with
    ⟨u, hu, rfl⟩ | ⟨he, -, hnot⟩
  · left
    rw [eq_of_map_nodup (InStep.nodup_fixedWeights hstaged) hw
      (CommitPlan.mem_updates_between.1 hu).1 hid]
  · have hkept : w ∉ (CommitPlan.between p confirmed staged).updates := fun hu =>
      hnot (hid ▸ List.mem_map_of_mem hu)
    exact .inr ⟨he, (InStep.mem_updates_or hw).resolve_left hkept, hkept⟩

end SameIds

namespace InStep

variable {p : Policy} {confirmed staged : Tier} {stored : List (RawEntry String)}

/-- **A plan brings the store in step** with the staged tier. -/
theorem applyPlan (h : InStep p confirmed stored) (hstaged : staged.ids.Nodup) :
    InStep p staged (Store.applyPlan p.scale (.between p confirmed staged) stored) := by
  obtain ⟨hnodup, hstored, hids⟩ := h.sameIds.applyPlan (p := p) hstaged
  refine ⟨hnodup, hstored, hids, fun e he w hw hid => ?_⟩
  rcases h.sameIds.eq_wire_or hstaged he hw hid with rfl | ⟨he, hold, -⟩
  · rfl
  · exact h.weight_eq e he w hold hid

/-! ## Loading -/

/-- Every stored entry is the wire form of a count. -/
theorem exists_wire (h : InStep p confirmed stored) {e : RawEntry String} (he : e ∈ stored) :
    ∃ w ∈ confirmed.fixedWeights p, Store.wire p.scale w = e := by
  obtain ⟨w, hw, hid⟩ := exists_fixedWeight (p := p) ((h.mem_ids e.id).1 (List.mem_map_of_mem he))
  refine ⟨w, hw, ?_⟩
  rw [Store.wire, hid, ← h.weight_eq e he w hw hid]

end InStep

/-- Stored entries that are wire forms of the counts are those of all counts, in another order. -/
theorem SameIds.exists_perm {p : Policy} {s : Scale} {t : Tier} {stored : List (RawEntry String)}
    (h : SameIds t stored) (hwire : ∀ e ∈ stored, ∃ w ∈ t.fixedWeights p, Store.wire s w = e) :
    ∃ fixed : List (FixedEntry String),
      fixed.Perm (t.fixedWeights p) ∧ fixed.map (Store.wire s) = stored := by
  have hfixed : ((t.fixedWeights p).map FixedEntry.id).Nodup := InStep.nodup_fixedWeights h.nodup_ids
  have : Nonempty (FixedEntry String) := ⟨⟨"", 0⟩⟩
  choose! f hmem hwire using hwire
  have hids : (stored.map f).map FixedEntry.id = stored.map RawEntry.id := by
    rw [List.map_map]
    exact List.map_congr_left fun e he => congrArg RawEntry.id (hwire e he)
  have hnodup : ((stored.map f).map FixedEntry.id).Nodup := hids ▸ h.nodup_stored
  refine ⟨stored.map f, ?_, ?_⟩
  · refine (List.perm_ext_iff_of_nodup hnodup.of_map hfixed.of_map).2 fun w => ?_
    constructor
    · intro hw
      obtain ⟨e, he, rfl⟩ := List.mem_map.1 hw
      exact hmem e he
    · intro hw
      obtain ⟨e, he, heid⟩ := List.mem_map.1 ((h.mem_ids w.id).2 (InStep.mem_ids_of_fixedWeight hw))
      have hid : (f e).id = w.id := (congrArg RawEntry.id (hwire e he)).trans heid
      exact List.mem_map.2 ⟨e, he, eq_of_map_nodup hfixed (hmem e he) hw hid⟩
  · rw [List.map_map]
    exact (List.map_congr_left hwire).trans (List.map_id _)

/-! ## Reading a budget back -/

namespace Tier

variable {p : Policy} {s : Scale} {ids : List String} {fixed : List (FixedEntry String)}

/-- Raw weights in wire form are the units of their counts, at whatever scale they were stored. -/
theorem ofRaw_wire (p : Policy) (s : Scale) (fixed : List (FixedEntry String)) :
    p.ofRaw (fixed.map (Store.wire s)) =
      p.normalize (fixed.map fun w => ⟨w.id, s.decode w.count⟩) := by
  rw [Policy.ofRaw, List.map_map]
  congr 1
  refine List.map_congr_left fun w _ => ?_
  exact congrArg (Entry.mk w.id) (s.clampUnit_decode w.count)

/-- Where there are several endpoints, loading normalizes what the store's scale decoded. -/
theorem entries_ofStored (p : Policy) (s : Scale) (hlen : fixed.length ≠ 1) (id : String) :
    (ofStored p id (fixed.map (Store.wire s))).entries =
      p.normalize (fixed.map fun w => ⟨w.id, s.decode w.count⟩) := by
  unfold ofStored
  split
  · next e hlone => exact absurd (by simpa using congrArg List.length hlone) hlen
  · rw [ofRaw_wire]

theorem fixedWeights_ofStored (p : Policy) (s : Scale) (hlen : fixed.length ≠ 1)
    (hn : fixed.length * p.scale.size.toNat ≤ 2 ^ 50) (id : String) :
    (ofStored p id (fixed.map (Store.wire s))).fixedWeights p =
      p.toFixed (fixed.map fun w => ⟨w.id, s.decode w.count⟩) := by
  rw [fixedWeights, entries_ofStored p s hlen]
  cases fixed with
  | nil => rw [List.map_nil, Policy.normalize_nil]
  | cons w rest => exact Policy.toFixed_normalize (by simp) (by simpa using hn)

/-- **A stored budget is read back as it is** if the store's scale can hold its counts; a lone
endpoint always. -/
theorem fixedWeights_ofStored_wire (h : p.IsBudget ids fixed)
    (hs : fixed.length = 1 ∨ ∀ w ∈ fixed, w.count ≤ s.size)
    (hn : fixed.length * p.scale.size.toNat ≤ 2 ^ 50) (id : String) :
    (ofStored p id (fixed.map (Store.wire s))).fixedWeights p = fixed := by
  by_cases hlen : fixed.length = 1
  · -- a lone endpoint is not read at all, but it can have stored nothing but the whole
    obtain ⟨w, rfl⟩ := List.length_eq_one_iff.1 hlen
    obtain rfl : [w.id] = ids := h.ids_eq
    have hsplit : (p.evenSplit [w.id]).map Entry.id = [w.id] := ids_evenSplit p [w.id]
    have hb : p.IsBudget _ (p.toFixed (p.evenSplit [w.id])) := p.isBudget_toFixed fun hnil => by
      simp [hnil] at hsplit
    rw [hsplit] at hb
    exact hb.eq_lone.trans h.eq_lone.symm
  · rw [fixedWeights_ofStored p s hlen hn]
    exact h.toFixed_decode (hs.resolve_left hlen) hn

end Tier

/-- **Loading wire forms keeps every count** that the store's scale can hold. -/
theorem SameIds.perm_fixedWeights_ofStored {p : Policy} {s : Scale} {t : Tier}
    {stored : List (RawEntry String)} (h : SameIds t stored)
    (hwire : ∀ e ∈ stored, ∃ w ∈ t.fixedWeights p, Store.wire s w = e)
    (hs : ∀ w ∈ t.fixedWeights p, w.count ≤ s.size)
    (hn : t.entries.length * p.scale.size.toNat ≤ 2 ^ 50) (id : String) :
    ((Tier.ofStored p id stored).fixedWeights p).Perm (t.fixedWeights p) := by
  obtain ⟨fixed, hperm, rfl⟩ := h.exists_perm hwire
  by_cases hnil : t.entries = []
  · have hempty : t.fixedWeights p = [] := by
      rw [Tier.fixedWeights, hnil]
      rfl
    obtain rfl : fixed = [] := by
      rw [hempty] at hperm
      exact hperm.eq_nil
    rw [hempty]
    exact List.Perm.refl _
  · have hsum : p.IsBudget (fixed.map FixedEntry.id) fixed :=
      ⟨rfl, (hperm.map _).sum_eq.trans (p.isBudget_toFixed hnil).sum_eq⟩
    have hlen : fixed.length = t.entries.length := by
      rw [hperm.length_eq, Tier.fixedWeights, Policy.length_toFixed]
    rw [Tier.fixedWeights_ofStored_wire hsum (.inr fun w hw => hs w (hperm.subset hw))
      (by rwa [hlen])]
    exact hperm

namespace InStep

variable {p : Policy} {confirmed : Tier} {stored : List (RawEntry String)}

/-- **Loading keeps every count.** -/
theorem perm_fixedWeights_ofStored (h : InStep p confirmed stored)
    (hn : confirmed.entries.length * p.scale.size.toNat ≤ 2 ^ 50) (id : String) :
    ((Tier.ofStored p id stored).fixedWeights p).Perm (confirmed.fixedWeights p) :=
  h.sameIds.perm_fixedWeights_ofStored (fun _ he => h.exists_wire he)
    (fun _ hw => Tier.count_le_size hw) hn id

/-- A budget that is stored is in step with the tier that is loaded from it. -/
theorem ofStored_wire {ids : List String} {fixed : List (FixedEntry String)}
    (h : p.IsBudget ids fixed) (hids : ids.Nodup)
    (hn : fixed.length * p.scale.size.toNat ≤ 2 ^ 50) (id : String) :
    InStep p (.ofStored p id (fixed.map (Store.wire p.scale)))
      (fixed.map (Store.wire p.scale)) := by
  have hwire : (fixed.map (Store.wire p.scale)).map RawEntry.id = ids := by
    rw [List.map_map, ← h.ids_eq]
    rfl
  refine ⟨?_, ?_, fun i => ?_, fun e he w hw hid => ?_⟩
  · rwa [Tier.ids_ofStored, hwire]
  · rwa [hwire]
  · rw [Tier.ids_ofStored]
  · rw [Tier.fixedWeights_ofStored_wire h (.inr fun w hw => h.count_le_size hw) hn] at hw
    obtain ⟨v, hv, rfl⟩ := List.mem_map.1 he
    have hfixed : (fixed.map FixedEntry.id).Nodup := h.ids_eq.symm ▸ hids
    obtain rfl : w = v := eq_of_map_nodup hfixed hw hv hid
    rfl

/-- **A loaded tier is in step** with the entries that it was loaded from. -/
theorem reload (h : InStep p confirmed stored)
    (hn : confirmed.entries.length * p.scale.size.toNat ≤ 2 ^ 50) (id : String) :
    InStep p (.ofStored p id stored) stored := by
  have hperm := h.perm_fixedWeights_ofStored hn id
  refine ⟨?_, h.nodup_stored, fun i => ?_, fun e he w hw hid => ?_⟩
  · rw [Tier.ids_ofStored]
    exact h.nodup_stored
  · rw [Tier.ids_ofStored]
  · exact h.weight_eq e he w (hperm.mem_iff.1 hw) hid

end InStep

end TierBudget
