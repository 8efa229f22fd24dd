import TierBudget.Session
import TierBudget.Proofs.Budget
/-!
# The ids of a tier

Edits treat the endpoints of a tier as an ordered set of ids, whatever they do to the weights:
attaching appends, detaching erases, setting a weight keeps them. So distinct ids stay distinct, and
a tier keeps its own id.
-/

namespace TierBudget

namespace Tier

variable {p : Policy} {t t' : Tier} {id : String}

@[simp] theorem map_id_fixedWeights (p : Policy) (t : Tier) :
    (t.fixedWeights p).map FixedEntry.id = t.ids := p.map_id_toFixed t.entries

/-- No count of a tier is above the scale. -/
theorem count_le_size {w : FixedEntry String} (hw : w ∈ t.fixedWeights p) :
    w.count ≤ p.scale.size := by
  have hentries : t.entries ≠ [] := fun hnil => by
    rw [fixedWeights, hnil] at hw
    cases hw
  exact (p.isBudget_toFixed hentries).count_le_size hw

@[simp] theorem ids_evenSplit (p : Policy) (ids : List String) :
    (p.evenSplit ids).map Entry.id = ids := by simp [Policy.evenSplit, Function.comp_def]

@[simp] theorem ids_ofStored (p : Policy) (id : String) (stored : List (RawEntry String)) :
    (ofStored p id stored).ids = stored.map RawEntry.id := by
  unfold ofStored ids
  split
  · simp
  · simp [Policy.ofRaw, Function.comp_def]

/-- An attached endpoint is new and comes last. -/
theorem ids_attach (h : t.attach p id = .ok t') :
    id ∉ t.ids ∧ t'.ids = t.ids ++ [id] ∧ t'.id = t.id := by
  unfold attach at h
  split at h
  · cases h
  · next hnot =>
    cases h
    exact ⟨by simpa [contains] using hnot, ids_evenSplit p _, rfl⟩

/-- A detached endpoint is gone from where it was. -/
theorem ids_detach (h : t.detach p id = .ok t') :
    id ∈ t.ids ∧ t'.ids = t.ids.erase id ∧ t'.id = t.id := by
  unfold detach at h
  split at h
  · next entries hentries =>
    cases h
    have hmem : id ∈ t.ids := by
      by_contra hnot
      rw [p.detach_eq_none_iff.2 hnot] at hentries
      cases hentries
    rw [p.detach_of_mem hmem] at hentries
    cases hentries
    exact ⟨hmem, (p.map_id_normalize _).trans (Policy.map_id_eraseP t.entries id), rfl⟩
  · cases h

/-- Setting a weight keeps the endpoints. -/
theorem ids_setWeight {unit : Float} (h : t.setWeight p id unit = .ok t') :
    id ∈ t.ids ∧ t'.ids = t.ids ∧ t'.id = t.id := by
  unfold setWeight at h
  split at h
  · cases h
  · next entries hne =>
    cases h
    have hmem : id ∈ t.ids := by
      by_contra hnot
      exact hne (p.rebalance_of_not_mem unit hnot)
    exact ⟨hmem, (p.isUnitBudget_rebalance unit hmem).map_id, rfl⟩

end Tier

namespace Session.Edit

variable {p : Policy} {t t' : Tier} {e : Edit}

theorem id_apply (h : e.apply p t = .ok t') : t'.id = t.id := by
  cases e with
  | weight id unit => exact (Tier.ids_setWeight h).2.2
  | attach id => exact (Tier.ids_attach h).2.2
  | detach id => exact (Tier.ids_detach h).2.2

/-- **Distinct ids stay distinct.** -/
theorem nodup_apply (h : e.apply p t = .ok t') (hnodup : t.ids.Nodup) : t'.ids.Nodup := by
  cases e with
  | weight id unit => rwa [(Tier.ids_setWeight h).2.1]
  | attach id =>
    obtain ⟨hnot, hids, -⟩ := Tier.ids_attach h
    rw [hids, ← List.concat_eq_append]
    exact hnodup.concat hnot
  | detach id =>
    rw [(Tier.ids_detach h).2.1]
    exact hnodup.erase id

end Session.Edit

end TierBudget
