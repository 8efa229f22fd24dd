import TierBudget.CommandLine.Run
import TierBudget.Proofs.Json.Codecs
import TierBudget.Proofs.RoundTrip
/-!
# Reports agree with themselves

The rows of a report take their units from the entries of a tier and their counts from apportioning
these entries once more. The entries are the units of a budget, whichever command they come from, so
the second apportionment finds the counts that the units were decoded from
(`Report.ofEntries_ofFixed`) and every row holds a count together with its own unit.

* `Json.ofCounts` spells out the JSON that counts at a scale should be reported as. A report of the
  units of a budget is written as that (`Report.toJson_ofFixed`), and its text reads as that
  (`Json.readWith_ofCounts`).
* `CommandLine.Outcome.IsReport` says of an outcome that it prints such a text, whose counts are a
  budget that decodes to the given entries. `CommandLine.reports_agree` says it of every command.
-/

namespace TierBudget

/-- Counts under the given ids, in their order, that the units of the entries are decoded from. They
add up to the scale, if there are any. -/
structure Policy.IsReported (p : Policy) (ids : List String) (entries : List (Entry String))
    (fixed : List (FixedEntry String)) : Prop where
  ids_eq : fixed.map FixedEntry.id = ids
  entries_eq : entries = fixed.map fun e => ⟨e.id, p.scale.decode e.count⟩
  sum_eq : fixed ≠ [] → (fixed.map fun e => e.count.toNat).sum = p.scale.size.toNat

/-! ## The JSON of counts -/

theorem Scale.isFinite_decode (s : Scale) (n : Count) : (s.decode n).isFinite = true := by
  rw [← s.decode_min]
  exact Binary64.isFinite_iff.2 ⟨_, s.hasValue_decode _ (s.min_size_le n)⟩

namespace Json

/-- Counts at a scale as JSON: the size of the scale, and for every endpoint its id, the unit that
its count decodes to, and the count. -/
def ofCounts (s : Scale) (fixed : List (FixedEntry String)) : Json :=
  .record [("scale", .integer s.size.toNat),
    ("weights", .array (fixed.map fun e =>
      .record [("id", .text e.id), ("unit", .float (s.decode e.count)),
        ("fixed", .integer e.count.toNat)]))]

/-- Neither a count nor a unit is lost to a reader that rounds correctly. -/
theorem reread_ofCounts (s : Scale) (fixed : List (FixedEntry String)) :
    (ofCounts s fixed).reread Numeral.toFloat = ofCounts s fixed := by
  have hunit (n : Count) :
      (Json.float (s.decode n)).reread Numeral.toFloat = .float (s.decode n) := by
    rw [reread, if_pos (s.isFinite_decode n), Numeral.toFloat_written _ (s.isFinite_decode n)]
  have htext (t : String) : (Json.text t).reread Numeral.toFloat = .text t := rfl
  simp [ofCounts, reread_record, reread_array, Function.comp_def, Codec.reread_count, hunit, htext]

theorem readWith_ofCounts (s : Scale) (fixed : List (FixedEntry String)) :
    readWith Numeral.toFloat ((ofCounts s fixed).pretty ++ "\n") = some (ofCounts s fixed) := by
  rw [pretty, readWith_write_append Spacing.isBlank_pretty _ (by simp [AreBlanks, isBlank]),
    reread_ofCounts]

end Json

/-! ## Reports of budgets -/

namespace Report

variable {p : Policy} {ids : List String} {fixed : List (FixedEntry String)}

/-- **The counts of a report are those that its units were decoded from.** -/
theorem ofEntries_ofFixed (h : p.IsBudget ids fixed)
    (hn : fixed.length * p.scale.size.toNat ≤ 2 ^ 50) :
    ofEntries p (p.ofFixed fixed) =
      ⟨p.scale, fixed.map fun e => ⟨e.id, p.scale.decode e.count, e.count⟩⟩ := by
  rw [ofEntries, Policy.toFixed_ofFixed h hn, Policy.ofFixed, List.zipWith_map_left,
    List.zipWith_self]

theorem toJson_ofFixed (h : p.IsBudget ids fixed)
    (hn : fixed.length * p.scale.size.toNat ≤ 2 ^ 50) :
    (ofEntries p (p.ofFixed fixed)).toJson = .ofCounts p.scale fixed := by
  rw [ofEntries_ofFixed h hn, toJson, List.map_map]
  rfl

end Report

namespace CommandLine

/-- The outcome prints a JSON text, and this reads as a report of the given entries, which stand
under the given ids. The reader rounds its numbers correctly. -/
def Outcome.IsReport (p : Policy) (ids : List String) (entries : List (Entry String))
    (o : Outcome) : Prop :=
  ∃ text fixed, o = .printed text [] ∧
    Json.readWith Numeral.toFloat text = some (.ofCounts p.scale fixed) ∧
      p.IsReported ids entries fixed

variable {p : Policy} {ids : List String} {entries : List (Entry String)}

theorem isReport_printReport (title : String) (h : p.IsUnitBudget ids entries)
    (hn : ids.length * p.scale.size.toNat ≤ 2 ^ 50) :
    (printReport title true (.ofEntries p entries)).IsReport p ids entries := by
  obtain ⟨fixed, hfixed, rfl⟩ := h
  rw [← hfixed.ids_eq, List.length_map] at hn
  refine ⟨_, fixed, rfl, ?_, hfixed.ids_eq, rfl, fun _ => hfixed.sum_eq⟩
  rw [Report.toJson_ofFixed hfixed hn]
  exact Json.readWith_ofCounts p.scale fixed

/-- What is normalized before it is printed may be no entries at all. -/
theorem isReport_normalize (title : String) (p : Policy) (entries : List (Entry String))
    (hn : entries.length * p.scale.size.toNat ≤ 2 ^ 50) :
    (printReport title true (.ofEntries p (p.normalize entries))).IsReport p
      (entries.map Entry.id) (p.normalize entries) := by
  by_cases hnil : entries = []
  · subst hnil
    exact ⟨_, [], rfl, Json.readWith_ofCounts p.scale [], rfl, rfl, fun h => absurd rfl h⟩
  · exact isReport_printReport title (p.isUnitBudget_normalize hnil) (by rwa [List.length_map])

theorem map_id_ofRaw (p : Policy) (raw : List (RawEntry String)) :
    (p.ofRaw raw).map Entry.id = raw.map RawEntry.id := by
  rw [Policy.ofRaw, Policy.map_id_normalize, List.map_map]
  rfl

theorem length_ofRaw (p : Policy) (raw : List (RawEntry String)) :
    (p.ofRaw raw).length = raw.length := by
  simpa using congrArg List.length (map_id_ofRaw p raw)

/-! ## The commands -/

namespace Command

variable {s : Settings} {files : Files} {input : String} {raw : List (RawEntry String)}
  (g : Generator) (entropy : UInt64)

theorem run_normalize (hraw : readWeights files input = .ok raw)
    (hn : raw.length * s.policy.scale.size.toNat ≤ 2 ^ 50) :
    ((normalize input true).run s files g entropy).IsReport s.policy (raw.map RawEntry.id)
      (s.policy.ofRaw raw) := by
  have hreport : normalizedReport s.policy files input =
      .ok (.ofEntries s.policy (s.policy.ofRaw raw)) := by
    rw [normalizedReport, hraw]
    rfl
  have h := isReport_normalize "⚖ Normalized Weights" s.policy
    (raw.map fun r => ⟨r.id, r.weight.toUnit s.policy.percentEpsilon⟩) (by rwa [List.length_map])
  rw [List.map_map] at h
  rw [run, hreport]
  exact h

theorem run_split (s : Settings) (files : Files) {ids : List String}
    (hn : ids.length * s.policy.scale.size.toNat ≤ 2 ^ 50) :
    ((split ids true).run s files g entropy).IsReport s.policy ids (s.policy.evenSplit ids) := by
  have h := isReport_normalize "⚖ Even Split" s.policy
    (ids.map fun id => ⟨id, 1 / .ofNat ids.length⟩) (by rwa [List.length_map])
  rwa [List.map_map, show Entry.id ∘ _ = id from rfl, List.map_id] at h

/-- Setting the weight of an endpoint of the file. -/
theorem run_rebalance_of_mem (hraw : readWeights files input = .ok raw)
    (hn : raw.length * s.policy.scale.size.toNat ≤ 2 ^ 50) {target : String}
    (hmem : target ∈ raw.map RawEntry.id) (unit : Float) :
    ((rebalance input target unit true).run s files g entropy).IsReport s.policy
      (raw.map RawEntry.id) (s.policy.rebalance (s.policy.ofRaw raw) target unit) := by
  rw [← map_id_ofRaw s.policy] at hmem ⊢
  have hsome : s.policy.rebalance (s.policy.ofRaw raw) target unit ≠ [] := fun hnil =>
    (s.policy.rebalance_eq_nil_iff unit).1 hnil hmem
  have hreport : rebalancedReport s.policy files input target unit =
      .ok (.ofEntries s.policy (s.policy.rebalance (s.policy.ofRaw raw) target unit)) := by
    rw [rebalancedReport, hraw]
    exact if_neg (by rwa [List.isEmpty_iff])
  rw [run, hreport]
  refine isReport_printReport _ (s.policy.isUnitBudget_rebalance unit hmem) ?_
  rwa [map_id_ofRaw, List.length_map]

theorem run_rebalance_of_not_mem (hraw : readWeights files input = .ok raw) {target : String}
    (hno : target ∉ raw.map RawEntry.id) (unit : Float) (json : Bool) :
    (rebalance input target unit json).run s files g entropy =
      .failed (.unknownEndpoint target input) := by
  rw [← map_id_ofRaw s.policy] at hno
  have hreport : rebalancedReport s.policy files input target unit =
      .error (.unknownEndpoint target input) := by
    rw [rebalancedReport, hraw]
    exact if_pos (by rw [s.policy.rebalance_of_not_mem unit hno]; rfl)
  rw [run, hreport]
  rfl

/-- Taking an endpoint out of those of the file. -/
theorem run_detach_of_mem (hraw : readWeights files input = .ok raw)
    (hn : raw.length * s.policy.scale.size.toNat ≤ 2 ^ 50) {target : String}
    (hmem : target ∈ raw.map RawEntry.id) :
    ∃ rest, s.policy.detach (s.policy.ofRaw raw) target = some rest ∧
      ((detach input target true).run s files g entropy).IsReport s.policy
        ((raw.map RawEntry.id).erase target) rest := by
  rw [← map_id_ofRaw s.policy] at hmem ⊢
  have hdetach := s.policy.detach_of_mem hmem
  refine ⟨_, hdetach, ?_⟩
  have hreport : detachedReport s.policy files input target = .ok (.ofEntries s.policy
      (s.policy.normalize ((s.policy.ofRaw raw).eraseP (·.id = target)))) := by
    rw [detachedReport, hraw]
    dsimp only [bind, Except.bind]
    rw [hdetach]
    rfl
  have hlen : ((s.policy.ofRaw raw).eraseP (·.id = target)).length ≤ raw.length := by
    rw [← length_ofRaw s.policy raw]
    exact List.length_eraseP_le
  rw [run, hreport, ← Policy.map_id_eraseP]
  exact isReport_normalize _ s.policy _ ((Nat.mul_le_mul_right _ hlen).trans hn)

theorem run_detach_of_not_mem (hraw : readWeights files input = .ok raw) {target : String}
    (hno : target ∉ raw.map RawEntry.id) (json : Bool) :
    (detach input target json).run s files g entropy =
      .failed (.unknownEndpoint target input) := by
  rw [← map_id_ofRaw s.policy] at hno
  have hreport : detachedReport s.policy files input target =
      .error (.unknownEndpoint target input) := by
    rw [detachedReport, hraw]
    dsimp only [bind, Except.bind]
    rw [s.policy.detach_eq_none_iff.2 hno]
    rfl
  rw [run, hreport]
  rfl

end Command

/-- What a command line leads to under settings that can be loaded. -/
theorem respondWith_eq_run {words : List String} {vars : List Variable} {files : Files}
    {i : Invocation} {s : Settings} (hi : invocation words vars = .ok i)
    (hs : Settings.load (settingsFile files i.config) vars = .ok s) (g : Generator)
    (entropy : UInt64) :
    respondWith g words vars files entropy = i.command.run s files g entropy := by
  rw [respondWith, hi]
  dsimp only
  rw [Invocation.run, hs]

theorem Outcome.IsReport.exitCode_eq {p : Policy} {ids : List String}
    {entries : List (Entry String)} {o : Outcome} (h : o.IsReport p ids entries) :
    o.exitCode = 0 := by
  obtain ⟨text, fixed, rfl, -⟩ := h
  rfl

/-- **JSON reports agree with themselves.** Under settings that load, a command line that asks for a
JSON report of a file of weights prints one whose units are those of its counts and whose counts are
a budget. Only rebalancing and detaching can fail, and they do if the file lacks the target. -/
theorem reports_agree {vars : List Variable} {files : Files} {config : Option String}
    {s : Settings} (hs : Settings.load (settingsFile files config) vars = .ok s)
    (g : Generator) (entropy : UInt64) :
    let p := s.policy
    let outcome := fun words => respondWith g words vars files entropy
    (∀ input raw, readWeights files input = .ok raw →
      raw.length * p.scale.size.toNat ≤ 2 ^ 50 →
      let entries := p.ofRaw raw
      let ids := raw.map RawEntry.id
      (∀ words, invocation words vars = .ok ⟨config, .normalize input true⟩ →
        (outcome words).IsReport p ids entries) ∧
      (∀ words target unit,
        invocation words vars = .ok ⟨config, .rebalance input target unit true⟩ →
        ((outcome words).exitCode = 1 ↔ target ∉ ids) ∧
        if target ∈ ids then (outcome words).IsReport p ids (p.rebalance entries target unit)
        else outcome words = .failed (.unknownEndpoint target input)) ∧
      ∀ words target, invocation words vars = .ok ⟨config, .detach input target true⟩ →
        ((outcome words).exitCode = 1 ↔ target ∉ ids) ∧
        if target ∈ ids then ∃ rest, p.detach entries target = some rest ∧
          (outcome words).IsReport p (ids.erase target) rest
        else outcome words = .failed (.unknownEndpoint target input)) ∧
    ∀ words members, invocation words vars = .ok ⟨config, .split members true⟩ →
      members.length * p.scale.size.toNat ≤ 2 ^ 50 →
      (outcome words).IsReport p members (p.evenSplit members) := by
  intro p outcome
  have hrun {words command} (hi : invocation words vars = .ok ⟨config, command⟩) :
      outcome words = command.run s files g entropy := respondWith_eq_run hi hs g entropy
  refine ⟨fun input raw hraw hn => ⟨fun words hi => ?_, fun words target unit hi => ?_,
    fun words target hi => ?_⟩, fun words members hi hn => ?_⟩
  · rw [hrun hi]
    exact Command.run_normalize g entropy hraw hn
  · rw [hrun hi]
    split
    · next hmem =>
      have hreport := Command.run_rebalance_of_mem g entropy hraw hn hmem unit
      exact ⟨by simp [hreport.exitCode_eq, hmem], hreport⟩
    · next hno =>
      have hfail := Command.run_rebalance_of_not_mem (s := s) g entropy hraw hno unit true
      exact ⟨by simp [hfail, hno, Outcome.exitCode], hfail⟩
  · rw [hrun hi]
    split
    · next hmem =>
      obtain ⟨rest, hrest, hreport⟩ := Command.run_detach_of_mem g entropy hraw hn hmem
      exact ⟨by simp [hreport.exitCode_eq, hmem], rest, hrest, hreport⟩
    · next hno =>
      have hfail := Command.run_detach_of_not_mem (s := s) g entropy hraw hno true
      exact ⟨by simp [hfail, hno, Outcome.exitCode], hfail⟩
  · rw [hrun hi]
    exact Command.run_split g entropy s files hn

/-- A file of two endpoints, a percentage and a fraction. -/
def twoWeights : List (RawEntry String) := [⟨"a", ⟨30, none⟩⟩, ⟨"b", ⟨0.5, none⟩⟩]

/-- One endpoint of two is detached, which leaves the whole scale to the other, and one that is not
in the file. -/
theorem reports_agree_detach :
    let files : Files := [("tier.json", Codec.rawEntry.list.write twoWeights)]
    let words := fun target => ["detach", "-i", "tier.json", "--target", target, "--json"]
    let outcome := fun target => respond (words target) [] files 0
    (∃ text, outcome "a" = .printed text [] ∧ Json.readWith Numeral.toFloat text =
      some (.ofCounts default [⟨"b", 10000⟩])) ∧
      outcome "c" = .failed (.unknownEndpoint "c" "tier.json") := by
  intro files words outcome
  have hs : Settings.load (settingsFile files none) [] = .ok default := rfl
  have hfile : files.read? "tier.json" = some (Codec.rawEntry.list.write twoWeights) := by
    simp [Files.read?, files]
  have hread : Codec.rawEntry.list.read (Codec.rawEntry.list.write twoWeights) = some _ :=
    (Codec.readsBack_list (Codec.readsBack_rawEntry Codec.keepsFinite_scaledFloat)).read_write
      (by decide +kernel)
  have hraw : readWeights files "tier.json" =
      .ok (twoWeights.map (RawEntry.mapValue fun x => (Numeral.written x).scaledFloat)) := by
    rw [readWeights, hfile]
    dsimp only
    rw [hread]
  obtain ⟨-, -, hdetach⟩ := (reports_agree hs .congruential 0).1 "tier.json" _ hraw (by decide)
  obtain ⟨rest, -, text, fixed, hprinted, htext, hfixed⟩ := (hdetach (words "a") "a" rfl).2
  have hsome : fixed ≠ [] := by
    rintro rfl
    exact absurd hfixed.ids_eq (by decide)
  have hlone : fixed = [⟨"b", 10000⟩] :=
    Policy.IsBudget.eq_lone (p := default) ⟨hfixed.ids_eq, hfixed.sum_eq hsome⟩
  exact ⟨⟨text, hprinted, hlone ▸ htext⟩, (hdetach (words "c") "c" rfl).2⟩

end CommandLine

end TierBudget
