import ComponentKb.Pipeline.Resolver
import Mathlib.Algebra.Order.BigOperators.Group.List
import Mathlib.Algebra.Order.Ring.Int

/-!
# When a page is resolved

The constructors behind the resolver check what the normalized facts do not promise: a signal has
at most 1,000 characters, a name at most 500, a primary IC is a part number, and no alias of a
module names a primary IC. Everything else they check holds of what the resolver derives.

* `categoryCandidates_passes`, `kindCandidates_passes`, `aliases_passes`: when the parts are built.
* `moduleWins_iff`: the module is the kind that scores most.
* `resolveTitled_passes`: `_resolve` returns exactly on the facts that are `Resolvable`.
* `identity_resolved_iff`: so does `resolve`, and whoever is selected has the greatest score.
-/

namespace ComponentKb.Pipeline

open ComponentKb.Catalog (Unicode)
open ComponentKb.Lib ComponentKb.Lib.Ranking

/-! ## Evidence of the page -/

variable {u : Unicode} {facts : NormalizedFacts} {canonical : ExtractedField Text}

/-- Evidence of the page itself. -/
abbrev OfPage (facts : NormalizedFacts) (evidence : List EvidenceFragment) : Prop :=
  From facts.artifact.source evidence

theorem ofPage_extracted {evidence : List EvidenceFragment}
    (h : ∀ fragment ∈ evidence, fragment.source = facts.extractedFacts.artifact.source) :
    OfPage facts evidence :=
  fun fragment hmem => (h fragment hmem).trans (congrArg _ facts.extracted)

theorem mem_fieldEvidence {α : Type} {fields : List (ExtractedField α)} {field : ExtractedField α}
    {fragment : EvidenceFragment} (hfield : field ∈ fields) (h : fragment ∈ field.evidence) :
    fragment ∈ fieldEvidence fields :=
  List.mem_flatMap.mpr ⟨field, hfield, h⟩

theorem ofPage_title {field : ExtractedField Text}
    (h : field ∈ facts.extractedFacts.titleCandidates) : OfPage facts field.evidence :=
  ofPage_extracted fun _ hfragment =>
    facts.extractedFacts.sourced _ (by simp [mem_fieldEvidence h hfragment])

theorem ofPage_signal {signal : Signal} (h : signal ∈ titleSignals facts ++ summarySignals facts ++
    detailSignals facts) : OfPage facts signal.evidence := by
  refine ofPage_extracted fun fragment hfragment => facts.extractedFacts.sourced _ ?_
  simp only [titleSignals, summarySignals, detailSignals, textSignals, sectionSignals,
    List.mem_append, List.mem_map] at h
  obtain ((⟨field, hfield, rfl⟩ | ⟨field, hfield, rfl⟩) | ((⟨field, hfield, rfl⟩ |
    ⟨field, hfield, rfl⟩) | ⟨field, hfield, rfl⟩) | ⟨field, hfield, rfl⟩) := h <;>
    simp [mem_fieldEvidence hfield hfragment]

theorem ofPage_specification {item : NormalizedSpecification} (h : item ∈ facts.specifications) :
    OfPage facts item.evidence :=
  fun _ hfragment => facts.sourced _ (by simp [List.mem_flatMap.mpr ⟨item, h, hfragment⟩])

theorem ofPage_manufacturer {item : NormalizedTextFact} (h : item ∈ facts.manufacturers) :
    OfPage facts item.evidence :=
  fun _ hfragment => facts.sourced _ (by
    have hmem := List.mem_flatMap.mpr ⟨item, h, hfragment⟩
    simp only [List.mem_append]
    tauto)

theorem ofPage_identifier {item : NormalizedIdentifier}
    (h : item ∈ facts.identifiers ++ facts.primaryIcs) : OfPage facts item.evidence :=
  fun _ hfragment => facts.sourced _ (by
    have hmem := List.mem_flatMap.mpr ⟨item, h, hfragment⟩
    simp only [List.flatMap_append, List.mem_append] at hmem ⊢
    tauto)

theorem ofPage_append {first second : List EvidenceFragment} (hfirst : OfPage facts first)
    (hsecond : OfPage facts second) : OfPage facts (first ++ second).eraseDups := by
  intro fragment h
  rw [List.mem_eraseDups, List.mem_append] at h
  exact h.elim (hfirst fragment) (hsecond fragment)

theorem mem_of_firstMatch {signals : List Signal} {tokens : List String} {signal : Signal}
    (h : firstMatch u signals tokens = some signal) : signal ∈ signals :=
  List.mem_of_find?_eq_some h

/-! ## Contributions -/

/-- Arguments that pass every check but the limit of the signal. -/
structure ScoreArguments.Sound (facts : NormalizedFacts) (arguments : ScoreArguments) : Prop where
  ruled : isRuleId arguments.ruleId = true
  reasoned : Bounded 1000 arguments.reason
  weighed : 0 < arguments.weight ∧ arguments.weight ≤ 100
  evidenced : arguments.evidence ≠ []
  sourced : OfPage facts arguments.evidence

theorem sound {ruleId signal reason : String} {weight : Int} {evidence : List EvidenceFragment}
    (hruled : isRuleId ruleId = true) (hreasoned : Bounded 1000 reason)
    (hweighed : 0 < weight ∧ weight ≤ 100) (hevidenced : evidence ≠ [])
    (hsourced : OfPage facts evidence) :
    (ScoreArguments.mk ruleId signal weight reason evidence).Sound facts :=
  ⟨hruled, hreasoned, hweighed, hevidenced, hsourced⟩

/-- The score of a candidate, from the arguments of its contributions. -/
def argumentScore (list : List ScoreArguments) : Int := min 100 (list.map (·.weight)).sum

/-- Contributions built from these arguments. -/
def Built (facts : NormalizedFacts) (list : List ScoreArguments)
    (breakdown : List ScoreContribution) : Prop :=
  breakdown.map (·.weight) = list.map (·.weight) ∧ OfPage facts (breakdownEvidence breakdown)

theorem Built.score {list : List ScoreArguments} {breakdown : List ScoreContribution}
    (h : Built facts list breakdown) : totalScore breakdown = argumentScore list := by
  rw [totalScore, argumentScore, h.1]

theorem Built.eq_nil_iff {list : List ScoreArguments} {breakdown : List ScoreContribution}
    (h : Built facts list breakdown) : breakdown = [] ↔ list = [] := by
  rw [← List.map_eq_nil_iff (f := ScoreContribution.weight), h.1, List.map_eq_nil_iff]

theorem ScoreArguments.Sound.build_passes {arguments : ScoreArguments}
    (h : arguments.Sound facts) :
    Passes arguments.build (Bounded 1000 arguments.signal) fun contribution =>
      contribution.weight = arguments.weight ∧ contribution.evidence = arguments.evidence :=
  ScoreContribution.make_passes h.ruled h.reasoned h.weighed h.evidenced

/-- A breakdown is built exactly when every signal is within its limit. -/
theorem breakdown_passes {list : List ScoreArguments} (h : ∀ a ∈ list, a.Sound facts) :
    Passes (list.mapM ScoreArguments.build) (∀ a ∈ list, Bounded 1000 a.signal)
      (Built facts list) := by
  refine (Passes.mapM fun a ha => (h a ha).build_passes).mono fun breakdown hall => ?_
  have hbuilt : breakdown.map (·.weight) = list.map (·.weight) ∧
      OfPage facts (breakdown.flatMap (·.evidence)) := by
    induction hall with
    | nil => exact ⟨rfl, fun _ hmem => by cases hmem⟩
    | @cons a c list breakdown hac _ ih =>
      obtain ⟨ha, hlist⟩ := List.forall_mem_cons.mp h
      obtain ⟨hweights, hpage⟩ := ih hlist
      refine ⟨by rw [List.map_cons, List.map_cons, hac.1, hweights], ?_⟩
      rw [List.flatMap_cons, OfPage, From, List.forall_mem_append, hac.2]
      exact ⟨ha.sourced, hpage⟩
  exact ⟨hbuilt.1, fun fragment hmem => hbuilt.2 fragment (List.mem_eraseDups.mp hmem)⟩

/-- Positive weights make a score between 0 and 100. -/
theorem argumentScore_bounds {list : List ScoreArguments} (h : ∀ a ∈ list, a.Sound facts) :
    0 ≤ argumentScore list ∧ argumentScore list ≤ 100 := by
  have hsum : 0 ≤ (list.map (·.weight)).sum := by
    refine List.sum_nonneg fun weight hweight => ?_
    obtain ⟨a, ha, rfl⟩ := List.mem_map.mp hweight
    exact (h a ha).weighed.1.le
  exact ⟨le_min (by decide) hsum, min_le_left _ _⟩

/-- The contribution of an exact part number is sound under either rule. -/
theorem exactArguments_sound {ruleId : String} {item : NormalizedIdentifier}
    (hcanonical : canonical ∈ facts.extractedFacts.titleCandidates)
    (hruled : isRuleId ruleId = true) (hitem : item ∈ facts.primaryIcs) :
    (exactArguments canonical ruleId item).Sound facts := by
  have hevidenced : (canonical.evidence ++ item.evidence).eraseDups ≠ [] := by
    obtain ⟨fragment, hfragment⟩ := List.exists_mem_of_ne_nil _ canonical.evidenced
    exact List.ne_nil_of_mem (List.mem_eraseDups.mpr (List.mem_append_left _ hfragment))
  exact sound hruled (by decide +kernel) (by decide) hevidenced
    (ofPage_append (ofPage_title hcanonical) (ofPage_identifier (List.mem_append_right _ hitem)))

/-! ## The rules -/

/-- The texts a category rule writes pass their checks. -/
theorem categoryRules_texts : ∀ rule ∈ categoryRules, isKey rule.categoryKey = true ∧
    (0 < rule.taxonomyWeight ∧ rule.taxonomyWeight ≤ 100) ∧
    (∀ source ∈ ["title", "summary", "details"],
      isRuleId ("category." ++ rule.categoryKey ++ "." ++ source ++ ".v1") = true) ∧
    (∀ word ∈ ["Title", "Summary", "Details"],
      Bounded 1000 (word ++ " terminology supports " ++ rule.categoryKey ++ ".")) ∧
    isRuleId ("category." ++ rule.categoryKey ++ ".taxonomy.v1") = true ∧
    isRuleId ("category." ++ rule.categoryKey ++ ".profile.v1") = true ∧
    Bounded 1000 ("Taxonomy path supports " ++ rule.categoryKey ++ ".") ∧
    Bounded 1000 ("Normalization profile supports " ++ rule.categoryKey ++ ".") := by
  decide +kernel

/-- The texts a kind rule writes pass their checks. -/
theorem kindRules_texts : ∀ rule ∈ kindRules,
    (0 < rule.titleWeight ∧ rule.titleWeight ≤ 100) ∧
    isRuleId ("kind." ++ rule.kind.value ++ ".title.v1") = true ∧
    isRuleId ("kind." ++ rule.kind.value ++ ".body.v1") = true ∧
    Bounded 1000 ("Title supports component kind " ++ rule.kind.value ++ ".") ∧
    Bounded 1000 ("Source body supports component kind " ++ rule.kind.value ++ ".") := by
  decide +kernel

theorem textArguments_sound {rule : CategoryRule} {source word : String} {weight : Int}
    {signals : List Signal} (hrule : rule ∈ categoryRules)
    (hsource : source ∈ ["title", "summary", "details"])
    (hword : word ∈ ["Title", "Summary", "Details"]) (hweight : 0 < weight ∧ weight ≤ 100)
    (hsignals : ∀ signal ∈ signals, OfPage facts signal.evidence) :
    ∀ a ∈ textArguments u rule source word weight signals, a.Sound facts := by
  obtain ⟨-, -, hid, hreason, -⟩ := categoryRules_texts rule hrule
  intro a ha
  obtain ⟨signal, hsignal, rfl⟩ := List.mem_map.mp ha
  exact ⟨hid source hsource, hreason word hword, hweight, signal.evidenced,
    hsignals signal (mem_of_firstMatch (Option.mem_toList.mp hsignal))⟩

/-- **Every contribution of a category rule is sound.** -/
theorem categoryArguments_sound {rule : CategoryRule} (hrule : rule ∈ categoryRules)
    (hcanonical : canonical ∈ facts.extractedFacts.titleCandidates) :
    ∀ a ∈ categoryArguments u facts canonical rule, a.Sound facts := by
  obtain ⟨-, hweight, -, -, htaxonomy, hprofile, hpath, hprofiled⟩ := categoryRules_texts rule hrule
  have hsignal : ∀ signal ∈ titleSignals facts ++ summarySignals facts ++ detailSignals facts,
      OfPage facts signal.evidence := fun _ => ofPage_signal
  simp only [List.forall_mem_append] at hsignal
  intro a ha
  simp only [categoryArguments, List.mem_append, List.mem_ite_nil_right, List.mem_map,
    List.mem_singleton] at ha
  obtain (((ha | ha) | ha) | ⟨-, item, hitem, rfl⟩) | ⟨-, rfl⟩ := ha
  · exact textArguments_sound hrule (by simp) (by simp) (by decide) hsignal.1.1 a ha
  · exact textArguments_sound hrule (by simp) (by simp) (by decide) hsignal.1.2 a ha
  · exact textArguments_sound hrule (by simp) (by simp) (by decide) hsignal.2 a ha
  · exact sound htaxonomy hpath hweight item.evidenced
      (ofPage_specification (List.mem_of_find?_eq_some (Option.mem_toList.mp hitem)))
  · exact sound hprofile hprofiled (by decide) canonical.evidenced (ofPage_title hcanonical)

theorem mem_of_bodyMatch {rule : KindRule} {signal : Signal}
    (h : bodyMatch u facts rule = some signal) :
    signal ∈ summarySignals facts ++ detailSignals facts := by
  unfold bodyMatch at h
  split at h
  · cases h
  · exact mem_of_firstMatch h

/-- **Every contribution of a kind rule is sound.** -/
theorem kindArguments_sound {rule : KindRule} (hrule : rule ∈ kindRules)
    (hcanonical : canonical ∈ facts.extractedFacts.titleCandidates) :
    ∀ a ∈ kindArguments u facts canonical rule, a.Sound facts := by
  obtain ⟨hweight, htitle, hbody, htitled, hbodied⟩ := kindRules_texts rule hrule
  intro a ha
  simp only [kindArguments, List.mem_append, List.mem_ite_nil_right, List.mem_map,
    List.mem_singleton] at ha
  obtain ((⟨signal, hsignal, rfl⟩ | ⟨signal, hsignal, rfl⟩) | ⟨-, item, hitem, rfl⟩) |
    ⟨-, rfl⟩ := ha
  · refine sound htitle htitled hweight signal.evidenced (ofPage_signal ?_)
    exact List.mem_append_left _ (List.mem_append_left _
      (mem_of_firstMatch (Option.mem_toList.mp hsignal)))
  · refine sound hbody hbodied (by decide) signal.evidenced (ofPage_signal ?_)
    rw [List.append_assoc]
    exact List.mem_append_right _ (mem_of_bodyMatch (Option.mem_toList.mp hsignal))
  · exact sound (by decide +kernel) (by decide +kernel) (by decide) item.evidenced
      (ofPage_specification (List.mem_of_find?_eq_some (Option.mem_toList.mp hitem)))
  · exact sound (by decide +kernel) (by decide +kernel) (by decide) canonical.evidenced
      (ofPage_title hcanonical)

/-! ## Candidates of a list of rules -/

/-- One candidate with `S`, if the rule has a contribution, else none. -/
def Gives {ρ γ : Type} (arguments : ρ → List ScoreArguments) (S : ρ → γ → Prop) (rule : ρ)
    (candidates : List γ) : Prop :=
  (arguments rule = [] ∧ candidates = []) ∨
    ∃ c, arguments rule ≠ [] ∧ candidates = [c] ∧ S rule c

section

variable {ρ γ κ : Type} {arguments : ρ → List ScoreArguments} {S : ρ → γ → Prop} {rules : List ρ}
  {lists : List (List γ)}

theorem mem_flatten_gives (h : List.Forall₂ (Gives arguments S) rules lists) {c : γ} :
    c ∈ lists.flatten → ∃ rule ∈ rules, arguments rule ≠ [] ∧ S rule c := by
  induction h with
  | nil => simp
  | @cons rule list rules lists hrule _ ih =>
    rw [List.flatten_cons, List.mem_append, List.exists_mem_cons_iff]
    rcases hrule with ⟨-, rfl⟩ | ⟨d, hne, rfl, hd⟩
    · exact fun hc => .inr (ih (hc.resolve_left List.not_mem_nil))
    · rintro (hc | hc)
      · exact .inl (List.mem_singleton.mp hc ▸ ⟨hne, hd⟩)
      · exact .inr (ih hc)

theorem exists_mem_flatten_gives (h : List.Forall₂ (Gives arguments S) rules lists) {rule : ρ}
    (hrule : rule ∈ rules) (hne : arguments rule ≠ []) : ∃ c ∈ lists.flatten, S rule c := by
  induction h with
  | nil => cases hrule
  | @cons head list rules lists hhead _ ih =>
    simp only [List.flatten_cons, List.mem_append]
    rcases List.mem_cons.mp hrule with rfl | hrule
    · rcases hhead with ⟨hno, -⟩ | ⟨d, -, rfl, hd⟩
      · exact absurd hno hne
      · exact ⟨d, .inl (List.mem_singleton.mpr rfl), hd⟩
    · obtain ⟨c, hc, hS⟩ := ih hrule
      exact ⟨c, .inr hc, hS⟩

/-- The candidates have the keys of their rules, in the order of the rules. -/
theorem flatten_gives_sublist {key : γ → κ} {ruleKey : ρ → κ}
    (hkey : ∀ rule c, S rule c → key c = ruleKey rule)
    (h : List.Forall₂ (Gives arguments S) rules lists) :
    (lists.flatten.map key).Sublist (rules.map ruleKey) := by
  induction h with
  | nil => exact .slnil
  | @cons rule list rules lists hrule _ ih =>
    rw [List.flatten_cons, List.map_append, List.map_cons]
    rcases hrule with ⟨-, rfl⟩ | ⟨c, -, rfl, hc⟩
    · exact ih.cons _
    · rw [List.map_singleton, List.singleton_append, hkey rule c hc]
      exact ih.cons_cons _

end

/-- What a candidate of a category rule is. -/
structure CategoryGiven (facts : NormalizedFacts) (rule : CategoryRule) (c : CategoryCandidate) :
    Prop where
  key : c.categoryKey = rule.categoryKey
  sourced : OfPage facts (breakdownEvidence c.breakdown)

theorem categoryCandidate_passes {rule : CategoryRule} (hrule : rule ∈ categoryRules)
    (hcanonical : canonical ∈ facts.extractedFacts.titleCandidates) :
    Passes (categoryCandidate u facts canonical rule)
      (∀ a ∈ categoryArguments u facts canonical rule, Bounded 1000 a.signal)
      (Gives (categoryArguments u facts canonical) (CategoryGiven facts) rule) := by
  have hsound := categoryArguments_sound (u := u) hrule hcanonical
  refine Passes.congr ((breakdown_passes hsound).bind fun breakdown hbuilt => ?_)
    (and_iff_left trivial)
  by_cases hnil : breakdown = []
  · rw [if_pos hnil]
    exact Passes.pure (.inl ⟨hbuilt.eq_nil_iff.mp hnil, rfl⟩)
  rw [if_neg hnil]
  have hscore := argumentScore_bounds hsound
  rw [← hbuilt.score] at hscore
  refine Passes.congr (Passes.bind (CategoryCandidate.make_passes
    (categoryRules_texts rule hrule).1 hscore hnil) fun c hc => ?_) (and_iff_left trivial)
  obtain ⟨hkey, -, hbreakdown⟩ := hc
  exact Passes.pure (.inr ⟨c, mt hbuilt.eq_nil_iff.mpr hnil, rfl, hkey, hbreakdown ▸ hbuilt.2⟩)

/-- What a candidate of a kind rule is. -/
structure KindGiven (facts : NormalizedFacts) (arguments : KindRule → List ScoreArguments)
    (rule : KindRule) (c : KindCandidate) : Prop where
  kind : c.kind = rule.kind
  score : c.score = argumentScore (arguments rule)
  sourced : OfPage facts (breakdownEvidence c.breakdown)

theorem kindCandidate_passes {rule : KindRule} (hrule : rule ∈ kindRules)
    (hcanonical : canonical ∈ facts.extractedFacts.titleCandidates) :
    Passes (kindCandidate u facts canonical rule)
      (∀ a ∈ kindArguments u facts canonical rule, Bounded 1000 a.signal)
      (Gives (kindArguments u facts canonical)
        (KindGiven facts (kindArguments u facts canonical)) rule) := by
  have hsound := kindArguments_sound (u := u) hrule hcanonical
  refine Passes.congr ((breakdown_passes hsound).bind fun breakdown hbuilt => ?_)
    (and_iff_left trivial)
  by_cases hnil : breakdown = []
  · rw [if_pos hnil]
    exact Passes.pure (.inl ⟨hbuilt.eq_nil_iff.mp hnil, rfl⟩)
  rw [if_neg hnil]
  have hscore := argumentScore_bounds hsound
  rw [← hbuilt.score] at hscore
  refine Passes.congr (Passes.bind (KindCandidate.make_passes hscore hnil) fun c hc => ?_)
    (and_iff_left trivial)
  obtain ⟨hkind, htotal, hbreakdown⟩ := hc
  exact Passes.pure (.inr ⟨c, mt hbuilt.eq_nil_iff.mpr hnil, rfl, hkind, htotal.trans hbuilt.score,
    hbreakdown ▸ hbuilt.2⟩)

/-! ## The candidates of a page -/

section

variable (u : Unicode) (facts : NormalizedFacts) (canonical : ExtractedField Text)

/-- No other kind scores as much as the module: the title names no other kind and is no part
number, and where the body names a board or a connector the page also names a module. -/
structure ModuleWins : Prop where
  noPart : exactPrimaryIc u facts canonical.value = none
  noTitle : ∀ rule ∈ kindRules, rule.kind ≠ .module →
    firstMatch u (titleSignals facts) rule.tokens = none
  body : (∀ rule ∈ kindRules, rule.kind ≠ .module → bodyMatch u facts rule = none) ∨
    ∃ rule ∈ kindRules, rule.kind = .module ∧
      (firstMatch u (titleSignals facts) rule.tokens ≠ none ∨ bodyMatch u facts rule ≠ none)

/-- What the category candidates of a page are. -/
structure CategoriesGiven (categories : List CategoryCandidate) : Prop where
  ordered : categories = rankCategories categories
  unique : (categories.map (·.categoryKey)).Nodup
  sourced : ∀ c ∈ categories, OfPage facts (breakdownEvidence c.breakdown)
  exact : ∀ c ∈ categories, c.categoryKey = "integrated-circuits" →
    exactPrimaryIc u facts canonical.value ≠ none

/-- What the kind candidates of a page are. -/
structure KindsGiven (kinds : List KindCandidate) : Prop where
  nonempty : kinds ≠ []
  ordered : kinds = rankKinds kinds
  unique : (kinds.map (·.kind)).Nodup
  sourced : ∀ c ∈ kinds, OfPage facts (breakdownEvidence c.breakdown)
  moduleFirst : ∀ first ∈ kinds.head?, first.kind = .module ↔ ModuleWins u facts canonical

end

theorem breakdownEvidence_singleton {contribution : ScoreContribution}
    (h : OfPage facts contribution.evidence) : OfPage facts (breakdownEvidence [contribution]) := by
  intro fragment hmem
  rw [breakdownEvidence, List.mem_eraseDups, List.flatMap_singleton] at hmem
  exact h fragment hmem

theorem mem_of_exactPrimaryIc {name : String} {item : NormalizedIdentifier}
    (h : exactPrimaryIc u facts name = some item) : item ∈ facts.primaryIcs :=
  List.mem_of_find?_eq_some h

/-- The constructor calls for an exact part number, whichever candidate is made of them. -/
theorem exact_passes {γ : Type} {ruleId : String} {make : ScoreContribution → Except String γ}
    {R : γ → Prop} (hcanonical : canonical ∈ facts.extractedFacts.titleCandidates)
    (hruled : isRuleId ruleId = true)
    (hmake : ∀ contribution, OfPage facts (breakdownEvidence [contribution]) →
      Passes (make contribution) True R) :
    Passes ((exactPrimaryIc u facts canonical.value).toList.mapM fun item => do
        let contribution ← (exactArguments canonical ruleId item).build
        make contribution)
      (∀ item ∈ exactPrimaryIc u facts canonical.value,
        Bounded 1000 item.trace.normalizedValue)
      fun exact => exact.length = (exactPrimaryIc u facts canonical.value).toList.length ∧
        ∀ c ∈ exact, R c := by
  refine Passes.congr (P := ∀ item ∈ (exactPrimaryIc u facts canonical.value).toList,
    Bounded 1000 item.trace.normalizedValue) ?_ (by simp)
  refine (Passes.mapM (T := fun _ => R) fun item hitem => ?_).mono fun exact hall => ?_
  · have hsound := exactArguments_sound hcanonical hruled
      (mem_of_exactPrimaryIc (Option.mem_toList.mp hitem))
    refine Passes.congr (hsound.build_passes.bind fun contribution hc => ?_) (and_iff_left trivial)
    exact hmake contribution (breakdownEvidence_singleton (hc.2 ▸ hsound.sourced))
  · refine ⟨hall.length_eq.symm, fun c hc => ?_⟩
    obtain ⟨_, -, hR⟩ := Passes.exists_of_mem hall hc
    exact hR

theorem categoryRules_nodup : (categoryRules.map (·.categoryKey)).Nodup := by decide +kernel

theorem integratedCircuits_not_mem_categoryRules :
    ∀ rule ∈ categoryRules, rule.categoryKey ≠ "integrated-circuits" := by decide +kernel

/-- **The category candidates of a page.** -/
theorem categoryCandidates_passes
    (hcanonical : canonical ∈ facts.extractedFacts.titleCandidates) :
    Passes (categoryCandidates u facts canonical)
      ((∀ rule ∈ categoryRules, ∀ a ∈ categoryArguments u facts canonical rule,
        Bounded 1000 a.signal) ∧
        ∀ item ∈ exactPrimaryIc u facts canonical.value, Bounded 1000 item.trace.normalizedValue)
      (CategoriesGiven u facts canonical) := by
  refine Passes.bind (Passes.mapM fun rule hrule => categoryCandidate_passes hrule hcanonical)
    fun lists hlists => ?_
  refine Passes.congr (Passes.bind (exact_passes hcanonical (by decide +kernel)
    (R := fun c : CategoryCandidate => c.categoryKey = "integrated-circuits" ∧
      OfPage facts (breakdownEvidence c.breakdown)) fun contribution hpage => ?_)
    fun exact hexact => ?_) (and_iff_left trivial)
  · refine (CategoryCandidate.make_passes (by decide +kernel) (by decide) (by simp)).mono ?_
    rintro c ⟨hkey, -, hbreakdown⟩
    exact ⟨hkey, hbreakdown ▸ hpage⟩
  obtain ⟨hlength, hexact⟩ := hexact
  have hgiven : ∀ c ∈ lists.flatten, ∃ rule ∈ categoryRules, CategoryGiven facts rule c :=
    fun c hc => by
      obtain ⟨rule, hrule, -, hS⟩ := mem_flatten_gives hlists hc
      exact ⟨rule, hrule, hS⟩
  refine Passes.pure { ordered := rank_rank.symm, unique := ?_, sourced := ?_, exact := ?_ }
  · have hperm : (rankCategories (lists.flatten ++ exact)).Perm (lists.flatten ++ exact) :=
      rank_perm _
    rw [(hperm.map _).nodup_iff, List.map_append, List.nodup_append]
    refine ⟨categoryRules_nodup.sublist (flatten_gives_sublist (fun _ _ hS => hS.key) hlists), ?_,
      ?_⟩
    · have hshort : exact.length ≤ 1 := by
        rw [hlength]
        cases exactPrimaryIc u facts canonical.value <;> simp
      match exact, hshort with
      | [], _ => exact List.nodup_nil
      | [c], _ => exact List.nodup_singleton _
    · intro key hkey other hother
      obtain ⟨c, hc, rfl⟩ := List.mem_map.mp hkey
      obtain ⟨d, hd, rfl⟩ := List.mem_map.mp hother
      obtain ⟨rule, hrule, hS⟩ := hgiven c hc
      rw [(hexact d hd).1, hS.key]
      exact integratedCircuits_not_mem_categoryRules rule hrule
  · intro c hc
    rcases List.mem_append.mp (mem_rank.mp hc) with hc | hc
    · obtain ⟨_, -, hS⟩ := hgiven c hc
      exact hS.sourced
    · exact (hexact c hc).2
  · intro c hc hkey hnone
    rcases List.mem_append.mp (mem_rank.mp hc) with hc | hc
    · obtain ⟨rule, hrule, hS⟩ := hgiven c hc
      exact integratedCircuits_not_mem_categoryRules rule hrule (hS.key.symm.trans hkey)
    · rw [hnone, Option.toList_none, List.length_nil, List.length_eq_zero_iff] at hlength
      rw [hlength] at hc
      cases hc

/-! ## Who scores most -/

/-- The rule of the module, the last of `kindRules`. -/
def moduleRule : KindRule where
  kind := .module
  tokens := ["grove", "module", "shield", "sensor", "display", "driver", "converter", "button",
    "relay"]
  titleWeight := 35

theorem eq_moduleRule {rule : KindRule} (hrule : rule ∈ kindRules) (hkind : rule.kind = .module) :
    rule = moduleRule := by
  simp only [kindRules, List.mem_cons, List.not_mem_nil, or_false] at hrule
  rcases hrule with rfl | rfl | rfl | rfl | rfl <;> first | rfl | cases hkind

theorem moduleRule_mem : moduleRule ∈ kindRules := by simp [kindRules, moduleRule]

/-- The module scores 15, and at least 35 once a text names it, but never more than 70. -/
theorem moduleScore_cases (u : Unicode) (facts : NormalizedFacts)
    (canonical : ExtractedField Text) :
    (argumentScore (kindArguments u facts canonical moduleRule) = 15 ∧
      firstMatch u (titleSignals facts) moduleRule.tokens = none ∧
      bodyMatch u facts moduleRule = none) ∨
    (35 ≤ argumentScore (kindArguments u facts canonical moduleRule) ∧
      argumentScore (kindArguments u facts canonical moduleRule) ≤ 70 ∧
      (firstMatch u (titleSignals facts) moduleRule.tokens ≠ none ∨
        bodyMatch u facts moduleRule ≠ none)) := by
  have hmodule : moduleRule.kind = .module := rfl
  have hweight : moduleRule.titleWeight = 35 := rfl
  cases htitle : firstMatch u (titleSignals facts) moduleRule.tokens <;>
    cases hbody : bodyMatch u facts moduleRule <;>
    simp [argumentScore, kindArguments, htitle, hbody, hmodule, hweight]

/-- Another kind stays below the module iff the title does not name it, and the body does not
either or the module has been named itself. -/
theorem otherScore_lt_iff {rule : KindRule} {score : Int} (hrule : rule ∈ kindRules)
    (hkind : rule.kind ≠ .module) (hscore : score = 15 ∨ (35 ≤ score ∧ score ≤ 70)) :
    (kindArguments u facts canonical rule ≠ [] →
      argumentScore (kindArguments u facts canonical rule) < score) ↔
    firstMatch u (titleSignals facts) rule.tokens = none ∧
      (bodyMatch u facts rule = none ∨ 35 ≤ score) := by
  have hweight : rule.titleWeight = 70 := by
    simp only [kindRules, List.mem_cons, List.not_mem_nil, or_false] at hrule
    rcases hrule with rfl | rfl | rfl | rfl | rfl <;> first | rfl | exact absurd rfl hkind
  by_cases hconnector : rule.kind = .connector
  · cases hspecification : facts.specifications.find? (·.taxonomyPath = "mechanical.connector") <;>
      cases htitle : firstMatch u (titleSignals facts) rule.tokens <;>
      cases hbody : bodyMatch u facts rule <;>
      simp [argumentScore, kindArguments, htitle, hbody, hweight, hconnector,
        hspecification] <;> omega
  · cases htitle : firstMatch u (titleSignals facts) rule.tokens <;>
      cases hbody : bodyMatch u facts rule <;>
      simp [argumentScore, kindArguments, htitle, hbody, hkind, hweight, hconnector] <;> omega

/-- **The module wins** iff there is no exact part number and every other candidate stays below. -/
theorem moduleWins_iff : ModuleWins u facts canonical ↔
    exactPrimaryIc u facts canonical.value = none ∧ ∀ rule ∈ kindRules, rule.kind ≠ .module →
      kindArguments u facts canonical rule ≠ [] →
        argumentScore (kindArguments u facts canonical rule) <
          argumentScore (kindArguments u facts canonical moduleRule) := by
  have hcases := moduleScore_cases u facts canonical
  have hscore : argumentScore (kindArguments u facts canonical moduleRule) = 15 ∨
      (35 ≤ argumentScore (kindArguments u facts canonical moduleRule) ∧
        argumentScore (kindArguments u facts canonical moduleRule) ≤ 70) :=
    hcases.imp (·.1) fun h => ⟨h.1, h.2.1⟩
  constructor
  · rintro ⟨hnone, htitle, hbody⟩
    refine ⟨hnone, fun rule hrule hkind => ?_⟩
    refine (otherScore_lt_iff hrule hkind hscore).mpr ⟨htitle rule hrule hkind, ?_⟩
    rcases hbody with hbody | ⟨other, hother, hmodule, hnamed⟩
    · exact .inl (hbody rule hrule hkind)
    · rw [eq_moduleRule hother hmodule] at hnamed
      rcases hcases with ⟨-, hno, hno'⟩ | ⟨h35, -⟩
      · rw [hno, hno'] at hnamed
        exact absurd hnamed (by simp)
      · exact .inr h35
  · rintro ⟨hnone, hall⟩
    have hother : ∀ rule ∈ kindRules, rule.kind ≠ .module →
        firstMatch u (titleSignals facts) rule.tokens = none ∧ (bodyMatch u facts rule = none ∨
          35 ≤ argumentScore (kindArguments u facts canonical moduleRule)) :=
      fun rule hrule hkind => (otherScore_lt_iff hrule hkind hscore).mp (hall rule hrule hkind)
    refine ⟨hnone, fun rule hrule hkind => (hother rule hrule hkind).1, ?_⟩
    rcases hcases with ⟨h15, -⟩ | ⟨-, -, hnamed⟩
    · exact .inl fun rule hrule hkind =>
        (hother rule hrule hkind).2.resolve_right (by rw [h15]; decide)
    · exact .inr ⟨moduleRule, moduleRule_mem, rfl, hnamed⟩

theorem kindRules_nodup : (kindRules.map (·.kind)).Nodup := by decide

theorem module_last (kind : ComponentKind) (h : kind ≠ .module) :
    ¬ ComponentKind.module.value ≤ kind.value := by
  cases kind <;> first | exact absurd rfl h | decide +kernel

/-- Among candidates of different kinds the module is first iff it scores more than each other. -/
theorem head_module_iff {candidates : List KindCandidate} {first wins : KindCandidate}
    (hunique : (candidates.map (·.kind)).Nodup) (hfirst : (rankKinds candidates).head? = some first)
    (hwins : wins ∈ candidates) (hmodule : wins.kind = .module) :
    first.kind = .module ↔ ∀ c ∈ candidates, c.kind ≠ .module → c.score < wins.score := by
  have hinj : ∀ b ∈ candidates, ∀ c ∈ candidates, b.kind = c.kind → b = c :=
    List.inj_on_of_nodup_map hunique
  have hmem : first ∈ candidates := mem_rank.mp (List.mem_of_head? hfirst)
  constructor
  · intro hkind c hc hother
    obtain rfl : first = wins := hinj first hmem wins hwins (hkind.trans hmodule.symm)
    rcases head_before hfirst hc with hlt | ⟨-, hname⟩
    · exact hlt
    · exact absurd (hmodule ▸ hname) (module_last c.kind hother)
  · intro hall
    by_contra hkind
    have hlt := hall first hmem hkind
    exact absurd (score_le_head hfirst hwins) (not_le.mpr hlt)

/-- Candidates of different kinds, the module among them, are what a page has. -/
theorem KindsGiven.of_rank {candidates : List KindCandidate} {wins : KindCandidate}
    (hunique : (candidates.map (·.kind)).Nodup)
    (hsourced : ∀ c ∈ candidates, OfPage facts (breakdownEvidence c.breakdown))
    (hwins : wins ∈ candidates) (hmodule : wins.kind = .module)
    (hiff : (∀ c ∈ candidates, c.kind ≠ .module → c.score < wins.score) ↔
      ModuleWins u facts canonical) : KindsGiven u facts canonical (rankKinds candidates) where
  nonempty := mt rank_eq_nil.mp (List.ne_nil_of_mem hwins)
  ordered := rank_rank.symm
  unique := ((rank_perm candidates).map _).nodup_iff.mpr hunique
  sourced c hc := hsourced c (mem_rank.mp hc)
  moduleFirst _ hfirst := (head_module_iff hunique hfirst hwins hmodule).trans hiff

/-- **The kind candidates of a page.** -/
theorem kindCandidates_passes (hcanonical : canonical ∈ facts.extractedFacts.titleCandidates) :
    Passes (kindCandidates u facts canonical)
      ((∀ rule ∈ kindRules, ∀ a ∈ kindArguments u facts canonical rule, Bounded 1000 a.signal) ∧
        ∀ item ∈ exactPrimaryIc u facts canonical.value, Bounded 1000 item.trace.normalizedValue)
      (KindsGiven u facts canonical) := by
  refine Passes.bind (Passes.mapM fun rule hrule => kindCandidate_passes hrule hcanonical)
    fun lists hlists => ?_
  refine Passes.congr (Passes.bind (exact_passes hcanonical (by decide +kernel)
    (R := fun c : KindCandidate => c.kind = .integratedCircuit ∧ c.score = 85 ∧
      OfPage facts (breakdownEvidence c.breakdown)) fun contribution hpage => ?_)
    fun exact hexact => ?_) (and_iff_left trivial)
  · refine (KindCandidate.make_passes (by decide) (by simp)).mono ?_
    rintro c ⟨hkind, hscore, hbreakdown⟩
    exact ⟨hkind, hscore, hbreakdown ▸ hpage⟩
  obtain ⟨hlength, hexact⟩ := hexact
  have hunique : (lists.flatten.map (·.kind)).Nodup :=
    kindRules_nodup.sublist (flatten_gives_sublist (fun _ _ hS => hS.kind) hlists)
  have hgiven : ∀ c ∈ lists.flatten, ∃ rule ∈ kindRules,
      kindArguments u facts canonical rule ≠ [] ∧
        KindGiven facts (kindArguments u facts canonical) rule c := fun c =>
    mem_flatten_gives hlists
  have hsourced : ∀ c ∈ lists.flatten, OfPage facts (breakdownEvidence c.breakdown) :=
    fun c hc => by
      obtain ⟨_, -, -, hS⟩ := hgiven c hc
      exact hS.sourced
  have hne : kindArguments u facts canonical moduleRule ≠ [] := by simp [kindArguments, moduleRule]
  obtain ⟨wins, hwins, hgivenWins⟩ := exists_mem_flatten_gives hlists moduleRule_mem hne
  have hmodule : wins.kind = .module := hgivenWins.kind
  by_cases hnil : exact = []
  · have hnone : exactPrimaryIc u facts canonical.value = none := by
      rw [hnil, List.length_nil, eq_comm, List.length_eq_zero_iff] at hlength
      simpa using hlength
    have hiff : (∀ c ∈ lists.flatten, c.kind ≠ .module → c.score < wins.score) ↔
        ModuleWins u facts canonical := by
      rw [moduleWins_iff, and_iff_right hnone, hgivenWins.score]
      constructor
      · intro hall rule hrule hkind hrules
        obtain ⟨c, hc, hS⟩ := exists_mem_flatten_gives hlists hrule hrules
        exact hS.score ▸ hall c hc (hS.kind ▸ hkind)
      · intro hall c hc hkind
        obtain ⟨rule, hrule, hrules, hS⟩ := hgiven c hc
        exact hS.score ▸ hall rule hrule (hS.kind ▸ hkind) hrules
    rw [if_pos hnil, if_neg (List.ne_nil_of_mem hwins)]
    exact Passes.pure (KindsGiven.of_rank hunique hsourced hwins hmodule hiff)
  · obtain ⟨ic, hic⟩ := List.exists_mem_of_ne_nil _ hnil
    have hsome : exactPrimaryIc u facts canonical.value ≠ none := by
      rintro hnone
      rw [hnone, Option.toList_none, List.length_nil, List.length_eq_zero_iff] at hlength
      exact hnil hlength
    have hwins' : wins ∈ lists.flatten.filter (·.kind ≠ .integratedCircuit) ++ exact := by
      refine List.mem_append_left _ (List.mem_filter.mpr ⟨hwins, ?_⟩)
      rw [hmodule]
      decide
    have hiff : (∀ c ∈ lists.flatten.filter (·.kind ≠ .integratedCircuit) ++ exact,
        c.kind ≠ .module → c.score < wins.score) ↔ ModuleWins u facts canonical := by
      refine iff_of_false (fun hall => ?_) fun hmoduleWins => hsome hmoduleWins.noPart
      obtain ⟨hickind, hicscore, -⟩ := hexact ic hic
      have hlt := hall ic (List.mem_append_right _ hic) (by rw [hickind]; decide)
      rw [hicscore, hgivenWins.score] at hlt
      rcases moduleScore_cases u facts canonical with h | h <;> omega
    rw [if_neg hnil, if_neg (List.ne_nil_of_mem hwins')]
    refine Passes.pure (KindsGiven.of_rank ?_ ?_ hwins' hmodule hiff)
    · rw [List.map_append, List.nodup_append]
      refine ⟨hunique.sublist (List.filter_sublist.map _), ?_, ?_⟩
      · have hshort : exact.length ≤ 1 := by
          rw [hlength]
          cases exactPrimaryIc u facts canonical.value <;> simp
        match exact, hshort with
        | [], _ => exact List.nodup_nil
        | [c], _ => exact List.nodup_singleton _
      · intro kind hkind other hother
        obtain ⟨c, hc, rfl⟩ := List.mem_map.mp hkind
        obtain ⟨d, hd, rfl⟩ := List.mem_map.mp hother
        rw [(hexact d hd).1]
        simpa using (List.mem_filter.mp hc).2
    · intro c hc
      rcases List.mem_append.mp hc with hc | hc
      · exact hsourced c (List.mem_filter.mp hc).1
      · exact (hexact c hc).2.2

/-! ## Aliases -/

section

variable {α κ : Type} [DecidableEq κ] {key : α → κ} {x : α} {xs : List α}

theorem mem_of_mem_uniqueBy (h : x ∈ uniqueBy key xs) : x ∈ xs := by
  induction xs with
  | nil => exact h
  | cons y xs ih =>
    rcases List.mem_cons.mp h with rfl | h
    · exact List.mem_cons_self
    · exact List.mem_cons_of_mem _ (ih (List.mem_filter.mp h).1)

/-- Each key keeps an entry. -/
theorem exists_mem_uniqueBy (h : x ∈ xs) : ∃ y ∈ uniqueBy key xs, key y = key x := by
  induction xs with
  | nil => cases h
  | cons y xs ih =>
    rcases List.mem_cons.mp h with rfl | h
    · exact ⟨x, List.mem_cons_self, rfl⟩
    · obtain ⟨z, hz, hkey⟩ := ih h
      by_cases hy : key z = key y
      · exact ⟨y, List.mem_cons_self, hy ▸ hkey⟩
      · exact ⟨z, List.mem_cons_of_mem _ (List.mem_filter.mpr ⟨hz, by simpa using hy⟩), hkey⟩

end

/-- What is known of the arguments of an alias. -/
theorem aliasArguments_spec {a : AliasArguments} (h : a ∈ aliasArguments u facts canonical) :
    isRuleId a.reason = true ∧ a.evidence ≠ [] ∧ OfPage facts a.evidence ∧
      (Bounded 500 a.value ↔ a.value.length ≤ 500) := by
  rcases List.mem_append.mp h with h | h
  · obtain ⟨field, hfield, rfl⟩ := List.mem_map.mp h
    have hruled : isRuleId "identity.alternate-title.v1" = true := by decide +kernel
    exact ⟨hruled, field.evidenced,
      ofPage_title (List.mem_of_mem_tail (List.mem_filter.mp hfield).1),
      Bounded.iff_length field.value.2⟩
  · obtain ⟨item, hitem, rfl⟩ := List.mem_map.mp h
    have hruled : isRuleId "identity.model-alias.v1" = true := by decide +kernel
    exact ⟨hruled, item.evidenced,
      ofPage_identifier (List.mem_append_left _ (List.mem_filter.mp hitem).1),
      Bounded.iff_length item.trace.normalizedValue.2⟩

/-- What the aliases of a page are. -/
structure AliasesGiven (u : Unicode) (facts : NormalizedFacts) (canonical : ExtractedField Text)
    (named : List IdentityAlias) : Prop where
  sourced : ∀ item ∈ named, OfPage facts item.evidence
  primaryIcs : (∀ item ∈ named, ¬ NamesPrimaryIc u facts.primaryIcs item.value) ↔
    ∀ a ∈ aliasArguments u facts canonical, ¬ NamesPrimaryIc u facts.primaryIcs a.value

/-- **The aliases of a page.** -/
theorem aliases_passes :
    Passes (aliases u facts canonical)
      (∀ a ∈ aliasArguments u facts canonical, a.value.length ≤ 500)
      (AliasesGiven u facts canonical) := by
  have hmake : ∀ a ∈ aliasArguments u facts canonical,
      Passes (IdentityAlias.make a.value a.reason a.evidence) (a.value.length ≤ 500) fun item =>
        item.value = a.value ∧ OfPage facts item.evidence := fun a ha => by
    obtain ⟨hruled, hevidenced, hpage, hlength⟩ := aliasArguments_spec ha
    exact ((IdentityAlias.make_passes hruled hevidenced).congr hlength).mono fun item hitem =>
      ⟨hitem.1, hitem.2 ▸ hpage⟩
  refine Passes.congr ((Passes.mapM hmake).bind fun named hnamed => ?_) (and_iff_left trivial)
  refine Passes.pure { sourced := fun item hitem => ?_, primaryIcs := ?_ }
  · obtain ⟨_, -, -, hpage⟩ := Passes.exists_of_mem hnamed (mem_of_mem_uniqueBy hitem)
    exact hpage
  constructor
  · intro hall a ha hnames
    obtain ⟨item, hitem, hvalue, -⟩ := Passes.exists_of_mem' hnamed ha
    obtain ⟨kept, hkept, hkey⟩ : ∃ kept ∈ uniqueBy (fun item : IdentityAlias =>
        u.casefold item.value) named, u.casefold kept.value = u.casefold item.value :=
      exists_mem_uniqueBy hitem
    refine hall kept hkept ?_
    rw [NamesPrimaryIc, hkey, hvalue]
    exact hnames
  · intro hall item hitem hnames
    obtain ⟨a, ha, hvalue, -⟩ := Passes.exists_of_mem hnamed (mem_of_mem_uniqueBy hitem)
    exact hall a ha (hvalue ▸ hnames)

/-! ## Limits on the texts -/

/-- The texts a category rule takes as its signals are within their limit. -/
theorem categoryArguments_bounded_iff {rule : CategoryRule} :
    (∀ a ∈ categoryArguments u facts canonical rule, Bounded 1000 a.signal) ↔
      (∀ signals ∈ [titleSignals facts, summarySignals facts, detailSignals facts],
        ∀ signal ∈ firstMatch u signals rule.tokens, signal.value.1.length ≤ 1000) ∧
      ((rule.categoryKey ≠ "connectors" ∨
          ∃ signals ∈ [titleSignals facts, summarySignals facts, detailSignals facts],
            firstMatch u signals rule.tokens ≠ none) →
        ∀ item ∈ taxonomySpecification facts rule, item.taxonomyPath.length ≤ 1000) := by
  have hprofile : ∀ profile : NormalizationProfile, Bounded 1000 profile.value := by
    intro profile
    cases profile <;> decide
  have htext : ∀ (source word : String) (weight : Int) (signals : List Signal),
      (∀ a ∈ textArguments u rule source word weight signals, Bounded 1000 a.signal) ↔
        ∀ signal ∈ firstMatch u signals rule.tokens, signal.value.1.length ≤ 1000 := by
    intro source word weight signals
    simp only [textArguments, List.forall_mem_map, Option.mem_toList]
    exact forall_congr' fun signal => imp_congr_right fun _ => Bounded.iff_length signal.value.2
  have htaxonomy : ∀ item : NormalizedSpecification,
      Bounded 1000 item.taxonomyPath ↔ item.taxonomyPath.length ≤ 1000 :=
    fun item => Bounded.iff_length (isTaxonomyPath_bounded item.pathed)
  have hempty : ∀ (source word : String) (weight : Int) (signals : List Signal),
      textArguments u rule source word weight signals = [] ↔
        firstMatch u signals rule.tokens = none := by
    intro source word weight signals
    simp [textArguments]
  have hempty' : (textArguments u rule "title" "Title" 55 (titleSignals facts) ++
      textArguments u rule "summary" "Summary" 20 (summarySignals facts) ++
      textArguments u rule "details" "Details" 10 (detailSignals facts)).isEmpty = false ↔
        ∃ signals ∈ [titleSignals facts, summarySignals facts, detailSignals facts],
          firstMatch u signals rule.tokens ≠ none := by
    rw [← Bool.not_eq_true, List.isEmpty_iff, List.append_eq_nil_iff, List.append_eq_nil_iff,
      hempty, hempty, hempty]
    simp only [List.mem_cons, List.not_mem_nil, or_false, exists_eq_or_imp, exists_eq_left]
    tauto
  simp only [categoryArguments, List.forall_mem_append, htext, hempty', List.mem_ite_nil_right,
    List.forall_mem_cons, List.mem_singleton, List.mem_map, Option.mem_toList]
  constructor
  · rintro ⟨⟨⟨⟨htitle, hsummary⟩, hdetails⟩, hpaths⟩, -⟩
    refine ⟨⟨htitle, hsummary, ?_⟩, fun hused item hitem => ?_⟩
    · rintro _ rfl
      exact hdetails
    · have hbounded := hpaths _ ⟨hused, item, hitem, rfl⟩
      exact (htaxonomy item).mp hbounded
  · rintro ⟨⟨htitle, hsummary, hdetails⟩, hpaths⟩
    refine ⟨⟨⟨⟨htitle, hsummary⟩, hdetails _ rfl⟩, ?_⟩, ?_⟩
    · rintro _ ⟨hused, item, hitem, rfl⟩
      exact (htaxonomy item).mpr (hpaths hused item hitem)
    · rintro _ ⟨-, rfl⟩
      exact hprofile facts.profile

/-- So are those of a kind rule. -/
theorem kindArguments_bounded_iff {rule : KindRule} :
    (∀ a ∈ kindArguments u facts canonical rule, Bounded 1000 a.signal) ↔
      (∀ signal ∈ firstMatch u (titleSignals facts) rule.tokens, signal.value.1.length ≤ 1000) ∧
      ∀ signal ∈ bodyMatch u facts rule, signal.value.1.length ≤ 1000 := by
  have htext : ∀ signal : Signal, Bounded 1000 signal.value ↔ signal.value.1.length ≤ 1000 :=
    fun signal => Bounded.iff_length signal.value.2
  have hsource : Bounded 1000 facts.artifact.source.sourceKey :=
    (isSourceKey_bounded facts.artifact.source.keyed).mono (by decide)
  have hconnector : Bounded 1000 "mechanical.connector" := by decide
  simp only [kindArguments, List.forall_mem_append, Option.mem_toList, List.mem_ite_nil_right,
    List.mem_map, List.mem_singleton]
  constructor
  · rintro ⟨⟨⟨htitle, hbody⟩, -⟩, -⟩
    refine ⟨fun signal hsignal => ?_, fun signal hsignal => ?_⟩
    · have hbounded := htitle _ ⟨signal, hsignal, rfl⟩
      exact (htext signal).mp hbounded
    · have hbounded := hbody _ ⟨signal, hsignal, rfl⟩
      exact (htext signal).mp hbounded
  · rintro ⟨htitle, hbody⟩
    refine ⟨⟨⟨?_, ?_⟩, ?_⟩, ?_⟩
    · rintro _ ⟨signal, hsignal, rfl⟩
      exact (htext signal).mpr (htitle signal hsignal)
    · rintro _ ⟨signal, hsignal, rfl⟩
      exact (htext signal).mpr (hbody signal hsignal)
    · rintro _ ⟨-, item, hitem, rfl⟩
      have hpath : item.taxonomyPath = "mechanical.connector" := by
        simpa using List.find?_some hitem
      exact hpath.symm ▸ hconnector
    · rintro _ ⟨-, rfl⟩
      exact hsource

/-! ## The resolver is total on these facts -/

/-- **The facts the resolver accepts**: the limits of the values it copies, and the two rules about
primary ICs. -/
structure Resolvable (u : Unicode) (facts : NormalizedFacts) (canonical : ExtractedField Text) :
    Prop where
  name : canonical.value.1.length ≤ 500
  manufacturer : ∀ fact ∈ facts.manufacturers.head?, fact.trace.normalizedValue.1.length ≤ 500
  aliases : ∀ a ∈ aliasArguments u facts canonical, a.value.length ≤ 500
  categoryTexts : ∀ rule ∈ categoryRules,
    ∀ signals ∈ [titleSignals facts, summarySignals facts, detailSignals facts],
      ∀ signal ∈ firstMatch u signals rule.tokens, signal.value.1.length ≤ 1000
  taxonomies : ∀ rule ∈ categoryRules,
    (rule.categoryKey ≠ "connectors" ∨
      ∃ signals ∈ [titleSignals facts, summarySignals facts, detailSignals facts],
        firstMatch u signals rule.tokens ≠ none) →
    ∀ item ∈ taxonomySpecification facts rule, item.taxonomyPath.length ≤ 1000
  kindTitles : ∀ rule ∈ kindRules,
    ∀ signal ∈ firstMatch u (titleSignals facts) rule.tokens, signal.value.1.length ≤ 1000
  kindBodies : ∀ rule ∈ kindRules,
    ∀ signal ∈ bodyMatch u facts rule, signal.value.1.length ≤ 1000
  exactPart : ∀ item ∈ exactPrimaryIc u facts canonical.value,
    item.trace.normalizedValue.1.length ≤ 1000
  primaryIcs : ∀ item ∈ facts.primaryIcs, item.kind = .partNumber
  moduleAliases : ModuleWins u facts canonical →
    ∀ a ∈ aliasArguments u facts canonical, ¬ NamesPrimaryIc u facts.primaryIcs a.value

/-! ## The cross-field rules -/

section

variable {categories : List CategoryCandidate} {kind : KindCandidate}

theorem resolution_confidence :
    (resolution facts categories kind).2 =
      expectedConfidence (resolution facts categories kind).1 := by
  unfold resolution
  split
  · rfl
  · split
    · rfl
    · split <;> rfl

/-- What is resolved automatically has a category. -/
theorem resolution_autoResolved
    (h : (resolution facts categories kind).1 = .autoResolved) : categories.head? ≠ none := by
  intro hnone
  rw [resolution, hnone] at h
  cases h

theorem identityWarnings_valid (status : IdentityResolutionStatus) :
    WarningsValid (identityWarnings facts status categories) := by
  unfold identityWarnings
  cases status <;>
    by_cases hconflicts : facts.conflicts = [] <;>
    by_cases hambiguous : 2 ≤ categories.length ∧ margin categories ≤ autoResolveMargin <;>
    simp only [hconflicts, hambiguous, and_self, if_true, if_false] <;> decide

/-- The selected category is that of the first candidate. -/
theorem mem_selectedCategory {status : IdentityResolutionStatus} {key : String}
    (h : (if status = .autoResolved then categories.head?.map (·.categoryKey) else none) =
      some key) : ∃ first ∈ categories.head?, first.categoryKey = key := by
  split at h
  · exact Option.map_eq_some_iff.mp h
  · cases h

end

/-- The identity made of the parts passes its checks, but for the rules about primary ICs. -/
theorem identityRecord_accepted_iff {named : List IdentityAlias}
    {categories : List CategoryCandidate} {kinds : List KindCandidate} {kind : KindCandidate}
    {canonicalName : IdentityValue} {manufacturer : Option IdentityValue}
    (hname : OfPage facts canonicalName.evidence)
    (hmanufacturer : ∀ value ∈ manufacturer, OfPage facts value.evidence)
    (hnamed : AliasesGiven u facts canonical named)
    (hcategories : CategoriesGiven u facts canonical categories)
    (hkinds : KindsGiven u facts canonical kinds) (hkind : kinds.head? = some kind) :
    IdentityRecord.Accepted u
      { artifact := facts.artifact
        normalizedFacts := facts
        canonicalName
        manufacturer
        productIdentifiers := facts.identifiers.filter (·.kind ≠ .partNumber)
        partNumbers := facts.identifiers.filter (·.kind = .partNumber)
        primaryIcCandidates := facts.primaryIcs
        aliases := named
        componentKind := kind.kind
        kindCandidates := kinds
        selectedCategory :=
          if (resolution facts categories kind).1 = .autoResolved then
            categories.head?.map (·.categoryKey)
          else none
        categoryCandidates := categories
        confidence := (resolution facts categories kind).2
        resolutionStatus := (resolution facts categories kind).1
        warnings := identityWarnings facts (resolution facts categories kind).1 categories } ↔
    (∀ item ∈ facts.primaryIcs, item.kind = .partNumber) ∧
      (ModuleWins u facts canonical →
        ∀ a ∈ aliasArguments u facts canonical, ¬ NamesPrimaryIc u facts.primaryIcs a.value) := by
  have hmodule : kind.kind = .module ↔ ModuleWins u facts canonical :=
    hkinds.moduleFirst kind hkind
  constructor
  · intro h
    exact ⟨h.primaryIcs, fun hwins => hnamed.primaryIcs.mp (h.moduleAliases (hmodule.mpr hwins))⟩
  · rintro ⟨hics, halias⟩
    refine ⟨rfl, ?_, hkinds.nonempty, ?_, hkinds.unique, hkinds.ordered, hcategories.unique,
      hcategories.ordered, ?_, resolution_confidence, ?_, ?_, ?_, hics, ?_, ?_, ?_,
      (identityWarnings_valid _).1, (identityWarnings_valid _).2⟩
    · intro key hkey
      obtain ⟨first, -, rfl⟩ := mem_selectedCategory hkey
      exact first.keyed
    · rw [hkind, Option.map_some]
    · intro key hkey
      obtain ⟨first, hfirst, rfl⟩ := mem_selectedCategory hkey
      exact Option.map_eq_some_iff.mpr ⟨first, hfirst, rfl⟩
    · by_cases hauto : (resolution facts categories kind).1 = .autoResolved
      · have hhead := resolution_autoResolved hauto
        simp [hauto, hhead]
      · simp [hauto]
    · intro item hitem
      simpa using (List.mem_filter.mp hitem).2
    · intro item hitem
      simpa using (List.mem_filter.mp hitem).2
    · exact fun hk => hnamed.primaryIcs.mpr (halias (hmodule.mp hk))
    · intro hk hcategory
      obtain ⟨first, hfirst, hkey⟩ := mem_selectedCategory hcategory
      exact hcategories.exact first (List.mem_of_head? hfirst) hkey (hmodule.mp hk).noPart
    · intro group hgroup
      simp only [IdentityRecord.evidenceGroups, List.mem_append, List.mem_map, List.mem_singleton,
        Option.mem_toList] at hgroup
      obtain ((((((rfl | ⟨item, hitem, rfl⟩) | ⟨item, hitem, rfl⟩) | ⟨item, hitem, rfl⟩) |
        ⟨item, hitem, rfl⟩) | ⟨item, hitem, rfl⟩) | ⟨item, hitem, rfl⟩) |
        ⟨item, hitem, rfl⟩ := hgroup
      · exact hname
      · exact hnamed.sourced item hitem
      · exact hkinds.sourced item hitem
      · exact hcategories.sourced item hitem
      · exact ofPage_identifier (List.mem_append_left _ (List.mem_filter.mp hitem).1)
      · exact ofPage_identifier (List.mem_append_left _ (List.mem_filter.mp hitem).1)
      · exact ofPage_identifier (List.mem_append_right _ hitem)
      · exact hmanufacturer item hitem

/-- **`_resolve` returns exactly on the facts it can resolve.** -/
theorem resolveTitled_passes (hcanonical : canonical ∈ facts.extractedFacts.titleCandidates) :
    Passes (resolveTitled u facts canonical) (Resolvable u facts canonical) fun _ => True := by
  have hname : isRuleId "identity.canonical-title.v1" = true := by decide +kernel
  have hmaker : isRuleId "identity.manufacturer-normalized.v1" = true := by decide +kernel
  have hmanufacturer : Passes (facts.manufacturers.head?.mapM fun fact =>
        IdentityValue.make fact.trace.normalizedValue "identity.manufacturer-normalized.v1"
          fact.evidence)
      (∀ fact, facts.manufacturers.head? = some fact → Bounded 500 fact.trace.normalizedValue)
      fun manufacturer => ∀ value ∈ manufacturer, OfPage facts value.evidence := by
    refine (Passes.option (T := fun fact value => value.evidence = fact.evidence) fun fact _ =>
      (IdentityValue.make_passes hmaker fact.evidenced).mono fun _ h => h.2).mono ?_
    rintro _ (⟨-, rfl⟩ | ⟨fact, value, hfact, rfl, hevidence⟩)
    · rintro _ ⟨⟩
    · rintro _ ⟨⟩
      exact hevidence ▸ ofPage_manufacturer (List.mem_of_head? hfact)
  refine Passes.congr ((IdentityValue.make_passes hname canonical.evidenced).bind
    fun canonicalName hcanonicalName => hmanufacturer.bind fun manufacturer hpage =>
    aliases_passes.bind fun named hnamed =>
    (categoryCandidates_passes hcanonical).bind fun categories hcategories =>
    (kindCandidates_passes hcanonical).bind fun kinds hkinds =>
    Passes.bind (Passes.fromSome.congr (iff_of_true
      (mt List.head?_eq_none_iff.mp hkinds.nonempty) trivial)) fun kind hkind =>
    (ComponentIdentity.make_passes.congr (identityRecord_accepted_iff
      (hcanonicalName.2 ▸ ofPage_title hcanonical) hpage hnamed hcategories hkinds hkind)).mono
      fun _ _ => trivial) ?_
  constructor
  · rintro ⟨hcanonical, hmaker, haliases, ⟨hcategories, hexact⟩, ⟨hkinds, -⟩, -, hics, hmodule⟩
    exact {
      name := hcanonical.2.2
      manufacturer := fun fact hfact => (hmaker fact hfact).2.2
      aliases := haliases
      categoryTexts := fun rule hrule =>
        (categoryArguments_bounded_iff.mp (hcategories rule hrule)).1
      taxonomies := fun rule hrule =>
        (categoryArguments_bounded_iff.mp (hcategories rule hrule)).2
      kindTitles := fun rule hrule => (kindArguments_bounded_iff.mp (hkinds rule hrule)).1
      kindBodies := fun rule hrule => (kindArguments_bounded_iff.mp (hkinds rule hrule)).2
      exactPart := fun item hitem => (hexact item hitem).2.2
      primaryIcs := hics
      moduleAliases := hmodule }
  · intro h
    have hexact : ∀ item ∈ exactPrimaryIc u facts canonical.value,
        Bounded 1000 item.trace.normalizedValue := fun item hitem =>
      (Bounded.iff_length item.trace.normalizedValue.2).mpr (h.exactPart item hitem)
    exact ⟨(Bounded.iff_length canonical.value.2).mpr h.name,
      fun fact hfact => (Bounded.iff_length fact.trace.normalizedValue.2).mpr
        (h.manufacturer fact hfact), h.aliases,
      ⟨fun rule hrule => categoryArguments_bounded_iff.mpr
        ⟨h.categoryTexts rule hrule, h.taxonomies rule hrule⟩, hexact⟩,
      ⟨fun rule hrule => kindArguments_bounded_iff.mpr
        ⟨h.kindTitles rule hrule, h.kindBodies rule hrule⟩, hexact⟩,
      trivial, h.primaryIcs, h.moduleAliases⟩

/-- What the orchestrator hands to the stage: the context of this page, with identity next, after
the stages before it. -/
structure Ready (context : ImportPipelineContext) (facts : NormalizedFacts)
    (startedAt completedAt : Time) : Prop where
  source : context.sourceKey = facts.artifact.source.sourceKey
  stage : context.nextStage = some .identity
  after : ∀ last ∈ context.executions.getLast?, last.completedAt ≤ startedAt
  clock : startedAt ≤ completedAt

/-- **Identity resolution returns exactly on the facts it can resolve**, and then the kind and the
category it selects have the greatest scores. -/
theorem identity_resolved_iff (u : Unicode) (context : ImportPipelineContext)
    (facts : NormalizedFacts) (startedAt completedAt : Time)
    (hready : Ready context facts startedAt completedAt) {canonical : ExtractedField Text}
    {others : List (ExtractedField Text)}
    (htitles : facts.extractedFacts.titleCandidates = canonical :: others) :
    (∃ updated identity,
      resolve u context facts startedAt completedAt = .ok (updated, identity) ∧
        identity.SelectsGreatest) ↔ Resolvable u facts canonical := by
  have hcanonical : canonical ∈ facts.extractedFacts.titleCandidates :=
    htitles ▸ List.mem_cons_self
  have hresolved : resolveFacts u facts = resolveTitled u facts canonical := by
    rw [resolveFacts, htitles]
  have hstarted : context.executions ≠ [] := by
    intro hnil
    have hstage := hready.stage
    rw [ImportPipelineContext.nextStage, hnil] at hstage
    cases hstage
  have hpasses : Passes (resolve u context facts startedAt completedAt)
      (Resolvable u facts canonical) fun result => result.2.SelectsGreatest := by
    refine Passes.bind_met hready.source ?_
    refine Passes.bind_met hready.stage ?_
    rw [hresolved]
    refine Passes.congr ((resolveTitled_passes hcanonical).bind fun identity _ => ?_)
      (and_iff_left trivial)
    refine Passes.congr ((StageExecution.make_passes
      ⟨identity.accepted.warned, identity.accepted.warningsUnique⟩).bind
        fun execution hexecution => ?_) (iff_of_true ⟨hready.clock, trivial⟩ trivial)
    obtain ⟨hstage, hstart⟩ := hexecution
    have hfollows : context.nextStage = some execution.stage ∧ context.follows execution :=
      ⟨hstage ▸ hready.stage, ImportPipelineContext.follows_of_started hstarted
        (hstart ▸ hready.after)⟩
    refine Passes.congr (ImportPipelineContext.advance_passes.bind fun updated _ => ?_)
      (iff_of_true ⟨hfollows, trivial⟩ trivial)
    exact Passes.pure identity.accepted.selectsGreatest
  rw [← hpasses.returns_iff]
  constructor
  · rintro ⟨updated, identity, h, -⟩
    exact ⟨(updated, identity), h⟩
  · rintro ⟨⟨updated, identity⟩, h⟩
    exact ⟨updated, identity, h, hpasses.result _ h⟩

/-! ## A module whose page also names its chip -/

/-- The Unicode tables over ASCII. -/
def asciiUnicode : Unicode where
  nfkc s := s
  casefold s := String.ofList (s.toList.map Char.toLower)
  isAlnum c := c.isAlphanum
  digit c := if c.isDigit then some (c.toNat - '0'.toNat) else none
  le a b := a.toList ≤ b.toList

def seeedSource : SourceReference where
  sourceKey := "seeed_wiki"
  sourcePath := some "docs/Grove-Sound_Sensor.md"

def titleEvidence : EvidenceFragment where
  source := seeedSource
  rawText := "Grove - Sound Sensor, based on the LM386"
  extractionMethod := "markdown.title"
  parserVersion := "1.0.0"
  selector := some "h1"

theorem titleEvidence_ne_nil : [titleEvidence] ≠ [] := List.cons_ne_nil _ _

def titleField (title : String) (h : Bounded 100000 title) : ExtractedField Text where
  value := ⟨title, h⟩
  rawValue := ⟨title, h⟩
  evidence := [titleEvidence]

def chip : NormalizedIdentifier where
  kind := .partNumber
  trace :=
    { originalValue := ⟨"LM386", by decide⟩
      rawValue := ⟨"LM386", by decide⟩
      normalizedValue := ⟨"LM386", by decide⟩
      ruleId := "identifier.trim.v1"
      ruleVersion := "1.0.0"
      confidence := .high }
  evidence := [titleEvidence]

def seeedArtifact : SourceArtifactMetadata where
  source := seeedSource
  mediaType := "text/markdown"
  contentSha256 := "0"
  byteLength := 40
  acquiredAt := 0

/-- A page with these titles. -/
def soundSensor (titles : List (ExtractedField Text))
    (h : ∀ evidence ∈ fieldEvidence titles, evidence.source = seeedSource) : NormalizedFacts where
  artifact := seeedArtifact
  extractedFacts :=
    { artifact := seeedArtifact
      titleCandidates := titles
      sourced := by simpa [fieldEvidence, seeedArtifact] using h }
  profile := .sensor
  primaryIcs := [chip]
  extracted := rfl
  sourced := by decide

def productTitle : ExtractedField Text := titleField "Grove - Sound Sensor" (by decide)

def chipTitle : ExtractedField Text := titleField "LM386" (by decide)

def readyContext : ImportPipelineContext where
  runId := 1
  sourceKey := "seeed_wiki"
  sourceLocator := "docs/Grove-Sound_Sensor.md"
  pipelineVersion := "1.0.0"
  startedAt := 0
  executions :=
    [{ stage := .acquisition, startedAt := 1, completedAt := 2 },
     { stage := .extraction, startedAt := 2, completedAt := 3 },
     { stage := .normalization, startedAt := 3, completedAt := 4 }]

theorem identity_resolved_soundSensor :
    ∃ updated identity, resolve asciiUnicode readyContext
      (soundSensor [productTitle] (by decide)) 4 5 = .ok (updated, identity) ∧
        identity.SelectsGreatest :=
  (identity_resolved_iff asciiUnicode readyContext (soundSensor [productTitle] (by decide)) 4 5
    ⟨rfl, rfl, by decide, by decide⟩ rfl).mpr
    { name := by decide
      manufacturer := by decide
      aliases := by decide +kernel
      categoryTexts := by decide +kernel
      taxonomies := by decide +kernel
      kindTitles := by decide +kernel
      kindBodies := by decide +kernel
      exactPart := by decide +kernel
      primaryIcs := by decide
      moduleAliases := fun _ => by decide +kernel }

/-- A page of a module whose second title is its primary IC has a title, and is not resolved. -/
theorem identity_not_resolved :
    (soundSensor [productTitle, chipTitle] (by decide)).extractedFacts.titleCandidates ≠ [] ∧
      Ready readyContext (soundSensor [productTitle, chipTitle] (by decide)) 4 5 ∧
      failure (resolve asciiUnicode readyContext
        (soundSensor [productTitle, chipTitle] (by decide)) 4 5) =
        some "identity_module_primary_ic_alias_forbidden" :=
  ⟨by decide, ⟨rfl, rfl, by decide, by decide⟩, by decide +kernel⟩

end ComponentKb.Pipeline
