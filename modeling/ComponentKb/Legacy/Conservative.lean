import ComponentKb.Legacy.Specifications

/-!
# Merging a legacy item

`merge_data` adds to a draft what a legacy item has and the draft lacks. Specifications are the same
when their labels are, up to `normalize`; the catalog tells them apart by their keys.

* `missing`, `mergeSpecifications_eq`: the specifications that are added.
* `normalize_strip`, `normalize_of_normalized`: the two notions of a name.
* **`mergeData_iff`**: a merge keeps what there is, is accepted when the draft was, and is a merge
  once and for all iff what is added is accepted and has other keys.
-/

namespace ComponentKb.Legacy

open Catalog Lib

/-! ## Names -/

section Names

/-- Spaces around a text stay spaces around what is made of it. -/
def KeepsAround (f : String → String) : Prop :=
  ∀ before after : List Char, ∀ s : String, (∀ c ∈ before, isSpace c) → (∀ c ∈ after, isSpace c) →
    ∃ before' after' : List Char, (∀ c ∈ before', isSpace c) ∧ (∀ c ∈ after', isSpace c) ∧
      (f (String.ofList (before ++ s.toList ++ after))).toList =
        before' ++ (f s).toList ++ after'

/-- What NFKC and case folding do to the spaces around a text: they may be other spaces. -/
structure Spaced (u : Unicode) : Prop where
  nfkc : KeepsAround u.nfkc
  casefold : KeepsAround u.casefold

variable {u : Unicode}

/-- A text is what is left of it, with spaces around. -/
theorem strip_split (s : String) : ∃ before after : List Char, (∀ c ∈ before, isSpace c) ∧
    (∀ c ∈ after, isSpace c) ∧ s = String.ofList (before ++ (strip s).toList ++ after) := by
  let tail := s.toList.dropWhile isSpace
  refine ⟨s.toList.takeWhile isSpace, (tail.reverse.takeWhile isSpace).reverse,
    fun c hc => List.mem_takeWhile_imp hc,
    fun c hc => List.mem_takeWhile_imp (List.mem_reverse.mp hc), ?_⟩
  have htail : (tail.reverse.dropWhile isSpace).reverse ++ (tail.reverse.takeWhile isSpace).reverse =
      tail := by
    rw [← List.reverse_append, List.takeWhile_append_dropWhile, List.reverse_reverse]
  rw [strip, String.toList_ofList, List.append_assoc, htail, List.takeWhile_append_dropWhile,
    String.ofList_toList]

theorem words_cons {c : Char} {s : List Char} (hc : isSpace c) : words (c :: s) = words s := by
  have hsplit := List.splitOnP_append_cons [] s hc
  rw [List.nil_append, List.splitOnP_nil] at hsplit
  rw [words, hsplit]
  rfl

theorem words_concat {c : Char} {s : List Char} (hc : isSpace c) : words (s ++ [c]) = words s := by
  rw [words, List.splitOnP_append_cons s [] hc, List.splitOnP_nil, List.filter_append]
  exact List.append_nil _

/-- Spaces around a text do not count. -/
theorem words_around {before after : List Char} (hbefore : ∀ c ∈ before, isSpace c)
    (hafter : ∀ c ∈ after, isSpace c) (s : List Char) : words (before ++ s ++ after) = words s := by
  have hend : ∀ t, words (t ++ after) = words t := by
    induction after with
    | nil => exact fun t => by rw [List.append_nil]
    | cons c after ih =>
      intro t
      obtain ⟨hc, hrest⟩ := List.forall_mem_cons.mp hafter
      rw [List.append_cons, ih hrest, words_concat hc]
  rw [hend]
  induction before with
  | nil => rfl
  | cons c before ih =>
    obtain ⟨hc, hrest⟩ := List.forall_mem_cons.mp hbefore
    rw [List.cons_append, words_cons hc, ih hrest]

theorem isSpace_plainChar {c : Char} (hc : isSpace c) : isSpace (plainChar c) := by
  unfold plainChar
  split
  · rename_i hdash
    rcases hdash with rfl | rfl <;> exact absurd hc (by decide)
  · split
    · rfl
    · exact hc

/-- The words of a folded text with spaces around it. -/
theorem folded_words {t : List Char} {before after : List Char} (hbefore : ∀ c ∈ before, isSpace c)
    (hafter : ∀ c ∈ after, isSpace c) :
    words ((before ++ t ++ after).map plainChar) = words (t.map plainChar) := by
  rw [List.map_append, List.map_append]
  refine words_around (fun c hc => ?_) (fun c hc => ?_) _
  · obtain ⟨d, hd, rfl⟩ := List.mem_map.mp hc
    exact isSpace_plainChar (hbefore d hd)
  · obtain ⟨d, hd, rfl⟩ := List.mem_map.mp hc
    exact isSpace_plainChar (hafter d hd)

/-- The spaces around a name do not count. -/
theorem normalize_strip (hu : Spaced u) (s : String) :
    normalize u (strip s) = normalize u s := by
  obtain ⟨before, after, hbefore, hafter, hs⟩ := strip_split s
  obtain ⟨b, a, hb, ha, hnfkc⟩ := hu.nfkc before after (strip s) hbefore hafter
  obtain ⟨b', a', hb', ha', hfold⟩ := hu.casefold b a (u.nfkc (strip s)) hb ha
  have hwhole : u.nfkc s = String.ofList (b ++ (u.nfkc (strip s)).toList ++ a) := by
    rw [← hnfkc, ← hs, String.ofList_toList]
  unfold normalize
  rw [hwhole, hfold, folded_words hb' ha']

/-- What the catalog takes for one name is one name. -/
theorem normalize_of_normalized (hu : Spaced u) {a b : String}
    (h : normalized u a = normalized u b) : normalize u a = normalize u b := by
  have hwords : ∀ s, words ((u.casefold (u.nfkc s)).toList.map plainChar) =
      words ((normalized u s).toList.map plainChar) := by
    intro s
    obtain ⟨before, after, hbefore, hafter, hs⟩ := strip_split (u.nfkc s)
    obtain ⟨b', a', hb', ha', hfold⟩ :=
      hu.casefold before after (strip (u.nfkc s)) hbefore hafter
    rw [← hs] at hfold
    rw [hfold, folded_words hb' ha']
    rfl
  unfold normalize
  rw [hwords, hwords, h]

end Names

/-! ## What is added -/

section Added

variable {u : Unicode} {specs incoming : List TechnicalSpecification} {labels : List String}

/-- The first specification of each label that is not among the labels known. -/
def missing (u : Unicode) : List String → List TechnicalSpecification → List TechnicalSpecification
  | _, [] => []
  | labels, spec :: rest =>
    if normalize u spec.label ∈ labels then missing u labels rest
    else spec :: missing u (normalize u spec.label :: labels) rest

/-- Specifications at the places from a position on. -/
def placedFrom (position : Nat) (items : List TechnicalSpecification) :
    List TechnicalSpecification :=
  (items.zipIdx position).map fun (item, place) => { item with position := place }

theorem placedFrom_cons (position : Nat) (item : TechnicalSpecification)
    (items : List TechnicalSpecification) :
    placedFrom position (item :: items) =
      { item with position := position } :: placedFrom (position + 1) items := rfl

/-- **What `merge_data` adds**: the specifications that are missing, as far as there is room. -/
theorem mergeSpecifications_eq {byLabel : List (String × TechnicalSpecification)}
    (hlabels : ∀ label, label ∈ labels ↔ (byLabel.lookup label).isSome) :
    (mergeSpecifications u specs byLabel incoming).1 =
      specs ++ placedFrom specs.length ((missing u labels incoming).take (50 - specs.length)) := by
  induction incoming generalizing specs byLabel labels with
  | nil => simp [mergeSpecifications, missing, placedFrom]
  | cons spec rest ih =>
    rw [mergeSpecifications, missing]
    cases hfound : byLabel.lookup (normalize u spec.label) with
    | some previous =>
      have hknown : normalize u spec.label ∈ labels := (hlabels _).mpr (by rw [hfound]; rfl)
      rw [if_pos hknown]
      simp only
      split
      · exact ih hlabels
      · exact ih hlabels
    | none =>
      have hnew : normalize u spec.label ∉ labels := fun hmem => by
        have := (hlabels _).mp hmem
        rw [hfound] at this
        cases this
      rw [if_neg hnew]
      simp only
      by_cases hroom : specs.length < 50
      · have hlabels' : ∀ label, label ∈ normalize u spec.label :: labels ↔
            (((normalize u spec.label, spec) :: byLabel).lookup label).isSome := by
          intro label
          rw [List.mem_cons, List.lookup_cons, hlabels]
          by_cases hsame : label = normalize u spec.label
          · simp [hsame]
          · have hbeq : (label == normalize u spec.label) = false := by simpa using hsame
            rw [hbeq]
            simp [hsame]
        have htake : 50 - specs.length = (50 - (specs.length + 1)) + 1 := by omega
        rw [if_pos hroom, ih hlabels', List.length_append, List.length_singleton, htake,
          List.take_succ_cons, placedFrom_cons, List.append_assoc]
        rfl
      · have hfull : 50 - specs.length = 0 := by omega
        rw [if_neg hroom, ih hlabels, hfull, List.take_zero, List.take_zero]

/-- The specifications that a merge adds to a draft. -/
def added (u : Unicode) (existing incoming : DraftData) : List TechnicalSpecification :=
  (missing u (existing.specifications.map fun spec => normalize u spec.label)
    incoming.specifications).take (50 - existing.specifications.length)

theorem lookup_reverse_isSome (specs : List TechnicalSpecification) (label : String) :
    label ∈ specs.map (fun spec => normalize u spec.label) ↔
      ((specs.map fun spec => (normalize u spec.label, spec)).reverse.lookup label).isSome := by
  rw [List.lookup_isSome_iff, List.mem_map]
  constructor
  · rintro ⟨spec, hspec, rfl⟩
    exact ⟨(_, spec), List.mem_reverse.mpr (List.mem_map_of_mem hspec), beq_self_eq_true _⟩
  · rintro ⟨p, hp, heq⟩
    obtain ⟨spec, hspec, rfl⟩ := List.mem_map.mp (List.mem_reverse.mp hp)
    exact ⟨spec, hspec, (eq_of_beq heq).symm⟩

theorem mergeData_specifications (existing incoming : DraftData) :
    (mergeData u existing incoming).1.specifications =
      existing.specifications ++
        placedFrom existing.specifications.length (added u existing incoming) :=
  mergeSpecifications_eq (lookup_reverse_isSome existing.specifications)

theorem missing_sublist (labels : List String) (incoming : List TechnicalSpecification) :
    (missing u labels incoming).Sublist incoming := by
  induction incoming generalizing labels with
  | nil => exact List.Sublist.refl _
  | cons spec rest ih =>
    rw [missing]
    split
    · exact (ih labels).cons _
    · exact (ih _).cons_cons _

/-- A label that comes in was known, or it is missing. -/
theorem label_missing (labels : List String) :
    ∀ spec ∈ incoming, normalize u spec.label ∈ labels ∨
      normalize u spec.label ∈
        (missing u labels incoming).map fun spec => normalize u spec.label := by
  induction incoming generalizing labels with
  | nil => exact fun spec h => absurd h List.not_mem_nil
  | cons first rest ih =>
    intro spec hspec
    rw [missing]
    split
    · rename_i hknown
      rcases List.mem_cons.mp hspec with rfl | hrest
      · exact Or.inl hknown
      · exact ih labels spec hrest
    · rcases List.mem_cons.mp hspec with rfl | hrest
      · exact Or.inr List.mem_cons_self
      · rcases ih _ spec hrest with hmem | hmem
        · rcases List.mem_cons.mp hmem with heq | hmem
          · exact Or.inr (heq ▸ List.mem_cons_self)
          · exact Or.inl hmem
        · exact Or.inr (List.mem_cons_of_mem _ hmem)

theorem missing_eq_nil (h : ∀ spec ∈ incoming, normalize u spec.label ∈ labels) :
    missing u labels incoming = [] := by
  induction incoming with
  | nil => rfl
  | cons spec rest ih =>
    obtain ⟨hspec, hrest⟩ := List.forall_mem_cons.mp h
    rw [missing, if_pos hspec, ih hrest]

/-- What the places of specifications do not change. -/
theorem placedFrom_map {α : Type} {f : TechnicalSpecification → α}
    (hf : ∀ (item : TechnicalSpecification) place, f { item with position := place } = f item)
    (position : Nat) (items : List TechnicalSpecification) :
    (placedFrom position items).map f = items.map f := by
  induction items generalizing position with
  | nil => rfl
  | cons item items ih => rw [placedFrom_cons, List.map_cons, List.map_cons, ih, hf]

theorem placedFrom_length (position : Nat) (items : List TechnicalSpecification) :
    (placedFrom position items).length = items.length := by
  rw [placedFrom, List.length_map, List.length_zipIdx]

/-- **Nothing is added twice.** -/
theorem added_merged (existing incoming : DraftData) :
    added u (mergeData u existing incoming).1 incoming = [] := by
  have hspecs := @mergeData_specifications u existing incoming
  rw [added, hspecs, List.length_append, placedFrom_length]
  by_cases hfull : 50 ≤ existing.specifications.length + (added u existing incoming).length
  · have hnone : 50 - (existing.specifications.length + (added u existing incoming).length) = 0 := by
      omega
    rw [hnone, List.take_zero]
  · -- there was room for all, so that every label is known now
    have hall : added u existing incoming =
        missing u (existing.specifications.map fun spec => normalize u spec.label)
          incoming.specifications := by
      refine List.take_of_length_le ?_
      rw [added, List.length_take] at hfull
      omega
    have hknown : ∀ spec ∈ incoming.specifications, normalize u spec.label ∈
        (existing.specifications ++
          placedFrom existing.specifications.length (added u existing incoming)).map
            fun spec => normalize u spec.label := by
      intro spec hspec
      rw [List.map_append, List.mem_append, placedFrom_map fun _ _ => rfl, hall]
      exact label_missing _ spec hspec
    rw [missing_eq_nil hknown, List.take_nil]

end Added

/-! ## The merge -/

section Merge

variable {u : Unicode} {digest : List String → String} {categories : List Category}
  {target : Target} {category : UUID} {existing incoming : DraftData}

/-- The names under which a draft is known to the merge. -/
def seenNames (u : Unicode) (existing : DraftData) : List String :=
  (existing.aliases ++ [existing.title]).map (normalize u)

/-- The title of an item becomes an alias, unless it is known or there is no room for it. -/
theorem mergeAliases_title (aliases seen : List String) (title : String) :
    (mergeAliases u aliases seen [title]).1 =
      if normalize u title ∈ seen ∨ 20 ≤ aliases.length ∨ 100 < (strip title).length then aliases
      else aliases ++ [strip title] := by
  rw [mergeAliases]
  by_cases hseen : normalize u title ∈ seen
  · rw [if_pos hseen, if_pos (Or.inl hseen)]
    rfl
  · rw [if_neg hseen]
    by_cases hlimit : 20 ≤ aliases.length ∨ 100 < (strip title).length
    · rw [if_pos hlimit, if_pos (Or.inr hlimit)]
      rfl
    · rw [if_neg hlimit, if_neg (not_or.mpr ⟨hseen, hlimit⟩)]
      rfl

theorem draftSpecifications_keys {specs : List TechnicalSpecification} {items : List Specification}
    (h : (specs.map TechnicalSpecification.key).Nodup) :
    ((draftSpecifications u digest specs items).map TechnicalSpecification.key).Nodup := by
  induction items generalizing specs with
  | nil => exact h
  | cons spec rest ih =>
    rw [draftSpecifications]
    split
    · exact ih h
    · rename_i hnew
      refine ih ?_
      rw [List.map_append, List.nodup_append]
      refine ⟨h, List.nodup_singleton _, fun key hkey other hother => ?_⟩
      rw [List.map_singleton, List.mem_singleton] at hother
      rintro rfl
      rw [hother] at hkey
      exact hnew hkey

/-- The draft of an item. -/
theorem draftData_eq (h : draftData u digest target category = .ok incoming) :
    incoming.aliases = [] ∧ incoming.title = target.title ∧
      (incoming.specifications.map TechnicalSpecification.key).Nodup := by
  obtain ⟨-, h⟩ := seq_eq_ok.mp h
  cases h
  exact ⟨rfl, rfl, draftSpecifications_keys List.nodup_nil⟩

theorem mergeData_aliases (h : draftData u digest target category = .ok incoming) :
    (mergeData u existing incoming).1.aliases =
      if normalize u target.title ∈ seenNames u existing ∨ 20 ≤ existing.aliases.length ∨
          100 < (strip target.title).length then existing.aliases
      else existing.aliases ++ [strip target.title] := by
  obtain ⟨haliases, htitle, -⟩ := draftData_eq h
  have hloop : (mergeData u existing incoming).1.aliases =
      (mergeAliases u existing.aliases (seenNames u existing)
        (incoming.aliases ++ [incoming.title])).1 := rfl
  rw [hloop, haliases, htitle, List.nil_append, mergeAliases_title]

/-- What a merge with an item keeps: all that is there, the acceptance of the draft, and itself when
it is made again. -/
structure MergeKeeps (u : Unicode) (categories : List Category) (existing incoming : DraftData) :
    Prop where
  fields : { (mergeData u existing incoming).1 with
    description := existing.description, summary := existing.summary
    aliases := existing.aliases, specifications := existing.specifications } = existing
  description : existing.description ≠ "" →
    (mergeData u existing incoming).1.description = existing.description
  summary : existing.summary ≠ "" → (mergeData u existing incoming).1.summary = existing.summary
  aliases : existing.aliases <+: (mergeData u existing incoming).1.aliases
  specifications : existing.specifications <+: (mergeData u existing incoming).1.specifications
  accepted : validate u categories existing = .ok () →
    validate u categories (mergeData u existing incoming).1 = .ok ()
  again : (mergeData u (mergeData u existing incoming).1 incoming).1 =
    (mergeData u existing incoming).1

/-- A second merge changes nothing. -/
theorem mergeData_again (hu : Spaced u) (h : draftData u digest target category = .ok incoming) :
    (mergeData u (mergeData u existing incoming).1 incoming).1 =
      (mergeData u existing incoming).1 := by
  have hspecifications : (mergeData u (mergeData u existing incoming).1 incoming).1.specifications =
      (mergeData u existing incoming).1.specifications := by
    rw [mergeData_specifications, added_merged]
    exact List.append_nil _
  have haliases : (mergeData u (mergeData u existing incoming).1 incoming).1.aliases =
      (mergeData u existing incoming).1.aliases := by
    have hloop := fun draft => @mergeData_aliases u digest target category draft incoming h
    have hfirst := hloop existing
    rw [hloop (mergeData u existing incoming).1]
    refine if_pos ?_
    by_cases hlimit : normalize u target.title ∈ seenNames u existing ∨
        20 ≤ existing.aliases.length ∨ 100 < (strip target.title).length
    · rw [if_pos hlimit] at hfirst
      rw [seenNames, hfirst]
      exact hlimit
    · rw [if_neg hlimit] at hfirst
      rw [seenNames, hfirst]
      refine Or.inl (List.mem_map.mpr ⟨strip target.title, ?_, normalize_strip hu _⟩)
      exact List.mem_append_left _ (List.mem_append_right _ List.mem_cons_self)
  have hfilled : ∀ a b : String, (if (if a = "" then b else a) = "" then b
      else if a = "" then b else a) = if a = "" then b else a := by
    intro a b
    by_cases ha : a = ""
    · simp [ha]
    · simp [ha]
  generalize hmerged : (mergeData u existing incoming).1 = merged at *
  have hdescription : merged.description =
      if existing.description = "" then incoming.description else existing.description := by
    rw [← hmerged]
    rfl
  have hsummary : merged.summary =
      if existing.summary = "" then incoming.summary else existing.summary := by
    rw [← hmerged]
    rfl
  have hparts : (mergeData u merged incoming).1 = { merged with
      description := if merged.description = "" then incoming.description else merged.description
      summary := if merged.summary = "" then incoming.summary else merged.summary
      aliases := (mergeData u merged incoming).1.aliases
      specifications := (mergeData u merged incoming).1.specifications } := rfl
  rw [hparts, haliases, hspecifications, hdescription, hfilled, hsummary, hfilled, ← hdescription,
    ← hsummary]

theorem accepted_position (item : TechnicalSpecification) (position : Nat) :
    ({ item with position := position } : TechnicalSpecification).Accepted u ↔ item.Accepted u :=
  ⟨fun h => ⟨h.key, h.label, h.valueText, h.unit, h.number⟩,
    fun h => ⟨h.key, h.label, h.valueText, h.unit, h.number⟩⟩

theorem mem_placedFrom {items : List TechnicalSpecification} {position : Nat} :
    (∀ item ∈ placedFrom position items, item.Accepted u) ↔ ∀ item ∈ items, item.Accepted u := by
  induction items generalizing position with
  | nil => exact Iff.rfl
  | cons item items ih =>
    rw [placedFrom_cons, List.forall_mem_cons, List.forall_mem_cons, ih, accepted_position]

/-- The specifications of a merge are accepted iff those that are added are, and have new keys. -/
theorem merged_specifications_iff (hkeys : (incoming.specifications.map
      TechnicalSpecification.key).Nodup)
    (hold : (∀ item ∈ existing.specifications, item.Accepted u) ∧
      (existing.specifications.map TechnicalSpecification.key).Nodup) :
    ((∀ item ∈ (mergeData u existing incoming).1.specifications, item.Accepted u) ∧
        ((mergeData u existing incoming).1.specifications.map TechnicalSpecification.key).Nodup) ↔
      ∀ item ∈ added u existing incoming, item.Accepted u ∧
        item.key ∉ existing.specifications.map TechnicalSpecification.key := by
  have hadded : ((added u existing incoming).map TechnicalSpecification.key).Nodup :=
    (((List.take_sublist _ _).trans (missing_sublist _ _)).map _).nodup hkeys
  rw [mergeData_specifications, List.forall_mem_append, mem_placedFrom, List.map_append,
    placedFrom_map fun _ _ => rfl, List.nodup_append]
  constructor
  · rintro ⟨⟨-, haccepted⟩, -, -, hdisjoint⟩ item hitem
    refine ⟨haccepted item hitem, fun hmem => ?_⟩
    exact hdisjoint item.key hmem item.key (List.mem_map_of_mem hitem) rfl
  · intro h
    refine ⟨⟨hold.1, fun item hitem => (h item hitem).1⟩, hold.2, hadded, ?_⟩
    rintro key hkey other hother rfl
    obtain ⟨item, hitem, rfl⟩ := List.mem_map.mp hother
    exact (h item hitem).2 hkey

/-- The aliases of a merge are accepted unless a blank title is added. -/
theorem merged_aliases_iff (hu : Spaced u) (h : draftData u digest target category = .ok incoming)
    (hold : Names u existing.aliases) :
    Names u (mergeData u existing incoming).1.aliases ↔
      (isBlank target.title → 20 ≤ existing.aliases.length ∨
        normalize u target.title ∈ seenNames u existing) := by
  rw [mergeData_aliases h]
  by_cases hlimit : normalize u target.title ∈ seenNames u existing ∨
      20 ≤ existing.aliases.length ∨ 100 < (strip target.title).length
  · rw [if_pos hlimit]
    refine iff_of_true hold fun hblank => ?_
    obtain hseen | hfull | hlong := hlimit
    · exact Or.inr hseen
    · exact Or.inl hfull
    · have hnil : strip target.title = "" := of_decide_eq_true hblank
      rw [hnil] at hlong
      exact absurd hlong (by decide)
  · rw [if_neg hlimit]
    obtain ⟨hseen, hroom⟩ := not_or.mp hlimit
    obtain ⟨hroom, hshort⟩ := not_or.mp hroom
    constructor
    · intro hnames hblank
      have htitle := hnames.each (strip target.title)
        (List.mem_append_right _ List.mem_cons_self)
      rw [isBlank, strip_strip] at htitle
      exact absurd hblank htitle.1
    · intro hfree
      have hfilled : ¬ isBlank target.title := fun hblank => by
        rcases hfree hblank with hfull | hknown
        · exact hroom hfull
        · exact hseen hknown
      refine ⟨?_, fun value hvalue => ?_, ?_⟩
      · rw [List.length_append, List.length_singleton]
        omega
      · rcases List.mem_append.mp hvalue with hvalue | hvalue
        · exact hold.each value hvalue
        · rw [List.mem_singleton.mp hvalue, isBlank, strip_strip]
          exact ⟨hfilled, by omega⟩
      · rw [List.map_append, List.nodup_append]
        refine ⟨hold.nodup, List.nodup_singleton _, ?_⟩
        rintro name hname other hother rfl
        rw [List.map_singleton, List.mem_singleton] at hother
        obtain ⟨alias_, halias, heq⟩ := List.mem_map.mp hname
        have hsame := normalize_of_normalized hu (heq.trans hother)
        rw [normalize_strip hu] at hsame
        exact hseen (hsame ▸ List.mem_map_of_mem (List.mem_append_left _ halias))

/-- **When a merge with a legacy item is conservative, accepted and final.** What is there stays, and
a second merge changes nothing; of a draft that is accepted, the merge is accepted iff the
specifications it adds are, have keys that the draft does not use, and a blank title is not added. -/
theorem mergeData_iff (hu : Spaced u) (h : draftData u digest target category = .ok incoming) :
    MergeKeeps u categories existing incoming ↔
      (validate u categories existing = .ok () →
        (∀ item ∈ added u existing incoming, item.Accepted u ∧
          item.key ∉ existing.specifications.map TechnicalSpecification.key) ∧
        (isBlank target.title → 20 ≤ existing.aliases.length ∨
          normalize u target.title ∈ seenNames u existing)) := by
  obtain ⟨-, -, hkeys⟩ := draftData_eq h
  have haccepted : validate u categories existing = .ok () →
      (validate u categories (mergeData u existing incoming).1 = .ok () ↔
        (∀ item ∈ added u existing incoming, item.Accepted u ∧
          item.key ∉ existing.specifications.map TechnicalSpecification.key) ∧
        (isBlank target.title → 20 ≤ existing.aliases.length ∨
          normalize u target.title ∈ seenNames u existing)) := by
    intro hvalid
    obtain ⟨hslug, haliases, htags, hlimits, hcategory, hspecifications, hcompatibility,
      hexamples⟩ := validate_iff.mp hvalid
    rw [← merged_specifications_iff hkeys hspecifications, ← merged_aliases_iff hu h haliases,
      validate_iff]
    constructor
    · rintro ⟨-, hnames, -, -, -, hmerged, -, -⟩
      exact ⟨hmerged, hnames⟩
    · rintro ⟨hmerged, hnames⟩
      refine ⟨hslug, hnames, htags, ⟨?_, hlimits.2⟩, hcategory, hmerged, hcompatibility, hexamples⟩
      rw [mergeData_specifications, List.length_append, placedFrom_length, added, List.length_take]
      omega
  constructor
  · intro hkeeps hvalid
    exact (haccepted hvalid).mp (hkeeps.accepted hvalid)
  · intro hcondition
    refine
      { fields := rfl
        description := fun hne => if_neg hne
        summary := fun hne => if_neg hne
        aliases := ?_
        specifications := ?_
        accepted := fun hvalid => (haccepted hvalid).mpr (hcondition hvalid)
        again := mergeData_again hu h }
    · rw [mergeData_aliases h]
      split
      · exact List.prefix_rfl
      · exact List.prefix_append _ _
    · rw [mergeData_specifications]
      exact List.prefix_append _ _

end Merge

/-! ## A key that is in use -/

theorem plainUnicode_spaced : Spaced plainUnicode := by
  have hsame : KeepsAround fun s => s := fun before after s hbefore hafter =>
    ⟨before, after, hbefore, hafter, String.toList_ofList⟩
  exact ⟨hsame, hsame⟩

/-- A card with one specification, under the key that a legacy item gives to `voltage max`. -/
def labelled (label : String) : DraftData :=
  { sensorDraft "sensor" false with
    specifications := [⟨"legacy-e8ee603acfbe711e405259ac", label, "3 V", none, none, 0⟩] }

/-- The draft of the item. -/
def voltageDraft : DraftData :=
  (draftData plainUnicode plainDigest (voltageItem 1 "voltage max").target 1).toOption.getD
    (labelled "")

theorem voltageDraft_eq :
    draftData plainUnicode plainDigest (voltageItem 1 "voltage max").target 1 = .ok voltageDraft :=
  toOption_eq_some.mp (by decide +kernel)

/-- A card without specifications gets the one of the item. -/
theorem mergeData_iff_sensor :
    MergeKeeps plainUnicode plainDb.categories (sensorDraft "sensor" false) voltageDraft := by
  refine (mergeData_iff plainUnicode_spaced voltageDraft_eq).mpr fun _ => ⟨fun item hitem => ?_, ?_⟩
  · have hvalid : validateSpecifications plainUnicode 0 []
        (added plainUnicode (sensorDraft "sensor" false) voltageDraft) = .ok () :=
      toOption_eq_some.mp (by decide +kernel)
    exact ⟨(validateSpecifications_iff.mp hvalid).1 item hitem, List.not_mem_nil⟩
  · decide +kernel

/-- **A key that is in use.** The label of the specification was changed, and the item brings one
under the same key: the draft is accepted, its merge is not. -/
theorem merge_clashes :
    ¬ MergeKeeps plainUnicode plainDb.categories (labelled "Supply") voltageDraft := by
  intro hkeeps
  have hvalid : validate plainUnicode plainDb.categories (labelled "Supply") = .ok () :=
    toOption_eq_some.mp (by decide +kernel)
  have hmerged := congrArg Except.toOption (hkeeps.accepted hvalid)
  have hrefused : (validate plainUnicode plainDb.categories
      (mergeData plainUnicode (labelled "Supply") voltageDraft).1).toOption = none := by
    decide +kernel
  rw [hrefused] at hmerged
  cases hmerged

end ComponentKb.Legacy
