import ComponentKb.Catalog.Effects

/-!
# What the cards share

Tags and property definitions are rows of their own, which the cards that use them read. Storing a
draft adds rows of both kinds, and it may change a definition: the first number given to a text
settles its unit, and a property that is used both as a number and as a text becomes mixed. A mixed
property has no unit where it is a text.

* `storeProperties_kept`: what storing properties leaves of a definition.
* `Stores`: the one card whose content a transaction stores, and what it does to the shared rows.
* `others_iff`: every other card reads back as before, unless a number is stored under a text that
  has a unit and that another card uses.
* `unit_lost`: a card loses a unit when another card is created.
-/

namespace ComponentKb.Catalog

open ComponentKb.Lib

/-! ## Definitions -/

/-- What storing properties leaves of a definition; `counted` says that one of them is a number. -/
structure Restyled (counted : Prop) (before after : PropertyDefinition) : Prop where
  label : after.label = before.label
  number : before.valueType ≠ .text → after.valueType ≠ .text ∧ after.unit = before.unit
  text : before.valueType = .text → ¬ counted → after = before
  mixed : before.valueType = .text → counted →
    after.valueType ≠ .text ∧ (before.unit.isSome → after.unit = before.unit)

section Definitions

variable {u : Unicode} {definitions definitions' : List PropertyDefinition} {position : Nat}
  {item : TechnicalSpecification} {counted counted' : Prop}

theorem Restyled.refl (d : PropertyDefinition) : Restyled False d d :=
  ⟨rfl, fun h => ⟨h, rfl⟩, fun _ _ => rfl, fun _ h => h.elim⟩

theorem Restyled.trans {a b c : PropertyDefinition} (h₁ : Restyled counted a b)
    (h₂ : Restyled counted' b c) : Restyled (counted ∨ counted') a c := by
  refine ⟨h₂.label.trans h₁.label, ?_, ?_, ?_⟩
  · intro htext
    obtain ⟨hb, hunit⟩ := h₁.number htext
    obtain ⟨hc, hunit'⟩ := h₂.number hb
    exact ⟨hc, hunit'.trans hunit⟩
  · intro htext hno
    obtain rfl := h₁.text htext fun h => hno (Or.inl h)
    exact h₂.text htext fun h => hno (Or.inr h)
  · intro htext hcounted
    by_cases hfirst : counted
    · obtain ⟨hb, hunit⟩ := h₁.mixed htext hfirst
      obtain ⟨hc, hunit'⟩ := h₂.number hb
      exact ⟨hc, fun hsome => hunit'.trans (hunit hsome)⟩
    · obtain rfl := h₁.text htext hfirst
      exact h₂.mixed htext (hcounted.resolve_left hfirst)

theorem Restyled.congr {a b : PropertyDefinition} (h : Restyled counted a b)
    (hiff : counted ↔ counted') : Restyled counted' a b := by
  rw [← propext hiff]
  exact h

@[simp] theorem PropertyDefinition.usedAs_key (d : PropertyDefinition) (t : ValueType) :
    (d.usedAs t).key = d.key := rfl

@[simp] theorem PropertyDefinition.settled_key (d : PropertyDefinition) (unit : Option String) :
    (d.settled unit).key = d.key := by
  unfold PropertyDefinition.settled
  split <;> rfl

/-- A property that is no text stays none. -/
theorem usedAs_ne_text {d : PropertyDefinition} (h : d.valueType ≠ .text) (t : ValueType) :
    (d.usedAs t).valueType ≠ .text := by
  change (if d.valueType = t then t else .mixed) ≠ .text
  split
  · rename_i heq
    rw [← heq]
    exact h
  · decide

theorem usedAs_number {d : PropertyDefinition} (h : d.valueType = .text) :
    (d.usedAs .number).valueType = .mixed := by
  change (if d.valueType = .number then .number else .mixed) = ValueType.mixed
  rw [h]
  rfl

theorem usedAs_restyled (d : PropertyDefinition) (item : TechnicalSpecification) :
    Restyled item.valueNumber.isSome d (d.usedAs item.valueType) := by
  refine ⟨rfl, fun hno => ⟨usedAs_ne_text hno _, rfl⟩, fun htext hno => ?_, fun htext hcounted => ?_⟩
  · rw [TechnicalSpecification.valueType, if_neg hno, PropertyDefinition.usedAs, if_pos htext,
      ← htext]
  · rw [TechnicalSpecification.valueType, if_pos hcounted]
    refine ⟨?_, fun _ => rfl⟩
    rw [usedAs_number htext]
    decide

/-- A number under a definition settles its unit, and makes a text mixed. -/
theorem settled_restyled (d : PropertyDefinition) {item : TechnicalSpecification}
    (hnumber : item.valueNumber.isSome) :
    Restyled item.valueNumber.isSome d ((d.settled item.unit).usedAs item.valueType) := by
  unfold PropertyDefinition.settled
  split
  · rename_i h
    obtain ⟨htext, hunit⟩ := h
    refine ⟨rfl, fun hno => absurd htext hno, fun _ hno => absurd hnumber hno, fun _ _ => ⟨?_, ?_⟩⟩
    · rw [TechnicalSpecification.valueType, if_pos hnumber,
        usedAs_number (d := { d with unit := unitSymbol item.unit }) htext]
      decide
    · intro hsome
      rw [hunit] at hsome
      cases hsome
  · exact usedAs_restyled d item

theorem enteredNumber_isSome {number : Decimal} (h : enteredNumber u item = some number) :
    item.valueNumber.isSome := by
  obtain ⟨entered, hentered, -⟩ := Option.map_eq_some_iff.mp h
  obtain ⟨text, htext, -⟩ := Option.bind_eq_some_iff.mp hentered
  exact Option.isSome_of_eq_some htext

/-- A definition that was there, after one property is stored. -/
theorem storeDefinition_kept {number : Option Decimal} {key : String} {d : PropertyDefinition}
    (h : storeDefinition u definitions position item = .ok (definitions', number))
    (hfound : lookup PropertyDefinition.key definitions key = some d) :
    ∃ d', lookup PropertyDefinition.key definitions' key = some d' ∧
      Restyled (item.key = key ∧ item.valueNumber.isSome) d d' := by
  have hother : ∀ new : PropertyDefinition, new.key = item.key → item.key ≠ key →
      ∃ d', lookup PropertyDefinition.key (replace PropertyDefinition.key definitions new) key =
        some d' ∧ Restyled (item.key = key ∧ item.valueNumber.isSome) d d' := by
    intro new hnew hne
    refine ⟨d, ?_, (Restyled.refl d).congr (by simp [hne])⟩
    rw [lookup_replace_ne (by rw [hnew]; exact hne)]
    exact hfound
  unfold storeDefinition at h
  cases hold : lookup PropertyDefinition.key definitions item.key with
  | none =>
    rw [hold] at h
    cases h
    have hne : item.key ≠ key := by
      rintro rfl
      rw [hold] at hfound
      cases hfound
    refine ⟨d, ?_, (Restyled.refl d).congr (by simp [hne])⟩
    rw [lookup_append_of_isSome (Option.isSome_of_eq_some hfound)]
    exact hfound
  | some old =>
    rw [hold] at h
    obtain ⟨-, h⟩ := seq_eq_ok.mp h
    have hkey : old.key = item.key := key_of_lookup hold
    by_cases hne : item.key = key
    · subst hne
      obtain rfl := Option.some.inj (hold.symm.trans hfound)
      have hself : ∀ new : PropertyDefinition, new.key = item.key →
          lookup PropertyDefinition.key (replace PropertyDefinition.key definitions new) item.key =
            some new := by
        intro new hnew
        rw [← hnew] at hold ⊢
        exact lookup_replace_self hold
      cases hentered : enteredNumber u item with
      | none =>
        rw [hentered] at h
        cases h
        exact ⟨_, hself _ hkey, (usedAs_restyled old item).congr (by simp)⟩
      | some entered =>
        rw [hentered] at h
        obtain ⟨converted, -, h⟩ := bind_eq_ok.mp h
        cases h
        refine ⟨_, hself _ ?_, (settled_restyled old (enteredNumber_isSome hentered)).congr ?_⟩
        · rw [PropertyDefinition.usedAs_key, PropertyDefinition.settled_key, hkey]
        · simp
    · cases hentered : enteredNumber u item with
      | none =>
        rw [hentered] at h
        cases h
        exact hother _ hkey hne
      | some entered =>
        rw [hentered] at h
        obtain ⟨converted, -, h⟩ := bind_eq_ok.mp h
        cases h
        refine hother _ ?_ hne
        rw [PropertyDefinition.usedAs_key, PropertyDefinition.settled_key, hkey]

/-- **A definition that was there, after a draft is stored.** -/
theorem storeProperties_kept {items : List TechnicalSpecification}
    {properties : List ComponentProperty} {key : String} {d : PropertyDefinition}
    (h : storeProperties u definitions position items = .ok (definitions', properties))
    (hfound : lookup PropertyDefinition.key definitions key = some d) :
    ∃ d', lookup PropertyDefinition.key definitions' key = some d' ∧
      Restyled (∃ item ∈ items, item.key = key ∧ item.valueNumber.isSome) d d' := by
  induction items generalizing definitions position properties d with
  | nil =>
    cases h
    exact ⟨d, hfound, (Restyled.refl d).congr (by simp)⟩
  | cons item rest ih =>
    obtain ⟨⟨definitions₁, number⟩, hfirst, h⟩ := bind_eq_ok.mp h
    obtain ⟨-, h⟩ := seq_eq_ok.mp h
    obtain ⟨⟨definitions₂, stored⟩, hrest, h⟩ := bind_eq_ok.mp h
    cases h
    obtain ⟨d₁, hd₁, hrestyled₁⟩ := storeDefinition_kept hfirst hfound
    obtain ⟨d₂, hd₂, hrestyled₂⟩ := ih hrest hd₁
    exact ⟨d₂, hd₂, (hrestyled₁.trans hrestyled₂).congr (by simp)⟩

/-- A stored number has a definition that is no text. -/
theorem storeDefinition_found {number : Option Decimal}
    (h : storeDefinition u definitions position item = .ok (definitions', number)) :
    ∃ d, lookup PropertyDefinition.key definitions' item.key = some d ∧
      (number.isSome → d.valueType ≠ .text) := by
  cases hold : lookup PropertyDefinition.key definitions item.key with
  | none =>
    unfold storeDefinition at h
    rw [hold] at h
    cases h
    refine ⟨⟨item.key, strip item.label, item.valueType, unitSymbol item.unit⟩, ?_, ?_⟩
    · rw [lookup_append, hold, if_pos rfl, Option.none_or]
    · intro hsome
      obtain ⟨entered, hentered⟩ := Option.isSome_iff_exists.mp hsome
      change item.valueType ≠ .text
      rw [TechnicalSpecification.valueType, if_pos (enteredNumber_isSome hentered)]
      decide
  | some old =>
    obtain ⟨d, hd, hrestyled⟩ := storeDefinition_kept h hold
    refine ⟨d, hd, fun hsome => ?_⟩
    have hnumber : item.valueNumber.isSome := by
      unfold storeDefinition at h
      rw [hold] at h
      obtain ⟨-, h⟩ := seq_eq_ok.mp h
      cases hentered : enteredNumber u item with
      | none =>
        rw [hentered] at h
        cases h
        cases hsome
      | some entered => exact enteredNumber_isSome hentered
    by_cases htext : old.valueType = .text
    · exact (hrestyled.mixed htext ⟨rfl, hnumber⟩).1
    · exact (hrestyled.number htext).1

/-- The definitions that a list of properties needs are there, and its numbers are no texts. -/
def Defined (definitions : List PropertyDefinition) (properties : List ComponentProperty) : Prop :=
  ∀ p ∈ properties, ∃ d, lookup PropertyDefinition.key definitions p.definition = some d ∧
    (p.valueNumber.isSome → d.valueType ≠ .text)

theorem Defined.stored {items : List TechnicalSpecification}
    {properties properties' : List ComponentProperty} (hi : Defined definitions properties)
    (h : storeProperties u definitions position items = .ok (definitions', properties')) :
    Defined definitions' properties := by
  intro p hp
  obtain ⟨d, hd, hnumber⟩ := hi p hp
  obtain ⟨d', hd', hrestyled⟩ := storeProperties_kept h hd
  exact ⟨d', hd', fun hsome => (hrestyled.number (hnumber hsome)).1⟩

theorem storeProperties_defined {items : List TechnicalSpecification}
    {properties : List ComponentProperty}
    (h : storeProperties u definitions position items = .ok (definitions', properties)) :
    Defined definitions' properties := by
  induction items generalizing definitions position properties with
  | nil =>
    cases h
    intro p hp
    cases hp
  | cons item rest ih =>
    obtain ⟨⟨definitions₁, number⟩, hfirst, h⟩ := bind_eq_ok.mp h
    obtain ⟨-, h⟩ := seq_eq_ok.mp h
    obtain ⟨⟨definitions₂, stored⟩, hrest, h⟩ := bind_eq_ok.mp h
    cases h
    intro p hp
    rcases List.mem_cons.mp hp with rfl | hp
    · obtain ⟨d, hd, hnumber⟩ := storeDefinition_found hfirst
      have hone : Defined definitions₁ [⟨item.key, item.valueText, number.map Decimal.stored⟩] := by
        intro p hp
        obtain rfl := List.mem_singleton.mp hp
        exact ⟨d, hd, fun hsome => hnumber (by simpa using hsome)⟩
      exact hone.stored hrest _ (List.mem_singleton_self _)
    · exact ih hrest p hp

end Definitions

/-! ## What a card reads of the shared rows -/

section Reading

variable {u : Unicode} {db db' : Db} {card card' : Card}

/-- Two readings of a list that find something for every row agree on every row. -/
theorem filterMap_inj {α β : Type*} {f g : α → Option β} {xs : List α}
    (hf : ∀ x ∈ xs, (f x).isSome) (hg : ∀ x ∈ xs, (g x).isSome)
    (h : xs.filterMap f = xs.filterMap g) : ∀ x ∈ xs, f x = g x := by
  induction xs with
  | nil =>
    intro x hx
    cases hx
  | cons x xs ih =>
    obtain ⟨hfx, hfs⟩ := List.forall_mem_cons.mp hf
    obtain ⟨hgx, hgs⟩ := List.forall_mem_cons.mp hg
    obtain ⟨y, hy⟩ := Option.isSome_iff_exists.mp hfx
    obtain ⟨z, hz⟩ := Option.isSome_iff_exists.mp hgx
    rw [List.filterMap_cons_some hy, List.filterMap_cons_some hz] at h
    obtain ⟨rfl, htail⟩ := List.cons.inj h
    exact List.forall_mem_cons.mpr ⟨hy.trans hz.symm, ih hfs hgs htail⟩

/-- The unit that a property is read with. -/
def PropertyDefinition.unitOf (d : PropertyDefinition) (p : ComponentProperty) : Option String :=
  if p.valueNumber.isSome ∨ d.valueType = .text then d.unit else none

theorem readSpecification_of_found {definitions : List PropertyDefinition} {position : Nat}
    {p : ComponentProperty} {d : PropertyDefinition}
    (h : lookup PropertyDefinition.key definitions p.definition = some d) :
    readSpecification definitions position p = some
      { key := p.definition
        label := d.label
        valueText := p.valueText
        valueNumber := p.valueNumber.map Decimal.toString
        unit := d.unitOf p
        position := position } := by
  rw [readSpecification, h, Option.map_some, key_of_lookup h]
  rfl

/-- When a property is read as before under a definition that others have used. -/
theorem Restyled.unitOf_eq_iff {counted : Prop} {d d' : PropertyDefinition} {p : ComponentProperty}
    (h : Restyled counted d d') (hnumber : p.valueNumber.isSome → d.valueType ≠ .text) :
    d'.unitOf p = d.unitOf p ↔ ¬ (counted ∧ d.valueType = .text ∧ d.unit.isSome) := by
  by_cases htext : d.valueType = .text
  · have hno : ¬ p.valueNumber.isSome := fun hsome => hnumber hsome htext
    by_cases hcounted : counted
    · obtain ⟨hmixed, -⟩ := h.mixed htext hcounted
      rw [PropertyDefinition.unitOf, if_neg (not_or.mpr ⟨hno, hmixed⟩), PropertyDefinition.unitOf,
        if_pos (Or.inr htext)]
      cases d.unit <;> simp [hcounted, htext]
    · rw [h.text htext hcounted]
      simp [hcounted]
  · obtain ⟨hmixed, hunit⟩ := h.number htext
    simp [PropertyDefinition.unitOf, hmixed, hunit, htext]

/-- Properties are read as before just when their units are. -/
theorem specifications_eq_iff {definitions definitions' : List PropertyDefinition}
    {properties : List ComponentProperty} {counted : String → Prop}
    (hdefined : Defined definitions properties)
    (hrestyled : ∀ key d, lookup PropertyDefinition.key definitions key = some d →
      ∃ d', lookup PropertyDefinition.key definitions' key = some d' ∧
        Restyled (counted key) d d') :
    (properties.zipIdx.filterMap fun p => readSpecification definitions' p.2 p.1) =
        (properties.zipIdx.filterMap fun p => readSpecification definitions p.2 p.1) ↔
      ∀ p ∈ properties, ∀ d, lookup PropertyDefinition.key definitions p.definition = some d →
        ¬ (counted p.definition ∧ d.valueType = .text ∧ d.unit.isSome) := by
  have hread : ∀ p ∈ properties, ∀ position, ∃ d d' : PropertyDefinition,
      lookup PropertyDefinition.key definitions p.definition = some d ∧
        readSpecification definitions position p = some
          ⟨p.definition, d.label, p.valueText, p.valueNumber.map Decimal.toString, d.unitOf p,
            position⟩ ∧
        readSpecification definitions' position p = some
          ⟨p.definition, d.label, p.valueText, p.valueNumber.map Decimal.toString, d'.unitOf p,
            position⟩ ∧
        (d'.unitOf p = d.unitOf p ↔
          ¬ (counted p.definition ∧ d.valueType = .text ∧ d.unit.isSome)) := by
    intro p hp position
    obtain ⟨d, hd, hnumber⟩ := hdefined p hp
    obtain ⟨d', hd', hr⟩ := hrestyled _ d hd
    refine ⟨d, d', hd, readSpecification_of_found hd, ?_, hr.unitOf_eq_iff hnumber⟩
    rw [readSpecification_of_found hd', hr.label]
  constructor
  · intro heq p hp d hd
    obtain ⟨i, hi, rfl⟩ := List.mem_iff_getElem.mp hp
    obtain ⟨d₁, d', hd₁, hbefore, hafter, hiff⟩ := hread _ hp i
    obtain rfl := Option.some.inj (hd.symm.trans hd₁)
    have hsome : ∀ x ∈ properties.zipIdx, (readSpecification definitions' x.2 x.1).isSome ∧
        (readSpecification definitions x.2 x.1).isSome := by
      intro x hx
      obtain ⟨_, _, -, h₁, h₂, -⟩ := hread x.1 (List.fst_mem_of_mem_zipIdx hx) x.2
      rw [h₁, h₂]
      exact ⟨rfl, rfl⟩
    have hmem : (properties[i], i) ∈ properties.zipIdx :=
      List.mem_zipIdx_iff_getElem?.mpr (List.getElem?_eq_getElem hi)
    have hsame := filterMap_inj (fun x hx => (hsome x hx).1) (fun x hx => (hsome x hx).2) heq _ hmem
    rw [hbefore, hafter] at hsame
    injection hsame with hsame
    injection hsame with _ _ _ _ hunit
    exact hiff.mp hunit
  · intro hall
    refine List.filterMap_congr fun x hx => ?_
    have hp := List.fst_mem_of_mem_zipIdx hx
    obtain ⟨d, d', hd, hbefore, hafter, hiff⟩ := hread x.1 hp x.2
    rw [hbefore, hafter, hiff.mpr (hall _ hp d hd)]

/-- Adding tags changes nothing about those that are there. -/
theorem ensureTags_kept {tags : List Tag} {values : List String} {name : String} {tag : Tag}
    (h : lookup Tag.normalizedName tags name = some tag) :
    lookup Tag.normalizedName (ensureTags u tags values) name = some tag := by
  unfold ensureTags
  induction values generalizing tags with
  | nil => exact h
  | cons value rest ih =>
    rw [List.foldl_cons]
    apply ih
    split
    · exact h
    · rw [lookup_append_of_isSome (Option.isSome_of_eq_some h)]
      exact h

theorem ensureTags_found {tags : List Tag} {values : List String} :
    ∀ value ∈ values,
      (lookup Tag.normalizedName (ensureTags u tags values) (normalized u value)).isSome := by
  induction values generalizing tags with
  | nil =>
    intro value hvalue
    cases hvalue
  | cons first rest ih =>
    intro value hvalue
    rcases List.mem_cons.mp hvalue with rfl | hvalue
    · have hfirst : (lookup Tag.normalizedName
          (if (lookup Tag.normalizedName tags (normalized u value)).isSome then tags
            else tags ++ [⟨strip value, normalized u value⟩]) (normalized u value)).isSome := by
        split
        · assumption
        · rename_i hnone
          rw [lookup_append, Option.not_isSome_iff_eq_none.mp hnone, if_pos rfl]
          rfl
      obtain ⟨tag, htag⟩ := Option.isSome_iff_exists.mp hfirst
      have hkept : lookup Tag.normalizedName (ensureTags u _ rest) (normalized u value) = some tag :=
        ensureTags_kept htag
      exact Option.isSome_of_eq_some hkept
    · exact ih value hvalue

end Reading

/-! ## Transactions -/

/-- What the draft of a card is stored in. -/
def Card.written (card : Card) : Columns × Details := (card.row.toColumns, card.details)

/-- No draft is stored. -/
structure Leaves (db db' : Db) : Prop where
  cards : ∀ id, (db'.card id).map Card.written = (db.card id).map Card.written
  tags : db'.tags = db.tags
  definitions : db'.definitions = db.definitions

/-- The draft of one card is stored. -/
structure Stores (u : Unicode) (db db' : Db) (id : UUID) (data : DraftData) : Prop where
  others : ∀ other, id ≠ other → (db'.card other).map Card.written = (db.card other).map Card.written
  tags : db'.tags = ensureTags u db.tags data.tags
  definitions : ∃ properties,
    storeProperties u db.definitions 0 data.specifications = .ok (db'.definitions, properties) ∧
      ∀ card', db'.card id = some card' →
        card'.details.properties = properties ∧ card'.details.tags = data.tags.map (normalized u)

/-- A category is active; this is what `_validate` asks of the category of a draft. -/
def Active (categories : List Category) (id : UUID) : Prop :=
  ∃ category ∈ categories, category.id = id ∧ category.isActive

instance (categories : List Category) (id : UUID) : Decidable (Active categories id) :=
  inferInstanceAs (Decidable (∃ category ∈ categories, _))

/-- The draft of one card is stored, under a category that was active. -/
structure StoresUnder (u : Unicode) (db db' : Db) (id : UUID) (data : DraftData) : Prop extends
    Stores u db db' id data where
  category : ∃ card', db'.card id = some card' ∧
    card'.row.primaryCategoryId = data.primaryCategoryId
  active : Active db.categories data.primaryCategoryId

section Transactions

variable {u : Unicode} {db db₁ db' : Db} {id actor : UUID} {data : DraftData} {revision token : Nat}
  {now later : Time}

theorem Leaves.of_cards (hcards : db'.cards = db.cards) (htags : db'.tags = db.tags)
    (hdefinitions : db'.definitions = db.definitions) : Leaves db db' := by
  refine ⟨fun id => ?_, htags, hdefinitions⟩
  rw [Db.card, Db.card, hcards]

theorem Leaves.refl (db : Db) : Leaves db db := .of_cards rfl rfl rfl

theorem Leaves.trans (h₁ : Leaves db db₁) (h₂ : Leaves db₁ db') : Leaves db db' :=
  ⟨fun id => (h₂.cards id).trans (h₁.cards id), h₂.tags.trans h₁.tags,
    h₂.definitions.trans h₁.definitions⟩

theorem Leaves.put {new : Card} (old : Card) (hfound : db.card new.id = some old)
    (hwritten : new.written = old.written) : Leaves db (db.put new) := by
  refine ⟨fun id => ?_, rfl, rfl⟩
  by_cases hid : new.id = id
  · subst hid
    rw [Db.put_card_self new hfound, hfound, Option.map_some, Option.map_some, hwritten]
  · rw [Db.put_card_ne hid]

/-- The card with the same row and details, before a transaction that did not store it. -/
theorem written_before {card' : Card}
    (h : (db'.card id).map Card.written = (db.card id).map Card.written)
    (hcard' : db'.card id = some card') :
    ∃ card, db.card id = some card ∧ card'.row.toColumns = card.row.toColumns ∧
      card'.details = card.details := by
  rw [hcard', Option.map_some] at h
  obtain ⟨card, hcard, hwritten⟩ := Option.map_eq_some_iff.mp h.symm
  injection hwritten with hcolumns hdetails
  exact ⟨card, hcard, hcolumns.symm, hdetails.symm⟩

theorem StoresUnder.after (h : StoresUnder u db db₁ id data) (hlast : Leaves db₁ db') :
    StoresUnder u db db' id data := by
  obtain ⟨properties, hstored, hdetails⟩ := h.definitions
  refine ⟨⟨fun other hne => (hlast.cards other).trans (h.others other hne),
    hlast.tags.trans h.tags, properties, hlast.definitions ▸ hstored, fun card' hcard' => ?_⟩, ?_,
    h.active⟩
  · obtain ⟨card, hcard, -, hd⟩ := written_before (hlast.cards id) hcard'
    rw [hd]
    exact hdetails card hcard
  · obtain ⟨card, hcard, hcategory⟩ := h.category
    obtain ⟨card', hcard', hcolumns, -⟩ := written_before (hlast.cards id).symm hcard
    refine ⟨card', hcard', ?_⟩
    rw [← hcategory, hcolumns]

theorem StoresUnder.before (hfirst : Leaves db db₁) (hcategories : db₁.categories = db.categories)
    (h : StoresUnder u db₁ db' id data) : StoresUnder u db db' id data := by
  obtain ⟨properties, hstored, hdetails⟩ := h.definitions
  refine ⟨⟨fun other hne => (h.others other hne).trans (hfirst.cards other), ?_, properties, ?_,
    hdetails⟩, h.category, hcategories ▸ h.active⟩
  · rw [h.tags, hfirst.tags]
  · rw [← hfirst.definitions]
    exact hstored

theorem replaceChildren_spec {details : Details} (h : replaceChildren u db data = .ok (db', details)) :
    db'.tags = ensureTags u db.tags data.tags ∧ db'.cards = db.cards ∧
      storeProperties u db.definitions 0 data.specifications =
        .ok (db'.definitions, details.properties) ∧
      details.tags = data.tags.map (normalized u) := by
  obtain ⟨⟨definitions, properties⟩, hstored, h⟩ := bind_eq_ok.mp h
  cases h
  exact ⟨rfl, rfl, hstored, rfl⟩

/-- A draft is stored in a card that is there. -/
theorem StoresUnder.put {details : Details} {new : Card} (old : Card)
    (h : replaceChildren u db data = .ok (db₁, details)) (hfound : db.card new.id = some old)
    (hactive : Active db.categories data.primaryCategoryId) (hdetails : new.details = details)
    (hcategory : new.row.primaryCategoryId = data.primaryCategoryId) :
    StoresUnder u db (db₁.put new) new.id data := by
  obtain ⟨htags, hcards, hstored, hnames⟩ := replaceChildren_spec h
  have hfound₁ : db₁.card new.id = some old := by
    rw [Db.card, hcards]
    exact hfound
  refine ⟨⟨fun other hne => ?_, htags, _, hstored, fun card' hcard' => ?_⟩,
    ⟨new, Db.put_card_self new hfound₁, hcategory⟩, hactive⟩
  · rw [Db.put_card_ne hne, Db.card, hcards]
    rfl
  · rw [Db.put_card_self new hfound₁] at hcard'
    cases hcard'
    rw [hdetails]
    exact ⟨rfl, hnames⟩

theorem update_stores {recordHistory : Bool}
    (h : update u db id revision data actor now recordHistory = .ok db') :
    StoresUnder u db db' id data := by
  obtain ⟨card, tags, definitions, details, hcard, -, -, -, hvalid, hchildren, -, rfl⟩ :=
    update_spec h
  have hid : card.id = id := Db.id_of_card hcard
  have hstores : StoresUnder u db
      (({ db with tags := tags, definitions := definitions } : Db).put
        ((card.filled u data details).edited u { db with tags := tags, definitions := definitions }
          data actor now .updated recordHistory)) _ data :=
    StoresUnder.put card hchildren (by rw [Card.edited_id]; exact hid ▸ hcard)
      (validate_category hvalid) (by simp [Card.filled]) (by rw [Card.edited_row]; rfl)
  rw [Card.edited_id] at hstores
  exact hid ▸ hstores

/-- A draft is stored in a new card. -/
theorem StoresUnder.append {details : Details} (new : Card)
    (h : replaceChildren u db data = .ok (db₁, details)) (hfresh : db.card new.id = none)
    (hcards : db'.cards = db.cards ++ [new]) (htags : db'.tags = db₁.tags)
    (hdefinitions : db'.definitions = db₁.definitions)
    (hactive : Active db.categories data.primaryCategoryId) (hdetails : new.details = details)
    (hcategory : new.row.primaryCategoryId = data.primaryCategoryId) :
    StoresUnder u db db' new.id data := by
  obtain ⟨htags', -, hstored, hnames⟩ := replaceChildren_spec h
  have hnew : db'.card new.id = some new := by
    rw [Db.card, hcards, lookup_append, ← Db.card, hfresh, Option.none_or, if_pos rfl]
  refine ⟨⟨fun other hne => ?_, htags.trans htags', _, hdefinitions ▸ hstored,
    fun card' hcard' => ?_⟩, ⟨new, hnew, hcategory⟩, hactive⟩
  · rw [Db.card, hcards, lookup_append, if_neg hne, Option.or_none]
    rfl
  · obtain rfl := Option.some.inj (hnew.symm.trans hcard')
    rw [hdetails]
    exact ⟨rfl, hnames⟩

theorem create_stores {images : List ImageMutation} {primary : Option UUID}
    (h : create u db id data images primary actor now = .ok db') (hfresh : db.card id = none) :
    StoresUnder u db db' id data := by
  have hstores : StoresUnder u db db' id (newData id data) := by
    obtain ⟨hvalid, h⟩ := seq_eq_ok.mp h
    obtain ⟨-, h⟩ := seq_eq_ok.mp h
    obtain ⟨⟨db₁, details⟩, hchildren, h⟩ := bind_eq_ok.mp h
    obtain ⟨assets, -, h⟩ := bind_eq_ok.mp h
    cases h
    obtain ⟨tags, definitions, rfl⟩ := replaceChildren_frame hchildren
    exact StoresUnder.append (newCard u db id (newData id data) details assets actor now) hchildren
      hfresh rfl rfl rfl (validate_category hvalid) rfl rfl
  -- the slug is no part of what the shared rows hold
  have hdata : (newData id data).tags = data.tags ∧
      (newData id data).specifications = data.specifications ∧
      (newData id data).primaryCategoryId = data.primaryCategoryId := by
    unfold newData
    split <;> exact ⟨rfl, rfl, rfl⟩
  obtain ⟨⟨hothers, htags, hdefinitions⟩, hcategory, hactive⟩ := hstores
  rw [hdata.1] at htags hdefinitions
  rw [hdata.2.1] at hdefinitions
  rw [hdata.2.2] at hcategory hactive
  exact ⟨⟨hothers, htags, hdefinitions⟩, hcategory, hactive⟩

theorem edited_written (card : Card) (data : DraftData) (action : ComponentChangeAction)
    (recordHistory : Bool) :
    (card.edited u db data actor now action recordHistory).written = card.written := by
  rw [Card.written, Card.written, Card.edited_row, Card.edited_details]
  rfl

theorem mutateImages_leaves {images : List ImageMutation} {primary : Option UUID}
    {recordHistory : Bool}
    (h : mutateImages u db id revision images primary actor now recordHistory = .ok db') :
    Leaves db db' := by
  obtain ⟨card, uploads, next, hcard, -, -, rfl, rfl⟩ := mutateImages_spec h
  obtain rfl := Db.id_of_card hcard
  have huploads : Leaves db { db with uploads := uploads } := .of_cards rfl rfl rfl
  refine huploads.trans (Leaves.put card ?_ (edited_written ..))
  rw [Card.edited_id]
  exact hcard

theorem touchMediaAttachment_leaves
    (h : touchMediaAttachment u db id revision actor now = .ok db') : Leaves db db' := by
  obtain ⟨card, hcard, -, -, rfl⟩ := touchMediaAttachment_spec h
  obtain rfl := Db.id_of_card hcard
  refine Leaves.put card ?_ (edited_written ..)
  rw [Card.edited_id]
  exact hcard

theorem transition_leaves {target : ComponentStatus}
    (h : transition u db id revision target actor now = .ok db') : Leaves db db' := by
  obtain ⟨card, action, hcard, -, -, -, -, rfl⟩ := transition_spec h
  obtain rfl := Db.id_of_card hcard
  exact Leaves.put card hcard rfl

theorem lifecycle_leaves {action : LifecycleAction}
    (h : lifecycle u db id revision action actor now = .ok db') : Leaves db db' := by
  cases action with
  | «show» =>
    obtain ⟨card, _, hcard, -, -, -, rfl⟩ := showHidden_spec h
    obtain rfl := Db.id_of_card hcard
    exact Leaves.put card hcard rfl
  | restore =>
    obtain ⟨card, _, hcard, -, -, -, -, rfl⟩ := restoreArchived_spec h
    obtain rfl := Db.id_of_card hcard
    exact Leaves.put card hcard rfl
  | submit | requestChanges | approve | publish | hide | archive => exact transition_leaves h

theorem attachNew_leaves {card : Card} {ids : List UUID}
    (h : attachNew db card actor ids now = .ok db') (hcard : db.card card.id = some card) :
    Leaves db db' := by
  obtain ⟨attached, rfl⟩ := attachNew_spec h
  have htaken : Leaves db (db.taken ids) := .of_cards rfl rfl rfl
  exact htaken.trans (Leaves.put card hcard rfl)

theorem synchronize_stores {images : List ImageMutation} {primary : Option UUID}
    (h : synchronize u db id token data images primary actor now later = .ok db') :
    StoresUnder u db db' id data := by
  obtain ⟨card, hcard, h⟩ := bind_eq_ok.mp h
  obtain ⟨hcard, -⟩ := lockToken_eq_ok.mp hcard
  obtain ⟨-, h⟩ := seq_eq_ok.mp h
  obtain ⟨-, h⟩ := seq_eq_ok.mp h
  obtain ⟨-, h⟩ := seq_eq_ok.mp h
  obtain ⟨db₁, hattach, h⟩ := bind_eq_ok.mp h
  obtain ⟨db₂, hupdate, hmutate⟩ := bind_eq_ok.mp h
  obtain rfl := Db.id_of_card hcard
  have hcategories : db₁.categories = db.categories := by
    obtain ⟨attached, rfl⟩ := attachNew_spec hattach
    rfl
  exact ((update_stores hupdate).before (attachNew_leaves hattach hcard) hcategories).after
    (mutateImages_leaves hmutate)

theorem attachSource_leaves {relation : ComponentSource}
    (h : attachSource db id relation = .ok db') : Leaves db db' := by
  obtain ⟨card, hcard, h⟩ := bind_eq_ok.mp h
  cases h
  obtain rfl := Db.id_of_card (locked_eq_ok.mp hcard)
  exact Leaves.put card (locked_eq_ok.mp hcard) rfl

theorem linkLegacy_leaves {identity title : String} {images : List LegacyImage} {owner : UUID}
    (h : linkLegacy db id identity images owner title now = .ok db') : Leaves db db' := by
  obtain ⟨card, hcard, h⟩ := bind_eq_ok.mp h
  obtain ⟨-, h⟩ := seq_eq_ok.mp h
  cases h
  obtain rfl := Db.id_of_card (locked_eq_ok.mp hcard)
  exact Leaves.put card (locked_eq_ok.mp hcard) rfl

theorem processMedia_leaves {assetId : UUID} {result : Media.MediaAsset}
    {variants : List MediaVariant} : Leaves db (processMedia db assetId result variants) := by
  refine ⟨fun id => ?_, rfl, rfl⟩
  have hprocessed : (processMedia db assetId result variants).card id =
      (db.card id).map fun card => { card with assets := card.assets.map fun asset =>
        if asset.id = assetId ∧ asset.status ≠ .ready then asset.processed result variants
        else asset } := lookup_map fun _ => rfl
  rw [hprocessed, Option.map_map]
  rfl

theorem reserveUpload_leaves {settings : UploadSettings} {assetId : UUID} {request : UploadRequest}
    (h : reserveUpload u settings db assetId request actor now = .ok db') : Leaves db db' := by
  obtain ⟨-, h⟩ := seq_eq_ok.mp h
  cases hcomponent : request.componentId with
  | none =>
    rw [hcomponent] at h
    cases h
    exact .of_cards rfl rfl rfl
  | some componentId =>
    rw [hcomponent] at h
    obtain ⟨revision, -, h⟩ := bind_eq_ok.mp h
    obtain ⟨card, hroom, h⟩ := bind_eq_ok.mp h
    obtain ⟨hcard, -⟩ := requireRoom_spec hroom
    obtain rfl := Db.id_of_card hcard
    refine Leaves.trans ?_ (touchMediaAttachment_leaves h)
    exact Leaves.put card hcard rfl

/-- The details of a survivor are those of the fields chosen from the two cards. -/
theorem mergeFields_children {survivor loser next : Card} {fieldSources : List (String × UUID)}
    (h : mergeFields u db survivor loser fieldSources = .ok (db₁, next, data)) :
    data = chosenData fieldSources
        (fun id => readData u db (if id = survivor.id then survivor else loser)) survivor.id ∧
      next.id = survivor.id ∧ Active db.categories data.primaryCategoryId ∧
        next.row.primaryCategoryId = data.primaryCategoryId ∧
        ∃ details, replaceChildren u db data = .ok (db₁, details) ∧ next.details = details := by
  obtain ⟨-, h⟩ := seq_eq_ok.mp h
  obtain ⟨hvalid, h⟩ := seq_eq_ok.mp h
  obtain ⟨⟨db₂, details⟩, hchildren, h⟩ := bind_eq_ok.mp h
  cases h
  refine ⟨rfl, ?_, validate_category hvalid, ?_, details, hchildren, rfl⟩
  · change (if _ then _ else _ : Component).id = _
    split <;> rfl
  · change (if _ then _ else _ : Component).primaryCategoryId = _
    split <;> rfl

/-- The draft that a merge stores in the survivor; attaching a card stores none. -/
theorem resolveDuplicatePair_stores {leftId rightId survivorId : UUID} {left right : Nat}
    {fieldSources : List (String × UUID)} {merge : Bool}
    (h : resolveDuplicatePair u db leftId rightId left right survivorId fieldSources actor now
      merge = .ok db') :
    ∃ loserId survivor loser,
      (survivorId = leftId ∧ loserId = rightId ∨ survivorId = rightId ∧ loserId = leftId) ∧
        survivorId ≠ loserId ∧ db.card survivorId = some survivor ∧ db.card loserId = some loser ∧
        (merge = false → Leaves db db') ∧
        (merge = true → StoresUnder u db db' survivorId (chosenData fieldSources
          (fun id => readData u db (if id = survivorId then survivor else loser)) survivorId)) := by
  obtain ⟨left, hleft, h⟩ := bind_eq_ok.mp h
  obtain ⟨right, hright, h⟩ := bind_eq_ok.mp h
  obtain ⟨hne, h⟩ := seq_eq_ok.mp h
  obtain ⟨-, h⟩ := seq_eq_ok.mp h
  obtain ⟨htarget, h⟩ := seq_eq_ok.mp h
  obtain ⟨⟨db₁, next, data⟩, hnext, h⟩ := bind_eq_ok.mp h
  cases h
  obtain ⟨loserId, survivor, loser, hids, hsurvivor, hloser, hne, hs, hl⟩ :=
    pair_survives (locked_eq_ok.mp hleft) (locked_eq_ok.mp hright) (require_eq_ok.mp hne)
      (require_eq_ok.mp htarget)
  rw [hs, hl] at hnext ⊢
  obtain rfl := Db.id_of_card hsurvivor
  obtain rfl := Db.id_of_card hloser
  refine ⟨loser.id, survivor, loser, hids, hne, hsurvivor, hloser, ?_, ?_⟩
  · rintro rfl
    cases hnext
    refine Leaves.trans ?_ (Leaves.put loser ?_ rfl)
    · exact Leaves.put next hsurvivor rfl
    · refine Eq.trans (Db.put_card_ne ?_) hloser
      exact hne
  · rintro rfl
    obtain ⟨rfl, hid, hactive, hcategory, details, hchildren, hdetails⟩ := mergeFields_children hnext
    have hcards : db₁.cards = db.cards := (replaceChildren_spec hchildren).2.1
    refine StoresUnder.after ?_ (Leaves.put loser ?_ rfl)
    · rw [← hid] at hsurvivor
      have hstores : ∀ kept : Card, kept.id = next.id → kept.details = next.details →
          kept.row.primaryCategoryId = next.row.primaryCategoryId →
          StoresUnder u db (db₁.put kept) next.id (chosenData fieldSources
            (fun id => readData u db (if id = survivor.id then survivor else loser)) survivor.id) := by
        intro kept hkept hsame hunder
        rw [← hkept] at hsurvivor ⊢
        exact StoresUnder.put survivor hchildren hsurvivor hactive (hsame.trans hdetails)
          (hunder.trans hcategory)
      rw [hid] at hstores
      exact hstores _ hid rfl rfl
    · refine Eq.trans (Db.put_card_ne ?_) ?_
      · exact fun hsame => hne (hid.symm.trans hsame)
      · rw [Db.card, hcards]
        exact hloser

end Transactions

/-- What a transaction that stores a draft, or none, does. -/
def Writes (u : Unicode) (db db' : Db) : Option (UUID × DraftData) → Prop
  | none => Leaves db db'
  | some (id, data) => Stores u db db' id data

/-- The same, with the category of the draft. -/
def WritesUnder (u : Unicode) (db db' : Db) : Option (UUID × DraftData) → Prop
  | none => Leaves db db'
  | some (id, data) => StoresUnder u db db' id data

/-- The card whose draft a request stores, and the draft. -/
def Event.stores (u : Unicode) (db : Db) (event : Event) : Option (UUID × DraftData) :=
  match event with
  | .createComponent id data .. => some (id, data)
  | .createDocument requestId id data .. =>
    if (lookup EditorCreation.requestId db.creations requestId).isSome then none
    else some (id, data)
  | .updateComponent id _ _ data .. => some (id, data)
  | .synchronize id _ data .. => some (id, data)
  | .decide _ .merge _ _ _ fieldSources .. => do
    let (survivorId, loserId) ← event.merge db
    let survivor ← db.card survivorId
    let loser ← db.card loserId
    some (survivorId, chosenData fieldSources
      (fun id => readData u db (if id = survivorId then survivor else loser)) survivorId)
  | .persistDraft sourceId keys draft newId .. =>
    if (exactComponent db sourceId keys).isSome then none else some (newId, draft)
  | .persistRepositoryDraft sourceId parsed draft newId .. =>
    if db.cards.any fun card => card.sources.any (·.isEntry sourceId parsed) then none
    else some (newId, draft)
  | .applyItem _ .create data _ newId .. => some (newId, data)
  | .applyItem _ (.merge componentId _ _) data .. => some (componentId, data)
  | _ => none

section Step

variable {u : Unicode} {env : Env} {event : Event} {db db' : Db}

/-- A card that is marked as imported stores the same tags and properties. -/
theorem StoresUnder.of_marked {id : UUID} {data : DraftData} {manualOriginal : Bool}
    (h : StoresUnder u db db' id { data with manualOriginal := manualOriginal }) :
    StoresUnder u db db' id data :=
  ⟨⟨h.others, h.tags, h.definitions⟩, h.category, h.active⟩

theorem decideDuplicate_stores {candidateId : UUID} {decision : DuplicateDecision}
    {left right : Nat} {survivorId : Option UUID} {fieldSources : List (String × UUID)}
    {actor : UUID} {now : Time}
    (h : decideDuplicate u db candidateId decision left right survivorId fieldSources actor now =
      .ok db') :
    WritesUnder u db db' (Event.stores u db
      (.decide candidateId decision left right survivorId fieldSources actor now)) := by
  obtain ⟨candidate, hcandidate, h⟩ := bind_eq_ok.mp h
  obtain ⟨-, h⟩ := seq_eq_ok.mp h
  obtain ⟨hdecision, h⟩ := seq_eq_ok.mp h
  obtain ⟨-, h⟩ := seq_eq_ok.mp h
  obtain ⟨db₁, hresolve, h⟩ := bind_eq_ok.mp h
  cases h
  replace hresolve := mapError_eq_ok.mp hresolve
  replace hcandidate := fromSome_eq_ok.mp hcandidate
  have hdecision := require_eq_ok.mp hdecision
  cases survivorId with
  | none =>
    obtain ⟨_, -, hresolve⟩ := bind_eq_ok.mp hresolve
    obtain ⟨_, -, hresolve⟩ := bind_eq_ok.mp hresolve
    obtain ⟨-, hresolve⟩ := seq_eq_ok.mp hresolve
    cases hresolve
    cases decision with
    | merge => simp [DuplicateDecision.resolves] at hdecision
    | attach | create | reject => exact Leaves.of_cards rfl rfl rfl
  | some survivor =>
    obtain ⟨loserId, card, loser, hids, hne, hcard, hloser, hleaves, hstores⟩ :=
      resolveDuplicatePair_stores hresolve
    have hlast : ∀ candidates, Leaves db₁ { db₁ with candidates := candidates } :=
      fun _ => .of_cards rfl rfl rfl
    cases decision with
    | merge =>
      have hmerge : (Event.decide candidateId .merge left right (some survivor) fieldSources actor
          now).merge db = some (survivor, loserId) := by
        rcases hids with ⟨hs, hl⟩ | ⟨hs, hl⟩
        · simp [Event.merge, DuplicateDecision.resolves, hcandidate, hs, hl]
        · simp [Event.merge, DuplicateDecision.resolves, hcandidate, ← hs, ← hl, hne]
      have hevent : Event.stores u db (.decide candidateId .merge left right (some survivor)
          fieldSources actor now) = some (survivor, chosenData fieldSources
            (fun id => readData u db (if id = survivor then card else loser)) survivor) := by
        simp [Event.stores, hmerge, hcard, hloser]
      rw [hevent]
      exact (hstores rfl).after (hlast _)
    | attach | create | reject => exact (hleaves rfl).trans (hlast _)

/-- **What a transaction stores**, and under which category. -/
theorem step_stores (h : step env db event = some db') :
    WritesUnder env.unicode db db' (event.stores env.unicode db) := by
  obtain ⟨hfresh, h⟩ := step_eq_some h
  have hnew : ∀ id, event.newId = some id → db.card id = none := by
    intro id hid
    rw [hid] at hfresh
    simpa using fun hno => hfresh (Or.inl hno)
  cases event with
  | createCategory id key name parentId description position =>
    change (if _ then _ else _) = _ at h
    split at h
    · cases h
    · obtain ⟨-, h⟩ := seq_eq_ok.mp (toOption_eq_some.mp h)
      obtain ⟨-, h⟩ := seq_eq_ok.mp h
      obtain ⟨-, h⟩ := seq_eq_ok.mp h
      cases h
      exact Leaves.of_cards rfl rfl rfl
  | deactivateCategory id =>
    obtain ⟨category, -, h⟩ := bind_eq_ok.mp (toOption_eq_some.mp h)
    obtain ⟨-, h⟩ := seq_eq_ok.mp h
    cases h
    exact Leaves.of_cards rfl rfl rfl
  | createComponent id data images primary actor now =>
    exact create_stores (toOption_eq_some.mp h) (hnew _ rfl)
  | createDocument requestId id data actor now =>
    replace h := toOption_eq_some.mp h
    unfold createDocument at h
    cases hcreation : lookup EditorCreation.requestId db.creations requestId with
    | some existing =>
      rw [hcreation] at h
      obtain ⟨-, h⟩ := seq_eq_ok.mp h
      cases h
      rw [Event.stores, hcreation]
      exact Leaves.refl db
    | none =>
      rw [hcreation] at h
      obtain ⟨db₁, hcreate, h⟩ := bind_eq_ok.mp h
      cases h
      rw [Event.stores, hcreation]
      exact (create_stores hcreate (hnew _ rfl)).after (.of_cards rfl rfl rfl)
  | updateComponent id revision token data actor now =>
    obtain ⟨-, h⟩ := seq_eq_ok.mp (toOption_eq_some.mp h)
    exact update_stores h
  | updateComponentImages id revision token images primary actor now =>
    obtain ⟨-, h⟩ := seq_eq_ok.mp (toOption_eq_some.mp h)
    exact mutateImages_leaves h
  | lifecycle id revision token action actor now =>
    obtain ⟨-, h⟩ := seq_eq_ok.mp (toOption_eq_some.mp h)
    exact lifecycle_leaves h
  | synchronize id token data images primary actor now later =>
    exact synchronize_stores (toOption_eq_some.mp h)
  | command id token action actor now =>
    obtain ⟨-, h⟩ := seq_eq_ok.mp (toOption_eq_some.mp h)
    obtain ⟨_, -, h⟩ := bind_eq_ok.mp h
    exact lifecycle_leaves h
  | approveAndPublish id token actor now later =>
    obtain ⟨_, -, h⟩ := bind_eq_ok.mp (toOption_eq_some.mp h)
    obtain ⟨-, h⟩ := seq_eq_ok.mp h
    obtain ⟨db₁, hfirst, h⟩ := bind_eq_ok.mp h
    exact (transition_leaves hfirst).trans (transition_leaves h)
  | reserveUpload assetId request actor now =>
    exact reserveUpload_leaves (toOption_eq_some.mp h)
  | decide candidateId decision left right survivorId fieldSources actor now =>
    exact decideDuplicate_stores (toOption_eq_some.mp h)
  | propose candidate =>
    cases h
    exact Leaves.of_cards rfl rfl rfl
  | persistDraft sourceId keys draft newId rowId actor now =>
    replace h := toOption_eq_some.mp h
    unfold persistDraft at h
    cases hexact : exactComponent db sourceId keys with
    | some componentId =>
      rw [Event.stores, hexact]
      rw [hexact] at h
      change (if _ then _ else _) = _ at h
      split at h
      · cases h
        exact Leaves.refl db
      · exact attachSource_leaves h
    | none =>
      rw [Event.stores, hexact]
      rw [hexact] at h
      obtain ⟨db₁, hcreate, h⟩ := bind_eq_ok.mp h
      exact (create_stores hcreate (hnew _ rfl)).of_marked.after (attachSource_leaves h)
  | persistRepositoryDraft sourceId parsed draft newId rowId actor now =>
    obtain ⟨_, -, h⟩ := bind_eq_ok.mp (toOption_eq_some.mp h)
    obtain ⟨-, h⟩ := seq_eq_ok.mp h
    obtain ⟨-, h⟩ := seq_eq_ok.mp h
    rw [Event.stores]
    split at h
    · rename_i hknown
      cases h
      rw [if_pos hknown]
      exact Leaves.refl db
    · rename_i hknown
      obtain ⟨db₁, hcreate, h⟩ := bind_eq_ok.mp h
      rw [if_neg hknown]
      exact (create_stores hcreate (hnew _ rfl)).of_marked.after (attachSource_leaves h)
  | applyItem identity decision data images newId owner actor now later =>
    obtain ⟨-, h⟩ := seq_eq_ok.mp (toOption_eq_some.mp h)
    obtain ⟨⟨db₁, componentId⟩, htarget, h⟩ := bind_eq_ok.mp h
    obtain ⟨db₂, hlink, h⟩ := bind_eq_ok.mp h
    obtain ⟨_, -, htouch⟩ := bind_eq_ok.mp h
    have hlast : Leaves db₁ db' := (linkLegacy_leaves hlink).trans (touchMediaAttachment_leaves htouch)
    cases decision with
    | create =>
      obtain ⟨_, hcreate, htarget⟩ := bind_eq_ok.mp htarget
      cases htarget
      exact (create_stores hcreate (hnew _ rfl)).after hlast
    | merge id revision token =>
      obtain ⟨_, -, htarget⟩ := bind_eq_ok.mp htarget
      obtain ⟨-, htarget⟩ := seq_eq_ok.mp htarget
      obtain ⟨_, hupdate, htarget⟩ := bind_eq_ok.mp htarget
      cases htarget
      exact (update_stores hupdate).after hlast
  | reviewLicense id =>
    obtain ⟨card, hcard, h⟩ := bind_eq_ok.mp (toOption_eq_some.mp h)
    obtain ⟨-, h⟩ := seq_eq_ok.mp h
    cases h
    obtain rfl := Db.id_of_card (locked_eq_ok.mp hcard)
    exact Leaves.put card (locked_eq_ok.mp hcard) rfl
  | processMedia assetId result variants =>
    cases h
    exact processMedia_leaves
  | administer source =>
    cases h
    exact Leaves.of_cards rfl rfl rfl

theorem step_writes (h : step env db event = some db') :
    Writes env.unicode db db' (event.stores env.unicode db) := by
  have hstores := step_stores h
  cases hevent : event.stores env.unicode db with
  | none =>
    rw [hevent] at hstores
    exact hstores
  | some s =>
    rw [hevent] at hstores
    exact hstores.toStores

end Step

/-! ## Every card but one -/

/-- A number is stored, for another card, under a text that has a unit and that the card uses. -/
def Event.respells (u : Unicode) (db : Db) (event : Event) (card : Card) : Prop :=
  ∃ s ∈ event.stores u db, s.1 ≠ card.id ∧ ∃ item ∈ s.2.specifications, item.valueNumber.isSome ∧
    ∃ d ∈ lookup PropertyDefinition.key db.definitions item.key,
      d.valueType = .text ∧ d.unit.isSome ∧ ∃ p ∈ card.details.properties, p.definition = item.key

instance (u : Unicode) (db : Db) (event : Event) (card : Card) :
    Decidable (event.respells u db card) :=
  inferInstanceAs (Decidable (∃ s ∈ _, _))

/-- A card that the transaction does not store reads back as before. -/
def LeavesOthers (u : Unicode) (db : Db) (event : Event) (db' : Db) : Prop :=
  ∀ id card, db.card id = some card → (∀ s ∈ event.stores u db, s.1 ≠ id) →
    ∃ card', db'.card id = some card' ∧ readData u db' card' = readData u db card

/-- The transaction respells no card. -/
def Careful (u : Unicode) (db : Db) (event : Event) (_ : Db) : Prop :=
  ∀ card ∈ db.cards, db.card card.id = some card → ¬ event.respells u db card

instance (u : Unicode) (db : Db) (event : Event) (db' : Db) : Decidable (Careful u db event db') :=
  inferInstanceAs (Decidable (∀ card ∈ _, _))

/-- Every tag and every definition that a card names is there. -/
structure Indexed (db : Db) : Prop where
  tags : ∀ id card, db.card id = some card → ∀ name ∈ card.details.tags,
    (lookup Tag.normalizedName db.tags name).isSome
  properties : ∀ id card, db.card id = some card →
    Defined db.definitions card.details.properties

section Others

variable {u : Unicode} {env : Env} {event : Event} {db db' : Db} {id : UUID} {card card' : Card}

theorem Indexed.of_no_cards (h : db.cards = []) : Indexed db := by
  have hnone : ∀ id card, db.card id ≠ some card := by
    intro id card hcard
    have hmem := Db.mem_of_card hcard
    rw [h] at hmem
    cases hmem
  exact ⟨fun id card hcard => absurd hcard (hnone id card),
    fun id card hcard => absurd hcard (hnone id card)⟩

theorem step_indexed (hi : Indexed db) (h : step env db event = some db') : Indexed db' := by
  have hwrites := step_writes h
  cases hstores : event.stores env.unicode db with
  | none =>
    rw [hstores] at hwrites
    obtain ⟨hcards, htags, hdefinitions⟩ := hwrites
    constructor
    · intro id card' hcard'
      obtain ⟨card, hcard, -, hdetails⟩ := written_before (hcards id) hcard'
      rw [hdetails, htags]
      exact hi.tags id card hcard
    · intro id card' hcard'
      obtain ⟨card, hcard, -, hdetails⟩ := written_before (hcards id) hcard'
      rw [hdetails, hdefinitions]
      exact hi.properties id card hcard
  | some s =>
    rw [hstores] at hwrites
    obtain ⟨hothers, htags, properties, hstored, hself⟩ := hwrites
    constructor
    · intro id card' hcard' name hname
      by_cases hid : s.1 = id
      · subst hid
        rw [(hself card' hcard').2] at hname
        obtain ⟨value, hvalue, rfl⟩ := List.mem_map.mp hname
        rw [htags]
        exact ensureTags_found value hvalue
      · obtain ⟨card, hcard, -, hdetails⟩ := written_before (hothers id hid) hcard'
        rw [hdetails] at hname
        obtain ⟨tag, htag⟩ := Option.isSome_iff_exists.mp (hi.tags id card hcard name hname)
        rw [htags]
        exact Option.isSome_of_eq_some (ensureTags_kept htag)
    · intro id card' hcard'
      by_cases hid : s.1 = id
      · subst hid
        rw [(hself card' hcard').1]
        exact storeProperties_defined hstored
      · obtain ⟨card, hcard, -, hdetails⟩ := written_before (hothers id hid) hcard'
        rw [hdetails]
        exact (hi.properties id card hcard).stored hstored

/-- A card that keeps its row and its details reads back as before when its tags and its
specifications do. -/
theorem readData_eq_iff (hcolumns : card'.row.toColumns = card.row.toColumns)
    (hdetails : card'.details = card.details)
    (htags : ∀ name ∈ card.details.tags,
      lookup Tag.normalizedName db'.tags name = lookup Tag.normalizedName db.tags name) :
    readData u db' card' = readData u db card ↔
      (card.details.properties.zipIdx.filterMap fun p =>
          readSpecification db'.definitions p.2 p.1) =
        card.details.properties.zipIdx.filterMap fun p =>
          readSpecification db.definitions p.2 p.1 := by
  have hnames : (card.details.tags.filterMap fun name =>
        (lookup Tag.normalizedName db'.tags name).map Tag.name) =
      card.details.tags.filterMap fun name =>
        (lookup Tag.normalizedName db.tags name).map Tag.name := by
    refine List.filterMap_congr fun name hname => ?_
    rw [htags name hname]
  unfold readData
  rw [hdetails, hnames]
  simp only [hcolumns, DraftData.mk.injEq, true_and, and_true]

/-- **What a transaction does to a card that it does not store.** -/
theorem step_reads_iff (hi : Indexed db) (h : step env db event = some db')
    (hcard : db.card id = some card) (hother : ∀ s ∈ event.stores env.unicode db, s.1 ≠ id) :
    ∃ card', db'.card id = some card' ∧ card'.details = card.details ∧
      (readData env.unicode db' card' = readData env.unicode db card ↔
        ¬ event.respells env.unicode db card) := by
  have hwrites := step_writes h
  cases hstores : event.stores env.unicode db with
  | none =>
    rw [hstores] at hwrites
    obtain ⟨hcards, htags, hdefinitions⟩ := hwrites
    obtain ⟨card', hcard', hcolumns, hdetails⟩ := written_before (hcards id).symm hcard
    refine ⟨card', hcard', hdetails.symm, ?_⟩
    rw [readData_eq_iff hcolumns.symm hdetails.symm fun name _ => by rw [htags], hdefinitions]
    simp [Event.respells, hstores]
  | some s =>
    rw [hstores] at hwrites
    obtain ⟨hothers, htags, properties, hstored, -⟩ := hwrites
    have hne : s.1 ≠ id := hother s (by rw [hstores]; rfl)
    obtain ⟨card', hcard', hcolumns, hdetails⟩ := written_before (hothers id hne).symm hcard
    refine ⟨card', hcard', hdetails.symm, ?_⟩
    have hkept : ∀ name ∈ card.details.tags,
        lookup Tag.normalizedName db'.tags name = lookup Tag.normalizedName db.tags name := by
      intro name hname
      obtain ⟨tag, htag⟩ := Option.isSome_iff_exists.mp (hi.tags id card hcard name hname)
      rw [htags, htag]
      exact ensureTags_kept htag
    rw [readData_eq_iff hcolumns.symm hdetails.symm hkept,
      specifications_eq_iff (hi.properties id card hcard) fun key d => storeProperties_kept hstored]
    obtain rfl := Db.id_of_card hcard
    constructor
    · rintro hall ⟨s', hs', -, item, hitem, hnumber, d, hd, htext, hunit, p, hp, hkey⟩
      rw [hstores] at hs'
      cases hs'
      refine hall p hp d ?_ ⟨⟨item, hitem, hkey.symm, hnumber⟩, htext, hunit⟩
      rw [hkey]
      exact hd
    · rintro hno p hp d hd ⟨⟨item, hitem, hkey, hnumber⟩, htext, hunit⟩
      refine hno ⟨s, by rw [hstores]; rfl, hne, item, hitem, hnumber, d, ?_, htext, hunit, p, hp,
        hkey.symm⟩
      rw [hkey]
      exact hd

theorem step_others_iff (hi : Indexed db) (h : step env db event = some db') :
    LeavesOthers env.unicode db event db' ↔ Careful env.unicode db event db' := by
  constructor
  · intro hothers card _ hcard hrespells
    have hother : ∀ s ∈ event.stores env.unicode db, s.1 ≠ card.id := by
      obtain ⟨s, hs, hne, -⟩ := hrespells
      intro s' hs'
      obtain rfl := Option.some.inj (hs.symm.trans hs')
      exact hne
    obtain ⟨card₁, hcard₁, hsame⟩ := hothers card.id card hcard hother
    obtain ⟨card', hcard', -, hiff⟩ := step_reads_iff hi h hcard hother
    obtain rfl := Option.some.inj (hcard₁.symm.trans hcard')
    exact hiff.mp hsame hrespells
  · intro hcareful id card hcard hother
    obtain ⟨card', hcard', -, hiff⟩ := step_reads_iff hi h hcard hother
    refine ⟨card', hcard', hiff.mpr (hcareful card (Db.mem_of_card hcard) ?_)⟩
    rw [Db.id_of_card hcard]
    exact hcard

end Others

/-- **Saving a card.** Along a run from a catalog that began without cards, every card that a
transaction does not store reads back as before it, just when no transaction stores a number under
a text with a unit that another card uses. -/
theorem others_iff (env : Env) {start : Db} (hempty : start.cards = []) (events : List Event) :
    Along (step env) (LeavesOthers env.unicode) start events ↔
      Along (step env) (Careful env.unicode) start events :=
  along_congr_of_inv (fun _ _ _ hi h => step_indexed hi h) (fun _ _ _ hi h => step_others_iff hi h)
    (Indexed.of_no_cards hempty)

/-- A draft with one specification. -/
def measured (slug valueText : String) (valueNumber : Option String) : DraftData :=
  { sensorDraft slug true with
    specifications := [⟨"supply", "Supply", valueText, valueNumber, some "V", 0⟩] }

/-- A run that changes a unit only of the card it saves: both cards give a number. -/
theorem others_kept :
    Along (step plainEnv) (LeavesOthers plainUnicode) plainDb
      [.createComponent 10 (measured "sensor" "5" (some "5")) [] none 7 1,
       .createComponent 11 (measured "sensor-copy" "3-5" none) [] none 7 2,
       .updateComponent 10 1 none (measured "sensor" "3" (some "3")) 7 3] :=
  (others_iff plainEnv rfl _).mpr (by decide +kernel)

/-- **A unit is lost.** Card 10 gives its supply as a text, in volts; when card 11 gives its own as
a number, card 10 reads back without the unit. -/
theorem unit_lost :
    ∃ db ∈ step plainEnv plainDb (.createComponent 10 (measured "sensor" "3-5" none) [] none 7 1),
      ∃ db' ∈ step plainEnv db
          (.createComponent 11 (measured "sensor-copy" "5" (some "5")) [] none 7 2),
        ∃ card ∈ db.card 10, ∃ card' ∈ db'.card 10,
          (readData plainUnicode db card).specifications.map TechnicalSpecification.unit =
            [some "В"] ∧
          (readData plainUnicode db' card').specifications.map TechnicalSpecification.unit =
            [none] := by
  decide +kernel

end ComponentKb.Catalog
