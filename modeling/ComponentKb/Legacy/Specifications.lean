import ComponentKb.Legacy.Planning

/-!
# The specifications that legacy items bring

Items are applied one after the other to a catalog without cards. The key of a specification is made
of its normalized label and unit, while a property definition keeps the label of the specification
that created it as it was written, and `_replace_technical` compares it with the label that is
written next.

* `Inv`, `apply_inv`: a definition under a generated key is the specification first written with it.
* **`collides_iff`**: the specifications of an item are stored without a conflict iff each is
  written as the first one with its key was, and they carry the unit of their definitions iff the
  units agree too.
* `spelled_twice`: a comma in a label is enough for a conflict.
-/

namespace ComponentKb.Legacy

open Catalog Lib

/-- An item that the worker applies, with its decision and its images. -/
structure Application where
  target : Target
  decision : LegacyDecision
  images : List LegacyImage
  newId : UUID
  owner : UUID
  actor : UUID
  now : Time
  later : Time
  deriving DecidableEq, Repr

/-- The draft that `apply_item` saves: that of the target, or its merge into that of the card. -/
def Application.data (u : Unicode) (digest : List String → String) (db : Db) (item : Application) :
    Except CatalogError DraftData := do
  let category ← categoryId db.categories item.target
  let incoming ← draftData u digest item.target category
  match item.decision with
  | .create => .ok incoming
  | .merge componentId _ _ => do
    let card ← locked db componentId
    .ok (mergeData u (readData u db card) incoming).1

def Application.event (item : Application) (data : DraftData) : Catalog.Event :=
  .applyItem item.target.identity item.decision data item.images item.newId item.owner item.actor
    item.now item.later

/-- The catalog, and the specifications of the items applied so far, in the order in which they were
written. -/
structure Ledger where
  db : Db
  written : List TechnicalSpecification
  deriving DecidableEq, Repr

/-- An item is applied; one that fails is rolled back and is no step. -/
def apply (env : Env) (digest : List String → String) (ledger : Ledger) (item : Application) :
    Option Ledger := do
  let data ← (item.data env.unicode digest ledger.db).toOption
  let db ← Catalog.step env ledger.db (item.event data)
  return ⟨db, ledger.written ++ data.specifications⟩

/-- The specification that was written first with a key. -/
def Ledger.first (ledger : Ledger) (key : String) : Option TechnicalSpecification :=
  lookup TechnicalSpecification.key ledger.written key

/-- `_replace_technical` finds a definition with another label. -/
def Collides (u : Unicode) (db : Db) (data : DraftData) : Prop :=
  ∃ position label, storeProperties u db.definitions 0 data.specifications =
    .error (fieldError [.name "specifications", .index position, .name "label"]
      "specification_definition_conflict" [("label", some label)])

/-! ## Storing texts -/

/-- The definition that a text creates. -/
def definitionOf (item : TechnicalSpecification) : PropertyDefinition :=
  ⟨item.key, strip item.label, .text, unitSymbol item.unit⟩

/-- The conflict of `_replace_technical`, at a place of the draft. -/
def conflictAt (position : Nat) (label : String) : CatalogError :=
  fieldError [.name "specifications", .index position, .name "label"]
    "specification_definition_conflict" [("label", some label)]

/-- The definition of a key, if there is one, is a text. -/
def Texts (definitions : List PropertyDefinition) (key : String) : Prop :=
  ∀ d, lookup PropertyDefinition.key definitions key = some d → d.valueType = .text

/-- The definition of an item, if there is one, has the label that is written. -/
def Fits (definitions : List PropertyDefinition) (item : TechnicalSpecification) : Prop :=
  ∀ d, lookup PropertyDefinition.key definitions item.key = some d → d.label = strip item.label

section Store

variable {u : Unicode} {definitions definitions' : List PropertyDefinition} {position : Nat}
  {item : TechnicalSpecification} {items : List TechnicalSpecification}
  {properties : List ComponentProperty}

/-- A text that fits its definition is stored, and its definition created if there is none. -/
theorem storeDefinition_fits (u : Unicode) (position : Nat) (htext : item.valueNumber = none) (hold : Texts definitions item.key)
    (hfits : Fits definitions item) :
    ∃ definitions₁, storeDefinition u definitions position item = .ok (definitions₁, none) ∧
      ∀ key, lookup PropertyDefinition.key definitions₁ key =
        (lookup PropertyDefinition.key definitions key).or
          (if item.key = key then some (definitionOf item) else none) := by
  have hentered : enteredNumber u item = none := by simp [enteredNumber, htext]
  have htype : item.valueType = .text := by simp [TechnicalSpecification.valueType, htext]
  unfold storeDefinition
  cases hfound : lookup PropertyDefinition.key definitions item.key with
  | none =>
    refine ⟨_, by rw [hentered], fun key => ?_⟩
    rw [lookup_append, htype]
    rfl
  | some d =>
    have hlabel : d.label = strip item.label ∧ d.valueType ≠ .boolean := by
      refine ⟨hfits d hfound, ?_⟩
      rw [hold d hfound]
      decide
    have hused : d.usedAs item.valueType = d := by
      rw [PropertyDefinition.usedAs, htype, hold d hfound, if_pos rfl, ← hold d hfound]
    have hkey : d.key = item.key := key_of_lookup hfound
    refine ⟨replace PropertyDefinition.key definitions d, ?_, fun key => ?_⟩
    · simp only [hentered, hused, require, if_pos hlabel]
      rfl
    · rw [lookup_replace, hkey]
      by_cases hsame : item.key = key
      · subst hsame
        rw [if_pos rfl, if_pos rfl, hfound]
        rfl
      · rw [if_neg hsame, if_neg hsame, Option.or_none]

theorem storeDefinition_conflict (hmisfit : ¬ Fits definitions item) :
    storeDefinition u definitions position item = .error (conflictAt position item.label) := by
  simp only [Fits, not_forall] at hmisfit
  obtain ⟨d, hfound, hlabel⟩ := hmisfit
  unfold storeDefinition
  simp only [hfound, require]
  rw [if_neg fun hno => hlabel hno.1]
  rfl

/-- **Storing texts.** Items with different keys are stored iff each fits its definition; the only
error is a conflict. -/
theorem storeProperties_texts (u : Unicode) (position : Nat)
    (htext : ∀ item ∈ items, item.valueNumber = none)
    (hold : ∀ item ∈ items, Texts definitions item.key)
    (hnodup : (items.map TechnicalSpecification.key).Nodup) :
    (∀ item ∈ items, Fits definitions item) ∧
        (∃ stored, storeProperties u definitions position items = .ok stored) ∨
      (¬ ∀ item ∈ items, Fits definitions item) ∧ ∃ place label,
        storeProperties u definitions position items = .error (conflictAt place label) := by
  induction items generalizing definitions position with
  | nil => exact Or.inl ⟨by simp, _, rfl⟩
  | cons item rest ih =>
    rw [List.forall_mem_cons] at htext hold
    rw [List.map_cons, List.nodup_cons] at hnodup
    by_cases hfits : Fits definitions item
    · obtain ⟨definitions₁, hstored, hlookup⟩ := storeDefinition_fits u position htext.1 hold.1 hfits
      -- the definition just stored is of another key than those that follow
      have hsame : ∀ other ∈ rest, lookup PropertyDefinition.key definitions₁ other.key =
          lookup PropertyDefinition.key definitions other.key := by
        intro other hother
        have hne : item.key ≠ other.key :=
          fun hkey => hnodup.1 (List.mem_map.mpr ⟨other, hother, hkey.symm⟩)
        rw [hlookup, if_neg hne, Option.or_none]
      have hold' : ∀ other ∈ rest, Texts definitions₁ other.key := by
        intro other hother d hd
        rw [hsame other hother] at hd
        exact hold.2 other hother d hd
      have hfits' : (∀ other ∈ rest, Fits definitions₁ other) ↔
          ∀ other ∈ rest, Fits definitions other := by
        refine forall₂_congr fun other hother => ?_
        rw [Fits, Fits, hsame other hother]
      have hrest := ih (position + 1) htext.2 hold' hnodup.2
      rw [hfits'] at hrest
      rw [List.forall_mem_cons]
      refine hrest.imp ?_ ?_
      · rintro ⟨hall, stored, hok⟩
        refine ⟨⟨hfits, hall⟩, ?_⟩
        rw [storeProperties, hstored]
        exact ⟨_, by
          change (storeProperties u definitions₁ (position + 1) rest >>= _) = _
          rw [hok]
          rfl⟩
      · rintro ⟨hno, place, label, herror⟩
        refine ⟨fun hall => hno hall.2, place, label, ?_⟩
        rw [storeProperties, hstored]
        change (storeProperties u definitions₁ (position + 1) rest >>= _) = _
        rw [herror]
        rfl
    · refine Or.inr ⟨fun hall => hfits (List.forall_mem_cons.mp hall).1, position, item.label, ?_⟩
      rw [storeProperties, storeDefinition_conflict hfits]
      rfl

/-- The definitions after texts are stored. -/
theorem storeProperties_lookup (htext : ∀ item ∈ items, item.valueNumber = none)
    (hold : ∀ item ∈ items, Texts definitions item.key)
    (h : storeProperties u definitions position items = .ok (definitions', properties))
    (key : String) :
    lookup PropertyDefinition.key definitions' key =
      (lookup PropertyDefinition.key definitions key).or
        ((lookup TechnicalSpecification.key items key).map definitionOf) := by
  induction items generalizing definitions position properties with
  | nil =>
    cases h
    rw [lookup_nil, Option.map_none, Option.or_none]
  | cons item rest ih =>
    rw [List.forall_mem_cons] at htext hold
    obtain ⟨⟨definitions₁, number⟩, hfirst, h⟩ := bind_eq_ok.mp h
    obtain ⟨-, h⟩ := seq_eq_ok.mp h
    obtain ⟨⟨definitions₂, stored⟩, hrest, h⟩ := bind_eq_ok.mp h
    cases h
    have hfits : Fits definitions item := by
      by_contra hmisfit
      rw [storeDefinition_conflict hmisfit] at hfirst
      cases hfirst
    obtain ⟨_, hstored, hlookup⟩ := storeDefinition_fits u position htext.1 hold.1 hfits
    rw [hstored] at hfirst
    cases hfirst
    have hold' : ∀ other ∈ rest, Texts definitions₁ other.key := by
      intro other hother d hd
      rw [hlookup] at hd
      rcases Option.or_eq_some_iff.mp hd with hd | ⟨-, hd⟩
      · exact hold.2 other hother d hd
      · split at hd <;> cases hd
        rfl
    rw [ih htext.2 hold' hrest, hlookup, Option.or_assoc, lookup_cons]
    by_cases hkey : item.key = key
    · rw [if_pos hkey, if_pos hkey]
      rfl
    · rw [if_neg hkey, if_neg hkey, Option.none_or]

/-- The properties of texts are texts, under the keys of the items. -/
theorem storeProperties_rows (htext : ∀ item ∈ items, item.valueNumber = none)
    (h : storeProperties u definitions position items = .ok (definitions', properties)) :
    ∀ p ∈ properties, p.valueNumber = none ∧ ∃ item ∈ items, item.key = p.definition := by
  induction items generalizing definitions position properties with
  | nil =>
    cases h
    exact fun p hp => absurd hp List.not_mem_nil
  | cons item rest ih =>
    rw [List.forall_mem_cons] at htext
    obtain ⟨⟨definitions₁, number⟩, hfirst, h⟩ := bind_eq_ok.mp h
    obtain ⟨-, h⟩ := seq_eq_ok.mp h
    obtain ⟨⟨definitions₂, stored⟩, hrest, h⟩ := bind_eq_ok.mp h
    cases h
    have hnumber : number = none := by
      have hentered : enteredNumber u item = none := by simp [enteredNumber, htext.1]
      unfold storeDefinition at hfirst
      split at hfirst
      · cases hfirst
        exact hentered
      · obtain ⟨-, hfirst⟩ := seq_eq_ok.mp hfirst
        rw [hentered] at hfirst
        cases hfirst
        rfl
    rw [List.forall_mem_cons]
    refine ⟨⟨by rw [hnumber]; rfl, item, List.mem_cons_self, rfl⟩, fun p hp => ?_⟩
    obtain ⟨hnone, other, hother, hkey⟩ := ih htext.2 hrest p hp
    exact ⟨hnone, other, List.mem_cons_of_mem _ hother, hkey⟩

end Store

/-! ## The definitions of a run -/

/-- The ledger is the whole story of the definitions under generated keys, and every property of a
card is a text under such a key. -/
structure Inv (u : Unicode) (digest : List String → String) (ledger : Ledger) : Prop where
  generated : ∀ item ∈ ledger.written, Generated u digest item
  definitions : ∀ spec, lookup PropertyDefinition.key ledger.db.definitions
    (specificationKey u digest spec) =
      (ledger.first (specificationKey u digest spec)).map definitionOf
  cards : ∀ id card, ledger.db.card id = some card → ∀ p ∈ card.details.properties,
    p.valueNumber = none ∧ ∃ item ∈ ledger.written, item.key = p.definition

section Ledger

variable {env : Env} {u : Unicode} {digest : List String → String} {ledger ledger' : Ledger}
  {item : Application} {data : DraftData}

theorem Generated.texts {spec : TechnicalSpecification} (h : Generated u digest spec)
    (hi : Inv u digest ledger) : Texts ledger.db.definitions spec.key := by
  obtain ⟨-, origin, hkey⟩ := h
  intro d hd
  rw [hkey, hi.definitions] at hd
  obtain ⟨first, -, rfl⟩ := Option.map_eq_some_iff.mp hd
  rfl

/-- What a card reads back is generated. -/
theorem Inv.read (hi : Inv u digest ledger) {id : UUID} {card : Card}
    (hcard : ledger.db.card id = some card) :
    ∀ spec ∈ (readData u ledger.db card).specifications, Generated u digest spec := by
  intro spec hspec
  obtain ⟨⟨p, position⟩, hp, hread⟩ := List.mem_filterMap.mp hspec
  obtain ⟨hnumber, item, hitem, hkey⟩ := hi.cards id card hcard p (List.fst_mem_of_mem_zipIdx hp)
  obtain ⟨d, hd, rfl⟩ := Option.map_eq_some_iff.mp hread
  refine ⟨by simp [hnumber], ?_⟩
  obtain ⟨-, origin, horigin⟩ := hi.generated item hitem
  exact ⟨origin, (key_of_lookup hd).trans (hkey.symm.trans horigin)⟩

theorem Application.data_generated (hi : Inv u digest ledger)
    (h : item.data u digest ledger.db = .ok data) :
    ∀ spec ∈ data.specifications, Generated u digest spec := by
  obtain ⟨category, -, h⟩ := bind_eq_ok.mp h
  obtain ⟨incoming, hincoming, h⟩ := bind_eq_ok.mp h
  have hnew := draftData_spec hincoming
  cases hdecision : item.decision with
  | create =>
    rw [hdecision] at h
    cases h
    exact hnew
  | merge id revision token =>
    rw [hdecision] at h
    obtain ⟨card, hcard, h⟩ := bind_eq_ok.mp h
    cases h
    intro spec hspec
    rcases mergeData_spec hspec with hspec | ⟨other, hother, position, rfl⟩
    · exact hi.read (locked_eq_ok.mp hcard) spec hspec
    · exact hnew other hother

/-- The card that an item is applied to. -/
def Application.componentId (item : Application) : UUID :=
  match item.decision with
  | .create => item.newId
  | .merge id _ _ => id

theorem Application.event_stores (item : Application) (data : DraftData) :
    (item.event data).stores u ledger.db = some (item.componentId, data) := by
  unfold Application.componentId Application.event
  cases item.decision <;> rfl

theorem apply_eq_some (h : apply env digest ledger item = some ledger') :
    ∃ data, item.data env.unicode digest ledger.db = .ok data ∧
      Catalog.step env ledger.db (item.event data) = some ledger'.db ∧
      ledger'.written = ledger.written ++ data.specifications := by
  obtain ⟨data, hdata, h⟩ := Option.bind_eq_some_iff.mp h
  obtain ⟨db, hstep, h⟩ := Option.bind_eq_some_iff.mp h
  cases h
  exact ⟨data, toOption_eq_some.mp hdata, hstep, rfl⟩

/-- **An item keeps the ledger.** -/
theorem apply_inv (hi : Inv env.unicode digest ledger)
    (h : apply env digest ledger item = some ledger') : Inv env.unicode digest ledger' := by
  obtain ⟨data, hdata, hstep, hwritten⟩ := apply_eq_some h
  have hgenerated := Application.data_generated hi hdata
  have htext : ∀ spec ∈ data.specifications, spec.valueNumber = none :=
    fun spec hspec => (hgenerated spec hspec).1
  have hold : ∀ spec ∈ data.specifications, Texts ledger.db.definitions spec.key :=
    fun spec hspec => (hgenerated spec hspec).texts hi
  have hwrites := step_writes hstep
  rw [Application.event_stores] at hwrites
  obtain ⟨hothers, -, properties, hstored, hself⟩ := hwrites
  refine ⟨?_, ?_, ?_⟩
  · intro spec hspec
    rw [hwritten] at hspec
    rcases List.mem_append.mp hspec with hspec | hspec
    · exact hi.generated spec hspec
    · exact hgenerated spec hspec
  · intro spec
    rw [storeProperties_lookup htext hold hstored, hi.definitions, Ledger.first, Ledger.first,
      hwritten, lookup, lookup, lookup, List.find?_append]
    cases List.find? _ ledger.written <;> rfl
  · intro id card' hcard' p hp
    rw [hwritten]
    by_cases hid : item.componentId = id
    · subst hid
      rw [(hself card' hcard').1] at hp
      obtain ⟨hnumber, spec, hspec, hkey⟩ := storeProperties_rows htext hstored p hp
      exact ⟨hnumber, spec, List.mem_append_right _ hspec, hkey⟩
    · obtain ⟨card, hcard, -, hdetails⟩ := written_before (hothers id hid) hcard'
      rw [hdetails] at hp
      obtain ⟨hnumber, spec, hspec, hkey⟩ := hi.cards id card hcard p hp
      exact ⟨hnumber, spec, List.mem_append_left _ hspec, hkey⟩

end Ledger

/-! ## Conflicts -/

/-- A catalog before the first item: it has no card, and no definition under a generated key. -/
structure Untouched (u : Unicode) (digest : List String → String) (db : Db) : Prop where
  cards : db.cards = []
  definitions : ∀ d ∈ db.definitions, ∀ spec, d.key ≠ specificationKey u digest spec

theorem Untouched.inv {u : Unicode} {digest : List String → String} {db : Db}
    (h : Untouched u digest db) : Inv u digest ⟨db, []⟩ := by
  refine ⟨by simp, fun spec => ?_, fun id card hcard => ?_⟩
  · exact lookup_eq_none.mpr fun d hd => h.definitions d hd spec
  · have hmem := Db.mem_of_card hcard
    rw [h.cards] at hmem
    cases hmem

/-- **What an item brings is stored without a conflict iff it is written as before.** The item comes
after any run of items, and its draft has passed the checks before `_replace_technical`. -/
theorem collides_iff (env : Env) (digest : List String → String) {start : Db}
    (hstart : Untouched env.unicode digest start) {past : List Application} {ledger : Ledger}
    (hrun : run (apply env digest) ⟨start, []⟩ past = some ledger) (item : Application)
    {data : DraftData} (hdata : item.data env.unicode digest ledger.db = .ok data)
    (hvalid : validateSpecifications env.unicode 0 [] data.specifications = .ok ()) :
    (¬ Collides env.unicode ledger.db data ↔
      ∀ spec ∈ data.specifications, ∀ first ∈ ledger.first spec.key,
        strip first.label = strip spec.label) ∧
    ((∀ spec ∈ data.specifications,
        ∀ d ∈ lookup PropertyDefinition.key ledger.db.definitions spec.key,
          d.label = strip spec.label ∧ d.unit = unitSymbol spec.unit) ↔
      ∀ spec ∈ data.specifications, ∀ first ∈ ledger.first spec.key,
        strip first.label = strip spec.label ∧ unitSymbol first.unit = unitSymbol spec.unit) := by
  have hi : Inv env.unicode digest ledger :=
    run_inv (fun _ _ _ hi _ h => apply_inv hi h) hstart.inv (along_true _ _) hrun
  have hgenerated := Application.data_generated hi hdata
  -- the definition of a specification is what was written first under its key
  have hfound : ∀ spec ∈ data.specifications,
      lookup PropertyDefinition.key ledger.db.definitions spec.key =
        (ledger.first spec.key).map definitionOf := by
    intro spec hspec
    obtain ⟨-, origin, hkey⟩ := hgenerated spec hspec
    rw [hkey, hi.definitions]
  constructor
  · have hfits : (∀ spec ∈ data.specifications, Fits ledger.db.definitions spec) ↔
        ∀ spec ∈ data.specifications, ∀ first ∈ ledger.first spec.key,
          strip first.label = strip spec.label := by
      refine forall₂_congr fun spec hspec => ?_
      rw [Fits, hfound spec hspec]
      simp [definitionOf]
    rw [← hfits]
    have hstored := storeProperties_texts env.unicode 0
      (fun spec hspec => (hgenerated spec hspec).1)
      (fun spec hspec => (hgenerated spec hspec).texts hi) (validateSpecifications_iff.mp hvalid).2.1
    rcases hstored with ⟨hall, stored, hok⟩ | ⟨hno, hconflict⟩
    · refine ⟨fun _ => hall, fun _ => ?_⟩
      rintro ⟨place, label, herror⟩
      rw [hok] at herror
      cases herror
    · exact ⟨fun hfree => absurd hconflict hfree, fun hall => absurd hall hno⟩
  · refine forall₂_congr fun spec hspec => ?_
    rw [hfound spec hspec]
    simp [definitionOf]

/-- The digest of `["voltage max", ""]`. -/
def plainDigest (_ : List String) : String :=
  "e8ee603acfbe711e405259acfc544e8c359f60ea3b92790c0684104f43f3a3f5"

/-- A sensor with one specification, the `n`-th item of a bundle, to be created. -/
def voltageItem (n : Nat) (label : String) : Application :=
  { target :=
      { identity := "sensor " ++ toString n
        title := "Sensor " ++ toString n
        category := "ДАТЧИКИ"
        description := ""
        specifications := [⟨label, "5 V", none⟩] }
    decision := .create
    images := []
    newId := n
    owner := 7
    actor := 7
    now := 1
    later := 2 }

theorem plainDb_untouched : Untouched plainEnv.unicode plainDigest plainDb :=
  ⟨rfl, fun _ hd => absurd hd List.not_mem_nil⟩

/-- The ledger after one item. -/
def afterVoltage (label : String) : Ledger :=
  (run (apply plainEnv plainDigest) ⟨plainDb, []⟩ [voltageItem 1 label]).getD ⟨plainDb, []⟩

/-- The draft of the item after it. -/
def nextVoltage (label next : String) : DraftData :=
  ((voltageItem 2 next).data plainUnicode plainDigest (afterVoltage label).db).toOption.getD
    (sensorDraft "sensor" false)

/-- A label that is written as before is stored. -/
theorem spelled_once :
    ¬ Collides plainUnicode (afterVoltage "voltage, max").db
      (nextVoltage "voltage, max" "voltage, max ") :=
  (collides_iff plainEnv plainDigest plainDb_untouched
    (show run (apply plainEnv plainDigest) ⟨plainDb, []⟩ [voltageItem 1 "voltage, max"] =
      some (afterVoltage "voltage, max") by decide +kernel)
    (voltageItem 2 "voltage, max ") (toOption_eq_some.mp (by decide +kernel))
    (toOption_eq_some.mp (by decide +kernel))).1.mpr (by decide +kernel)

/-- **A label that is written without its comma is a conflict**, under the key that it had with it;
the item fails. -/
theorem spelled_twice :
    run (apply plainEnv plainDigest) ⟨plainDb, []⟩ [voltageItem 1 "voltage, max"] =
        some (afterVoltage "voltage, max") ∧
      (voltageItem 2 "voltage max").data plainUnicode plainDigest
          (afterVoltage "voltage, max").db =
        .ok (nextVoltage "voltage, max" "voltage max") ∧
      Collides plainUnicode (afterVoltage "voltage, max").db
        (nextVoltage "voltage, max" "voltage max") ∧
      apply plainEnv plainDigest (afterVoltage "voltage, max") (voltageItem 2 "voltage max") =
        none :=
  ⟨by decide +kernel, toOption_eq_some.mp (by decide +kernel),
    ⟨0, "voltage max", by decide +kernel⟩, by decide +kernel⟩

end ComponentKb.Legacy
