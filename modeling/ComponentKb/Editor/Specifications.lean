import Mathlib.Tactic.Common

/-!
# The specification rows of the editor

The rows that the browser editor shows (`editor/technical-specifications.ts`): a row without label
and value is blank, a blank row follows the others while there is room, and a pasted block is put
behind the row it was pasted into.

* `withTrailingSpecification_self`: a list that has its trailing row keeps it.
* **`paste_loses`**: what a paste leaves of the rows.
-/

namespace ComponentKb.Editor.Specifications

/-! ## Rows -/

/-- `TechnicalSpecificationInput`. -/
structure SpecificationRow where
  key : String
  label : String
  valueText : String
  valueNumber : Option String
  unit : Option String
  deriving DecidableEq

/-- `PastedSpecification`. -/
structure PastedSpecification where
  label : String
  value : String

/-- `MAX_SPECIFICATIONS`. -/
def maxSpecifications : Nat := 50

def emptySpecification : SpecificationRow := ⟨"", "", "", none, none⟩

/-- The characters that `trim` takes away: white space, line terminators and the byte order mark. -/
def isTrimmed (c : Char) : Bool :=
  let n := c.toNat
  (9 ≤ n && n ≤ 13) || n ∈ [0x20, 0xA0, 0x1680, 0x2028, 0x2029, 0x202F, 0x205F, 0x3000, 0xFEFF] ||
    (0x2000 ≤ n && n ≤ 0x200A)

/-- `text.trim() === ""`. -/
def trimsToNothing (text : String) : Bool := text.toList.all isTrimmed

def isEmptySpecification (item : SpecificationRow) : Bool :=
  trimsToNothing item.label && trimsToNothing item.valueText

/-- The rows that are not blank. -/
def populated (items : List SpecificationRow) : List SpecificationRow :=
  items.filter fun item => !isEmptySpecification item

def withTrailingSpecification (items : List SpecificationRow) : List SpecificationRow :=
  let meaningful := populated items
  if meaningful.length < maxSpecifications then meaningful ++ [emptySpecification]
  else meaningful.take maxSpecifications

/-- `items.slice(0, index)`; a negative index counts from the end. -/
def sliceTo (items : List SpecificationRow) (index : Int) : List SpecificationRow :=
  items.take (if 0 ≤ index then index else items.length + index).toNat

/-- `items[index]`. -/
def rowAt (items : List SpecificationRow) (index : Int) : Option SpecificationRow :=
  if 0 ≤ index then items[index.toNat]? else none

/-- The row of a pasted label and value. -/
def pastedRow (pasted : PastedSpecification) : SpecificationRow :=
  { emptySpecification with label := pasted.label, valueText := pasted.value }

def insertPastedSpecifications (items : List SpecificationRow) (rowIndex : Int)
    (pasted : List PastedSpecification) : List SpecificationRow :=
  let meaningful := populated items
  let populatedBefore := (populated (sliceTo items rowIndex)).length
  let insertAt := match rowAt items rowIndex with
    | none => populatedBefore
    | some current => if isEmptySpecification current then populatedBefore else populatedBefore + 1
  let capacity := maxSpecifications - meaningful.length
  let additions := (pasted.take capacity).map pastedRow
  withTrailingSpecification
    (meaningful.take insertAt ++ additions ++ meaningful.drop insertAt)

/-! ## What is promised -/

/-- The rows up to an index, and the row there. -/
def through (items : List SpecificationRow) (index : Int) : List SpecificationRow :=
  sliceTo items index ++ (rowAt items index).toList

/-- A paste at an index loses nothing: the rows stay in their order, the pasted ones stand behind
the row at the index, and only pasted ones are left out. -/
structure LosesNothing (items : List SpecificationRow) (rowIndex : Int)
    (pasted : List PastedSpecification) (result : List SpecificationRow) : Prop where
  inserted : ∃ added after, populated items = populated (through items rowIndex) ++ after ∧
    added = populated ((pasted.take (maxSpecifications - (populated items).length)).map pastedRow) ∧
    populated result = populated (through items rowIndex) ++ added ++ after
  limited : (populated result).length ≤ maxSpecifications
  trailing : result = populated result ++
    if (populated result).length < maxSpecifications then [emptySpecification] else []

/-! ## Rows with their trailing row -/

theorem populated_append (xs ys : List SpecificationRow) :
    populated (xs ++ ys) = populated xs ++ populated ys := List.filter_append ..

theorem populated_populated (items : List SpecificationRow) :
    populated (populated items) = populated items := by
  rw [populated, populated, List.filter_filter]
  simp

theorem populated_empty : populated [emptySpecification] = [] := by decide

theorem populated_take (n : Nat) (items : List SpecificationRow) :
    populated ((populated items).take n) = (populated items).take n := by
  refine List.filter_eq_self.mpr fun item hitem => ?_
  exact (List.mem_filter.mp (List.mem_of_mem_take hitem)).2

theorem populated_withTrailing (items : List SpecificationRow) :
    populated (withTrailingSpecification items) = (populated items).take maxSpecifications := by
  unfold withTrailingSpecification
  dsimp only
  split
  · rename_i hroom
    rw [populated_append, populated_populated, populated_empty, List.append_nil,
      List.take_of_length_le (Nat.le_of_lt hroom)]
  · exact populated_take ..

/-- Populated rows, and a blank one while there is room. -/
theorem withTrailing_eq (items : List SpecificationRow) :
    withTrailingSpecification items = populated (withTrailingSpecification items) ++
      if (populated (withTrailingSpecification items)).length < maxSpecifications then
        [emptySpecification] else [] := by
  rw [populated_withTrailing, List.length_take]
  unfold withTrailingSpecification
  dsimp only
  split
  · rename_i hroom
    rw [if_pos (by omega), List.take_of_length_le (Nat.le_of_lt hroom)]
  · rename_i hfull
    rw [if_neg (by omega), List.append_nil]

/-- **A list that has its trailing row keeps it.** -/
theorem withTrailingSpecification_self (items : List SpecificationRow) :
    withTrailingSpecification (withTrailingSpecification items) =
      withTrailingSpecification items := by
  have hsame : populated (withTrailingSpecification (withTrailingSpecification items)) =
      populated (withTrailingSpecification items) := by
    rw [populated_withTrailing, populated_withTrailing, List.take_take, Nat.min_self]
  rw [withTrailing_eq (withTrailingSpecification items), hsame, ← withTrailing_eq items]

/-! ## Pasting -/

/-- The rows behind an index. -/
theorem exists_after (items : List SpecificationRow) (index : Int) :
    ∃ after, items = through items index ++ after := by
  unfold through sliceTo rowAt
  by_cases hindex : 0 ≤ index
  · rw [if_pos hindex, if_pos hindex]
    refine ⟨items.drop (index.toNat + 1), ?_⟩
    cases hrow : items[index.toNat]? with
    | none =>
      have hlength := List.getElem?_eq_none_iff.mp hrow
      rw [Option.toList_none, List.append_nil, List.take_of_length_le hlength,
        List.drop_eq_nil_of_le (by omega), List.append_nil]
    | some row =>
      obtain ⟨hlt, hget⟩ := List.getElem?_eq_some_iff.mp hrow
      rw [Option.toList_some, List.append_assoc, List.singleton_append, ← hget,
        ← List.drop_eq_getElem_cons hlt, List.take_append_drop]
  · rw [if_neg hindex, if_neg hindex]
    refine ⟨items.drop (items.length + index).toNat, ?_⟩
    rw [Option.toList_none, List.append_nil, List.take_append_drop]

/-- Where a paste puts its rows. -/
theorem insertAt_eq (items : List SpecificationRow) (index : Int) :
    (match rowAt items index with
      | none => (populated (sliceTo items index)).length
      | some current => if isEmptySpecification current then (populated (sliceTo items index)).length
        else (populated (sliceTo items index)).length + 1) =
      (populated (through items index)).length := by
  rw [through, populated_append, List.length_append]
  cases rowAt items index with
  | none => rfl
  | some current => by_cases h : isEmptySpecification current <;> simp [populated, h]

theorem insertPasted_eq {items after : List SpecificationRow} {rowIndex : Int}
    (pasted : List PastedSpecification)
    (h : populated items = populated (through items rowIndex) ++ after) :
    insertPastedSpecifications items rowIndex pasted = withTrailingSpecification
      (populated (through items rowIndex) ++
        (pasted.take (maxSpecifications - (populated items).length)).map pastedRow ++ after) := by
  unfold insertPastedSpecifications
  dsimp only
  rw [insertAt_eq]
  conv_lhs => rw [h]
  rw [List.take_left, List.drop_left, ← h]

/-- The populated rows when a paste is put together. -/
theorem populated_paste (items after : List SpecificationRow) (rowIndex : Int)
    (additions : List SpecificationRow) :
    populated (populated (through items rowIndex) ++ additions ++ populated after) =
      populated (through items rowIndex) ++ populated additions ++ populated after := by
  rw [populated_append, populated_append, populated_populated, populated_populated]

/-- **What a paste leaves of the rows**: with at most fifty rows it loses nothing, and of more it
keeps the first fifty. -/
theorem paste_loses (items : List SpecificationRow) (rowIndex : Int)
    (pasted : List PastedSpecification) :
    ((populated items).length ≤ maxSpecifications → LosesNothing items rowIndex pasted
      (withTrailingSpecification (insertPastedSpecifications items rowIndex pasted))) ∧
    (maxSpecifications < (populated items).length →
      withTrailingSpecification (insertPastedSpecifications items rowIndex pasted) =
        (populated items).take maxSpecifications) := by
  obtain ⟨after, hafter⟩ := exists_after items rowIndex
  have hitems : populated items = populated (through items rowIndex) ++ populated after := by
    conv_lhs => rw [hafter]
    exact populated_append ..
  have hlength : (populated items).length =
      (populated (through items rowIndex)).length + (populated after).length := by
    rw [hitems, List.length_append]
  rw [insertPasted_eq pasted hitems, withTrailingSpecification_self]
  constructor
  · intro hroom
    let additions :=
      (pasted.take (maxSpecifications - (populated items).length)).map pastedRow
    have hadded : (populated additions).length ≤ maxSpecifications - (populated items).length := by
      refine Nat.le_trans (List.length_filter_le ..) ?_
      rw [List.length_map]
      exact List.length_take_le ..
    have hfits : (populated (through items rowIndex) ++ populated additions ++
        populated after).length ≤ maxSpecifications := by
      rw [List.length_append, List.length_append]
      omega
    have hresult : populated (withTrailingSpecification
        (populated (through items rowIndex) ++ additions ++ populated after)) =
        populated (through items rowIndex) ++ populated additions ++ populated after := by
      rw [populated_withTrailing, populated_paste, List.take_of_length_le hfits]
    exact ⟨⟨populated additions, populated after, hitems, rfl, hresult⟩,
      hresult ▸ hfits, withTrailing_eq _⟩
  · intro hfull
    -- there is no room for a pasted row
    have hnone : maxSpecifications - (populated items).length = 0 := by omega
    rw [hnone, List.take_zero, List.map_nil, List.append_nil, ← hitems, withTrailingSpecification,
      populated_populated]
    exact if_neg (by omega)

/-- Fifty-one rows: the last of them is gone. -/
theorem paste_loses_last : ¬ ∀ items rowIndex pasted, LosesNothing items rowIndex pasted
    (withTrailingSpecification (insertPastedSpecifications items rowIndex pasted)) := by
  intro h
  let row : SpecificationRow := ⟨"voltage", "Voltage", "5 V", none, none⟩
  obtain ⟨⟨added, after, hitems, -, hresult⟩, -, -⟩ := h (List.replicate 51 row) 0 []
  have hlength := congrArg List.length hresult
  have hitems' := congrArg List.length hitems
  rw [List.length_append] at hitems'
  rw [List.length_append, List.length_append] at hlength
  have hfifty : (populated (withTrailingSpecification
      (insertPastedSpecifications (List.replicate 51 row) 0 []))).length = 50 := by decide +kernel
  have hall : (populated (List.replicate 51 row)).length = 51 := by decide +kernel
  omega

end ComponentKb.Editor.Specifications
