import Mathlib.Data.List.Nodup
import Mathlib.Data.List.Perm.Basic

/-!
# Items that are free or held

Items of which each is free or held by one owner, and moves of items between the two. What is said
of such holdings does not depend on the order of the owners, so a move is described up to it.

* `Moves`, `Merges`: what one owner holds changes; two owners' do.
* `Adds.all_perm`, `Moves.all_perm`, `Merges.all_perm`: the items after a change are those that were
  there, and new ones.
* `Distinct.of_perm`: so no owner and no item occurs twice.
-/

namespace ComponentKb.Lib

/-- The items that nobody holds, and those of each owner. -/
structure Holdings (κ α : Type*) where
  free : List α
  held : List (κ × List α)

namespace Holdings

variable {κ α ι : Type*} {key : α → ι} {s s' : Holdings κ α} {k k' : κ} {items items' : List α}
  {rest : List (κ × List α)}

/-- Every item. -/
def all (s : Holdings κ α) : List α := s.free ++ s.held.flatMap Prod.snd

/-- One owner is new. -/
def Adds (s s' : Holdings κ α) (k : κ) (items' : List α) : Prop :=
  s'.held.Perm ((k, items') :: s.held)

/-- One owner holds other items. -/
def Moves (s s' : Holdings κ α) (k : κ) (items items' : List α) : Prop :=
  ∃ rest, s.held.Perm ((k, items) :: rest) ∧ s'.held.Perm ((k, items') :: rest)

/-- Everything that a second owner holds goes to the first, who holds other items. -/
def Merges (s s' : Holdings κ α) (k k' : κ) (items given items' : List α) : Prop :=
  ∃ rest, s.held.Perm ((k, items) :: (k', given) :: rest) ∧
    s'.held.Perm ((k, items') :: (k', []) :: rest)

/-- No owner and no item occurs twice. -/
structure Distinct (key : α → ι) (s : Holdings κ α) : Prop where
  owners : (s.held.map Prod.fst).Nodup
  items : (s.all.map key).Nodup

theorem flatMap_snd_perm {held held' : List (κ × List α)} (h : held.Perm held') :
    (held.flatMap Prod.snd).Perm (held'.flatMap Prod.snd) := h.flatMap_right _

/-- The owner is found with what it holds by then. -/
theorem Moves.mem (h : Moves s s' k items items') : (k, items') ∈ s'.held := by
  obtain ⟨rest, -, hafter⟩ := h
  exact hafter.mem_iff.mpr List.mem_cons_self

theorem Merges.found {given : List α} (h : Merges s s' k k' items given items') :
    (k, items) ∈ s.held ∧ (k', given) ∈ s.held := by
  obtain ⟨rest, hbefore, -⟩ := h
  exact ⟨hbefore.mem_iff.mpr List.mem_cons_self,
    hbefore.mem_iff.mpr (List.mem_cons_of_mem _ List.mem_cons_self)⟩

theorem Moves.owners (h : Moves s s' k items items') (hs : (s.held.map Prod.fst).Nodup) :
    (s'.held.map Prod.fst).Nodup := by
  obtain ⟨rest, hbefore, hafter⟩ := h
  have howners : (s.held.map Prod.fst).Perm (k :: rest.map Prod.fst) := hbefore.map _
  have howners' : (s'.held.map Prod.fst).Perm (k :: rest.map Prod.fst) := hafter.map _
  exact howners'.nodup_iff.mpr (howners.nodup_iff.mp hs)

theorem Moves.trans {items₁ : List α} {s₁ : Holdings κ α} (h₁ : Moves s s₁ k items items₁)
    (h₂ : Moves s₁ s' k items₁ items') : Moves s s' k items items' := by
  obtain ⟨rest, hbefore, hbetween⟩ := h₁
  obtain ⟨rest', hbetween', hafter⟩ := h₂
  have hrest : rest'.Perm rest := (hbetween'.symm.trans hbetween).cons_inv
  exact ⟨rest, hbefore, hafter.trans (hrest.cons _)⟩

theorem Adds.moves {s₁ : Holdings κ α} (h₁ : Adds s s₁ k items) (h₂ : Moves s₁ s' k items items') :
    Adds s s' k items' := by
  obtain ⟨rest, hbetween, hafter⟩ := h₂
  have hrest : rest.Perm s.held := (hbetween.symm.trans h₁).cons_inv
  exact hafter.trans (hrest.cons _)

/-- One owner after the other: the second gives all away. -/
theorem Moves.merges {s₁ : Holdings κ α} {given : List α} (h₁ : Moves s s₁ k items items')
    (h₂ : Moves s₁ s' k' given []) (hne : k ≠ k') : Merges s s' k k' items given items' := by
  obtain ⟨rest, hbefore, hbetween⟩ := h₁
  obtain ⟨rest', hbetween', hafter⟩ := h₂
  have hmem : (k', given) ∈ rest := by
    have hfound := (hbetween'.symm.trans hbetween).mem_iff.mp List.mem_cons_self
    rcases List.mem_cons.mp hfound with heq | hmem
    · exact absurd (congrArg Prod.fst heq).symm hne
    · exact hmem
  obtain ⟨front, back, rfl⟩ := List.append_of_mem hmem
  have hfirst : (front ++ (k', given) :: back).Perm ((k', given) :: (front ++ back)) :=
    List.perm_middle
  have hothers : rest'.Perm ((k, items') :: (front ++ back)) := by
    have hswap : s₁.held.Perm ((k', given) :: (k, items') :: (front ++ back)) :=
      (hbetween.trans (hfirst.cons _)).trans (List.Perm.swap ..)
    exact (hbetween'.symm.trans hswap).cons_inv
  exact ⟨front ++ back, hbefore.trans (hfirst.cons _),
    (hafter.trans (hothers.cons _)).trans (List.Perm.swap ..)⟩

theorem Adds.owners (h : Adds s s' k items') (hs : (s.held.map Prod.fst).Nodup)
    (hfresh : ∀ e ∈ s.held, e.1 ≠ k) : (s'.held.map Prod.fst).Nodup := by
  refine (h.map Prod.fst).nodup_iff.mpr (List.nodup_cons.mpr ⟨?_, hs⟩)
  intro hmem
  obtain ⟨e, he, hk⟩ := List.mem_map.mp hmem
  exact hfresh e he hk

theorem Merges.owners {given : List α} (h : Merges s s' k k' items given items')
    (hs : (s.held.map Prod.fst).Nodup) : (s'.held.map Prod.fst).Nodup := by
  obtain ⟨rest, hbefore, hafter⟩ := h
  have howners : (s.held.map Prod.fst).Perm (k :: k' :: rest.map Prod.fst) := hbefore.map _
  have howners' : (s'.held.map Prod.fst).Perm (k :: k' :: rest.map Prod.fst) := hafter.map _
  exact howners'.nodup_iff.mpr (howners.nodup_iff.mp hs)

/-! ## Every item

What is left after a change are the items that were there and new ones, seen through a function `w`
that the change of an item does not affect. -/

section All

variable {β : Type*} {w : α → β} {new : List α}

/-- The items, those of one owner first. -/
theorem all_perm (h : s.held.Perm ((k, items) :: rest)) :
    s.all.Perm (s.free ++ items ++ rest.flatMap Prod.snd) := by
  unfold all
  rw [List.append_assoc]
  exact (flatMap_snd_perm h).append_left _

/-- A change of some items, beside others. -/
theorem perm_beside {before after others : List α}
    (h : (after.map w).Perm ((before ++ new).map w)) :
    ((after ++ others).map w).Perm ((before ++ others ++ new).map w) := by
  simp only [List.map_append] at h ⊢
  refine (h.append_right _).trans ?_
  rw [List.append_assoc, List.append_assoc]
  exact List.perm_append_comm.append_left _

theorem Adds.all_perm (h : Adds s s' k items')
    (hw : ((s'.free ++ items').map w).Perm ((s.free ++ new).map w)) :
    (s'.all.map w).Perm ((s.all ++ new).map w) :=
  ((Holdings.all_perm h).map w).trans (perm_beside hw)

theorem Moves.all_perm (h : Moves s s' k items items')
    (hw : ((s'.free ++ items').map w).Perm ((s.free ++ items ++ new).map w)) :
    (s'.all.map w).Perm ((s.all ++ new).map w) := by
  obtain ⟨rest, hbefore, hafter⟩ := h
  have hall := (Holdings.all_perm hbefore).append_right new
  exact (((Holdings.all_perm hafter).map w).trans (perm_beside hw)).trans (hall.symm.map w)

theorem Merges.all_perm {given : List α} (h : Merges s s' k k' items given items')
    (hfree : s'.free = s.free) (hw : (items'.map w).Perm ((items ++ given).map w)) :
    (s'.all.map w).Perm (s.all.map w) := by
  obtain ⟨rest, hbefore, hafter⟩ := h
  refine (((Holdings.all_perm hafter).map w).trans ?_).trans
    ((Holdings.all_perm hbefore).map w).symm
  rw [hfree, List.flatMap_cons, List.flatMap_cons, List.nil_append]
  simp only [List.map_append, List.append_assoc] at hw ⊢
  rw [← List.append_assoc (items.map w)]
  exact (hw.append_right _).append_left _

/-- More items are free. -/
theorem grows_perm (hheld : s'.held = s.held) (hfree : s'.free = s.free ++ new) :
    (s'.all.map w).Perm ((s.all ++ new).map w) := by
  unfold all
  rw [hheld, hfree]
  exact perm_beside (List.Perm.refl _)

end All

/-- An owner holds no item twice. -/
theorem Distinct.held (h : Distinct key s) (hmem : (k, items) ∈ s.held) :
    (items.map key).Nodup := by
  obtain ⟨front, back, hheld⟩ := List.append_of_mem hmem
  have hperm : s.held.Perm ((k, items) :: (front ++ back)) := by
    rw [hheld]
    exact List.perm_middle
  have hall := ((all_perm hperm).map key).nodup_iff.mp h.items
  rw [List.map_append, List.map_append] at hall
  exact hall.of_append_left.of_append_right

/-- Two owners hold no item together. -/
theorem Distinct.held_pair (h : Distinct key s) (hmem : (k, items) ∈ s.held)
    (hother : (k', items') ∈ s.held) (hne : k ≠ k') : ((items ++ items').map key).Nodup := by
  obtain ⟨front, back, hheld⟩ := List.append_of_mem hmem
  have hperm : s.held.Perm ((k, items) :: (front ++ back)) := by
    rw [hheld]
    exact List.perm_middle
  have hrest : (k', items') ∈ front ++ back := by
    rcases List.mem_cons.mp (hperm.mem_iff.mp hother) with hsame | hrest
    · exact absurd (Prod.mk.inj hsame).1.symm hne
    · exact hrest
  obtain ⟨front', back', hsplit⟩ := List.append_of_mem hrest
  have hpair : s.held.Perm ((k, items) :: (k', items') :: (front' ++ back')) := by
    rw [hsplit] at hperm
    exact hperm.trans (List.perm_middle.cons _)
  have hall := ((all_perm hpair).map key).nodup_iff.mp h.items
  have hsub : (items ++ items').Sublist
      (s.free ++ items ++ ((k', items') :: (front' ++ back')).flatMap Prod.snd) := by
    rw [List.append_assoc, List.flatMap_cons, ← List.append_assoc items]
    exact (List.sublist_append_left _ _).trans (List.sublist_append_right _ _)
  exact (hsub.map key).nodup hall

theorem mem_all_of_held {a : α} (hmem : (k, items) ∈ s.held) (ha : a ∈ items) : a ∈ s.all :=
  List.mem_append_right _ (List.mem_flatMap.mpr ⟨_, hmem, ha⟩)

/-- Items that are those there were, and new ones. -/
theorem Distinct.of_perm {new : List α} (h : Distinct key s)
    (howners : (s'.held.map Prod.fst).Nodup)
    (hperm : (s'.all.map key).Perm ((s.all ++ new).map key)) (hnew : (new.map key).Nodup)
    (hfresh : ∀ a ∈ new, key a ∉ s.all.map key) : Distinct key s' := by
  refine ⟨howners, hperm.nodup_iff.mpr ?_⟩
  rw [List.map_append, List.nodup_append]
  refine ⟨h.items, hnew, ?_⟩
  intro a ha b hb heq
  obtain ⟨x, hx, rfl⟩ := List.mem_map.mp hb
  exact hfresh x hx (heq ▸ ha)

/-! ## Items that change where they are -/

/-- Every item as `f` makes it. -/
def map (f : α → α) (s : Holdings κ α) : Holdings κ α :=
  ⟨s.free.map f, s.held.map fun e => (e.1, e.2.map f)⟩

theorem map_all (f : α → α) (s : Holdings κ α) : (s.map f).all = s.all.map f := by
  unfold all map
  rw [List.map_append, List.map_flatMap, List.flatMap_map]

theorem map_owners (f : α → α) (s : Holdings κ α) :
    (s.map f).held.map Prod.fst = s.held.map Prod.fst := by
  unfold map
  rw [List.map_map]
  rfl

theorem Distinct.map {f : α → α} (h : Distinct key s) (hf : ∀ a, key (f a) = key a) :
    Distinct key (s.map f) := by
  constructor
  · rw [map_owners]
    exact h.owners
  · rw [map_all, List.map_map]
    have hkeys : key ∘ f = key := funext hf
    rw [hkeys]
    exact h.items

/-! ## What is said of every owner -/

section Every

variable {P : List α → Prop}

/-- A property of what each owner holds. -/
def Every (P : List α → Prop) (s : Holdings κ α) : Prop := ∀ e ∈ s.held, P e.2

theorem Every.of_perm (h : s.held.Perm ((k, items) :: rest)) :
    Every P s ↔ P items ∧ ∀ e ∈ rest, P e.2 := by
  constructor
  · intro hall
    exact ⟨hall _ (h.mem_iff.mpr List.mem_cons_self),
      fun e he => hall e (h.mem_iff.mpr (List.mem_cons_of_mem _ he))⟩
  · rintro ⟨hitems, hrest⟩ e he
    rcases List.mem_cons.mp (h.mem_iff.mp he) with rfl | he
    · exact hitems
    · exact hrest e he

theorem Every.adds (hi : Every P s) (hadds : Adds s s' k items') (hnew : P items') : Every P s' :=
  (Every.of_perm hadds).mpr ⟨hnew, hi⟩

theorem Every.moves (hi : Every P s) (hmoves : Moves s s' k items items')
    (hnew : P items → P items') : Every P s' := by
  obtain ⟨rest, hbefore, hafter⟩ := hmoves
  obtain ⟨hitems, hrest⟩ := (Every.of_perm hbefore).mp hi
  exact (Every.of_perm hafter).mpr ⟨hnew hitems, hrest⟩

theorem Every.map {f : α → α} (hi : Every P s) (hf : ∀ items, P items → P (items.map f)) :
    Every P (s.map f) := by
  intro e he
  obtain ⟨old, hold, rfl⟩ := List.mem_map.mp he
  exact hf old.2 (hi old hold)

theorem Every.merges {given : List α} (hi : Every P s)
    (hmerges : Merges s s' k k' items given items') (hnil : P [])
    (hnew : P items → P given → P items') : Every P s' := by
  obtain ⟨rest, hbefore, hafter⟩ := hmerges
  obtain ⟨hitems, hothers⟩ := (Every.of_perm hbefore).mp hi
  obtain ⟨hgiven, hrest⟩ := List.forall_mem_cons.mp hothers
  refine (Every.of_perm hafter).mpr ⟨hnew hitems hgiven, ?_⟩
  exact List.forall_mem_cons.mpr ⟨hnil, hrest⟩

end Every

end Holdings

end ComponentKb.Lib
