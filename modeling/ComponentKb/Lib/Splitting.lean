import Mathlib.Data.List.Basic
import Mathlib.Tactic.Common

/-!
# Texts split at a separator

* `collapse_collapse`, `collapse_suffix`: separators collapsed to one, and what stays collapsed.
* `of_mem_splitOnP`: the parts of a text have its characters, but no separator.
* `splitOn_append`: the parts of two texts that are put together.
* `intercalate_append`: a text of parts, taken apart behind a separator.
* `getLast_splitOn`: the last part is empty iff the text ends with the separator, or is empty.
-/

namespace ComponentKb.Lib

theorem of_mem_splitOnP {α : Type*} {p : α → Bool} {cs part : List α}
    (h : part ∈ cs.splitOnP p) : ∀ c ∈ part, p c = false ∧ c ∈ cs := by
  induction cs generalizing part with
  | nil =>
    rw [List.splitOnP_nil, List.mem_singleton] at h
    simp [h]
  | cons d cs ih =>
    intro c hc
    rw [List.splitOnP_cons_eq_if_modifyHead] at h
    split at h
    · rcases List.mem_cons.mp h with rfl | h
      · cases hc
      · exact ⟨(ih h c hc).1, List.mem_cons_of_mem d (ih h c hc).2⟩
    · rename_i hd
      obtain ⟨first, rest, hsplit⟩ := List.exists_cons_of_ne_nil (List.splitOnP_ne_nil p cs)
      rw [hsplit, List.modifyHead_cons] at h
      rcases List.mem_cons.mp h with rfl | h
      · rcases List.mem_cons.mp hc with rfl | hc
        · exact ⟨by simpa using hd, List.mem_cons_self⟩
        · have hfirst := ih (hsplit ▸ List.mem_cons_self) c hc
          exact ⟨hfirst.1, List.mem_cons_of_mem d hfirst.2⟩
      · have hrest := ih (hsplit ▸ List.mem_cons_of_mem first h) c hc
        exact ⟨hrest.1, List.mem_cons_of_mem d hrest.2⟩

/-- The parts are what is no separator. -/
theorem flatten_splitOnP {α : Type*} (p : α → Bool) (cs : List α) :
    (cs.splitOnP p).flatten = cs.filter fun c => !p c := by
  induction cs with
  | nil => rfl
  | cons c cs ih =>
    obtain ⟨first, rest, hsplit⟩ := List.exists_cons_of_ne_nil (List.splitOnP_ne_nil p cs)
    rw [List.splitOnP_cons_eq_if_modifyHead]
    by_cases hc : p c = true
    · rw [if_pos hc, List.flatten_cons, ih, List.filter_cons_of_neg (by simp [hc])]
      rfl
    · rw [if_neg hc, List.filter_cons_of_pos (by simp [hc]), ← ih, hsplit]
      rfl

/-- The last part of the first text and the first part of the second one become one. -/
theorem splitOnP_append {α : Type*} {p : α → Bool} (xs ys : List α) :
    ∃ before last first after, xs.splitOnP p = before ++ [last] ∧ ys.splitOnP p = first :: after ∧
      (xs ++ ys).splitOnP p = before ++ (last ++ first) :: after := by
  obtain ⟨first, after, hys⟩ := List.exists_cons_of_ne_nil (List.splitOnP_ne_nil p ys)
  induction xs with
  | nil => exact ⟨[], [], first, after, List.splitOnP_nil .., hys, by simpa using hys⟩
  | cons x xs ih =>
    obtain ⟨before, last, first', after', hxs, hys', happend⟩ := ih
    obtain ⟨rfl, rfl⟩ := List.cons.inj (hys.symm.trans hys')
    rw [List.splitOnP_cons_eq_if_modifyHead, List.cons_append, List.splitOnP_cons_eq_if_modifyHead,
      hxs, happend]
    by_cases hx : p x = true
    · rw [if_pos hx, if_pos hx]
      exact ⟨[] :: before, last, first, after, rfl, hys, rfl⟩
    · rw [if_neg hx, if_neg hx]
      cases before with
      | nil => exact ⟨[], x :: last, first, after, rfl, hys, rfl⟩
      | cons part before => exact ⟨(x :: part) :: before, last, first, after, rfl, hys, rfl⟩

variable {α : Type*} [DecidableEq α] {a : α}

theorem of_mem_splitOn {cs part : List α} (h : part ∈ cs.splitOn a) :
    a ∉ part ∧ ∀ c ∈ part, c ∈ cs := by
  rw [List.splitOn_eq_splitOnP] at h
  refine ⟨fun ha => ?_, fun c hc => (of_mem_splitOnP h c hc).2⟩
  simpa using (of_mem_splitOnP h a ha).1

theorem splitOn_append (xs ys : List α) : ∃ before last first after,
    xs.splitOn a = before ++ [last] ∧ ys.splitOn a = first :: after ∧
      (xs ++ ys).splitOn a = before ++ (last ++ first) :: after := by
  simp only [List.splitOn_eq_splitOnP]
  exact splitOnP_append xs ys

theorem getLast_splitOn {xs last : List α} {before : List (List α)}
    (h : xs.splitOn a = before ++ [last]) : last = [] ↔ xs = [] ∨ xs.getLast? = some a := by
  rcases List.eq_nil_or_concat xs with rfl | ⟨ys, c, rfl⟩
  · rw [List.splitOn_nil] at h
    have hlast : [[]] = [last] := List.append_inj_right' ((List.nil_append [[]]).trans h) rfl
    simpa using hlast.symm
  · rw [List.concat_eq_append] at h ⊢
    rw [List.getLast?_concat, Option.some_inj]
    by_cases hc : c = a
    · subst hc
      rw [List.splitOn_append_cons_self, List.splitOn_nil] at h
      have hlast := List.append_inj_right' h rfl
      simpa using hlast.symm
    · obtain ⟨before', last', first, after, -, hsingle, happend⟩ := @splitOn_append _ _ a ys [c]
      have hsplit : [c].splitOn a = [[c]] := List.splitOn_eq_singleton (by simpa using Ne.symm hc)
      obtain ⟨rfl, rfl⟩ := List.cons.inj (hsplit.symm.trans hsingle)
      rw [happend] at h
      have hlast := List.append_inj_right' h rfl
      have hlast : last' ++ [c] = last := by simpa using hlast
      rw [← hlast]
      simp [hc]

omit [DecidableEq α] in
theorem intercalate_append (before : List (List α)) {after : List (List α)} (h : after ≠ []) :
    [a].intercalate (before ++ after) =
      (before.flatMap fun part => part ++ [a]) ++ [a].intercalate after := by
  induction before with
  | nil => rfl
  | cons part before ih =>
    rw [List.cons_append, List.intercalate_cons_of_ne_nil (List.append_ne_nil_of_right_ne_nil _ h),
      ih, List.flatMap_cons, List.append_assoc, List.append_assoc, List.append_assoc]

/-! ## The parts that are not empty -/

section Parts

variable {β : Type*} {p : β → Bool} {b : β} {s t : List β} {ps : List (List β)}

/-- The parts between separators, without the empty ones. -/
def parts (p : β → Bool) (s : List β) : List (List β) :=
  (s.splitOnP p).filter fun part => !part.isEmpty

/-- A part that is not empty and has no separator. -/
def Solid (p : β → Bool) (part : List β) : Prop := part ≠ [] ∧ ∀ c ∈ part, p c = false

theorem solid_of_mem_parts {part : List β} (h : part ∈ parts p s) : Solid p part := by
  obtain ⟨hmem, hne⟩ := List.mem_filter.mp h
  exact ⟨by simpa using hne, fun c hc => (of_mem_splitOnP hmem c hc).1⟩

theorem splitOnP_intercalate (hb : p b = true) (h : ∀ part ∈ ps, Solid p part) (hne : ps ≠ []) :
    ([b].intercalate ps).splitOnP p = ps := by
  induction ps with
  | nil => exact absurd rfl hne
  | cons part ps ih =>
    have hpart := (h part List.mem_cons_self).2
    by_cases hps : ps = []
    · rw [hps, List.intercalate_singleton, List.splitOnP_eq_singleton hpart]
    · rw [List.intercalate_cons_of_ne_nil hps, List.append_assoc, List.singleton_append,
        List.splitOnP_append_cons_of_forall_mem hpart b hb,
        ih (fun part h' => h part (List.mem_cons_of_mem _ h')) hps]

/-- The parts of a text that was put together of solid parts. -/
theorem parts_intercalate (hb : p b = true) (h : ∀ part ∈ ps, Solid p part) :
    parts p ([b].intercalate ps) = ps := by
  by_cases hne : ps = []
  · rw [hne]
    rfl
  · rw [parts, splitOnP_intercalate hb h hne, List.filter_eq_self]
    intro part hpart
    simpa using (h part hpart).1

theorem mem_intercalate {c : β} (h : c ∈ [b].intercalate ps) : c = b ∨ ∃ part ∈ ps, c ∈ part := by
  induction ps with
  | nil => cases h
  | cons part ps ih =>
    by_cases hps : ps = []
    · rw [hps, List.intercalate_singleton] at h
      exact .inr ⟨part, List.mem_cons_self, h⟩
    · rw [List.intercalate_cons_of_ne_nil hps, List.append_assoc] at h
      rcases List.mem_append.mp h with h | h
      · exact .inr ⟨part, List.mem_cons_self, h⟩
      rcases List.mem_cons.mp h with h | h
      · exact .inl h
      rcases ih h with h | ⟨other, hother, h⟩
      · exact .inl h
      · exact .inr ⟨other, List.mem_cons_of_mem _ hother, h⟩

/-- Each run of separators becomes one `b`; those at the ends are dropped. -/
def collapse (p : β → Bool) (b : β) (s : List β) : List β := [b].intercalate (parts p s)

theorem collapse_collapse (hb : p b = true) : collapse p b (collapse p b s) = collapse p b s := by
  unfold collapse
  rw [parts_intercalate hb fun _ => solid_of_mem_parts]

/-- A collapsed text has no separator but `b`. -/
theorem eq_of_mem_collapse {c : β} (h : c ∈ collapse p b s) (hc : p c = true) : c = b := by
  rcases mem_intercalate h with h | ⟨part, hpart, h⟩
  · exact h
  · rw [(solid_of_mem_parts hpart).2 c h] at hc
    cases hc

theorem intercalate_splitOnP (h : ∀ c ∈ s, p c = true → c = b) :
    [b].intercalate (s.splitOnP p) = s := by
  induction s with
  | nil => rfl
  | cons c s ih =>
    have hs := ih fun d hd => h d (List.mem_cons_of_mem c hd)
    obtain ⟨first, after, hsplit⟩ := List.exists_cons_of_ne_nil (List.splitOnP_ne_nil p s)
    rw [List.splitOnP_cons_eq_if_modifyHead]
    split
    · rename_i hc
      rw [List.intercalate_cons_of_ne_nil (List.splitOnP_ne_nil p s), hs,
        h c List.mem_cons_self hc]
      rfl
    · rw [hsplit, List.modifyHead_cons]
      rw [hsplit] at hs
      by_cases hafter : after = []
      · rw [hafter, List.intercalate_singleton] at hs ⊢
        rw [hs]
      · rw [List.intercalate_cons_of_ne_nil hafter] at hs ⊢
        rw [List.cons_append, List.cons_append, hs]

/-- The end of a collapsed text is collapsed, if it does not start with a separator. -/
theorem collapse_suffix (hb : p b = true) (hs : collapse p b (s ++ t) = s ++ t)
    (hhead : ∀ c ∈ t.head?, p c = false) : collapse p b t = t := by
  have hall : ∀ c ∈ t, p c = true → c = b := fun c hc =>
    eq_of_mem_collapse (s := s ++ t) (by rw [hs]; exact List.mem_append_right s hc)
  cases t with
  | nil => rfl
  | cons c t =>
    obtain ⟨before, last, first, after, -, hsplit, happend⟩ := splitOnP_append (p := p) s (c :: t)
    have hwhole : (s ++ c :: t).splitOnP p = parts p (s ++ c :: t) := by
      have hne : parts p (s ++ c :: t) ≠ [] := by
        intro hnil
        rw [collapse, hnil] at hs
        exact List.append_ne_nil_of_right_ne_nil s (List.cons_ne_nil c t) hs.symm
      conv_lhs => rw [← hs]
      exact splitOnP_intercalate hb (fun _ => solid_of_mem_parts) hne
    have hfirst : first ≠ [] := by
      rw [List.splitOnP_cons_eq_if_modifyHead, if_neg (by simpa using hhead c rfl)] at hsplit
      obtain ⟨other, others, hsplit'⟩ := List.exists_cons_of_ne_nil (List.splitOnP_ne_nil p t)
      rw [hsplit', List.modifyHead_cons] at hsplit
      rw [← (List.cons.inj hsplit).1]
      exact List.cons_ne_nil _ _
    have hparts : parts p (c :: t) = (c :: t).splitOnP p := by
      rw [parts, List.filter_eq_self, hsplit]
      intro part hpart
      rcases List.mem_cons.mp hpart with rfl | hpart
      · simpa using hfirst
      · have hmem : part ∈ parts p (s ++ c :: t) := by
          rw [← hwhole, happend]
          exact List.mem_append_right _ (List.mem_cons_of_mem _ hpart)
        simpa using (solid_of_mem_parts hmem).1
    rw [collapse, hparts, intercalate_splitOnP hall]

end Parts

end ComponentKb.Lib
