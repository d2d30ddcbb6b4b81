import ComponentKb.Lib.Sorting

/-!
# Results kept from one build to the next

A build makes a result of each file, in a revision. A later build takes the result of a file that
has not changed over into its own revision, and a file counts as unchanged when its fingerprint is
the one that was kept under its name.

* **`refresh_fresh`**: taking over what an earlier build left is building anew, if a fingerprint
  belongs to one content and a result depends on the revision only as `move` changes it.
* `sortBy_fingerprints`: files with the same fingerprints are the same files.
-/

namespace ComponentKb.Lib.Incremental

open Sorting

variable {κ σ φ ρ τ : Type*}

/-- What a build keeps of a file. -/
structure Kept (κ φ τ : Type*) where
  name : κ
  fingerprint : φ
  result : τ

variable (work : ρ → κ → σ → τ) (move : ρ → τ → τ) (fingerprint : σ → φ)

/-- What a build without a cache keeps. -/
def fresh (r : ρ) (files : List (κ × σ)) : List (Kept κ φ τ) :=
  files.map fun file => ⟨file.1, fingerprint file.2, work r file.1 file.2⟩

/-- What was kept under a name. -/
def lookup [DecidableEq κ] (kept : List (Kept κ φ τ)) (name : κ) : Option (Kept κ φ τ) :=
  kept.find? fun item => item.name = name

/-- What a build keeps of a file when something was kept before. -/
def refreshed [DecidableEq κ] [DecidableEq φ] (kept : List (Kept κ φ τ)) (r : ρ)
    (file : κ × σ) : Kept κ φ τ :=
  match (lookup kept file.1).filter fun item => item.fingerprint = fingerprint file.2 with
  | some item => { item with result := move r item.result }
  | none => ⟨file.1, fingerprint file.2, work r file.1 file.2⟩

variable {work move fingerprint}

/-- Without a cache every file is worked on. -/
theorem map_refreshed_nil [DecidableEq κ] [DecidableEq φ] (r : ρ) (files : List (κ × σ)) :
    files.map (refreshed work move fingerprint [] r) = fresh work fingerprint r files := rfl

/-- **An unchanged file may be taken over.** -/
theorem refresh_fresh [DecidableEq κ] [DecidableEq φ] {r r' : ρ}
    (hfingerprint : Function.Injective fingerprint)
    (hmove : ∀ name content, move r' (work r name content) = work r' name content)
    (files files' : List (κ × σ)) :
    files'.map (refreshed work move fingerprint (fresh work fingerprint r files) r') =
      fresh work fingerprint r' files' := by
  refine List.map_congr_left fun file _ => ?_
  unfold refreshed
  split
  · rename_i item hitem
    obtain ⟨hfound, hsame⟩ := Option.filter_eq_some_iff.mp hitem
    have hsame := of_decide_eq_true hsame
    unfold lookup at hfound
    have hname : item.name = file.1 := by simpa using List.find?_some hfound
    obtain ⟨old, -, rfl⟩ := List.mem_map.mp (List.mem_of_find?_eq_some hfound)
    -- the fingerprint gives the content away
    have hcontent : old.2 = file.2 := hfingerprint hsame
    simp only at hname
    simp only [hname, hcontent, hmove]
  · rfl

/-- The files are known by their fingerprints, whatever their order was. -/
theorem sortBy_fingerprints [LinearOrder κ] (hfingerprint : Function.Injective fingerprint)
    {files files' : List (κ × σ)} (hnames : (files.map Prod.fst).Nodup)
    (h : (files.map fun file => (file.1, fingerprint file.2)).Perm
      (files'.map fun file => (file.1, fingerprint file.2))) :
    sortBy Prod.fst files = sortBy Prod.fst files' := by
  have hinjective : Function.Injective fun file : κ × σ => (file.1, fingerprint file.2) := by
    rintro ⟨name, content⟩ ⟨name', content'⟩ hsame
    obtain ⟨hname, hcontent⟩ := Prod.mk.inj hsame
    rw [Prod.mk.injEq]
    exact ⟨hname, hfingerprint hcontent⟩
  exact sortBy_congr ((List.map_perm_map_iff hinjective).mp h) hnames

end ComponentKb.Lib.Incremental
