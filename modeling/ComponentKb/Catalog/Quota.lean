import ComponentKb.Catalog.Site
import Mathlib.Algebra.Order.BigOperators.Group.List
import Mathlib.Algebra.Order.Ring.Nat

/-!
# The quota of a card

At most twelve images, two videos and 600 MiB of declared originals count for a card at a time:
those that are ready, processed, or pending and not expired. The reservation of an upload, the
autosave and the legacy import look at what the card has; a merge does not, nor does anything that
brings an asset back once its place was given away.

* `quota_kept`: the quota holds in every state of a run whose merges fit, and whose assets come back
  only to a card with room.
* `quota_exceeded`: a merge, or a retry, leaves thirteen images on a card.
-/

namespace ComponentKb.Catalog

open ComponentKb.Lib

/-! ## The quota -/

/-- What counts for a card at a time is within `MAX_COMPONENT_IMAGES`, `MAX_COMPONENT_VIDEOS` and
`MAX_COMPONENT_ORIGINAL_BYTES`. -/
def WithinQuota (now : Time) (assets : List MediaAsset) : Prop :=
  (componentUsage now assets).images ≤ 12 ∧ (componentUsage now assets).videos ≤ 2 ∧
    (componentUsage now assets).originalBytes ≤ 600 * 1024 * 1024

instance (now : Time) (assets : List MediaAsset) : Decidable (WithinQuota now assets) :=
  inferInstanceAs (Decidable (_ ∧ _))

/-- Every card is within its quota, now and later. -/
def Site.WithinQuotas (s : Site) : Prop :=
  ∀ card ∈ s.db.cards, ∀ now, s.clock ≤ now → WithinQuota now card.assets

/-- What `reserve_upload` asks for before it adds an asset. -/
def HasRoom (now : Time) (assets : List MediaAsset) (asset : MediaAsset) : Prop :=
  (componentUsage now assets).count asset.kind < MediaKind.maxCount asset.kind ∧
    (componentUsage now assets).originalBytes + asset.declaredSizeBytes ≤ maxComponentOriginalBytes

instance (now : Time) (assets : List MediaAsset) (asset : MediaAsset) :
    Decidable (HasRoom now assets asset) := inferInstanceAs (Decidable (_ ∧ _))

/-- The times that an event reads from the clock. -/
def SiteEvent.times : SiteEvent → List Time
  | .catalog event => event.times
  | .visit _ _ => []
  | .confirm _ _ now => [now]
  | .media _ event _ => [event.time]
  | .clean _ _ _ now => [now]

/-- The cards that an event merges. -/
def SiteEvent.merge (db : Db) : SiteEvent → Option (UUID × UUID)
  | .catalog event => event.merge db
  | _ => none

/-- The clock once an event is done. -/
def Site.after (s : Site) (e : SiteEvent) : Time := e.times.foldl max s.clock

/-- The condition of the quota on one step: an asset that does not count comes back to a card with
room only, and what counts for two cards that are merged is within the quota together. -/
def Roomy (s : Site) (e : SiteEvent) (_ : Site) : Prop :=
  (∀ id ∈ e.revived s, ∀ card ∈ s.db.cards, ∀ asset ∈ card.assets, asset.id = id →
    ¬ asset.counted (s.after e) → HasRoom (s.after e) card.assets asset) ∧
  ∀ pair ∈ e.merge s.db, ∀ survivor ∈ s.db.card pair.1, ∀ loser ∈ s.db.card pair.2,
    WithinQuota (s.after e) (survivor.assets ++ loser.assets)

instance (s : Site) (e : SiteEvent) (s' : Site) : Decidable (Roomy s e s') :=
  inferInstanceAs (Decidable (_ ∧ _))

/-! ## Measures -/

/-- What the quota limits. -/
inductive Measure where
  | count (kind : Media.MediaKind)
  | originalBytes

def Measure.weight : Measure → MediaAsset → Nat
  | .count kind, asset => if asset.kind = kind then 1 else 0
  | .originalBytes, asset => asset.declaredSizeBytes

def Measure.limit : Measure → Nat
  | .count kind => MediaKind.maxCount kind
  | .originalBytes => maxComponentOriginalBytes

/-- What an asset counts for at a time. -/
def Measure.charge (m : Measure) (now : Time) (asset : MediaAsset) : Nat :=
  if asset.counted now then m.weight asset else 0

/-- What the assets of a card count for. -/
def Measure.tally (m : Measure) (now : Time) (assets : List MediaAsset) : Nat :=
  (assets.map (m.charge now)).sum

section Tally

variable {m : Measure} {now now' : Time} {assets assets' : List MediaAsset} {a b : MediaAsset}

theorem componentUsage_count (now : Time) (assets : List MediaAsset) (kind : Media.MediaKind) :
    (componentUsage now assets).count kind = (Measure.count kind).tally now assets := by
  have hcount : (componentUsage now assets).count kind =
      ((assets.filter (MediaAsset.counted now)).filter (·.kind = kind)).length := by
    cases kind <;> rfl
  rw [hcount]
  clear hcount
  induction assets with
  | nil => rfl
  | cons a rest ih =>
    unfold Measure.tally at ih ⊢
    rw [List.map_cons, List.sum_cons, ← ih, Measure.charge, Measure.weight]
    by_cases hcounted : a.counted now = true
    · by_cases hkind : a.kind = kind
      · simp [hcounted, hkind, Nat.add_comm]
      · simp [hcounted, hkind]
    · simp [hcounted]

theorem componentUsage_bytes (now : Time) (assets : List MediaAsset) :
    (componentUsage now assets).originalBytes = Measure.originalBytes.tally now assets := by
  have hbytes : (componentUsage now assets).originalBytes =
      ((assets.filter (MediaAsset.counted now)).map MediaAsset.declaredSizeBytes).sum := rfl
  rw [hbytes]
  clear hbytes
  induction assets with
  | nil => rfl
  | cons a rest ih =>
    unfold Measure.tally at ih ⊢
    rw [List.map_cons, List.sum_cons, ← ih, Measure.charge, Measure.weight]
    by_cases hcounted : a.counted now = true <;> simp [hcounted]

theorem withinQuota_iff : WithinQuota now assets ↔ ∀ m : Measure, m.tally now assets ≤ m.limit := by
  have himages : (componentUsage now assets).images = _ := componentUsage_count now assets .image
  have hvideos : (componentUsage now assets).videos = _ := componentUsage_count now assets .video
  have hbytes := componentUsage_bytes now assets
  constructor
  · rintro ⟨h₁, h₂, h₃⟩ m
    cases m with
    | count kind =>
      cases kind with
      | image => exact himages ▸ h₁
      | video => exact hvideos ▸ h₂
    | originalBytes => exact hbytes ▸ h₃
  · intro h
    exact ⟨himages.trans_le (h (.count .image)), hvideos.trans_le (h (.count .video)),
      hbytes.trans_le (h .originalBytes)⟩

theorem HasRoom.tally (h : HasRoom now assets a) (m : Measure) :
    m.tally now assets + m.weight a ≤ m.limit ∨ m.weight a = 0 := by
  obtain ⟨hcount, hbytes⟩ := h
  rw [componentUsage_count] at hcount
  rw [componentUsage_bytes] at hbytes
  cases m with
  | count kind =>
    by_cases hkind : a.kind = kind
    · subst hkind
      left
      rw [Measure.weight, if_pos rfl]
      exact hcount
    · exact Or.inr (if_neg hkind)
  | originalBytes => exact Or.inl hbytes

/-- What counts later counts now. -/
theorem MediaAsset.counted_of_le (h : now ≤ now') (hcounted : a.counted now' = true) :
    a.counted now = true := by
  unfold MediaAsset.counted MediaAsset.uploading at *
  simp only [decide_eq_true_eq, Bool.decide_or, Bool.or_eq_true] at *
  rcases hcounted with hready | hprocessing | ⟨hpending, hexpires⟩
  · exact Or.inl hready
  · exact Or.inr (Or.inl hprocessing)
  · exact Or.inr (Or.inr ⟨hpending, h.trans_lt hexpires⟩)

theorem Measure.charge_le (m : Measure) (now : Time) (a : MediaAsset) :
    m.charge now a ≤ m.weight a := by
  unfold Measure.charge
  split
  · exact le_rfl
  · exact Nat.zero_le _

theorem Measure.tally_append (m : Measure) (now : Time) (assets assets' : List MediaAsset) :
    m.tally now (assets ++ assets') = m.tally now assets + m.tally now assets' := by
  unfold Measure.tally
  rw [List.map_append, List.sum_append]

theorem Measure.tally_later (m : Measure) (h : now ≤ now') (assets : List MediaAsset) :
    m.tally now' assets ≤ m.tally now assets := by
  refine List.sum_le_sum fun a _ => ?_
  unfold Measure.charge
  by_cases hcounted : a.counted now' = true
  · rw [if_pos hcounted, if_pos (MediaAsset.counted_of_le h hcounted)]
  · rw [if_neg hcounted]
    exact Nat.zero_le _

theorem Measure.tally_le_weight (m : Measure) (now : Time) (assets : List MediaAsset) :
    m.tally now assets ≤ (assets.map m.weight).sum :=
  List.sum_le_sum fun a _ => m.charge_le now a

theorem WithinQuota.later (h : now ≤ now') (hi : WithinQuota now assets) :
    WithinQuota now' assets := by
  rw [withinQuota_iff] at hi ⊢
  exact fun m => (m.tally_later h assets).trans (hi m)

theorem lasting_charge (m : Measure) (now : Time) : Lasting (m.charge now) := by
  cases m <;> exact fun _ _ _ _ _ _ => rfl

/-- Assets that are changed, or come in another order. -/
theorem Measure.tally_perm
    (h : (assets.map (m.charge now)).Perm (assets'.map (m.charge now))) :
    m.tally now assets = m.tally now assets' := h.sum_eq

theorem Measure.tally_sublist (h : assets.Sublist assets') :
    m.tally now assets ≤ m.tally now assets' :=
  (h.map _).sum_le_sum fun _ _ => Nat.zero_le _

end Tally

/-! ## Transactions of the catalog -/

section Catalog

variable {event : Event} {merge : Option (UUID × UUID)} {s s' : Shelf} {now t : Time}
  {assets given : List MediaAsset} {images : List ImageMutation} {primary : Option UUID}

/-- Assets that a request names are no more than it names. -/
theorem length_le_of_named (hnodup : (assets.map MediaAsset.id).Nodup)
    (hnamed : ∀ a ∈ assets, a.id ∈ images.map ImageMutation.assetId) :
    assets.length ≤ images.length := by
  have hsub : assets.map MediaAsset.id ⊆ images.map ImageMutation.assetId := by
    intro id hid
    obtain ⟨a, ha, rfl⟩ := List.mem_map.mp hid
    exact hnamed a ha
  have hlength := (List.subperm_of_subset hnodup hsub).length_le
  rwa [List.length_map, List.length_map] at hlength

theorem tally_count_le (kind : Media.MediaKind) (t : Time) (assets : List MediaAsset) :
    (Measure.count kind).tally t assets ≤ (assets.filter (·.kind = kind)).length := by
  refine ((Measure.count kind).tally_le_weight t assets).trans (le_of_eq ?_)
  induction assets with
  | nil => rfl
  | cons a rest ih =>
    rw [List.map_cons, List.sum_cons, ih, Measure.weight]
    by_cases hkind : a.kind = kind <;> simp [hkind, Nat.add_comm]

theorem tally_count_eq_zero {kind : Media.MediaKind} (h : ∀ a ∈ assets, a.kind ≠ kind) (t : Time) :
    (Measure.count kind).tally t assets = 0 := by
  have hnone : assets.filter (·.kind = kind) = [] :=
    List.filter_eq_nil_iff.mpr fun a ha => by simpa using h a ha
  have hle := tally_count_le kind t assets
  rw [hnone] at hle
  exact Nat.le_zero.mp hle

/-- At most twelve images are within the quota. -/
theorem withinQuota_images (hlength : assets.length ≤ 12)
    (himages : ∀ a ∈ assets, a.kind = .image) (hsized : ∀ a ∈ assets, a.sized) (t : Time) :
    WithinQuota t assets := by
  rw [withinQuota_iff]
  intro m
  match m with
  | .count .image =>
    exact (tally_count_le .image t assets).trans ((List.length_filter_le ..).trans hlength)
  | .count .video =>
    rw [tally_count_eq_zero fun a ha => by rw [himages a ha]; decide]
    exact Nat.zero_le _
  | .originalBytes =>
    refine (Measure.originalBytes.tally_le_weight t assets).trans ?_
    have heach : ∀ size ∈ assets.map Measure.originalBytes.weight, size ≤ 8388608 := by
      intro size hsize
      obtain ⟨a, ha, rfl⟩ := List.mem_map.mp hsize
      have hbound : a.declaredSizeBytes ≤ a.kind.maxBytes := hsized a ha
      rw [himages a ha] at hbound
      exact hbound
    have hsum := List.sum_le_card_nsmul _ _ heach
    rw [List.length_map, nsmul_eq_mul, Nat.cast_id] at hsum
    exact hsum.trans ((Nat.mul_le_mul_right _ hlength).trans (by decide))

/-- The images of an edited card are those that the request names. -/
theorem arrangedAssets_quota (hdistinct : DistinctImages images)
    (hnodup : ((arrangedAssets images primary (assets ++ given)).map MediaAsset.id).Nodup)
    (hkinds : ∀ a ∈ given, a.kind = .image)
    (hroom : given = [] ∨ ∃ now ≤ t, (componentUsage now assets).originalBytes +
      (given.map MediaAsset.declaredSizeBytes).sum ≤ maxComponentOriginalBytes)
    (hi : WithinQuota t assets) :
    WithinQuota t (arrangedAssets images primary (assets ++ given)) := by
  have hshrinks : ∀ m : Measure, m.tally t (arrangedAssets images primary (assets ++ given)) ≤
      m.tally t assets + m.tally t given := by
    intro m
    rw [← m.tally_append]
    have hsum := (arranged_perm (lasting_charge m t) (assets ++ given) images primary).sum_eq
    rw [List.sum_append] at hsum
    exact (Nat.le_add_left _ _).trans (le_of_eq hsum)
  rw [withinQuota_iff] at hi ⊢
  intro m
  match m with
  | .count .image =>
    refine (tally_count_le ..).trans ((length_le_of_named ?_ ?_).trans hdistinct.1)
    · exact (List.filter_sublist.map _).nodup hnodup
    · intro a ha
      obtain ⟨ha, hkind⟩ := List.mem_filter.mp ha
      obtain ⟨b, hb, rfl⟩ := List.mem_map.mp ha
      have hnamed := of_decide_eq_true (List.mem_filter.mp hb).2
      have hsame : b.kind = .image ∧ (if b.kind = .image then b.mutated images
          (selectedPrimary (imagesOf (assets ++ given)) images primary) else b).id = b.id := by
        split
        · rename_i himage
          exact ⟨himage, lasting_id.mutated ..⟩
        · rename_i hvideo
          rw [if_neg hvideo] at hkind
          exact absurd (of_decide_eq_true hkind) hvideo
      rw [hsame.2]
      exact hnamed.resolve_left fun hno => hno hsame.1
  | .count .video =>
    refine (hshrinks _).trans ?_
    have hnone : (Measure.count .video).tally t given = 0 :=
      tally_count_eq_zero (fun a ha => by rw [hkinds a ha]; decide) t
    rw [hnone]
    exact hi _
  | .originalBytes =>
    refine (hshrinks _).trans ?_
    rcases hroom with hnone | ⟨now, hnow, hroom⟩
    · rw [hnone]
      exact hi _
    · rw [componentUsage_bytes] at hroom
      have hearlier := Measure.originalBytes.tally_later hnow assets
      have hgiven := Measure.originalBytes.tally_le_weight t given
      exact (Nat.add_le_add hearlier hgiven).trans hroom

/-! ### Legacy images -/

/-- The loop adds images of a bounded size while there is room. -/
theorem ingestImages_bounds (owner : UUID) (title : String) (now : Time)
    (images : List LegacyImage) (count bytes position : Nat) (shas : List String) :
    let added := ingestImages owner title now count bytes position shas images
    (∀ a ∈ added, a.kind = .image) ∧ (added = [] ∨ count + added.length ≤ 12 ∧
      bytes + (added.map MediaAsset.declaredSizeBytes).sum ≤ maxComponentOriginalBytes) := by
  induction images generalizing count bytes position shas with
  | nil => exact ⟨fun a ha => absurd ha List.not_mem_nil, Or.inl rfl⟩
  | cons image rest ih =>
    unfold ingestImages
    split
    · exact ih ..
    · rename_i hroom
      simp only [not_or, Nat.not_le, Nat.not_lt] at hroom
      obtain ⟨-, hcount, hbytes, -⟩ := hroom
      obtain ⟨hkinds, hrest⟩ := ih (count + 1) (bytes + image.size) (position + 1)
        (image.sha256 :: shas)
      refine ⟨List.forall_mem_cons.mpr ⟨rfl, hkinds⟩, Or.inr ?_⟩
      have hsize : (image.asset owner title position (count = 0) now).declaredSizeBytes =
          image.size := rfl
      rw [List.length_cons, List.map_cons, List.sum_cons, hsize]
      rcases hrest with hnone | ⟨hlength, hsum⟩
      · rw [hnone]
        exact ⟨hcount, hbytes⟩
      · exact ⟨by omega, by omega⟩

theorem withIngested_quota {owner : UUID} {title : String} {images : List LegacyImage}
    (hnow : now ≤ t) (hi : WithinQuota t assets) :
    WithinQuota t (withIngested owner title now images assets) := by
  obtain ⟨hkinds, hbounds⟩ := ingestImages_bounds owner title now images
    (componentUsage now assets).images (componentUsage now assets).originalBytes
    (nextComponentOrder assets .image)
    ((assets.filter (·.status ≠ .rejected)).filterMap (·.sha256))
  unfold withIngested ingestedAssets
  simp only at hkinds hbounds ⊢
  generalize ingestImages owner title now _ _ _ _ images = added at *
  rcases hbounds with rfl | ⟨hlength, hbytes⟩
  · rw [List.append_nil]
    exact hi
  · have himages : (componentUsage now assets).images = _ := componentUsage_count now assets .image
    rw [himages] at hlength
    rw [componentUsage_bytes] at hbytes
    rw [withinQuota_iff] at hi ⊢
    intro m
    rw [m.tally_append]
    have hearlier := m.tally_later hnow assets
    match m with
    | .count .image =>
      have hadded := (tally_count_le .image t added).trans (List.length_filter_le ..)
      exact (Nat.add_le_add hearlier hadded).trans hlength
    | .count .video =>
      have hnone : (Measure.count .video).tally t added = 0 :=
        tally_count_eq_zero (fun a ha => by rw [hkinds a ha]; decide) t
      rw [hnone]
      exact hi _
    | .originalBytes =>
      exact (Nat.add_le_add hearlier (Measure.originalBytes.tally_le_weight t added)).trans hbytes

/-- What counts for the cards of a merge, by then. -/
theorem mergedAssets_quota {survivor loser : List MediaAsset}
    (h : WithinQuota t (survivor ++ loser)) : WithinQuota t (mergedAssets survivor loser) := by
  rw [withinQuota_iff] at h ⊢
  intro m
  rw [Measure.tally_perm (mergedAssets_perm (lasting_charge m t) survivor loser)]
  exact h m

/-- An asset more, where there is room for it. -/
theorem withinQuota_concat {asset : MediaAsset} (hnow : now ≤ t) (hroom : HasRoom now assets asset)
    (hi : WithinQuota t assets) : WithinQuota t (assets ++ [asset]) := by
  rw [withinQuota_iff] at hi ⊢
  intro m
  have hone : m.tally t [asset] ≤ m.weight asset := m.charge_le t asset
  rw [m.tally_append]
  rcases hroom.tally m with hfits | hnone
  · exact (Nat.add_le_add (m.tally_later hnow assets) hone).trans hfits
  · rw [hnone] at hone
    exact (Nat.add_le_add_left hone _).trans (hi m)

/-- **A transaction of the catalog keeps the quota of every card, but for a merge**, which keeps it
where it joins cards that fit. -/
theorem Handling.quota (h : Handling event merge s s') (hi' : s'.Distinct MediaAsset.id)
    (hsized : ∀ a ∈ s'.all, a.sized) (htimes : ∀ now ∈ event.times, now ≤ t)
    (hmerge : ∀ survivorId loserId survivor loser, merge = some (survivorId, loserId) →
      (survivorId, survivor) ∈ s.held → (loserId, loser) ∈ s.held →
      WithinQuota t (survivor ++ loser))
    (hi : s.Every (WithinQuota t)) : s'.Every (WithinQuota t) := by
  have hnil : WithinQuota t [] := by
    refine withinQuota_images (Nat.zero_le _) ?_ ?_ t <;>
      exact fun a ha => absurd ha List.not_mem_nil
  cases h with
  | kept => exact hi
  | drafted hnew hdistinct hstaged hkinds hprimary hfree hadds =>
    have hheld := hadds.mem_iff.mpr List.mem_cons_self
    refine hi.adds hadds (withinQuota_images ((length_le_of_named (hi'.held hheld) ?_).trans
      hdistinct.1) ?_ (fun a ha => hsized a (Holdings.mem_all_of_held hheld ha)) t)
    · intro a ha
      obtain ⟨b, hb, rfl⟩ := List.mem_map.mp ha
      rw [lasting_id.mutated]
      exact of_decide_eq_true (List.mem_filter.mp hb).2
    · intro a ha
      obtain ⟨b, hb, rfl⟩ := List.mem_map.mp ha
      obtain ⟨hfreed, hnamed⟩ := List.mem_filter.mp hb
      have hlasting : Lasting fun asset : MediaAsset => asset.kind := fun _ _ _ _ _ _ => rfl
      exact (hlasting.mutated ..).trans (hkinds b hfreed (of_decide_eq_true hnamed))
  | arranged hgiven hkinds hroom hdistinct hrequested hprimary hfree hmoves =>
    refine hi.moves hmoves fun hassets =>
      arrangedAssets_quota hdistinct (hi'.held hmoves.mem) hkinds ?_ hassets
    exact hroom.imp_right fun ⟨now, hnow, hfits⟩ => ⟨now, htimes now hnow, hfits⟩
  | uploaded hnew hsize hprimary hfree hheld =>
    unfold Holdings.Every
    rw [hheld]
    exact hi
  | reserved hnew hsize hnow hcount hbytes hprimary hfree hmoves =>
    exact hi.moves hmoves fun hassets => withinQuota_concat (htimes _ hnow) ⟨hcount, hbytes⟩ hassets
  | imported hfresh hnew hnow hfree hadds =>
    exact hi.adds hadds (withIngested_quota (htimes _ hnow) hnil)
  | ingested hnew hnow hprimary hfree hmoves =>
    exact hi.moves hmoves fun hassets => withIngested_quota (htimes _ hnow) hassets
  | merged hmerges hfree hjoin =>
    obtain ⟨hsurvivor, hloser⟩ := hjoin.found
    exact hi.merges hjoin hnil fun _ _ =>
      mergedAssets_quota (hmerge _ _ _ _ hmerges hsurvivor hloser)

end Catalog

/-! ## Work at one asset -/

section Work

variable {t : Time} {assets : List MediaAsset} {asset new : MediaAsset}

/-- An asset that is rewritten in the list of its card. -/
theorem rewritten_quota (hnodup : (assets.map MediaAsset.id).Nodup) (hmem : asset ∈ assets)
    (hid : new.id = asset.id) (hkind : new.kind = asset.kind)
    (hsize : new.declaredSizeBytes = asset.declaredSizeBytes)
    (hcounts : new.counted t → asset.counted t ∨ HasRoom t assets asset)
    (hi : WithinQuota t assets) :
    WithinQuota t (assets.map fun a => if a.id = new.id then new else a) := by
  have hfound : lookup MediaAsset.id assets new.id = some asset := by
    rw [hid]
    exact lookup_of_mem hnodup hmem
  obtain ⟨front, back, hbefore, hafter⟩ := replace_split hnodup hfound
  have hweight : ∀ m : Measure, m.weight new = m.weight asset := by
    intro m
    cases m with
    | count kind => rw [Measure.weight, Measure.weight, hkind]
    | originalBytes => exact hsize
  have hsplit : ∀ (m : Measure) (a : MediaAsset), m.tally t (front ++ a :: back) =
      m.charge t a + (m.tally t front + m.tally t back) := by
    intro m a
    rw [m.tally_append]
    unfold Measure.tally
    rw [List.map_cons, List.sum_cons]
    omega
  have hmap : (assets.map fun a => if a.id = new.id then new else a) = front ++ new :: back :=
    hafter
  rw [hmap, withinQuota_iff]
  intro m
  have hbound := withinQuota_iff.mp hi m
  have hold := m.charge_le t asset
  by_cases hcounted : new.counted t = true
  · have hnew := m.charge_le t new
    rcases hcounts hcounted with hcounted' | hroom
    · -- it has counted before
      have hcharge : m.charge t asset = m.weight asset := if_pos hcounted'
      rw [hbefore, hsplit, hcharge, ← hweight] at hbound
      rw [hsplit]
      omega
    · have hfits := hroom.tally m
      rw [hbefore, hsplit] at hfits hbound
      rw [hsplit]
      rw [hweight] at hnew
      omega
  · have hcharge : m.charge t new = 0 := if_neg hcounted
    rw [hbefore, hsplit] at hbound
    rw [hsplit, hcharge]
    omega

end Work

/-! ## Runs -/

/-- What the steps keep. -/
structure Stocked (s : Site) : Prop where
  distinct : s.db.shelf.Distinct MediaAsset.id
  sized : ∀ a ∈ s.db.shelf.all, a.sized
  quota : s.db.shelf.Every (WithinQuota s.clock)

section Runs

variable {env : SiteEnv} {s s' : Site} {e : SiteEvent}

theorem le_after (s : Site) (e : SiteEvent) :
    s.clock ≤ s.after e ∧ ∀ now ∈ e.times, now ≤ s.after e := by
  unfold Site.after
  generalize e.times = times
  generalize s.clock = clock
  induction times generalizing clock with
  | nil => exact ⟨le_rfl, fun now hnow => absurd hnow List.not_mem_nil⟩
  | cons first rest ih =>
    obtain ⟨hclock, hrest⟩ := ih (max clock first)
    rw [List.foldl_cons]
    exact ⟨(le_max_left ..).trans hclock,
      List.forall_mem_cons.mpr ⟨(le_max_right ..).trans hclock, hrest⟩⟩

theorem siteStep_clock (h : siteStep env s e = some s') : s'.clock = s.after e := by
  cases e with
  | catalog event =>
    simp only [siteStep, catalogStep] at h
    split at h
    · cases h
    · obtain ⟨db, -, rfl⟩ := Option.map_eq_some_iff.mp h
      rfl
  | visit request id =>
    obtain ⟨asset, -, rfl⟩ := Option.map_eq_some_iff.mp h
    rfl
  | confirm request size now =>
    obtain ⟨_, -, h⟩ := Option.bind_eq_some_iff.mp h
    obtain ⟨_, -, h⟩ := Option.bind_eq_some_iff.mp h
    obtain ⟨_, -, h⟩ := Option.bind_eq_some_iff.mp h
    simp only at h
    split at h
    · cases h
    · cases h
      rfl
  | media id event stored =>
    obtain ⟨_, -, h⟩ := Option.bind_eq_some_iff.mp h
    obtain ⟨_, -, h⟩ := Option.bind_eq_some_iff.mp h
    obtain ⟨_, -, h⟩ := Option.bind_eq_some_iff.mp h
    split at h
    · cases h
      rfl
    · cases h
  | clean id cutoff reason now =>
    obtain ⟨_, -, h⟩ := Option.bind_eq_some_iff.mp h
    split at h
    · cases h
      rfl
    · cases h

/-- The card of what the shelf has under an id. -/
theorem card_of_held (hi : s.db.shelf.Distinct MediaAsset.id) {id : UUID} {assets : List MediaAsset}
    (hmem : (id, assets) ∈ s.db.shelf.held) :
    ∃ card ∈ s.db.cards, s.db.card id = some card ∧ card.assets = assets := by
  obtain ⟨card, hcard, heq⟩ := List.mem_map.mp hmem
  obtain ⟨rfl, rfl⟩ := Prod.mk.inj heq
  have hcards : (s.db.cards.map Card.id).Nodup := by
    rw [← Db.shelf_owners]
    exact hi.owners
  exact ⟨card, hcard, lookup_of_mem hcards hcard, rfl⟩

theorem sized_of_perm {assets assets' : List MediaAsset} (h : ∀ a ∈ assets, a.sized)
    (hperm : (assets'.map MediaAsset.sized).Perm (assets.map MediaAsset.sized)) :
    ∀ a ∈ assets', a.sized := by
  intro a ha
  obtain ⟨b, hb, hsame⟩ := List.mem_map.mp (hperm.mem_iff.mp (List.mem_map_of_mem ha))
  exact hsame ▸ h b hb

/-- What processing makes of an asset counts only if it did, or comes back. -/
theorem processed_counted {asset : MediaAsset} {result : Media.MediaAsset}
    {variants : List MediaVariant} {t : Time} {P : Prop}
    (hsame : Media.SameUpload asset.toMediaAsset result)
    (hstatus : result.status = asset.status ∨ result.status = .rejected ∨ P)
    (hcounted : (asset.processed result variants).counted t) : asset.counted t ∨ P := by
  have hstatus' : (asset.processed result variants).status = result.status := rfl
  have hexpires : (asset.processed result variants).uploadExpiresAt = asset.uploadExpiresAt :=
    hsame.uploadExpiresAt
  unfold MediaAsset.counted MediaAsset.uploading at *
  rw [hstatus', hexpires] at hcounted
  rcases hstatus with hkept | hrejected | hback
  · rw [hkept] at hcounted
    exact Or.inl hcounted
  · rw [hrejected] at hcounted
    simp at hcounted
  · exact Or.inr hback

theorem Stocked.step (hi : Stocked s) (hroomy : Roomy s e s') (h : siteStep env s e = some s') :
    Stocked s' := by
  have hclock := siteStep_clock h
  have hdistinct := siteStep_distinct hi.distinct h
  obtain ⟨hafter, htimes⟩ := le_after s e
  have hquota : s.db.shelf.Every (WithinQuota (s.after e)) :=
    fun held hheld => (hi.quota held hheld).later hafter
  obtain ⟨hrevived, hmerged⟩ := hroomy
  rw [← hclock] at *
  cases siteStep_change h with
  | kept hdb =>
    rw [hdb] at hdistinct
    refine ⟨hdb ▸ hdistinct, hdb ▸ hi.sized, ?_⟩
    rw [hdb]
    exact hquota
  | catalog hevent hprocesses hnodup hstep =>
    subst hevent
    have hhandles := step_handles hi.distinct hprocesses hstep
    obtain ⟨new, -, hnew, hperm⟩ := hhandles.all_perm
    have hsized : ∀ a ∈ s'.db.shelf.all, a.sized :=
      sized_of_perm (List.forall_mem_append.mpr ⟨hi.sized, hnew⟩)
        (hperm _ fun _ _ _ _ _ _ => rfl)
    refine ⟨hdistinct, hsized, hhandles.quota hdistinct hsized htimes ?_ hquota⟩
    intro survivorId loserId survivor loser hmerge hsurvivor hloser
    obtain ⟨card, -, hcard, rfl⟩ := card_of_held hi.distinct hsurvivor
    obtain ⟨gone, -, hgone, rfl⟩ := card_of_held hi.distinct hloser
    exact hmerged (survivorId, loserId) hmerge card hcard gone hgone
  | reworked hasset hdb hsame hstatus hlater =>
    rename_i asset result variants
    have hshelf := Db.shelf_putAsset s.db (asset.processed result variants)
    rw [← hdb] at hshelf
    have hall : asset ∈ s.db.shelf.all := by
      rw [Db.shelf_all]
      exact mem_of_lookup hasset
    refine ⟨hdistinct, ?_, ?_⟩
    · rw [hshelf, Holdings.map_all]
      intro a ha
      obtain ⟨b, hb, rfl⟩ := List.mem_map.mp ha
      split
      · exact hi.sized asset hall
      · exact hi.sized b hb
    · rw [hshelf]
      intro held hheld
      obtain ⟨⟨id, assets⟩, hmem, rfl⟩ := List.mem_map.mp hheld
      by_cases hholds : asset ∈ assets
      · refine rewritten_quota (hi.distinct.held hmem) hholds rfl rfl rfl (fun hcounted => ?_)
          (hquota _ hmem)
        by_cases hcounted' : asset.counted s'.clock = true
        · exact Or.inl hcounted'
        · obtain ⟨card, hcard, -, rfl⟩ := card_of_held hi.distinct hmem
          refine (processed_counted hsame hstatus hcounted).imp_right fun hback => ?_
          exact hrevived _ hback card hcard asset hholds rfl hcounted'
      · -- the asset is not on this card
        have hkept : (assets.map fun a => if a.id = (asset.processed result variants).id then
            asset.processed result variants else a) = assets := by
          refine (List.map_congr_left fun a ha => if_neg fun heq => hholds ?_).trans (List.map_id _)
          have hinj := List.inj_on_of_nodup_map hi.distinct.items
            (Holdings.mem_all_of_held hmem ha) hall heq
          exact hinj ▸ ha
        simp only
        rw [hkept]
        exact hquota _ hmem

/-- **When the quota of every card holds**: in every state of a run from an empty catalog, if no
asset comes back to a card without room for it and no merge joins cards that do not fit. -/
theorem quota_kept (env : SiteEnv) {s : Site} {events : List SiteEvent} (hcards : s.db.cards = [])
    (huploads : (s.db.uploads.map MediaAsset.id).Nodup) (hsized : ∀ a ∈ s.db.uploads, a.sized)
    (h : Along (siteStep env) Roomy s events) :
    Always (siteStep env) Site.WithinQuotas s events := by
  have hheld : s.db.shelf.held = [] := by
    unfold Db.shelf
    rw [hcards]
    rfl
  have hall : s.db.shelf.all = s.db.uploads := by
    unfold Holdings.all
    rw [hheld]
    exact List.append_nil _
  have hstart : Stocked s := by
    refine ⟨⟨?_, hall ▸ huploads⟩, hall ▸ hsized, ?_⟩
    · rw [hheld]
      exact List.nodup_nil
    · unfold Holdings.Every
      rw [hheld]
      exact fun held hno => absurd hno List.not_mem_nil
  refine always_of_inv (fun s e s' hi hroomy hstep => hi.step hroomy hstep) ?_ hstart h
  intro s hi card hcard now hnow
  exact (hi.quota (card.id, card.assets) (List.mem_map_of_mem hcard)).later hnow

end Runs

/-! ## Thirteen images -/

def plainSiteEnv : SiteEnv := { plainEnv with mediaJobMaxAttempts := 5 }

/-- An installation with the uploads of some ready images. -/
def plainSite (images : List UUID) : Site where
  db := { plainDb with uploads := images.map fun id => readyImage id 7 }
  work := fun _ => none
  visits := fun _ => none
  clock := 0

def named (images : List UUID) : List ImageMutation :=
  images.map fun id => ⟨id, "photo", "Sensor", none⟩

/-- Two cards with images are created, and merged. -/
def joining (images others : List UUID) : List SiteEvent :=
  [.catalog (.createComponent 10 (sensorDraft "sensor" true) (named images) none 7 1),
   .catalog (.createComponent 11 (sensorDraft "sensor-copy" true) (named others) none 7 2),
   .catalog (.decide 30 .merge 1 1 (some 10) [] 7 3)]

/-- An upload for card 10 is confirmed, and rejected by its worker. -/
def rejecting (revision : Nat) : List SiteEvent :=
  [.catalog (.reserveUpload 50 ⟨.image, some 10, some revision, "photo", "Sensor", "image/png", 100⟩
     7 4),
   .visit 0 50, .confirm 0 100 5, .media 50 (.claim 0 6 60) [],
   .media 50 (.reject 0 "image_invalid" 7) []]

theorem quota_kept_joining :
    Always (siteStep plainSiteEnv) Site.WithinQuotas (plainSite [20, 21, 22])
      (joining [20, 21] [22] ++ rejecting 2 ++ [.media 50 (.retry 8) []]) :=
  quota_kept plainSiteEnv rfl (by decide) (by decide) (by decide +kernel)

/-- **A merge exceeds the quota, and so does a retry.** Seven images and six are thirteen; an upload
that was rejected is retried when its place among the twelve was given to another. -/
theorem quota_exceeded :
    ¬ Always (siteStep plainSiteEnv) Site.WithinQuotas
        (plainSite [20, 21, 22, 23, 24, 25, 26, 27, 28, 29, 40, 41, 42])
        (joining [20, 21, 22, 23, 24, 25, 26] [27, 28, 29, 40, 41, 42]) ∧
      ¬ Always (siteStep plainSiteEnv) Site.WithinQuotas
        (plainSite [20, 21, 22, 23, 24, 25, 26, 27, 28, 29, 40])
        (.catalog (.createComponent 10 (sensorDraft "sensor" true)
            (named [20, 21, 22, 23, 24, 25, 26, 27, 28, 29, 40]) none 7 1) ::
          rejecting 1 ++
          [.catalog (.reserveUpload 51
             ⟨.image, some 10, some 2, "photo", "Sensor", "image/png", 100⟩ 7 8),
           .media 50 (.retry 9) []]) := by
  have hexceeds : ∀ (s : Site) (events : List SiteEvent),
      (∃ t ∈ run (siteStep plainSiteEnv) s events,
        ∃ card ∈ t.db.cards, ¬ WithinQuota t.clock card.assets) →
      ¬ Always (siteStep plainSiteEnv) Site.WithinQuotas s events := by
    rintro s events ⟨t, ht, card, hcard, hexceeds⟩ h
    exact hexceeds (h events [] t (List.append_nil _).symm ht card hcard t.clock le_rfl)
  exact ⟨hexceeds _ _ (by decide +kernel), hexceeds _ _ (by decide +kernel)⟩

end ComponentKb.Catalog
