import ComponentKb.Catalog.Keeping
import ComponentKb.Deduplication.Generation
import Mathlib.Tactic.Linarith

/-!
# Duplicates are proposed once and decided once

Over every interleaving of imports, decisions and all other transactions of the catalog.

* `compare_proposes`: a comparison leaves the rows as they are, or adds one new row of its pair.
* `decide_spec`: what a decision reads and what it makes of the candidates.
* `Inv`, `step_inv`: what every step keeps.
-/

namespace ComponentKb.Deduplication

open Catalog Catalog.Scoring Lib

variable {env : Env} {s s' : Review} {db db' : Db}

/-! ## Pairs and scores -/

theorem orderedPair_lt {a b : UUID} (h : b ≠ a) : (orderedPair a b).1 < (orderedPair a b).2 :=
  min_lt_max.mpr h.symm

theorem mem_orderedPair (a b id : Nat) :
    id = (orderedPair a b).1 ∨ id = (orderedPair a b).2 ↔ id = a ∨ id = b := by
  change id = min a b ∨ id = max a b ↔ _
  omega

theorem orderedPair_inj {a b c : Nat} (h : orderedPair a b = orderedPair a c) : b = c := by
  have hmin : min a b = min a c := congrArg Prod.fst h
  have hmax : max a b = max a c := congrArg Prod.snd h
  omega

theorem scorePair_score {u : Unicode} {sha256 : String → String} {left right : ComponentSignals}
    {trigram : ℚ} {result : ScoreResult} (h : scorePair u sha256 left right trigram = .ok result) :
    0 ≤ result.score ∧ result.score ≤ 1 := by
  obtain ⟨_, -, h⟩ := bind_eq_ok.mp h
  obtain ⟨_, -, h⟩ := bind_eq_ok.mp h
  obtain ⟨⟨_, _⟩, -, h⟩ := bind_eq_ok.mp h
  obtain ⟨_, -, h⟩ := bind_eq_ok.mp h
  obtain ⟨_, -, h⟩ := bind_eq_ok.mp h
  obtain ⟨_, -, h⟩ := bind_eq_ok.mp h
  cases h
  exact Fractions.roundFour_mem (unit_bounded _)

theorem storedScore_bounds {score : ℚ} (hlow : candidateThreshold ≤ score) (hhigh : score ≤ 1) :
    3500 ≤ storedScore score ∧ storedScore score ≤ 10000 := by
  unfold candidateThreshold at hlow
  have hfloor : (3500 : ℤ) ≤ ⌊score * 10000⌋ := Int.le_floor.mpr (by push_cast; linarith)
  have hceil : ⌊score * 10000⌋ ≤ 10000 := by
    have hle : ((⌊score * 10000⌋ : ℤ) : ℚ) ≤ score * 10000 := Int.floor_le _
    have hbound : ((⌊score * 10000⌋ : ℤ) : ℚ) ≤ (10000 : ℤ) := by push_cast; linarith
    exact_mod_cast hbound
  have hfloor' : storedScore score = ⌊score * 10000⌋.toNat := rfl
  omega

/-! ## Imports -/

/-- A new card, and nothing else, is what an import makes. -/
theorem import_others {event : Catalog.Event} {id : UUID} (himports : imports event = true)
    (hid : event.newId = some id) (h : Catalog.step env.toEnv db event = some db')
    (hcreated : (db'.card id).isSome) :
    db.card id = none ∧ ∀ other, other ≠ id → db'.card other = db.card other := by
  obtain ⟨hfresh, h⟩ := step_eq_some h
  have hnone : db.card id = none := by
    rw [hid] at hfresh
    simpa using fun hno => hfresh (Or.inl hno)
  have hsource : ∀ {db₁ db₂ : Db} {target : UUID} {relation : ComponentSource},
      attachSource db₁ target relation = .ok db₂ →
        ∀ other, other ≠ target → db₂.card other = db₁.card other := by
    intro db₁ db₂ target relation hattach other hother
    obtain ⟨card, hcard, hattach⟩ := bind_eq_ok.mp hattach
    cases hattach
    obtain rfl := Db.id_of_card (locked_eq_ok.mp hcard)
    exact Db.put_card_ne (Ne.symm hother)
  have hcreate : ∀ {data : DraftData} {actor : UUID} {now : Time} {db₁ : Db}
      {relation : ComponentSource}, create env.unicode db id data [] none actor now = .ok db₁ →
        attachSource db₁ id relation = .ok db' → ∀ other, other ≠ id →
          db'.card other = db.card other := by
    intro data actor now db₁ relation hmade hattach other hother
    rw [hsource hattach other hother]
    obtain ⟨_, _, _, _, -, -, -, rfl⟩ := create_spec hmade
    refine Eq.trans (lookup_append _) ?_
    rw [if_neg (fun heq => hother heq.symm), Option.or_none]
    rfl
  refine ⟨hnone, ?_⟩
  cases event with
  | persistDraft sourceId keys draft newId rowId actor now =>
    cases hid
    have h := toOption_eq_some.mp h
    unfold persistDraft at h
    split at h
    · rename_i componentId hexact
      split at h
      · cases h
        rw [hnone] at hcreated
        cases hcreated
      · -- the page is attached to another card, so that no card is made
        by_cases hsame : id = componentId
        · obtain ⟨card, hcard, -⟩ := bind_eq_ok.mp h
          rw [← hsame] at hcard
          rw [locked_eq_ok.mp hcard] at hnone
          cases hnone
        · rw [hsource h id hsame, hnone] at hcreated
          cases hcreated
    · obtain ⟨db₁, hmade, hattach⟩ := bind_eq_ok.mp h
      exact hcreate hmade hattach
  | persistRepositoryDraft sourceId parsed draft newId rowId actor now =>
    cases hid
    obtain ⟨_, -, h⟩ := bind_eq_ok.mp (toOption_eq_some.mp h)
    obtain ⟨-, h⟩ := seq_eq_ok.mp h
    obtain ⟨-, h⟩ := seq_eq_ok.mp h
    split at h
    · cases h
      rw [hnone] at hcreated
      cases hcreated
    · obtain ⟨db₁, hmade, hattach⟩ := bind_eq_ok.mp h
      exact hcreate hmade hattach
  | _ => cases himports

/-- The import that a view belongs to. -/
structure Views (env : Env) (g : Generation) (db view : Db) (card : Card) : Prop where
  made : ∃ db', Catalog.step env.toEnv db g.event = some db' ∧
    view = { db' with candidates := rescore g.rescored db'.candidates ++ g.inserted }
  newId : g.event.newId = some card.id
  found : view.card card.id = some card
  fresh : db.card card.id = none
  others : ∀ other, other ≠ card.id → view.card other = db.card other
  candidates : view.candidates = rescore g.rescored db.candidates ++ g.inserted

theorem view_eq_some {g : Generation} {view : Db} {card : Card} (himports : imports g.event = true)
    (h : g.view env db = some (view, card)) : Views env g db view card := by
  obtain ⟨db₁, hstep, h⟩ := Option.bind_eq_some_iff.mp h
  obtain ⟨made, hmade, h⟩ := Option.bind_eq_some_iff.mp h
  obtain ⟨rfl, rfl⟩ := Prod.mk.inj (Option.some.inj h)
  obtain ⟨id, hid, hfound⟩ := Option.bind_eq_some_iff.mp hmade
  obtain rfl := Db.id_of_card hfound
  obtain ⟨hfresh, hothers⟩ :=
    import_others himports hid hstep (by rw [hfound]; rfl)
  have hpairs : g.event.pairs = false := by
    cases hevent : g.event with
    | persistDraft => rfl
    | persistRepositoryDraft => rfl
    | _ =>
      rw [hevent] at himports
      cases himports
  have hcandidates : db₁.candidates = db.candidates := step_candidates hpairs hstep
  exact ⟨⟨db₁, hstep, rfl⟩, hid, hfound, hfresh, hothers, by rw [hcandidates]⟩

/-! ## Comparisons -/

/-- A row that an import makes: of its card and one that exists, which it compares no more. -/
structure Proposes (db : Db) (newId : UUID) (pending : List (UUID × ℚ)) (row : DuplicateCandidate) :
    Prop where
  other : ∃ otherId, otherId ≠ newId ∧ (db.card otherId).isSome ∧
    otherId ∉ pending.map Prod.fst ∧ pairOf row = orderedPair newId otherId
  status : row.status = .open
  score : 3500 ≤ row.score ∧ row.score ≤ 10000

/-- What holds of an import under way. -/
structure Generation.Sound (g : Generation) (db : Db) : Prop where
  imports : imports g.event = true
  rescored : g.rescored = []
  rows : ∀ newId, g.event.newId = some newId → ∀ row ∈ g.rows, Proposes db newId g.pending row
  pairs : (g.rows.map pairOf).Nodup
  pending : (g.pending.map Prod.fst).Nodup
  others : ∀ newId, g.event.newId = some newId →
    ∀ p ∈ g.pending, p.1 ≠ newId ∧ (db.card p.1).isSome

/-- The cards stay. -/
theorem Generation.Sound.keeps {g : Generation} (h : g.Sound db)
    (hkeeps : ∀ id, (db.card id).isSome → (db'.card id).isSome) : g.Sound db' where
  imports := h.imports
  rescored := h.rescored
  rows newId hid row hrow := by
    obtain ⟨⟨otherId, hne, hsome, hpending, hpair⟩, hstatus, hscore⟩ := h.rows newId hid row hrow
    exact ⟨⟨otherId, hne, hkeeps _ hsome, hpending, hpair⟩, hstatus, hscore⟩
  pairs := h.pairs
  pending := h.pending
  others newId hid p hp := (h.others newId hid p hp).imp_right (hkeeps _)

theorem mem_preselect {source : Card} {p : UUID × ℚ} (h : p ∈ preselect env db source) :
    ∃ card ∈ db.cards, card.id = p.1 ∧ card.id ≠ source.id ∧ card.row.status ≠ .archived := by
  have hmem := List.mem_of_mem_take h
  rw [Ranking.rank, List.mem_insertionSort] at hmem
  obtain ⟨card, hcard, rfl⟩ := List.mem_map.mp hmem
  obtain ⟨hcard, hselected⟩ := List.mem_filter.mp hcard
  simp only [ne_eq, decide_eq_true_eq] at hselected
  exact ⟨card, hcard, rfl, hselected.1, hselected.2.1⟩

theorem preselect_nodup (hnodup : (db.cards.map Card.id).Nodup) (source : Card) :
    ((preselect env db source).map Prod.fst).Nodup := by
  unfold preselect
  refine List.Nodup.sublist (List.Sublist.map _ (List.take_sublist _ _)) ?_
  refine (List.Perm.map _ (List.perm_insertionSort _ _)).nodup_iff.mpr ?_
  rw [List.map_map]
  exact hnodup.sublist (List.Sublist.map _ List.filter_sublist)

/-- The preselection starts a sound import. -/
theorem begin_sound {worker : Nat} {event : Catalog.Event} {view : Db} {card : Card}
    (himports : imports event = true) (hnodup : (db.cards.map Card.id).Nodup)
    (hviews : Views env { worker := worker, event := event } db view card) :
    Generation.Sound
      { worker := worker, event := event, pending := preselect env view card } db := by
  refine ⟨himports, rfl, fun _ _ row hrow => absurd hrow List.not_mem_nil, List.nodup_nil, ?_, ?_⟩
  · obtain ⟨db₁, hstep, rfl⟩ := hviews.made
    exact preselect_nodup (step_ids_nodup hnodup hstep) card
  · intro newId hid p hp
    obtain ⟨other, hother, hid', hne, -⟩ := mem_preselect hp
    cases hviews.newId.symm.trans hid
    rw [← hid']
    refine ⟨hne, ?_⟩
    rw [← hviews.others other.id hne]
    exact lookup_isSome.mpr ⟨other, hother, rfl⟩

/-- No row of the pair of an import and a card that it compares is there. -/
theorem openRow_eq_none {g : Generation} {view : Db} {card : Card} {otherId : UUID} {trigram : ℚ}
    {rest : List (UUID × ℚ)} (hg : g.Sound db) (hviews : Views env g db view card)
    (hpending : g.pending = (otherId, trigram) :: rest)
    (hrows : ∀ row ∈ db.candidates, Stored db row) :
    openRow view.candidates (orderedPair card.id otherId) = none := by
  refine List.find?_eq_none.mpr fun row hrow hfound => ?_
  have hpair : pairOf row = orderedPair card.id otherId := by
    simp only [Bool.and_eq_true, decide_eq_true_eq] at hfound
    exact hfound.1
  rw [hviews.candidates, hg.rescored] at hrow
  rcases List.mem_append.mp hrow with hrow | hrow
  · -- the card is new, and the rows that are stored are of cards that are there
    obtain ⟨-, -, hleft, hright⟩ := hrows row hrow
    rcases (mem_orderedPair card.id otherId card.id).mpr (Or.inl rfl) with h | h
    · rw [← hpair] at h
      rw [show row.leftComponentId = card.id from h.symm, hviews.fresh] at hleft
      cases hleft
    · rw [← hpair] at h
      rw [show row.rightComponentId = card.id from h.symm, hviews.fresh] at hright
      cases hright
  · obtain ⟨other, -, -, hnew, hother⟩ :=
      (hg.rows card.id hviews.newId row (List.mem_append_left _ hrow)).other
    obtain rfl := orderedPair_inj (hother.symm.trans hpair)
    exact hnew (by rw [hpending]; exact List.mem_cons_self)

/-- **A comparison proposes its pair, or nothing.** -/
theorem compare_proposes {g next : Generation} {view : Db} {card : Card} {rowId otherId : UUID}
    {trigram : ℚ} {rest : List (UUID × ℚ)} (hg : g.Sound db) (hviews : Views env g db view card)
    (hpending : g.pending = (otherId, trigram) :: rest)
    (hrows : ∀ row ∈ db.candidates, Stored db row)
    (h : ({ g with pending := rest } : Generation).compare env view card rowId otherId trigram =
      .ok next) :
    next = { g with pending := rest } ∨ ∃ score, 3500 ≤ score ∧ score ≤ 10000 ∧
      next = { g with
        pending := rest
        added := g.added ++ [⟨rowId, (orderedPair card.id otherId).1,
          (orderedPair card.id otherId).2, .open, score⟩] } := by
  unfold Generation.compare at h
  split at h
  · cases h
    exact Or.inl rfl
  · obtain ⟨result, hresult, h⟩ := bind_eq_ok.mp h
    split at h
    · cases h
      exact Or.inl rfl
    · rename_i hthreshold
      simp only [openRow_eq_none hg hviews hpending hrows] at h
      cases h
      obtain ⟨hlow, hhigh⟩ :=
        storedScore_bounds (not_lt.mp hthreshold) (scorePair_score hresult).2
      exact Or.inr ⟨storedScore result.score, hlow, hhigh, rfl⟩

/-- A card that was compared is not compared again. -/
theorem Generation.Sound.passed {g : Generation} {p : UUID × ℚ} {rest : List (UUID × ℚ)}
    (hg : g.Sound db) (hpending : g.pending = p :: rest) :
    ({ g with pending := rest } : Generation).Sound db := by
  have hkeys := hg.pending
  rw [hpending, List.map_cons] at hkeys
  refine ⟨hg.imports, hg.rescored, fun newId hid row hrow => ?_, hg.pairs, hkeys.of_cons, ?_⟩
  · obtain ⟨⟨otherId, hne, hsome, hnot, hpair⟩, hstatus, hscore⟩ := hg.rows newId hid row hrow
    rw [hpending, List.map_cons] at hnot
    exact ⟨⟨otherId, hne, hsome, fun hmem => hnot (List.mem_cons_of_mem _ hmem), hpair⟩, hstatus,
      hscore⟩
  · intro newId hid q hq
    exact hg.others newId hid q (by rw [hpending]; exact List.mem_cons_of_mem _ hq)

/-- The new row of a pair joins the rows of its import. -/
theorem Generation.Sound.added {g : Generation} {otherId newId rowId : UUID} {trigram : ℚ}
    {rest : List (UUID × ℚ)} {score : Nat} (hg : g.Sound db)
    (hpending : g.pending = (otherId, trigram) :: rest) (hid : g.event.newId = some newId)
    (hscore : 3500 ≤ score ∧ score ≤ 10000) :
    ({ g with
      pending := rest
      added := g.added ++ [⟨rowId, (orderedPair newId otherId).1, (orderedPair newId otherId).2,
        .open, score⟩] } : Generation).Sound db := by
  have hpassed := hg.passed hpending
  have hkeys := hg.pending
  rw [hpending, List.map_cons, List.nodup_cons] at hkeys
  obtain ⟨hne, hsome⟩ := hg.others newId hid (otherId, trigram) (by rw [hpending]; simp)
  refine ⟨hg.imports, hg.rescored, ?_, ?_, hpassed.pending, hpassed.others⟩
  · intro newId' hid' row hrow
    obtain rfl := Option.some.inj (hid.symm.trans hid')
    unfold Generation.rows at hrow
    rw [← List.append_assoc] at hrow
    rcases List.mem_append.mp hrow with hrow | hrow
    · exact hpassed.rows newId hid row hrow
    · rw [List.mem_singleton.mp hrow]
      exact ⟨⟨otherId, hne, hsome, hkeys.1, rfl⟩, rfl, hscore⟩
  · unfold Generation.rows
    rw [← List.append_assoc, List.map_append]
    refine List.Nodup.append hg.pairs (List.nodup_singleton _) ?_
    intro pair hpair hnew
    obtain ⟨row, hrow, rfl⟩ := List.mem_map.mp hpair
    obtain ⟨other, -, -, hnot, hother⟩ := (hg.rows newId hid row hrow).other
    have hsame : orderedPair newId other = orderedPair newId otherId :=
      hother.symm.trans (List.mem_singleton.mp hnew)
    obtain rfl := orderedPair_inj hsame
    exact hnot (by rw [hpending]; exact List.mem_cons_self)

/-- Sending a row changes no row. -/
theorem Generation.Sound.flushed {g : Generation} (hg : g.Sound db) :
    ({ g with added := [], inserted := g.inserted ++ g.added } : Generation).Sound db := by
  have hrows : ({ g with added := [], inserted := g.inserted ++ g.added } : Generation).rows =
      g.rows := List.append_nil _
  exact ⟨hg.imports, hg.rescored, fun newId hid row hrow => hg.rows newId hid row (hrows ▸ hrow),
    hrows ▸ hg.pairs, hg.pending, hg.others⟩

/-! ## Decisions -/

/-- The card that a merge of a candidate archives. -/
def loserOf (candidate : DuplicateCandidate) (survivorId : Option UUID) : Option UUID :=
  survivorId.bind fun survivor =>
    [candidate.leftComponentId, candidate.rightComponentId].find? (· ≠ survivor)

/-- What a decision reads, and what it makes of the candidates. -/
theorem decide_spec {row : MergeDecision} {left right : Nat}
    (h : Catalog.step env.toEnv db (.decide row.candidateId row.decision left right
      row.survivorComponentId row.fieldResolution row.decidedBy row.decidedAt) = some db') :
    ∃ candidate, lookup DuplicateCandidate.id db.candidates row.candidateId = some candidate ∧
      candidate.status = .open ∧ row.Valid ∧
      (∀ survivor ∈ row.survivorComponentId,
        survivor = candidate.leftComponentId ∨ survivor = candidate.rightComponentId) ∧
      db'.candidates = decidedCandidates db.candidates candidate row.decision
        (loserOf candidate row.survivorComponentId) := by
  obtain ⟨-, h⟩ := step_eq_some h
  obtain ⟨candidate, hcandidate, h⟩ := bind_eq_ok.mp (toOption_eq_some.mp h)
  obtain ⟨hopen, h⟩ := seq_eq_ok.mp h
  obtain ⟨hdecision, h⟩ := seq_eq_ok.mp h
  obtain ⟨-, h⟩ := seq_eq_ok.mp h
  obtain ⟨db₁, hresolve, h⟩ := bind_eq_ok.mp h
  cases h
  replace hresolve := mapError_eq_ok.mp hresolve
  have hdecision := require_eq_ok.mp hdecision
  have hvalid : row.Valid ∧ ∀ survivor ∈ row.survivorComponentId,
      survivor = candidate.leftComponentId ∨ survivor = candidate.rightComponentId := by
    unfold MergeDecision.Valid
    cases hresolves : row.decision.resolves with
    | true =>
      rw [hresolves, if_pos rfl] at hdecision
      obtain ⟨survivor, hsurvivor, hpair⟩ := hdecision
      rw [Option.mem_def.mp hsurvivor]
      exact ⟨rfl, fun other hother => by simpa [Option.mem_some_iff.mp hother] using hpair⟩
    | false =>
      rw [hresolves, if_neg Bool.false_ne_true] at hdecision
      rw [hdecision.1]
      exact ⟨rfl, by simp⟩
  have hcandidates : db₁.candidates = db.candidates := by
    unfold resolveCandidate at hresolve
    split at hresolve
    · obtain ⟨_, _, _, _, _, _, _, _, -, -, -, rfl⟩ := resolveDuplicatePair_spec hresolve
      rfl
    · obtain ⟨_, -, hresolve⟩ := bind_eq_ok.mp hresolve
      obtain ⟨_, -, hresolve⟩ := bind_eq_ok.mp hresolve
      obtain ⟨-, hresolve⟩ := seq_eq_ok.mp hresolve
      cases hresolve
      rfl
  refine ⟨candidate, fromSome_eq_ok.mp hcandidate, require_eq_ok.mp hopen, hvalid.1, hvalid.2, ?_⟩
  rw [← hcandidates]
  rfl

/-- The row of a candidate after a decision. -/
def decided (candidate : DuplicateCandidate) (decision : DuplicateDecision) (loser : Option UUID)
    (other : DuplicateCandidate) : DuplicateCandidate :=
  if other.id = candidate.id then { other with status := decision.status }
  else if other.status = .open ∧
      (some other.leftComponentId = loser ∨ some other.rightComponentId = loser) then
    { other with status := .superseded }
  else other

theorem decidedCandidates_eq (candidates : List DuplicateCandidate) (candidate : DuplicateCandidate)
    (decision : DuplicateDecision) (loser : Option UUID) :
    decidedCandidates candidates candidate decision loser =
      candidates.map (decided candidate decision loser) := rfl

section Decided

variable (candidate : DuplicateCandidate) (decision : DuplicateDecision) (loser : Option UUID)
  (row : DuplicateCandidate)

@[simp] theorem decided_id : (decided candidate decision loser row).id = row.id := by
  unfold decided
  split
  · rfl
  · split <;> rfl

@[simp] theorem decided_pair : pairOf (decided candidate decision loser row) = pairOf row := by
  unfold decided
  split
  · rfl
  · split <;> rfl

@[simp] theorem decided_score : (decided candidate decision loser row).score = row.score := by
  unfold decided
  split
  · rfl
  · split <;> rfl

variable {candidate decision loser row}

/-- Who is not open stays as it is, but for the candidate itself. -/
theorem decided_of_ne (hne : row.id ≠ candidate.id) (hstatus : row.status ≠ .open) :
    decided candidate decision loser row = row := by
  unfold decided
  rw [if_neg hne, if_neg fun h => hstatus h.1]

/-- Who is open afterwards was open, is not the candidate, and is not of the loser. -/
theorem decided_open (h : (decided candidate decision loser row).status = .open) :
    decided candidate decision loser row = row ∧ row.status = .open ∧
      ∀ id ∈ loser, id ≠ row.leftComponentId ∧ id ≠ row.rightComponentId := by
  unfold decided at h ⊢
  split at h
  · cases decision <;> cases h
  · rename_i hne
    split at h
    · cases h
    · rename_i hnot
      rw [if_neg hne, if_neg hnot]
      refine ⟨rfl, h, fun id hid => ?_⟩
      rw [Option.mem_def.mp hid] at hnot
      simp only [h, Option.some.injEq, true_and, not_or] at hnot
      exact ⟨fun heq => hnot.1 heq.symm, fun heq => hnot.2 heq.symm⟩

theorem decision_status_ne (decision : DuplicateDecision) : decision.status ≠ .open := by
  cases decision <;> simp [DuplicateDecision.status]

end Decided

/-! ## The invariant -/

/-- What holds of the review between two steps. -/
structure Inv (s : Review) : Prop where
  cards : (s.db.cards.map Card.id).Nodup
  stored : ∀ row ∈ s.db.candidates, Stored s.db row ∧ 3500 ≤ row.score
  pairs : (s.db.candidates.map pairOf).Nodup
  ids : (s.rows.map DuplicateCandidate.id).Nodup
  workers : (s.generations.map Generation.worker).Nodup
  generations : ∀ g ∈ s.generations, g.Sound s.db
  decisions : (s.decisions.map MergeDecision.candidateId).Nodup
  decided : ∀ d ∈ s.decisions, d.Valid ∧
    ∃ row ∈ s.db.candidates, row.id = d.candidateId ∧ row.status = d.decision.status
  resolved : ∀ row ∈ s.db.candidates, row.status = .merged ∨ row.status = .rejected →
    ∃ d ∈ s.decisions, d.candidateId = row.id

theorem Review.Initial.inv (h : s.Initial) : Inv s where
  cards := h.cards
  stored := by simp [h.candidates]
  pairs := by simp [h.candidates]
  ids := by simp [Review.rows, h.candidates, h.generations]
  workers := by simp [h.generations]
  generations := by simp [h.generations]
  decisions := by simp [h.decisions]
  decided := by simp [h.decisions]
  resolved := by simp [h.candidates]

/-- A card stays. -/
theorem step_isSome {event : Catalog.Event} {id : UUID}
    (h : Catalog.step env.toEnv db event = some db') (hcard : (db.card id).isSome) :
    (db'.card id).isSome := by
  have hkeeps : Keeps (fun _ _ => True) db db' :=
    step_keeps (fun _ => trivial) (fun _ _ _ _ _ => trivial) (fun _ _ _ => trivial) rfl
      (fun _ _ _ _ _ _ => ⟨trivial, trivial⟩) h
  obtain ⟨card, hcard⟩ := Option.isSome_iff_exists.mp hcard
  obtain ⟨card', hcard', -⟩ := hkeeps id card hcard
  rw [hcard']
  rfl

theorem Stored.keeps {row : DuplicateCandidate} (h : Stored db row)
    (hkeeps : ∀ id, (db.card id).isSome → (db'.card id).isSome) : Stored db' row :=
  ⟨h.1, h.2.1, hkeeps _ h.2.2.1, hkeeps _ h.2.2.2⟩

/-- A transaction of the catalog that leaves the candidates. -/
theorem Inv.keeps (hi : Inv s) (hcards : (db.cards.map Card.id).Nodup)
    (hkeeps : ∀ id, (s.db.card id).isSome → (db.card id).isSome)
    (hcandidates : db.candidates = s.db.candidates) : Inv { s with db := db } where
  cards := hcards
  stored row hrow := (hi.stored row (hcandidates ▸ hrow)).imp_left fun h => h.keeps hkeeps
  pairs := hcandidates ▸ hi.pairs
  ids := by
    unfold Review.rows
    rw [hcandidates]
    exact hi.ids
  workers := hi.workers
  generations g hg := (hi.generations g hg).keeps hkeeps
  decisions := hi.decisions
  decided d hd := hcandidates ▸ hi.decided d hd
  resolved row hrow := hi.resolved row (hcandidates ▸ hrow)

/-- Other imports under way, with rows of their own. -/
theorem Inv.imports {generations : List Generation} (hi : Inv s)
    (hworkers : (generations.map Generation.worker).Nodup)
    (hsound : ∀ g ∈ generations, g.Sound s.db)
    (hids : ((s.db.candidates ++ generations.flatMap Generation.rows).map
      DuplicateCandidate.id).Nodup) : Inv { s with generations := generations } where
  cards := hi.cards
  stored := hi.stored
  pairs := hi.pairs
  ids := hids
  workers := hworkers
  generations := hsound
  decisions := hi.decisions
  decided := hi.decided
  resolved := hi.resolved

section Imports

variable {worker : Nat} {g next : Generation}

theorem mem_generation (h : s.generation worker = some g) : g ∈ s.generations := mem_of_lookup h

/-- The rows after an import has changed its own. -/
theorem rows_replace (hworkers : (s.generations.map Generation.worker).Nodup)
    (hg : s.generation worker = some g) (hworker : next.worker = g.worker)
    {new : List DuplicateCandidate} (hrows : next.rows = g.rows ++ new) :
    ((replace Generation.worker s.generations next).flatMap Generation.rows).Perm
      (s.generations.flatMap Generation.rows ++ new) := by
  have hnext : next.worker = worker := hworker.trans (key_of_lookup hg)
  obtain ⟨before, after, hold, hnew⟩ := replace_split hworkers (hnext ▸ hg : lookup Generation.worker s.generations next.worker = some g)
  rw [hnew, hold]
  simp only [List.flatMap_append, List.flatMap_cons, hrows, List.append_assoc]
  refine List.Perm.append_left _ (List.Perm.append_left _ ?_)
  exact List.perm_append_comm

/-- The rows without those of one import. -/
theorem rows_remove (hg : s.generation worker = some g)
    (hworkers : (s.generations.map Generation.worker).Nodup) :
    (s.generations.flatMap Generation.rows).Perm
      (g.rows ++ (remove Generation.worker s.generations worker).flatMap Generation.rows) := by
  obtain ⟨before, after, hsplit⟩ := List.append_of_mem (mem_generation hg)
  have hkey : g.worker = worker := key_of_lookup hg
  rw [hsplit, List.map_append, List.map_cons, List.nodup_middle, List.nodup_cons,
    List.mem_append] at hworkers
  have hkept : ∀ part : List Generation, g.worker ∉ part.map Generation.worker →
      remove Generation.worker part worker = part := by
    intro part hnot
    refine List.filter_eq_self.mpr fun other hother => ?_
    have hne : other.worker ≠ worker := by
      intro heq
      rw [hkey, ← heq] at hnot
      exact hnot (List.mem_map_of_mem hother)
    simpa using hne
  have hremove : remove Generation.worker s.generations worker = before ++ after := by
    rw [← hkept before fun hmem => hworkers.1 (Or.inl hmem),
      ← hkept after fun hmem => hworkers.1 (Or.inr hmem), hsplit]
    simp [remove, hkey]
  rw [hremove, hsplit]
  simp only [List.flatMap_append, List.flatMap_cons]
  rw [← List.append_assoc, ← List.append_assoc]
  exact List.Perm.append_right _ List.perm_append_comm

theorem remove_workers (hworkers : (s.generations.map Generation.worker).Nodup) (worker : Nat) :
    ((remove Generation.worker s.generations worker).map Generation.worker).Nodup :=
  hworkers.sublist (List.Sublist.map _ List.filter_sublist)

/-- An import that changes its own rows, or adds fresh ones. -/
theorem Inv.changes (hi : Inv s) (hg : s.generation worker = some g)
    (hworker : next.worker = g.worker) (hsound : next.Sound s.db)
    {new : List DuplicateCandidate} (hrows : next.rows = g.rows ++ new)
    (hnew : (new.map DuplicateCandidate.id).Nodup)
    (hfresh : ∀ row ∈ new, ∀ other ∈ s.rows, other.id ≠ row.id) :
    Inv { s with generations := replace Generation.worker s.generations next } := by
  refine hi.imports (by rw [map_key_replace]; exact hi.workers) (fun other hother => ?_) ?_
  · rcases mem_replace hother with rfl | hother
    · exact hsound
    · exact hi.generations other hother
  · have hperm := ((rows_replace hi.workers hg hworker hrows).append_left s.db.candidates).map
      DuplicateCandidate.id
    rw [hperm.nodup_iff, ← List.append_assoc, List.map_append]
    refine List.Nodup.append hi.ids hnew fun id hid hid' => ?_
    obtain ⟨other, hother, rfl⟩ := List.mem_map.mp hid
    obtain ⟨row, hrow, hsame⟩ := List.mem_map.mp hid'
    exact hfresh row hrow other hother hsame.symm

end Imports

/-! ## The steps -/

theorem catalogStep_eq_some {event : Catalog.Event} (h : catalogStep env s event = some s') :
    event.pairs = false ∧ ∃ db, Catalog.step env.toEnv s.db event = some db ∧
      s' = { s with db := db } := by
  have hstep : ∀ {x : Option Review}, x = (Catalog.step env.toEnv s.db event).bind (fun db =>
      if imports event ∧ (event.newId.bind db.card).isSome then none else some { s with db := db }) →
      x = some s' → ∃ db, Catalog.step env.toEnv s.db event = some db ∧ s' = { s with db := db } := by
    intro x hx hsome
    obtain ⟨db, hdb, hsome⟩ := Option.bind_eq_some_iff.mp (hx.symm.trans hsome)
    split at hsome
    · cases hsome
    · cases hsome
      exact ⟨db, hdb, rfl⟩
  cases event with
  | decide => cases h
  | propose => cases h
  | _ => exact ⟨rfl, hstep rfl h⟩

theorem beginStep_eq_some {worker : Nat} {event : Catalog.Event}
    (h : beginStep env s worker event = some s') :
    imports event = true ∧ s.generation worker = none ∧ ∃ view card,
      Views env { worker := worker, event := event } s.db view card ∧
        s' = { s with generations := s.generations ++
          [{ worker := worker, event := event, pending := preselect env view card }] } := by
  unfold beginStep at h
  split at h
  · rename_i hguard
    obtain ⟨⟨view, card⟩, hview, h⟩ := Option.bind_eq_some_iff.mp h
    cases h
    exact ⟨hguard.1, hguard.2, view, card, view_eq_some hguard.1 hview, rfl⟩
  · cases h

theorem compareStep_eq_some {worker : Nat} {rowId : UUID} (hi : Inv s)
    (h : compareStep env s worker rowId = some s') :
    ∃ g next otherId trigram rest view card, s.generation worker = some g ∧
      g.pending = (otherId, trigram) :: rest ∧ Views env g s.db view card ∧ g.added = [] ∧
      (∀ row ∈ s.rows, row.id ≠ rowId) ∧
      s' = { s with generations := replace Generation.worker s.generations next } ∧
      (next = { g with pending := rest } ∨ ∃ score, 3500 ≤ score ∧ score ≤ 10000 ∧
        next = { g with
          pending := rest
          added := g.added ++ [⟨rowId, (orderedPair card.id otherId).1,
            (orderedPair card.id otherId).2, .open, score⟩] }) := by
  obtain ⟨g, hg, h⟩ := Option.bind_eq_some_iff.mp h
  have hsound := hi.generations g (mem_generation hg)
  split at h
  · cases h
  · rename_i otherId trigram rest hpending
    obtain ⟨⟨view, card⟩, hview, h⟩ := Option.bind_eq_some_iff.mp h
    obtain ⟨next, hnext, h⟩ := Option.bind_eq_some_iff.mp h
    split at h
    · rename_i hguard
      cases h
      have hviews := view_eq_some hsound.imports hview
      exact ⟨g, next, otherId, trigram, rest, view, card, hg, hpending, hviews, hguard.1, hguard.2,
        rfl, compare_proposes hsound hviews hpending (fun row hrow => (hi.stored row hrow).1)
          (toOption_eq_some.mp hnext)⟩
    · cases h

theorem commitStep_eq_some {worker : Nat} (hi : Inv s) (h : commitStep env s worker = some s') :
    ∃ g view card, s.generation worker = some g ∧ Views env g s.db view card ∧ g.added = [] ∧
      s' = { s with db := view, generations := remove Generation.worker s.generations worker } := by
  obtain ⟨g, hg, h⟩ := Option.bind_eq_some_iff.mp h
  obtain ⟨⟨view, card⟩, hview, h⟩ := Option.bind_eq_some_iff.mp h
  simp only at h
  split at h
  · rename_i hguard
    cases h
    exact ⟨g, view, card, hg, view_eq_some (hi.generations g (mem_generation hg)).imports hview,
      hguard.2, rfl⟩
  · cases h

theorem decideStep_eq_some {row : MergeDecision} {left right : Nat}
    (h : decideStep env s row left right = some s') :
    ∃ candidate db, lookup DuplicateCandidate.id s.db.candidates row.candidateId = some candidate ∧
      (∀ g ∈ s.generations, ∀ held ∈ g.inserted,
        held.leftComponentId ∉ [candidate.leftComponentId, candidate.rightComponentId] ∧
          held.rightComponentId ∉ [candidate.leftComponentId, candidate.rightComponentId]) ∧
      Catalog.step env.toEnv s.db (.decide row.candidateId row.decision left right
        row.survivorComponentId row.fieldResolution row.decidedBy row.decidedAt) = some db ∧
      s' = { s with db := db, decisions := s.decisions ++ [row] } := by
  obtain ⟨candidate, hcandidate, h⟩ := Option.bind_eq_some_iff.mp h
  simp only at h
  split at h
  · rename_i hfree
    obtain ⟨db, hdb, h⟩ := Option.bind_eq_some_iff.mp h
    cases h
    exact ⟨candidate, db, hcandidate, hfree, hdb, rfl⟩
  · cases h

/-- The rows of an import join those that are stored. -/
theorem Inv.commits {worker : Nat} {g : Generation} {view : Db} {card : Card} (hi : Inv s)
    (hg : s.generation worker = some g) (hviews : Views env g s.db view card)
    (hadded : g.added = []) :
    Inv { s with
      db := view, generations := remove Generation.worker s.generations worker } := by
  have hsound := hi.generations g (mem_generation hg)
  have hrows : g.rows = g.inserted := by rw [Generation.rows, hadded, List.append_nil]
  have hcandidates : view.candidates = s.db.candidates ++ g.rows := by
    rw [hviews.candidates, hsound.rescored, hrows]
    rfl
  obtain ⟨db₁, hstep, hview⟩ := hviews.made
  have hkeeps : ∀ id, (s.db.card id).isSome → (view.card id).isSome := by
    intro id hid
    rw [hview]
    have hsome : (db₁.card id).isSome := step_isSome hstep hid
    exact hsome
  have hproposes := hsound.rows card.id hviews.newId
  refine ⟨?_, ?_, ?_, ?_, remove_workers hi.workers worker, ?_, hi.decisions, ?_, ?_⟩
  · rw [hview]
    have hnodup : (db₁.cards.map Card.id).Nodup := step_ids_nodup hi.cards hstep
    exact hnodup
  · intro row hrow
    rw [hcandidates] at hrow
    rcases List.mem_append.mp hrow with hrow | hrow
    · exact (hi.stored row hrow).imp_left fun h => h.keeps hkeeps
    · obtain ⟨⟨otherId, hne, hsome, -, hpair⟩, -, hscore⟩ := hproposes row hrow
      have hboth : ∀ id, id = (pairOf row).1 ∨ id = (pairOf row).2 → (view.card id).isSome := by
        intro id hid
        rw [hpair] at hid
        rcases (mem_orderedPair card.id otherId id).mp hid with rfl | rfl
        · rw [hviews.found]
          rfl
        · exact hkeeps _ hsome
      refine ⟨⟨?_, hscore.2, hboth _ (Or.inl rfl), hboth _ (Or.inr rfl)⟩, hscore.1⟩
      have hlt := orderedPair_lt hne
      rw [← hpair] at hlt
      exact hlt
  · rw [hcandidates, List.map_append]
    refine List.Nodup.append hi.pairs hsound.pairs fun pair hold hnew => ?_
    obtain ⟨old, hmem, rfl⟩ := List.mem_map.mp hold
    obtain ⟨row, hrow, hsame⟩ := List.mem_map.mp hnew
    -- the card of the import is in every new pair, and in no pair that was stored before
    obtain ⟨⟨otherId, -, -, -, hpair⟩, -, -⟩ := hproposes row hrow
    obtain ⟨-, -, hleft, hright⟩ := (hi.stored old hmem).1
    rcases (mem_orderedPair card.id otherId card.id).mpr (Or.inl rfl) with h | h
    · rw [← hpair, hsame] at h
      rw [show old.leftComponentId = card.id from h.symm, hviews.fresh] at hleft
      cases hleft
    · rw [← hpair, hsame] at h
      rw [show old.rightComponentId = card.id from h.symm, hviews.fresh] at hright
      cases hright
  · have hperm := ((rows_remove hg hi.workers).append_left s.db.candidates).map
      DuplicateCandidate.id
    rw [Review.rows, hcandidates, List.append_assoc, ← hperm.nodup_iff]
    exact hi.ids
  · intro other hother
    exact (hi.generations other (List.mem_filter.mp hother).1).keeps hkeeps
  · intro d hd
    obtain ⟨hvalid, row, hrow, hid, hstatus⟩ := hi.decided d hd
    exact ⟨hvalid, row, by rw [hcandidates]; exact List.mem_append_left _ hrow, hid, hstatus⟩
  · intro row hrow hresolved
    rw [hcandidates] at hrow
    rcases List.mem_append.mp hrow with hrow | hrow
    · exact hi.resolved row hrow hresolved
    · rw [(hproposes row hrow).status] at hresolved
      simp at hresolved

/-- A decision is the only one about its candidate. -/
theorem Inv.decides {row : MergeDecision} {left right : Nat} (hi : Inv s)
    (h : Catalog.step env.toEnv s.db (.decide row.candidateId row.decision left right
      row.survivorComponentId row.fieldResolution row.decidedBy row.decidedAt) = some db) :
    Inv { s with db := db, decisions := s.decisions ++ [row] } := by
  obtain ⟨candidate, hcandidate, hopen, hvalid, -, hcandidates⟩ := decide_spec h
  rw [decidedCandidates_eq] at hcandidates
  have hid : candidate.id = row.candidateId := key_of_lookup hcandidate
  have hids : (s.db.candidates.map DuplicateCandidate.id).Nodup := by
    have hall := hi.ids
    rw [Review.rows, List.map_append] at hall
    exact hall.of_append_left
  have hkeeps : ∀ id, (s.db.card id).isSome → (db.card id).isSome := fun _ => step_isSome h
  have hother : ∀ d ∈ s.decisions, d.candidateId ≠ row.candidateId := by
    intro d hd hsame
    obtain ⟨-, known, hknown, hknownId, hstatus⟩ := hi.decided d hd
    have hcandidate' : known = candidate :=
      List.inj_on_of_nodup_map hids hknown (mem_of_lookup hcandidate)
        (hknownId.trans (hsame.trans hid.symm))
    rw [← hcandidate', hstatus] at hopen
    exact decision_status_ne _ hopen
  refine ⟨step_ids_nodup hi.cards h, ?_, ?_, ?_, hi.workers, ?_, ?_, ?_, ?_⟩
  · intro new hnew
    rw [hcandidates] at hnew
    obtain ⟨old, hold, rfl⟩ := List.mem_map.mp hnew
    obtain ⟨hstored, hscore⟩ := hi.stored old hold
    have hpair := decided_pair candidate row.decision (loserOf candidate row.survivorComponentId) old
    obtain ⟨hleft, hright⟩ := Prod.mk.inj hpair
    refine ⟨?_, by rw [decided_score]; exact hscore⟩
    unfold Stored
    rw [hleft, hright, decided_score]
    exact hstored.keeps hkeeps
  · rw [hcandidates, List.map_map]
    refine Eq.mpr (congrArg _ (List.map_congr_left fun old _ => ?_)) hi.pairs
    exact decided_pair ..
  · unfold Review.rows
    rw [hcandidates, List.map_append, List.map_map]
    have hsame : s.db.candidates.map (DuplicateCandidate.id ∘ Deduplication.decided candidate
        row.decision (loserOf candidate row.survivorComponentId)) =
        s.db.candidates.map DuplicateCandidate.id :=
      List.map_congr_left fun old _ => decided_id ..
    rw [hsame, ← List.map_append]
    exact hi.ids
  · exact fun g hg => (hi.generations g hg).keeps hkeeps
  · rw [List.map_append]
    refine List.Nodup.append hi.decisions (List.nodup_singleton _) fun id hold hnew => ?_
    obtain ⟨d, hd, rfl⟩ := List.mem_map.mp hold
    exact hother d hd (List.mem_singleton.mp hnew)
  · intro d hd
    rw [hcandidates]
    rcases List.mem_append.mp hd with hd | hd
    · obtain ⟨hvalid, known, hknown, hknownId, hstatus⟩ := hi.decided d hd
      refine ⟨hvalid, known, List.mem_map.mpr ⟨known, hknown, ?_⟩, hknownId, hstatus⟩
      refine decided_of_ne ?_ (by rw [hstatus]; exact decision_status_ne _)
      rw [hknownId, hid]
      exact hother d hd
    · obtain rfl := List.mem_singleton.mp hd
      refine ⟨hvalid, _, List.mem_map_of_mem (mem_of_lookup hcandidate), ?_, ?_⟩
      · rw [decided_id, hid]
      · rw [Deduplication.decided, if_pos rfl]
  · intro new hnew hresolved
    rw [hcandidates] at hnew
    obtain ⟨old, hold, rfl⟩ := List.mem_map.mp hnew
    rw [decided_id]
    by_cases hsame : old.id = candidate.id
    · exact ⟨row, List.mem_append_right _ (List.mem_singleton_self row), hid.symm.trans hsame.symm⟩
    · unfold Deduplication.decided at hresolved
      rw [if_neg hsame] at hresolved
      split at hresolved
      · simp at hresolved
      · obtain ⟨d, hd, hdid⟩ := hi.resolved old hold hresolved
        exact ⟨d, List.mem_append_left _ hd, hdid⟩

/-- **Every step keeps the invariant.** -/
theorem step_inv {event : Event} (hi : Inv s) (h : step env s event = some s') : Inv s' := by
  cases event with
  | catalog event =>
    obtain ⟨hpairs, db, hstep, rfl⟩ := catalogStep_eq_some h
    exact hi.keeps (step_ids_nodup hi.cards hstep) (fun _ => step_isSome hstep)
      (step_candidates hpairs hstep)
  | begin worker event =>
    obtain ⟨himports, hfree, view, card, hviews, rfl⟩ := beginStep_eq_some h
    refine hi.imports ?_ ?_ ?_
    · rw [List.map_append]
      refine List.Nodup.append hi.workers (List.nodup_singleton _) fun other hother hnew => ?_
      obtain ⟨g, hg, rfl⟩ := List.mem_map.mp hother
      exact lookup_eq_none.mp hfree g hg (List.mem_singleton.mp hnew)
    · intro g hg
      rcases List.mem_append.mp hg with hg | hg
      · exact hi.generations g hg
      · rw [List.mem_singleton.mp hg]
        exact begin_sound himports hi.cards hviews
    · rw [List.flatMap_append]
      simpa [Generation.rows, Review.rows] using hi.ids
  | compare worker rowId =>
    obtain ⟨g, next, otherId, trigram, rest, view, card, hg, hpending, hviews, hadded, hfresh, rfl,
      hnext⟩ := compareStep_eq_some hi h
    have hsound := hi.generations g (mem_generation hg)
    rcases hnext with rfl | ⟨score, hlow, hhigh, rfl⟩
    · exact hi.changes hg rfl (hsound.passed hpending) (List.append_nil _).symm List.nodup_nil
        (by simp)
    · refine hi.changes hg rfl (hsound.added hpending hviews.newId ⟨hlow, hhigh⟩)
        (List.append_assoc ..).symm (List.nodup_singleton _) ?_
      intro row hrow
      rw [List.mem_singleton.mp hrow]
      exact hfresh
  | flush worker =>
    obtain ⟨g, hg, h⟩ := Option.bind_eq_some_iff.mp h
    cases h
    have hsame : g.inserted ++ g.added ++ [] = g.rows ++ [] := rfl
    exact hi.changes hg rfl (hi.generations g (mem_generation hg)).flushed hsame
      (by simp) (by simp)
  | commit worker =>
    obtain ⟨g, view, card, hg, hviews, hadded, rfl⟩ := commitStep_eq_some hi h
    exact hi.commits hg hviews hadded
  | rollback worker =>
    cases h
    refine hi.imports (remove_workers hi.workers worker)
      (fun g hg => hi.generations g (List.mem_filter.mp hg).1) ?_
    refine hi.ids.sublist (List.Sublist.map _ (List.Sublist.append_left ?_ _))
    exact List.filter_sublist.flatMap _
  | decide candidateId decision left right survivorId fieldSources actor now reason =>
    obtain ⟨candidate, db, -, -, hstep, rfl⟩ := decideStep_eq_some h
    exact hi.decides hstep

theorem run_step_inv {es : List Event} (hs : s.Initial) (h : run (step env) s es = some s') :
    Inv s' :=
  run_inv (fun _ _ _ hi _ hstep => step_inv hi hstep) hs.inv (along_true s es) h

/-- **A pair is proposed once, and decided once.** In every state reached, no two candidates are of
one pair, whatever their status; no constraint of the two tables is violated; and the decisions are
those of the candidates that were merged or rejected, one for each. -/
theorem proposed_once (hs : s.Initial) {es : List Event} (h : run (step env) s es = some s') :
    (s'.db.candidates.map pairOf).Nodup ∧
      (∀ row ∈ s'.db.candidates, Stored s'.db row ∧ 3500 ≤ row.score) ∧
      OpenOnce s'.db.candidates ∧
      (s'.decisions.map MergeDecision.candidateId).Nodup ∧
      (∀ d ∈ s'.decisions, d.Valid ∧
        ∃ row ∈ s'.db.candidates, row.id = d.candidateId ∧ row.status = d.decision.status) ∧
      ∀ row ∈ s'.db.candidates, row.status = .merged ∨ row.status = .rejected →
        ∃ d ∈ s'.decisions, d.candidateId = row.id := by
  have hi := run_step_inv hs h
  exact ⟨hi.pairs, hi.stored, hi.pairs.sublist (List.Sublist.map _ List.filter_sublist),
    hi.decisions, hi.decided, hi.resolved⟩

/-! ## What is decided stays -/

def Review.candidate (s : Review) (id : UUID) : Option DuplicateCandidate :=
  lookup DuplicateCandidate.id s.db.candidates id

/-- The candidate was decided, or superseded. -/
def Closed (id : UUID) (s : Review) : Prop := ∃ row, s.candidate id = some row ∧ row.status ≠ .open

/-- The row of a candidate and the decisions are left as they are, but for more decisions. -/
def Leaves (id : UUID) (a b : Review) : Prop :=
  b.candidate id = a.candidate id ∧ a.decisions <+: b.decisions

theorem step_leaves {event : Event} {id : UUID} (hi : Inv s) (hclosed : Closed id s)
    (h : step env s event = some s') : Leaves id s s' := by
  obtain ⟨row, hrow, hstatus⟩ := hclosed
  cases event with
  | catalog event =>
    obtain ⟨hpairs, db, hstep, rfl⟩ := catalogStep_eq_some h
    exact ⟨congrArg (lookup _ · id) (step_candidates hpairs hstep), List.prefix_refl _⟩
  | begin worker event =>
    obtain ⟨-, -, _, _, -, rfl⟩ := beginStep_eq_some h
    exact ⟨rfl, List.prefix_refl _⟩
  | compare worker rowId =>
    obtain ⟨_, _, _, _, _, _, _, -, -, -, -, -, rfl, -⟩ := compareStep_eq_some hi h
    exact ⟨rfl, List.prefix_refl _⟩
  | flush worker =>
    obtain ⟨g, -, h⟩ := Option.bind_eq_some_iff.mp h
    cases h
    exact ⟨rfl, List.prefix_refl _⟩
  | commit worker =>
    obtain ⟨g, view, card, hg, hviews, -, rfl⟩ := commitStep_eq_some hi h
    refine ⟨?_, List.prefix_refl _⟩
    have hrescored := (hi.generations g (mem_generation hg)).rescored
    change lookup _ view.candidates id = _
    rw [hviews.candidates, hrescored]
    unfold lookup rescore
    rw [List.foldl_nil, List.find?_append, show s.db.candidates.find? _ = some row from hrow]
    exact hrow.symm
  | rollback worker =>
    cases h
    exact ⟨rfl, List.prefix_refl _⟩
  | decide candidateId decision left right survivorId fieldSources actor now reason =>
    obtain ⟨candidate, db, -, -, hstep, rfl⟩ := decideStep_eq_some h
    obtain ⟨candidate, hcandidate, hopen, -, -, hcandidates⟩ := decide_spec hstep
    refine ⟨?_, List.prefix_append _ _⟩
    change lookup _ db.candidates id = _
    rw [hcandidates, decidedCandidates_eq]
    refine (lookup_map fun other => decided_id ..).trans ?_
    rw [show lookup DuplicateCandidate.id s.db.candidates id = some row from hrow, Option.map_some,
      decided_of_ne ?_ hstatus, hrow]
    intro hsame
    rw [key_of_lookup hcandidate] at hsame
    have hid : row.id = id := key_of_lookup hrow
    rw [← hsame, hid, show lookup _ _ id = some row from hrow] at hcandidate
    obtain rfl := Option.some.inj hcandidate
    exact hstatus hopen

/-- **What was decided is never opened again.** From the state on in which a candidate is decided or
superseded, its row stays as it is, score and status, and every decision stays. -/
theorem decided_stays (hs : s.Initial) (id : UUID) (es : List Event) :
    Stays (step env) (Closed id) (Leaves id) s es := by
  refine (stays_iff_along (fun a => ⟨rfl, List.prefix_refl _⟩) ?_ ?_).mpr ?_
  · rintro a b c ⟨hab, hab'⟩ ⟨hbc, hbc'⟩
    exact ⟨hbc.trans hab, hab'.trans hbc'⟩
  · rintro a b ⟨row, hrow, hstatus⟩ ⟨hsame, -⟩
    exact ⟨row, hsame.trans hrow, hstatus⟩
  · exact along_of_inv (fun _ _ _ hi _ hstep => step_inv hi hstep)
      (fun _ _ _ hi _ hstep hclosed => step_leaves hi hclosed hstep) hs.inv (along_true s es)

end ComponentKb.Deduplication
