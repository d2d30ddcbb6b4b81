import ComponentKb.Catalog.Tokens
import ComponentKb.Catalog.Sharing

/-!
# Decisions on duplicates

A reviewer decides on two cards by their revisions. Every change that the history records gives a
card a new revision; an autosave gives it none, and a change of a shared definition is no change of
the card at all.

`DuplicateReviewService.decide` compares the revisions of rows that it selects for update; those it
read before, to show them, are given up by then.

* `unchanged_between`: between two states in which a card has the same revision, its content is
  changed by autosaves and by respelling only.
* `decided_as_shown`: a decision that is accepted finds both cards as the reviewer was shown them,
  unless one of the two changed them.
* `decided_after_autosave`: decisions that are accepted after an autosave.
-/

namespace ComponentKb.Catalog

open ComponentKb.Lib

/-- The content of a card that a reviewer is shown: its data and its media. -/
def contentAt (u : Unicode) (db : Db) (id : UUID) : Option (DraftData × List Placement) :=
  (db.card id).map fun card => (readData u db card, card.assets.map MediaAsset.placement)

/-- No autosave changes one of the cards, and nothing respells it. -/
def Noticed (u : Unicode) (ids : List UUID) (db : Db) (event : Event) (db' : Db) : Prop :=
  ∀ id ∈ ids, (event.saves id → contentAt u db' id = contentAt u db id) ∧
    ∀ card ∈ db.card id, ¬ event.respells u db card

instance (u : Unicode) (ids : List UUID) (db : Db) (event : Event) (db' : Db) :
    Decidable (Noticed u ids db event db') :=
  inferInstanceAs (Decidable (∀ id ∈ ids, _))

/-! ## What a revision says -/

section Recorded

variable {u : Unicode} {env : Env} {event : Event} {db db' : Db} {id : UUID} {data : DraftData}

/-- A legacy item that is merged into a card is recorded twice. -/
theorem applyItem_recorded {identity : String} {component revision token : Nat}
    {images : List LegacyImage} {newId owner actor : UUID} {now later : Time}
    (h : applyItem u db identity (.merge component revision token) data images newId owner actor now
      later = .ok db') {card : Card} (hcard : db.card component = some card) :
    ∃ card', db'.card component = some card' ∧ card.row.revision < card'.row.revision := by
  obtain ⟨-, h⟩ := seq_eq_ok.mp h
  obtain ⟨⟨db₁, componentId⟩, htarget, h⟩ := bind_eq_ok.mp h
  obtain ⟨db₂, hlink, h⟩ := bind_eq_ok.mp h
  obtain ⟨_, -, htouch⟩ := bind_eq_ok.mp h
  obtain ⟨_, -, htarget⟩ := bind_eq_ok.mp htarget
  obtain ⟨-, htarget⟩ := seq_eq_ok.mp htarget
  obtain ⟨_, hupdate, htarget⟩ := bind_eq_ok.mp htarget
  cases htarget
  obtain ⟨old, card₁, hold, hedit₁, -, hrevision₁⟩ := update_edits hupdate
  obtain rfl := Option.some.inj (hcard.symm.trans hold)
  obtain rfl := Db.id_of_card hcard
  obtain ⟨linked, hlinked, hlink⟩ := bind_eq_ok.mp hlink
  obtain ⟨-, hlink⟩ := seq_eq_ok.mp hlink
  cases hlink
  obtain rfl := Option.some.inj (hedit₁.card.symm.trans (locked_eq_ok.mp hlinked))
  obtain ⟨next, card₂, hnext, hedit₂, hrevision₂⟩ := touchMediaAttachment_edits htouch
  have hid : card₁.id = card.id := Db.id_of_card hedit₁.card
  rw [← hid] at hnext
  have hfound : db₁.card card₁.id = some card₁ := by
    rw [hid]
    exact hedit₁.card
  obtain rfl := Option.some.inj
    (hnext.symm.trans (Db.put_card_self { card₁ with assets := _, legacy := _ } hfound))
  refine ⟨card₂, ?_, ?_⟩
  · rw [← hid]
    exact hedit₂.card
  · have hlast : card₂.row.revision = card₁.row.revision + 1 := hrevision₂
    have hfirst := hrevision₁ rfl
    omega

theorem decide_stores {candidateId : UUID} {decision : DuplicateDecision} {left right : Nat}
    {survivorId : Option UUID} {fieldSources : List (String × UUID)} {actor : UUID} {now : Time}
    (h : Event.stores u db (.decide candidateId decision left right survivorId fieldSources actor
      now) = some (id, data)) :
    ∃ loser, Event.merge (.decide candidateId decision left right survivorId fieldSources actor now)
      db = some (id, loser) := by
  cases decision with
  | merge =>
    obtain ⟨ids, hmerge, h⟩ := Option.bind_eq_some_iff.mp h
    obtain ⟨_, -, h⟩ := Option.bind_eq_some_iff.mp h
    obtain ⟨_, -, h⟩ := Option.bind_eq_some_iff.mp h
    cases h
    exact ⟨ids.2, hmerge⟩
  | attach | create | reject => cases h

/-- Storing a draft in a card that is there is recorded in its history, unless it is an autosave. -/
theorem step_stores_recorded (h : step env db event = some db')
    (hstores : event.stores env.unicode db = some (id, data)) {card : Card}
    (hcard : db.card id = some card) :
    event.saves id ∨ ∃ card', db'.card id = some card' ∧ card.row.revision < card'.row.revision := by
  have hnew : ∀ new, event.newId = some new → new ≠ id := by
    rintro new hid rfl
    have hfresh := (step_eq_some h).1
    rw [hid] at hfresh
    exact hfresh (Or.inl (Option.isSome_of_eq_some hcard))
  have hstep := h
  obtain ⟨-, h⟩ := step_eq_some h
  cases event with
  | createComponent new data images primary actor now =>
    cases hstores
    exact absurd rfl (hnew _ rfl)
  | createDocument requestId new data actor now =>
    rw [Event.stores] at hstores
    split at hstores
    · cases hstores
    · cases hstores
      exact absurd rfl (hnew _ rfl)
  | updateComponent component revision token data actor now =>
    cases hstores
    obtain ⟨-, h⟩ := seq_eq_ok.mp (toOption_eq_some.mp h)
    obtain ⟨old, card', hold, hedit, -, hrevision⟩ := update_edits h
    obtain rfl := Option.some.inj (hcard.symm.trans hold)
    obtain rfl := Db.id_of_card hcard
    refine Or.inr ⟨card', hedit.card, ?_⟩
    rw [hrevision rfl]
    exact Nat.lt_succ_self _
  | synchronize component token data images primary actor now later =>
    cases hstores
    exact Or.inl rfl
  | decide candidateId decision left right survivorId fieldSources actor now =>
    obtain ⟨loserId, hmerge⟩ := decide_stores hstores
    obtain ⟨survivor, next, loser, merged, gone, hmerged⟩ := step_merges hstep hmerge
    obtain ⟨rfl, -⟩ := Prod.mk.inj (Option.some.inj (hmerge.symm.trans hmerged.event))
    obtain rfl := Option.some.inj (hcard.symm.trans hmerged.found)
    refine Or.inr ⟨merged, hmerged.card.1, ?_⟩
    rw [hmerged.survivor_revision]
    exact Nat.lt_succ_self _
  | persistDraft sourceId keys draft new rowId actor now =>
    rw [Event.stores] at hstores
    split at hstores
    · cases hstores
    · cases hstores
      exact absurd rfl (hnew _ rfl)
  | persistRepositoryDraft sourceId parsed draft new rowId actor now =>
    rw [Event.stores] at hstores
    split at hstores
    · cases hstores
    · cases hstores
      exact absurd rfl (hnew _ rfl)
  | applyItem identity decision data images new owner actor now later =>
    cases decision with
    | create =>
      cases hstores
      exact absurd rfl (hnew _ rfl)
    | merge component revision token =>
      cases hstores
      exact Or.inr (applyItem_recorded (toOption_eq_some.mp h) hcard)
  | _ => cases hstores

/-- What a step does to the content of a card whose revision stays. -/
theorem step_content (hi : Indexed db) (h : step env db event = some db') {ids : List UUID}
    (hid : id ∈ ids) (hnoticed : Noticed env.unicode ids db event db') {card card' : Card}
    (hcard : db.card id = some card) (hcard' : db'.card id = some card')
    (hsame : card'.row.revision = card.row.revision) :
    contentAt env.unicode db' id = contentAt env.unicode db id := by
  obtain ⟨hsaved, hrespells⟩ := hnoticed id hid
  by_cases hsaves : event.saves id
  · exact hsaved hsaves
  obtain ⟨card₁, hcard₁, hadvances⟩ := step_progress h id card hcard
  obtain rfl := Option.some.inj (hcard'.symm.trans hcard₁)
  have hdraft : card'.draft = card.draft := (hadvances.recorded hsame).resolve_left hsaves
  have hother : ∀ s ∈ event.stores env.unicode db, s.1 ≠ id := by
    rintro ⟨_, data⟩ hstores rfl
    rcases step_stores_recorded h hstores hcard with hno | ⟨card₂, hcard₂, hlt⟩
    · exact hsaves hno
    · obtain rfl := Option.some.inj (hcard'.symm.trans hcard₂)
      omega
  obtain ⟨card₂, hcard₂, -, hiff⟩ := step_reads_iff hi h hcard hother
  obtain rfl := Option.some.inj (hcard'.symm.trans hcard₂)
  have hdata := hiff.mpr (hrespells card hcard)
  have hmedia : card'.assets.map MediaAsset.placement = card.assets.map MediaAsset.placement :=
    congrArg Draft.media hdraft
  rw [contentAt, contentAt, hcard, hcard', Option.map_some, Option.map_some, hdata, hmedia]

end Recorded

/-! ## Decisions -/

section Decisions

variable {u : Unicode} {env : Env} {start shown db db' : Db} {past between : List Event}
  {candidateId actor : UUID} {decision : DuplicateDecision} {left right : Nat}
  {survivorId : Option UUID} {fieldSources : List (String × UUID)} {now : Time}

/-- Between two states in which a card has the same revision, its content is changed by autosaves
and by respelling only. -/
theorem unchanged_between {ids : List UUID} {id : UUID} (hid : id ∈ ids) (hi : Indexed shown)
    (hnoticed : Along (step env) (Noticed env.unicode ids) shown between)
    (hbetween : run (step env) shown between = some db) {seen card : Card}
    (hseen : shown.card id = some seen) (hcard : db.card id = some card)
    (hsame : card.row.revision = seen.row.revision) :
    contentAt env.unicode db id = contentAt env.unicode shown id := by
  induction between generalizing shown seen with
  | nil =>
    cases hbetween
    rfl
  | cons event rest ih =>
    obtain ⟨mid, hstep, hrest⟩ := run_cons_eq_some.mp hbetween
    obtain ⟨hfirst, hlater⟩ := (along_cons hstep).mp hnoticed
    obtain ⟨card₁, hcard₁, hadvances⟩ := step_progress hstep id seen hseen
    obtain ⟨card₂, hcard₂, hadvances'⟩ := run_progress hrest id card₁ hcard₁
    obtain rfl := Option.some.inj (hcard.symm.trans hcard₂)
    -- the revision only grows, so it stays at every step
    have hbefore := hadvances.revisions
    have hafter := hadvances'.revisions
    have hmid : card₁.row.revision = seen.row.revision := by omega
    rw [ih (step_indexed hi hstep) hlater hrest hcard₁ (by omega)]
    exact step_content hi hstep hid hfirst hseen hcard₁ hmid

/-- An accepted decision finds the revisions it names. -/
theorem decideDuplicate_revisions {candidate : DuplicateCandidate}
    (hcandidate : lookup DuplicateCandidate.id db.candidates candidateId = some candidate)
    (h : decideDuplicate u db candidateId decision left right survivorId fieldSources actor now =
      .ok db') :
    (∃ card, db.card candidate.leftComponentId = some card ∧ card.row.revision = left) ∧
      ∃ card, db.card candidate.rightComponentId = some card ∧ card.row.revision = right := by
  obtain ⟨candidate', hcandidate', h⟩ := bind_eq_ok.mp h
  obtain rfl := Option.some.inj (hcandidate.symm.trans (fromSome_eq_ok.mp hcandidate'))
  obtain ⟨-, h⟩ := seq_eq_ok.mp h
  obtain ⟨-, h⟩ := seq_eq_ok.mp h
  obtain ⟨-, h⟩ := seq_eq_ok.mp h
  obtain ⟨db₁, hresolve, -⟩ := bind_eq_ok.mp h
  replace hresolve := mapError_eq_ok.mp hresolve
  cases survivorId with
  | none =>
    obtain ⟨card, hcard, hresolve⟩ := bind_eq_ok.mp hresolve
    obtain ⟨card', hcard', hresolve⟩ := bind_eq_ok.mp hresolve
    obtain ⟨hrevisions, -⟩ := seq_eq_ok.mp hresolve
    obtain ⟨hleft, hright⟩ := require_eq_ok.mp hrevisions
    exact ⟨⟨card, locked_eq_ok.mp hcard, hleft⟩, card', locked_eq_ok.mp hcard', hright⟩
  | some survivor =>
    obtain ⟨card, hcard, hresolve⟩ := bind_eq_ok.mp hresolve
    obtain ⟨card', hcard', hresolve⟩ := bind_eq_ok.mp hresolve
    obtain ⟨-, hresolve⟩ := seq_eq_ok.mp hresolve
    obtain ⟨hrevisions, -⟩ := seq_eq_ok.mp hresolve
    obtain ⟨hleft, hright⟩ := require_eq_ok.mp hrevisions
    exact ⟨⟨card, locked_eq_ok.mp hcard, hleft⟩, card', locked_eq_ok.mp hcard', hright⟩

/-- The card is there with the revision. -/
def HasRevision (db : Db) (id : UUID) (revision : Nat) : Prop :=
  ∃ card ∈ db.card id, card.row.revision = revision

instance (db : Db) (id : UUID) (revision : Nat) : Decidable (HasRevision db id revision) :=
  inferInstanceAs (Decidable (∃ card ∈ _, _))

/-- **What the reviewer saw.** A decision that is accepted, in a catalog that began without cards,
finds both cards with the content that the reviewer was shown with the revisions it names, if
between the two no autosave changed one of them and none was respelled. -/
theorem decided_as_shown {candidate : DuplicateCandidate} (hempty : start.cards = [])
    (hpast : run (step env) start past = some shown)
    (hbetween : run (step env) shown between = some db)
    (hstep : step env db (.decide candidateId decision left right survivorId fieldSources actor now) =
      some db')
    (hcandidate : lookup DuplicateCandidate.id db.candidates candidateId = some candidate)
    (hleft : HasRevision shown candidate.leftComponentId left)
    (hright : HasRevision shown candidate.rightComponentId right)
    (hnoticed : Along (step env)
      (Noticed env.unicode [candidate.leftComponentId, candidate.rightComponentId]) shown between) :
    contentAt env.unicode db candidate.leftComponentId =
        contentAt env.unicode shown candidate.leftComponentId ∧
      contentAt env.unicode db candidate.rightComponentId =
        contentAt env.unicode shown candidate.rightComponentId := by
  have hi : Indexed shown :=
    run_inv (fun _ _ _ hi _ h => step_indexed hi h) (Indexed.of_no_cards hempty)
      (along_true start past) hpast
  obtain ⟨⟨card, hcard, hrevision⟩, card', hcard', hrevision'⟩ :=
    decideDuplicate_revisions hcandidate (toOption_eq_some.mp (step_eq_some hstep).2)
  obtain ⟨seen, hseen, hsame⟩ := hleft
  obtain ⟨seen', hseen', hsame'⟩ := hright
  constructor
  · exact unchanged_between (by simp) hi hnoticed hbetween hseen hcard (hrevision.trans hsame.symm)
  · exact unchanged_between (by simp) hi hnoticed hbetween hseen' hcard'
      (hrevision'.trans hsame'.symm)

end Decisions

/-- Two cards that a reviewer is shown. -/
def suspected : List Event :=
  [.createComponent 10 (sensorDraft "sensor" true) [] none 7 1,
   .createComponent 11 (sensorDraft "sensor-copy" true) [] none 7 1]

/-- Between the two another card is created. -/
theorem decided_as_shown_unchanged :
    ∃ shown ∈ run (step plainEnv) plainDb suspected,
      ∃ db ∈ run (step plainEnv) shown
          [.createComponent 12 (sensorDraft "sonar" true) [] none 7 2],
        contentAt plainUnicode db 10 = contentAt plainUnicode shown 10 ∧
          contentAt plainUnicode db 11 = contentAt plainUnicode shown 11 := by
  have hrun : ∃ shown ∈ run (step plainEnv) plainDb suspected,
      ∃ db ∈ run (step plainEnv) shown
          [.createComponent 12 (sensorDraft "sonar" true) [] none 7 2],
        ∃ db' ∈ step plainEnv db (.decide 30 .merge 1 1 (some 10) [] 7 3),
          lookup DuplicateCandidate.id db.candidates 30 = some ⟨30, 10, 11, .open, 5000⟩ ∧
          HasRevision shown 10 1 ∧ HasRevision shown 11 1 ∧
          Along (step plainEnv) (Noticed plainUnicode [10, 11]) shown
            [.createComponent 12 (sensorDraft "sonar" true) [] none 7 2] := by
    decide +kernel
  obtain ⟨shown, hpast, db, hbetween, db', hstep, hcandidate, hleft, hright, hnoticed⟩ := hrun
  exact ⟨shown, hpast, db, hbetween,
    decided_as_shown rfl hpast hbetween hstep hcandidate hleft hright hnoticed⟩

/-- **A decision on something else.** Once the reviewer has been shown both cards, an autosave
changes one of them; a merge and the refusal of one are accepted with the revisions shown. -/
theorem decided_after_autosave :
    ∃ shown ∈ run (step plainEnv) plainDb suspected, ∃ db ∈ step plainEnv shown firstAutosave,
      HasRevision shown 10 1 ∧ HasRevision shown 11 1 ∧
        contentAt plainUnicode db 10 ≠ contentAt plainUnicode shown 10 ∧
        (step plainEnv db (.decide 30 .merge 1 1 (some 10) [] 7 4)).isSome ∧
        (step plainEnv db (.decide 30 .reject 1 1 none [] 7 4)).isSome := by
  decide +kernel

end ComponentKb.Catalog
