import ComponentKb.Catalog.Scoring
import ComponentKb.Catalog.World
import ComponentKb.Lib.Ranking

/-!
# Proposing and deciding duplicates

`FuzzyCandidateService.generate` (`deduplication/service.py`), which an import runs in its own
transaction for the card it has made, and `DuplicateReviewService.decide`
(`deduplication/review.py`), beside every other transaction of the catalog.

An import compares its card with the cards that it selected before, one after the other. Each of its
queries reads what is committed by then, and its own rows; what it writes is seen when it commits.
A new row is sent to the database before the next query. From then on it holds a lock on both cards,
for which a decision about them waits.

The steps do not check the constraints of the two tables (`Stored`, `OpenOnce`,
`uq_merge_decisions_candidate_id`), which `Review.lean` proves are never violated.
-/

namespace ComponentKb.Deduplication

open Catalog Catalog.Scoring Lib

/-! ## Signals -/

/-- The catalog's settings, `pg_trgm` (`similarity` and the operator `%`) and a hash of texts. -/
structure Env extends Catalog.Env where
  similarity : String → String → ℚ
  similar : String → String → Bool
  sha256 : String → String

section

variable (env : Env)

/-- `text_hashes`. -/
def textHashes (values : List String) : Finset String :=
  (((values.map fun value => normalizeText env.unicode (some value)).filter (· ≠ "")).map
    env.sha256).toFinset

/-- `_signals`. -/
def signals (card : Card) : ComponentSignals :=
  let media := card.assets.filter (·.status = .ready)
  { title := card.row.title
    aliases := card.details.aliases
    manufacturer := card.row.manufacturer
    model := card.row.model
    specifications := card.details.properties.map fun row => (row.definition, row.valueText)
    textHashes := textHashes env [card.row.title, card.row.summary, card.row.description]
    mediaSha256 := (media.filterMap (·.sha256)).toFinset
    mediaPhashes := (media.filterMap (·.phash)).toFinset }

/-! ## Preselection -/

def preselectionLimit : Nat := 50

def candidateThreshold : ℚ := 7 / 20

/-- The greater similarity of the titles and of the models. -/
def trigram (source other : Component) : ℚ :=
  max (env.similarity other.title source.title)
    (env.similarity (other.model.getD "") (source.model.getD ""))

/-- `indexed_matches`: the titles are alike, or both models are there and alike. -/
def alike (source other : Component) : Bool :=
  env.similar other.title source.title ||
    (filled source.model).any fun model => other.model.any fun other => env.similar other model

/-- `_preselect`: the cards that are alike and not archived, the likest first. -/
def preselect (db : Db) (source : Card) : List (UUID × ℚ) :=
  let rows := db.cards.filter fun card =>
    card.id ≠ source.id ∧ card.row.status ≠ .archived ∧ alike env source.row card.row
  (Ranking.rank Prod.snd Prod.fst
    (rows.map fun card => (card.id, trigram env source.row card.row))).take preselectionLimit

/-! ## Generation -/

/-- The transaction of an import under way: the preselected cards that it has still to compare, the
row that it has made but not sent, the rows that it has sent, and the scores that it has changed. -/
structure Generation where
  worker : Nat
  event : Catalog.Event
  pending : List (UUID × ℚ) := []
  added : List DuplicateCandidate := []
  inserted : List DuplicateCandidate := []
  rescored : List (UUID × Nat) := []

/-- The rows of an import, sent or not. -/
def Generation.rows (g : Generation) : List DuplicateCandidate := g.inserted ++ g.added

/-- The imports of pages and of repository entries. -/
def imports : Catalog.Event → Bool
  | .persistDraft .. | .persistRepositoryDraft .. => true
  | _ => false

/-- The updates of scores, one after the other. -/
def rescore (scores : List (UUID × Nat)) (rows : List DuplicateCandidate) :
    List DuplicateCandidate :=
  scores.foldl
    (fun rows update => rows.map fun row =>
      if row.id = update.1 then { row with score := update.2 } else row) rows

/-- What the transaction reads: its own rows in the committed database, and the card it has made.
It fails once its card can no longer be stored. -/
def Generation.view (g : Generation) (db : Db) : Option (Db × Card) := do
  let db ← Catalog.step env.toEnv db g.event
  let card ← g.event.newId.bind db.card
  return ({ db with candidates := rescore g.rescored db.candidates ++ g.inserted }, card)

/-- The two ids of a pair in their order. -/
def orderedPair (a b : UUID) : UUID × UUID := (min a b, max a b)

def pairOf (row : DuplicateCandidate) : UUID × UUID := (row.leftComponentId, row.rightComponentId)

/-- The score in the units of its column. -/
def storedScore (score : ℚ) : Nat := (score * 10000).floor.toNat

/-- The open row of a pair. -/
def openRow (rows : List DuplicateCandidate) (pair : UUID × UUID) : Option DuplicateCandidate :=
  rows.find? fun row => decide (pairOf row = pair) && decide (row.status = .open)

/-- The comparison with one card: a new row under the id `rowId`, a new score of the open row, or
nothing for a card that is gone or not like enough. -/
def Generation.compare (g : Generation) (db : Db) (card : Card) (rowId otherId : UUID)
    (trigram : ℚ) : Except Fault Generation :=
  match db.card otherId with
  | none => return g
  | some other => do
    let result ← scorePair env.unicode env.sha256 (signals env card) (signals env other) trigram
    if result.score < candidateThreshold then return g
    let pair := orderedPair card.id otherId
    match openRow db.candidates pair with
    | some row =>
      return { g with rescored := g.rescored ++ [(row.id, storedScore result.score)] }
    | none =>
      return { g with
        added := g.added ++ [⟨rowId, pair.1, pair.2, .open, storedScore result.score⟩] }

/-! ## The system -/

/-- A row of `merge_decisions`. -/
structure MergeDecision where
  candidateId : UUID
  decision : DuplicateDecision
  survivorComponentId : Option UUID
  fieldResolution : List (String × UUID)
  reason : String
  decidedBy : UUID
  decidedAt : Time
deriving DecidableEq, Repr

structure Review where
  db : Db
  generations : List Generation
  decisions : List MergeDecision

inductive Event where
  | catalog (event : Catalog.Event)
  | begin (worker : Nat) (event : Catalog.Event)
  | compare (worker : Nat) (rowId : UUID)
  | flush (worker : Nat)
  | commit (worker : Nat)
  | rollback (worker : Nat)
  | decide (candidateId : UUID) (decision : DuplicateDecision) (leftRevision rightRevision : Nat)
      (survivorId : Option UUID) (fieldSources : List (String × UUID)) (actor : UUID) (now : Time)
      (reason : String)

def Review.generation (s : Review) (worker : Nat) : Option Generation :=
  lookup Generation.worker s.generations worker

/-- Every row of a candidate, those of transactions under way included. -/
def Review.rows (s : Review) : List DuplicateCandidate :=
  s.db.candidates ++ s.generations.flatMap Generation.rows

/-- A transaction that proposes and decides nothing. -/
def catalogStep (s : Review) (event : Catalog.Event) : Option Review :=
  match event with
  | .decide .. | .propose _ => none
  | _ => (Catalog.step env.toEnv s.db event).bind fun db =>
    if imports event ∧ (event.newId.bind db.card).isSome then none else some { s with db := db }

/-- An import makes its card and preselects. -/
def beginStep (s : Review) (worker : Nat) (event : Catalog.Event) : Option Review :=
  if imports event ∧ s.generation worker = none then do
    let g : Generation := { worker := worker, event := event }
    let (db, card) ← g.view env s.db
    return { s with
      generations := s.generations ++ [{ g with pending := preselect env db card }] }
  else none

/-- The next comparison of an import, all whose rows are sent; `rowId` is fresh. -/
def compareStep (s : Review) (worker : Nat) (rowId : UUID) : Option Review := do
  let g ← s.generation worker
  match g.pending with
  | [] => none
  | (otherId, trigram) :: rest =>
    let (db, card) ← g.view env s.db
    let next ← ({ g with pending := rest }.compare env db card rowId otherId trigram).toOption
    if g.added = [] ∧ ∀ row ∈ s.rows, row.id ≠ rowId then
      some { s with generations := replace Generation.worker s.generations next }
    else none

/-- An import sends its new row. -/
def flushStep (s : Review) (worker : Nat) : Option Review := do
  let g ← s.generation worker
  return { s with
    generations := replace Generation.worker s.generations
      { g with added := [], inserted := g.inserted ++ g.added } }

/-- The commit of an import that has compared every card. -/
def commitStep (s : Review) (worker : Nat) : Option Review := do
  let g ← s.generation worker
  let (db, _) ← g.view env s.db
  if g.pending = [] ∧ g.added = [] then
    some { s with db := db, generations := remove Generation.worker s.generations worker }
  else none

/-- `decide`, once no import holds one of the two cards. -/
def decideStep (s : Review) (row : MergeDecision) (leftRevision rightRevision : Nat) :
    Option Review := do
  let candidate ← lookup DuplicateCandidate.id s.db.candidates row.candidateId
  let pair := [candidate.leftComponentId, candidate.rightComponentId]
  if ∀ g ∈ s.generations, ∀ held ∈ g.inserted,
      held.leftComponentId ∉ pair ∧ held.rightComponentId ∉ pair then do
    let db ← Catalog.step env.toEnv s.db (.decide row.candidateId row.decision leftRevision
      rightRevision row.survivorComponentId row.fieldResolution row.decidedBy row.decidedAt)
    return { s with db := db, decisions := s.decisions ++ [row] }
  else none

def step (s : Review) : Event → Option Review
  | .catalog event => catalogStep env s event
  | .begin worker event => beginStep env s worker event
  | .compare worker rowId => compareStep env s worker rowId
  | .flush worker => flushStep s worker
  | .commit worker => commitStep env s worker
  | .rollback worker =>
    some { s with generations := remove Generation.worker s.generations worker }
  | .decide candidateId decision leftRevision rightRevision survivorId fieldSources actor now
      reason =>
    decideStep env s ⟨candidateId, decision, survivorId, fieldSources, strip reason, actor, now⟩
      leftRevision rightRevision

end

/-! ## The constraints -/

/-- `ck_duplicate_pair_order`, `ck_duplicate_candidates_score`, and the foreign keys. -/
def Stored (db : Db) (row : DuplicateCandidate) : Prop :=
  row.leftComponentId < row.rightComponentId ∧ row.score ≤ 10000 ∧
    (db.card row.leftComponentId).isSome ∧ (db.card row.rightComponentId).isSome

/-- `uq_duplicate_candidates_open_version`. -/
def OpenOnce (rows : List DuplicateCandidate) : Prop :=
  ((rows.filter (·.status = .open)).map pairOf).Nodup

/-- `ck_merge_decisions_survivor`. -/
def MergeDecision.Valid (row : MergeDecision) : Prop :=
  row.decision.resolves = row.survivorComponentId.isSome

/-- Nothing was proposed yet. -/
structure Review.Initial (s : Review) : Prop where
  cards : (s.db.cards.map Card.id).Nodup
  candidates : s.db.candidates = []
  generations : s.generations = []
  decisions : s.decisions = []

end ComponentKb.Deduplication
