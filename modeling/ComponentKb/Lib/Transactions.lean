import ComponentKb.Lib.Runs
import ComponentKb.Lib.Table

/-!
# Interleaved transactions

A transaction is a program of statements. Each query sees what other transactions have committed by
then and what the transaction has written itself; its writes are seen by others when it commits, and
its locks are held until then. Any number of transactions are open at once, and their statements
come in any order.

* `Discipline`: what transactions may rely on while they hold locks, and what each commit
  guarantees. Every program is checked on its own, statement by statement (`Program.Meets`).
* `Discipline.step_good`: in the interleaving of checked programs every commit keeps its guarantee.
* `Discipline.along`, `Discipline.stays`, `Discipline.always`: what follows for runs.
-/

namespace ComponentKb.Lib

/-- What is left of a transaction. -/
inductive Program (σ κ ε : Type) where
  | commit
  | abort (error : ε)
  | lock (key : κ) (next : Program σ κ ε)
  | query (next : σ → Program σ κ ε)
  | write (change : σ → σ) (next : Program σ κ ε)

/-- A transaction that has begun: the locks it holds, and what it has written. -/
structure Open (σ κ ε ρ : Type) where
  id : Nat
  request : ρ
  held : List κ
  change : σ → σ
  rest : Program σ κ ε

/-- What is committed, and the open transactions. -/
structure Server (σ κ ε ρ : Type) where
  committed : σ
  opened : List (Open σ κ ε ρ)

/-- A server that carries out requests. `draws` are keys that nobody else has, such as the ids that a
request draws; `outside` is what changes without a transaction, such as the clock. -/
structure System (σ κ ε ρ α : Type) where
  program : ρ → Program σ κ ε
  draws : ρ → List κ
  ready : σ → ρ → Bool
  outside : σ → α → Option σ

inductive Action (ρ α : Type) where
  | outside (event : α)
  | begin (id : Nat) (request : ρ)
  | advance (id : Nat)
  | rollback (id : Nat)

section Step

variable {σ κ ε ρ α : Type} [DecidableEq κ]

/-- A lock that another transaction holds. -/
def Server.locked (w : Server σ κ ε ρ) (id : Nat) (key : κ) : Bool :=
  w.opened.any fun other => other.id ≠ id ∧ key ∈ other.held

/-- The server with one open transaction changed. -/
def Server.put (w : Server σ κ ε ρ) (o : Open σ κ ε ρ) : Server σ κ ε ρ :=
  { w with opened := replace Open.id w.opened o }

/-- The server without an open transaction. -/
def Server.close (w : Server σ κ ε ρ) (id : Nat) : Server σ κ ε ρ :=
  { w with opened := remove Open.id w.opened id }

/-- The next statement of a transaction; `none` while it waits for a lock. -/
def Server.advance (w : Server σ κ ε ρ) (o : Open σ κ ε ρ) : Option (Server σ κ ε ρ) :=
  match o.rest with
  | .commit => some { w.close o.id with committed := o.change w.committed }
  | .abort _ => some (w.close o.id)
  | .lock key next =>
    if w.locked o.id key then none else some (w.put { o with held := key :: o.held, rest := next })
  | .query next => some (w.put { o with rest := next (o.change w.committed) })
  | .write change next => some (w.put { o with change := change ∘ o.change, rest := next })

/-- One step of the server. -/
def System.step (S : System σ κ ε ρ α) (w : Server σ κ ε ρ) :
    Action ρ α → Option (Server σ κ ε ρ)
  | .outside event => (S.outside w.committed event).map fun db => { w with committed := db }
  | .begin id request =>
    if S.ready w.committed request ∧ (lookup Open.id w.opened id).isNone ∧
        ∀ key ∈ S.draws request, w.locked id key = false then
      some { w with opened := ⟨id, request, S.draws request, fun db => db, S.program request⟩ ::
        w.opened }
    else none
  | .advance id => (lookup Open.id w.opened id).bind w.advance
  | .rollback id => some (w.close id)

/-- The transaction that an action commits. -/
def Server.committing (w : Server σ κ ε ρ) : Action ρ α → Option (Open σ κ ε ρ)
  | .advance id => (lookup Open.id w.opened id).filter fun o =>
    match o.rest with
    | .commit => true
    | _ => false
  | _ => none

end Step

/-! ## Programs -/

section Programs

variable {σ κ ε : Type}

/-- Locks of several rows, one after the other. -/
def Program.locks (keys : List κ) (next : Program σ κ ε) : Program σ κ ε :=
  keys.foldr Program.lock next

/-- Goes on with the value of a computation, or fails with its error. -/
def Program.attempt {α : Type} (x : Except ε α) (next : α → Program σ κ ε) : Program σ κ ε :=
  match x with
  | .ok a => next a
  | .error error => .abort error

variable {inv : σ → Prop} {rely : List κ → σ → σ → Prop} {promise : List κ → σ → σ → Prop}

/-- At every commit of the program, from the database `s` on, the promise is kept. Between its
statements the others may do what the locks allow. -/
def Program.Meets (inv : σ → Prop) (rely promise : List κ → σ → σ → Prop) :
    Program σ κ ε → (σ → σ) → List κ → σ → Prop
  | .commit, change, held, s => ∀ s', inv s' → rely held s s' → promise held s' (change s')
  | .abort _, _, _, _ => True
  | .lock key next, change, held, s =>
    ∀ s', inv s' → rely held s s' → next.Meets inv rely promise change (key :: held) s'
  | .query next, change, held, s =>
    ∀ s', inv s' → rely held s s' → (next (change s')).Meets inv rely promise change held s'
  | .write f next, change, held, s => next.Meets inv rely promise (f ∘ change) held s

/-- A program that is checked from one database on is checked from a later one on. -/
theorem Program.Meets.later (htrans : ∀ H a b c, rely H a b → rely H b c → rely H a c)
    {p : Program σ κ ε} {change : σ → σ} {held : List κ} {s s' : σ}
    (h : p.Meets inv rely promise change held s) (hs : rely held s s') :
    p.Meets inv rely promise change held s' := by
  induction p generalizing change with
  | commit => exact fun t hi ht => h t hi (htrans held s s' t hs ht)
  | abort error => trivial
  | lock key next _ => exact fun t hi ht => h t hi (htrans held s s' t hs ht)
  | query next _ => exact fun t hi ht => h t hi (htrans held s s' t hs ht)
  | write f next ih => exact ih h

theorem Program.meets_attempt {α : Type} {x : Except ε α} {next : α → Program σ κ ε}
    {change : σ → σ} {held : List κ} {s : σ}
    (h : ∀ a, x = .ok a → (next a).Meets inv rely promise change held s) :
    (Program.attempt x next).Meets inv rely promise change held s := by
  cases x with
  | ok a => exact h a rfl
  | error error => trivial

/-- Several locks are waited for one after the other. -/
theorem Program.meets_locks (hrefl : ∀ H a, rely H a a)
    (htrans : ∀ H a b c, rely H a b → rely H b c → rely H a c)
    (hmono : ∀ H key a b, rely (key :: H) a b → rely H a b) {keys : List κ}
    {next : Program σ κ ε} {change : σ → σ} {held : List κ} {s : σ} (hinv : inv s)
    (h : ∀ held' s', inv s' → rely held s s' → (∀ key, key ∈ held' ↔ key ∈ keys ∨ key ∈ held) →
      next.Meets inv rely promise change held' s') :
    (Program.locks keys next).Meets inv rely promise change held s := by
  induction keys generalizing held s with
  | nil => exact h held s hinv (hrefl held s) fun key => by simp
  | cons key keys ih =>
    intro s' hi' hs'
    refine ih hi' fun held' t hi ht hheld => h held' t hi ?_ fun other => ?_
    · exact htrans held s s' t hs' (hmono held key s' t ht)
    · rw [hheld other, List.mem_cons, List.mem_cons]
      constructor
      · rintro (hkeys | hkey | hold)
        · exact Or.inl (Or.inr hkeys)
        · exact Or.inl (Or.inl hkey)
        · exact Or.inr hold
      · rintro ((hkey | hkeys) | hold)
        · exact Or.inr (Or.inl hkey)
        · exact Or.inl hkeys
        · exact Or.inr (Or.inr hold)

end Programs

/-! ## Disciplines -/

section Disciplines

variable {σ κ ε ρ α : Type}

/-- What the transactions of a system may rely on and what they guarantee. -/
structure Discipline (S : System σ κ ε ρ α) where
  inv : σ → Prop
  /-- What the others may do while a transaction holds these locks. -/
  rely : List κ → σ → σ → Prop
  /-- What the commit of a request does, with the locks it holds. -/
  guarantee : ρ → List κ → σ → σ → Prop
  refl : ∀ H s, rely H s s
  trans : ∀ H a b c, rely H a b → rely H b c → rely H a c
  outside : ∀ s event s', inv s → S.outside s event = some s' → inv s' ∧ ∀ H, rely H s s'
  keeps : ∀ r H s s', inv s → guarantee r H s s' → inv s'
  others : ∀ r H s s', inv s → guarantee r H s s' → ∀ H', (∀ key ∈ H', key ∉ H) → rely H' s s'
  meets : ∀ r s, inv s → S.ready s r = true →
    (S.program r).Meets inv rely (guarantee r) (fun db => db) (S.draws r) s

variable {S : System σ κ ε ρ α} (D : Discipline S)

/-- No two transactions hold the same lock, and what is left of each is checked from here on. -/
structure Discipline.Good (w : Server σ κ ε ρ) : Prop where
  inv : D.inv w.committed
  apart : ∀ a ∈ w.opened, ∀ b ∈ w.opened, a.id ≠ b.id → ∀ key ∈ a.held, key ∉ b.held
  meets : ∀ o ∈ w.opened,
    o.rest.Meets D.inv D.rely (D.guarantee o.request) o.change o.held w.committed

variable {D} {w w' : Server σ κ ε ρ}

theorem Discipline.Good.of_none_open (hinv : D.inv w.committed) (h : w.opened = []) :
    D.Good w := by
  refine ⟨hinv, ?_, ?_⟩
  · rw [h]
    rintro a ⟨⟩
  · rw [h]
    rintro o ⟨⟩

/-- The committed database changes as every open transaction allows. -/
theorem Discipline.Good.shift {s' : σ} (h : D.Good w) (hinv : D.inv s')
    (hrely : ∀ o ∈ w.opened, D.rely o.held w.committed s') :
    D.Good { w with committed := s' } :=
  ⟨hinv, h.apart, fun o ho => (h.meets o ho).later D.trans (hrely o ho)⟩

/-- A transaction is closed. -/
theorem Discipline.Good.close (h : D.Good w) (id : Nat) : D.Good (w.close id) := by
  have hmem : ∀ o ∈ (w.close id).opened, o ∈ w.opened := fun o ho => (List.mem_filter.mp ho).1
  exact ⟨h.inv, fun a ha b hb => h.apart a (hmem a ha) b (hmem b hb),
    fun o ho => h.meets o (hmem o ho)⟩

variable [DecidableEq κ]

theorem Server.locked_eq_false {id : Nat} {key : κ} (h : w.locked id key = false) :
    ∀ o ∈ w.opened, o.id ≠ id → key ∉ o.held := by
  intro o ho hne hkey
  have hno := List.any_eq_false.mp h o ho
  simp [hne, hkey] at hno

/-- A transaction goes on; the locks that it takes are free. -/
theorem Discipline.Good.put {o o' : Open σ κ ε ρ} (h : D.Good w) (ho : o ∈ w.opened)
    (hid : o'.id = o.id)
    (hheld : ∀ key ∈ o'.held, key ∈ o.held ∨ w.locked o.id key = false)
    (hmeets : o'.rest.Meets D.inv D.rely (D.guarantee o'.request) o'.change o'.held w.committed) :
    D.Good (w.put o') := by
  have hfree : ∀ b ∈ w.opened, b.id ≠ o'.id → ∀ key ∈ o'.held, key ∉ b.held := by
    intro b hb hne key hkey
    rw [hid] at hne
    rcases hheld key hkey with hold | hfree
    · exact h.apart o ho b hb hne.symm key hold
    · exact Server.locked_eq_false hfree b hb hne
  refine ⟨h.inv, ?_, ?_⟩
  · intro a ha b hb hne key hkey
    rcases mem_replace ha with hao | haold
    · rcases mem_replace hb with hbo | hbold
      · rw [hao, hbo] at hne
        exact absurd rfl hne
      · rw [hao] at hne hkey
        exact hfree b hbold hne.symm key hkey
    · rcases mem_replace hb with hbo | hbold
      · rw [hbo] at hne ⊢
        exact fun hkey' => hfree a haold hne key hkey' hkey
      · exact h.apart a haold b hbold hne key hkey
  · intro a ha
    rcases mem_replace ha with rfl | hold
    · exact hmeets
    · exact h.meets a hold

/-- What one step does to the committed database. -/
def Discipline.Does (D : Discipline S) (w : Server σ κ ε ρ) (a : Action ρ α) (s' : σ) : Prop :=
  match w.committing a with
  | some o => D.guarantee o.request o.held w.committed s'
  | none => s' = w.committed ∨ ∃ event, S.outside w.committed event = some s'

theorem Discipline.advance_good {o : Open σ κ ε ρ} (h : D.Good w)
    (ho : lookup Open.id w.opened o.id = some o) (hstep : w.advance o = some w') :
    D.Good w' ∧ D.Does w (.advance o.id) w'.committed := by
  have hmem := mem_of_lookup ho
  have hmeets := h.meets o hmem
  unfold Discipline.Does Server.committing
  unfold Server.advance at hstep
  cases hrest : o.rest with
  | commit =>
    simp only [hrest] at hstep hmeets
    cases hstep
    have hdoes := hmeets w.committed h.inv (D.refl o.held w.committed)
    refine ⟨(h.close o.id).shift (D.keeps _ _ _ _ h.inv hdoes) fun other hother => ?_, ?_⟩
    · obtain ⟨hopen, hne⟩ := List.mem_filter.mp hother
      have hne' : other.id ≠ o.id := by simpa using hne
      exact D.others _ _ _ _ h.inv hdoes other.held
        (h.apart other hopen o hmem hne')
    · simp only [ho, Option.filter_some, hrest]
      exact hdoes
  | abort error =>
    simp only [hrest] at hstep
    cases hstep
    refine ⟨h.close o.id, ?_⟩
    simp only [ho, Option.filter_some, hrest]
    exact Or.inl rfl
  | lock key next =>
    simp only [hrest] at hstep hmeets
    split at hstep
    · cases hstep
    · rename_i hfree
      cases hstep
      constructor
      · refine h.put hmem rfl ?_ (hmeets w.committed h.inv (D.refl o.held w.committed))
        intro other hother
        rcases List.mem_cons.mp hother with rfl | hheld
        · exact Or.inr (by simpa using hfree)
        · exact Or.inl hheld
      · simp only [ho, Option.filter_some, hrest]
        exact Or.inl rfl
  | query next =>
    simp only [hrest] at hstep hmeets
    cases hstep
    constructor
    · exact h.put hmem rfl (fun _ hkey => Or.inl hkey)
        (hmeets w.committed h.inv (D.refl o.held w.committed))
    · simp only [ho, Option.filter_some, hrest]
      exact Or.inl rfl
  | write change next =>
    simp only [hrest] at hstep hmeets
    cases hstep
    constructor
    · exact h.put hmem rfl (fun _ hkey => Or.inl hkey) hmeets
    · simp only [ho, Option.filter_some, hrest]
      exact Or.inl rfl

/-- **The interleaving rule.** Every step of the server keeps the programs checked, and it changes
the committed database only by a commit that keeps its guarantee, or from outside. -/
theorem Discipline.step_good {a : Action ρ α} (h : D.Good w) (hstep : S.step w a = some w') :
    D.Good w' ∧ D.Does w a w'.committed := by
  cases a with
  | outside event =>
    obtain ⟨s', hs', rfl⟩ := Option.map_eq_some_iff.mp hstep
    obtain ⟨hinv, hrely⟩ := D.outside w.committed event s' h.inv hs'
    exact ⟨h.shift hinv fun o _ => hrely o.held, Or.inr ⟨event, hs'⟩⟩
  | begin id request =>
    change (if _ then _ else _) = _ at hstep
    split at hstep
    · rename_i hready
      obtain ⟨hready, -, hfree⟩ := hready
      cases hstep
      have hnew : ∀ b ∈ w.opened, b.id ≠ id → ∀ key ∈ S.draws request, key ∉ b.held :=
        fun b hb hne key hkey => Server.locked_eq_false (hfree key hkey) b hb hne
      refine ⟨⟨h.inv, ?_, ?_⟩, Or.inl rfl⟩
      · intro a ha b hb hne key hkey
        rcases List.mem_cons.mp ha with hao | haold
        · rcases List.mem_cons.mp hb with hbo | hbold
          · rw [hao, hbo] at hne
            exact absurd rfl hne
          · rw [hao] at hne hkey
            exact hnew b hbold hne.symm key hkey
        · rcases List.mem_cons.mp hb with hbo | hbold
          · rw [hbo] at hne ⊢
            exact fun hkey' => hnew a haold hne key hkey' hkey
          · exact h.apart a haold b hbold hne key hkey
      · intro o ho
        rcases List.mem_cons.mp ho with rfl | ho
        · exact D.meets request w.committed h.inv hready
        · exact h.meets o ho
    · cases hstep
  | advance id =>
    obtain ⟨o, ho, hadvance⟩ := Option.bind_eq_some_iff.mp hstep
    obtain rfl := key_of_lookup ho
    exact Discipline.advance_good h ho hadvance
  | rollback id =>
    cases hstep
    exact ⟨h.close id, Or.inl rfl⟩

/-- What every commit does to the database, and the world outside, a run does to it step by step. -/
theorem Discipline.along {P : Server σ κ ε ρ → Action ρ α → Server σ κ ε ρ → Prop}
    (hP : ∀ w a w', D.Good w → D.Does w a w'.committed → P w a w') (hgood : D.Good w)
    (actions : List (Action ρ α)) : Along S.step P w actions :=
  along_of_inv (fun _ _ _ hi _ h => (Discipline.step_good hi h).1)
    (fun w a w' hi _ h => hP w a w' hi (Discipline.step_good hi h).2) hgood (along_true w actions)

/-- Once the database has a property that every commit and the world outside keep, it has it from
then on. -/
theorem Discipline.stays {P : σ → Prop}
    (hP : ∀ w a s', D.Good w → D.Does w a s' → P w.committed → P s') (hgood : D.Good w)
    (actions : List (Action ρ α)) :
    Stays S.step (fun w => P w.committed) (fun _ w => P w.committed) w actions :=
  stays_of_along (Discipline.along (fun w a w' hi hdoes => hP w a w'.committed hi hdoes) hgood
    actions)

/-- A property of the database that every commit and the world outside keep. -/
theorem Discipline.always {P : σ → Prop}
    (houtside : ∀ s event s', D.inv s → S.outside s event = some s' → P s → P s')
    (hcommit : ∀ r H s s', D.inv s → D.guarantee r H s s' → P s → P s') (hgood : D.Good w)
    (hstart : P w.committed) (actions : List (Action ρ α)) :
    Always S.step (fun w => P w.committed) w actions := by
  have hstep : ∀ (w : Server σ κ ε ρ) (a : Action ρ α) (w' : Server σ κ ε ρ),
      (D.Good w ∧ P w.committed) → True → S.step w a = some w' → D.Good w' ∧ P w'.committed := by
    rintro w a w' ⟨hi, hp⟩ - h
    obtain ⟨hgood', hdoes⟩ := Discipline.step_good hi h
    refine ⟨hgood', ?_⟩
    unfold Discipline.Does at hdoes
    split at hdoes
    · exact hcommit _ _ _ _ hi.inv hdoes hp
    · rcases hdoes with hsame | ⟨event, hevent⟩
      · rw [hsame]
        exact hp
      · exact houtside _ event _ hi.inv hevent hp
  exact always_of_inv hstep (fun _ h => h.2) ⟨hgood, hstart⟩ (along_true w actions)

end Disciplines

end ComponentKb.Lib
