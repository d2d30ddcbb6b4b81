import Mathlib.Tactic.Common

/-!
# Bracketed text

A tree of atoms and lists, the lexemes it is written with, and the reader that turns lexemes back
into a tree with a stack of the lists still open. The reader refuses to open more than `limit` lists
inside one another.

* `Tree.lexemes` writes a tree down, `Tree.depth` counts the lists around its innermost atom.
* `Reader.text` is what a reader has read: the step that accepts a lexeme appends it (`step_text`).
* `read_tree`: a reader inside a list that reads a whole tree appends it to that list (`Reads`).
* **`read_eq_ok`**: the reader returns a tree iff the tree is a list within the limit and the
  lexemes are exactly its own.
-/

namespace ComponentKb.Lib.Brackets

variable {α : Type}

inductive Tree (α : Type) where
  | atom (value : α)
  | list (children : List (Tree α))

inductive Lexeme (α : Type) where
  | opening
  | closing
  | atom (value : α)
  deriving DecidableEq

namespace Tree

mutual

/-- The tree, written down. -/
def lexemes : Tree α → List (Lexeme α)
  | .atom value => [.atom value]
  | .list children => .opening :: (lexemesAll children ++ [.closing])

def lexemesAll : List (Tree α) → List (Lexeme α)
  | [] => []
  | tree :: trees => lexemes tree ++ lexemesAll trees

end

mutual

/-- The number of lists around the innermost atom. -/
def depth : Tree α → Nat
  | .atom _ => 0
  | .list children => depthAll children + 1

def depthAll : List (Tree α) → Nat
  | [] => 0
  | tree :: trees => max (depth tree) (depthAll trees)

end

mutual

/-- The atoms, from left to right. -/
def atoms : Tree α → List α
  | .atom value => [value]
  | .list children => atomsAll children

def atomsAll : List (Tree α) → List α
  | [] => []
  | tree :: trees => atoms tree ++ atomsAll trees

end

def isList : Tree α → Bool
  | .atom _ => false
  | .list _ => true

/-- Induction on a tree: a list may assume the statement of each of its children. -/
@[elab_as_elim]
theorem ind {motive : Tree α → Prop} (atom : ∀ value, motive (.atom value))
    (list : ∀ children, (∀ tree ∈ children, motive tree) → motive (.list children))
    (tree : Tree α) : motive tree :=
  @Tree.rec α motive (fun trees => ∀ tree ∈ trees, motive tree) atom list
    (fun _ hno => absurd hno List.not_mem_nil)
    (fun _ _ htree htrees => List.forall_mem_cons.2 ⟨htree, htrees⟩) tree

@[simp] theorem lexemesAll_append (xs ys : List (Tree α)) :
    lexemesAll (xs ++ ys) = lexemesAll xs ++ lexemesAll ys := by
  induction xs with
  | nil => rfl
  | cons x xs ih => simp [lexemesAll, ih]

theorem depthAll_le {trees : List (Tree α)} {n : Nat} :
    depthAll trees ≤ n ↔ ∀ tree ∈ trees, tree.depth ≤ n := by
  induction trees with
  | nil => simp [depthAll]
  | cons tree trees ih => rw [depthAll, Nat.max_le, ih, List.forall_mem_cons]

/-- The atoms of a tree are the atoms among its lexemes. -/
theorem atom_mem_lexemes {value : α} (tree : Tree α) :
    .atom value ∈ tree.lexemes ↔ value ∈ tree.atoms := by
  induction tree using ind with
  | atom v => simp [lexemes, atoms]
  | list children ih =>
    have hall : ∀ trees : List (Tree α), (∀ tree ∈ trees,
        (Lexeme.atom value ∈ tree.lexemes ↔ value ∈ tree.atoms)) →
        (Lexeme.atom value ∈ lexemesAll trees ↔ value ∈ atomsAll trees) := by
      intro trees h
      induction trees with
      | nil => simp [lexemesAll, atomsAll]
      | cons tree trees iht =>
        rw [List.forall_mem_cons] at h
        simp [lexemesAll, atomsAll, h.1, iht h.2]
    simpa [lexemes, atoms] using hall children ih

end Tree

/-- Why a reader stops. -/
inductive Fault where
  | depth
  | unbalanced
  | roots
  | outside
  deriving DecidableEq

/-- The open lists, the innermost first, each with the children read so far, and the list that was
closed last outside all others. -/
structure Reader (α : Type) where
  stack : List (List (Tree α))
  root : Option (Tree α)

namespace Reader

def step (limit : Nat) (r : Reader α) : Lexeme α → Except Fault (Reader α)
  | .opening =>
    if limit ≤ r.stack.length then .error .depth else .ok { r with stack := [] :: r.stack }
  | .closing =>
    match r.stack, r.root with
    | [], _ => .error .unbalanced
    | [top], none => .ok ⟨[], some (.list top)⟩
    | [_], some _ => .error .roots
    | top :: next :: below, root => .ok ⟨(next ++ [.list top]) :: below, root⟩
  | .atom value =>
    match r.stack with
    | [] => .error .outside
    | top :: below => .ok { r with stack := (top ++ [.atom value]) :: below }

def run (limit : Nat) : Reader α → List (Lexeme α) → Except Fault (Reader α)
  | r, [] => .ok r
  | r, lexeme :: rest => r.step limit lexeme >>= fun r => run limit r rest

/-- The tree that was read, when nothing is left open. -/
def finish : Reader α → Except Fault (Tree α)
  | ⟨[], some root⟩ => .ok root
  | _ => .error .unbalanced

/-! ## What has been read -/

def pending : List (List (Tree α)) → List (Lexeme α)
  | [] => []
  | top :: below => pending below ++ .opening :: Tree.lexemesAll top

/-- The lexemes a reader has read. -/
def text (r : Reader α) : List (Lexeme α) :=
  (r.root.map Tree.lexemes).getD [] ++ pending r.stack

/-- Each open list and each child of one is within the limit, and so is the closed root. -/
def Within (limit : Nat) : List (List (Tree α)) → Prop
  | [] => True
  | top :: below =>
    below.length + 1 ≤ limit ∧ (∀ tree ∈ top, below.length + 1 + tree.depth ≤ limit) ∧
      Within limit below

structure Good (limit : Nat) (r : Reader α) : Prop where
  within : Within limit r.stack
  root_list : ∀ tree ∈ r.root, tree.isList = true
  root_depth : ∀ tree ∈ r.root, tree.depth ≤ limit

/-- Closing the innermost list keeps the list around it within the limit. -/
theorem Within.close {limit : Nat} {top next : List (Tree α)} {below : List (List (Tree α))}
    (h : Within limit (top :: next :: below)) :
    Within limit ((next ++ [.list top]) :: below) := by
  obtain ⟨hlen, htop, hnext, htrees, hbelow⟩ := h
  refine ⟨hnext, ?_, hbelow⟩
  intro tree hmem
  rcases List.mem_append.1 hmem with hmem | hmem
  · exact htrees tree hmem
  · rw [List.mem_singleton.1 hmem]
    have hdepth : Tree.depthAll top ≤ limit - (below.length + 2) := by
      rw [Tree.depthAll_le]
      intro u hu
      have := htop u hu
      simp only [List.length_cons] at this
      omega
    simp only [List.length_cons] at hlen
    simp only [Tree.depth]
    omega

/-- A step that accepts a lexeme appends it to what has been read. -/
theorem step_text {limit : Nat} {r r' : Reader α} {lexeme : Lexeme α}
    (h : r.step limit lexeme = .ok r') : r'.text = r.text ++ [lexeme] := by
  obtain ⟨stack, root⟩ := r
  cases lexeme with
  | opening =>
    simp only [step] at h
    split at h
    · cases h
    · cases h
      simp [text, pending, Tree.lexemesAll]
  | closing =>
    match stack, root, h with
    | [top], none, h =>
      cases h
      simp [text, pending, Tree.lexemes]
    | top :: next :: below, root, h =>
      cases h
      simp [text, pending, Tree.lexemes, Tree.lexemesAll]
  | atom value =>
    match stack, h with
    | top :: below, h =>
      cases h
      simp [text, pending, Tree.lexemes, Tree.lexemesAll]

theorem step_good {limit : Nat} {r r' : Reader α} {lexeme : Lexeme α}
    (h : r.step limit lexeme = .ok r') (hgood : r.Good limit) : r'.Good limit := by
  obtain ⟨stack, root⟩ := r
  obtain ⟨hwithin, hlist, hdepth⟩ := hgood
  cases lexeme with
  | opening =>
    simp only [step] at h
    split at h
    · cases h
    · rename_i hlen
      cases h
      refine ⟨⟨?_, by simp, hwithin⟩, hlist, hdepth⟩
      omega
  | closing =>
    match stack, root, h with
    | [top], none, h =>
      cases h
      refine ⟨trivial, ?_, ?_⟩
      · rintro tree ⟨⟩
        rfl
      · rintro tree ⟨⟩
        obtain ⟨hlen, htop, -⟩ := hwithin
        have : Tree.depthAll top ≤ limit - 1 := by
          rw [Tree.depthAll_le]
          intro u hu
          have := htop u hu
          simp only [List.length_nil] at this
          omega
        simp only [List.length_nil] at hlen
        simp only [Tree.depth]
        omega
    | top :: next :: below, root, h =>
      cases h
      exact ⟨hwithin.close, hlist, hdepth⟩
  | atom value =>
    match stack, h with
    | top :: below, h =>
      cases h
      refine ⟨⟨hwithin.1, ?_, hwithin.2.2⟩, hlist, hdepth⟩
      intro tree hmem
      rcases List.mem_append.1 hmem with hmem | hmem
      · exact hwithin.2.1 tree hmem
      · rw [List.mem_singleton.1 hmem]
        exact hwithin.1

theorem run_text {limit : Nat} {r r' : Reader α} {lexemes : List (Lexeme α)}
    (h : r.run limit lexemes = .ok r') (hgood : r.Good limit) :
    r'.text = r.text ++ lexemes ∧ r'.Good limit := by
  induction lexemes generalizing r with
  | nil =>
    cases h
    exact ⟨(List.append_nil _).symm, hgood⟩
  | cons lexeme rest ih =>
    rw [run] at h
    cases hstep : r.step limit lexeme with
    | error fault =>
      rw [hstep] at h
      cases h
    | ok next =>
      rw [hstep] at h
      obtain ⟨htext, hgood'⟩ := ih h (step_good hstep hgood)
      refine ⟨?_, hgood'⟩
      rw [htext, step_text hstep, List.append_assoc, List.singleton_append]

/-! ## Reading a tree -/

/-- A reader inside a list that reads the tree appends it to that list. -/
def Reads (limit : Nat) (tree : Tree α) : Prop :=
  ∀ (top : List (Tree α)) (below : List (List (Tree α))) (root : Option (Tree α))
    (rest : List (Lexeme α)), below.length + 1 + tree.depth ≤ limit →
    run limit ⟨top :: below, root⟩ (tree.lexemes ++ rest) =
      run limit ⟨(top ++ [tree]) :: below, root⟩ rest

theorem Reads.all {limit : Nat} {trees : List (Tree α)} (h : ∀ tree ∈ trees, Reads limit tree)
    (top : List (Tree α)) {below : List (List (Tree α))}
    (hdepth : below.length + 1 + Tree.depthAll trees ≤ limit) (root : Option (Tree α)) (rest : List (Lexeme α)) :
    run limit ⟨top :: below, root⟩ (Tree.lexemesAll trees ++ rest) =
      run limit ⟨(top ++ trees) :: below, root⟩ rest := by
  induction trees generalizing top with
  | nil => simp [Tree.lexemesAll]
  | cons tree trees ih =>
    rw [List.forall_mem_cons] at h
    simp only [Tree.depthAll] at hdepth
    have htree := h.1 top below root (Tree.lexemesAll trees ++ rest) (by omega)
    rw [Tree.lexemesAll, List.append_assoc, htree, ih h.2 _ (by omega), List.append_assoc,
      List.singleton_append]

/-- The opening bracket of a list and all its children. -/
theorem Reads.children {limit : Nat} {children : List (Tree α)}
    (h : ∀ tree ∈ children, Reads limit tree) (stack : List (List (Tree α)))
    (hdepth : stack.length + (Tree.list children).depth ≤ limit) (root : Option (Tree α))
    (rest : List (Lexeme α)) :
    run limit ⟨stack, root⟩ ((Tree.list children).lexemes ++ rest) =
      run limit ⟨children :: stack, root⟩ (.closing :: rest) := by
  simp only [Tree.depth] at hdepth
  have hopen : ¬ limit ≤ stack.length := by omega
  have hall := Reads.all h [] (show stack.length + 1 + _ ≤ limit by omega) root (.closing :: rest)
  rw [Tree.lexemes, List.cons_append, List.append_assoc, run, step, if_neg hopen]
  exact hall

theorem read_tree (limit : Nat) (tree : Tree α) : Reads limit tree := by
  induction tree using Tree.ind with
  | atom value =>
    intro top below root rest _
    rfl
  | list children ih =>
    intro top below root rest hdepth
    rw [Reads.children ih _ (by simpa using hdepth)]
    rfl

/-- The tree that the lexemes of a whole text are read as. -/
def read (limit : Nat) (lexemes : List (Lexeme α)) : Except Fault (Tree α) :=
  run limit ⟨[], none⟩ lexemes >>= finish

/-- A list within the limit is read back from its lexemes. -/
theorem read_lexemes {limit : Nat} {tree : Tree α} (hlist : tree.isList = true)
    (hdepth : tree.depth ≤ limit) : read limit tree.lexemes = .ok tree := by
  match tree, hlist with
  | .list children, _ =>
    have hchildren := Reads.children (fun tree _ => read_tree limit tree) []
      (by simpa using hdepth) none []
    rw [List.append_nil] at hchildren
    rw [read, hchildren]
    rfl

/-- **The reader reads exactly the lists within the limit**, each from its own lexemes. -/
theorem read_eq_ok {limit : Nat} {lexemes : List (Lexeme α)} {tree : Tree α} :
    read limit lexemes = .ok tree ↔
      lexemes = tree.lexemes ∧ tree.isList = true ∧ tree.depth ≤ limit := by
  constructor
  · intro h
    cases hrun : run limit (⟨[], none⟩ : Reader α) lexemes with
    | error fault =>
      rw [read, hrun] at h
      cases h
    | ok r =>
      rw [read, hrun] at h
      have hstart : (⟨[], none⟩ : Reader α).Good limit :=
        ⟨trivial, by rintro _ ⟨⟩, by rintro _ ⟨⟩⟩
      obtain ⟨htext, hgood⟩ := run_text hrun hstart
      match r, h with
      | ⟨[], some found⟩, h =>
        cases h
        refine ⟨?_, hgood.root_list tree rfl, hgood.root_depth tree rfl⟩
        simpa [text, pending] using htext.symm
  · rintro ⟨rfl, hlist, hdepth⟩
    exact read_lexemes hlist hdepth

end Reader

end ComponentKb.Lib.Brackets
