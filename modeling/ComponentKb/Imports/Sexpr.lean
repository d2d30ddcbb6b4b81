import ComponentKb.Catalog.Text
import ComponentKb.Lib.Brackets
import ComponentKb.Lib.Checked
import Mathlib

/-!
# The S-expression reader

Model of `imports/adapters/sexpr.py`. `_tokenize` returns the tokens of a text as plain strings: a
quoted string loses its quotes there. `parse_sexpression` takes a token for a bracket when it is the
string `(` or `)`.

* `tokenizeAs` is `_tokenize` with a choice of what a token is; `tokenize` keeps the string only,
  `lexemes` also remembers the quotes.
* `parseTokens_eq`: the loop of `parse_sexpression` is the reader of `Lib/Brackets.lean`.
* `parseSexpression_eq_ok`: what is accepted, and as what.
* `tokenizeAs_print`: the tokens of a printed tree.
* **`reader_inverts_printing_iff`**: a printed tree is read back iff none of its atoms is a bracket,
  and an accepted text is the tree it is read as iff no quoted string of it is a bracket.
-/

namespace ComponentKb.Imports

open Catalog Lib Lib.Brackets

/-- An atom, or the children of a list. -/
abbrev SExpression := Brackets.Tree String

/-! ## The tokens of a text -/

/-- The characters `(` and `)`. -/
def isBracket (c : Char) : Bool := c = '(' || c = ')'

/-- The character that a backslash and `c` stand for. -/
def escapes (c : Char) : Char :=
  if c = 'n' then '\n' else if c = 'r' then '\r' else if c = 't' then '\t' else c

/-- A quoted string up to its closing quote, and the text after it. -/
def quoted : List Char → Except String (List Char × List Char)
  | [] => .error "sexpression_unterminated_string"
  | '"' :: rest => .ok ([], rest)
  | ['\\'] => .error "sexpression_invalid_escape"
  | '\\' :: c :: rest => (quoted rest).map fun (value, rest) => (escapes c :: value, rest)
  | c :: rest => (quoted rest).map fun (value, rest) => (c :: value, rest)

/-- A character that goes on with a bare word: a quote inside one is part of it. -/
def inWord (c : Char) : Bool := !isSpace c && !isBracket c

theorem quoted_length {text value rest : List Char} (h : quoted text = .ok (value, rest)) :
    rest.length < text.length := by
  induction text using quoted.induct generalizing value with
  | case1 => cases h
  | case2 after =>
    cases h
    exact Nat.lt_succ_self _
  | case3 => cases h
  | case4 c after ih =>
    rw [quoted, map_eq_ok] at h
    obtain ⟨found, hq, hfound⟩ := h
    cases hfound
    have := ih hq
    simp only [List.length_cons]
    omega
  | case5 c after hquote hend hescape ih =>
    rw [quoted.eq_5 c after hquote hend hescape, map_eq_ok] at h
    obtain ⟨found, hq, hfound⟩ := h
    cases hfound
    have := ih hq
    simp only [List.length_cons]
    omega

variable {τ : Type}

/-- `_tokenize`, where `token` says what becomes of a string read with or without quotes. -/
def tokenizeAs (token : Bool → String → τ) (text : List Char) : Except String (List τ) :=
  match text with
  | [] => .ok []
  | c :: rest =>
    if isSpace c then tokenizeAs token rest
    else if isBracket c then
      (tokenizeAs token rest).map (token false (String.singleton c) :: ·)
    else if c = '"' then
      match _h : quoted rest with
      | .error e => .error e
      | .ok (value, after) =>
        (tokenizeAs token after).map (token true (String.ofList value) :: ·)
    else
      (tokenizeAs token (rest.dropWhile inWord)).map
        (token false (String.ofList (c :: rest.takeWhile inWord)) :: ·)
termination_by text.length
decreasing_by
  · simp
  · simp
  · have := quoted_length _h
    simp only [List.length_cons]
    omega
  · have := (List.dropWhile_sublist inWord (l := rest)).length_le
    simp only [List.length_cons]
    omega

/-- `_tokenize`. -/
def tokenize (text : List Char) : Except String (List String) :=
  tokenizeAs (fun _ value => value) text

/-- The tokens with the note whether they were quoted. -/
def scan (text : List Char) : Except String (List (Bool × String)) :=
  tokenizeAs Prod.mk text

/-! ## The bracket loop -/

/-- The loop of `parse_sexpression`. The innermost open list is the head of `stack`. -/
def parseTokens : List String → List (List SExpression) → Option SExpression →
    Except String SExpression
  | [], [], some root => .ok root
  | [], _, _ => .error "sexpression_unbalanced"
  | lexeme :: rest, stack, root =>
    if lexeme = "(" then
      if 128 ≤ stack.length then .error "sexpression_depth_limit"
      else parseTokens rest ([] :: stack) root
    else if lexeme = ")" then
      match stack, root with
      | [], _ => .error "sexpression_unbalanced"
      | [top], none => parseTokens rest [] (some (.list top))
      | [_], some _ => .error "sexpression_multiple_roots"
      | top :: next :: below, root => parseTokens rest ((next ++ [.list top]) :: below) root
    else
      match stack with
      | [] => .error "sexpression_atom_outside_root"
      | top :: below => parseTokens rest ((top ++ [.atom lexeme]) :: below) root

/-- `parse_sexpression`. -/
def parseSexpression (content : ByteArray) : Except String SExpression :=
  if 2 * 1024 * 1024 < content.size then .error "sexpression_too_large" else do
    let text ← fromSome (String.fromUTF8? content) "sexpression_not_utf8"
    let tokens ← tokenize text.toList
    require (tokens.length ≤ 250000) "sexpression_token_limit"
    parseTokens tokens [] none

/-! ## The loop and the reader -/

/-- What the loop takes a token for. -/
def kind (token : String) : Lexeme String :=
  if token = "(" then .opening else if token = ")" then .closing else .atom token

/-- The text of the error that a fault of the reader is reported with. -/
def message : Fault → String
  | .depth => "sexpression_depth_limit"
  | .unbalanced => "sexpression_unbalanced"
  | .roots => "sexpression_multiple_roots"
  | .outside => "sexpression_atom_outside_root"

/-- The loop is the reader with a limit of 128 open lists. -/
theorem parseTokens_eq (tokens : List String) (stack : List (List SExpression))
    (root : Option SExpression) :
    parseTokens tokens stack root =
      (Reader.run 128 ⟨stack, root⟩ (tokens.map kind) >>= Reader.finish).mapError message := by
  induction tokens generalizing stack root with
  | nil => cases stack <;> cases root <;> rfl
  | cons token rest ih =>
    rw [parseTokens.eq_def, List.map_cons, Reader.run]
    by_cases hopen : token = "("
    · have hkind : kind token = .opening := by simp [kind, hopen]
      rw [hkind, Reader.step]
      simp only [if_pos hopen]
      split
      · rfl
      · exact ih _ _
    by_cases hclose : token = ")"
    · have hkind : kind token = .closing := by simp [kind, hclose]
      rw [hkind]
      simp only [if_neg hopen, if_pos hclose]
      rcases stack with _ | ⟨top, _ | ⟨next, below⟩⟩
      · cases root <;> rfl
      · cases root with
        | none => exact ih _ _
        | some _ => rfl
      · exact ih _ _
    · have hkind : kind token = .atom token := by simp [kind, hopen, hclose]
      rw [hkind]
      simp only [if_neg hopen, if_neg hclose]
      cases stack with
      | nil => rfl
      | cons top below => exact ih _ _

theorem parseTokens_eq_ok {tokens : List String} {tree : SExpression} :
    parseTokens tokens [] none = .ok tree ↔
      tokens.map kind = tree.lexemes ∧ tree.isList = true ∧ tree.depth ≤ 128 := by
  rw [parseTokens_eq, mapError_eq_ok]
  exact Reader.read_eq_ok

/-- What `parse_sexpression` accepts, and as what tree. -/
theorem parseSexpression_eq_ok {content : ByteArray} {tree : SExpression} :
    parseSexpression content = .ok tree ↔
      content.size ≤ 2 * 1024 * 1024 ∧ ∃ text, String.fromUTF8? content = some text ∧
        ∃ tokens, tokenize text.toList = .ok tokens ∧ tokens.length ≤ 250000 ∧
          tokens.map kind = tree.lexemes ∧ tree.isList = true ∧ tree.depth ≤ 128 := by
  rw [parseSexpression, ite_error_eq_ok, Nat.not_lt]
  simp only [bind_eq_ok, fromSome_eq_ok, require_eq_ok, parseTokens_eq_ok, exists_const]

/-! ## Quoted and bare tokens -/

/-- Another choice of what a token is renames the tokens. -/
theorem tokenizeAs_eq (token : Bool → String → τ) (text : List Char) :
    tokenizeAs token text = (scan text).map (List.map fun found => token found.1 found.2) := by
  have hmap : ∀ (x : Except String (List (Bool × String))) (quote : Bool) (value : String),
      (x.map (List.map fun found => token found.1 found.2)).map (token quote value :: ·) =
        (x.map ((quote, value) :: ·)).map (List.map fun found => token found.1 found.2) := by
    intro x quote value
    cases x <;> rfl
  unfold scan
  fun_induction tokenizeAs token text with
  | case1 => simp [tokenizeAs, Except.map]
  | case2 c rest hspace ih => rw [ih, tokenizeAs, if_pos hspace]
  | case3 c rest hspace hbracket ih =>
    rw [ih, hmap, tokenizeAs, if_neg hspace, if_pos hbracket]
  | case4 rest e he hspace hbracket =>
    rw [tokenizeAs, if_neg hspace, if_neg hbracket, if_pos rfl]
    split <;> simp_all [Except.map]
  | case5 rest value after hq hspace hbracket ih =>
    rw [ih, hmap]
    conv_rhs => rw [tokenizeAs, if_neg hspace, if_neg hbracket, if_pos rfl]
    split <;> simp_all
  | case6 c rest hspace hbracket hquote ih =>
    rw [ih, hmap]
    conv_rhs => rw [tokenizeAs, if_neg hspace, if_neg hbracket, if_neg hquote]

/-- What the text means: a quoted string is an atom, whatever it contains. -/
def lexeme (quote : Bool) (value : String) : Lexeme String :=
  if quote then .atom value else kind value

/-- The lexemes of a text. -/
def lexemes (text : List Char) : Except String (List (Lexeme String)) :=
  tokenizeAs lexeme text

/-! ## Printing -/

/-- A quote or a backslash is printed with a backslash before it. -/
def escaped (value : List Char) : List Char :=
  value.flatMap fun c => if c = '"' || c = '\\' then ['\\', c] else [c]

mutual

def printed : SExpression → List Char
  | .atom value => '"' :: (escaped value.toList ++ ['"'])
  | .list children => '(' :: (printedAll children ++ [')'])

def printedAll : List SExpression → List Char
  | [] => []
  | [tree] => printed tree
  | tree :: next :: trees => printed tree ++ ' ' :: printedAll (next :: trees)

end

/-- The bytes of a printed tree. -/
def print (tree : SExpression) : ByteArray := (String.ofList (printed tree)).toUTF8

theorem quoted_escaped (value rest : List Char) :
    quoted (escaped value ++ '"' :: rest) = .ok (value, rest) := by
  induction value with
  | nil => rfl
  | cons c value ih =>
    have hcons : escaped (c :: value) =
        (if c = '"' || c = '\\' then ['\\', c] else [c]) ++ escaped value := rfl
    by_cases hquote : c = '"'
    · subst hquote
      rw [hcons, if_pos (by decide), List.append_assoc]
      exact congrArg (Except.map _) ih
    by_cases hescape : c = '\\'
    · subst hescape
      rw [hcons, if_pos (by decide), List.append_assoc]
      exact congrArg (Except.map _) ih
    · rw [hcons, if_neg (by simp [hquote, hescape]), List.append_assoc, List.singleton_append,
        quoted.eq_5 c _ hquote (fun h _ => hescape h) (fun _ _ h _ => hescape h), ih]
      rfl

theorem tokenizeAs_space (token : Bool → String → τ) (rest : List Char) :
    tokenizeAs token (' ' :: rest) = tokenizeAs token rest := by
  rw [tokenizeAs, if_pos (by decide)]

theorem tokenizeAs_bracket (token : Bool → String → τ) {c : Char} (hc : isBracket c = true)
    (rest : List Char) : tokenizeAs token (c :: rest) =
      (tokenizeAs token rest).map (token false (String.singleton c) :: ·) := by
  have hspace : ¬ isSpace c = true := by
    simp only [isBracket, Bool.or_eq_true, decide_eq_true_eq] at hc
    rcases hc with rfl | rfl <;> decide
  rw [tokenizeAs, if_neg hspace, if_pos hc]

theorem tokenizeAs_atom (token : Bool → String → τ) (value : String) (rest : List Char) :
    tokenizeAs token ('"' :: (escaped value.toList ++ '"' :: rest)) =
      (tokenizeAs token rest).map (token true value :: ·) := by
  rw [tokenizeAs, if_neg (by decide), if_neg (by decide), if_pos rfl]
  split
  · rename_i e he
    rw [quoted_escaped] at he
    cases he
  · rename_i found after hfound
    rw [quoted_escaped] at hfound
    cases hfound
    rw [String.ofList_toList]

/-- The token that a printed lexeme becomes. -/
def shown (token : Bool → String → τ) : Lexeme String → τ
  | .opening => token false "("
  | .closing => token false ")"
  | .atom value => token true value

/-- The tokens of the printed tree are its lexemes, each atom quoted. -/
def Prints (token : Bool → String → τ) (tree : SExpression) : Prop :=
  ∀ rest : List Char, tokenizeAs token (printed tree ++ rest) =
    (tokenizeAs token rest).map (tree.lexemes.map (shown token) ++ ·)

theorem map_append_map (x : Except String (List τ)) (xs ys : List τ) :
    (x.map (ys ++ ·)).map (xs ++ ·) = x.map ((xs ++ ys) ++ ·) := by
  cases x <;> simp [Except.map]

theorem Prints.all {token : Bool → String → τ} {trees : List SExpression}
    (h : ∀ tree ∈ trees, Prints token tree) (rest : List Char) :
    tokenizeAs token (printedAll trees ++ rest) =
      (tokenizeAs token rest).map ((Tree.lexemesAll trees).map (shown token) ++ ·) := by
  induction trees with
  | nil =>
    simp only [printedAll, Tree.lexemesAll, List.nil_append, List.map_nil]
    cases tokenizeAs token rest <;> rfl
  | cons tree trees ih =>
    rw [List.forall_mem_cons] at h
    cases trees with
    | nil => simpa [printedAll, Tree.lexemesAll] using h.1 rest
    | cons next trees =>
      have htree := h.1 (' ' :: (printedAll (next :: trees) ++ rest))
      rw [tokenizeAs_space, ih h.2, map_append_map, ← List.map_append] at htree
      rw [printedAll, List.append_assoc]
      exact htree

theorem prints (token : Bool → String → τ) (tree : SExpression) : Prints token tree := by
  induction tree using Tree.ind with
  | atom value =>
    intro rest
    rw [printed, List.cons_append, List.append_assoc]
    exact tokenizeAs_atom token value rest
  | list children ih =>
    intro rest
    have hclose := tokenizeAs_bracket token (c := ')') rfl rest
    have hopen := tokenizeAs_bracket token (c := '(') rfl (printedAll children ++ ')' :: rest)
    rw [Prints.all ih, hclose] at hopen
    rw [printed, List.cons_append, List.append_assoc]
    refine hopen.trans ?_
    cases tokenizeAs token rest <;> simp [Except.map, Tree.lexemes, shown]

/-- The tokens of a printed tree. -/
theorem tokenizeAs_print (token : Bool → String → τ) (tree : SExpression) :
    tokenizeAs token (printed tree) = .ok (tree.lexemes.map (shown token)) := by
  have h := prints token tree []
  rw [List.append_nil, tokenizeAs] at h
  simpa [Except.map] using h

/-- A tree that the reader has room for. -/
structure Fits (tree : SExpression) : Prop where
  is_list : tree.isList = true
  size : (print tree).size ≤ 2 * 1024 * 1024
  tokens : tree.lexemes.length ≤ 250000
  depth : tree.depth ≤ 128

/-- The quoted strings of a text. -/
def quotedStrings (content : ByteArray) : List String :=
  match String.fromUTF8? content with
  | none => []
  | some text =>
    match scan text.toList with
    | .error _ => []
    | .ok tokens => (tokens.filter Prod.fst).map Prod.snd

/-- The text is the one list `tree`: its unquoted brackets are the brackets of the list, and its
quoted strings are atoms. -/
def Consists (content : ByteArray) (tree : SExpression) : Prop :=
  tree.isList = true ∧
    ∃ text, String.fromUTF8? content = some text ∧ lexemes text.toList = .ok tree.lexemes

theorem fromUTF8_toUTF8 (s : String) : String.fromUTF8? s.toUTF8 = some s := by
  have hvalid : s.toUTF8.IsValidUTF8 := s.isValidUTF8
  rw [String.fromUTF8?, dif_pos hvalid]
  rfl

theorem kind_eq_atom {value : String} : kind value = .atom value ↔ value ≠ "(" ∧ value ≠ ")" := by
  unfold kind
  split
  · simp_all
  · split <;> simp_all

/-- A printed tree is read as the tokens without their quotes are. -/
theorem parse_print {tree : SExpression} (hfits : Fits tree) {tree' : SExpression} :
    parseSexpression (print tree) = .ok tree' ↔
      tree.lexemes.map (kind ∘ shown fun _ value => value) = tree'.lexemes ∧
        tree'.isList = true ∧ tree'.depth ≤ 128 := by
  rw [parseSexpression_eq_ok]
  have htokens := tokenizeAs_print (fun _ value => value) tree
  constructor
  · rintro ⟨-, text, htext, tokens, htoken, -, h⟩
    rw [print, fromUTF8_toUTF8] at htext
    cases htext
    rw [tokenize, String.toList_ofList, htokens] at htoken
    cases htoken
    rwa [List.map_map] at h
  · intro h
    refine ⟨hfits.size, String.ofList (printed tree), fromUTF8_toUTF8 _,
      tree.lexemes.map (shown fun _ value => value), ?_, ?_, ?_⟩
    · rw [tokenize, String.toList_ofList]
      exact htokens
    · rw [List.length_map]
      exact hfits.tokens
    · rwa [List.map_map]

/-- A printed tree is read back iff none of its atoms is a bracket. -/
theorem parse_print_iff {tree : SExpression} (hfits : Fits tree) :
    parseSexpression (print tree) = .ok tree ↔ "(" ∉ tree.atoms ∧ ")" ∉ tree.atoms := by
  have hmap : tree.lexemes.map (kind ∘ shown fun _ value => value) = tree.lexemes ↔
      ∀ value ∈ tree.atoms, kind value = .atom value := by
    conv_lhs => rhs; rw [← List.map_id tree.lexemes]
    rw [List.map_inj_left]
    constructor
    · intro h value hvalue
      exact h (.atom value) ((Tree.atom_mem_lexemes tree).2 hvalue)
    · rintro h (_ | _ | value) hmem
      · rfl
      · rfl
      · exact h value ((Tree.atom_mem_lexemes tree).1 hmem)
  rw [parse_print hfits, hmap]
  constructor
  · rintro ⟨h, -⟩
    exact ⟨fun hopen => (kind_eq_atom.1 (h _ hopen)).1 rfl,
      fun hclose => (kind_eq_atom.1 (h _ hclose)).2 rfl⟩
  · rintro ⟨hopen, hclose⟩
    refine ⟨fun value hvalue => kind_eq_atom.2 ⟨?_, ?_⟩, hfits.is_list, hfits.depth⟩
    · rintro rfl
      exact hopen hvalue
    · rintro rfl
      exact hclose hvalue

/-- An accepted text is the list it is read as iff no quoted string of it is a bracket. -/
theorem consists_iff {content : ByteArray} {tree : SExpression}
    (h : parseSexpression content = .ok tree) :
    Consists content tree ↔ "(" ∉ quotedStrings content ∧ ")" ∉ quotedStrings content := by
  obtain ⟨-, text, htext, tokens, htoken, -, hkind, hlist, -⟩ := parseSexpression_eq_ok.1 h
  rw [tokenize, tokenizeAs_eq, map_eq_ok] at htoken
  obtain ⟨found, hscan, rfl⟩ := htoken
  have hquoted : quotedStrings content = (found.filter Prod.fst).map Prod.snd := by
    simp only [quotedStrings, htext, hscan]
  have hlexemes : lexemes text.toList = .ok (found.map fun token => lexeme token.1 token.2) := by
    rw [lexemes, tokenizeAs_eq, hscan]
    rfl
  rw [List.map_map] at hkind
  have hconsists : Consists content tree ↔
      ∀ token ∈ found, lexeme token.1 token.2 = kind token.2 := by
    rw [← List.map_inj_left]
    constructor
    · rintro ⟨-, text', htext', hread⟩
      rw [htext] at htext'
      cases htext'
      rw [hlexemes] at hread
      exact (Except.ok.inj hread).trans hkind.symm
    · intro hread
      exact ⟨hlist, text, htext, hlexemes.trans (congrArg Except.ok (hread.trans hkind))⟩
  rw [hconsists, hquoted]
  simp only [List.mem_map, List.mem_filter, not_exists, not_and]
  constructor
  · intro hall
    refine ⟨?_, ?_⟩
    · rintro ⟨quote, value⟩ ⟨hmem, hquote⟩ hvalue
      have := hall _ hmem
      simp only at hquote hvalue
      simp [lexeme, kind, hquote, hvalue] at this
    · rintro ⟨quote, value⟩ ⟨hmem, hquote⟩ hvalue
      have := hall _ hmem
      simp only at hquote hvalue
      simp [lexeme, kind, hquote, hvalue] at this
  · rintro ⟨hopen, hclose⟩ ⟨quote, value⟩ hmem
    cases quote with
    | false => rfl
    | true => exact (kind_eq_atom.2 ⟨hopen _ ⟨hmem, rfl⟩, hclose _ ⟨hmem, rfl⟩⟩).symm

/-- **The reader inverts printing exactly where no quoted string is a bracket.** A printed list is
read back iff none of its atoms is `(` or `)`; and a text that is accepted consists of the one list
it is read as iff none of its quoted strings is `(` or `)`. -/
theorem reader_inverts_printing_iff (tree : SExpression) (content : ByteArray)
    (accepted : SExpression) :
    (Fits tree →
      (parseSexpression (print tree) = .ok tree ↔ "(" ∉ tree.atoms ∧ ")" ∉ tree.atoms)) ∧
    (parseSexpression content = .ok accepted →
      (Consists content accepted ↔
        "(" ∉ quotedStrings content ∧ ")" ∉ quotedStrings content)) :=
  ⟨fun hfits => parse_print_iff hfits, fun h => consists_iff h⟩

/-- Atoms with spaces, quotes, backslashes and brackets inside are read back. -/
theorem quoted_words : parseSexpression (print (.list [.atom "a (b", .atom "\"\\", .list []])) =
    .ok (.list [.atom "a (b", .atom "\"\\", .list []]) :=
  ((reader_inverts_printing_iff (.list [.atom "a (b", .atom "\"\\", .list []]) ByteArray.empty
    (.list [])).1 ⟨rfl, by decide +kernel, by decide, by decide⟩).2 (by decide)

/-- A list whose only atom is a quoted bracket is not read back, and a text that begins with a
quoted bracket is accepted as a list. -/
theorem quoted_bracket :
    (Fits (.list [.atom "("]) ∧
      parseSexpression (print (.list [.atom "("])) ≠ .ok (.list [.atom "("])) ∧
    parseSexpression "\"(\" a)".toUTF8 = .ok (.list [.atom "a"]) ∧
    ¬ Consists "\"(\" a)".toUTF8 (.list [.atom "a"]) := by
  have hfits : Fits (.list [.atom "("]) := ⟨rfl, by decide +kernel, by decide, by decide⟩
  have hparse : parseSexpression "\"(\" a)".toUTF8 = .ok (.list [.atom "a"]) :=
    parseSexpression_eq_ok.2 ⟨by decide +kernel, _, fromUTF8_toUTF8 _, ["(", "a", ")"],
      by decide +kernel, by decide, by decide, rfl, by decide⟩
  refine ⟨⟨hfits, ?_⟩, hparse, ?_⟩
  · rw [Ne, parse_print_iff hfits]
    decide
  · rw [consists_iff hparse]
    decide +kernel

end ComponentKb.Imports
