import ComponentKb.Imports.Acquisition
import ComponentKb.Imports.Canonical

/-!
# Approved URLs

What `approve_source_url` accepts, what it returns, and what becomes of it when it is approved again
or pinned to an address.

* `approveSourceUrl_iff`: the values that are approved, and what is returned.
* `urlsplit_serialized`: a canonical URL is split into the parts it was put together from.
* **`approval_iff`**: when the approval of a URL is total, canonical and safe.
-/

namespace ComponentKb.Imports

open Catalog Lib

/-! ## Splitting -/

section Splitting

variable {u : Unicode} {t : HostTables} {path query : List Char}

/-- The authority that `urlsplit` finds in a URL. -/
def authorityOf (value : String) : Option (List Char) :=
  let url := (value.toList.dropWhile fun c => c.toNat ≤ 0x20).filter fun c =>
    c ∉ ['\t', '\r', '\n']
  let rest := (splitScheme url).2
  if ['/', '/'].isPrefixOf rest then some ((rest.drop 2).takeWhile fun c => !endsAuthority c)
  else none

/-- The authorities for which `urlsplit` raises nothing. -/
structure Splits (u : Unicode) (netloc : List Char) : Prop where
  balanced : '[' ∈ netloc ↔ ']' ∈ netloc
  bracketed : '[' ∈ netloc → bracketedNetloc netloc
  normal : netlocNormal u netloc

/-- `urlsplit` fails on the authority only. -/
theorem urlsplit_ok_iff {value : String} :
    (∃ parsed, urlsplit u value = .ok parsed) ↔ ∀ netloc ∈ authorityOf value, Splits u netloc := by
  unfold urlsplit authorityOf
  simp only
  generalize splitScheme _ = parts
  obtain ⟨scheme, url⟩ := parts
  simp only
  split
  · rename_i hauthority
    constructor
    · rintro ⟨parsed, h⟩ netloc hnetloc
      obtain ⟨hbalanced, h⟩ := seq_eq_ok.mp h
      obtain ⟨hbracketed, h⟩ := seq_eq_ok.mp h
      obtain ⟨hnormal, -⟩ := seq_eq_ok.mp h
      obtain rfl := Option.some.inj hnetloc
      exact ⟨require_eq_ok.mp hbalanced, require_eq_ok.mp hbracketed, require_eq_ok.mp hnormal⟩
    · intro h
      obtain ⟨hbalanced, hbracketed, hnormal⟩ := h _ rfl
      refine ⟨_, seq_eq_ok.mpr ⟨require_eq_ok.mpr hbalanced, seq_eq_ok.mpr
        ⟨require_eq_ok.mpr hbracketed, seq_eq_ok.mpr ⟨require_eq_ok.mpr hnormal, rfl⟩⟩⟩⟩
  · exact ⟨fun _ _ h => (Option.not_mem_none _ h).elim, fun _ => ⟨_, rfl⟩⟩

/-- The hosts are plain names. -/
theorem allowedSourceHosts_plain : ∀ host ∈ allowedSourceHosts,
    (∀ c ∈ host.toList, (c.isAlphanum ∨ c = '.' ∨ c = '-') ∧ c.toNat < 128) ∧
      host.toList.getLast? ≠ some '.' ∧ host ≠ "" := by
  decide +kernel

theorem netloc_host {host : String} (h : host ∈ allowedSourceHosts) {c : Char}
    (hc : c ∉ ['.', '-']) (hno : ¬ c.isAlphanum) : c ∉ host.toList := by
  intro hmem
  rcases ((allowedSourceHosts_plain host h).1 c hmem).1 with hc' | rfl | rfl
  · exact hno hc'
  · exact hc List.mem_cons_self
  · exact hc (List.mem_cons_of_mem _ List.mem_cons_self)

theorem splitUserinfo_plain {netloc : List Char} (h : '@' ∉ netloc) :
    splitUserinfo netloc = (none, netloc) := by
  have hwhole : netloc.reverse.takeWhile (· ≠ '@') = netloc.reverse := by
    refine List.takeWhile_eq_self_iff.mpr fun c hc => ?_
    simpa using fun heq : c = '@' => h (heq ▸ List.mem_reverse.mp hc)
  unfold splitUserinfo
  rw [hwhole, List.reverse_reverse]
  exact if_pos rfl

theorem partition_plain {c : Char} {text : List Char} (h : c ∉ text) :
    partition c text = (text, []) := by
  have hwhole : text.takeWhile (· ≠ c) = text := by
    refine List.takeWhile_eq_self_iff.mpr fun d hd => ?_
    simpa using fun heq : d = c => h (heq ▸ hd)
  unfold partition
  simp only [hwhole, List.drop_eq_nil_of_le (Nat.le_succ text.length)]

theorem partition_append {c : Char} {before after : List Char} (h : c ∉ before) :
    partition c (before ++ c :: after) = (before, after) := by
  have htake : (before ++ c :: after).takeWhile (· ≠ c) = before := by
    rw [List.takeWhile_append_of_pos fun d hd => by
      simpa using fun heq : d = c => h (heq ▸ hd)]
    simp
  have hdrop : (before ++ c :: after).drop (before.length + 1) = after := by
    rw [← List.drop_drop, List.drop_left]
    rfl
  unfold partition
  simp only [htake, hdrop]

theorem hostinfo_plain {netloc : List Char} (huser : '@' ∉ netloc) (hbracket : '[' ∉ netloc)
    (hport : ':' ∉ netloc) : hostinfo netloc = (netloc, []) := by
  unfold hostinfo
  rw [splitUserinfo_plain huser]
  simp only [hbracket, if_false, partition_plain hport]

/-- **A canonical URL is split into the parts it was put together from.** -/
theorem urlsplit_serialized {host : String} (hhost : host ∈ allowedSourceHosts)
    (hvisible : ∀ c ∈ path ++ query, 0x20 < c.toNat) (hroot : path.head? = some '/')
    (hpath : '#' ∉ path ∧ '?' ∉ path) (hquery : '#' ∉ query) :
    urlsplit u (String.ofList (https ++ host.toList ++ withQuery path query)) =
      .ok { scheme := "https", netloc := host.toList, path, query } := by
  obtain ⟨hplain, -, -⟩ := allowedSourceHosts_plain host hhost
  have hrest : ∀ c ∈ withQuery path query, 0x20 < c.toNat := by
    intro c hc
    unfold withQuery at hc
    rcases List.mem_append.mp hc with hc | hc
    · exact hvisible c (List.mem_append_left _ hc)
    · split at hc
      · cases hc
      · rcases List.mem_cons.mp hc with rfl | hc
        · decide
        · exact hvisible c (List.mem_append_right _ hc)
  have hhostVisible : ∀ c ∈ host.toList, 0x20 < c.toNat := by
    have hall : ∀ host ∈ allowedSourceHosts, ∀ c ∈ host.toList, 0x20 < c.toNat := by
      decide +kernel
    exact hall host hhost
  have hall : ∀ c ∈ https ++ host.toList ++ withQuery path query, 0x20 < c.toNat := by
    intro c hc
    rcases List.mem_append.mp hc with hc | hc
    · rcases List.mem_append.mp hc with hc | hc
      · have hscheme : ∀ c ∈ https, 0x20 < c.toNat := by decide
        exact hscheme c hc
      · exact hhostVisible c hc
    · exact hrest c hc
  have hdrop : (https ++ host.toList ++ withQuery path query).dropWhile
      (fun c => c.toNat ≤ 0x20) = https ++ host.toList ++ withQuery path query := by
    refine List.dropWhile_eq_self_iff.mpr fun hlen => ?_
    have := hall _ (List.getElem_mem hlen)
    simpa using this
  have hfilter : (https ++ host.toList ++ withQuery path query).filter
      (fun c => c ∉ ['\t', '\r', '\n']) = https ++ host.toList ++ withQuery path query := by
    refine List.filter_eq_self.mpr fun c hc => ?_
    have hc := hall c hc
    simp only [List.mem_cons, List.not_mem_nil, or_false, decide_eq_true_eq]
    rintro (rfl | rfl | rfl) <;> exact absurd hc (by decide)
  have hscheme : splitScheme (https ++ host.toList ++ withQuery path query) =
      ("https", '/' :: '/' :: (host.toList ++ withQuery path query)) := by
    have htake : (https ++ host.toList ++ withQuery path query).takeWhile (· ≠ ':') =
        ['h', 't', 't', 'p', 's'] := by
      simp [https]
    have hlength : 5 < (https ++ host.toList ++ withQuery path query).length := by
      rw [List.length_append, List.length_append]
      change 5 < 8 + _ + _
      omega
    have hvalid : (['h', 't', 't', 'p', 's'].head?.any fun c => c.isAlpha) = true := by decide
    have hletters : (['h', 't', 't', 'p', 's'].all fun c =>
        c.isAlphanum || decide (c ∈ ['+', '-', '.'])) = true := by decide
    unfold splitScheme
    simp only [htake, hvalid, hletters, Bool.and_true, List.length_cons, List.length_nil,
      decide_eq_true_eq]
    rw [if_pos hlength]
    rfl
  -- the authority ends where the path starts
  have hauthority : (host.toList ++ withQuery path query).takeWhile (fun c => !endsAuthority c) =
      host.toList := by
    obtain ⟨tail, rfl⟩ : ∃ tail, path = '/' :: tail := by
      obtain ⟨c, tail, rfl⟩ := List.exists_cons_of_ne_nil (l := path) (by
        rintro rfl
        cases hroot)
      exact ⟨tail, by rw [Option.some.inj hroot]⟩
    rw [List.takeWhile_append_of_pos fun c hc => ?_]
    · unfold withQuery
      rw [List.cons_append, List.takeWhile_cons_of_neg (by decide), List.append_nil]
    · have hends : ∀ d ∈ ['/', '?', '#'], d ∉ host.toList := by
        intro d hd
        simp only [List.mem_cons, List.not_mem_nil, or_false] at hd
        obtain rfl | rfl | rfl := hd <;> exact netloc_host hhost (by decide) (by decide)
      have hslash : c ≠ '/' := fun heq => hends '/' (by decide) (heq ▸ hc)
      have hmark : c ≠ '?' := fun heq => hends '?' (by decide) (heq ▸ hc)
      have hhash : c ≠ '#' := fun heq => hends '#' (by decide) (heq ▸ hc)
      simp [endsAuthority, hslash, hmark, hhash]
  have hparts : splitPath (withQuery path query) = (path, query) := by
    have hfragment : '#' ∉ withQuery path query := by
      intro hmem
      unfold withQuery at hmem
      rcases List.mem_append.mp hmem with hmem | hmem
      · exact hpath.1 hmem
      · split at hmem
        · cases hmem
        · rcases List.mem_cons.mp hmem with hmem | hmem
          · cases hmem
          · exact hquery hmem
    unfold splitPath
    rw [partition_plain hfragment]
    unfold withQuery
    by_cases hnil : query = []
    · rw [if_pos hnil, List.append_nil, partition_plain hpath.2, hnil]
    · rw [if_neg hnil, partition_append hpath.2]
  have hleft : '[' ∉ host.toList := netloc_host hhost (by decide) (by decide)
  have hright : ']' ∉ host.toList := netloc_host hhost (by decide) (by decide)
  have hnormal : netlocNormal u host.toList := by
    have hascii : host.toList.all fun c => c.toNat < 128 := by
      simpa using fun c hc => (hplain c hc).2
    simp [netlocNormal, hascii]
  have hprefix : ['/', '/'].isPrefixOf ('/' :: '/' :: (host.toList ++ withQuery path query)) = true :=
    rfl
  have hend : ('/' :: '/' :: (host.toList ++ withQuery path query)).drop (2 + host.toList.length) =
      withQuery path query := by
    rw [← List.drop_drop]
    exact List.drop_left
  unfold urlsplit
  rw [String.toList_ofList, hdrop, hfilter]
  simp only [hscheme, hprefix, if_true, List.drop_succ_cons, List.drop_zero, hauthority, hleft,
    hright, hnormal, require, hend, hparts]
  rfl

end Splitting

/-! ## Approval -/

section Approval

variable {u : Unicode} {t : HostTables} {value host : String} {parsed : SplitResult}
  {decoded : List Char}

/-- A value that is approved: how it is split, its host, and its path when it is decoded. -/
structure Approvable (u : Unicode) (t : HostTables) (value : String) (parsed : SplitResult)
    (host : String) (decoded : List Char) : Prop where
  visible : value ≠ "" ∧ value.length ≤ 2048 ∧ ∀ c ∈ value.toList, 0x20 < c.toNat ∧ c.toNat ≠ 0x7f
  split : urlsplit u value = .ok parsed
  scheme : parsed.scheme = "https"
  anonymous : ¬ parsed.hasUser ∧ ¬ parsed.hasPassword
  port : parsed.port = .ok none ∨ parsed.port = .ok (some 443)
  named : (parsed.hostname t).bind (encodedHost t) = some host
  allowed : host ∈ allowedSourceHosts
  separators : '\\' ∉ parsed.path ∧ ¬ encodedSeparator parsed.path
  path : unquote (if parsed.path = [] then ['/'] else parsed.path) = some decoded

/-- The segments of a decoded path. -/
def segmentsOf (decoded : List Char) : List (List Char) := canonicalSegments (decoded.splitOn '/')

/-- The path that a decoded path stands for. -/
def normalPath (decoded : List Char) : List Char :=
  rooted (segmentsOf decoded) (keepsSlash decoded (segmentsOf decoded))

/-- What is returned for a host, a path and a query. -/
def serialized (host : String) (path query : List Char) : ApprovedUrl where
  url := String.ofList (https ++ host.toList ++ withQuery path query)
  host := host
  pathAndQuery := String.ofList (withQuery path query)

theorem Approvable.clean (h : Approvable u t value parsed host decoded) : '\\' ∉ decoded := by
  by_cases hpath : parsed.path = []
  · exact backslash_of_unquote (by simpa [hpath] using h.path) (by decide) (by decide)
  · exact backslash_of_unquote (by simpa [hpath] using h.path) h.separators.1 h.separators.2

theorem Approvable.segments (h : Approvable u t value parsed host decoded) :
    ∀ s ∈ segmentsOf decoded, Segment s :=
  fun _ hs => segment_of_decoded h.clean hs

theorem Approvable.canonicalPath (h : Approvable u t value parsed host decoded) :
    canonicalPath parsed.path = .ok (quote ('/' :: pathSafe) (normalPath decoded)) := by
  unfold Imports.canonicalPath normalPath
  rw [← normalized_eq h.segments, pathSafe_eq]
  exact seq_eq_ok.mpr ⟨require_eq_ok.mpr h.separators,
    bind_eq_ok.mpr ⟨decoded, fromSome_eq_ok.mpr h.path, rfl⟩⟩

/-- **What `approve_source_url` accepts, and what it returns.** -/
theorem approveSourceUrl_iff {approved : ApprovedUrl} :
    approveSourceUrl u t value = .ok approved ↔
      ∃ parsed host decoded, Approvable u t value parsed host decoded ∧
        approved = serialized host (quote ('/' :: pathSafe) (normalPath decoded)) parsed.query := by
  constructor
  · intro h
    unfold approveSourceUrl at h
    obtain ⟨hvisible, h⟩ := seq_eq_ok.mp h
    obtain ⟨parsed, hparsed, h⟩ := bind_eq_ok.mp h
    obtain ⟨hscheme, h⟩ := seq_eq_ok.mp h
    obtain ⟨hostname, hhostname, h⟩ := bind_eq_ok.mp h
    obtain ⟨hanonymous, h⟩ := seq_eq_ok.mp h
    obtain ⟨port, hport, h⟩ := bind_eq_ok.mp h
    obtain ⟨host, hhost, h⟩ := bind_eq_ok.mp h
    obtain ⟨hstandard, h⟩ := seq_eq_ok.mp h
    obtain ⟨hallowed, h⟩ := seq_eq_ok.mp h
    obtain ⟨path, hpath, h⟩ := bind_eq_ok.mp h
    cases h
    obtain ⟨decoded, hdecoded, -, rfl⟩ := canonicalPath_spec hpath
    unfold canonicalPath at hpath
    refine ⟨parsed, host, decoded, ?_, rfl⟩
    have hport := mapError_eq_ok.mp hport
    have hstandard : parsed.port = .ok none ∨ parsed.port = .ok (some 443) := by
      rcases require_eq_ok.mp hstandard with rfl | rfl
      · exact Or.inl hport
      · exact Or.inr hport
    exact
      { visible := require_eq_ok.mp hvisible
        split := hparsed
        scheme := require_eq_ok.mp hscheme
        anonymous := require_eq_ok.mp hanonymous
        port := hstandard
        named := by
          rw [fromSome_eq_ok.mp hhostname, Option.bind_some]
          exact fromSome_eq_ok.mp hhost
        allowed := require_eq_ok.mp hallowed
        separators := require_eq_ok.mp (seq_eq_ok.mp hpath).1
        path := hdecoded }
  · rintro ⟨parsed, host, decoded, h, rfl⟩
    obtain ⟨hostname, hhostname, hhost⟩ := Option.bind_eq_some_iff.mp h.named
    obtain ⟨port, hport, hstandard⟩ : ∃ port, parsed.port = .ok port ∧
        (port = none ∨ port = some 443) := by
      rcases h.port with hport | hport
      · exact ⟨none, hport, Or.inl rfl⟩
      · exact ⟨some 443, hport, Or.inr rfl⟩
    unfold approveSourceUrl
    refine seq_eq_ok.mpr ⟨require_eq_ok.mpr h.visible, bind_eq_ok.mpr ⟨parsed, h.split, ?_⟩⟩
    refine seq_eq_ok.mpr ⟨require_eq_ok.mpr h.scheme, ?_⟩
    refine bind_eq_ok.mpr ⟨hostname, fromSome_eq_ok.mpr hhostname, ?_⟩
    refine seq_eq_ok.mpr ⟨require_eq_ok.mpr h.anonymous, ?_⟩
    refine bind_eq_ok.mpr ⟨port, mapError_eq_ok.mpr hport, ?_⟩
    refine bind_eq_ok.mpr ⟨host, fromSome_eq_ok.mpr hhost, ?_⟩
    refine seq_eq_ok.mpr ⟨require_eq_ok.mpr hstandard, ?_⟩
    refine seq_eq_ok.mpr ⟨require_eq_ok.mpr h.allowed, ?_⟩
    exact bind_eq_ok.mpr ⟨_, h.canonicalPath, rfl⟩

/-- A computation that raises nothing but `SourcePolicyError`. -/
def OnlyPolicy {α : Type} (x : Except Fault α) : Prop :=
  ∀ e, x = .error e → ∃ code, e = .policy code

theorem OnlyPolicy.bind {α β : Type} {x : Except Fault α} {f : α → Except Fault β}
    (hx : OnlyPolicy x) (hf : ∀ a, x = .ok a → OnlyPolicy (f a)) : OnlyPolicy (x >>= f) := by
  intro e he
  cases hcase : x with
  | error e' =>
    rw [hcase] at he
    cases he
    exact hx e hcase
  | ok a =>
    rw [hcase] at he
    exact hf a hcase e he

theorem OnlyPolicy.ok {α : Type} (a : α) : OnlyPolicy (.ok a) := fun _ h => nomatch h

theorem OnlyPolicy.require {p : Prop} [Decidable p] (code : String) :
    OnlyPolicy (Lib.require p (.policy code)) := by
  intro e he
  unfold Lib.require at he
  split at he
  · cases he
  · cases he
    exact ⟨code, rfl⟩

theorem OnlyPolicy.fromSome {α : Type} (x : Option α) (code : String) :
    OnlyPolicy (Lib.fromSome x (.policy code)) := by
  intro e he
  cases x with
  | some a => cases he
  | none =>
    cases he
    exact ⟨code, rfl⟩

theorem OnlyPolicy.mapError {α : Type} (x : Except Fault α) (code : String) :
    OnlyPolicy (x.mapError fun _ => Fault.policy code) := by
  intro e he
  cases x with
  | ok a => cases he
  | error e' =>
    cases he
    exact ⟨code, rfl⟩

theorem onlyPolicy_canonicalPath (path : List Char) : OnlyPolicy (canonicalPath path) := by
  unfold canonicalPath
  refine .bind (.require _) fun _ _ => .bind (.fromSome _ _) fun _ _ => .ok _

theorem urlsplit_value (code : String) : urlsplit u value ≠ .error (.policy code) := by
  intro h
  unfold urlsplit at h
  simp only at h
  generalize splitScheme _ = parts at h
  obtain ⟨scheme, url⟩ := parts
  simp only at h
  split at h
  · unfold require at h
    split at h
    · split at h
      · split at h <;> cases h
      · cases h
    · cases h
  · cases h

/-- What is raised besides is raised by `urlsplit`. -/
theorem onlyPolicy_iff : OnlyPolicy (approveSourceUrl u t value) ↔
    (value ≠ "" ∧ value.length ≤ 2048 ∧
        (∀ c ∈ value.toList, 0x20 < c.toNat ∧ c.toNat ≠ 0x7f) →
      ∀ netloc ∈ authorityOf value, Splits u netloc) := by
  rw [← urlsplit_ok_iff]
  constructor
  · intro h hvisible
    cases hparsed : urlsplit u value with
    | ok parsed => exact ⟨parsed, rfl⟩
    | error e =>
      have hraised : approveSourceUrl u t value = .error e := by
        unfold approveSourceUrl
        rw [require, if_pos hvisible, hparsed]
        rfl
      obtain ⟨code, rfl⟩ := h e hraised
      exact absurd hparsed (urlsplit_value code)
  · intro h
    unfold approveSourceUrl
    refine .bind (.require _) fun _ hvisible => ?_
    obtain ⟨parsed, hparsed⟩ := h (require_eq_ok.mp hvisible)
    rw [hparsed]
    refine .bind (.ok _) fun parsed _ => .bind (.require _) fun _ _ => .bind (.fromSome _ _) ?_
    intro hostname _
    refine .bind (.require _) fun _ _ => .bind (.mapError _ _) fun port _ => ?_
    refine .bind (.fromSome _ _) fun host _ => .bind (.require _) fun _ _ => ?_
    refine .bind (.require _) fun _ _ => .bind (onlyPolicy_canonicalPath _) fun path _ => .ok _

end Approval

/-! ## What is returned -/

section Returned

variable {u : Unicode} {t : HostTables} {value host : String} {parsed : SplitResult}
  {decoded : List Char} {segments : List (List Char)} {slash : Bool}

/-- A path from the root whose segments are not empty, except for the last one, and do not lead back
or stay. -/
def Direct (path : List Char) : Prop :=
  ∃ parts, path.splitOn '/' = [] :: parts ∧ (∀ s ∈ parts.dropLast, s ≠ []) ∧
    ∀ s ∈ parts, s ≠ ['.'] ∧ s ≠ ['.', '.']

theorem direct_rooted (hsegments : ∀ s ∈ segments, Segment s) (hslash : slash → segments ≠ []) :
    Direct (rooted segments slash) := by
  refine ⟨segments ++ if slash ∨ segments = [] then [[]] else [],
    by rw [splitOn_rooted hsegments hslash, List.cons_append], fun s hs => ?_, fun s hs => ?_⟩
  · have hmem : s ∈ segments := by
      split at hs
      · rwa [List.dropLast_concat] at hs
      · rw [List.append_nil] at hs
        exact List.dropLast_subset _ hs
    exact (hsegments s hmem).nonempty
  · rcases List.mem_append.mp hs with hs | hs
    · exact ⟨(hsegments s hs).dot, (hsegments s hs).dots⟩
    · split at hs
      · rw [List.mem_singleton.mp hs]
        exact ⟨by decide, by decide⟩
      · cases hs

/-- A segment stays one when it is quoted. -/
theorem Segment.quote {s : List Char} (hs : Segment s) : Segment (quote pathSafe s) := by
  have hsafe : ∀ c ∈ pathSafe, isPlain c := fun c hc =>
    isPlain_pathSafe c (List.mem_cons_of_mem _ hc)
  have hback : unquote (Imports.quote pathSafe s) = some s := unquote_quote hsafe hs.nonempty
  have hne : ∀ text, unquote text ≠ some s → Imports.quote pathSafe s ≠ text := by
    rintro text hno rfl
    exact hno hback
  refine ⟨hne _ ?_, hne _ ?_, hne _ ?_, fun hmem => ?_, fun hmem => ?_⟩
  · intro h
    exact hs.nonempty (Option.some.inj h).symm
  · intro h
    have hdot : unquote ['.'] = some ['.'] := by decide +kernel
    exact hs.dot (Option.some.inj (h.symm.trans hdot))
  · intro h
    have hdots : unquote ['.', '.'] = some ['.', '.'] := by decide +kernel
    exact hs.dots (Option.some.inj (h.symm.trans hdots))
  · rw [quote_eq] at hmem
    obtain ⟨b, -, hmem⟩ := List.mem_flatMap.mp hmem
    unfold quoteByte at hmem
    simp only at hmem
    split at hmem
    · rename_i hplain
      rw [← List.mem_singleton.mp hmem] at hplain
      exact absurd hplain.2 (by decide)
    · simp only [List.mem_cons, List.not_mem_nil, or_false] at hmem
      obtain h | h | h := hmem
      · cases h
      · have halnum := (upperHex_spec ⟨_, upperHex_high b⟩).2.1
        rw [← h] at halnum
        exact absurd halnum (by decide)
      · have halnum := (upperHex_spec ⟨_, upperHex_low b⟩).2.1
        rw [← h] at halnum
        exact absurd halnum (by decide)
  · rcases mem_quote hsafe hmem with h | h
    · exact absurd h (by decide)
    · cases h

theorem quote_path (hsegments : ∀ s ∈ segments, Segment s) :
    quote ('/' :: pathSafe) (rooted segments slash) =
      rooted (segments.map (quote pathSafe)) slash :=
  (quote_rooted hsegments).symm

theorem keepsSlash_nonempty (h : keepsSlash decoded segments) : segments ≠ [] := by
  simp only [keepsSlash, Bool.and_eq_true, decide_eq_true_eq] at h
  exact h.2

theorem direct_quoted (hsegments : ∀ s ∈ segments, Segment s) (hslash : slash → segments ≠ []) :
    Direct (quote ('/' :: pathSafe) (rooted segments slash)) := by
  rw [quote_path hsegments]
  refine direct_rooted (fun quoted hquoted => ?_) fun h => by simpa using hslash h
  obtain ⟨s, hs, rfl⟩ := List.mem_map.mp hquoted
  exact (hsegments s hs).quote

/-- A canonical path stands for itself. -/
theorem normalPath_rooted (hsegments : ∀ s ∈ segments, Segment s)
    (hslash : slash → segments ≠ []) :
    normalPath (rooted segments slash) = rooted segments slash := by
  have hkept : segmentsOf (rooted segments slash) = segments := by
    rw [segmentsOf, splitOn_rooted hsegments hslash]
    refine canonicalSegments_rooted hsegments _ fun s hs => ?_
    split at hs
    · exact List.mem_singleton.mp hs
    · cases hs
  rw [normalPath, hkept, keepsSlash_rooted hsegments hslash]

theorem splitScheme_subset (url : List Char) : ∀ c ∈ (splitScheme url).2, c ∈ url := by
  intro c hc
  unfold splitScheme at hc
  simp only at hc
  split at hc
  · exact List.mem_of_mem_drop hc
  · exact hc

/-- The query is a part of the URL, and it ends before the fragment. -/
theorem mem_query (h : urlsplit u value = .ok parsed) :
    ∀ c ∈ parsed.query, c ∈ value.toList ∧ c ≠ '#' := by
  have hpart : ∀ text : List Char, ∀ c ∈ (splitPath text).2, c ∈ text ∧ c ≠ '#' := by
    intro text c hc
    have hmem : c ∈ text.takeWhile (· ≠ '#') := List.mem_of_mem_drop hc
    exact ⟨List.takeWhile_subset _ hmem, by simpa using List.mem_takeWhile_imp hmem⟩
  have hwhole : ∀ c ∈ (splitScheme ((value.toList.dropWhile fun c => c.toNat ≤ 0x20).filter
      fun c => c ∉ ['\t', '\r', '\n'])).2, c ∈ value.toList := by
    intro c hc
    exact List.dropWhile_subset _ (List.mem_of_mem_filter (splitScheme_subset _ c hc))
  unfold urlsplit at h
  simp only at h
  generalize splitScheme _ = parts at h hwhole
  obtain ⟨scheme, url⟩ := parts
  simp only at h hwhole
  intro c hc
  split at h
  · obtain ⟨-, h⟩ := seq_eq_ok.mp h
    obtain ⟨-, h⟩ := seq_eq_ok.mp h
    obtain ⟨-, h⟩ := seq_eq_ok.mp h
    cases h
    obtain ⟨hmem, hno⟩ := hpart _ c hc
    exact ⟨hwhole c (List.mem_of_mem_drop hmem), hno⟩
  · cases h
    obtain ⟨hmem, hno⟩ := hpart _ c hc
    exact ⟨hwhole c hmem, hno⟩

/-- A URL that leads to a path of one of the hosts, and nowhere else. -/
structure Safe (u : Unicode) (approved : ApprovedUrl) (parsed : SplitResult)
    (decoded : List Char) : Prop where
  split : urlsplit u approved.url = .ok parsed
  scheme : parsed.scheme = "https"
  host : approved.host ∈ allowedSourceHosts ∧ parsed.netloc = approved.host.toList
  anonymous : ¬ parsed.hasUser ∧ ¬ parsed.hasPassword
  port : parsed.port = .ok none
  fragment : '#' ∉ approved.url.toList
  rest : approved.pathAndQuery.toList = withQuery parsed.path parsed.query
  direct : Direct parsed.path
  separators : '\\' ∉ parsed.path ∧ ¬ encodedSeparator parsed.path
  decodes : unquote parsed.path = some decoded
  directDecoded : Direct decoded ∧ '\\' ∉ decoded

theorem mem_normalPath {c : Char}
    (hc : c ∈ quote ('/' :: pathSafe) (normalPath decoded)) :
    0x20 < c.toNat ∧ c.toNat < 0x7f ∧ c ≠ '#' ∧ c ≠ '?' ∧ c ≠ '\\' := by
  rcases mem_quote isPlain_pathSafe hc with h | rfl
  · simp only [isPlain, Bool.and_eq_true, decide_eq_true_eq, List.mem_cons, List.not_mem_nil,
      or_false, not_or] at h
    exact ⟨h.1.1, h.1.2, h.2.2.2.2, h.2.2.2.1, h.2.2.1⟩
  · decide

/-- What is approved is split into its own parts again. -/
theorem Approvable.resplit (h : Approvable u t value parsed host decoded) :
    urlsplit u (serialized host (quote ('/' :: pathSafe) (normalPath decoded)) parsed.query).url =
      .ok { scheme := "https", netloc := host.toList
            path := quote ('/' :: pathSafe) (normalPath decoded), query := parsed.query } := by
  have hquery := mem_query h.split
  refine urlsplit_serialized h.allowed (fun c hc => ?_) ?_ ⟨fun hc => ?_, fun hc => ?_⟩
    fun hc => (hquery _ hc).2 rfl
  · rcases List.mem_append.mp hc with hc | hc
    · exact (mem_normalPath hc).1
    · exact (h.visible.2.2 c (hquery c hc).1).1
  · rw [normalPath, quote_path h.segments]
    rfl
  · exact (mem_normalPath hc).2.2.1 rfl
  · exact (mem_normalPath hc).2.2.2.1 rfl

/-- **What is approved is safe.** -/
theorem Approvable.safe (h : Approvable u t value parsed host decoded) :
    ∃ parts, Safe u (serialized host (quote ('/' :: pathSafe) (normalPath decoded)) parsed.query)
      parts (normalPath decoded) := by
  have hno : ∀ c : Char, c ∉ ['.', '-'] → ¬ c.isAlphanum → c ∉ host.toList := fun c hc halnum =>
    netloc_host h.allowed hc halnum
  have huser : splitUserinfo host.toList = (none, host.toList) :=
    splitUserinfo_plain (hno '@' (by decide) (by decide))
  have hinfo : hostinfo host.toList = (host.toList, []) :=
    hostinfo_plain (hno '@' (by decide) (by decide)) (hno '[' (by decide) (by decide))
      (hno ':' (by decide) (by decide))
  have hquoted : unquote (quote ('/' :: pathSafe) (normalPath decoded)) =
      some (normalPath decoded) := unquote_quote isPlain_pathSafe (List.cons_ne_nil _ _)
  refine ⟨_,
    { split := h.resplit
      scheme := rfl
      host := ⟨h.allowed, rfl⟩
      anonymous := ?_
      port := ?_
      fragment := fun hc => ?_
      rest := String.toList_ofList
      direct := direct_quoted h.segments keepsSlash_nonempty
      separators := ⟨fun hc => (mem_normalPath hc).2.2.2.2 rfl, ?_⟩
      decodes := hquoted
      directDecoded :=
        ⟨direct_rooted h.segments keepsSlash_nonempty, backslash_rooted h.segments⟩ }⟩
  · simp [SplitResult.hasUser, SplitResult.hasPassword, huser]
  · unfold SplitResult.port
    rw [hinfo]
    rfl
  · rw [serialized, String.toList_ofList, List.mem_append, List.mem_append] at hc
    obtain (hc | hc) | hc := hc
    · exact absurd hc (by decide)
    · exact hno '#' (by decide) (by decide) hc
    · unfold withQuery at hc
      rcases List.mem_append.mp hc with hc | hc
      · exact (mem_normalPath hc).2.2.1 rfl
      · split at hc
        · cases hc
        · rcases List.mem_cons.mp hc with hc | hc
          · cases hc
          · exact (mem_query h.split _ hc).2 rfl
  · rw [normalPath, encodedSeparator_quote isPlain_pathSafe List.mem_cons_self
      (backslash_rooted h.segments)]
    exact Bool.false_ne_true

/-- What the tables say of the names of the hosts: they are lowered and encoded as they are. -/
def HostTables.Named (t : HostTables) : Prop :=
  ∀ host ∈ allowedSourceHosts, t.lower host = host ∧ t.idna host = some host

/-- What is approved can be approved again, as long as it is not too long. -/
theorem Approvable.again (ht : t.Named) (h : Approvable u t value parsed host decoded)
    (hsize : (serialized host (quote ('/' :: pathSafe) (normalPath decoded))
      parsed.query).url.length ≤ 2048) :
    Approvable u t
      (serialized host (quote ('/' :: pathSafe) (normalPath decoded)) parsed.query).url
      { scheme := "https", netloc := host.toList
        path := quote ('/' :: pathSafe) (normalPath decoded), query := parsed.query }
      host (normalPath decoded) := by
  obtain ⟨parts, hsafe⟩ := h.safe
  obtain rfl := Except.ok.inj (h.resplit.symm.trans hsafe.split)
  obtain ⟨hlower, hidna⟩ := ht host h.allowed
  have hinfo : hostinfo host.toList = (host.toList, []) :=
    hostinfo_plain (netloc_host h.allowed (by decide) (by decide))
      (netloc_host h.allowed (by decide) (by decide))
      (netloc_host h.allowed (by decide) (by decide))
  obtain ⟨-, hdot, hnonempty⟩ := allowedSourceHosts_plain host h.allowed
  have hne : quote ('/' :: pathSafe) (normalPath decoded) ≠ [] := by
    rw [normalPath, quote_path h.segments]
    exact List.cons_ne_nil _ _
  have hvisible : ∀ c ∈ withQuery (quote ('/' :: pathSafe) (normalPath decoded)) parsed.query,
      0x20 < c.toNat ∧ c.toNat ≠ 0x7f := by
    intro c hc
    unfold withQuery at hc
    rcases List.mem_append.mp hc with hc | hc
    · have hrange := mem_normalPath hc
      exact ⟨hrange.1, by omega⟩
    · split at hc
      · cases hc
      · rcases List.mem_cons.mp hc with rfl | hc
        · decide
        · exact h.visible.2.2 c (mem_query h.split c hc).1
  have hhost : ∀ host ∈ allowedSourceHosts, ∀ c ∈ https ++ host.toList,
      0x20 < c.toNat ∧ c.toNat ≠ 0x7f := by
    decide +kernel
  have hname : host.toList.takeWhile (· ≠ '%') = host.toList := by
    refine List.takeWhile_eq_self_iff.mpr fun c hc => ?_
    simpa using fun heq : c = '%' =>
      netloc_host h.allowed (by decide) (by decide) (heq ▸ hc : '%' ∈ host.toList)
  have hfull : host.toList ≠ [] := by simpa using hnonempty
  have hstrip : ((host.toList.reverse).dropWhile (· = '.')).reverse = host.toList := by
    have hkeep : host.toList.reverse.dropWhile (· = '.') = host.toList.reverse := by
      refine List.dropWhile_eq_self_iff.mpr fun hlen hfirst => ?_
      have hlast : host.toList.reverse.head? = some '.' := by
        rw [List.head?_eq_getElem?, List.getElem?_eq_getElem hlen, of_decide_eq_true hfirst]
      exact hdot (by rw [← hlast, List.head?_reverse])
    rw [hkeep, List.reverse_reverse]
  have hempty : String.ofList [] = "" := rfl
  refine
    { visible := ⟨fun hnil => ?_, hsize, fun c hc => ?_⟩
      split := hsafe.split
      scheme := rfl
      anonymous := hsafe.anonymous
      port := Or.inl hsafe.port
      named := ?_
      allowed := h.allowed
      separators := hsafe.separators
      path := by rw [if_neg hne]; exact hsafe.decodes }
  · have hchars := congrArg String.toList hnil
    rw [serialized, String.toList_ofList] at hchars
    exact absurd (List.append_eq_nil_iff.mp (List.append_eq_nil_iff.mp hchars).1).1 (by decide)
  · rw [serialized, String.toList_ofList] at hc
    rcases List.mem_append.mp hc with hc | hc
    · exact hhost host h.allowed c hc
    · exact hvisible c hc
  · simp only [SplitResult.hostname, hinfo, hname, hfull, if_false, String.ofList_toList, hlower,
      List.drop_length, hempty, String.append_empty, Option.bind_some, encodedHost, hidna,
      Option.map_some, hstrip]

/-- What is approved is approved again as itself, as long as it is not too long. -/
theorem Approvable.stable_iff (ht : t.Named) (h : Approvable u t value parsed host decoded) :
    approveSourceUrl u t
        (serialized host (quote ('/' :: pathSafe) (normalPath decoded)) parsed.query).url =
      .ok (serialized host (quote ('/' :: pathSafe) (normalPath decoded)) parsed.query) ↔
    (serialized host (quote ('/' :: pathSafe) (normalPath decoded)) parsed.query).url.length ≤
      2048 := by
  constructor
  · intro hagain
    obtain ⟨_, _, _, hvisible, -⟩ := approveSourceUrl_iff.mp hagain
    exact hvisible.visible.2.1
  · intro hsize
    refine approveSourceUrl_iff.mpr ⟨_, _, _, h.again ht hsize, ?_⟩
    rw [normalPath, normalPath_rooted h.segments keepsSlash_nonempty]

/-! ## How long it is -/

/-- The characters that stand for one character of a path when it is quoted. -/
def quotedSize (c : Char) : Nat :=
  if c.isAlphanum ∨ c ∈ ['_', '.', '-', '~'] ∨ c ∈ '/' :: pathSafe then 1 else 3 * c.utf8Size

/-- The length of the URL for a host, a decoded path and a query. -/
def canonicalSize (host : String) (decoded query : List Char) : Nat :=
  8 + host.length + ((normalPath decoded).map quotedSize).sum +
    if query = [] then 0 else 1 + query.length

theorem length_quoteByte (c : Char) :
    ((String.utf8EncodeChar c).flatMap (quoteByte ('/' :: pathSafe))).length = quotedSize c := by
  by_cases hlt : c.toNat < 128
  · have hbyte : (UInt8.ofNat c.toNat).toNat = c.toNat := by
      rw [UInt8.toNat_ofNat']
      omega
    have hsmall : UInt8.ofNat c.toNat < 128 := by
      change (UInt8.ofNat c.toNat).toNat < 128
      omega
    have hone : c.utf8Size = 1 := by
      rw [← String.length_utf8EncodeChar, utf8EncodeChar_of_lt hlt]
      rfl
    rw [utf8EncodeChar_of_lt hlt, List.flatMap_singleton, quoteByte, quotedSize, hbyte,
      Char.ofNat_toNat, hone]
    simp only [hsmall, true_and]
    split <;> rfl
  · have hlong : ∀ b ∈ String.utf8EncodeChar c, (quoteByte ('/' :: pathSafe) b).length = 3 := by
      intro b hb
      have hlarge : ¬ b < 128 := fun hsmall => hlt (by
        rw [mem_utf8EncodeChar hb hsmall]
        exact hsmall)
      unfold quoteByte
      rw [if_neg fun h => hlarge h.1]
      rfl
    have hquoted : ¬ (c.isAlphanum ∨ c ∈ ['_', '.', '-', '~'] ∨ c ∈ '/' :: pathSafe) := by
      intro h
      have hplain : isPlain c := by
        rcases h with h | h | h
        · exact isPlain_unreserved (Or.inl h)
        · exact isPlain_unreserved (Or.inr h)
        · exact isPlain_pathSafe c h
      simp only [isPlain, Bool.and_eq_true, decide_eq_true_eq] at hplain
      omega
    rw [quotedSize, if_neg hquoted, List.length_flatMap, List.map_congr_left hlong,
      List.map_const', List.sum_replicate_nat, String.length_utf8EncodeChar, Nat.mul_comm]

theorem length_quote (text : List Char) :
    (quote ('/' :: pathSafe) text).length = (text.map quotedSize).sum := by
  induction text with
  | nil =>
    rw [quote_eq]
    rfl
  | cons c text ih =>
    rw [quote_eq, utf8Bytes_cons, List.flatMap_append, ← quote_eq, List.length_append, ih,
      length_quoteByte, List.map_cons, List.sum_cons]

theorem length_serialized (host : String) (decoded query : List Char) :
    (serialized host (quote ('/' :: pathSafe) (normalPath decoded)) query).url.length =
      canonicalSize host decoded query := by
  have hhttps : https.length = 8 := rfl
  have hquery : (if query = [] then [] else '?' :: query).length =
      if query = [] then 0 else 1 + query.length := by
    split
    · rfl
    · rw [List.length_cons, Nat.add_comm]
  rw [serialized, String.length_ofList, List.length_append, List.length_append, hhttps, withQuery,
    List.length_append, length_quote, hquery, String.length_toList, canonicalSize]
  omega

/-! ## What the approval of a URL keeps -/

/-- Characters that end an authority are not in the zone of an address. -/
def ZonePlain (address : Address) : Prop :=
  ∀ zone ∈ address.zone, ∀ c ∈ zone.toList, endsAuthority c = false

theorem mem_zone {address : Address} {zone : String} (hzone : zone ∈ address.zone) {c : Char}
    (hc : c ∈ zone.toList) : c ∈ authority address := by
  cases address with
  | v4 value => exact (Option.not_mem_none _ hzone).elim
  | v6 value zone' =>
    obtain rfl : zone' = some zone := hzone
    refine List.mem_cons_of_mem _ (List.mem_append_left _ ?_)
    exact List.mem_append_right _ (List.mem_cons_of_mem _ hc)

theorem authority_zone {address : Address} (hzone : ZonePlain address) :
    ∀ c ∈ authority address, endsAuthority c = false := by
  cases address with
  | v4 value => exact authority_plain rfl
  | v6 value zone =>
    cases zone with
    | none => exact authority_plain rfl
    | some zone =>
      have hbare := @authority_plain (.v6 value none) rfl
      intro c hc
      rcases List.mem_cons.mp hc with rfl | hc
      · decide
      · rcases List.mem_append.mp hc with hc | hc
        · rcases List.mem_append.mp hc with hc | hc
          · exact hbare c (List.mem_cons_of_mem _ (List.mem_append_left _ hc))
          · rcases List.mem_cons.mp hc with rfl | hc
            · decide
            · exact hzone zone rfl c hc
        · rw [List.mem_singleton.mp hc]
          decide

/-- A pinned URL goes to the literal address unless a character of its zone ends it early. -/
theorem target_pinned_iff {approved : ApprovedUrl} {address : Address}
    (hpath : ∀ c ∈ approved.pathAndQuery.toList.head?, endsAuthority c = true) :
    target (pinnedUrl approved address) =
      some (authority address, approved.pathAndQuery.toList) ↔ ZonePlain address := by
  constructor
  · intro h zone hzone c hc
    unfold target at h
    split at h
    · have hauthority : ((pinnedUrl approved address).toList.drop 8).takeWhile
          (fun c => !endsAuthority c) = authority address := congrArg Prod.fst (Option.some.inj h)
      have hmem := mem_zone hzone hc
      rw [← hauthority] at hmem
      simpa using List.mem_takeWhile_imp hmem
    · cases h
  · exact fun h => target_pinned (authority_zone h) hpath

/-- What approving a value and pinning it to an address comes to: it raises nothing but
`SourcePolicyError`, and what is returned is safe, is returned again when it is approved again, and
is requested at the address. -/
structure Approval (u : Unicode) (t : HostTables) (value : String) (address : Address) : Prop where
  total : OnlyPolicy (approveSourceUrl u t value)
  safe : ∀ approved, approveSourceUrl u t value = .ok approved →
    ∃ parsed decoded, Safe u approved parsed decoded
  stable : ∀ approved, approveSourceUrl u t value = .ok approved →
    approveSourceUrl u t approved.url = .ok approved
  pinned : ∀ approved, approveSourceUrl u t value = .ok approved →
    target (pinnedUrl approved address) = some (authority address, approved.pathAndQuery.toList)

/-- **When the approval of a URL is total, canonical and safe.** `urlsplit` has to accept the
authority; and of a URL that is approved, the canonical form must not be too long, and the zone of
the address must not end its authority. -/
theorem approval_iff (ht : t.Named) (value : String) (address : Address) :
    Approval u t value address ↔
      (value ≠ "" ∧ value.length ≤ 2048 ∧
          (∀ c ∈ value.toList, 0x20 < c.toNat ∧ c.toNat ≠ 0x7f) →
        ∀ netloc ∈ authorityOf value, Splits u netloc) ∧
      ∀ parsed host decoded, Approvable u t value parsed host decoded →
        canonicalSize host decoded parsed.query ≤ 2048 ∧ ZonePlain address := by
  have hroot : ∀ {parsed host decoded}, Approvable u t value parsed host decoded →
      ∀ c ∈ (serialized host (quote ('/' :: pathSafe) (normalPath decoded))
        parsed.query).pathAndQuery.toList.head?, endsAuthority c = true := by
    intro parsed host decoded h c hc
    rw [serialized, String.toList_ofList, normalPath, quote_path h.segments] at hc
    obtain rfl := Option.some.inj hc
    decide
  constructor
  · intro h
    refine ⟨onlyPolicy_iff.mp h.total, fun parsed host decoded happrovable => ?_⟩
    have happroved := approveSourceUrl_iff.mpr ⟨parsed, host, decoded, happrovable, rfl⟩
    refine ⟨?_, (target_pinned_iff (hroot happrovable)).mp (h.pinned _ happroved)⟩
    rw [← length_serialized]
    exact (happrovable.stable_iff ht).mp (h.stable _ happroved)
  · rintro ⟨hsplits, hcanonical⟩
    refine
      { total := onlyPolicy_iff.mpr hsplits
        safe := fun approved happroved => ?_
        stable := fun approved happroved => ?_
        pinned := fun approved happroved => ?_ }
    all_goals
      obtain ⟨parsed, host, decoded, happrovable, rfl⟩ := approveSourceUrl_iff.mp happroved
      obtain ⟨hsize, hzone⟩ := hcanonical parsed host decoded happrovable
    · obtain ⟨parts, hsafe⟩ := happrovable.safe
      exact ⟨parts, _, hsafe⟩
    · exact (happrovable.stable_iff ht).mpr (by rwa [length_serialized])
    · exact (target_pinned_iff (hroot happrovable)).mpr hzone

/-- A page of one of the hosts, at an address without a zone. -/
theorem approval_iff_page :
    asciiTables.Named ∧
    Approval plainUnicode asciiTables "https://portal-pk.ru/news/" (.v4 0x5db8d822) := by
  have hnamed : asciiTables.Named := by
    unfold HostTables.Named
    decide +kernel
  refine ⟨hnamed, (approval_iff hnamed _ _).mpr ⟨fun _ netloc hnetloc => ?_, ?_⟩⟩
  · have hauthority : authorityOf "https://portal-pk.ru/news/" = some "portal-pk.ru".toList := by
      decide +kernel
    obtain rfl := Option.some.inj (hauthority.symm.trans hnetloc)
    exact ⟨by decide +kernel, by decide +kernel, by decide +kernel⟩
  · intro parsed host decoded h
    have hsplit : urlsplit plainUnicode "https://portal-pk.ru/news/" =
        .ok ⟨"https", "portal-pk.ru".toList, "/news/".toList, []⟩ := by decide +kernel
    obtain rfl := Except.ok.inj (hsplit.symm.trans h.split)
    have hhost : (SplitResult.hostname asciiTables
        ⟨"https", "portal-pk.ru".toList, "/news/".toList, []⟩).bind (encodedHost asciiTables) =
          some "portal-pk.ru" := by decide +kernel
    obtain rfl := Option.some.inj (hhost.symm.trans h.named)
    have hpath : unquote "/news/".toList = some "/news/".toList := by decide +kernel
    obtain rfl := Option.some.inj (hpath.symm.trans h.path)
    exact ⟨by decide +kernel, fun zone hzone => (Option.not_mem_none _ hzone).elim⟩

/-- An authority with one bracket only is not refused: `urlsplit` raises. -/
theorem approval_bracket :
    ¬ Approval plainUnicode asciiTables "https://[portal-pk.ru/" (.v4 0x5db8d822) := by
  intro h
  have hraised : approveSourceUrl plainUnicode asciiTables "https://[portal-pk.ru/" =
      .error (.value "Invalid IPv6 URL") := by decide +kernel
  obtain ⟨code, hcode⟩ := h.total _ hraised
  cases hcode

end Returned

end ComponentKb.Imports
