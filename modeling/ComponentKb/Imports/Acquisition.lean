import ComponentKb.Imports.Kicad
import ComponentKb.Imports.Transport
import ComponentKb.Media.Probe

/-!
# Acquiring files of repositories

Model of `imports/acquisition.py`: one file of a registered repository at one revision (`acquire`),
and the list of its supported files (`discoverFiles`). Both go through `_request`, which connects as
`SafeHttpFetcher` does; the URLs are the program's own, but parts of them are what a server said.

* `acquire_sends`, `discoverFiles_sends`: all that is sent are pinned requests to the hosts of the
  providers, and what is returned is within the limits.
* **`fetching_within_policy`**: what both clients of the program send and return.
-/

namespace ComponentKb.Imports

open Catalog Lib Lib.Logged Media

/-- `AcquisitionPolicy`, without the timeouts. -/
structure AcquisitionPolicy where
  maxResponseBytes : Nat
  maxFileBytes : Nat

/-- What is read off other modules of the standard library: `json.loads`, which fails with a
`JSONDecodeError` or otherwise, and `base64.b64decode` of a valid text. -/
structure Decoders where
  jsonLoads : Bytes → Except (Option Fault) JsonValue
  b64decode : String → Option Bytes

def providerHosts : List String := ["api.github.com", "gitlab.com"]

/-- The failures that are not worth a retry. -/
def rejected (code : String) : Fault := .acquisition code false

inductive Provider where
  | github | gitlab
  deriving DecidableEq, Repr

/-- `_provider`. -/
def providerOf (sourceKey repositoryUrl : String) : Except Fault Provider :=
  if sourceKey = "seeed_wiki" ∧ repositoryUrl = "https://github.com/Seeed-Studio/wiki-documents" then
    .ok .github
  else if sourceKey = "kicad_symbols" ∧ repositoryUrl = kicadRepository then .ok .gitlab
  else .error (rejected "repository_not_allowlisted")

/-- What is raised of an address that is not public. -/
def addressFault : Fault → Fault
  | .policy _ => rejected "repository_dns_address_invalid"
  | other => other

/-- How the acquirer reports what the client raised. -/
def acquisitionFault : Fault → Fault
  | .deadline => .acquisition "repository_total_timeout" true
  | .httpTimeout => .acquisition "repository_http_timeout" true
  | .transport => .acquisition "repository_transport_failed" true
  | other => other

section Requests

variable (u : Unicode) (t : HostTables) (d : Decoders) (net : Network) (policy : AcquisitionPolicy)

/-- The URL that `_request` takes for approved. -/
def providerUrl (url : String) : Except Fault ApprovedUrl := do
  let parsed ← urlsplit u url
  let host := ((parsed.hostname t).map u.casefold).getD ""
  require (parsed.scheme = "https" ∧ host ∈ providerHosts ∧ ¬ parsed.hasUser ∧ ¬ parsed.hasPassword)
    (rejected "repository_provider_url_invalid")
  let port ← parsed.port
  require (port = none ∨ port = some 443) (rejected "repository_provider_url_invalid")
  return { url, host, pathAndQuery := String.ofList (withQuery parsed.path parsed.query) }

/-- `_request`. -/
def requestProvider (url : String) : Logged NetworkEvent Fault Response := do
  let approved ← of (providerUrl u t url)
  pinnedSend net approved addressFault (.acquisition "repository_dns_empty" true)

/-- What `_json_value` makes of a response. -/
def readJson (response : Response) : Except Fault JsonValue := do
  let rateLimited : Bool := response.statusCode = 403 &&
    header response.headers "x-ratelimit-remaining" = some "0"
  response.check (response.statusCode ≠ 404) (rejected "repository_entry_not_found")
  response.check (¬ (response.statusCode = 429 ∨ 500 ≤ response.statusCode ∨ rateLimited))
    (.acquisition "repository_provider_unavailable" true)
  response.check (response.statusCode = 200) (rejected "repository_provider_rejected")
  let contentType := (header response.headers "content-type").getD ""
  let mediaType := strip (String.ofList (partition ';' contentType.toList).1)
  response.check (mediaType ∈ ["application/json", "application/vnd.github+json"])
    (rejected "repository_content_type_invalid")
  let body ← boundedBody policy.maxResponseBytes (rejected "repository_response_too_large") response
  (d.jsonLoads body).mapError fun fault => fault.getD (rejected "repository_json_invalid")

/-- `_json_value`. -/
def jsonValue (url : String) : Logged NetworkEvent Fault JsonValue := do
  let response ← requestProvider u t net url
  of (readJson d policy response)

/-- `_json_dict`. -/
def jsonDict (url : String) : Logged NetworkEvent Fault JsonDict := do
  let value ← jsonValue u t d net policy url
  of (match value with
    | .dict fields => .ok fields
    | _ => .error (rejected "repository_json_invalid"))

/-- `_json_list`. -/
def jsonList (url : String) : Logged NetworkEvent Fault (List JsonValue) := do
  let value ← jsonValue u t d net policy url
  of (match value with
    | .list items => .ok items
    | _ => .error (rejected "repository_json_invalid"))

/-- `quote(text, safe="")`. -/
def quoteAll (text : String) : String := String.ofList (quote [] text.toList)

def githubApi : String := "https://api.github.com/repos/Seeed-Studio/wiki-documents"

def gitlabApi : String :=
  "https://gitlab.com/api/v4/projects/" ++ quoteAll "kicad/libraries/kicad-symbols" ++ "/repository"

/-- A value that is a string. -/
def asText : JsonValue → Option String
  | .str s => some s
  | _ => none

/-- `_resolve`. -/
def resolveRevision (provider : Provider) (requestedRevision : String) :
    Logged NetworkEvent Fault String := do
  let requested := strip requestedRevision
  of (require (requested ≠ "" ∧ requested.length ≤ 100 ∧ ∀ c ∈ requested.toList, 33 ≤ c.toNat)
    (rejected "repository_revision_invalid"))
  let payload ← jsonDict u t d net policy (match provider with
    | .github => githubApi ++ "/commits/" ++ quoteAll requested
    | .gitlab => gitlabApi ++ "/commits/" ++ quoteAll requested)
  let key := match provider with
    | .github => "sha"
    | .gitlab => "id"
  let revision ← of (fromSome (asText (Media.get payload key))
    (rejected "repository_revision_response_invalid"))
  of ((requireCommitSha u revision).mapError fun _ =>
    rejected "repository_revision_response_invalid")

/-- The content of a file, as the provider sent it. -/
def fileContent (provider : Provider) (payload : JsonDict) : Except Fault Bytes := do
  require (provider = .github → asText (Media.get payload "type") = some "file")
    (rejected "repository_entry_not_regular_file")
  require (asText (Media.get payload "encoding") = some "base64")
    (rejected "repository_file_response_invalid")
  let encoded ← fromSome (asText (Media.get payload "content"))
    (rejected "repository_file_response_invalid")
  let compact := String.ofList (encoded.toList.filter fun c => !isSpace c)
  let content ← fromSome (d.b64decode compact) (rejected "repository_file_encoding_invalid")
  require (content.length ≤ policy.maxFileBytes) (rejected "repository_file_too_large")
  return content

/-- `_file`. -/
def fileOf (provider : Provider) (revision filePath : String) :
    Logged NetworkEvent Fault Bytes := do
  let payload ← jsonDict u t d net policy (match provider with
    | .github => githubApi ++ "/contents/" ++ quoteAll filePath ++ "?ref=" ++ revision
    | .gitlab => gitlabApi ++ "/files/" ++ quoteAll filePath ++ "?ref=" ++ revision)
  of (fileContent d policy provider payload)

/-- `AcquiredEntry`, with the one file of its snapshot. -/
structure AcquiredEntry where
  repositoryUrl : String
  revision : String
  filePath : String
  content : Bytes
  deriving DecidableEq, Repr

/-- The snapshot of one file, by the checks of its constructor. -/
def acquiredEntry (repository revision filePath : String) (content : Bytes) :
    Except Fault AcquiredEntry := do
  let repositoryUrl ← (normalizeRepositoryUrl repository).mapError .value
  let revision ← (requireCommitSha u revision).mapError .value
  let path ← (normalizeRepositoryPath filePath).mapError .value
  require (content.length ≤ 2 * 1024 * 1024) (.value "repository_file_too_large")
  return { repositoryUrl, revision, filePath := path, content }

/-- `acquire`. -/
def acquire (sourceKey repositoryUrl requestedRevision filePath : String) :
    Logged NetworkEvent Fault AcquiredEntry := do
  let repository ← of ((normalizeRepositoryUrl repositoryUrl).mapError .value)
  let safePath ← of ((normalizeRepositoryPath filePath).mapError .value)
  let provider ← of (providerOf sourceKey repository)
  let (revision, content) ← handle acquisitionFault do
    let revision ← resolveRevision u t d net policy provider requestedRevision
    let content ← fileOf u t d net policy provider revision safePath
    return (revision, content)
  of (acquiredEntry u repository revision safePath content)

/-! ## The files of a repository -/

structure DiscoveredRepositoryFile where
  filePath : String
  size : Option Int
  deriving DecidableEq, Repr

structure RepositoryDiscoveryResult where
  repositoryUrl : String
  revision : String
  files : List DiscoveredRepositoryFile
  filesScanned : Nat
  deriving DecidableEq, Repr

/-- `value.get(key)`, of a dictionary. -/
def field (value : JsonValue) (key : String) : Option JsonValue :=
  match value with
  | .dict fields => some (Media.get fields key)
  | _ => none

/-- A size; a Boolean is a number, too. -/
def sizeOf (value : JsonValue) : Option Int :=
  match value with
  | .int n => if 0 ≤ n then some n else none
  | .bool b => some (if b then 1 else 0)
  | _ => none

/-- A supported file. -/
def supportedFile (provider : Provider) (start : String) (value : JsonValue) :
    Option DiscoveredRepositoryFile := do
  let fields ← match value with
    | .dict fields => some fields
    | _ => none
  let kind ← asText (Media.get fields "type")
  let path ← asText (Media.get fields "path")
  let safePath ← (normalizeRepositoryPath (start ++ path)).toOption
  let suffix := (u.casefold safePath).toList
  let supported : Bool := match provider with
    | .github => endsWith ".md" suffix || endsWith ".mdx" suffix
    | .gitlab => endsWith ".kicad_sym" suffix
  if kind = "blob" ∧ supported then some ⟨safePath, sizeOf (Media.get fields "size")⟩ else none

/-- `_supported_files`. -/
def supportedFiles (provider : Provider) (start : String) (values : List JsonValue) :
    Except Fault (List DiscoveredRepositoryFile × Nat) := do
  require (values.length ≤ 10000) (rejected "repository_file_count_exceeded")
  let files := values.filterMap (supportedFile u provider start)
  return (files.insertionSort fun a b => a.filePath.toList ≤ b.filePath.toList, values.length)

/-- `value is True`. -/
def isTrue : JsonValue → Bool
  | .bool b => b
  | _ => false

/-- The list of a tree. -/
def treeOf (payload : JsonDict) : Except Fault (List JsonValue) := do
  require (¬ isTrue (Media.get payload "truncated")) (rejected "repository_discovery_truncated")
  match Media.get payload "tree" with
  | .list items => .ok items
  | _ => .error (rejected "repository_discovery_response_invalid")

/-- `_github_tree`. -/
def githubTree (treeish : String) (recursive : Bool) :
    Logged NetworkEvent Fault (List JsonValue) := do
  let payload ← jsonDict u t d net policy
    (githubApi ++ "/git/trees/" ++ quoteAll treeish ++ if recursive then "?recursive=1" else "")
  of (treeOf payload)

/-- The digest of a directory in a tree. -/
def subtreeSha (segment : String) (value : JsonValue) : Option String := do
  let path ← field value "path" >>= asText
  let kind ← field value "type" >>= asText
  let sha ← field value "sha" >>= asText
  if path = segment ∧ kind = "tree" then some sha else none

/-- The directories that `_github_files` goes down. -/
def descend : List String → String → Logged NetworkEvent Fault String
  | [], treeish => of (.ok treeish)
  | segment :: segments, treeish => do
    let tree ← githubTree u t d net policy treeish false
    let sha ← of (fromSome (tree.findSome? (subtreeSha segment))
      (rejected "repository_discovery_root_missing"))
    descend segments sha

/-- `_github_files`. -/
def githubFiles (revision : String) :
    Logged NetworkEvent Fault (List DiscoveredRepositoryFile × Nat) := do
  let treeish ← descend u t d net policy ["sites", "en", "docs"] revision
  let tree ← githubTree u t d net policy treeish true
  of (supportedFiles u .github "sites/en/docs/" tree)

/-- The pages that `_gitlab_files` reads, `remaining` of them at most. -/
def gitlabPages (revision : String) :
    (remaining : Nat) → (page : Nat) → List JsonValue → Logged NetworkEvent Fault (List JsonValue)
  | 0, _, _ => of (.error (rejected "repository_discovery_truncated"))
  | remaining + 1, page, collected => do
    let values ← jsonList u t d net policy
      (gitlabApi ++ "/tree?ref=" ++ revision ++ "&per_page=100&page=" ++ toString page)
    if values.length < 100 then of (.ok (collected ++ values))
    else gitlabPages revision remaining (page + 1) (collected ++ values)

/-- `_gitlab_files`. -/
def gitlabFiles (revision : String) :
    Logged NetworkEvent Fault (List DiscoveredRepositoryFile × Nat) := do
  let values ← gitlabPages u t d net policy revision 10 1 []
  of (supportedFiles u .gitlab "" values)

/-- The supported files of a provider. -/
def filesOf (provider : Provider) (revision : String) :
    Logged NetworkEvent Fault (List DiscoveredRepositoryFile × Nat) :=
  match provider with
  | .github => githubFiles u t d net policy revision
  | .gitlab => gitlabFiles u t d net policy revision

/-- `_search_text`. -/
def searchText (value : String) : String :=
  let plain (c : Char) : Bool := ('a' ≤ c && c ≤ 'z') || c.isDigit
  let runs := (u.casefold value).toList.splitBy fun a b : Char => plain a ↔ plain b
  strip (String.ofList (runs.flatMap fun run => if run.any plain then run else [' ']))

/-- `discover_files`. -/
def discoverFiles (sourceKey repositoryUrl requestedRevision : String) (query : Option String)
    (limit : Int) : Logged NetworkEvent Fault RepositoryDiscoveryResult := do
  let repositoryUrl ← of ((normalizeRepositoryUrl repositoryUrl).mapError .value)
  let provider ← of (providerOf sourceKey repositoryUrl)
  let (revision, candidates, filesScanned) ← handle acquisitionFault do
    let revision ← resolveRevision u t d net policy provider requestedRevision
    let files ← filesOf u t d net policy provider revision
    return (revision, files)
  let needle := searchText u (query.getD "")
  let files := (candidates.filter fun file =>
    needle = "" || contains needle (searchText u file.filePath)).take (min (max limit 1) 100).toNat
  return { repositoryUrl, revision, files, filesScanned }

end Requests

/-! ## What is sent -/

section Sends

variable {u : Unicode} {t : HostTables} {d : Decoders} {net : Network} {policy : AcquisitionPolicy}

/-- The exchanges of the acquirer: pinned requests for URLs of the providers. -/
def Provided (u : Unicode) (t : HostTables) (e : Exchange) : Prop :=
  e.Pinned ∧ e.approved.host ∈ providerHosts ∧ ∃ url, providerUrl u t url = .ok e.approved

/-- All that was sent after `before` are such exchanges; besides these, `rest`. -/
def Sent (u : Unicode) (t : HostTables) (before rest log : List NetworkEvent) : Prop :=
  ∃ exchanges : List Exchange, log = before ++ exchanges.flatMap Exchange.events ++ rest ∧
    ∀ e ∈ exchanges, Provided u t e

/-- Besides its exchanges, a computation only looks up a host, at the end of one that fails. -/
structure Sends (u : Unicode) (t : HostTables) {α : Type} (x : Logged NetworkEvent Fault α)
    (Q : α → Prop) : Prop where
  triple : ∀ before, Triple (Sent u t before []) x (fun a log => Sent u t before [] log ∧ Q a)
    (fun _ log => ∃ rest, (∀ event ∈ rest, ∃ host answer, event = .lookup host answer) ∧
      Sent u t before rest log)

variable {α β : Type} {x : Logged NetworkEvent Fault α} {Q : α → Prop} {R : β → Prop}

theorem Sends.of {a : Except Fault α} (h : ∀ v, a = .ok v → Q v) :
    Sends u t (Lib.Logged.of a) Q := by
  refine ⟨fun before => ?_⟩
  refine Triple.of (fun v log hv hlog => ⟨hlog, h v hv⟩) fun _ log _ hlog => ⟨[], ?_, hlog⟩
  exact fun _ hmem => absurd hmem List.not_mem_nil

theorem Sends.pass (a : Except Fault α) : Sends u t (Lib.Logged.of a) fun _ => True :=
  Sends.of fun _ _ => .intro

theorem Sends.bind {f : α → Logged NetworkEvent Fault β} (hx : Sends u t x Q)
    (hf : ∀ a, Q a → Sends u t (f a) R) : Sends u t (x >>= f) R := by
  refine ⟨fun before => Triple.bind (hx.triple before) fun a log hlog => ?_⟩
  exact (hf a hlog.2).triple before log hlog.1

theorem Sends.handle {f : Fault → Fault} (hx : Sends u t x Q) :
    Sends u t (Lib.Logged.handle f x) Q :=
  ⟨fun before => Triple.handle (hx.triple before)⟩

theorem head?_withQuery {rest : List Char} (hrest : ∀ c ∈ rest.head?, endsAuthority c = true) :
    ∀ c ∈ (withQuery (splitPath rest).1 (splitPath rest).2).head?, endsAuthority c = true := by
  have hhead : ∀ (p : Char → Bool) (text : List Char), ∀ c ∈ (text.takeWhile p).head?,
      c ∈ text.head? := by
    intro p text c hc
    cases text with
    | nil => exact hc
    | cons first text =>
      by_cases hp : p first
      · rwa [List.takeWhile_cons_of_pos hp] at hc
      · rw [List.takeWhile_cons_of_neg hp] at hc
        exact (Option.not_mem_none _ hc).elim
  intro c hc
  unfold withQuery at hc
  cases hpath : (splitPath rest).1 with
  | cons first path =>
    rw [hpath] at hc
    obtain rfl := Option.some.inj hc
    have hfirst : first ∈ (splitPath rest).1.head? := by
      rw [hpath]
      rfl
    exact hrest first (hhead (· ≠ '#') rest first (hhead (· ≠ '?') _ first hfirst))
  | nil =>
    rw [hpath, List.nil_append] at hc
    split at hc
    · exact (Option.not_mem_none _ hc).elim
    · obtain rfl := Option.some.inj hc
      rfl

theorem drop_takeWhile (p : Char → Bool) (text : List Char) :
    text.drop (text.takeWhile p).length = text.dropWhile p := by
  have hsplit := congrArg (List.drop (text.takeWhile p).length)
    (@List.takeWhile_append_dropWhile _ p text)
  rw [List.drop_left] at hsplit
  exact hsplit.symm

theorem head?_dropWhile (p : Char → Bool) (text : List Char) :
    ∀ c ∈ (text.dropWhile p).head?, p c = false := by
  intro c hc
  have hhead := List.head?_dropWhile_not p text
  rw [hc] at hhead
  simpa using hhead

/-- The path of a URL that has an authority starts at its root, where there is one. -/
theorem urlsplit_path {url : String} {parsed : SplitResult} (h : urlsplit u url = .ok parsed)
    (hnetloc : parsed.netloc ≠ []) :
    ∀ c ∈ (withQuery parsed.path parsed.query).head?, endsAuthority c = true := by
  unfold urlsplit at h
  simp only at h
  split at h
  · obtain ⟨-, h⟩ := seq_eq_ok.mp h
    obtain ⟨-, h⟩ := seq_eq_ok.mp h
    obtain ⟨-, h⟩ := seq_eq_ok.mp h
    cases h
    refine head?_withQuery ?_
    rw [← List.drop_drop, drop_takeWhile]
    intro c hc
    simpa using head?_dropWhile _ _ c hc
  · cases h
    exact absurd rfl hnetloc

theorem providerUrl_spec {url : String} {approved : ApprovedUrl}
    (h : providerUrl u t url = .ok approved) : approved.host ∈ providerHosts ∧
      ∀ c ∈ approved.pathAndQuery.toList.head?, endsAuthority c = true := by
  unfold providerUrl at h
  obtain ⟨parsed, hparsed, h⟩ := bind_eq_ok.mp h
  obtain ⟨haccepted, h⟩ := seq_eq_ok.mp h
  obtain ⟨port, -, h⟩ := bind_eq_ok.mp h
  obtain ⟨-, h⟩ := seq_eq_ok.mp h
  cases h
  obtain ⟨-, hhost, -⟩ := require_eq_ok.mp haccepted
  have hnetloc : parsed.netloc ≠ [] := by
    intro hnil
    have hnone : parsed.hostname t = none := by
      rw [SplitResult.hostname, hnil]
      rfl
    rw [hnone, Option.map_none, Option.getD_none] at hhost
    exact absurd hhost (by decide)
  refine ⟨hhost, ?_⟩
  rw [String.toList_ofList]
  exact urlsplit_path hparsed hnetloc

theorem requestProvider_sends (hdns : net.Dns) (url : String) :
    Sends u t (requestProvider u t net url) fun _ => True := by
  refine Sends.bind (Q := fun approved => providerUrl u t url = .ok approved)
    (Sends.of fun approved h => h) fun approved happroved => ⟨fun before log hlog => ?_⟩
  obtain ⟨exchanges, rfl, hprovided⟩ := hlog
  obtain ⟨hhost, hpath⟩ := providerUrl_spec happroved
  have hone : ∀ e : Exchange, e.approved = approved → e.Pinned → Sent u t before []
      (before ++ exchanges.flatMap Exchange.events ++ [] ++ e.events) := by
    rintro e rfl hpinned
    refine ⟨exchanges ++ [e], by simp, fun e' he' => ?_⟩
    rcases List.mem_append.mp he' with he' | he'
    · exact hprovided e' he'
    · obtain rfl := List.mem_singleton.mp he'
      exact ⟨hpinned, hhost, url, happroved⟩
  refine Triple.weaken (pinnedSend_triple hdns hpath _ _ _) (fun _ h => h) ?_ ?_ _ rfl
  · rintro response log ⟨e, he, hpinned, -, rfl⟩
    exact ⟨hone e he hpinned, .intro⟩
  · rintro fault log (⟨answer, rfl⟩ | ⟨e, he, hpinned, rfl⟩)
    · refine ⟨[.lookup approved.host answer], fun event h => ⟨_, _, List.mem_singleton.mp h⟩,
        exchanges, by simp, hprovided⟩
    · exact ⟨[], fun _ h => absurd h List.not_mem_nil, hone e he hpinned⟩

theorem jsonValue_sends (hdns : net.Dns) (url : String) :
    Sends u t (jsonValue u t d net policy url) fun _ => True := by
  unfold jsonValue
  exact Sends.bind (requestProvider_sends hdns url) fun _ _ => Sends.pass _

theorem jsonDict_sends (hdns : net.Dns) (url : String) :
    Sends u t (jsonDict u t d net policy url) fun _ => True := by
  unfold jsonDict
  exact Sends.bind (jsonValue_sends hdns url) fun _ _ => Sends.pass _

theorem jsonList_sends (hdns : net.Dns) (url : String) :
    Sends u t (jsonList u t d net policy url) fun _ => True := by
  unfold jsonList
  exact Sends.bind (jsonValue_sends hdns url) fun _ _ => Sends.pass _

theorem resolveRevision_sends (hdns : net.Dns) (provider : Provider) (revision : String) :
    Sends u t (resolveRevision u t d net policy provider revision) fun _ => True := by
  unfold resolveRevision
  refine Sends.bind (Sends.pass _) fun _ _ => ?_
  refine Sends.bind (jsonDict_sends hdns _) fun payload _ => ?_
  refine Sends.bind (Sends.pass _) fun _ _ => ?_
  exact Sends.pass _

theorem fileOf_sends (hdns : net.Dns) (provider : Provider) (revision path : String) :
    Sends u t (fileOf u t d net policy provider revision path)
      fun content => content.length ≤ policy.maxFileBytes := by
  unfold fileOf
  refine Sends.bind (jsonDict_sends hdns _) fun payload _ => Sends.of fun content h => ?_
  unfold fileContent at h
  obtain ⟨-, h⟩ := seq_eq_ok.mp h
  obtain ⟨-, h⟩ := seq_eq_ok.mp h
  obtain ⟨encoded, -, h⟩ := bind_eq_ok.mp h
  obtain ⟨decoded, -, h⟩ := bind_eq_ok.mp h
  obtain ⟨hsize, h⟩ := seq_eq_ok.mp h
  cases h
  exact require_eq_ok.mp hsize

theorem acquire_sends (hdns : net.Dns) (sourceKey repositoryUrl revision path : String) :
    Sends u t (acquire u t d net policy sourceKey repositoryUrl revision path)
      fun entry => entry.content.length ≤ policy.maxFileBytes := by
  unfold acquire
  refine Sends.bind (Sends.pass _) fun repository _ => ?_
  refine Sends.bind (Sends.pass _) fun safePath _ => ?_
  refine Sends.bind (Sends.pass _) fun provider _ => ?_
  refine Sends.bind (Q := fun found => found.2.length ≤ policy.maxFileBytes)
    (Sends.handle ?_) fun found hfound => Sends.of fun entry h => ?_
  · refine Sends.bind (resolveRevision_sends hdns provider revision) fun sha _ => ?_
    refine Sends.bind (fileOf_sends hdns provider sha safePath) fun content hcontent => ?_
    exact Sends.of (a := .ok (sha, content)) fun _ h => Except.ok.inj h ▸ hcontent
  · unfold acquiredEntry at h
    obtain ⟨url, -, h⟩ := bind_eq_ok.mp h
    obtain ⟨sha, -, h⟩ := bind_eq_ok.mp h
    obtain ⟨path, -, h⟩ := bind_eq_ok.mp h
    obtain ⟨-, h⟩ := seq_eq_ok.mp h
    cases h
    exact hfound

theorem githubTree_sends (hdns : net.Dns) (treeish : String) (recursive : Bool) :
    Sends u t (githubTree u t d net policy treeish recursive) fun _ => True := by
  unfold githubTree
  exact Sends.bind (jsonDict_sends hdns _) fun _ _ => Sends.pass _

theorem descend_sends (hdns : net.Dns) (segments : List String) :
    ∀ treeish, Sends u t (descend u t d net policy segments treeish) fun _ => True := by
  induction segments with
  | nil => exact fun treeish => Sends.pass (.ok treeish)
  | cons segment segments ih =>
    intro treeish
    unfold descend
    refine Sends.bind (githubTree_sends hdns treeish false) fun tree _ => ?_
    exact Sends.bind (Sends.pass _) fun sha _ => ih sha

theorem gitlabPages_sends (hdns : net.Dns) (revision : String) (remaining : Nat) :
    ∀ page collected,
      Sends u t (gitlabPages u t d net policy revision remaining page collected)
        fun _ => True := by
  induction remaining with
  | zero => exact fun _ _ => Sends.pass (.error _)
  | succ remaining ih =>
    intro page collected
    unfold gitlabPages
    refine Sends.bind (jsonList_sends hdns _) fun values _ => ?_
    by_cases hlast : values.length < 100
    · rw [if_pos hlast]
      exact Sends.pass _
    · rw [if_neg hlast]
      exact ih _ _

theorem filesOf_sends (hdns : net.Dns) (provider : Provider) (revision : String) :
    Sends u t (filesOf u t d net policy provider revision) fun _ => True := by
  cases provider with
  | github =>
    unfold filesOf githubFiles
    refine Sends.bind (descend_sends hdns _ revision) fun treeish _ => ?_
    exact Sends.bind (githubTree_sends hdns treeish true) fun _ _ => Sends.pass _
  | gitlab =>
    unfold filesOf gitlabFiles
    exact Sends.bind (gitlabPages_sends hdns revision 10 1 []) fun _ _ => Sends.pass _

theorem discoverFiles_sends (hdns : net.Dns) (sourceKey repositoryUrl revision : String)
    (query : Option String) (limit : Int) :
    Sends u t (discoverFiles u t d net policy sourceKey repositoryUrl revision query limit)
      fun _ => True := by
  unfold discoverFiles
  refine Sends.bind (Sends.pass _) fun repository _ => ?_
  refine Sends.bind (Sends.pass _) fun provider _ => ?_
  refine Sends.bind (Q := fun _ => True) (Sends.handle ?_) fun found _ =>
    Sends.pass (.ok _)
  refine Sends.bind (resolveRevision_sends hdns provider revision) fun sha _ => ?_
  exact Sends.bind (filesOf_sends hdns provider sha) fun files _ => Sends.pass (.ok _)

/-- What a whole run sends. -/
theorem Sends.run (h : Sends u t x Q) (before : List NetworkEvent) :
    (∃ rest, (∀ event ∈ rest, ∃ host answer, event = .lookup host answer) ∧
      Sent u t before rest (x.outcome before).2) ∧
      ∀ a, (x.outcome before).1 = .ok a → Q a := by
  have hstart : Sent u t before [] before :=
    ⟨[], by simp, fun _ hmem => absurd hmem List.not_mem_nil⟩
  have hend := h.triple before before hstart
  cases houtcome : x.outcome before with
  | mk result log =>
    rw [houtcome] at hend
    cases result with
    | ok a =>
      refine ⟨⟨[], fun _ hmem => absurd hmem List.not_mem_nil, hend.1⟩, fun b hb => ?_⟩
      exact Except.ok.inj hb ▸ hend.2
    | error fault => exact ⟨hend, fun _ hb => by cases hb⟩

end Sends

/-- **Fetching stays inside the source policy.** Whatever DNS and the servers answer, the requests
of `fetch` are a trail of pinned requests for approved URLs, one more than redirects are allowed at
most, and a document that it returns is the body of the last response. The requests of the acquirer
are pinned requests for URLs of the providers. No body beyond its limit is returned. -/
theorem fetching_within_policy (u : Unicode) (t : HostTables)
    (urljoin : String → String → Except Fault String) (d : Decoders) {net : Network}
    (hdns : net.Dns) (before : List NetworkEvent) :
    (∀ (policy : ParserHttpPolicy) (url : String),
      Within u t urljoin policy url before (policy.maxRedirects + 1)
        ((fetch u t urljoin net policy url).outcome before).1.toOption
        ((fetch u t urljoin net policy url).outcome before).2) ∧
    (∀ (policy : AcquisitionPolicy) (sourceKey repositoryUrl revision path : String),
      let x := acquire u t d net policy sourceKey repositoryUrl revision path
      (∃ rest, (∀ event ∈ rest, ∃ host answer, event = .lookup host answer) ∧
        Sent u t before rest (x.outcome before).2) ∧
        ∀ entry, (x.outcome before).1 = .ok entry → entry.content.length ≤ policy.maxFileBytes) ∧
    (∀ (policy : AcquisitionPolicy) (sourceKey repositoryUrl revision : String)
      (query : Option String) (limit : Int),
      let x := discoverFiles u t d net policy sourceKey repositoryUrl revision query limit
      ∃ rest, (∀ event ∈ rest, ∃ host answer, event = .lookup host answer) ∧
        Sent u t before rest (x.outcome before).2) ∧
    ∀ (limit : Nat) (tooLarge : Fault) (response : Response) (body : Bytes),
      boundedBody limit tooLarge response = .ok body → body.length ≤ limit :=
  ⟨fun policy url => fetch_within u t urljoin hdns policy url before,
    fun _ sourceKey repositoryUrl revision path =>
      (acquire_sends hdns sourceKey repositoryUrl revision path).run before,
    fun _ sourceKey repositoryUrl revision query limit =>
      ((discoverFiles_sends hdns sourceKey repositoryUrl revision query limit).run before).1,
    fun _ _ _ _ h => (boundedBody_spec h).2⟩

/-! ## A page that redirects once -/

def asciiTables : HostTables where
  lower s := String.ofList (s.toList.map Char.toLower)
  idna s := some s

/-- The first request is redirected, the second is answered. -/
def portalNetwork : Network where
  resolve _ _ := .ok ["93.184.216.34"]
  send log _ := .ok {
    statusCode := if log.length ≤ 1 then 302 else 200
    headers := [("Location", "/news/1-led.html"), ("Content-Type", "text/html")]
    chunks := [[60, 112, 62]]
    ended := .ok ()
    closed := .ok () }

def portalJoin (_ location : String) : Except Fault String :=
  .ok ("https://portal-pk.ru" ++ location)

def plainDecoders : Decoders where
  jsonLoads _ := .error none
  b64decode _ := none

/-- The hypothesis of the theorem holds of a network, and the fetch returns its page. -/
theorem fetching_within_policy_portal :
    portalNetwork.Dns ∧
    ((fetch plainUnicode asciiTables portalJoin portalNetwork ⟨3, 32768, 2097152⟩
      "https://portal-pk.ru/").outcome []).1.toOption.any (·.body = [60, 112, 62]) ∧
    Within plainUnicode asciiTables portalJoin ⟨3, 32768, 2097152⟩ "https://portal-pk.ru/" [] 4
      ((fetch plainUnicode asciiTables portalJoin portalNetwork ⟨3, 32768, 2097152⟩
        "https://portal-pk.ru/").outcome []).1.toOption
      ((fetch plainUnicode asciiTables portalJoin portalNetwork ⟨3, 32768, 2097152⟩
        "https://portal-pk.ru/").outcome []).2 := by
  have hdns : portalNetwork.Dns := by
    rintro log host answer h text htext
    cases h
    obtain rfl := List.mem_singleton.mp htext
    decide
  exact ⟨hdns, by decide +kernel,
    (fetching_within_policy plainUnicode asciiTables portalJoin plainDecoders hdns []).1 _ _⟩

end ComponentKb.Imports
