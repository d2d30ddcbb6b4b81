import ComponentKb.Imports.Urls
import ComponentKb.Lib.Logged
import Mathlib.Data.List.Chain
import Mathlib.Data.List.Sort

/-!
# Fetching over pinned connections

Model of `imports/transport.py`. `fetch` follows the redirects of a page; before each request it
resolves the host and connects to one of the addresses it was told. What DNS and the servers answer
may depend on all that was asked before (`Network`).

* `Exchange`: a request that was sent, with the URL that was approved for it, what DNS said of its
  host, and the response. `Exchange.Pinned`: it went to an address that was accepted.
* `pinnedSend_triple`: what both clients of the program do before they send.
* **`fetch_within`**: what `fetch` asks for, sends and returns.
-/

namespace ComponentKb.Imports

open Catalog Lib Lib.Logged

abbrev Bytes := List UInt8

/-! ## Requests and responses -/

/-- A request of a client: its URL, its `Host` header and the name for TLS. -/
structure Request where
  url : String
  hostHeader : String
  sniHostname : String
  deriving DecidableEq, Repr

/-- A response: the chunks of its body, how the body ends, and how the response is closed. -/
structure Response where
  statusCode : Nat
  headers : List (String × String)
  chunks : List Bytes
  ended : Except Fault Unit
  closed : Except Fault Unit

/-- What a client asks of the network, and what it is answered. -/
inductive NetworkEvent where
  | lookup (host : String) (answer : Except Fault (List String))
  | request (request : Request) (response : Except Fault Response)

/-- DNS and the servers, whose answers may depend on what was asked before. -/
structure Network where
  resolve : List NetworkEvent → String → Except Fault (List String)
  send : List NetworkEvent → Request → Except Fault Response

/-- The numbers of DNS: an answer has no zone in it. -/
def Network.Dns (net : Network) : Prop :=
  ∀ log host answer, net.resolve log host = .ok answer → ∀ text ∈ answer, '%' ∉ text.toList

/-- A header, where several are joined. -/
def header (headers : List (String × String)) (name : String) : Option String :=
  let values := (headers.filter fun h => String.ofList (h.1.toList.map Char.toLower) = name).map
    Prod.snd
  if values = [] then none else some (", ".intercalate values)

/-- The request for an approved URL at an address. -/
def pinnedRequest (approved : ApprovedUrl) (address : Address) : Request where
  url := pinnedUrl approved address
  hostHeader := approved.host
  sniHostname := approved.host

/-- `sorted(addresses, key=lambda value: (value.version, int(value)))[0]`. -/
def firstAddress (addresses : List Address) : Option Address :=
  (addresses.insertionSort fun a b =>
    a.version < b.version ∨ (a.version = b.version ∧ a.toNat ≤ b.toNat)).head?

/-- What a client sends: the host is resolved, all its addresses are checked, and the first is
asked. -/
def pinnedSend (net : Network) (approved : ApprovedUrl) (invalid : Fault → Fault) (empty : Fault) :
    Logged NetworkEvent Fault Response := do
  let answer ← ask (net.resolve · approved.host) (.lookup approved.host)
  let addresses ← of ((answer.mapM requirePublicAddress).mapError invalid)
  let target ← of (fromSome (firstAddress addresses) empty)
  let request := pinnedRequest approved target
  ask (net.send · request) (.request request)

/-- The loop of `_bounded_body`. -/
def readChunks (limit : Nat) (tooLarge : Fault) (ended : Except Fault Unit) (body : Bytes) :
    List Bytes → Except Fault Bytes
  | [] => ended.map fun _ => body
  | chunk :: chunks =>
    if limit < (body ++ chunk).length then .error tooLarge
    else readChunks limit tooLarge ended (body ++ chunk) chunks

/-- `_bounded_body`. The response is closed in any case, and what closing raises is raised. -/
def boundedBody (limit : Nat) (tooLarge : Fault) (response : Response) : Except Fault Bytes := do
  response.closed
  readChunks limit tooLarge response.ended [] response.chunks

/-- A response that fails a check is closed. -/
def Response.check (response : Response) (p : Prop) [Decidable p] (fault : Fault) :
    Except Fault Unit :=
  if p then .ok () else response.closed >>= fun _ => .error fault

/-! ## `SafeHttpFetcher` -/

/-- `ParserHttpPolicy`, without the timeouts. -/
structure ParserHttpPolicy where
  maxRedirects : Nat
  maxHeaderBytes : Nat
  maxBodyBytes : Nat

structure FetchedDocument where
  requestedUrl : String
  finalUrl : String
  contentType : String
  body : Bytes
  deriving DecidableEq, Repr

/-- `value.encode("latin-1")`, of which only the length counts. -/
def latin1Length (value : String) : Except Fault Nat := do
  require (value.toList.all fun c => c.toNat < 256) (.value "'latin-1' codec can't encode")
  return value.length

/-- `header_bytes`. -/
def headerBytes (headers : List (String × String)) : Except Fault Nat :=
  headers.foldlM (fun total h => do
    let name ← latin1Length h.1
    let value ← latin1Length h.2
    return total + name + value + 4) 0

def redirectStatuses : List Nat := [301, 302, 303, 307, 308]

/-- How `fetch` reports what the client raised. -/
def fetchFault : Fault → Fault
  | .deadline => .fetch "source_total_timeout"
  | .httpTimeout => .fetch "source_http_timeout"
  | .transport => .fetch "source_transport_failed"
  | other => other

section Fetch

variable (u : Unicode) (t : HostTables) (urljoin : String → String → Except Fault String)
  (net : Network) (policy : ParserHttpPolicy)

/-- `_request`. -/
def request (approved : ApprovedUrl) : Logged NetworkEvent Fault Response := do
  let response ← pinnedSend net approved id (.fetch "source_dns_empty")
  of do
    let total ← headerBytes response.headers
    response.check (total ≤ policy.maxHeaderBytes) (.policy "source_headers_too_large")
    return response

/-- The URL that a response redirects to. -/
def redirectTarget (current : ApprovedUrl) (response : Response) (last : Bool) :
    Except Fault ApprovedUrl := do
  let location := header response.headers "location"
  response.closed
  let location ← fromSome (if last then none else location)
    (.policy "source_redirect_limit_exceeded")
  let joined ← urljoin current.url location
  approveSourceUrl u t joined

/-- The document of a response that does not redirect. -/
def readDocument (requested current : ApprovedUrl) (response : Response) :
    Except Fault FetchedDocument := do
  response.check (response.statusCode = 200) (.fetch "source_http_status_failed")
  let contentType := (header response.headers "content-type").getD ""
  let mediaType := t.lower (strip (String.ofList (partition ';' contentType.toList).1))
  response.check (mediaType ∈ ["text/html", "application/xhtml+xml"])
    (.policy "source_content_type_not_allowed")
  let body ← boundedBody policy.maxBodyBytes (.policy "source_body_too_large") response
  return {
    requestedUrl := requested.url
    finalUrl := current.url
    contentType
    body }

/-- The loop of `fetch`; `remaining` passes are left. -/
def fetchFrom (requested : ApprovedUrl) :
    Nat → ApprovedUrl → Logged NetworkEvent Fault FetchedDocument
  | 0, _ => of (.error (.fetch "source_redirect_state_invalid"))
  | remaining + 1, current => do
    let response ← request net policy current
    if response.statusCode ∈ redirectStatuses then do
      let next ← of (redirectTarget u t urljoin current response (remaining = 0))
      fetchFrom requested remaining next
    else of (readDocument t policy requested current response)

/-- `fetch`. -/
def fetch (url : String) : Logged NetworkEvent Fault FetchedDocument := do
  let requested ← of (approveSourceUrl u t url)
  handle fetchFault
    (fetchFrom u t urljoin net policy requested (policy.maxRedirects + 1) requested)

end Fetch

/-! ## What is sent -/

/-- A request that was sent: the URL that was approved, what DNS said of its host, the address that
was chosen, and the response. -/
structure Exchange where
  approved : ApprovedUrl
  answer : List String
  address : Address
  request : Request
  response : Except Fault Response

/-- What an exchange writes to the log. -/
def Exchange.events (e : Exchange) : List NetworkEvent :=
  [.lookup e.approved.host (.ok e.answer), .request e.request e.response]

/-- The request went over https to a literal address that was accepted from the answer of DNS for
its very host, with the approved path and query, and with the host in its header and for TLS. -/
structure Exchange.Pinned (e : Exchange) : Prop where
  accepted : ∃ text ∈ e.answer, requirePublicAddress text = .ok e.address
  target : target e.request.url = some (authority e.address, e.approved.pathAndQuery.toList)
  hostHeader : e.request.hostHeader = e.approved.host
  sniHostname : e.request.sniHostname = e.approved.host

theorem firstAddress_mem {addresses : List Address} {address : Address}
    (h : firstAddress addresses = some address) : address ∈ addresses :=
  (List.perm_insertionSort _ _).mem_iff.mp (List.mem_of_head? h)

/-- What a client sends for an approved URL is one pinned request, if anything. -/
theorem pinnedSend_triple {net : Network} (hdns : net.Dns) {approved : ApprovedUrl}
    (hpath : ∀ c ∈ approved.pathAndQuery.toList.head?, endsAuthority c = true)
    (invalid : Fault → Fault) (empty : Fault) (before : List NetworkEvent) :
    Triple (· = before) (pinnedSend net approved invalid empty)
      (fun response log => ∃ e : Exchange, e.approved = approved ∧ e.Pinned ∧
        e.response = .ok response ∧ log = before ++ e.events)
      (fun _ log => (∃ answer, log = before ++ [.lookup approved.host answer]) ∨
        ∃ e : Exchange, e.approved = approved ∧ e.Pinned ∧ log = before ++ e.events) := by
  unfold pinnedSend
  refine Triple.bind (Q := fun answer log => net.resolve before approved.host = .ok answer ∧
    log = before ++ [.lookup approved.host (.ok answer)]) ?_ fun answer => ?_
  · refine Triple.ask ?_ ?_
    · rintro log answer rfl hanswer
      exact ⟨hanswer, rfl⟩
    · rintro log fault rfl -
      exact .inl ⟨_, rfl⟩
  refine Triple.bind (Q := fun addresses log => (net.resolve before approved.host = .ok answer ∧
    log = before ++ [.lookup approved.host (.ok answer)]) ∧
      answer.mapM requirePublicAddress = .ok addresses) ?_ fun addresses => ?_
  · refine Triple.of ?_ ?_
    · exact fun addresses log haddresses hlog => ⟨hlog, mapError_eq_ok.mp haddresses⟩
    · exact fun fault log _ hlog => .inl ⟨_, hlog.2⟩
  refine Triple.bind (Q := fun address log => (net.resolve before approved.host = .ok answer ∧
    log = before ++ [.lookup approved.host (.ok answer)]) ∧
      ∃ text ∈ answer, requirePublicAddress text = .ok address) ?_ fun address => ?_
  · refine Triple.of ?_ ?_
    · rintro address log haddress ⟨hlog, haddresses⟩
      have hmem := firstAddress_mem (fromSome_eq_ok.mp haddress)
      exact ⟨hlog, mem_of_mapM haddresses hmem⟩
    · exact fun fault log _ hlog => .inl ⟨_, hlog.1.2⟩
  -- the request, whatever the server answers
  have hpinned : ∀ response, net.resolve before approved.host = .ok answer →
      (∃ text ∈ answer, requirePublicAddress text = .ok address) →
        (Exchange.mk approved answer address (pinnedRequest approved address) response).Pinned := by
    rintro response hanswer ⟨text, htext, haccepted⟩
    have hzone := requirePublicAddress_zone haccepted (hdns _ _ _ hanswer text htext)
    exact ⟨⟨text, htext, haccepted⟩, target_pinnedUrl hzone hpath, rfl, rfl⟩
  refine Triple.ask ?_ ?_
  · rintro _ response ⟨⟨hanswer, rfl⟩, haccepted⟩ -
    exact ⟨_, rfl, hpinned (.ok response) hanswer haccepted, rfl, by simp [Exchange.events]⟩
  · rintro _ fault ⟨⟨hanswer, rfl⟩, haccepted⟩ -
    exact .inr ⟨_, rfl, hpinned (.error fault) hanswer haccepted, by simp [Exchange.events]⟩

theorem readChunks_spec {limit : Nat} {tooLarge : Fault} {ended : Except Fault Unit}
    {chunks : List Bytes} : ∀ {body result : Bytes}, body.length ≤ limit →
      readChunks limit tooLarge ended body chunks = .ok result →
        result = body ++ chunks.flatten ∧ result.length ≤ limit := by
  induction chunks with
  | nil =>
    intro body result hbody h
    obtain ⟨_, -, rfl⟩ := map_eq_ok.mp h
    exact ⟨(List.append_nil _).symm, hbody⟩
  | cons chunk chunks ih =>
    intro body result hbody h
    rw [readChunks] at h
    by_cases hlimit : limit < (body ++ chunk).length
    · rw [if_pos hlimit] at h
      cases h
    · rw [if_neg hlimit] at h
      obtain ⟨hresult, hlength⟩ := ih (by omega) h
      exact ⟨by rw [hresult, List.flatten_cons, List.append_assoc], hlength⟩

/-- A body that is returned is the whole body, and within the limit. -/
theorem boundedBody_spec {limit : Nat} {tooLarge : Fault} {response : Response} {body : Bytes}
    (h : boundedBody limit tooLarge response = .ok body) :
    body = response.chunks.flatten ∧ body.length ≤ limit := by
  obtain ⟨-, h⟩ := seq_eq_ok.mp h
  exact readChunks_spec (Nat.zero_le limit) h

theorem check_eq_ok {response : Response} {p : Prop} [Decidable p] {fault : Fault} {u : Unit} :
    response.check p fault = .ok u ↔ p := by
  unfold Response.check
  by_cases hp : p
  · rw [if_pos hp]
    exact iff_of_true rfl hp
  · rw [if_neg hp]
    refine iff_of_false (fun h => ?_) hp
    obtain ⟨_, -, h⟩ := bind_eq_ok.mp h
    cases h

/-- A document that is returned is the body of a response of status 200. -/
theorem readDocument_spec {t : HostTables} {policy : ParserHttpPolicy}
    {requested current : ApprovedUrl} {response : Response} {document : FetchedDocument}
    (h : readDocument t policy requested current response = .ok document) :
    response.statusCode = 200 ∧ document.requestedUrl = requested.url ∧
      document.finalUrl = current.url ∧ document.body = response.chunks.flatten ∧
        document.body.length ≤ policy.maxBodyBytes := by
  unfold readDocument at h
  obtain ⟨hstatus, h⟩ := seq_eq_ok.mp h
  obtain ⟨-, h⟩ := seq_eq_ok.mp h
  obtain ⟨body, hbody, h⟩ := bind_eq_ok.mp h
  cases h
  obtain ⟨hwhole, hlength⟩ := boundedBody_spec hbody
  exact ⟨check_eq_ok.mp hstatus, rfl, rfl, hwhole, hlength⟩

/-! ## The exchanges of a fetch -/

section Within

variable (u : Unicode) (t : HostTables) (urljoin : String → String → Except Fault String)
  (policy : ParserHttpPolicy)

/-- The exchange redirected to a URL that was approved. -/
def Exchange.Redirects (e : Exchange) (next : ApprovedUrl) : Prop :=
  ∃ response location joined, e.response = .ok response ∧
    response.statusCode ∈ redirectStatuses ∧
    header response.headers "location" = some location ∧
    urljoin e.approved.url location = .ok joined ∧ approveSourceUrl u t joined = .ok next

/-- The exchanges start with the URL that was submitted, and each goes to where the one before
redirected to. -/
structure Trail (url : String) (exchanges : List Exchange) : Prop where
  pinned : ∀ e ∈ exchanges, e.Pinned ∧ e.approved.host ∈ allowedSourceHosts
  first : ∀ e ∈ exchanges.head?, approveSourceUrl u t url = .ok e.approved
  next : exchanges.IsChain fun e e' => e.Redirects u t urljoin e'.approved

/-- A document is the body of the last response, and comes from the URL of that request. -/
def Served (url : String) (exchanges : List Exchange) (document : FetchedDocument) : Prop :=
  document.body.length ≤ policy.maxBodyBytes ∧
    (∃ requested, approveSourceUrl u t url = .ok requested ∧
      document.requestedUrl = requested.url) ∧
    ∃ last response, exchanges.getLast? = some last ∧ last.response = .ok response ∧
      response.statusCode = 200 ∧ document.finalUrl = last.approved.url ∧
      document.body = response.chunks.flatten

/-- All that a fetch sent is a trail of at most `count` exchanges; besides these it only looked
hosts up. -/
def Within (url : String) (before : List NetworkEvent) (count : Nat)
    (document : Option FetchedDocument) (log : List NetworkEvent) : Prop :=
  ∃ exchanges rest, log = before ++ exchanges.flatMap Exchange.events ++ rest ∧
    (∀ event ∈ rest, ∃ host answer, event = .lookup host answer) ∧
    Trail u t urljoin url exchanges ∧ exchanges.length ≤ count ∧
    ∀ d ∈ document, Served u t policy url exchanges d

/-- The next URL is the one submitted, or the one redirected to last. -/
structure Leads (url : String) (exchanges : List Exchange) (current : ApprovedUrl) : Prop where
  approved : ∃ value, approveSourceUrl u t value = .ok current
  start : exchanges = [] → approveSourceUrl u t url = .ok current
  hop : ∀ last ∈ exchanges.getLast?, last.Redirects u t urljoin current

variable {u t urljoin policy} {url : String} {exchanges : List Exchange} {current : ApprovedUrl}
  {before : List NetworkEvent}

theorem Trail.nil : Trail u t urljoin url [] :=
  ⟨fun _ h => absurd h List.not_mem_nil, fun _ h => (Option.not_mem_none _ h).elim, .nil⟩

theorem Trail.concat {e : Exchange} (h : Trail u t urljoin url exchanges)
    (hleads : Leads u t urljoin url exchanges current) (happroved : e.approved = current)
    (hpinned : e.Pinned) : Trail u t urljoin url (exchanges ++ [e]) := by
  obtain ⟨value, hvalue⟩ := hleads.approved
  refine ⟨fun e' he' => ?_, fun e' he' => ?_, ?_⟩
  · rcases List.mem_append.mp he' with he' | he'
    · exact h.pinned e' he'
    · obtain rfl := List.mem_singleton.mp he'
      exact ⟨hpinned, happroved ▸ (approveSourceUrl_spec hvalue).1⟩
  · cases exchanges with
    | nil =>
      obtain rfl : e = e' := Option.some.inj he'
      rw [happroved]
      exact hleads.start rfl
    | cons first exchanges => exact h.first e' he'
  · refine List.isChain_append.mpr ⟨h.next, .singleton e, fun last hlast e' he' => ?_⟩
    obtain rfl : e = e' := Option.some.inj he'
    rw [happroved]
    exact hleads.hop last hlast

/-- A response that redirects leads on. -/
theorem Leads.of_redirect {e : Exchange} {response : Response} {last : Bool} {next : ApprovedUrl}
    (hresponse : e.response = .ok response) (hstatus : response.statusCode ∈ redirectStatuses)
    (h : redirectTarget u t urljoin e.approved response last = .ok next) :
    Leads u t urljoin url (exchanges ++ [e]) next := by
  unfold redirectTarget at h
  obtain ⟨-, h⟩ := seq_eq_ok.mp h
  obtain ⟨location, hlocation, h⟩ := bind_eq_ok.mp h
  obtain ⟨joined, hjoined, h⟩ := bind_eq_ok.mp h
  have hheader : header response.headers "location" = some location := by
    have hsome := fromSome_eq_ok.mp hlocation
    split at hsome
    · cases hsome
    · exact hsome
  refine ⟨⟨joined, h⟩, fun hnil => absurd hnil (List.concat_ne_nil _ _), fun e' he' => ?_⟩
  rw [List.getLast?_concat] at he'
  obtain rfl : e = e' := Option.some.inj he'
  exact ⟨response, location, joined, hresponse, hstatus, hheader, hjoined, h⟩

/-- A fetch that stops where it is stays within what it did. -/
theorem Trail.within {count : Nat} (h : Trail u t urljoin url exchanges)
    (hcount : exchanges.length ≤ count) {rest : List NetworkEvent}
    (hrest : ∀ event ∈ rest, ∃ host answer, event = .lookup host answer) :
    Within u t urljoin policy url before count none
      (before ++ exchanges.flatMap Exchange.events ++ rest) :=
  ⟨exchanges, rest, rfl, hrest, h, hcount, fun _ hd => (Option.not_mem_none _ hd).elim⟩

/-- A fetch that stops between two exchanges. -/
theorem Trail.stopped {count : Nat} (h : Trail u t urljoin url exchanges)
    (hcount : exchanges.length ≤ count) : Within u t urljoin policy url before count none
      (before ++ exchanges.flatMap Exchange.events) :=
  ⟨exchanges, [], (List.append_nil _).symm, fun _ h => absurd h List.not_mem_nil, h, hcount,
    fun _ hd => (Option.not_mem_none _ hd).elim⟩

end Within

/-- `_request` sends what `pinnedSend` sends. -/
theorem request_triple {net : Network} (hdns : net.Dns) {policy : ParserHttpPolicy}
    {approved : ApprovedUrl}
    (hpath : ∀ c ∈ approved.pathAndQuery.toList.head?, endsAuthority c = true)
    (before : List NetworkEvent) :
    Triple (· = before) (request net policy approved)
      (fun response log => ∃ e : Exchange, e.approved = approved ∧ e.Pinned ∧
        e.response = .ok response ∧ log = before ++ e.events)
      (fun _ log => (∃ answer, log = before ++ [.lookup approved.host answer]) ∨
        ∃ e : Exchange, e.approved = approved ∧ e.Pinned ∧ log = before ++ e.events) := by
  refine Triple.bind (pinnedSend_triple hdns hpath id _ before) fun response => Triple.of ?_ ?_
  · rintro response' log h hlog
    obtain ⟨total, -, h⟩ := bind_eq_ok.mp h
    obtain ⟨-, h⟩ := seq_eq_ok.mp h
    cases h
    exact hlog
  · rintro fault log - ⟨e, happroved, hpinned, -, hlog⟩
    exact .inr ⟨e, happroved, hpinned, hlog⟩

/-- What the loop of `fetch` does with `remaining` passes left. -/
theorem fetchFrom_triple {u : Unicode} {t : HostTables}
    {urljoin : String → String → Except Fault String} {net : Network} (hdns : net.Dns)
    {policy : ParserHttpPolicy} {url : String} {requested : ApprovedUrl}
    (hrequested : approveSourceUrl u t url = .ok requested) (before : List NetworkEvent)
    (remaining : Nat) : ∀ {exchanges : List Exchange} {current : ApprovedUrl},
      Trail u t urljoin url exchanges → Leads u t urljoin url exchanges current →
        Triple (· = before ++ exchanges.flatMap Exchange.events)
          (fetchFrom u t urljoin net policy requested remaining current)
          (fun document => Within u t urljoin policy url before
            (exchanges.length + remaining) (some document))
          (fun _ => Within u t urljoin policy url before (exchanges.length + remaining) none) := by
  induction remaining with
  | zero =>
    intro exchanges current htrail _
    rw [fetchFrom]
    refine Triple.of (fun _ _ h => by cases h) fun _ log _ hlog => ?_
    exact hlog ▸ htrail.stopped le_rfl
  | succ remaining ih =>
    intro exchanges current htrail hleads
    obtain ⟨value, hvalue⟩ := hleads.approved
    have hpath : ∀ c ∈ current.pathAndQuery.toList.head?, endsAuthority c = true := by
      intro c hc
      rw [(approveSourceUrl_spec hvalue).2.1] at hc
      obtain rfl := Option.some.inj hc
      rfl
    -- the exchange of this pass continues the trail
    have hconcat : ∀ e : Exchange, e.approved = current → e.Pinned →
        Trail u t urljoin url (exchanges ++ [e]) := fun e happroved hpinned =>
      htrail.concat hleads happroved hpinned
    have hlog : ∀ e : Exchange, before ++ exchanges.flatMap Exchange.events ++ e.events =
        before ++ (exchanges ++ [e]).flatMap Exchange.events := by simp
    have hcount : ∀ e : Exchange,
        (exchanges ++ [e]).length ≤ exchanges.length + (remaining + 1) := by
      intro e
      rw [List.length_append, List.length_singleton]
      omega
    have hstop : ∀ e : Exchange, e.approved = current → e.Pinned →
        Within u t urljoin policy url before (exchanges.length + (remaining + 1)) none
          (before ++ exchanges.flatMap Exchange.events ++ e.events) := by
      intro e happroved hpinned
      rw [hlog]
      exact (hconcat e happroved hpinned).stopped (hcount e)
    rw [fetchFrom]
    refine Triple.bind (Triple.weaken (request_triple hdns hpath _) (fun _ h => h)
      (fun _ _ h => h) ?_) fun response => Triple.exists_pre fun e => ?_
    · rintro fault log (⟨answer, rfl⟩ | ⟨e, happroved, hpinned, rfl⟩)
      · exact htrail.within (by omega) fun event h =>
          ⟨_, _, List.mem_singleton.mp h⟩
      · exact hstop e happroved hpinned
    by_cases hstatus : response.statusCode ∈ redirectStatuses
    · rw [if_pos hstatus]
      refine Triple.bind (Q := fun next log => Leads u t urljoin url (exchanges ++ [e]) next ∧
        Trail u t urljoin url (exchanges ++ [e]) ∧
          log = before ++ (exchanges ++ [e]).flatMap Exchange.events) (Triple.of ?_ ?_) fun next => ?_
      · rintro next log hnext ⟨rfl, hpinned, hresponse, rfl⟩
        exact ⟨.of_redirect hresponse hstatus hnext, hconcat e rfl hpinned, hlog e⟩
      · rintro fault log - ⟨happroved, hpinned, -, rfl⟩
        exact hstop e happroved hpinned
      · rintro log ⟨hnext, htrail', rfl⟩
        have h := ih htrail' hnext _ rfl
        rw [List.length_append, List.length_singleton, Nat.add_assoc, Nat.add_comm 1] at h
        exact h
    · rw [if_neg hstatus]
      refine Triple.of ?_ ?_
      · rintro document log hdocument ⟨rfl, hpinned, hresponse, rfl⟩
        refine ⟨exchanges ++ [e], [], by rw [hlog, List.append_nil],
          fun _ h => absurd h List.not_mem_nil, hconcat e rfl hpinned, hcount e, fun d hd => ?_⟩
        obtain rfl : document = d := Option.some.inj hd
        obtain ⟨hok, hfirst, hlast, hbody, hlength⟩ := readDocument_spec hdocument
        exact ⟨hlength, ⟨requested, hrequested, hfirst⟩, e, response, List.getLast?_concat,
          hresponse, hok, hlast, hbody⟩
      · rintro fault log - ⟨happroved, hpinned, -, rfl⟩
        exact hstop e happroved hpinned

/-- **Fetching stays inside the policy.** Whatever DNS and the servers answer, `fetch` sends at most
one request more than redirects are allowed. The first is for the URL that was submitted, each
other for an approved URL that the response before redirected to, and all of them are pinned. A
document that is returned is the body of the last response, within the limit. -/
theorem fetch_within (u : Unicode) (t : HostTables)
    (urljoin : String → String → Except Fault String) {net : Network} (hdns : net.Dns)
    (policy : ParserHttpPolicy) (url : String) (before : List NetworkEvent) :
    Within u t urljoin policy url before (policy.maxRedirects + 1)
      ((fetch u t urljoin net policy url).outcome before).1.toOption
      ((fetch u t urljoin net policy url).outcome before).2 := by
  have htriple : Triple (· = before) (fetch u t urljoin net policy url)
      (fun document => Within u t urljoin policy url before (policy.maxRedirects + 1)
        (some document))
      (fun _ => Within u t urljoin policy url before (policy.maxRedirects + 1) none) := by
    have hnone : Within u t urljoin policy url before (policy.maxRedirects + 1) none before := by
      have hstopped : Within u t urljoin policy url before (policy.maxRedirects + 1) none
          (before ++ [].flatMap Exchange.events) := Trail.nil.stopped (Nat.zero_le _)
      rwa [List.flatMap_nil, List.append_nil] at hstopped
    refine Triple.bind (Q := fun requested log =>
      approveSourceUrl u t url = .ok requested ∧ log = before) (Triple.of ?_ ?_) fun requested => ?_
    · exact fun requested log hrequested hlog => ⟨hrequested, hlog⟩
    · rintro fault log - rfl
      exact hnone
    · rintro log ⟨hrequested, rfl⟩
      have hleads : Leads u t urljoin url [] requested :=
        ⟨⟨url, hrequested⟩, fun _ => hrequested, fun _ h => (Option.not_mem_none _ h).elim⟩
      refine Triple.handle (Triple.weaken
        (fetchFrom_triple hdns hrequested log (policy.maxRedirects + 1) Trail.nil hleads)
        (fun _ h => h) (fun _ _ h => ?_) fun _ _ h => ?_) log (List.append_nil _).symm
      · rwa [List.length_nil, Nat.zero_add] at h
      · rwa [List.length_nil, Nat.zero_add] at h
  have h := htriple before rfl
  cases houtcome : (fetch u t urljoin net policy url).outcome before with
  | mk result log =>
    rw [houtcome] at h
    cases result <;> exact h

end ComponentKb.Imports
