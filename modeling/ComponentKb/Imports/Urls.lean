import ComponentKb.Catalog.Text
import ComponentKb.Lib.Checked

/-!
# URLs and network addresses

Model of `imports/urls.py`, over the parts of `ipaddress` and of `urllib.parse` that it calls.

* `requirePublicAddress` accepts an address of DNS, `pinnedUrl` is the URL that is requested in the
  place of an approved one.
* `approveSourceUrl_spec`: what an approved URL is made of.
* **`target_pinnedUrl`**: a pinned URL goes over https to the literal address, with the approved path
  and query.
-/

namespace ComponentKb.Imports

open Catalog Lib

/-! ## What is raised -/

/-- The exceptions of a fetch. -/
inductive Fault where
  /-- `SourcePolicyError`. -/
  | policy (code : String)
  /-- `SourceFetchError`. -/
  | fetch (code : String)
  /-- `RepositoryAcquisitionError`. -/
  | acquisition (code : String) (retryable : Bool)
  /-- `TimeoutError`, of a deadline. -/
  | deadline
  /-- `httpx2.TimeoutException`. -/
  | httpTimeout
  /-- Another `httpx2.TransportError`. -/
  | transport
  /-- `ValueError`. -/
  | value (text : String)
  /-- Another exception. -/
  | other (text : String)
  deriving DecidableEq, Repr

/-! ## Addresses -/

/-- `IPv4Address` and `IPv6Address`. -/
inductive Address where
  | v4 (value : BitVec 32)
  | v6 (value : BitVec 128) (zone : Option String)
  deriving DecidableEq, Repr

/-- `int(address)`. -/
def Address.toNat : Address → Nat
  | .v4 value => value.toNat
  | .v6 value _ => value.toNat

/-- `address.version`. -/
def Address.version : Address → Nat
  | .v4 _ => 4
  | .v6 _ _ => 6

/-- One of the four numbers of an IPv4 address. -/
def octet (text : List Char) : Option Nat :=
  let value := text.foldl (fun n c => 10 * n + (c.toNat - '0'.toNat)) 0
  if text ≠ [] ∧ text.all Char.isDigit ∧ text.length ≤ 3 ∧
      (text = ['0'] ∨ text.head? ≠ some '0') ∧ value ≤ 255 then some value
  else none

/-- `IPv4Address(text)`. -/
def parseV4 (text : List Char) : Option (BitVec 32) := do
  let octets ← (text.splitOn '.').mapM octet
  if octets.length = 4 then some (BitVec.ofNat 32 (octets.foldl (fun n o => 256 * n + o) 0))
  else none

/-- A hexadecimal digit. -/
def hexDigit (c : Char) : Option Nat :=
  if c.isDigit then some (c.toNat - '0'.toNat)
  else if 'a' ≤ c ∧ c ≤ 'f' then some (c.toNat - 'a'.toNat + 10)
  else if 'A' ≤ c ∧ c ≤ 'F' then some (c.toNat - 'A'.toNat + 10)
  else none

/-- One of the numbers between the colons. -/
def hextet (text : List Char) : Option Nat := do
  let digits ← text.mapM hexDigit
  if digits.length ≤ 4 then some (digits.foldl (fun n d => 16 * n + d) 0) else none

/-- The parts of an IPv6 address, where an IPv4 address at the end counts for two. -/
def hexParts (text : List Char) : Option (List (List Char)) :=
  let parts := text.splitOn ':'
  match parts.getLast? with
  | some last =>
    if '.' ∈ last then (parseV4 last).map fun value =>
      parts.dropLast ++
        [Nat.toDigits 16 (value.toNat / 65536), Nat.toDigits 16 (value.toNat % 65536)]
    else some parts
  | none => none

/-- The eight numbers of an IPv6 address: one empty part inside stands for zeros. -/
def hextets (parts : List (List Char)) : Option (List Nat) := do
  let inner := (parts.drop 1).dropLast
  if parts.length < 3 ∨ 9 < parts.length then none
  else if inner.count [] = 0 then
    if parts.length = 8 then parts.mapM fun part => if part = [] then none else hextet part
    else none
  else if inner.count [] = 1 then
    let high := parts.take (1 + inner.idxOf [])
    let low := parts.drop (2 + inner.idxOf [])
    -- an empty part at an end stands beside the one inside
    if high.head? = some [] ∧ high.length ≠ 1 ∨ low.getLast? = some [] ∧ low.length ≠ 1 then none
    else do
      let high ← (high.filter (· ≠ [])).mapM hextet
      let low ← (low.filter (· ≠ [])).mapM hextet
      if high.length + low.length < 8 then
        some (high ++ List.replicate (8 - (high.length + low.length)) 0 ++ low)
      else none
  else none

/-- `IPv6Address(text)`. -/
def parseV6 (text : List Char) : Option (BitVec 128 × Option String) := do
  let value := text.takeWhile (· ≠ '%')
  let zone ← match text.drop value.length with
    | [] => some none
    | _ :: zone => if zone = [] ∨ '%' ∈ zone then none else some (some (String.ofList zone))
  if '/' ∈ text then none
  else
    let numbers ← hexParts value >>= hextets
    some (BitVec.ofNat 128 (numbers.foldl (fun n h => 65536 * n + h) 0), zone)

/-- `ip_address(text)`. -/
def ipAddress (text : String) : Option Address :=
  match parseV4 text.toList with
  | some value => some (.v4 value)
  | none => (parseV6 text.toList).map fun (value, zone) => .v6 value zone

/-- `address in network`, of networks that are given by an address and the length of a prefix. -/
def inNetworks (width value : Nat) (networks : List (Nat × Nat)) : Bool :=
  networks.any fun network => value >>> (width - network.2) = network.1 >>> (width - network.2)

/-- What `require_public_address` asks of an address. -/
structure AddressClass where
  isGlobal : Bool
  isLoopback : Bool
  isPrivate : Bool
  isLinkLocal : Bool
  isMulticast : Bool
  isReserved : Bool
  isUnspecified : Bool
  deriving DecidableEq, Repr

/-- The properties of `IPv4Address`. -/
def classV4 (value : BitVec 32) : AddressClass :=
  let n := value.toNat
  let isPrivate := inNetworks 32 n
      [(0x00000000, 8), (0x0a000000, 8), (0x7f000000, 8), (0xa9fe0000, 16), (0xac100000, 12),
       (0xc0000000, 24), (0xc00000aa, 31), (0xc0000200, 24), (0xc0a80000, 16), (0xc6120000, 15),
       (0xc6336400, 24), (0xcb007100, 24), (0xf0000000, 4), (0xffffffff, 32)] &&
    !inNetworks 32 n [(0xc0000009, 32), (0xc000000a, 32)]
  { isGlobal := !inNetworks 32 n [(0x64400000, 10)] && !isPrivate
    isLoopback := inNetworks 32 n [(0x7f000000, 8)]
    isPrivate
    isLinkLocal := inNetworks 32 n [(0xa9fe0000, 16)]
    isMulticast := inNetworks 32 n [(0xe0000000, 4)]
    isReserved := inNetworks 32 n [(0xf0000000, 4)]
    isUnspecified := n = 0 }

/-- `address.ipv4_mapped`. -/
def ipv4Mapped : Address → Option (BitVec 32)
  | .v4 _ => none
  | .v6 value _ => if value.toNat / 2 ^ 32 = 0xffff then some (value.extractLsb' 0 32) else none

/-- A number of 128 bits from the first two of its eight parts. -/
def v6Base (first second : Nat) : Nat := (first * 65536 + second) * 2 ^ 96

/-- The properties of `IPv6Address` of an address that is not mapped. -/
def classV6 (value : BitVec 128) : AddressClass :=
  let n := value.toNat
  let isPrivate := inNetworks 128 n
      [(1, 128), (0, 128), (0xffff * 2 ^ 32, 96), (v6Base 0x64 0xff9b + 2 ^ 80, 48),
       (v6Base 0x100 0, 64), (v6Base 0x2001 0, 23), (v6Base 0x2001 0xdb8, 32),
       (v6Base 0x2002 0, 16), (v6Base 0x3fff 0, 20), (v6Base 0xfc00 0, 7), (v6Base 0xfe80 0, 10)] &&
    !inNetworks 128 n
      [(v6Base 0x2001 1 + 1, 128), (v6Base 0x2001 1 + 2, 128), (v6Base 0x2001 3, 32),
       (v6Base 0x2001 4 + 0x112 * 2 ^ 80, 48), (v6Base 0x2001 0x20, 28), (v6Base 0x2001 0x30, 28)]
  { isGlobal := !isPrivate
    isLoopback := n = 1
    isPrivate
    isLinkLocal := inNetworks 128 n [(v6Base 0xfe80 0, 10)]
    isMulticast := inNetworks 128 n [(v6Base 0xff00 0, 8)]
    isReserved := inNetworks 128 n
      [(0, 8), (v6Base 0x100 0, 8), (v6Base 0x200 0, 7), (v6Base 0x400 0, 6), (v6Base 0x800 0, 5),
       (v6Base 0x1000 0, 4), (v6Base 0x4000 0, 3), (v6Base 0x6000 0, 3), (v6Base 0x8000 0, 3),
       (v6Base 0xa000 0, 3), (v6Base 0xc000 0, 3), (v6Base 0xe000 0, 4), (v6Base 0xf000 0, 5),
       (v6Base 0xf800 0, 6), (v6Base 0xfe00 0, 9)]
    isUnspecified := n = 0 }

/-- The properties of an address; those of a mapped one are those of the address it maps. -/
def classOf : Address → AddressClass
  | .v4 value => classV4 value
  | .v6 value zone => match ipv4Mapped (.v6 value zone) with
    | some mapped => classV4 mapped
    | none => classV6 value

/-- `blocked`. -/
def AddressClass.blocked (c : AddressClass) : Bool :=
  !c.isGlobal || c.isLoopback || c.isPrivate || c.isLinkLocal || c.isMulticast || c.isReserved ||
    c.isUnspecified

/-- `require_public_address`. -/
def requirePublicAddress (value : String) : Except Fault Address := do
  let address ← fromSome (ipAddress value) (.policy "source_dns_address_invalid")
  let mappedBlocked := (ipv4Mapped address).any fun mapped => (classV4 mapped).blocked
  require (¬ ((classOf address).blocked || mappedBlocked)) (.policy "source_dns_address_forbidden")
  return address

/-! ## How an address is written -/

def decimalText (n : Nat) : List Char := Nat.toDigits 10 n

/-- `str(IPv4Address)`. -/
def literalV4 (value : BitVec 32) : List Char :=
  let n := value.toNat
  ['.'].intercalate [decimalText (n / 2 ^ 24 % 256), decimalText (n / 2 ^ 16 % 256),
    decimalText (n / 2 ^ 8 % 256), decimalText (n % 256)]

/-- `"%x" % n`, of a number below 65536. -/
def hexText (n : Nat) : List Char :=
  let digits := ([n / 4096 % 16, n / 256 % 16, n / 16 % 16, n % 16].map Nat.digitChar).dropWhile
    (· = '0')
  if digits = [] then ['0'] else digits

/-- The place and the length of the first of the longest runs of zeros. -/
def longestZeros (numbers : List Nat) : Nat × Nat :=
  (List.range numbers.length).foldl
    (fun best start =>
      let run := ((numbers.drop start).takeWhile (· = 0)).length
      if best.2 < run then (start, run) else best) (0, 0)

/-- `_string_from_ip_int`, of eight numbers. -/
def literalHextets (numbers : List Nat) : List Char :=
  let (start, run) := longestZeros numbers
  let texts := numbers.map hexText
  if 1 < run then
    [':'].intercalate (texts.take start) ++ [':', ':'] ++
      [':'].intercalate (texts.drop (start + run))
  else [':'].intercalate texts

/-- The eight numbers of an address. -/
def numbersOf (value : BitVec 128) : List Nat :=
  (List.range 8).map fun i => value.toNat / 65536 ^ (7 - i) % 65536

/-- `str(address)`. -/
def literal : Address → List Char
  | .v4 value => literalV4 value
  | .v6 value zone =>
    let text := match ipv4Mapped (.v6 value zone) with
      | some mapped => literalHextets (numbersOf (value >>> 32)) ++ ':' :: literalV4 mapped
      | none => literalHextets (numbersOf value)
    match zone with
    | some zone => text ++ '%' :: zone.toList
    | none => text

/-- The authority of a pinned URL. -/
def authority : Address → List Char
  | .v4 value => literal (.v4 value)
  | .v6 value zone => '[' :: literal (.v6 value zone) ++ [']']

/-! ## `urllib.parse` -/

/-- What is read off other tables than those of `Unicode`: `str.lower`, and the encoding `idna`,
which fails with a `UnicodeError`. -/
structure HostTables where
  lower : String → String
  idna : String → Option String

/-- `SplitResult`, without the fragment. -/
structure SplitResult where
  scheme : String
  netloc : List Char
  path : List Char
  query : List Char
  deriving DecidableEq, Repr

/-- The text up to the last `@`, if there is one, and the text after it. -/
def splitUserinfo (netloc : List Char) : Option (List Char) × List Char :=
  let hostinfo := (netloc.reverse.takeWhile (· ≠ '@')).reverse
  if hostinfo.length = netloc.length then (none, netloc)
  else (some (netloc.take (netloc.length - hostinfo.length - 1)), hostinfo)

/-- `text.partition(c)`, where the separator is left out. -/
def partition (c : Char) (text : List Char) : List Char × List Char :=
  let before := text.takeWhile (· ≠ c)
  (before, text.drop (before.length + 1))

/-- `_hostinfo`: the host and the port. -/
def hostinfo (netloc : List Char) : List Char × List Char :=
  let info := (splitUserinfo netloc).2
  if '[' ∈ info then
    let (host, rest) := partition ']' (partition '[' info).2
    (host, (partition ':' rest).2)
  else partition ':' info

/-- `hostname`: a zone is not lowered. -/
def SplitResult.hostname (t : HostTables) (parsed : SplitResult) : Option String :=
  let host := (hostinfo parsed.netloc).1
  let name := host.takeWhile (· ≠ '%')
  if host = [] then none
  else some (t.lower (String.ofList name) ++ String.ofList (host.drop name.length))

/-- `port`. -/
def SplitResult.port (parsed : SplitResult) : Except Fault (Option Nat) := do
  let text := (hostinfo parsed.netloc).2
  let port := text.foldl (fun n c => 10 * n + (c.toNat - '0'.toNat)) 0
  require (text.all Char.isDigit) (.value "Port could not be cast to integer value")
  require (port ≤ 65535) (.value "Port out of range 0-65535")
  return if text = [] then none else some port

/-- `username is not None`. -/
def SplitResult.hasUser (parsed : SplitResult) : Bool := (splitUserinfo parsed.netloc).1.isSome

/-- `password is not None`. -/
def SplitResult.hasPassword (parsed : SplitResult) : Bool :=
  (splitUserinfo parsed.netloc).1.any fun user => ':' ∈ user

/-- `_check_bracketed_host`. -/
def bracketedHost (host : List Char) : Bool :=
  match host with
  | 'v' :: rest =>
    let (number, tail) := partition '.' rest
    number ≠ [] && number.all (fun c => (hexDigit c).isSome) && tail ≠ [] && '\n' ∉ tail
  | _ => (parseV4 host).isNone && (parseV6 host).isSome

/-- `_check_bracketed_netloc`. -/
def bracketedNetloc (netloc : List Char) : Bool :=
  let info := (splitUserinfo netloc).2
  if '[' ∈ info then
    let (before, bracketed) := partition '[' info
    let (host, port) := partition ']' bracketed
    before = [] && (port = [] || port.head? = some ':') && bracketedHost host
  else bracketedHost (partition ':' info).1

/-- `_checknetloc`: NFKC makes no separator of the characters of the authority. -/
def netlocNormal (u : Unicode) (netloc : List Char) : Bool :=
  let n := String.ofList (netloc.filter fun c => c ∉ ['@', ':', '#', '?'])
  netloc.all (fun c => c.toNat < 128) || u.nfkc n = n ||
    ['/', '?', '#', '@', ':'].all fun c => c ∉ (u.nfkc n).toList

/-- The scheme of a URL and the text after its colon. -/
def splitScheme (url : List Char) : String × List Char :=
  let scheme := url.takeWhile (· ≠ ':')
  let valid := scheme.length < url.length &&
    scheme.head?.any (fun c => c.isAlpha) &&
      scheme.all fun c => c.isAlphanum || c ∈ ['+', '-', '.']
  if valid then (String.ofList (scheme.map Char.toLower), url.drop (scheme.length + 1))
  else ("", url)

/-- A character that ends an authority. -/
def endsAuthority (c : Char) : Bool := c = '/' || c = '?' || c = '#'

/-- The path and the query of the text after an authority. -/
def splitPath (url : List Char) : List Char × List Char := partition '?' (partition '#' url).1

/-- `urlsplit`. -/
def urlsplit (u : Unicode) (url : String) : Except Fault SplitResult := do
  let url := (url.toList.dropWhile fun c => c.toNat ≤ 0x20).filter fun c =>
    c ∉ ['\t', '\r', '\n']
  let (scheme, url) := splitScheme url
  if ['/', '/'].isPrefixOf url then do
    let netloc := (url.drop 2).takeWhile fun c => !endsAuthority c
    require ('[' ∈ netloc ↔ ']' ∈ netloc) (.value "Invalid IPv6 URL")
    require ('[' ∈ netloc → bracketedNetloc netloc) (.value "Invalid IPv6 URL")
    require (netlocNormal u netloc) (.value "netloc contains invalid characters under NFKC")
    let (path, query) := splitPath (url.drop (2 + netloc.length))
    return { scheme, netloc, path, query }
  else
    let (path, query) := splitPath url
    return { scheme, netloc := [], path, query }

/-- A hexadecimal digit of `quote`. -/
def upperHex (n : Nat) : Char := (Nat.digitChar n).toUpper

/-- `quote(text, safe=safe)`. -/
def quote (safe : List Char) (text : List Char) : List Char :=
  (String.ofList text).toUTF8.toList.flatMap fun b =>
    let c := Char.ofNat b.toNat
    if b < 128 ∧ (c.isAlphanum ∨ c ∈ ['_', '.', '-', '~'] ∨ c ∈ safe) then [c]
    else ['%', upperHex (b.toNat / 16), upperHex (b.toNat % 16)]

/-- `unquote_to_bytes`, of ASCII characters. -/
def unquoteBytes : List Char → List UInt8
  | '%' :: a :: b :: rest =>
    match hexDigit a, hexDigit b with
    | some x, some y => UInt8.ofNat (16 * x + y) :: unquoteBytes rest
    | _, _ => '%'.toUInt8 :: unquoteBytes (a :: b :: rest)
  | c :: rest => c.toUInt8 :: unquoteBytes rest
  | [] => []

/-- `unquote(text, errors="strict")`: each run of ASCII characters is decoded for itself. -/
def unquote (text : List Char) : Option (List Char) :=
  ((text.splitBy fun a b : Char => a.toNat < 128 ↔ b.toNat < 128).mapM fun run : List Char =>
    if run.head?.any (fun c => c.toNat < 128) then
      (String.fromUTF8? ⟨(unquoteBytes run).toArray⟩).map String.toList
    else some run).map List.flatten

def https : List Char := ['h', 't', 't', 'p', 's', ':', '/', '/']

/-! ## `approve_source_url` -/

def allowedSourceHosts : List String := ["arduino-tex.ru", "portal-pk.ru", "alexgyver.ru"]

structure ApprovedUrl where
  url : String
  host : String
  pathAndQuery : String
  deriving DecidableEq, Repr

/-- `_ENCODED_SEPARATOR.search`. -/
def encodedSeparator : List Char → Bool
  | '%' :: a :: b :: rest =>
    (a = '2' && (b = 'f' || b = 'F')) || (a = '5' && (b = 'c' || b = 'C')) ||
      encodedSeparator (a :: b :: rest)
  | _ :: rest => encodedSeparator rest
  | [] => false

/-- The segments that are left of a path. -/
def canonicalSegments (segments : List (List Char)) : List (List Char) :=
  segments.foldl (fun kept segment =>
    if segment = [] ∨ segment = ['.'] then kept
    else if segment = ['.', '.'] then kept.dropLast
    else kept ++ [segment]) []

/-- `_canonical_path`. -/
def canonicalPath (path : List Char) : Except Fault (List Char) := do
  require ('\\' ∉ path ∧ ¬ encodedSeparator path) (.policy "source_url_path_separator_forbidden")
  let decoded ← fromSome (unquote (if path = [] then ['/'] else path))
    (.policy "source_url_path_invalid")
  let normalized := '/' :: ['/'].intercalate
    ((canonicalSegments (decoded.splitOn '/')).map (quote "!$&'()*+,;=:@-._~".toList))
  return if decoded.getLast? = some '/' ∧ normalized ≠ ['/'] then normalized ++ ['/']
    else normalized

/-- A path and the query after it. -/
def withQuery (path query : List Char) : List Char :=
  path ++ if query = [] then [] else '?' :: query

/-- The host of a URL: encoded, lowered and without dots at its end. -/
def encodedHost (t : HostTables) (host : String) : Option String :=
  (t.idna host).map fun name =>
    String.ofList ((t.lower name).toList.reverse.dropWhile (· = '.')).reverse

/-- `approve_source_url`. -/
def approveSourceUrl (u : Unicode) (t : HostTables) (value : String) :
    Except Fault ApprovedUrl := do
  require (value ≠ "" ∧ value.length ≤ 2048 ∧ ∀ c ∈ value.toList, 0x20 < c.toNat ∧ c.toNat ≠ 0x7f)
    (.policy "source_url_invalid")
  let parsed ← urlsplit u value
  require (parsed.scheme = "https") (.policy "source_url_must_use_https")
  let hostname ← fromSome (parsed.hostname t) (.policy "source_url_must_use_https")
  require (¬ parsed.hasUser ∧ ¬ parsed.hasPassword) (.policy "source_url_userinfo_forbidden")
  let port ← parsed.port.mapError fun _ => .policy "source_url_host_invalid"
  let host ← fromSome (encodedHost t hostname) (.policy "source_url_host_invalid")
  require (port = none ∨ port = some 443) (.policy "source_url_port_forbidden")
  require (host ∈ allowedSourceHosts) (.policy "source_host_not_allowed")
  let path ← canonicalPath parsed.path
  let pathAndQuery := withQuery path parsed.query
  return {
    url := String.ofList (https ++ host.toList ++ pathAndQuery)
    host
    pathAndQuery := String.ofList pathAndQuery }

/-- `pinned_url`. -/
def pinnedUrl (approved : ApprovedUrl) (address : Address) : String :=
  String.ofList (https ++ authority address ++ approved.pathAndQuery.toList)

/-! ## Where a pinned URL goes -/

/-- The authority of an https URL, and the text after it. -/
def target (url : String) : Option (List Char × List Char) :=
  if https.isPrefixOf url.toList then
    let rest := url.toList.drop 8
    let authority := rest.takeWhile fun c => !endsAuthority c
    some (authority, rest.drop authority.length)
  else none

/-- The zone of an address. -/
def Address.zone : Address → Option String
  | .v4 _ => none
  | .v6 _ zone => zone

theorem decimalText_plain (n : Nat) : ∀ c ∈ decimalText n, endsAuthority c = false := by
  intro c hc
  have hdigit := Nat.isDigit_of_mem_toDigits (by omega) (by omega) hc
  by_contra hends
  rw [Bool.not_eq_false, endsAuthority] at hends
  simp only [Bool.or_eq_true, decide_eq_true_eq] at hends
  obtain (rfl | rfl) | rfl := hends <;> exact absurd hdigit (by decide)

theorem hexText_plain (n : Nat) : ∀ c ∈ hexText n, endsAuthority c = false := by
  have hdigit : ∀ d : Fin 16, endsAuthority (Nat.digitChar d) = false := by decide
  have hdigits : ∀ c ∈ [n / 4096 % 16, n / 256 % 16, n / 16 % 16, n % 16].map Nat.digitChar,
      endsAuthority c = false := by
    intro c hc
    simp only [List.map_cons, List.map_nil, List.mem_cons, List.not_mem_nil, or_false] at hc
    obtain rfl | rfl | rfl | rfl := hc
    · exact hdigit ⟨_, Nat.mod_lt (n / 4096) (by omega)⟩
    · exact hdigit ⟨_, Nat.mod_lt (n / 256) (by omega)⟩
    · exact hdigit ⟨_, Nat.mod_lt (n / 16) (by omega)⟩
    · exact hdigit ⟨_, Nat.mod_lt n (by omega)⟩
  intro c hc
  simp only [hexText] at hc
  split at hc
  · rw [List.mem_singleton.mp hc]
    decide
  · exact hdigits c (List.dropWhile_subset _ hc)

/-- Plain texts and a plain separator give a plain text. -/
theorem intercalate_plain {sep : List Char} {texts : List (List Char)}
    (hsep : ∀ c ∈ sep, endsAuthority c = false)
    (htexts : ∀ text ∈ texts, ∀ c ∈ text, endsAuthority c = false) :
    ∀ c ∈ sep.intercalate texts, endsAuthority c = false := by
  induction texts with
  | nil => exact fun c hc => absurd hc List.not_mem_nil
  | cons text texts ih =>
    obtain ⟨htext, htexts⟩ := List.forall_mem_cons.mp htexts
    cases texts with
    | nil => simpa [List.intercalate] using htext
    | cons next texts =>
      intro c hc
      have hsplit : sep.intercalate (text :: next :: texts) =
          text ++ sep ++ sep.intercalate (next :: texts) := by simp [List.intercalate]
      rw [hsplit, List.mem_append, List.mem_append] at hc
      obtain (hc | hc) | hc := hc
      · exact htext c hc
      · exact hsep c hc
      · exact ih htexts c hc

theorem literalV4_plain (value : BitVec 32) : ∀ c ∈ literalV4 value, endsAuthority c = false := by
  refine intercalate_plain (by decide) fun text htext => ?_
  simp only [List.mem_cons, List.not_mem_nil, or_false] at htext
  obtain rfl | rfl | rfl | rfl := htext <;> exact decimalText_plain _

theorem literalHextets_plain (numbers : List Nat) :
    ∀ c ∈ literalHextets numbers, endsAuthority c = false := by
  have htexts : ∀ text ∈ numbers.map hexText, ∀ c ∈ text, endsAuthority c = false := by
    intro text htext
    obtain ⟨n, -, rfl⟩ := List.mem_map.mp htext
    exact hexText_plain n
  intro c hc
  simp only [literalHextets] at hc
  split at hc
  · rw [List.mem_append, List.mem_append] at hc
    obtain (hc | hc) | hc := hc
    · exact intercalate_plain (by decide)
        (fun text htext => htexts text (List.mem_of_mem_take htext)) c hc
    · simp only [List.mem_cons, List.not_mem_nil, or_false, or_self] at hc
      rw [hc]
      decide
    · exact intercalate_plain (by decide)
        (fun text htext => htexts text (List.mem_of_mem_drop htext)) c hc
  · exact intercalate_plain (by decide) htexts c hc

/-- An address without a zone has no character in it that ends an authority. -/
theorem authority_plain {address : Address} (hzone : address.zone = none) :
    ∀ c ∈ authority address, endsAuthority c = false := by
  cases address with
  | v4 value => exact literalV4_plain value
  | v6 value zone =>
    obtain rfl : zone = none := hzone
    have hliteral : ∀ c ∈ literal (.v6 value none), endsAuthority c = false := by
      intro c hc
      simp only [literal] at hc
      split at hc
      · rcases List.mem_append.mp hc with hc | hc
        · exact literalHextets_plain _ c hc
        · rcases List.mem_cons.mp hc with rfl | hc
          · decide
          · exact literalV4_plain _ c hc
      · exact literalHextets_plain _ c hc
    intro c hc
    simp only [authority, List.cons_append, List.mem_cons, List.mem_append, List.not_mem_nil,
      or_false] at hc
    obtain rfl | hc | rfl := hc
    · decide
    · exact hliteral c hc
    · decide

/-- A pinned URL goes to an authority that nothing ends early. -/
theorem target_pinned {approved : ApprovedUrl} {address : Address}
    (hplain : ∀ c ∈ authority address, endsAuthority c = false)
    (hpath : ∀ c ∈ approved.pathAndQuery.toList.head?, endsAuthority c = true) :
    target (pinnedUrl approved address) =
      some (authority address, approved.pathAndQuery.toList) := by
  have hstart : https.isPrefixOf (pinnedUrl approved address).toList := by
    rw [pinnedUrl, String.toList_ofList, List.append_assoc, List.isPrefixOf_iff_prefix]
    exact List.prefix_append _ _
  have hdrop : (pinnedUrl approved address).toList.drop 8 =
      authority address ++ approved.pathAndQuery.toList := by
    rw [pinnedUrl, String.toList_ofList, List.append_assoc]
    rfl
  have htake : (authority address ++ approved.pathAndQuery.toList).takeWhile
      (fun c => !endsAuthority c) = authority address := by
    rw [List.takeWhile_append_of_pos fun c hc => by rw [hplain c hc]; rfl]
    cases hrest : approved.pathAndQuery.toList with
    | nil => exact List.append_nil _
    | cons c rest =>
      rw [hrest] at hpath
      rw [List.takeWhile_cons_of_neg (by simpa using hpath c rfl), List.append_nil]
  rw [target, if_pos hstart, hdrop]
  simp only [htake, List.drop_left]

/-- **Where a pinned URL goes.** A pinned URL goes over https to the literal address, with the path
and the query that were approved. -/
theorem target_pinnedUrl {approved : ApprovedUrl} {address : Address}
    (hzone : address.zone = none)
    (hpath : ∀ c ∈ approved.pathAndQuery.toList.head?, endsAuthority c = true) :
    target (pinnedUrl approved address) =
      some (authority address, approved.pathAndQuery.toList) :=
  target_pinned (authority_plain hzone) hpath

/-! ## What is approved -/

/-- What `approve_source_url` accepts: a URL of an allowed host, whose path starts at its root. -/
theorem approveSourceUrl_spec {u : Unicode} {t : HostTables} {value : String}
    {approved : ApprovedUrl} (h : approveSourceUrl u t value = .ok approved) :
    approved.host ∈ allowedSourceHosts ∧ approved.pathAndQuery.toList.head? = some '/' ∧
      approved.url = String.ofList
        (https ++ approved.host.toList ++ approved.pathAndQuery.toList) := by
  unfold approveSourceUrl at h
  obtain ⟨-, h⟩ := seq_eq_ok.mp h
  obtain ⟨parsed, -, h⟩ := bind_eq_ok.mp h
  obtain ⟨-, h⟩ := seq_eq_ok.mp h
  obtain ⟨hostname, -, h⟩ := bind_eq_ok.mp h
  obtain ⟨-, h⟩ := seq_eq_ok.mp h
  obtain ⟨port, -, h⟩ := bind_eq_ok.mp h
  obtain ⟨host, -, h⟩ := bind_eq_ok.mp h
  obtain ⟨-, h⟩ := seq_eq_ok.mp h
  obtain ⟨hhost, h⟩ := seq_eq_ok.mp h
  obtain ⟨path, hpath, h⟩ := bind_eq_ok.mp h
  cases h
  refine ⟨require_eq_ok.mp hhost, ?_, by rw [String.toList_ofList]⟩
  unfold canonicalPath at hpath
  obtain ⟨-, hpath⟩ := seq_eq_ok.mp hpath
  obtain ⟨decoded, -, hpath⟩ := bind_eq_ok.mp hpath
  rw [String.toList_ofList]
  cases hpath
  split <;> rfl

/-- An answer without a percent sign gives an address without a zone. -/
theorem requirePublicAddress_zone {value : String} {address : Address}
    (h : requirePublicAddress value = .ok address) (hpercent : '%' ∉ value.toList) :
    address.zone = none := by
  unfold requirePublicAddress at h
  obtain ⟨found, hfound, h⟩ := bind_eq_ok.mp h
  obtain ⟨-, h⟩ := seq_eq_ok.mp h
  cases h
  have hwhole : value.toList.takeWhile (· ≠ '%') = value.toList := by
    refine List.takeWhile_eq_self_iff.mpr fun c hc => ?_
    simpa using fun heq : c = '%' => hpercent (heq ▸ hc)
  have hparse := fromSome_eq_ok.mp hfound
  unfold ipAddress at hparse
  split at hparse
  · cases hparse
    rfl
  · obtain ⟨⟨bits, zone⟩, hbits, rfl⟩ := Option.map_eq_some_iff.mp hparse
    simp only [parseV6, hwhole, List.drop_length] at hbits
    obtain ⟨noZone, hnone, hbits⟩ := Option.bind_eq_some_iff.mp hbits
    split at hbits
    · cases hbits
    · obtain ⟨numbers, -, hnumbers⟩ := Option.bind_eq_some_iff.mp hbits
      rw [← (Prod.mk.inj (Option.some.inj hnumbers)).2]
      exact (Option.some.inj hnone).symm

end ComponentKb.Imports
