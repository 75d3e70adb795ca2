import CksRuntime.Lib.Effect
import CksRuntime.Lib.Table

/-!
# Fetching from the public internet

`net/safe_fetch.py`: `safe_get` resolves the host of a URL, checks that every address is a public
one and pins the host to one of them while it sends the request; a redirect is followed in the same
way. What the standard library computes is a `Platform`. What the resolver answers and what comes of
a request is a `Network`: each interaction has a number and may go another way than the one before.
-/

set_option autoImplicit false

namespace CksRuntime

open Effect

namespace SafeFetch

/-! ## The standard library -/

/-- An address of `ipaddress`, with the attributes that are read. -/
structure IpAddress where
  version : Nat
  value : Nat
  isPrivate : Bool
  isLoopback : Bool
  isLinkLocal : Bool
  isMulticast : Bool
  isReserved : Bool
  isUnspecified : Bool

/-- A network of IPv4. -/
structure IpNetwork where
  base : Nat
  prefixLength : Nat

/-- `ip in network`, of an IPv4 network. -/
def IpNetwork.contains (network : IpNetwork) (ip : IpAddress) : Bool :=
  ip.version == 4 &&
    ip.value >>> (32 - network.prefixLength) == network.base >>> (32 - network.prefixLength)

/-- A URL, as `urlparse` takes it apart; the host as written. -/
structure Parsed where
  scheme : String
  host : Option String

/-- What the standard library makes of texts. -/
structure Platform where
  /-- None where it raises ValueError, here and in the next two. -/
  urlparse : String → Option Parsed
  urljoin : String → String → Option String
  ipAddress : String → Option IpAddress
  lower : String → String
  /-- None where there is no encoding. -/
  idna : String → Option String

variable (p : Platform)

/-- Whether `requests` leaves a hostname as it is written. -/
def isAscii (text : String) : Bool := text.toList.all fun c => c.toNat < 128

/-- `parsed.hostname` -/
def Parsed.hostname (parsed : Parsed) : Option String := parsed.host.map p.lower

/-- The host of a URL as a request looks it up. -/
def wireForm (url : String) : Option String := do
  let parsed ← p.urlparse url
  let host ← parsed.host
  if isAscii host then some (p.lower host) else p.idna (p.lower host)

/-! ## Resolver and servers -/

/-- An entry of `getaddrinfo`: whether its family is `AF_INET`, and `sockaddr[0]`. -/
structure AddrInfo where
  isV4 : Bool
  address : String

/-- How a lookup fails. -/
inductive LookupErr
  | gaierror (text : String)
  | other

/-- What is read of a response before its body. -/
structure Response where
  isRedirect : Bool
  location : Option String

/-- What `safe_get` raises, or catches on its way. -/
inductive Err
  | unsafeURLError (message : String)
  | valueError
  | requestException
  | other

/-- A request: the addresses it connected to and what came of it. -/
structure Exchange where
  opened : List String
  outcome : Except Err Response

/-- The resolver, which may answer each lookup anew, and the servers. -/
structure Network where
  getaddrinfo : Nat → String → Except LookupErr (List AddrInfo)
  /-- An address, looked up, is that address. -/
  numeric : ∀ {m host infos info}, getaddrinfo m host = .ok infos → info ∈ infos →
    ∀ {n infos'}, getaddrinfo n info.address = .ok infos' → ∀ info' ∈ infos',
      info'.address = info.address
  /-- The outcome of a request over a connection that is open already. -/
  reuse : Nat → String → Option (Except Err Response)
  /-- That of one whose host was looked up. -/
  exchange : Nat → String → Except LookupErr (List AddrInfo) → Exchange
  opened_mem : ∀ {n url answer address}, address ∈ (exchange n url answer).opened →
    ∃ infos, answer = .ok infos ∧ ∃ info ∈ infos, info.address = address

variable (net : Network)

/-- A URL that was found safe: its host, what this was resolved to, and the addresses that
connections were opened to. -/
structure Hop where
  url : String
  hostname : String
  resolved : List AddrInfo
  opened : List String

/-- What a request changes of the process. -/
structure State where
  /-- `_thread_local.dns_overrides` -/
  overrides : Table String String
  /-- `_active_patches`, of all threads. -/
  activePatches : Nat
  /-- `socket.getaddrinfo` is `_patched_getaddrinfo`. -/
  patched : Bool
  /-- The number of the next interaction. -/
  clock : Nat
  /-- The hops of the call, newest first, and the rounds of its loop. -/
  hops : List Hop
  rounds : Nat

/-- A call begins: nothing is pinned in its thread, `active` hosts are in others. -/
def State.start (active : Nat) : State where
  overrides := ∅
  activePatches := active
  patched := decide (0 < active)
  clock := 0
  hops := []
  rounds := 0

/-- A call in the process. -/
abbrev Call (α : Type) := EStateM Err State α

/-- What has no value raises ValueError. -/
def orValueError {α : Type} (x : Option α) : Call α :=
  match x with
  | some a => pure a
  | none => throw .valueError

/-- What a server does, as a call. -/
def ofOutcome {α : Type} (outcome : Except Err α) : Call α :=
  match outcome with
  | .ok a => pure a
  | .error e => throw e

/-! ## Validation -/

/-- 100.64.0.0/10 and 192.0.0.0/24 -/
def extraBlockedNetworks : List IpNetwork :=
  [⟨(100 <<< 24) + (64 <<< 16), 10⟩, ⟨192 <<< 24, 24⟩]

/-- `_is_public_ip`. -/
def isPublicIp (ipStr : String) : Bool :=
  match p.ipAddress ipStr with
  | none => false
  | some ip =>
    if extraBlockedNetworks.any (·.contains ip) then false
    else !(ip.isPrivate || ip.isLoopback || ip.isLinkLocal || ip.isMulticast || ip.isReserved ||
      ip.isUnspecified)

/-- `socket.getaddrinfo`, patched or not. -/
def getaddrinfo (host : String) : Call (Except LookupErr (List AddrInfo)) := do
  let s ← get
  let host := if s.patched then (s.overrides.lookup host).getD host else host
  modify fun s => { s with clock := s.clock + 1 }
  return net.getaddrinfo s.clock host

/-- The addresses found so far, `seen`, `ipv4` and `ipv6`. -/
structure Found where
  seen : List String
  ipv4 : List String
  ipv6 : List String

/-- One entry of a lookup. -/
def Found.add (found : Found) (info : AddrInfo) : Found :=
  if info.address ∈ found.seen then found
  else if info.isV4 then
    { found with seen := found.seen ++ [info.address], ipv4 := found.ipv4 ++ [info.address] }
  else { found with seen := found.seen ++ [info.address], ipv6 := found.ipv6 ++ [info.address] }

/-- The addresses of a lookup, each once, IPv4 and IPv6 apart. -/
def collect (addrinfo : List AddrInfo) : Found := addrinfo.foldl Found.add ⟨[], [], []⟩

/-- IPv4 first. -/
def Found.resolvedIps (found : Found) : List String := found.ipv4 ++ found.ipv6

/-- The addresses of a host are candidates if all of them are public. -/
def validateIps (url hostname : String) (addrinfo : List AddrInfo) : Call (String × List String) :=
  let found := collect addrinfo
  if found.resolvedIps.isEmpty || !found.resolvedIps.all (isPublicIp p) then
    throw (.unsafeURLError ("URL host '" ++ hostname ++ "' resolves to a non-public address (" ++
      ", ".intercalate (found.seen.mergeSort fun a b => decide (a ≤ b)) ++ "); refusing to fetch."))
  else do
    modify fun s => { s with hops := ⟨url, hostname, addrinfo, []⟩ :: s.hops }
    return (hostname, found.resolvedIps)

/-- `_resolve_and_validate_host`: every address a name has must be public. -/
def resolveAndValidateHost (url : String) : Call (String × List String) := do
  let parsed ← orValueError (p.urlparse url)
  if ¬(parsed.scheme = "http" ∨ parsed.scheme = "https") then
    throw (.unsafeURLError
      ("Unsupported URL scheme '" ++ parsed.scheme ++ "'. Only http/https are allowed."))
  else
    let hostname := (parsed.hostname p).getD ""
    if hostname = "" then throw (.unsafeURLError "URL has no hostname.")
    else
      match ← getaddrinfo net hostname with
      | .error (.gaierror text) =>
        throw (.unsafeURLError ("Could not resolve host '" ++ hostname ++ "': " ++ text))
      | .error .other => throw .other
      | .ok addrinfo => validateIps p url hostname addrinfo

/-! ## The pin -/

/-- `pin_dns`, entered. -/
def pin (hostname ip : String) (s : State) : State :=
  { s with
    overrides := s.overrides.set hostname ip
    activePatches := s.activePatches + 1
    patched := if s.activePatches + 1 = 1 then true else s.patched }

/-- `pin_dns`, left. -/
def unpin (hostname : String) (oldIp : Option String) (s : State) : State :=
  { s with
    activePatches := s.activePatches - 1
    patched := if s.activePatches - 1 = 0 then false else s.patched
    overrides := match oldIp with
      | none => s.overrides.erase hostname
      | some ip => s.overrides.set hostname ip }

/-- `with pin_dns(hostname, ip)` -/
def pinDns {α : Type} (hostname ip : String) (body : Call α) : Call α := do
  let oldIp := (← get).overrides.lookup hostname
  modify (pin hostname ip)
  finallyDo body (unpin hostname oldIp)

/-! ## Requests -/

/-- Connections of the current hop are opened. -/
def connect (opened : List String) (s : State) : State :=
  { s with hops := match s.hops with
      | [] => []
      | hop :: hops => { hop with opened := hop.opened ++ opened } :: hops }

/-- A request over a new connection. -/
def request (n : Nat) (url : String) : Call Response :=
  match wireForm p url with
  | none => throw .requestException
  | some wire => do
    let answer ← getaddrinfo net wire
    let exchange := net.exchange n url answer
    modify (connect exchange.opened)
    ofOutcome exchange.outcome

/-- `session.get(url, allow_redirects=False)`: over a connection of this call, or a new one. -/
def sessionGet (url : String) : Call Response := do
  let s ← get
  modify fun s => { s with clock := s.clock + 1 }
  match if s.hops.any (!·.opened.isEmpty) then net.reuse s.clock url else none with
  | some outcome => ofOutcome outcome
  | none => request p net s.clock url

/-- One round of the loop over the candidates. -/
def attempt (url : String) : Call (Option Response) :=
  tryCatch (some <$> sessionGet p net url) fun
    | .requestException => pure none
    | e => throw e

/-- The addresses in turn, up to the first that answers. -/
def tryCandidates (url hostname : String) : List String → Call (Option Response)
  | [] => return none
  | ip :: ips => do
    match ← pinDns hostname ip (attempt p net url) with
    | some resp => return some resp
    | none => tryCandidates url hostname ips

/-- Where a response redirects to, if it does. -/
def Response.target (resp : Response) : Option String :=
  if resp.isRedirect then resp.location.filter (· ≠ "") else none

/-- The host of a redirect, none if it is not safe. -/
def redirectHost (url : String) : Call (Option (String × List String)) :=
  tryCatch (some <$> resolveAndValidateHost p net url) fun
    | .unsafeURLError _ => pure none
    | e => throw e

/-- The redirect loop, with the rounds that are left. -/
def follow : Nat → String → String → List String → Call (Option Response)
  | 0, _, _, _ => return none
  | n + 1, url, hostname, candidateIps => do
    modify fun s => { s with rounds := s.rounds + 1 }
    match ← tryCandidates p net url hostname candidateIps with
    | none => return none
    | some resp =>
      match resp.target with
      | none => return some resp
      | some location =>
        let newUrl ← orValueError (p.urljoin url location)
        match ← redirectHost p net newUrl with
        | none => return none
        | some (hostname, candidateIps) => follow n newUrl hostname candidateIps

/-- `max_redirects`, where the caller gives none. -/
def maxRedirects : Nat := 3

/-- `safe_get`. -/
def safeGet (url : String) : Call (Option Response) := do
  let (hostname, candidateIps) ← resolveAndValidateHost p net url
  follow p net (maxRedirects + 1) url hostname candidateIps

end SafeFetch

end CksRuntime
