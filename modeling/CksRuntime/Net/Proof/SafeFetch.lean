import CksRuntime.Net.SafeFetch

/-!
# Every connection is to an address that was validated

While a host is pinned (`Pinned`), a lookup of it goes to the pinned address
(`getaddrinfo_pinned`), and an address is looked up to itself. So a request connects to the
candidate it is pinned to, as long as it looks up the host under the name that was pinned
(`Pinnable`): this holds for every host in ASCII (`pinnable_of_isAscii`). `safeGet_guarded` is the
result for a whole call.
-/

set_option autoImplicit false

namespace CksRuntime

open Effect

namespace SafeFetch

variable (p : Platform) (net : Network)

/-! ## What a call owes -/

/-- `urlparse(url).hostname` -/
def hostnameOf (url : String) : Option String := do (← p.urlparse url).hostname p

/-- The host is looked up under the name that is pinned. -/
def Pinnable (url : String) : Prop :=
  ∀ wire, wireForm p url = some wire → hostnameOf p url = some wire

/-- Connections were opened to public addresses that the host was resolved to. -/
def Guarded (hop : Hop) : Prop :=
  ∀ address ∈ hop.opened,
    (∃ info ∈ hop.resolved, info.address = address) ∧ isPublicIp p address = true

theorem pinnable_of_isAscii {url host : String} {parsed : Parsed}
    (hurl : p.urlparse url = some parsed) (hhost : parsed.host = some host)
    (hascii : isAscii host = true) : Pinnable p url := by
  intro wire hwire
  have hform : wireForm p url = some (p.lower host) := by
    simp [wireForm, hurl, hhost, hascii]
  rw [hform] at hwire
  simp [hostnameOf, hurl, Parsed.hostname, hhost, Option.some.inj hwire]

/-! ## The candidates -/

section Candidates

variable {found : Found}

theorem mem_add (h : ∀ ip, ip ∈ found.seen ↔ ip ∈ found.resolvedIps) (info : AddrInfo)
    (ip : String) :
    (ip ∈ (found.add info).seen ↔ ip ∈ (found.add info).resolvedIps) ∧
      (ip ∈ (found.add info).resolvedIps ↔ ip ∈ found.resolvedIps ∨ info.address = ip) := by
  have hip := h ip
  unfold Found.resolvedIps at hip
  unfold Found.add Found.resolvedIps
  split
  · rename_i hseen
    refine ⟨hip, ?_⟩
    constructor
    · exact .inl
    · rintro (hmem | rfl)
      · exact hmem
      · exact hip.1 hseen
  · split <;> (simp only [List.mem_append, List.mem_singleton] at hip ⊢; grind)

/-- Every address that the host was resolved to is a candidate, and no other. -/
theorem mem_resolvedIps (infos : List AddrInfo) (ip : String) :
    ip ∈ (collect infos).resolvedIps ↔ ∃ info ∈ infos, info.address = ip := by
  have hfold : ∀ found : Found, (∀ ip, ip ∈ found.seen ↔ ip ∈ found.resolvedIps) →
      (ip ∈ (infos.foldl Found.add found).resolvedIps ↔
        ip ∈ found.resolvedIps ∨ ∃ info ∈ infos, info.address = ip) := by
    induction infos with
    | nil => simp
    | cons info infos ih =>
      intro found h
      rw [List.foldl_cons, ih _ fun ip => (mem_add h info ip).1, (mem_add h info ip).2]
      simp only [List.exists_mem_cons_iff, or_assoc]
  refine (hfold ⟨[], [], []⟩ (by simp [Found.resolvedIps])).trans ?_
  simp [Found.resolvedIps]

end Candidates

/-! ## The state between requests and while one is sent -/

/-- Nothing is pinned in this thread. -/
structure Ready (s : State) : Prop where
  overrides : ∀ host, s.overrides.lookup host = none
  patched : s.patched = decide (0 < s.activePatches)

/-- The lookups of the thread go to one address, for one name. -/
structure Pinned (hostname ip : String) (s : State) : Prop where
  overrides : ∀ host, s.overrides.lookup host = if host = hostname then some ip else none
  patched : s.patched = true
  active : 0 < s.activePatches

/-- An address of the current hop that was validated. -/
structure Candidate (hop : Hop) (ip : String) : Prop where
  mem : ∃ info ∈ hop.resolved, info.address = ip
  isPublic : isPublicIp p ip = true
  numeric : ∀ n infos, net.getaddrinfo n ip = .ok infos → ∀ info ∈ infos, info.address = ip

/-- The hops are guarded, and `ips` are candidates of the current one. -/
structure Sound (url : String) (ips : List String) (rounds : Nat) (s : State) : Prop where
  guarded : ∀ hop ∈ s.hops, Pinnable p hop.url → Guarded p hop
  current : ∃ hop hops, s.hops = hop :: hops ∧ hop.url = url ∧ ∀ ip ∈ ips, Candidate p net hop ip
  rounds : s.rounds = rounds

variable {p net} {url hostname ip : String} {ips : List String} {rounds : Nat} {s : State}

theorem Ready.start (active : Nat) : Ready (State.start active) := ⟨fun _ => rfl, rfl⟩

theorem Ready.pin (h : Ready s) (hostname ip : String) :
    Pinned hostname ip (pin hostname ip s) where
  overrides host := by
    rw [SafeFetch.pin, Table.lookup_set, h.overrides]
  patched := by
    have hpatched := h.patched
    unfold SafeFetch.pin
    dsimp only
    split
    · rfl
    · rw [hpatched]
      exact decide_eq_true (by omega)
  active := Nat.succ_pos _

theorem Pinned.unpin (h : Pinned hostname ip s) : Ready (unpin hostname none s) where
  overrides host := by
    unfold SafeFetch.unpin
    dsimp only
    rw [Table.lookup_erase_eq]
    split
    · rfl
    · rename_i hne
      rw [h.overrides, if_neg hne]
  patched := by
    unfold SafeFetch.unpin
    dsimp only
    split
    · rename_i hzero
      rw [hzero]
      rfl
    · rw [h.patched]
      exact (decide_eq_true (by omega)).symm

theorem getaddrinfo_run (host : String) (s : State) :
    getaddrinfo net host s =
      .ok (net.getaddrinfo s.clock
          (if s.patched then (s.overrides.lookup host).getD host else host))
        { s with clock := s.clock + 1 } := rfl

/-- Between requests a lookup goes to the resolver. -/
theorem getaddrinfo_ready (h : Ready s) (host : String) :
    getaddrinfo net host s =
      .ok (net.getaddrinfo s.clock host) { s with clock := s.clock + 1 } := by
  rw [getaddrinfo_run, h.overrides, Option.getD_none, ite_self]

/-- A lookup of the pinned host is one of the pinned address. -/
theorem getaddrinfo_pinned (h : Pinned hostname ip s) :
    getaddrinfo net hostname s =
      .ok (net.getaddrinfo s.clock ip) { s with clock := s.clock + 1 } := by
  rw [getaddrinfo_run, h.overrides, if_pos h.patched, if_pos rfl, Option.getD_some]

/-! ## Validation -/

variable (p) in
/-- The hops are guarded and the rounds are counted. -/
structure Ended (rounds : Nat) (s : State) : Prop where
  rounds : s.rounds ≤ rounds
  guarded : ∀ hop ∈ s.hops, Pinnable p hop.url → Guarded p hop

/-- The addresses of the resolver, all of them public, are the candidates of a new hop. -/
theorem validateIps_post (h : Ready s) (hs : Ended p rounds s) (url hostname : String) {m : Nat}
    {host : String} {infos : List AddrInfo} (hinfos : net.getaddrinfo m host = .ok infos) :
    Post (fun r s' => Ready s' ∧ Sound p net url r.2 s.rounds s' ∧ r.1 = hostname) (Ended p rounds)
      (validateIps p url hostname infos s) := by
  unfold validateIps
  split
  · exact hs
  · rename_i hpublic
    rw [Bool.or_eq_true, not_or, Bool.not_eq_true', Bool.not_eq_false, List.all_eq_true] at hpublic
    refine ⟨⟨h.overrides, h.patched⟩, ⟨?_, ⟨_, _, rfl, rfl, ?_⟩, rfl⟩, rfl⟩
    · intro hop hhop
      rcases List.mem_cons.1 hhop with rfl | hhop
      · exact fun _ address haddress => absurd haddress List.not_mem_nil
      · exact hs.guarded hop hhop
    · intro ip hip
      obtain ⟨info, hinfo, rfl⟩ := (mem_resolvedIps infos ip).1 hip
      exact ⟨⟨info, hinfo, rfl⟩, hpublic.2 _ hip, fun n infos' => net.numeric hinfos hinfo⟩

/-- A URL that is found safe becomes the current hop. -/
theorem resolveAndValidateHost_post (h : Ready s) (hs : Ended p rounds s) (url : String) :
    Post (fun r s' => Ready s' ∧ Sound p net url r.2 s.rounds s' ∧ hostnameOf p url = some r.1)
      (Ended p rounds) (resolveAndValidateHost p net url s) := by
  unfold resolveAndValidateHost
  cases hurl : p.urlparse url with
  | none => exact hs
  | some parsed =>
    rw [orValueError, bind_pure_run]
    split
    · exact hs
    dsimp only
    split
    · exact hs
    rename_i hempty
    have hhostname : hostnameOf p url = some ((parsed.hostname p).getD "") := by
      unfold hostnameOf
      rw [hurl]
      cases hname : parsed.hostname p with
      | none =>
        rw [hname] at hempty
        exact absurd rfl hempty
      | some name => exact hname
    rw [bind_of_ok (getaddrinfo_ready h _)]
    cases hinfos : net.getaddrinfo s.clock ((parsed.hostname p).getD "") with
    | error e => cases e <;> exact ⟨hs.rounds, hs.guarded⟩
    | ok infos =>
      refine (validateIps_post (s := { s with clock := s.clock + 1 }) ⟨h.overrides, h.patched⟩
        ⟨hs.rounds, hs.guarded⟩ url _ hinfos).mono ?_ fun _ h => h
      rintro r s' ⟨hready, hsound, hname⟩
      exact ⟨hready, hsound, hname ▸ hhostname⟩

/-! ## Requests -/

theorem Sound.ended (h : Sound p net url ips rounds s) : Ended p rounds s :=
  ⟨le_of_eq h.rounds, h.guarded⟩

theorem Ended.mono {rounds' : Nat} (h : Ended p rounds s) (hle : rounds ≤ rounds') :
    Ended p rounds' s := ⟨le_trans h.rounds hle, h.guarded⟩

theorem Sound.connect (h : Sound p net url ips rounds s) {opened : List String}
    (hopened : Pinnable p url → ∀ address ∈ opened, address ∈ ips) :
    Sound p net url ips rounds (connect opened s) := by
  obtain ⟨hguarded, ⟨hop, hops, hhops, rfl, hcurrent⟩, hrounds⟩ := h
  have hconnect : (SafeFetch.connect opened s).hops =
      { hop with opened := hop.opened ++ opened } :: hops := by
    unfold SafeFetch.connect
    rw [hhops]
  refine ⟨?_, ⟨_, _, hconnect, rfl, ?_⟩, hrounds⟩
  · rw [hconnect]
    rw [hhops] at hguarded
    intro hop' hhop' hpin
    rcases List.mem_cons.1 hhop' with rfl | hhop'
    · intro address haddress
      rcases List.mem_append.1 haddress with haddress | haddress
      · exact hguarded hop List.mem_cons_self hpin address haddress
      · have hcandidate := hcurrent address (hopened hpin address haddress)
        exact ⟨hcandidate.mem, hcandidate.isPublic⟩
    · exact hguarded hop' (List.mem_cons_of_mem _ hhop') hpin
  · intro ip hip
    have hcandidate := hcurrent ip hip
    exact ⟨hcandidate.mem, hcandidate.isPublic, hcandidate.numeric⟩

theorem Sound.ticked (h : Sound p net url ips rounds s) (n : Nat) :
    Sound p net url ips rounds { s with clock := n } := ⟨h.guarded, h.current, h.rounds⟩

theorem Pinned.ticked (h : Pinned hostname ip s) (n : Nat) :
    Pinned hostname ip { s with clock := n } := ⟨h.overrides, h.patched, h.active⟩

theorem ofOutcome_post {α : Type} {I : State → Prop} (outcome : Except Err α) (h : I s) :
    Post (fun _ => I) I (ofOutcome outcome s) := by
  cases outcome <;> exact h

variable (p net) in
/-- The host is pinned to one of the candidates. -/
structure Requesting (url hostname ip : String) (ips : List String) (rounds : Nat) (s : State) :
    Prop where
  pinned : Pinned hostname ip s
  sound : Sound p net url ips rounds s
  mem : ip ∈ ips

theorem Requesting.ticked (h : Requesting p net url hostname ip ips rounds s) (n : Nat) :
    Requesting p net url hostname ip ips rounds { s with clock := n } :=
  ⟨h.pinned.ticked n, h.sound.ticked n, h.mem⟩

theorem Requesting.connect (h : Requesting p net url hostname ip ips rounds s)
    {opened : List String} (hopened : Pinnable p url → ∀ address ∈ opened, address = ip) :
    Requesting p net url hostname ip ips rounds (connect opened s) where
  pinned := ⟨h.pinned.overrides, h.pinned.patched, h.pinned.active⟩
  sound := h.sound.connect fun hpinnable address haddress =>
    (hopened hpinnable address haddress).symm ▸ h.mem
  mem := h.mem

variable (h : Requesting p net url hostname ip ips rounds s)
  (hhostname : hostnameOf p url = some hostname)
include h hhostname

/-- Under the pin a request connects to the pinned candidate. -/
theorem request_post (n : Nat) :
    Post (fun _ => Requesting p net url hostname ip ips rounds)
      (Requesting p net url hostname ip ips rounds) (request p net n url s) := by
  unfold request
  cases hwire : wireForm p url with
  | none => exact h
  | some wire =>
    dsimp only
    by_cases hname : wire = hostname
    · -- the name that is looked up is the one that is pinned
      rw [hname, bind_of_ok (getaddrinfo_pinned h.pinned), bind_modify_run]
      refine ofOutcome_post _ ((h.ticked _).connect fun _ address haddress => ?_)
      obtain ⟨infos, hinfos, info, hinfo, rfl⟩ := net.opened_mem haddress
      obtain ⟨hop, hops, -, -, hcurrent⟩ := h.sound.current
      exact (hcurrent ip h.mem).numeric _ infos hinfos info hinfo
    · rw [bind_of_ok (getaddrinfo_run wire s), bind_modify_run]
      refine ofOutcome_post _ ((h.ticked _).connect fun hpinnable => ?_)
      exact absurd (Option.some.inj ((hpinnable wire hwire).symm.trans hhostname)) hname

theorem sessionGet_post :
    Post (fun _ => Requesting p net url hostname ip ips rounds)
      (Requesting p net url hostname ip ips rounds) (sessionGet p net url s) := by
  unfold sessionGet
  rw [bind_get_run, bind_modify_run]
  cases (if s.hops.any (!·.opened.isEmpty) then net.reuse s.clock url else none) with
  | some outcome => exact ofOutcome_post _ (h.ticked _)
  | none => exact request_post (h.ticked _) hhostname _

theorem attempt_post :
    Post (fun _ => Requesting p net url hostname ip ips rounds)
      (Requesting p net url hostname ip ips rounds) (attempt p net url s) := by
  unfold attempt
  refine Post.tryCatch (E := Requesting p net url hostname ip ips rounds) ?_ ?_
  · rw [map_eq_pure_bind]
    exact (sessionGet_post h hhostname).bind fun _ _ h => h
  · intro e s' h
    cases e <;> exact h

omit h hhostname

/-- After a request nothing is pinned. -/
theorem pinDns_post (h : Ready s) (hs : Sound p net url ips rounds s) (hip : ip ∈ ips)
    (hhostname : hostnameOf p url = some hostname) :
    Post (fun _ s' => Ready s' ∧ Sound p net url ips rounds s') (Ended p rounds)
      (pinDns hostname ip (attempt p net url) s) := by
  unfold pinDns
  rw [bind_get_run, bind_modify_run, h.overrides]
  have hrequesting : Requesting p net url hostname ip ips rounds (pin hostname ip s) :=
    ⟨h.pin hostname ip, ⟨hs.guarded, hs.current, hs.rounds⟩, hip⟩
  refine (attempt_post hrequesting hhostname).finallyDo ?_ ?_
  · intro _ s' hs'
    exact ⟨hs'.pinned.unpin, hs'.sound.guarded, hs'.sound.current, hs'.sound.rounds⟩
  · intro s' hs'
    exact ⟨le_of_eq hs'.sound.rounds, hs'.sound.guarded⟩

theorem tryCandidates_post (hhostname : hostnameOf p url = some hostname) :
    ∀ {ips' : List String} {s : State}, ips' ⊆ ips → Ready s → Sound p net url ips rounds s →
      Post (fun _ s' => Ready s' ∧ Sound p net url ips rounds s') (Ended p rounds)
        (tryCandidates p net url hostname ips' s)
  | [], _, _, h, hs => ⟨h, hs⟩
  | ip :: ips', s, hsub, h, hs => by
    unfold tryCandidates
    refine (pinDns_post h hs (hsub List.mem_cons_self) hhostname).bind fun response s' hs' => ?_
    cases response with
    | some resp => exact hs'
    | none =>
      exact tryCandidates_post hhostname (List.subset_of_cons_subset hsub) hs'.1 hs'.2

/-! ## The redirect loop -/

theorem redirectHost_post (h : Ready s) (hs : Ended p rounds s) (url : String) :
    Post (fun r s' => (r = none → Ended p rounds s') ∧ ∀ host, r = some host → Ready s' ∧
        Sound p net url host.2 s.rounds s' ∧ hostnameOf p url = some host.1)
      (Ended p rounds) (redirectHost p net url s) := by
  unfold redirectHost
  refine Post.tryCatch (E := Ended p rounds) ?_ ?_
  · rw [map_eq_pure_bind]
    refine (resolveAndValidateHost_post h hs url).bind fun host s' hhost => ?_
    refine ⟨fun hnone => absurd hnone (Option.some_ne_none host), ?_⟩
    intro host' heq
    cases heq
    exact hhost
  · intro e s' hs'
    cases e with
    | unsafeURLError =>
      exact ⟨fun _ => hs', fun host hsome => absurd hsome.symm (Option.some_ne_none host)⟩
    | valueError | requestException | other => exact hs'

/-- Every round follows one hop. -/
theorem follow_post : ∀ (n : Nat) {rounds : Nat} {url hostname : String} {ips : List String}
    {s : State}, Ready s → Sound p net url ips rounds s → hostnameOf p url = some hostname →
    Post (fun _ => Ended p (rounds + n)) (Ended p (rounds + n)) (follow p net n url hostname ips s)
  | 0, _, _, _, _, _, _, hs, _ => hs.ended
  | n + 1, rounds, url, hostname, ips, s, h, hs, hhostname => by
    unfold follow
    rw [bind_modify_run]
    have hready : Ready { s with rounds := s.rounds + 1 } := ⟨h.overrides, h.patched⟩
    have hround : Sound p net url ips (rounds + 1) { s with rounds := s.rounds + 1 } :=
      ⟨hs.guarded, hs.current, congrArg (· + 1) hs.rounds⟩
    have hle : rounds + 1 ≤ rounds + (n + 1) := by omega
    refine Post.bind ((tryCandidates_post hhostname (List.Subset.refl ips) hready hround).mono
      (fun _ _ h => h) fun _ h => h.mono hle) ?_
    rintro response s' ⟨hready, hsound⟩
    cases response with
    | none => exact hsound.ended.mono hle
    | some resp =>
      dsimp only
      cases resp.target with
      | none => exact hsound.ended.mono hle
      | some location =>
        dsimp only
        cases p.urljoin url location with
        | none => exact hsound.ended.mono hle
        | some newUrl =>
          rw [orValueError, bind_pure_run]
          refine Post.bind ((redirectHost_post hready hsound.ended newUrl).mono (fun _ _ h => h)
            fun _ h => h.mono hle) fun host s'' hs'' => ?_
          cases host with
          | none => exact (hs''.1 rfl).mono hle
          | some host =>
            -- the next hop starts as this one did, on a host resolved anew
            obtain ⟨hready', hsound', hhostname'⟩ := hs''.2 host rfl
            rw [hsound.rounds] at hsound'
            have hrounds : rounds + (n + 1) = rounds + 1 + n := by omega
            rw [hrounds]
            exact follow_post n hready' hsound' hhostname'

variable (p net)

theorem safeGet_post (active : Nat) (url : String) :
    Post (fun _ => Ended p (maxRedirects + 1)) (Ended p (maxRedirects + 1))
      (safeGet p net url (State.start active)) := by
  have hstart : Ended p (maxRedirects + 1) (State.start active) :=
    ⟨Nat.zero_le _, fun hop hhop => absurd hhop List.not_mem_nil⟩
  unfold safeGet
  refine (resolveAndValidateHost_post (Ready.start active) hstart url).bind fun host s' h => ?_
  have hrounds : maxRedirects + 1 = (State.start active).rounds + (maxRedirects + 1) := rfl
  rw [hrounds]
  exact follow_post _ h.1 h.2.1 h.2.2

/-- In every call at most `maxRedirects + 1` hops are followed, and at each whose host is looked up
under the name that is pinned, connections are opened to the validated addresses only. -/
theorem safeGet_guarded (active : Nat) (url : String) :
    (stateOf (safeGet p net url (State.start active))).rounds ≤ maxRedirects + 1 ∧
      ∀ hop ∈ (stateOf (safeGet p net url (State.start active))).hops,
        Pinnable p hop.url → Guarded p hop := by
  have hpost := safeGet_post p net active url
  cases hrun : safeGet p net url (State.start active) with
  | ok response s =>
    rw [hrun] at hpost
    exact ⟨hpost.rounds, hpost.guarded⟩
  | error e s =>
    rw [hrun] at hpost
    exact ⟨hpost.rounds, hpost.guarded⟩

/-! ## A host that is rebound -/

/-- An address the code takes for public. -/
def publicAddress : String := "93.184.216.34"

/-- One it does not. -/
def loopbackAddress : String := "127.0.0.1"

/-- Two hosts, the second not in ASCII, and two addresses. -/
def demoPlatform : Platform where
  urlparse url :=
    if url = "http://a.example/" then some ⟨"http", some "a.example"⟩
    else if url = "http://bücher.example/" then some ⟨"http", some "bücher.example"⟩
    else none
  urljoin _ location := some location
  ipAddress text :=
    if text = publicAddress then
      some ⟨4, (93 <<< 24) + (184 <<< 16) + (216 <<< 8) + 34,
        false, false, false, false, false, false⟩
    else if text = loopbackAddress then
      some ⟨4, (127 <<< 24) + 1, true, true, false, false, false, false⟩
    else none
  lower host := host
  idna host := if host = "bücher.example" then some "xn--bcher-kva.example" else none

/-- The names of the two hosts. -/
def demoNames : List String := ["a.example", "bücher.example", "xn--bcher-kva.example"]

/-- The first lookup of a name is answered with the public address, the later ones with the loopback
address; every request succeeds. -/
def rebinding : Network where
  getaddrinfo n host :=
    .ok [⟨true,
      if host ∈ demoNames then if n = 0 then publicAddress else loopbackAddress else host⟩]
  numeric := by
    intro m host infos info hinfos hinfo n infos' hinfos' info' hinfo'
    cases hinfos
    cases hinfos'
    have hname : info.address ∉ demoNames := by
      rw [List.mem_singleton.1 hinfo]
      dsimp only
      split_ifs with hhost hfirst
      · decide
      · decide
      · exact hhost
    rw [List.mem_singleton.1 hinfo', if_neg hname]
  reuse _ _ := none
  exchange _ _ answer :=
    match answer with
    | .ok infos => ⟨infos.map (·.address), .ok ⟨false, none⟩⟩
    | .error _ => ⟨[], .error .requestException⟩
  opened_mem := by
    intro n url answer address haddress
    cases answer with
    | error e => exact absurd haddress List.not_mem_nil
    | ok infos => exact ⟨infos, rfl, List.mem_map.1 haddress⟩

/-- A hop that was validated for the public address and connected to `address`. -/
def demoHop (url hostname address : String) : Hop :=
  ⟨url, hostname, [⟨true, publicAddress⟩], [address]⟩

theorem hops_ascii :
    (stateOf (safeGet demoPlatform rebinding "http://a.example/" (State.start 0))).hops =
      [demoHop "http://a.example/" "a.example" publicAddress] := rfl

theorem hops_nonAscii :
    (stateOf (safeGet demoPlatform rebinding "http://bücher.example/" (State.start 0))).hops =
      [demoHop "http://bücher.example/" "bücher.example" loopbackAddress] := rfl

theorem pinnable_demo : Pinnable demoPlatform "http://a.example/" :=
  pinnable_of_isAscii demoPlatform rfl rfl (by decide)

theorem safeGet_guarded_demo :
    (stateOf (safeGet demoPlatform rebinding "http://a.example/" (State.start 0))).rounds ≤
        maxRedirects + 1 ∧
      demoHop "http://a.example/" "a.example" publicAddress ∈
        (stateOf (safeGet demoPlatform rebinding "http://a.example/" (State.start 0))).hops ∧
      Guarded demoPlatform (demoHop "http://a.example/" "a.example" publicAddress) := by
  have hmem : demoHop "http://a.example/" "a.example" publicAddress ∈
      (stateOf (safeGet demoPlatform rebinding "http://a.example/" (State.start 0))).hops := by
    rw [hops_ascii]
    exact List.mem_singleton_self _
  obtain ⟨hrounds, hguarded⟩ := safeGet_guarded demoPlatform rebinding 0 "http://a.example/"
  exact ⟨hrounds, hmem, hguarded _ hmem pinnable_demo⟩

/-- The pin is under the name as written, the lookup under its encoding. -/
theorem nonAscii_host_not_pinned :
    ¬∀ hop ∈ (stateOf (safeGet demoPlatform rebinding "http://bücher.example/"
        (State.start 0))).hops, Guarded demoPlatform hop := by
  intro hguarded
  rw [hops_nonAscii] at hguarded
  obtain ⟨-, hpublic⟩ := hguarded _ (List.mem_singleton_self _) loopbackAddress
    (List.mem_singleton_self _)
  revert hpublic
  decide

end SafeFetch

end CksRuntime
