/-
# Ports for listeners that name none

A listener of port 0 is given a port before its module is started: a socket is bound to port 0 of
its host, the port that the kernel chose is read off it, and the socket is closed again.  The boot
does so for the listeners of `core_service` and then for those of `capability_module`.

When a port is asked for, nothing keeps the ports that were handed out before, nor those that other
listeners name: every probe is closed before the next one (`allocateEphemeralTcp_held`).  A kernel
that hands out no bound port may hand out the same port again, so the ports of a boot differ only
where no two of them can meet (`alwaysDistinct_iff`).
-/
import Logosctl.Library.InternetAddress
import Logosctl.Transport

namespace Logosctl

open Library

/-! ## 1. The probe -/

/-- A socket that is bound. -/
structure BoundSocket where
  address : Address
  port : UInt16
  deriving DecidableEq

/-- What the kernel answers to the request of each number.  An error is the text of `errno`. -/
structure SocketKernel where
  /-- the sockets of others that are bound at that time -/
  others : Nat → List BoundSocket
  socket : Nat → Option String
  /-- the port chosen for a bind to port 0, all the bound sockets given -/
  bind : Nat → Address → List BoundSocket → Except String UInt16
  getsockname : Nat → Option String
  unbound : ∀ i a bound port, bind i a bound = .ok port → ∀ s ∈ bound, s.port ≠ port

/-- What a request comes to: the port, or 0; what is printed; and the sockets that the daemon holds
bound afterwards. -/
structure Allocation where
  port : UInt16
  log : List String
  held : List BoundSocket

/-- Bind, read the port, close.  `shown` is the host as the messages write it. -/
def probe (k : SocketKernel) (i : Nat) (held : List BoundSocket) (a : Address) (shown : String) :
    Allocation :=
  match k.bind i a (k.others i ++ held) with
  | .error e => ⟨0, ["PortAllocator: bind() failed on " ++ shown ++ ":0: " ++ e], held⟩
  | .ok port =>
    let bound := ⟨a, port⟩ :: held
    match k.getsockname i with
    | some e => ⟨0, ["PortAllocator: getsockname() failed: " ++ e], bound.erase ⟨a, port⟩⟩
    | none => ⟨port, [], bound.erase ⟨a, port⟩⟩

/-- `PortAllocator::allocateEphemeralTcp`, with `held` bound by the daemon. -/
def allocateEphemeralTcp (k : SocketKernel) (i : Nat) (held : List BoundSocket) (host : String) :
    Allocation :=
  let h := if host.isEmpty then "0.0.0.0" else host
  match inetPton6 (cString h) with
  | some groups =>
    match k.socket i with
    | some e => ⟨0, ["PortAllocator: socket(AF_INET6) failed: " ++ e], held⟩
    | none => probe k i held (.v6 groups) ("[" ++ h ++ "]")
  | none =>
    match k.socket i with
    | some e => ⟨0, ["PortAllocator: socket() failed: " ++ e], held⟩
    | none =>
      match inetPton4 (cString h) with
      | none => ⟨0, ["PortAllocator: inet_pton failed for '" ++ h ++
          "' — pass a numeric IPv4 or IPv6 address"], held⟩
      | some octets => probe k i held (.v4 octets) h

/-- The address that a host is bound as. -/
def bindAddress (host : String) : Option Address :=
  numericAddress (if host.isEmpty then "0.0.0.0" else host)

/-- The address that this is. -/
def hostAddress (host : String) : Option Address := (bindAddress host).map Address.unmapped

section Allocation

variable {k : SocketKernel} {i : Nat} {held : List BoundSocket} {a : Address} {host : String}

theorem probe_held (shown : String) : (probe k i held a shown).held = held := by
  unfold probe
  cases k.bind i a (k.others i ++ held) with
  | error e => rfl
  | ok port => cases k.getsockname i <;> simp

/-- **A probe leaves nothing bound.** -/
theorem allocateEphemeralTcp_held : (allocateEphemeralTcp k i held host).held = held := by
  unfold allocateEphemeralTcp
  dsimp only
  split <;> split
  · rfl
  · exact probe_held _
  · rfl
  · split
    · rfl
    · exact probe_held _

/-- A request is a probe of the address, or is answered with 0 since there is no address or no
socket. -/
theorem allocateEphemeralTcp_cases :
    ((bindAddress host = none ∨ k.socket i ≠ none) ∧
        (allocateEphemeralTcp k i held host).port = 0) ∨
      ∃ a shown, bindAddress host = some a ∧ k.socket i = none ∧
        allocateEphemeralTcp k i held host = probe k i held a shown := by
  unfold allocateEphemeralTcp bindAddress numericAddress
  generalize (if host.isEmpty then "0.0.0.0" else host) = h
  dsimp only
  cases inetPton6 (cString h) with
  | some groups =>
    cases hsocket : k.socket i with
    | some e => exact Or.inl ⟨Or.inr (Option.some_ne_none e), rfl⟩
    | none => exact Or.inr ⟨_, _, rfl, rfl, rfl⟩
  | none =>
    cases hsocket : k.socket i with
    | some e => exact Or.inl ⟨Or.inr (Option.some_ne_none e), rfl⟩
    | none =>
      cases inetPton4 (cString h) with
      | none => exact Or.inl ⟨Or.inl rfl, rfl⟩
      | some octets => exact Or.inr ⟨_, _, rfl, rfl, rfl⟩

/-- A host that is no numeric address has no port. -/
theorem port_eq_zero (hhost : bindAddress host = none) :
    (allocateEphemeralTcp k i held host).port = 0 := by
  rcases allocateEphemeralTcp_cases with ⟨-, hzero⟩ | ⟨a, -, haddress, -⟩
  · exact hzero
  · rw [hhost] at haddress
    cases haddress

end Allocation

/-! ## 2. The two transport sets -/

/-- The port that a request is answered with.  What the daemon holds is the same at every request
(`allocateEphemeralTcp_held`). -/
def allocatedPort (k : SocketKernel) (held : List BoundSocket) (i : Nat) (host : String) : UInt16 :=
  (allocateEphemeralTcp k i held host).port

/-- The line with which a boot ends when the listeners of a module cannot be built. -/
def setAborted (moduleName : String) : String :=
  "Daemon startup aborted: failed to build " ++ moduleName ++
    " transport set (see prior log lines for which listener failed)."

/-- The transport sets of `Daemon::start`, or the lines behind those of the allocator. -/
def transportSets (k : SocketKernel) (held : List BoundSocket)
    (core capability : List TransportInfo) :
    Except (List String) (List LogosTransportConfig × List LogosTransportConfig) :=
  match buildTransportSet (allocatedPort k held) "core_service" 0 core with
  | .error e => .error [e, setAborted "core_service"]
  | .ok coreTransports =>
    match buildTransportSet (allocatedPort k held) "capability_module" core.length capability with
    | .error e => .error [e, setAborted "capability_module"]
    | .ok capabilityTransports => .ok (coreTransports, capabilityTransports)

/-! ## 3. Ports that differ -/

/-- Both hosts are spellings of one address. -/
def SameHost (t u : TransportInfo) : Prop :=
  ∃ a, hostAddress t.host = some a ∧ hostAddress u.host = some a

/-- Which of the configured ports a port that is handed out has to differ from: those of listeners
on the same host, or those of all the others. -/
inductive ConfiguredPorts
  | sameHost
  | everyHost
  deriving DecidableEq

/-- Two listeners on the network whose ports have to differ: both are given a port on one host, or
one of them is given a port and the other names one. -/
def Contend (scope : ConfiguredPorts) (t u : TransportInfo) : Prop :=
  t.protocol ≠ "local" ∧ u.protocol ≠ "local" ∧
    ((t.port = 0 ∧ u.port = 0 ∧ SameHost t u) ∨
      ((t.port = 0 ∧ u.port ≠ 0 ∨ t.port ≠ 0 ∧ u.port = 0) ∧
        (scope = .everyHost ∨ SameHost t u)))

/-- The ports that the sets are built with differ wherever they have to. -/
def DistinctPorts (scope : ConfiguredPorts) (core capability : List TransportInfo)
    (sets : List LogosTransportConfig × List LogosTransportConfig) : Prop :=
  ((core ++ capability).zip (sets.1 ++ sets.2)).Pairwise fun a b =>
    Contend scope a.1 b.1 → a.2.port ≠ b.2.port

/-- They do so whatever the kernel. -/
def AlwaysDistinct (scope : ConfiguredPorts) (core capability : List TransportInfo) : Prop :=
  ∀ k held sets, transportSets k held core capability = .ok sets →
    DistinctPorts scope core capability sets

section Distinct

variable {allocate : Nat → String → UInt16} {moduleName : String} {k : SocketKernel}
  {held : List BoundSocket} {scope : ConfiguredPorts} {core capability ts : List TransportInfo}
  {t u : TransportInfo} {set : List LogosTransportConfig} {p : UInt16}

theorem length_buildTransportSet {i : Nat}
    (h : buildTransportSet allocate moduleName i ts = .ok set) : set.length = ts.length := by
  simpa using congrArg List.length (codecs_buildTransportSet h)

/-- A set that is built has a port for everyone who asks. -/
theorem allocate_ne_zero {i : Nat} (h : buildTransportSet allocate moduleName i ts = .ok set)
    (ht : t ∈ ts) (hasks : AsksForPort t) : ∃ i, allocate i t.host ≠ 0 := by
  induction ts generalizing i set with
  | nil => cases ht
  | cons t' ts ih =>
    rcases List.mem_cons.mp ht with rfl | ht
    · refine ⟨i, fun hzero => ?_⟩
      rw [buildTransportSet, effectivePort_of_asks hasks, if_pos ⟨hasks.1, hzero⟩] at h
      cases h
    · obtain ⟨out, hout, -⟩ := buildTransportSet_cons h
      exact ih hout ht

/-- The sets of a boot that goes on. -/
theorem built_of_transportSets {sets : List LogosTransportConfig × List LogosTransportConfig}
    (h : transportSets k held core capability = .ok sets) :
    buildTransportSet (allocatedPort k held) "core_service" 0 core = .ok sets.1 ∧
      buildTransportSet (allocatedPort k held) "capability_module" core.length capability =
        .ok sets.2 := by
  unfold transportSets at h
  split at h
  · cases h
  · next hcore =>
    split at h
    · cases h
    · next hcapability =>
      cases h
      exact ⟨hcore, hcapability⟩

/-- No boot goes on when a host that needs a port is no numeric address. -/
theorem alwaysDistinct_of_no_address (ht : t ∈ core ++ capability) (hasks : AsksForPort t)
    (hhost : bindAddress t.host = none) : AlwaysDistinct scope core capability := by
  intro k held sets hsets
  obtain ⟨hcore, hcapability⟩ := built_of_transportSets hsets
  have hanswered : ∃ i, allocatedPort k held i t.host ≠ 0 := by
    rcases List.mem_append.mp ht with ht | ht
    · exact allocate_ne_zero hcore ht hasks
    · exact allocate_ne_zero hcapability ht hasks
  obtain ⟨i, hport⟩ := hanswered
  exact absurd (port_eq_zero hhost) hport

/-- Nothing can collide where nobody contends. -/
theorem alwaysDistinct_of_no_contention
    (h : (core ++ capability).Pairwise fun t u => ¬ Contend scope t u) :
    AlwaysDistinct scope core capability := by
  intro k held sets hsets
  obtain ⟨hcore, hcapability⟩ := built_of_transportSets hsets
  have hlength : (core ++ capability).length ≤ (sets.1 ++ sets.2).length := by
    simp only [List.length_append, length_buildTransportSet hcore,
      length_buildTransportSet hcapability, le_refl]
  rw [← List.map_fst_zip hlength, List.pairwise_map] at h
  exact h.imp fun hnone hcontend => absurd hcontend hnone

/-- A kernel that hands out the same port at every request, while it is not bound. -/
def insistent (p : UInt16) : SocketKernel where
  others _ := []
  socket _ := none
  bind _ _ bound := if bound.all (·.port ≠ p) then .ok p else .error "Address already in use"
  getsockname _ := none
  unbound := by
    intro i a bound port hport
    split at hport
    · next hall =>
      cases hport
      simpa using hall
    · cases hport

theorem allocatedPort_insistent {host : String} {a : Address} (hhost : bindAddress host = some a)
    (i : Nat) : allocatedPort (insistent p) [] i host = p := by
  unfold allocatedPort
  rcases @allocateEphemeralTcp_cases (insistent p) i [] host with ⟨hnone, -⟩ | ⟨a, shown, -, -, heq⟩
  · rcases hnone with hnone | hnone
    · rw [hhost] at hnone
      cases hnone
    · exact absurd rfl hnone
  · rw [heq]
    simp [probe, insistent]

/-- Two listeners that contend can come to the same port. -/
theorem exists_collision (h : Contend scope t u) :
    ∃ p, p ≠ 0 ∧ effectivePort p t = p ∧ effectivePort p u = p := by
  obtain ⟨ht, hu, ⟨htzero, huzero, -⟩ | ⟨⟨htzero, hunamed⟩ | ⟨htnamed, huzero⟩, -⟩⟩ := h
  · exact ⟨1, by decide, effectivePort_of_asks ⟨ht, htzero⟩ 1, effectivePort_of_asks ⟨hu, huzero⟩ 1⟩
  · exact ⟨u.port, hunamed, effectivePort_of_asks ⟨ht, htzero⟩ _,
      effectivePort_of_not_asks (fun hasks => hunamed hasks.2) _⟩
  · exact ⟨t.port, htnamed, effectivePort_of_not_asks (fun hasks => htnamed hasks.2) _,
      effectivePort_of_asks ⟨hu, huzero⟩ _⟩

/-- Under the insistent kernel the boot goes on. -/
theorem transportSets_insistent (hp : p ≠ 0)
    (hhosts : ∀ t ∈ core ++ capability, AsksForPort t → ∃ a, bindAddress t.host = some a) :
    ∃ sets, transportSets (insistent p) [] core capability = .ok sets ∧
      (sets.1 ++ sets.2).map (·.port) = (core ++ capability).map (effectivePort p) := by
  have hanswers : ∀ ts ⊆ core ++ capability, ∀ t ∈ ts, AsksForPort t →
      ∀ i, allocatedPort (insistent p) [] i t.host = p := by
    intro ts hsub t ht hasks i
    obtain ⟨a, ha⟩ := hhosts t (hsub ht) hasks
    exact allocatedPort_insistent ha i
  obtain ⟨cs, hcs, hcports⟩ := @exists_ports_buildTransportSet _ "core_service" _ hp core 0
    (hanswers core (List.subset_append_left ..))
  obtain ⟨ks, hks, hkports⟩ := @exists_ports_buildTransportSet _ "capability_module" _ hp capability
    core.length (hanswers capability (List.subset_append_right ..))
  refine ⟨(cs, ks), ?_, ?_⟩
  · simp only [transportSets, hcs, hks]
  · simp only [List.map_append, hcports, hkports]

/-- What the property says of the boots under the insistent kernel. -/
theorem effectivePort_ne_of_alwaysDistinct (h : AlwaysDistinct scope core capability) (hp : p ≠ 0)
    (hhosts : ∀ t ∈ core ++ capability, AsksForPort t → ∃ a, bindAddress t.host = some a) :
    (core ++ capability).Pairwise fun t u =>
      Contend scope t u → effectivePort p t ≠ effectivePort p u := by
  obtain ⟨sets, hsets, hports⟩ := transportSets_insistent hp hhosts
  have hzip : ((core ++ capability).zip (sets.1 ++ sets.2)).map (fun a => (a.1, a.2.port)) =
      (core ++ capability).map fun t => (t, effectivePort p t) := by
    calc ((core ++ capability).zip (sets.1 ++ sets.2)).map (fun a => (a.1, a.2.port))
        = (core ++ capability).zip ((sets.1 ++ sets.2).map (·.port)) := by
          rw [List.zip_map_right]
          rfl
      _ = (core ++ capability).map fun t => (t, effectivePort p t) := by
          rw [hports, List.map_prod_left_eq_zip]
  have hdistinct := h _ _ _ hsets
  unfold DistinctPorts at hdistinct
  rw [← List.pairwise_map (f := fun a : TransportInfo × LogosTransportConfig => (a.1, a.2.port))
    (R := fun a b : TransportInfo × UInt16 => Contend scope a.1 b.1 → a.2 ≠ b.2), hzip,
    List.pairwise_map] at hdistinct
  exact hdistinct

/-- **When the ports of a boot always differ**: exactly when no two listeners contend, or when
there is no boot at all, since a host that needs a port is no numeric address. -/
theorem alwaysDistinct_iff (scope : ConfiguredPorts) (core capability : List TransportInfo) :
    AlwaysDistinct scope core capability ↔
      (∃ t ∈ core ++ capability, AsksForPort t ∧ bindAddress t.host = none) ∨
        (core ++ capability).Pairwise fun t u => ¬ Contend scope t u := by
  constructor
  · intro h
    by_cases haddress : ∃ t ∈ core ++ capability, AsksForPort t ∧ bindAddress t.host = none
    · exact Or.inl haddress
    · have hhosts : ∀ t ∈ core ++ capability, AsksForPort t → ∃ a, bindAddress t.host = some a :=
        fun t ht hasks => Option.ne_none_iff_exists'.mp fun hnone => haddress ⟨t, ht, hasks, hnone⟩
      refine Or.inr (List.pairwise_iff_forall_sublist.mpr fun {t u} hpair hcontend => ?_)
      -- the kernel that answers with the port that both of them can come to
      obtain ⟨p, hp, htp, hup⟩ := exists_collision hcontend
      have hdiffer := effectivePort_ne_of_alwaysDistinct h hp hhosts
      exact List.pairwise_iff_forall_sublist.mp hdiffer hpair hcontend (htp.trans hup.symm)
  · rintro (⟨t, ht, hasks, hhost⟩ | hnone)
    · exact alwaysDistinct_of_no_address ht hasks hhost
    · exact alwaysDistinct_of_no_contention hnone

end Distinct

/-- A listener on the loopback that leaves its port to the daemon. -/
def anyLoopbackPort : TransportInfo where
  protocol := "tcp"
  host := "127.0.0.1"

/-- **One port for both modules.**  Each of them has one such listener, and the kernel, which hands
out no bound port, hands out 40000 twice. -/
theorem one_port_twice :
    (transportSets (insistent 40000) [] [anyLoopbackPort] [anyLoopbackPort]).toOption.map
        (fun sets => (toAdvertised sets.1, toAdvertised sets.2)) =
      some ([{ anyLoopbackPort with port := 40000 }], [{ anyLoopbackPort with port := 40000 }]) ∧
    ∀ scope, ¬ AlwaysDistinct scope [anyLoopbackPort] [anyLoopbackPort] := by
  have hrun : transportSets (insistent 40000) [] [anyLoopbackPort] [anyLoopbackPort] =
      .ok ([transportConfig { anyLoopbackPort with port := 40000 }],
        [transportConfig { anyLoopbackPort with port := 40000 }]) := by decide +kernel
  have haddress : hostAddress anyLoopbackPort.host = some (.v4 ⟨[127, 0, 0, 1], rfl⟩) := by
    decide +kernel
  refine ⟨by rw [hrun]; rfl, fun scope h => ?_⟩
  have hdistinct := h _ _ _ hrun
  have hcontend : Contend scope anyLoopbackPort anyLoopbackPort :=
    ⟨by decide, by decide, Or.inl ⟨rfl, rfl, _, haddress, haddress⟩⟩
  simp only [DistinctPorts, List.cons_append, List.nil_append, List.zip_cons_cons,
    List.zip_nil_left, List.pairwise_pair] at hdistinct
  exact hdistinct hcontend rfl

end Logosctl
