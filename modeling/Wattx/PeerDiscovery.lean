import Wattx.AddressRelay
/-!
# PeerDiscovery — the validator peers a node learns from heartbeats (`trust/trustscore.cpp`, `trust/heartbeat_net.cpp`)

`PeerDiscoveryManager` keeps two `std::set<CService>`: the validator peers it knows and those pending an `addnode`.
A valid address that is not known joins both (`ProcessValidatorAddress`), `MarkPeerAdded` takes one off the pending
set, and `LoadPeersFromConfig` adds the valid addresses of the peers file to the known set.  `InitPeerDiscovery`
makes the manager and loads `validator_peers.conf` from the data directory, and `ShutdownPeerDiscovery` saves it and
drops the manager.  `HeartbeatManager::ProcessHeartbeat` hands each credited heartbeat's address to the manager twice:
`TrustScoreManager::UpdateValidatorAddress` calls `ProcessValidatorAddress` for it, and then `ProcessHeartbeat` does,
and passes the address to `CConnman::AddNode` when that second call finds it new.

A set is a list in which no two services are equivalent under `CService::operator<`, which is `equals`; the order of
the set is not modelled.  The file system is the lines of each file.

Every run keeps `Inv`: the pending peers are known, every known peer is valid, and no two known or two pending peers
are equal (`peer_discovery_inv`).  Over the heartbeats of a run the peers discovered are exactly the valid addresses
not known before, each once; but the first call has made each of them known when the second asks, so `AddNode` is
never called and every one stays pending, while nothing reads the pending set (`heartbeat_discovery_never_adds`).  A
restart keeps every known peer that `LookupNumeric` reads back from its text, and empties the pending set
(`restart_keeps_known_peers`).
-/
namespace Wattx
namespace Trust

open Net

theorem CService.equals_self (a : CService) : a.equals a = true := by
  simp [CService.equals]

/-! ### The set of services -/

theorem insertPeer_of_any {peers : List CService} {a : CService} (h : peers.any (·.equals a) = true) :
    insertPeer peers a = peers := by
  rw [insertPeer, if_pos h]

theorem insertPeer_of_not_any {peers : List CService} {a : CService} (h : peers.any (·.equals a) = false) :
    insertPeer peers a = peers ++ [a] := by
  rw [insertPeer, if_neg (by rw [h]; decide)]

theorem any_equals_eq_false {peers : List CService} {a : CService} :
    peers.any (·.equals a) = false ↔ ∀ p ∈ peers, p.equals a = false := by
  simp

/-- A set stays a set: `insert` adds a service only when no equal one is there. -/
theorem pairwise_insertPeer {peers : List CService} (h : peers.Pairwise fun a b => a.equals b = false)
    (a : CService) : (insertPeer peers a).Pairwise fun a b => a.equals b = false := by
  cases hany : peers.any (·.equals a) with
  | true => rwa [insertPeer_of_any hany]
  | false =>
    rw [insertPeer_of_not_any hany, List.pairwise_append]
    exact ⟨h, List.pairwise_singleton _ _, fun p hp b hb => List.mem_singleton.1 hb ▸ any_equals_eq_false.1 hany p hp⟩

theorem subset_insertPeer (peers : List CService) (a : CService) : peers ⊆ insertPeer peers a := by
  unfold insertPeer
  split
  · exact List.Subset.refl _
  · exact List.subset_append_left _ _

theorem mem_insertPeer {peers : List CService} {a p : CService} (hp : p ∈ insertPeer peers a) : p ∈ peers ∨ p = a := by
  unfold insertPeer at hp
  split at hp
  · exact Or.inl hp
  · simpa using hp

/-! ### The manager -/

structure PeerDiscoveryManager where
  knownValidatorPeers : List CService
  pendingAdditions : List CService
  configFilePath : List Char

namespace PeerDiscoveryManager

/-- The constructor: no peers, no config file. -/
def empty : PeerDiscoveryManager := ⟨[], [], []⟩

def setConfigPath (m : PeerDiscoveryManager) (path : List Char) : PeerDiscoveryManager :=
  { m with configFilePath := path }

/-- `IsKnownPeer`: `count(address) > 0`. -/
def isKnownPeer (m : PeerDiscoveryManager) (address : CService) : Bool :=
  m.knownValidatorPeers.any (·.equals address)

def getKnownPeerCount (m : PeerDiscoveryManager) : Nat := m.knownValidatorPeers.length

def getPendingPeers (m : PeerDiscoveryManager) : List CService := m.pendingAdditions

/-- `ProcessValidatorAddress`: whether the address is a new peer, and the manager after it. -/
def processValidatorAddress (m : PeerDiscoveryManager) (address : CService) : Bool × PeerDiscoveryManager :=
  if !address.isValid then (false, m)
  else if m.isKnownPeer address then (false, m)
  else
    (true, { m with pendingAdditions := insertPeer m.pendingAdditions address,
                    knownValidatorPeers := insertPeer m.knownValidatorPeers address })

def markPeerAdded (m : PeerDiscoveryManager) (address : CService) : PeerDiscoveryManager :=
  { m with pendingAdditions := m.pendingAdditions.filter fun p => !p.equals address }

section Config

variable (SHA3_256 : List UInt8 → List UInt8) (dns_lookup_function : DNSLookupFn)

/-- `SavePeersToConfig`: the lines it writes to the config file, `none` when no path is set. -/
def savePeersToConfig (m : PeerDiscoveryManager) : Option (List (List Char)) :=
  if m.configFilePath = [] then none else some (Trust.savePeersToConfig SHA3_256 m.knownValidatorPeers)

/-- `LoadPeersFromConfig`, given the lines of the file at the config path, `none` when it does not open: whether it
succeeded, and the manager after it. -/
def loadPeersFromConfig (m : PeerDiscoveryManager) (file : Option (List (List Char))) :
    Bool × PeerDiscoveryManager :=
  if m.configFilePath = [] then (false, m)
  else
    match file with
    | none => (true, m)
    | some lines =>
      (true, { m with
        knownValidatorPeers := Trust.loadPeersFromConfig SHA3_256 dns_lookup_function lines m.knownValidatorPeers })

end Config

/-- What every run keeps: the pending peers are known, every known peer is valid, and no two known or two pending
peers are equal. -/
structure Inv (m : PeerDiscoveryManager) : Prop where
  pending_known : ∀ p ∈ m.pendingAdditions, p ∈ m.knownValidatorPeers
  known_valid : ∀ p ∈ m.knownValidatorPeers, p.isValid = true
  known_distinct : m.knownValidatorPeers.Pairwise fun a b => a.equals b = false
  pending_distinct : m.pendingAdditions.Pairwise fun a b => a.equals b = false

theorem empty_inv : Inv empty :=
  ⟨by simp [empty], by simp [empty], List.Pairwise.nil, List.Pairwise.nil⟩

theorem setConfigPath_inv {m : PeerDiscoveryManager} (h : Inv m) (path : List Char) : Inv (m.setConfigPath path) :=
  ⟨h.pending_known, h.known_valid, h.known_distinct, h.pending_distinct⟩

/-- What `ProcessValidatorAddress` can do: refuse and change nothing, or take a valid unknown address into both
sets at their ends. -/
theorem processValidatorAddress_cases {m : PeerDiscoveryManager} (h : Inv m) (address : CService) :
    m.processValidatorAddress address = (false, m) ∨
      address.isValid = true ∧ m.isKnownPeer address = false ∧
        m.processValidatorAddress address =
          (true, { m with pendingAdditions := m.pendingAdditions ++ [address],
                          knownValidatorPeers := m.knownValidatorPeers ++ [address] }) := by
  unfold processValidatorAddress
  cases hvalid : address.isValid with
  | false => exact Or.inl rfl
  | true =>
    cases hknown : m.isKnownPeer address with
    | true => exact Or.inl rfl
    | false =>
      -- an address no known peer equals is equal to no pending peer either
      have hpending : m.pendingAdditions.any (·.equals address) = false :=
        any_equals_eq_false.2 fun p hp => any_equals_eq_false.1 hknown p (h.pending_known p hp)
      refine Or.inr ⟨rfl, rfl, ?_⟩
      simp only [Bool.not_true, Bool.false_eq_true, if_false, insertPeer_of_not_any hpending,
        insertPeer_of_not_any hknown]

theorem processValidatorAddress_inv {m : PeerDiscoveryManager} (h : Inv m) (address : CService) :
    Inv (m.processValidatorAddress address).2 := by
  rcases processValidatorAddress_cases h address with hm | ⟨hvalid, hknown, hm⟩
  · rw [hm]
    exact h
  · have hpending : m.pendingAdditions.any (·.equals address) = false :=
      any_equals_eq_false.2 fun p hp => any_equals_eq_false.1 hknown p (h.pending_known p hp)
    rw [hm]
    refine ⟨fun p hp => ?_, fun p hp => ?_, ?_, ?_⟩
    · rcases List.mem_append.1 hp with hp | hp
      · exact List.mem_append_left _ (h.pending_known p hp)
      · exact List.mem_append_right _ hp
    · rcases List.mem_append.1 hp with hp | hp
      · exact h.known_valid p hp
      · rw [List.mem_singleton.1 hp]
        exact hvalid
    · rw [← insertPeer_of_not_any hknown]
      exact pairwise_insertPeer h.known_distinct address
    · rw [← insertPeer_of_not_any hpending]
      exact pairwise_insertPeer h.pending_distinct address

theorem markPeerAdded_inv {m : PeerDiscoveryManager} (h : Inv m) (address : CService) :
    Inv (m.markPeerAdded address) :=
  ⟨fun p hp => h.pending_known p (List.mem_filter.1 hp).1, h.known_valid, h.known_distinct,
    h.pending_distinct.filter _⟩

section Config

variable (SHA3_256 : List UInt8 → List UInt8) (dns_lookup_function : DNSLookupFn)

/-- A line of the peers file adds at most one valid service, as a set insert. -/
theorem loadPeerLine_cases (peers : List CService) (line : List Char) :
    loadPeerLine SHA3_256 dns_lookup_function peers line = peers ∨
      ∃ a : CService, a.isValid = true ∧ loadPeerLine SHA3_256 dns_lookup_function peers line = insertPeer peers a := by
  unfold loadPeerLine
  split
  · exact Or.inl rfl
  · split
    · exact Or.inl rfl
    · dsimp only
      split
      · unfold insertParsedPeer
        dsimp only
        split
        · exact Or.inr ⟨_, ‹_›, rfl⟩
        · exact Or.inl rfl
      · exact Or.inl rfl

/-- Whatever the file holds, loading it keeps the known peers, adds only valid ones, and keeps them a set. -/
theorem loadPeersFromConfig_peers : ∀ (lines : List (List Char)) {peers : List CService},
    (∀ p ∈ peers, p.isValid = true) → (peers.Pairwise fun a b => a.equals b = false) →
      let loaded := Trust.loadPeersFromConfig SHA3_256 dns_lookup_function lines peers
      peers ⊆ loaded ∧ (∀ p ∈ loaded, p.isValid = true) ∧ loaded.Pairwise fun a b => a.equals b = false
  | [], peers, hvalid, hdistinct => ⟨List.Subset.refl _, hvalid, hdistinct⟩
  | line :: lines, peers, hvalid, hdistinct => by
    -- one line, then the rest from what it left
    have hline : peers ⊆ loadPeerLine SHA3_256 dns_lookup_function peers line ∧
        (∀ p ∈ loadPeerLine SHA3_256 dns_lookup_function peers line, p.isValid = true) ∧
        (loadPeerLine SHA3_256 dns_lookup_function peers line).Pairwise fun a b => a.equals b = false := by
      rcases loadPeerLine_cases SHA3_256 dns_lookup_function peers line with hl | ⟨a, ha, hl⟩
      · rw [hl]
        exact ⟨List.Subset.refl _, hvalid, hdistinct⟩
      · rw [hl]
        refine ⟨subset_insertPeer peers a, fun p hp => ?_, pairwise_insertPeer hdistinct a⟩
        rcases mem_insertPeer hp with hp | rfl
        · exact hvalid p hp
        · exact ha
    obtain ⟨hsub, hvalid', hdistinct'⟩ := hline
    obtain ⟨hsub', hrest⟩ := loadPeersFromConfig_peers lines hvalid' hdistinct'
    exact ⟨List.Subset.trans hsub hsub', hrest⟩

theorem loadPeersFromConfig_inv {m : PeerDiscoveryManager} (h : Inv m) (file : Option (List (List Char))) :
    Inv (m.loadPeersFromConfig SHA3_256 dns_lookup_function file).2 := by
  unfold loadPeersFromConfig
  split
  · exact h
  · split
    · exact h
    · obtain ⟨hsub, hvalid, hdistinct⟩ :=
        loadPeersFromConfig_peers SHA3_256 dns_lookup_function ‹_› h.known_valid h.known_distinct
      exact ⟨fun p hp => hsub (h.pending_known p hp), hvalid, hdistinct, h.pending_distinct⟩

end Config

/-! ### The node -/

/-- The file name `InitPeerDiscovery` puts after the data directory. -/
def validatorPeersFile : List Char := "/validator_peers.conf".toList

/-- `TrustScoreManager::UpdateValidatorAddress` as the peer discovery manager sees it: for a `registered` validator
and a valid address it hands the address to `ProcessValidatorAddress`, and drops what that returns.  The check-in
fields it writes are left out with the rest of a validator's address fields. -/
def updateValidatorAddress (registered : Bool) (m : PeerDiscoveryManager) (address : CService) :
    Bool × PeerDiscoveryManager :=
  if !registered then (false, m)
  else if !address.isValid then (false, m)
  else (true, (m.processValidatorAddress address).2)

/-- The peer discovery of `HeartbeatManager::ProcessHeartbeat`, for the address of a heartbeat the trust manager
credited, so of a registered validator: `UpdateValidatorAddress` hands the address to the manager, then
`ProcessHeartbeat` hands it again, and an address that second call finds new goes to `AddNode`, and is marked added,
when the node has a connection manager (`connman`).  The first component is the addresses passed to `AddNode`. -/
def discoverPeer (connman : Bool) (m : PeerDiscoveryManager) (address : CService) :
    List CService × PeerDiscoveryManager :=
  if address.isValid then
    let m := (updateValidatorAddress true m address).2
    match m.processValidatorAddress address with
    | (true, m) => if connman then ([address], m.markPeerAdded address) else ([], m)
    | (false, m) => ([], m)
  else ([], m)

/-- The heartbeats of a run, one after the other, and every address passed to `AddNode`. -/
def discoverPeers (connman : Bool) (m : PeerDiscoveryManager) : List CService → List CService × PeerDiscoveryManager
  | [] => ([], m)
  | address :: addresses =>
    let (added, m) := discoverPeer connman m address
    let (rest, m) := discoverPeers connman m addresses
    (added ++ rest, m)

/-- A node's `g_peer_discovery`, `none` before `InitPeerDiscovery` and after `ShutdownPeerDiscovery`, and the lines
of each file. -/
structure PeerNode where
  manager : Option PeerDiscoveryManager
  files : List Char → Option (List (List Char))

/-- What happens to a node's peer discovery: it starts in a data directory, a credited heartbeat brings an address,
or it shuts down. -/
inductive PeerEvent where
  | init (dataDir : List Char)
  | heartbeat (address : CService)
  | shutdown

section Node

variable (SHA3_256 : List UInt8 → List UInt8) (dns_lookup_function : DNSLookupFn)

/-- `InitPeerDiscovery`: a new manager with its config path in `dataDir`, loaded from the file there. -/
def initPeerDiscovery (files : List Char → Option (List (List Char))) (dataDir : List Char) : PeerDiscoveryManager :=
  let m := empty.setConfigPath (dataDir ++ validatorPeersFile)
  (m.loadPeersFromConfig SHA3_256 dns_lookup_function (files m.configFilePath)).2

/-- One event of a node, with a connection manager or without (`connman`). -/
def PeerNode.step (connman : Bool) (n : PeerNode) : PeerEvent → PeerNode
  | .init dataDir => { n with manager := some (initPeerDiscovery SHA3_256 dns_lookup_function n.files dataDir) }
  | .heartbeat address =>
    match n.manager with
    | none => n
    | some m => { n with manager := some (discoverPeer connman m address).2 }
  | .shutdown =>
    match n.manager with
    | none => n
    | some m =>
      match m.savePeersToConfig SHA3_256 with
      | none => { n with manager := none }
      | some lines => { manager := none, files := Function.update n.files m.configFilePath (some lines) }

def PeerNode.run (connman : Bool) (n : PeerNode) (events : List PeerEvent) : PeerNode :=
  events.foldl (PeerNode.step SHA3_256 dns_lookup_function connman) n

end Node

/-- The invariant of a node: its manager, when it has one, keeps `Inv`. -/
def PeerNode.Inv (n : PeerNode) : Prop := ∀ m, n.manager = some m → m.Inv

/-! ### What a heartbeat does -/

/-- What a credited heartbeat's address does: nothing when it is invalid or known, and otherwise it joins the known
and the pending peers through `UpdateValidatorAddress`, after which the second `ProcessValidatorAddress` finds it
known, and `AddNode` is not called, with a connection manager or without. -/
theorem discoverPeer_cases (connman : Bool) {m : PeerDiscoveryManager} (h : m.Inv) (address : CService) :
    (discoverPeer connman m address = ([], m) ∧ (address.isValid = true → m.isKnownPeer address = true)) ∨
      address.isValid = true ∧ m.isKnownPeer address = false ∧
        discoverPeer connman m address =
          ([], ⟨m.knownValidatorPeers ++ [address], m.pendingAdditions ++ [address], m.configFilePath⟩) := by
  unfold discoverPeer
  cases hvalid : address.isValid with
  | false => exact Or.inl ⟨rfl, nofun⟩
  | true =>
    have hfirst : updateValidatorAddress true m address = (true, (m.processValidatorAddress address).2) := by
      simp [updateValidatorAddress, hvalid]
    rw [if_pos rfl, hfirst]
    rcases processValidatorAddress_cases h address with hm | ⟨-, hknown, hm⟩
    · -- a valid address the manager refuses is known, and both calls refuse it
      have hknown : m.isKnownPeer address = true := by
        cases hk : m.isKnownPeer address with
        | true => rfl
        | false => simp [processValidatorAddress, hvalid, hk] at hm
      exact Or.inl ⟨by simp only [hm], fun _ => hknown⟩
    · -- the first call takes the address, and the second finds it known
      have hsecond : (processValidatorAddress ⟨m.knownValidatorPeers ++ [address], m.pendingAdditions ++ [address],
          m.configFilePath⟩ address) =
          (false, ⟨m.knownValidatorPeers ++ [address], m.pendingAdditions ++ [address], m.configFilePath⟩) := by
        simp [processValidatorAddress, isKnownPeer, hvalid, CService.equals_self]
      exact Or.inr ⟨rfl, hknown, by simp only [hm, hsecond]⟩

theorem discoverPeer_inv (connman : Bool) {m : PeerDiscoveryManager} (h : m.Inv) (address : CService) :
    (discoverPeer connman m address).2.Inv := by
  rcases discoverPeer_cases connman h address with ⟨hd, -⟩ | ⟨hvalid, hknown, hd⟩
  · rw [hd]
    exact h
  · -- the state is the one `ProcessValidatorAddress` reaches
    have hinv := processValidatorAddress_inv h address
    rcases processValidatorAddress_cases h address with hm | ⟨-, -, hm⟩
    · simp [processValidatorAddress, hvalid, hknown] at hm
    · rw [hm] at hinv
      rw [hd]
      exact hinv

/-- **Heartbeats never add a peer.**  Over the heartbeats of a run, the peers a node discovers are valid addresses of
the heartbeats, none known before and no two equal, and every valid address ends up known.  Each discovered peer
is left pending, and `AddNode` is never called, whether the node has a connection manager or not: the address is
already known when `ProcessHeartbeat` asks after `UpdateValidatorAddress`. -/
theorem heartbeat_discovery_never_adds (connman : Bool) :
    ∀ (addresses : List CService) {m : PeerDiscoveryManager}, m.Inv →
      ∃ D : List CService, (∀ d ∈ D, d ∈ addresses ∧ d.isValid = true ∧ m.isKnownPeer d = false) ∧
        D.Pairwise (fun a b => a.equals b = false) ∧
        (∀ a ∈ addresses, a.isValid = true → (m.knownValidatorPeers ++ D).any (·.equals a) = true) ∧
        discoverPeers connman m addresses =
          ([], ⟨m.knownValidatorPeers ++ D, m.pendingAdditions ++ D, m.configFilePath⟩)
  | [], m, _ => ⟨[], by simp, List.Pairwise.nil, by simp, by simp [discoverPeers]⟩
  | a :: rest, m, h => by
    rcases discoverPeer_cases connman h a with ⟨hd, hknown⟩ | ⟨hvalid, hknown, hd⟩
    · -- nothing changes, and the rest discovers what the run does
      obtain ⟨D, hD, hpair, hcover, hrun⟩ := heartbeat_discovery_never_adds connman rest h
      refine ⟨D, fun d hd => ?_, hpair, fun x hx hxv => ?_, ?_⟩
      · obtain ⟨hmem, hdv, hdk⟩ := hD d hd
        exact ⟨List.mem_cons_of_mem _ hmem, hdv, hdk⟩
      · rcases List.mem_cons.1 hx with rfl | hx
        · have hx := hknown hxv
          rw [isKnownPeer] at hx
          rw [List.any_append, hx, Bool.true_or]
        · exact hcover x hx hxv
      · simp only [discoverPeers, hd, List.nil_append, hrun]
    · -- the address is discovered, and the rest's discoveries come after it
      obtain ⟨m', hm'⟩ : ∃ m' : PeerDiscoveryManager,
          m' = ⟨m.knownValidatorPeers ++ [a], m.pendingAdditions ++ [a], m.configFilePath⟩ := ⟨_, rfl⟩
      have h' : m'.Inv := by
        have hinv := discoverPeer_inv connman h a
        rw [hd, ← hm'] at hinv
        exact hinv
      obtain ⟨D, hD, hpair, hcover, hrun⟩ := heartbeat_discovery_never_adds connman rest h'
      -- a peer new after `a` joined is neither known before nor equal to `a`
      have hnew : ∀ d ∈ D, m.isKnownPeer d = false ∧ a.equals d = false := by
        intro d hd
        have hdk := (hD d hd).2.2
        simp only [isKnownPeer, hm', List.any_append, List.any_cons, List.any_nil, Bool.or_false,
          Bool.or_eq_false_iff] at hdk
        exact hdk
      refine ⟨a :: D, fun d hd => ?_, List.Pairwise.cons (fun d hd => (hnew d hd).2) hpair, fun x hx hxv => ?_, ?_⟩
      · rcases List.mem_cons.1 hd with rfl | hd
        · exact ⟨List.mem_cons_self, hvalid, hknown⟩
        · exact ⟨List.mem_cons_of_mem _ (hD d hd).1, (hD d hd).2.1, (hnew d hd).1⟩
      · rcases List.mem_cons.1 hx with rfl | hx
        · simp [CService.equals_self]
        · have hc := hcover x hx hxv
          rw [hm', List.append_assoc, List.singleton_append] at hc
          exact hc
      · simp only [discoverPeers, hd, ← hm', hrun]
        subst hm'
        simp

/-! ### Runs of a node -/

section Node

variable (SHA3_256 : List UInt8 → List UInt8) (dns_lookup_function : DNSLookupFn)

theorem initPeerDiscovery_inv (files : List Char → Option (List (List Char))) (dataDir : List Char) :
    (initPeerDiscovery SHA3_256 dns_lookup_function files dataDir).Inv :=
  loadPeersFromConfig_inv SHA3_256 dns_lookup_function (setConfigPath_inv empty_inv _) _

theorem PeerNode.step_shutdown_manager (connman : Bool) (n : PeerNode) :
    (n.step SHA3_256 dns_lookup_function connman .shutdown).manager = none := by
  cases hn : n.manager with
  | none => simp only [PeerNode.step, hn]
  | some m =>
    simp only [PeerNode.step, hn]
    split <;> rfl

theorem PeerNode.step_inv (connman : Bool) {n : PeerNode} (h : n.Inv) :
    ∀ e : PeerEvent, (n.step SHA3_256 dns_lookup_function connman e).Inv
  | .init dataDir => by
    intro m hm
    cases hm
    exact initPeerDiscovery_inv SHA3_256 dns_lookup_function _ dataDir
  | .heartbeat address => by
    unfold PeerNode.step
    cases hn : n.manager with
    | none => simpa [hn] using h
    | some m =>
      intro m' hm'
      cases hm'
      exact discoverPeer_inv connman (h m hn) address
  | .shutdown => by
    intro m hm
    rw [PeerNode.step_shutdown_manager] at hm
    cases hm

/-- **Every run keeps the invariant.**  Whatever the files hold and in whatever order a node starts, takes
heartbeats and shuts down, its manager's pending peers are known, its known peers are valid, and no two known or two
pending peers are equal. -/
theorem peer_discovery_inv (connman : Bool) : ∀ (events : List PeerEvent) {n : PeerNode}, n.Inv →
    (n.run SHA3_256 dns_lookup_function connman events).Inv
  | [], _, h => h
  | e :: events, _, h => peer_discovery_inv connman events (PeerNode.step_inv SHA3_256 dns_lookup_function connman h e)

/-- **A restart keeps the known peers.**  A node that shuts down and starts again in the same data directory knows
again every peer it knew, in the same order, when `LookupNumeric` reads each back from its text, and has no pending
peer: a peer left pending before is never passed to `AddNode`. -/
theorem restart_keeps_known_peers (connman : Bool) {n : PeerNode} {m : PeerDiscoveryManager}
    (hn : n.manager = some m) (h : m.Inv) {dataDir : List Char} (hpath : m.configFilePath = dataDir ++ validatorPeersFile)
    (hread : ∀ s ∈ m.knownValidatorPeers,
      lookupNumeric SHA3_256 dns_lookup_function (s.toStringAddrPort SHA3_256) 18888 = s) :
    (n.run SHA3_256 dns_lookup_function connman [.shutdown, .init dataDir]).manager =
      some ⟨m.knownValidatorPeers, [], dataDir ++ validatorPeersFile⟩ := by
  have hne : dataDir ++ validatorPeersFile ≠ [] :=
    List.append_ne_nil_of_right_ne_nil _ (by decide)
  have hsave : m.savePeersToConfig SHA3_256 = some (Trust.savePeersToConfig SHA3_256 m.knownValidatorPeers) := by
    rw [savePeersToConfig, hpath, if_neg hne]
  -- the file read back is the known peers, as the relay of each text gives it
  have hload := peersFile_relayed_of_lookupNumeric SHA3_256 dns_lookup_function hread h.known_valid h.known_distinct
  -- shutting down writes the file, and drops the manager
  have hshutdown : n.step SHA3_256 dns_lookup_function connman .shutdown =
      ⟨none, Function.update n.files m.configFilePath (some (Trust.savePeersToConfig SHA3_256 m.knownValidatorPeers))⟩ := by
    simp only [PeerNode.step, hn, hsave]
  -- starting again reads that file into a new manager
  have hinit : ∀ files : List Char → Option (List (List Char)),
      files (dataDir ++ validatorPeersFile) = some (Trust.savePeersToConfig SHA3_256 m.knownValidatorPeers) →
        initPeerDiscovery SHA3_256 dns_lookup_function files dataDir =
          ⟨m.knownValidatorPeers, [], dataDir ++ validatorPeersFile⟩ := by
    intro files hfile
    simp only [initPeerDiscovery, setConfigPath, loadPeersFromConfig, empty, if_neg hne, hfile, hload]
  rw [PeerNode.run, List.foldl_cons, hshutdown, List.foldl_cons, List.foldl_nil]
  exact congrArg some (hinit _ (by rw [← hpath]; exact Function.update_self _ _ _))

end Node

/-- A node that has not started: no manager, no file. -/
def idleNode : PeerNode := ⟨none, fun _ => none⟩

theorem peer_discovery_inv_from_idle :
    (idleNode.run (fun _ => []) ipv4TextResolver true
      [.init "data".toList, .heartbeat ipv4Service, .shutdown, .init "data".toList]).Inv :=
  peer_discovery_inv (fun _ => []) ipv4TextResolver true _ (fun _ hm => by cases hm)

/-- A node in `data` that knows `1.2.3.4`. -/
def ipv4PeerNode : PeerNode := ⟨some ⟨[ipv4Service], [], "data".toList ++ validatorPeersFile⟩, fun _ => none⟩

theorem restart_keeps_known_peers_at_1234 :
    (ipv4PeerNode.run (fun _ => []) ipv4TextResolver true [.shutdown, .init "data".toList]).manager =
      some ⟨[ipv4Service], [], "data".toList ++ validatorPeersFile⟩ :=
  restart_keeps_known_peers (fun _ => []) ipv4TextResolver true (m := ⟨[ipv4Service], [], _⟩) rfl
    ⟨by simp, by decide, List.pairwise_singleton _ _, List.Pairwise.nil⟩ rfl
    (fun s hs => by
      rw [List.mem_singleton.1 hs]
      exact lookupNumeric_ipv4 _ _ rfl rfl (by decide) 18888 (by decide))

theorem heartbeat_discovery_never_adds_at_1234 :
    ∃ D : List CService, (∀ d ∈ D, d ∈ [ipv4Service, ipv4Service] ∧ d.isValid = true ∧ empty.isKnownPeer d = false) ∧
      D.Pairwise (fun a b => a.equals b = false) ∧
      (∀ a ∈ [ipv4Service, ipv4Service], a.isValid = true → (empty.knownValidatorPeers ++ D).any (·.equals a) = true) ∧
      discoverPeers true empty [ipv4Service, ipv4Service] =
        ([], ⟨empty.knownValidatorPeers ++ D, empty.pendingAdditions ++ D, empty.configFilePath⟩) :=
  heartbeat_discovery_never_adds true [ipv4Service, ipv4Service] empty_inv

end PeerDiscoveryManager

end Trust
end Wattx
