import SliceAgent.Proofs.NodeCalls

/-!
Runs of a node, over which its inventory mirrors its engine
(`Node.Run.inventory_mirrors`): whatever is prepared and unprepared, and whatever accesses fail, every
slice is announced as it is and nothing is announced that is not there.
-/
namespace SliceAgent

/-- What a node is started with. -/
structure NodeSetup where
  provider : Provider
  catalog : Catalog
  eligibility : Eligibility
  cdi : CdiRoot
  claims : ClaimSettings

/-- Whether a host is the one that a node starts over, with the cards that discovery finds. Over the
host of another node this is a restart. -/
def NodeSetup.Starts (s : NodeSetup) (host : Host) (n : Node) : Prop :=
  ∃ inventory engine host',
    discover s.provider (.new s.catalog s.eligibility) s.cdi.nodeName = .ok (inventory, engine) ∧
      Node.start s.cdi s.claims engine inventory host = (.ok n, host')

namespace Node

variable {n n₀ : Node} {call : NodeCall}

/-- The nodes that calls lead to, of those that are allowed. Between calls, accesses may begin or cease
to fail, and files may change. -/
inductive Run (allowed : Node → NodeCall → Prop) (start : Node) : Node → Prop
  | start : Run allowed start start
  | disturb {n : Node} (files : FileTree) (faults : Faults) : Run allowed start n →
      Run allowed start { n with host := { n.host with files, faults } }
  | call {n : Node} (call : NodeCall) : Run allowed start n → n.Fits call → allowed n call →
      Run allowed start (n.perform call)

def anyCall (_ : Node) (_ : NodeCall) : Prop := True

/-- What holds of a node in use, compared with the node at its start. -/
structure Holds (n₀ n : Node) : Prop where
  sound : n.engine.Sound
  cards : n₀.engine.SameCards n.engine
  mirrors : n.inventory.Mirrors n.engine
  nodeName : n.inventory.nodeName = n₀.inventory.nodeName
  claims : n.claims = n₀.claims

theorem Holds.perform (h : Holds n₀ n) (hfit : n.Fits call) : Holds n₀ (n.perform call) := by
  by_cases hcall : call = .reconcile
  · have hsame : n.perform call = n := by
      rw [hcall, Node.perform, reconcile, h.mirrors.reconcile_eq]
    rw [hsame]
    exact h
  · have hsound := h.sound.performAll hfit
    have hcards := h.sound.sameCards_performAll (n.engineCalls_isUse call) hfit
    have hmirrors := h.mirrors.follow h.sound hfit
    obtain ⟨host, hp⟩ := n.perform_after hcall
    rw [hp]
    exact ⟨hsound, h.cards.trans hcards, hmirrors, (Inventory.nodeName_follow _).trans h.nodeName,
      h.claims⟩

theorem Run.holds {allowed : Node → NodeCall → Prop} (hrun : n₀.Run allowed n)
    (h : Holds n₀ n₀) : Holds n₀ n := by
  induction hrun with
  | start => exact h
  | disturb files faults _ ih => exact ⟨ih.sound, ih.cards, ih.mirrors, ih.nodeName, ih.claims⟩
  | call call _ hfit _ ih => exact ih.perform hfit

theorem start_ok {cdi : CdiRoot} {claims : ClaimSettings} {engine : Engine} {inventory : Inventory}
    {host host' : Host} (h : start cdi claims engine inventory host = (.ok n, host')) :
    n.cdi = cdi ∧ n.claims = claims ∧ n.engine = engine ∧ n.inventory = inventory := by
  unfold start at h
  split at h
  · cases h
  · split at h
    · cases h
    · cases h
      exact ⟨rfl, rfl, rfl, rfl⟩
    · split at h
      · cases h
      · cases h
        exact ⟨rfl, rfl, rfl, rfl⟩

theorem start_of_fresh (cdi : CdiRoot) (claims : ClaimSettings) (engine : Engine)
    (inventory : Inventory) (host : Host) (hspec : (host.writeCommonSpec cdi).1 = .ok ())
    (hfaults : host.faults = .none)
    (hnone : host.store.names.contains Checkpoint.storedName = false) :
    ∃ host', start cdi claims engine inventory host = (.ok ⟨cdi, claims, engine, inventory, true,
      { host with
        files := (host.writeCommonSpec cdi).2.files,
        store := host.store.put Checkpoint.storedName .new }⟩, host') := by
  have hwrite : host.writeCommonSpec cdi =
      (.ok (), { host with files := (host.writeCommonSpec cdi).2.files }) :=
    Prod.ext hspec (host.changeFiles_snd ..)
  unfold start
  rw [hwrite]
  simp only [Host.hasCheckpoint, hfaults, Faults.none, hnone, Host.writeCheckpoint]
  exact ⟨_, rfl⟩

def prepared (n : Node) (claim : ResourceClaim) (c : Checkpoint) (devices : List PreparedDevice) :
    Node :=
  { n.adopt (n.granting claim).2 with
    host := { n.host with
      files := (n.host.writeClaimSpec n.cdi claim.uid devices).2.files,
      store := n.host.store.put Checkpoint.storedName (c.insert claim.uid devices) } }

theorem prepare_ok {claim : ResourceClaim} {c : Checkpoint} {devices : List PreparedDevice}
    (hr : n.host.readCheckpoint = .ok c) (hf : c.find? claim.uid = none)
    (hg : (n.granting claim).1 = .ok devices)
    (hspec : (n.host.writeClaimSpec n.cdi claim.uid devices).1 = .ok ())
    (hw : n.host.faults.writeCheckpoint = none) :
    n.prepare claim = (.ok devices, n.prepared claim c devices) := by
  have hgrant : grantClaim n.cdi.driverName (n.cdi.deviceIds claim.uid) n.claims.sources claim
      ⟨n.engine, n.inventory, []⟩ = (.ok devices, (n.granting claim).2) := Prod.ext hg rfl
  have hwrite : (n.adopt (n.granting claim).2).host.writeClaimSpec
      (n.adopt (n.granting claim).2).cdi claim.uid devices = (.ok (), { n.host with
        files := (n.host.writeClaimSpec n.cdi claim.uid devices).2.files }) :=
    Prod.ext hspec (n.host.changeFiles_snd ..)
  unfold prepare
  rw [hr]
  simp only [hf, prepareNew, hgrant, commit, hwrite, Host.writeCheckpoint, hw]
  rfl

theorem unprepare_ok {uid : String} {c : Checkpoint} (hr : n.host.readCheckpoint = .ok c)
    (hw : n.host.faults.writeCheckpoint = none)
    (hremove : ((n.storing (c.erase uid)).host.removeClaimSpec n.cdi uid).1 = .ok ()) :
    (n.unprepare uid).1 = .ok () := by
  rcases n.unprepare_cases uid with ⟨e, hr', _⟩ | ⟨_, _, _, hp⟩ | ⟨c', devices, hr', _, hp⟩
  · cases hr'.symm.trans hr
  · rw [hp]
  · cases hr'.symm.trans hr
    obtain ⟨files, hforget⟩ := forget_of_no_fault
      (n := n.after ((releaseOrder devices).map .release)) hw (c.erase uid) uid
    rw [hp, hforget]
    exact congrArg (·.mapError NodeError.cdi) hremove

theorem fits_prepare {claim : ResourceClaim} {c : Checkpoint} {devices : List PreparedDevice}
    (hr : n.host.readCheckpoint = .ok c) (hf : c.find? claim.uid = none)
    (hok : (n.prepare claim).1 = .ok devices)
    (hfit : n.engine.FitsThrough
      (claimCalls n.cdi.driverName n.claims.sources claim ⟨n.engine, n.inventory, []⟩)) :
    n.Fits (.prepare claim) := by
  have hnew : n.prepare claim = n.prepareNew claim c := by
    simp only [prepare, hr, hf]
  rw [hnew] at hok
  rw [Fits, engineCalls_prepare hr hf, prepareCalls, rollbackCalls_of_ok hok, List.append_nil]
  exact hfit

end Node

theorem NodeSetup.Starts.holds {s : NodeSetup} {host : Host} {n : Node} (h : s.Starts host n) :
    Node.Holds n n ∧ n.engine.AllFree ∧ n.inventory.nodeName = s.cdi.nodeName ∧
      n.engine.catalog = s.catalog ∧ n.claims = s.claims := by
  obtain ⟨inventory, engine, host', hd, hstart⟩ := h
  obtain ⟨_, hclaims, rfl, rfl⟩ := Node.start_ok hstart
  obtain ⟨hsound, hfree, hmirrors, hname, hcatalog⟩ := discover_spec hd
  exact ⟨⟨hsound, Engine.SameCards.refl _, hmirrors, rfl, rfl⟩, hfree, hname, hcatalog, hclaims⟩

/-- The hosts that failing starts leave. Between them, accesses may begin or cease to fail. -/
inductive NodeSetup.FailsToStart (s : NodeSetup) (host : Host) : Host → Prop
  | start : FailsToStart s host host
  | disturb {h : Host} (files : FileTree) (faults : Faults) : FailsToStart s host h →
      FailsToStart s host { h with files, faults }
  | fail {h h' : Host} {inventory : Inventory} {engine : Engine} {e : NodeError} :
      FailsToStart s host h →
      discover s.provider (.new s.catalog s.eligibility) s.cdi.nodeName = .ok (inventory, engine) →
      Node.start s.cdi s.claims engine inventory h = (.error e, h') → FailsToStart s host h'

/-- The nodes that a host comes to have. A restart is a start over the host of the node before it, with
free cards, after any starts that fail. -/
inductive NodeSetup.Reaches (s : NodeSetup) (host : Host) : Node → Prop
  | start {n₀ n : Node} : s.Starts host n₀ → n₀.Run Node.anyCall n → Reaches s host n
  | restart {n n₀ m : Node} {h : Host} : Reaches s host n → s.FailsToStart n.host h →
      s.Starts h n₀ → n₀.Run Node.anyCall m → Reaches s host m

theorem NodeSetup.Reaches.run {s : NodeSetup} {host : Host} {n : Node} (h : s.Reaches host n) :
    ∃ host' n₀, s.Starts host' n₀ ∧ n₀.Run Node.anyCall n := by
  cases h with
  | start hstart hrun => exact ⟨_, _, hstart, hrun⟩
  | restart _ _ hstart hrun => exact ⟨_, _, hstart, hrun⟩

theorem NodeSetup.Reaches.holds {s : NodeSetup} {host : Host} {n : Node} (h : s.Reaches host n) :
    ∃ n₀, Node.Holds n₀ n ∧ n.claims = s.claims := by
  obtain ⟨_, n₀, hstart, hrun⟩ := h.run
  obtain ⟨h₀, _, _, _, hclaims⟩ := hstart.holds
  have hn := hrun.holds h₀
  exact ⟨n₀, hn, hn.claims.trans hclaims⟩

namespace Node

/-- Over any run the names of the inventory are those of the slices of the engine, so that nothing is
stale; a free piece is announced with what its card offers now, and what discovery entered stays. -/
theorem Run.inventory_mirrors {s : NodeSetup} {host : Host} {n₀ n : Node} (hstart : s.Starts host n₀)
    (hrun : n₀.Run anyCall n) :
    n.inventory.names = n.engine.knownIds.keys ∧
    n.reconcile.1 = [] ∧
    (∀ key c, n.engine.device? key = some c → ∀ piece ∈ c.available, piece.kind = .partition →
      n.inventory.find? piece.id = some (.ofSlice s.cdi.nodeName
        ⟨piece.id, c.logicalIndex, c.model, .partition, c.maxSupported⟩)) ∧
    ∀ name d, n₀.inventory.find? name = some d → n.inventory.find? name = some d := by
  obtain ⟨h₀, hfree, hname, _⟩ := hstart.holds
  have h := hrun.holds h₀
  refine ⟨h.mirrors.names_eq, h.mirrors.stale_eq, fun key c hc piece hp hkind => ?_,
    fun name d hd => ?_⟩
  · rw [h.mirrors.pieces key c hc piece hp hkind, h.nodeName, hname, AdvertisedSlice.ofCard, hkind]
  · obtain ⟨key, c₀, hc₀, hid⟩ := (h₀.mirrors.names name).1 (Inventory.contains_iff.2 ⟨d, hd⟩)
    have hkey : name = key := by
      rw [hfree key c₀ hc₀] at hid
      exact (List.mem_singleton.1 hid).trans (h₀.sound key c₀ hc₀).1
    have hcard := h.cards.cards key
    rw [hc₀] at hcard
    obtain ⟨c, hc, hi⟩ := Option.map_eq_some_iff.1 hcard
    rw [hkey] at hd ⊢
    rw [← hd, h.mirrors.cards key c hc, h₀.mirrors.cards key c₀ hc₀, h.nodeName,
      Card.entry_of_identity hi]

end Node

section Sample

def sampleSetup : NodeSetup where
  provider := .ofDeclared [⟨0, "Ascend310P", some 8, some 24⟩]
  catalog := .standard
  eligibility := .standard
  cdi := ⟨"/cdi", "npu.example.com", "node-a"⟩
  claims := ⟨.classOnly, .compensating⟩

def sampleHost : Host := ⟨.empty, FileTree.empty.put ["cdi"] .directory, .none⟩

def sampleCards : Inventory × Engine :=
  discoverCard sampleSetup.provider (.new "node-a", .new .standard .standard) ⟨0, "Ascend310P"⟩

def sampleStart : Node :=
  ⟨sampleSetup.cdi, sampleSetup.claims, sampleCards.2, sampleCards.1, true, { sampleHost with
    files := (sampleHost.writeCommonSpec sampleSetup.cdi).2.files,
    store := sampleHost.store.put Checkpoint.storedName .new }⟩

def sampleClaim (uid device : String) : ResourceClaim :=
  ⟨uid, "default", uid, some ⟨[⟨"npu", "npu.example.com", "node-a", device⟩],
    [⟨"FromClass", [], some ⟨"npu.example.com", (NpuConfig.ofTemplate "vir01").toRaw⟩⟩]⟩⟩

def sampleDevices : List PreparedDevice :=
  ((sampleStart.granting (sampleClaim "c-1" "npu-0-0")).1.toOption).getD []

def sampleRecord : Checkpoint := Checkpoint.new.insert "c-1" sampleDevices

def sampleCarved : Node :=
  sampleStart.prepared (sampleClaim "c-1" "npu-0-0") .new sampleDevices

theorem ok_of_toOption {ε α : Type} {x : Except ε α} {a : α} (h : x.toOption = some a) :
    x = .ok a := by
  cases x with
  | error e => cases h
  | ok b =>
    cases h
    rfl

theorem ok_of_isOk {ε α : Type} {x : Except ε α} (h : x.isOk = true) (a : α) :
    x = .ok (x.toOption.getD a) := by
  cases x with
  | error e => cases h
  | ok b => rfl

theorem sampleStart_starts : sampleSetup.Starts sampleHost sampleStart := by
  obtain ⟨host', hstart⟩ := Node.start_of_fresh sampleSetup.cdi sampleSetup.claims
    sampleCards.2 sampleCards.1 sampleHost (ok_of_toOption (by decide +kernel)) rfl
    (by decide +kernel)
  exact ⟨sampleCards.1, sampleCards.2, host', rfl, hstart⟩

theorem sampleStart_read : sampleStart.host.readCheckpoint = .ok .new :=
  (Host.readCheckpoint_of_no_faults rfl).trans (CheckpointStore.get_put ..)

theorem sampleStart_prepare : sampleStart.prepare (sampleClaim "c-1" "npu-0-0") =
    (.ok sampleDevices, sampleCarved) :=
  Node.prepare_ok sampleStart_read rfl (ok_of_toOption (by decide +kernel))
    (ok_of_toOption (by decide +kernel)) rfl

theorem sampleCarved_read : sampleCarved.host.readCheckpoint = .ok sampleRecord :=
  (Host.readCheckpoint_of_no_faults rfl).trans (CheckpointStore.get_put ..)

theorem sampleCarved_run : sampleStart.Run Node.anyCall sampleCarved := by
  have hfit : sampleStart.Fits (.prepare (sampleClaim "c-1" "npu-0-0")) :=
    Node.fits_prepare sampleStart_read rfl (congrArg Prod.fst sampleStart_prepare) (by decide +kernel)
  have hstart : sampleStart.Run Node.anyCall sampleStart := .start
  have hrun := hstart.call _ hfit trivial
  rwa [Node.perform, sampleStart_prepare] at hrun

end Sample

namespace Node

theorem Run.inventory_mirrors_carved : sampleSetup.Starts sampleHost sampleStart ∧
    sampleStart.Run anyCall sampleCarved ∧
    sampleCarved.inventory.names = sampleCarved.engine.knownIds.keys :=
  ⟨sampleStart_starts, sampleCarved_run,
    (Run.inventory_mirrors sampleStart_starts sampleCarved_run).1⟩

end Node

end SliceAgent
