import SliceAgent.Proofs.DurableClaims
import SliceAgent.Proofs.FreeSlices
import SliceAgent.Proofs.SpecifiedClaims
import SliceAgent.Proofs.StorageFailures

/-!
What it means that a claim is unprepared by the names of its devices, whoever has the slices of these
names by then: another claim, if the device was granted without being allocated
(`NodeSetup.Reaches.unprepare_borrowed`), or if a call before released it and could not strike the claim
off the record (`NodeSetup.Reaches.unprepare_unsaved`).
-/
namespace SliceAgent

theorem Host.removeClaimSpec_ok_of_read {h : Host} {r : CdiRoot} {uid : String} {content : ByteArray}
    (hfault : h.faults.removeClaimSpec = none)
    (hread : h.files.read (r.specPath uid) = .ok content) : (h.removeClaimSpec r uid).1 = .ok () := by
  obtain ⟨files, hremove⟩ := FileTree.remove_ok_of_read hread
  simp only [removeClaimSpec, changeFiles, hfault, CdiRoot.removeClaim, hremove]

namespace Engine

variable {e : Engine} {id : String}

theorem mem_of_release {change : SliceChange} {e' : Engine} (h : e.release id = .ok (change, e')) :
    id ∈ e.allocatedIds := by
  obtain ⟨key, c, place, s, hc, hs, rfl, _⟩ := release_ok h
  exact mem_allocatedIds.2 ⟨key, c, hc, List.mem_map_of_mem (List.mem_of_getElem? hs)⟩

theorem release_of_not_mem (h : id ∉ e.allocatedIds) : ∃ err, e.release id = .error err := by
  cases hr : e.release id with
  | error err => exact ⟨err, rfl⟩
  | ok released => exact absurd (mem_of_release hr) h

theorem Sound.restored_of_none_allocated {f : Engine} {key : String} {c : Card} (hf : f.Sound)
    (hcards : e.SameCards f) (hc : e.device? key = some c)
    (hnone : ∀ d, f.device? key = some d → d.allocated = []) :
    f.device? key = some (c.restored e.catalog) := by
  have hcard := hcards.cards key
  rw [show e.cards.find? key = some c from hc] at hcard
  obtain ⟨d, hd, hidentity⟩ := Option.map_eq_some_iff.1 hcard
  have hfree := (hf key d hd).2.isFree_of_allocated (hnone d hd)
  rw [← Card.restored_of_identity hidentity, ← hcards.catalog, ← Card.isFree_iff.1 hfree]
  exact hd

end Engine

namespace Node

variable {n n₀ k : Node} {uid : String} {c : Checkpoint} {devices : List PreparedDevice}
  {claim : ResourceClaim}

theorem after_of_none_allocated {ids : List String} (h : ∀ id ∈ ids, id ∉ n.engine.allocatedIds) :
    n.after (ids.map .release) = n := by
  induction ids with
  | nil => rfl
  | cons id ids ih =>
    obtain ⟨hid, hids⟩ := List.forall_mem_cons.1 h
    obtain ⟨err, hr⟩ := Engine.release_of_not_mem hid
    have hsame : n.after [.release id] = n := by rw [← release_eq, release, hr]
    rw [List.map_cons, ← List.singleton_append, after_append, hsame, ih hids]

/-- What a node comes to be that releases slices by the names of devices. What is allocated under these
names is lost, and with the name of a card all of the card; nothing else happens. -/
structure Drops (n : Node) (devices : List PreparedDevice) (k : Node) : Prop where
  allocated : ∀ id, id ∈ k.engine.allocatedIds ↔
    id ∈ n.engine.allocatedIds ∧ ∀ name ∈ deviceNames devices, ¬ SliceId.Covers name id
  unchanged : k.engine = n.engine ∧ k.inventory = n.inventory ↔
    ∀ name ∈ deviceNames devices, name ∉ n.engine.allocatedIds
  cards : ∀ key ∈ deviceNames devices, ∀ card, n.engine.device? key = some card →
    k.engine.device? key = some (card.restored n.engine.catalog)

theorem Drops.of_same {m : Node} (h : m.Drops devices k) (hengine : m.engine = n.engine)
    (hinventory : m.inventory = n.inventory) : n.Drops devices k := by
  obtain ⟨hallocated, hunchanged, hcards⟩ := h
  rw [hengine] at hallocated hunchanged hcards
  rw [hinventory] at hunchanged
  exact ⟨hallocated, hunchanged, hcards⟩

theorem drops_after (h : n.engine.Sound)
    (hfit : n.engine.FitsThrough ((releaseOrder devices).map .release)) (host : Host) :
    n.Drops devices { n.after ((releaseOrder devices).map .release) with host } := by
  have hrest : ∀ id, id ∈ (n.after ((releaseOrder devices).map .release)).engine.allocatedIds ↔
      id ∈ n.engine.allocatedIds ∧ ∀ name ∈ deviceNames devices, ¬ SliceId.Covers name id := by
    intro id
    rw [after, h.mem_releaseAll hfit]
    simp only [mem_releaseOrder]
  have hsound := h.performAll hfit
  have hcards := h.sameCards_performAll (EngineCall.releases_isUse _) hfit
  refine ⟨hrest, ⟨?_, fun hnone => ?_⟩, fun key hkey card hcard => ?_⟩
  · rintro ⟨hsame, _⟩ name hname hheld
    have hkept := (hrest name).1 (hsame ▸ hheld)
    exact hkept.2 name hname (SliceId.covers_self name)
  · have hsame : n.after ((releaseOrder devices).map .release) = n :=
      after_of_none_allocated fun name hname => hnone name (mem_releaseOrder.1 hname)
    rw [hsame]
    exact ⟨rfl, rfl⟩
  · refine hsound.restored_of_none_allocated hcards hcard fun left hleft => ?_
    obtain ⟨hname, hs⟩ := hsound key left hleft
    refine Classical.not_not.1 fun hne => ?_
    have hheld := hs.deviceId_mem_allocatedIds hne
    have hkept := (hrest left.deviceId).1 (Engine.mem_allocatedIds.2 ⟨key, left, hleft, hheld⟩)
    exact hkept.2 key hkey (.inl hname)

theorem drops_unprepare (h : n.engine.Sound) (hread : n.host.readCheckpoint = .ok c)
    (hfind : c.find? uid = some devices) (hfit : n.Fits (.unprepare uid)) :
    n.Drops devices (n.unprepare uid).2 := by
  have hcall : NodeCall.unprepare uid ≠ .reconcile := NodeCall.noConfusion
  obtain ⟨host, hafter⟩ := n.perform_after hcall
  rw [engineCalls_unprepare hread hfind] at hafter
  rw [Fits, engineCalls_unprepare hread hfind] at hfit
  rw [show (n.unprepare uid).2 = _ from hafter]
  exact drops_after h hfit host

theorem records_unprepare_of_ne {other name : String} (h : n.engine.Sound) (hfit : n.Fits (.unprepare uid))
    (hne : other ≠ uid) : (n.unprepare uid).2.Records other name ↔ n.Records other name := by
  rcases unprepare_effect h hfit with ⟨hsame, _⟩ | ⟨c, devices, hr, _, _, hstored⟩
  · rw [hsame]
  · have hold : n.Records other name ↔ c.Records other name :=
      records_of_stored (Host.stored?_of_read hr)
    rcases hstored with ⟨_, _, _, hstored⟩ | hstored
    · rw [records_of_stored hstored, hold]
    · rw [records_of_stored hstored, hold, Checkpoint.records_erase, and_iff_right hne]

theorem granting_of_not_carved (hfit : n.Fits (.prepare claim)) (hread : n.host.readCheckpoint = .ok c)
    (hnone : c.find? claim.uid = none) (hcarved : (n.granting claim).2.carved = []) :
    (n.granting claim).2.engine = n.engine ∧ (n.granting claim).2.inventory = n.inventory := by
  rw [Fits, engineCalls_prepare hread hnone] at hfit
  have hkept : ((n.granting claim).2.carved ≠ []) ∨ (n.granting claim).2.engine = n.engine ∧
      (n.granting claim).2.inventory = n.inventory := by
    refine grantClaim_keeps (p := fun g => g.carved ≠ [] ∨ g.engine = n.engine ∧
      g.inventory = n.inventory) (fun configs g r _ hg => ?_) (Engine.fitsThrough_append.1 hfit).1
      (.inr ⟨rfl, rfl⟩)
    rcases g.take_cases configs r with ⟨ht, _⟩ | ⟨a, engine, _, ht⟩
    · rw [ht]
      exact hg
    · rw [ht]
      exact .inl (List.append_ne_nil_of_right_ne_nil _ (List.cons_ne_nil _ _))
  exact hkept.resolve_left (absurd hcarved)

theorem prepared_of_ok (hread : n.host.readCheckpoint = .ok c) (hnone : c.find? claim.uid = none)
    (hok : (n.prepare claim).1 = .ok devices) :
    (n.granting claim).1 = .ok devices ∧ (n.prepare claim).2.engine = (n.granting claim).2.engine ∧
      (n.prepare claim).2.inventory = (n.granting claim).2.inventory ∧
      (n.prepare claim).2.host.readCheckpoint = .ok (c.insert claim.uid devices) := by
  obtain ⟨hreadable, hwhole⟩ := faults_of_read hread
  rw [prepare_of_absent hread hnone] at hok ⊢
  rcases n.prepareNew_cases claim c with ⟨e, files, hfail⟩ | ⟨ds, files, hgrant, hnew⟩
  · rw [hfail] at hok
    cases hok
  · rw [hnew] at hok
    cases hok
    have hcalls : n.prepareCalls claim c =
        claimCalls n.cdi.driverName n.claims.sources claim ⟨n.engine, n.inventory, []⟩ := by
      rw [prepareCalls, rollbackCalls_of_ok (congrArg Prod.fst hnew), List.append_nil]
    have hleads := grantClaim_leads n.cdi.driverName (n.cdi.deviceIds claim.uid) n.claims.sources claim
      ⟨n.engine, n.inventory, []⟩
    rw [hnew, hcalls]
    exact ⟨hgrant, hleads.engine.symm, hleads.inventory.symm,
      readCheckpoint_of_stored hreadable hwhole (stored?_storing _)⟩

theorem Run.keeps_claim {p : Node} (hrun : n.Run (fun _ call => call ≠ .unprepare uid) p)
    (hk : n.host.Keeps uid devices) : p.host.Keeps uid devices := by
  induction hrun with
  | start => exact hk
  | disturb files faults _ ih => exact ih
  | call call _ _ hcall ih =>
    rw [perform_host]
    exact (keeps_effects hcall ih).last

/-- Whether a new claim is prepared with nothing carved for it, so that each of its devices is granted as
it was assigned. -/
structure Borrows (n : Node) (claim : ResourceClaim) (devices : List PreparedDevice) : Prop where
  absent : ∃ c, n.host.readCheckpoint = .ok c ∧ c.find? claim.uid = none
  granted : (n.prepare claim).1 = .ok devices
  carved : (n.granting claim).2.carved = []
  fits : n.Fits (.prepare claim)

namespace Borrows

variable (h : n.Borrows claim devices)

include h

theorem prepared : (n.prepare claim).2.engine = n.engine ∧ (n.prepare claim).2.inventory = n.inventory ∧
    ∃ c, n.host.readCheckpoint = .ok c ∧
      (n.prepare claim).2.host.readCheckpoint = .ok (c.insert claim.uid devices) := by
  obtain ⟨c, hread, hnone⟩ := h.absent
  obtain ⟨_, hengine, hinventory, hread'⟩ := prepared_of_ok hread hnone h.granted
  obtain ⟨hsame, hsame'⟩ := granting_of_not_carved h.fits hread hnone h.carved
  exact ⟨hengine.trans hsame, hinventory.trans hsame', c, hread, hread'⟩

theorem drops (hs : n.engine.Sound) (hfit : (n.prepare claim).2.Fits (.unprepare claim.uid)) :
    n.Drops devices ((n.prepare claim).2.unprepare claim.uid).2 := by
  obtain ⟨hengine, hinventory, c, _, hread'⟩ := h.prepared
  have hfind : (c.insert claim.uid devices).find? claim.uid = some devices :=
    (Dict.find?_insert ..).trans (if_pos rfl)
  have hsound : (n.prepare claim).2.engine.Sound := hengine ▸ hs
  exact (drops_unprepare hsound hread' hfind hfit).of_same hengine hinventory

theorem records_of_ne (hs : n.engine.Sound) (hfit : (n.prepare claim).2.Fits (.unprepare claim.uid))
    {other name : String} (hne : other ≠ claim.uid) :
    ((n.prepare claim).2.unprepare claim.uid).2.Records other name ↔ n.Records other name := by
  obtain ⟨hengine, _, c, hread, hread'⟩ := h.prepared
  have hsound : (n.prepare claim).2.engine.Sound := hengine ▸ hs
  rw [records_unprepare_of_ne hsound hfit hne, records_of_stored (Host.stored?_of_read hread'),
    records_of_stored (Host.stored?_of_read hread), Checkpoint.records_insert]
  constructor
  · rintro (⟨hsame, _⟩ | ⟨_, hrec⟩)
    · exact absurd hsame hne
    · exact hrec
  · exact fun hrec => .inr ⟨hne, hrec⟩

end Borrows

structure Unsaved (n : Node) (uid : String) (devices : List PreparedDevice) : Prop where
  recorded : ∃ c, n.host.readCheckpoint = .ok c ∧ c.find? uid = some devices
  fails : ∃ e, (n.unprepare uid).1 = .error (.store e)
  fits : n.Fits (.unprepare uid)

theorem forget_of_store_error {e : StoreError} (hfail : (n.forget c uid).1 = .error (.store e)) :
    ∃ text, n.forget c uid = (.error (.store (.writeFailed text)), n) := by
  cases hw : n.host.faults.writeCheckpoint with
  | some text => exact ⟨text, forget_of_fault hw c uid⟩
  | none =>
    obtain ⟨files, hforget⟩ := forget_of_no_fault hw c uid
    rw [hforget] at hfail
    cases hremove : ((n.storing c).host.removeClaimSpec n.cdi uid).1 with
    | ok u =>
      rw [hremove] at hfail
      cases hfail
    | error err =>
      rw [hremove] at hfail
      cases hfail

theorem Unsaved.host (h : n.Unsaved uid devices) : (n.unprepare uid).2.host = n.host := by
  obtain ⟨c, hread, hfind⟩ := h.recorded
  obtain ⟨e, hfail⟩ := h.fails
  have hforget := unprepare_of_recorded hread hfind
  rw [hforget] at hfail ⊢
  obtain ⟨text, hkept⟩ := forget_of_store_error hfail
  rw [hkept]
  rfl

theorem Unsaved.drops (h : n.Unsaved uid devices) (hs : n.engine.Sound) :
    n.Drops devices (n.unprepare uid).2 := by
  obtain ⟨c, hread, hfind⟩ := h.recorded
  exact drops_unprepare hs hread hfind h.fits

theorem Unsaved.drops_again {p : Node} (h : n.Unsaved uid devices) (hn : Holds n₀ n)
    (hlater : (n.unprepare uid).2.Run (fun _ call => call ≠ .unprepare uid) p)
    (hfit : p.Fits (.unprepare uid)) (hread : p.host.readCheckpoint = .ok c) :
    c.find? uid = some devices ∧ p.Drops devices (p.unprepare uid).2 := by
  obtain ⟨c₀, hread₀, hfind₀⟩ := h.recorded
  have hkeeps : (n.unprepare uid).2.host.Keeps uid devices := by
    rw [h.host]
    exact ⟨c₀, Host.stored?_of_read hread₀, hfind₀⟩
  obtain ⟨c', hstored, hfind⟩ := hlater.keeps_claim hkeeps
  cases (Host.stored?_of_read hread).symm.trans hstored
  have hm : Holds n₀ (n.unprepare uid).2 := hn.perform h.fits
  have hp := hlater.holds ⟨hm.sound, Engine.SameCards.refl _, hm.mirrors, rfl, rfl⟩
  exact ⟨hfind, drops_unprepare hp.sound hread hfind hfit⟩

theorem unsaved_of_write_fault {text : String} (hread : n.host.readCheckpoint = .ok c)
    (hfind : c.find? uid = some devices) (hw : n.host.faults.writeCheckpoint = some text)
    (hfit : n.engine.FitsThrough ((releaseOrder devices).map .release)) :
    n.Unsaved uid devices := by
  have hw' : (n.after ((releaseOrder devices).map .release)).host.faults.writeCheckpoint =
      some text := hw
  refine ⟨⟨c, hread, hfind⟩, ⟨.writeFailed text, ?_⟩, ?_⟩
  · rw [unprepare_of_recorded hread hfind, forget_of_fault hw']
  · rw [Fits, engineCalls_unprepare hread hfind]
    exact hfit

theorem unprepare_prepared (claim : ResourceClaim) (c : Checkpoint)
    (hspec : (n.host.writeClaimSpec n.cdi claim.uid devices).1 = .ok ()) (hfaults : n.host.faults = .none) :
    ((n.prepared claim c devices).unprepare claim.uid).1 = .ok () := by
  have hfaults' : (n.prepared claim c devices).host.faults = .none := hfaults
  have hread : (n.prepared claim c devices).host.readCheckpoint = .ok (c.insert claim.uid devices) :=
    (Host.readCheckpoint_of_no_faults hfaults').trans (CheckpointStore.get_put ..)
  refine unprepare_ok hread (congrArg Faults.writeCheckpoint hfaults') ?_
  exact Host.removeClaimSpec_ok_of_read (congrArg Faults.removeClaimSpec hfaults')
    (Host.read_of_writeClaimSpec hspec)

end Node

section Names

variable {s : NodeSetup} {host : Host} {n : Node} {devices : List PreparedDevice}

/-- A claim for which nothing is carved changes neither the cards nor the inventory when it is prepared.
But to unprepare it releases its devices by their names, whichever claim the slices are on record for:
they are what they were before only if none of the devices was allocated. -/
theorem NodeSetup.Reaches.unprepare_borrowed {claim : ResourceClaim} (hreach : s.Reaches host n)
    (h : n.Borrows claim devices) (hfit : (n.prepare claim).2.Fits (.unprepare claim.uid)) :
    let m := (n.prepare claim).2
    let k := (m.unprepare claim.uid).2
    (m.engine = n.engine ∧ m.inventory = n.inventory) ∧ n.Drops devices k ∧
      ∀ uid name, uid ≠ claim.uid → (k.Records uid name ↔ n.Records uid name) := by
  obtain ⟨n₀, hn, _⟩ := hreach.holds
  obtain ⟨hengine, hinventory, _⟩ := h.prepared
  exact ⟨⟨hengine, hinventory⟩, h.drops hn.sound hfit, fun _ _ hne => h.records_of_ne hn.sound hfit hne⟩

section Sample

def sampleBorrowedDevices : List PreparedDevice :=
  ((sampleCarved.granting (sampleClaim "c-2" "npu-0-0")).1.toOption).getD []

def sampleBorrowed : Node :=
  sampleCarved.prepared (sampleClaim "c-2" "npu-0-0") sampleRecord sampleBorrowedDevices

theorem sampleCarved_writes (devices : List PreparedDevice) :
    (sampleCarved.host.writeClaimSpec sampleCarved.cdi "c-2" devices).1 = .ok () :=
  Node.writeClaimSpec_ok_of_prepare sampleCarved_read Node.sampleRecord_rest
    (congrArg Prod.fst Node.sampleCarved_prepare) devices

theorem sampleCarved_prepare_borrowed : sampleCarved.prepare (sampleClaim "c-2" "npu-0-0") =
    (.ok sampleBorrowedDevices, sampleBorrowed) :=
  Node.prepare_ok sampleCarved_read Node.sampleRecord_rest (ok_of_isOk (by decide +kernel) [])
    (sampleCarved_writes _) rfl

theorem sampleBorrowed_read : sampleBorrowed.host.readCheckpoint =
    .ok (sampleRecord.insert "c-2" sampleBorrowedDevices) :=
  (Host.readCheckpoint_of_no_faults rfl).trans (CheckpointStore.get_put ..)

theorem sampleBorrowed_find? : (sampleRecord.insert "c-2" sampleBorrowedDevices).find? "c-2" =
    some sampleBorrowedDevices := (Dict.find?_insert ..).trans (if_pos rfl)

theorem sampleBorrowed_unprepare : (sampleBorrowed.unprepare "c-2").1 = .ok () :=
  Node.unprepare_prepared (sampleClaim "c-2" "npu-0-0") sampleRecord
    (sampleCarved_writes sampleBorrowedDevices) rfl

theorem sampleCarved_borrows :
    sampleCarved.Borrows (sampleClaim "c-2" "npu-0-0") sampleBorrowedDevices ∧
    (sampleCarved.prepare (sampleClaim "c-2" "npu-0-0")).2.Fits (.unprepare "c-2") ∧
    deviceNames sampleBorrowedDevices = ["npu-0-0"] := by
  have hok := congrArg Prod.fst sampleCarved_prepare_borrowed
  have hfit := Node.fits_prepare sampleCarved_read Node.sampleRecord_rest hok (by decide +kernel)
  refine ⟨⟨⟨_, sampleCarved_read, Node.sampleRecord_rest⟩, hok, by decide +kernel, hfit⟩, ?_,
    by decide +kernel⟩
  rw [sampleCarved_prepare_borrowed, Node.Fits,
    Node.engineCalls_unprepare sampleBorrowed_read sampleBorrowed_find?]
  decide +kernel

theorem NodeSetup.Reaches.unprepare_borrowed_carved :
    sampleCarved.Borrows (sampleClaim "c-2" "npu-0-0") sampleBorrowedDevices ∧
      deviceNames sampleBorrowedDevices = ["npu-0-0"] ∧ sampleCarved.Drops sampleBorrowedDevices
        ((sampleCarved.prepare (sampleClaim "c-2" "npu-0-0")).2.unprepare "c-2").2 := by
  obtain ⟨hborrows, hfit, hnames⟩ := sampleCarved_borrows
  exact ⟨hborrows, hnames,
    (NodeSetup.Reaches.unprepare_borrowed sampleCarved_reached hborrows hfit).2.1⟩

/-- The slice of a claim goes when another claim is unprepared to which it was granted as well. -/
theorem not_kept_of_borrowed : ¬ ∀ (s : NodeSetup) (host : Host) (n : Node) (uid name : String)
    (claim : ResourceClaim) (devices : List PreparedDevice), s.Reaches host n → uid ≠ claim.uid →
    n.Records uid name → name ∈ n.engine.allocatedIds → n.Borrows claim devices →
    name ∈ deviceNames devices → (n.prepare claim).2.Fits (.unprepare claim.uid) →
    ((n.prepare claim).2.unprepare claim.uid).1 = .ok () →
    ((n.prepare claim).2.unprepare claim.uid).2.engine = n.engine ∧
      ((n.prepare claim).2.unprepare claim.uid).2.inventory = n.inventory := by
  intro h
  obtain ⟨hborrows, hfit, hnames⟩ := sampleCarved_borrows
  obtain ⟨hnames', hallocated, _⟩ := sampleCarved_holds
  have hname : "npu-0-0" ∈ deviceNames sampleBorrowedDevices := hnames ▸ List.mem_singleton_self _
  have hheld : "npu-0-0" ∈ sampleCarved.engine.allocatedIds := hallocated ▸ List.mem_singleton_self _
  have hrecorded : sampleCarved.Records "c-1" "npu-0-0" :=
    (Node.records_of_stored (Host.stored?_of_read sampleCarved_read)).2
      ((Checkpoint.records_of_find? sampleRecord_find?).2 (hnames' ▸ List.mem_singleton_self _))
  have hunprepare : ((sampleCarved.prepare (sampleClaim "c-2" "npu-0-0")).2.unprepare "c-2").1 =
      .ok () := by
    rw [sampleCarved_prepare_borrowed]
    exact sampleBorrowed_unprepare
  have hkept := h sampleSetup sampleHost sampleCarved "c-1" "npu-0-0" _ _ sampleCarved_reached
    (by decide) hrecorded hheld hborrows hname hfit hunprepare
  obtain ⟨n₀, hn, _⟩ := sampleCarved_reached.holds
  exact (hborrows.drops hn.sound hfit).unchanged.1 hkept "npu-0-0" hname hheld

end Sample

/-- A claim that cannot be unprepared because the record cannot be written keeps its record and its
specification, but its devices are released by their names: the cards and the inventory are what they
were before only if none of them was allocated. Whatever becomes of other claims since, the claim is still
on record, and to unprepare it again releases the same names, whichever claim has their slices by then. -/
theorem NodeSetup.Reaches.unprepare_unsaved {uid : String} (hreach : s.Reaches host n)
    (h : n.Unsaved uid devices) :
    let m := (n.unprepare uid).2
    m.host = n.host ∧ n.Drops devices m ∧
      ∀ p c, m.Run (fun _ call => call ≠ .unprepare uid) p → p.Fits (.unprepare uid) →
        p.host.readCheckpoint = .ok c →
        c.find? uid = some devices ∧ p.Drops devices (p.unprepare uid).2 := by
  obtain ⟨n₀, hn, _⟩ := hreach.holds
  exact ⟨h.host, h.drops hn.sound, fun _ _ hlater hfit hread => h.drops_again hn hlater hfit hread⟩

section Sample

theorem sampleFaulty_unsaved : sampleFaulty.Unsaved "c-1" sampleDevices :=
  Node.unsaved_of_write_fault sampleFaulty_read sampleRecord_find? rfl sampleCarved_holds.2.2

theorem NodeSetup.Reaches.unprepare_unsaved_carved :
    sampleFaulty.Unsaved "c-1" sampleDevices ∧ deviceNames sampleDevices = ["npu-0-0"] ∧
      sampleFaulty.engine.allocatedIds = ["npu-0-0"] ∧
      (sampleFaulty.unprepare "c-1").2.host = sampleFaulty.host ∧
      sampleFaulty.Drops sampleDevices (sampleFaulty.unprepare "c-1").2 :=
  have h := NodeSetup.Reaches.unprepare_unsaved sampleFaulty_reached sampleFaulty_unsaved
  ⟨sampleFaulty_unsaved, sampleCarved_holds.1, sampleCarved_holds.2.1, h.1, h.2.1⟩

def sampleFreed : Node :=
  { sampleFaulty.after [.release "npu-0-0"] with host := { sampleFaulty.host with faults := .none } }

def sampleReusedDevices : List PreparedDevice :=
  ((sampleFreed.granting (sampleClaim "c-2" "npu-0-0")).1.toOption).getD []

def sampleReused : Node :=
  sampleFreed.prepared (sampleClaim "c-2" "npu-0-0") sampleRecord sampleReusedDevices

theorem sampleFreed_read : sampleFreed.host.readCheckpoint = .ok sampleRecord :=
  (Host.readCheckpoint_of_no_faults rfl).trans (CheckpointStore.get_put ..)

theorem sampleFreed_prepare : sampleFreed.prepare (sampleClaim "c-2" "npu-0-0") =
    (.ok sampleReusedDevices, sampleReused) :=
  Node.prepare_ok sampleFreed_read Node.sampleRecord_rest (ok_of_isOk (by decide +kernel) [])
    (ok_of_toOption (by decide +kernel)) rfl

theorem sampleFaulty_unprepare :
    (sampleFaulty.unprepare "c-1").2 = sampleFaulty.after [.release "npu-0-0"] := by
  have horder : (Node.releaseOrder sampleDevices).map EngineCall.release = [.release "npu-0-0"] := by
    rw [Node.releaseOrder_eq, sampleCarved_holds.1]
    rfl
  have hfault : (sampleFaulty.after [.release "npu-0-0"]).host.faults.writeCheckpoint =
      some "disk full" := rfl
  rw [Node.unprepare_of_recorded sampleFaulty_read sampleRecord_find?, horder,
    Node.forget_of_fault hfault]

theorem sampleReused_run : (sampleFaulty.unprepare "c-1").2.Run
    (fun _ call => call ≠ .unprepare "c-1") sampleReused := by
  rw [sampleFaulty_unprepare]
  have hfreed : (sampleFaulty.after [.release "npu-0-0"]).Run (fun _ call => call ≠ .unprepare "c-1")
      sampleFreed := .disturb sampleFaulty.host.files .none .start
  have hfit : sampleFreed.Fits (.prepare (sampleClaim "c-2" "npu-0-0")) :=
    Node.fits_prepare sampleFreed_read Node.sampleRecord_rest (congrArg Prod.fst sampleFreed_prepare)
      (by decide +kernel)
  have hrun := hfreed.call _ hfit NodeCall.noConfusion
  rwa [Node.perform, sampleFreed_prepare] at hrun

theorem sampleReused_read : sampleReused.host.readCheckpoint =
    .ok (sampleRecord.insert "c-2" sampleReusedDevices) :=
  (Host.readCheckpoint_of_no_faults rfl).trans (CheckpointStore.get_put ..)

theorem sampleReused_find? : (sampleRecord.insert "c-2" sampleReusedDevices).find? "c-1" =
    some sampleDevices :=
  (Dict.find?_insert ..).trans ((if_neg (by decide)).trans sampleRecord_find?)

/-- The claim loses its slice, and another that gets it in between loses it when the first is unprepared
again. -/
theorem not_intact_of_unsaved :
    (¬ ∀ (s : NodeSetup) (host : Host) (n : Node) (uid : String) (devices : List PreparedDevice),
      s.Reaches host n → n.Unsaved uid devices →
        (n.unprepare uid).2.engine = n.engine ∧ (n.unprepare uid).2.inventory = n.inventory) ∧
    ¬ ∀ (s : NodeSetup) (host : Host) (n p : Node) (uid other name : String)
      (devices : List PreparedDevice), s.Reaches host n → n.Unsaved uid devices →
        (n.unprepare uid).2.Run (fun _ call => call ≠ .unprepare uid) p → p.Fits (.unprepare uid) →
        name ∉ (n.unprepare uid).2.engine.allocatedIds → other ≠ uid → p.Records other name →
        name ∈ p.engine.allocatedIds → name ∈ (p.unprepare uid).2.engine.allocatedIds := by
  obtain ⟨n₀, hn, _⟩ := sampleFaulty_reached.holds
  obtain ⟨hnames, hallocated, _⟩ := sampleCarved_holds
  have hname : "npu-0-0" ∈ deviceNames sampleDevices := hnames ▸ List.mem_singleton_self _
  have hheld : "npu-0-0" ∈ sampleFaulty.engine.allocatedIds := hallocated ▸ List.mem_singleton_self _
  have hdrops := sampleFaulty_unsaved.drops hn.sound
  have hfit : sampleReused.Fits (.unprepare "c-1") := by
    rw [Node.Fits, Node.engineCalls_unprepare sampleReused_read sampleReused_find?]
    decide +kernel
  have hdrops' := (sampleFaulty_unsaved.drops_again hn sampleReused_run hfit sampleReused_read).2
  refine ⟨fun h => ?_, fun h => ?_⟩
  · have hkept := h sampleSetup sampleHost _ _ _ sampleFaulty_reached sampleFaulty_unsaved
    exact hdrops.unchanged.1 hkept "npu-0-0" hname hheld
  · have hrecorded : sampleReused.Records "c-2" "npu-0-0" :=
      (Node.records_of_stored (Host.stored?_of_read sampleReused_read)).2
        (Checkpoint.records_insert.2 (.inl ⟨rfl, by decide +kernel⟩))
    have hfree : "npu-0-0" ∉ (sampleFaulty.unprepare "c-1").2.engine.allocatedIds := fun hheld =>
      ((hdrops.allocated _).1 hheld).2 _ hname (SliceId.covers_self _)
    have hkept := h sampleSetup sampleHost _ _ _ "c-2" "npu-0-0" _ sampleFaulty_reached
      sampleFaulty_unsaved sampleReused_run hfit hfree (by decide) hrecorded (by decide +kernel)
    exact ((hdrops'.allocated _).1 hkept).2 _ hname (SliceId.covers_self _)

end Sample

end Names

end SliceAgent
