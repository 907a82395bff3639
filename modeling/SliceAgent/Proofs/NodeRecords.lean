import SliceAgent.Node.Batch
import SliceAgent.Proofs.GrantedSlices
import SliceAgent.Proofs.NodeRun

/-!
The checkpoint and the engine of a node. No slice is allocated that is not on record
(`NodeSetup.Reaches.allocated_on_record`), so that to unprepare the claims on record frees every card.
-/
namespace SliceAgent

def Checkpoint.Records (c : Checkpoint) (uid name : String) : Prop :=
  ∃ devices, c.find? uid = some devices ∧ name ∈ deviceNames devices

namespace Checkpoint

variable {c : Checkpoint} {uid other name : String} {devices : List PreparedDevice}

theorem records_insert : (c.insert uid devices).Records other name ↔
    (other = uid ∧ name ∈ deviceNames devices) ∨ (other ≠ uid ∧ c.Records other name) := by
  have hfind : (c.insert uid devices).find? other =
      if other = uid then some devices else c.find? other := Dict.find?_insert ..
  rw [Records, hfind]
  by_cases h : other = uid
  · simp [h]
  · simp [h, Records]

theorem records_erase : (c.erase uid).Records other name ↔ other ≠ uid ∧ c.Records other name := by
  have hfind : (c.erase uid).find? other = if other = uid then none else c.find? other :=
    Dict.find?_erase ..
  rw [Records, hfind]
  by_cases h : other = uid
  · simp [h]
  · simp [h, Records]

theorem records_of_find? (h : c.find? uid = some devices) :
    c.Records uid name ↔ name ∈ deviceNames devices := by
  constructor
  · rintro ⟨ds, hds, hname⟩
    cases h.symm.trans hds
    exact hname
  · exact fun hname => ⟨devices, h, hname⟩

theorem not_records_of_none (h : c.find? uid = none) : ¬ c.Records uid name := by
  rintro ⟨_, hds, _⟩
  cases h.symm.trans hds

end Checkpoint

namespace Node

variable {n n₀ : Node} {call : NodeCall} {claim : ResourceClaim} {uid name id : String}

def Records (n : Node) (uid name : String) : Prop :=
  ∃ c, n.host.stored? = some c ∧ c.Records uid name

theorem records_of_stored {c : Checkpoint} (h : n.host.stored? = some c) :
    n.Records uid name ↔ c.Records uid name := by
  constructor
  · rintro ⟨c', hc', hr⟩
    cases h.symm.trans hc'
    exact hr
  · exact fun hr => ⟨c, h, hr⟩

theorem releaseOrder_eq (devices : List PreparedDevice) :
    releaseOrder devices = (deviceNames devices).reverse := List.map_reverse ..

theorem mem_releaseOrder {devices : List PreparedDevice} :
    name ∈ releaseOrder devices ↔ name ∈ deviceNames devices := by
  rw [releaseOrder_eq, List.mem_reverse]

theorem prepare_effect (h : n.engine.Sound) (hmode : n.claims.persistence = .compensating)
    (hfit : n.Fits (.prepare claim)) :
    ((∀ id, id ∈ (n.prepare claim).2.engine.allocatedIds ↔ id ∈ n.engine.allocatedIds) ∧
      (n.prepare claim).2.host.stored? = n.host.stored?) ∨
    ∃ c devices, n.host.readCheckpoint = .ok c ∧ c.find? claim.uid = none ∧
      (n.granting claim).1 = .ok devices ∧ (n.prepare claim).1 = .ok devices ∧
      (∀ id, id ∈ (n.prepare claim).2.engine.allocatedIds ↔
        id ∈ n.engine.allocatedIds ∨ id ∈ (n.granting claim).2.carved) ∧
      (∀ id ∈ (n.granting claim).2.carved, id ∉ n.engine.allocatedIds) ∧
      (n.prepare claim).2.host.stored? = some (c.insert claim.uid devices) := by
  rcases n.prepare_cases claim with ⟨e, _, hp⟩ | ⟨c, devices, _, _, hp⟩ | ⟨c, hr, hf, hp⟩
  · rw [hp]
    exact .inl ⟨fun _ => Iff.rfl, rfl⟩
  · rw [hp]
    exact .inl ⟨fun _ => Iff.rfl, rfl⟩
  · rw [Fits, engineCalls_prepare hr hf] at hfit
    rcases n.prepareNew_cases claim c with
      ⟨e, files, hnew⟩ | ⟨devices, files, hgrant, hnew⟩
    · have hback := mem_allocatedIds_of_error h hmode hfit
        (congrArg Prod.fst hnew)
      rw [hp, hnew]
      exact .inl ⟨hback, stored?_withFiles files⟩
    · have hadded := mem_allocatedIds_of_ok h hfit (congrArg Prod.fst hnew)
      have hext := extends_granting h hfit
      rw [hp, hnew]
      refine .inr ⟨c, devices, hr, hf, hgrant, rfl, hadded, fun id hid ho => ?_, stored?_storing _⟩
      exact hext.apart id hid id ho (SliceId.covers_self id)

theorem unprepare_effect (h : n.engine.Sound) (hfit : n.Fits (.unprepare uid)) :
    ((n.unprepare uid).2 = n ∧
      ((n.unprepare uid).1 = .ok () → ∀ name, ¬ n.Records uid name)) ∨
    ∃ c devices, n.host.readCheckpoint = .ok c ∧ c.find? uid = some devices ∧
      (∀ id, id ∈ (n.unprepare uid).2.engine.allocatedIds ↔ id ∈ n.engine.allocatedIds ∧
        ∀ name ∈ deviceNames devices, ¬ SliceId.Covers name id) ∧
      ((∃ text, n.host.faults.writeCheckpoint = some text ∧
          (n.unprepare uid).1 = .error (.store (.writeFailed text)) ∧
          (n.unprepare uid).2.host.stored? = some c) ∨
        (n.unprepare uid).2.host.stored? = some (c.erase uid)) := by
  rcases n.unprepare_cases uid with ⟨e, _, hp⟩ | ⟨c, hr, hf, hp⟩ | ⟨c, devices, hr, hf, hp⟩
  · rw [hp]
    refine .inl ⟨rfl, fun hok => ?_⟩
    cases hok
  · rw [hp]
    refine .inl ⟨rfl, fun _ name hrec => ?_⟩
    exact Checkpoint.not_records_of_none hf
      ((records_of_stored (Host.stored?_of_read hr)).1 hrec)
  · rw [Fits, engineCalls_unprepare hr hf] at hfit
    have hrest : ∀ id, id ∈ (n.engine.performAll ((releaseOrder devices).map .release)).allocatedIds ↔
        id ∈ n.engine.allocatedIds ∧ ∀ name ∈ deviceNames devices, ¬ SliceId.Covers name id := by
      intro id
      rw [h.mem_releaseAll hfit]
      simp only [mem_releaseOrder]
    have hkept := Host.stored?_of_read hr
    cases hw : n.host.faults.writeCheckpoint with
    | some text =>
      have hforget := forget_of_fault (n := n.after ((releaseOrder devices).map .release)) hw
        (c.erase uid) uid
      rw [hp, hforget]
      exact .inr ⟨c, devices, hr, hf, hrest, .inl ⟨text, rfl, rfl, hkept⟩⟩
    | none =>
      obtain ⟨files, hforget⟩ := forget_of_no_fault
        (n := n.after ((releaseOrder devices).map .release)) hw (c.erase uid) uid
      rw [hp, hforget]
      exact .inr ⟨c, devices, hr, hf, hrest, .inr (stored?_storing _)⟩

section Accounted

/-- Every allocated slice is on record for some claim. -/
def Accounted (n : Node) : Prop := ∀ id ∈ n.engine.allocatedIds, ∃ uid, n.Records uid id

theorem Accounted.of_same {m : Node} (h : n.Accounted)
    (hids : ∀ id, id ∈ m.engine.allocatedIds ↔ id ∈ n.engine.allocatedIds)
    (hstored : m.host.stored? = n.host.stored?) : m.Accounted := by
  intro id hid
  obtain ⟨uid, c, hc, hr⟩ := h id ((hids id).1 hid)
  exact ⟨uid, c, hstored.trans hc, hr⟩

theorem Accounted.prepare (h : n.Accounted) (hs : n.engine.Sound)
    (hmode : n.claims.persistence = .compensating) (hfit : n.Fits (.prepare claim)) :
    (n.prepare claim).2.Accounted := by
  rcases prepare_effect hs hmode hfit with ⟨hids, hstored⟩ |
    ⟨c, devices, hr, hf, hgrant, _, hids, _, hstored⟩
  · exact h.of_same hids hstored
  · intro id hid
    rcases (hids id).1 hid with hold | hnew
    · obtain ⟨uid, hrec⟩ := h id hold
      have hrec := (records_of_stored (Host.stored?_of_read hr)).1 hrec
      refine ⟨uid, (records_of_stored hstored).2 (Checkpoint.records_insert.2 (.inr ⟨?_, hrec⟩))⟩
      rintro rfl
      exact Checkpoint.not_records_of_none hf hrec
    · refine ⟨claim.uid, (records_of_stored hstored).2 (Checkpoint.records_insert.2 (.inl ⟨rfl, ?_⟩))⟩
      exact carved_subset hgrant hnew

theorem Accounted.unprepare (h : n.Accounted) (hs : n.engine.Sound)
    (hfit : n.Fits (.unprepare uid)) : (n.unprepare uid).2.Accounted := by
  rcases unprepare_effect hs hfit with ⟨hsame, _⟩ | ⟨c, devices, hr, hf, hids, hstored⟩
  · rw [hsame]
    exact h
  · intro id hid
    obtain ⟨hold, hcov⟩ := (hids id).1 hid
    obtain ⟨other, hrec⟩ := h id hold
    have hrec := (records_of_stored (Host.stored?_of_read hr)).1 hrec
    rcases hstored with ⟨_, _, _, hstored⟩ | hstored
    · exact ⟨other, (records_of_stored hstored).2 hrec⟩
    · refine ⟨other, (records_of_stored hstored).2 (Checkpoint.records_erase.2 ⟨?_, hrec⟩)⟩
      rintro rfl
      exact hcov id ((Checkpoint.records_of_find? hf).1 hrec) (SliceId.covers_self id)

theorem Accounted.perform (h : n.Accounted) (hs : n.engine.Sound)
    (hmode : n.claims.persistence = .compensating) (hfit : n.Fits call) :
    (n.perform call).Accounted := by
  cases call with
  | prepare claim => exact h.prepare hs hmode hfit
  | unprepare uid => exact h.unprepare hs hfit
  | reconcile => exact h

theorem Run.accounted {allowed : Node → NodeCall → Prop} (hrun : n₀.Run allowed n)
    (h₀ : Holds n₀ n₀) (h : n₀.Accounted) (hmode : n₀.claims.persistence = .compensating) :
    n.Accounted := by
  induction hrun with
  | start => exact h
  | disturb files faults _ ih => exact ih
  | call call hrun hfit _ ih =>
    have hn := hrun.holds h₀
    exact ih.perform hn.sound (hn.claims ▸ hmode) hfit

end Accounted

def performAll (n : Node) (calls : List NodeCall) : Node := calls.foldl perform n

def FitsThrough : Node → List NodeCall → Prop
  | _, [] => True
  | n, call :: calls => n.Fits call ∧ FitsThrough (n.perform call) calls

theorem Run.performAll (hrun : n₀.Run anyCall n) {calls : List NodeCall}
    (hfit : n.FitsThrough calls) : n₀.Run anyCall (n.performAll calls) := by
  induction calls generalizing n with
  | nil => exact hrun
  | cons call calls ih => exact ih (hrun.call call hfit.1 trivial) hfit.2

theorem unprepareAll_snd (uids : List String) :
    (n.unprepareAll uids).2 = n.performAll (uids.map .unprepare) := by
  rw [Node.performAll, List.foldl_map]
  exact (List.foldl_hom Prod.snd fun _ _ => rfl).symm

section Drain

variable {c : Checkpoint}

/-- The checkpoint can be read, as what it is, and written. -/
structure Keeps (n : Node) (c : Checkpoint) : Prop where
  read : n.host.readCheckpoint = .ok c
  write : n.host.faults.writeCheckpoint = none

theorem readCheckpoint_of_stored {h : Host} (hr : h.faults.readCheckpoint = none)
    (hc : h.faults.corruptCheckpoint = false) (hs : h.stored? = some c) :
    h.readCheckpoint = .ok c :=
  Host.readCheckpoint_ok_iff.2 ⟨hr, hc, hs⟩

theorem faults_of_read {h : Host} (hr : h.readCheckpoint = .ok c) :
    h.faults.readCheckpoint = none ∧ h.faults.corruptCheckpoint = false :=
  have hread := Host.readCheckpoint_ok_iff.1 hr
  ⟨hread.1, hread.2.1⟩

theorem Keeps.unprepare (h : n.Keeps c) (uid : String) : (n.unprepare uid).2.Keeps (c.erase uid) := by
  rcases n.unprepare_cases uid with ⟨e, hr, _⟩ | ⟨c', hr, hf, hp⟩ | ⟨c', devices, hr, hf, hp⟩
  · cases hr.symm.trans h.read
  · cases hr.symm.trans h.read
    have hsame : c.erase uid = c := by
      have hclaims : c.claims.erase uid = c.claims := by
        refine Dict.ext_find? fun k => ?_
        rw [Dict.find?_erase]
        split
        · rename_i hk
          rw [hk]
          exact hf.symm
        · rfl
      rw [Checkpoint.erase, hclaims]
    rw [hp, hsame]
    exact h
  · cases hr.symm.trans h.read
    obtain ⟨files, hforget⟩ := forget_of_no_fault
      (n := n.after ((releaseOrder devices).map .release)) h.write (c.erase uid) uid
    obtain ⟨hread, hcorrupt⟩ := faults_of_read h.read
    rw [hp, hforget]
    exact ⟨readCheckpoint_of_stored hread hcorrupt (stored?_storing _), h.write⟩

theorem Keeps.unprepareAll (h : n.Keeps c) (uids : List String) :
    (n.performAll (uids.map .unprepare)).Keeps (uids.foldl Checkpoint.erase c) := by
  induction uids generalizing n c with
  | nil => exact h
  | cons uid uids ih => exact ih (h.unprepare uid)

theorem find?_foldl_erase (uids : List String) (uid : String) :
    (uids.foldl Checkpoint.erase c).find? uid = if uid ∈ uids then none else c.find? uid := by
  induction uids generalizing c with
  | nil => rfl
  | cons u uids ih =>
    have herase : (c.erase u).find? uid = if uid = u then none else c.find? uid :=
      Dict.find?_erase ..
    rw [List.foldl_cons, ih, herase]
    by_cases hmem : uid ∈ uids <;> by_cases hu : uid = u <;> simp [hmem, hu]

theorem claims_foldl_erase {uids : List String}
    (hall : ∀ uid devices, c.find? uid = some devices → uid ∈ uids) :
    (uids.foldl Checkpoint.erase c).claims = Dict.empty := by
  refine Dict.ext_find? fun uid => ?_
  show (uids.foldl Checkpoint.erase c).find? uid = none
  rw [find?_foldl_erase]
  split
  · rfl
  · rename_i hmem
    cases hf : c.find? uid with
    | none => rfl
    | some devices => exact absurd (hall uid devices hf) hmem

end Drain

end Node

open Node in
/-- In compensating mode, whatever fails, and whenever it is restarted, a node has no slice allocated that
is not on record. So if the claims on record are unprepared in any order, and the checkpoint can be read
and written, none is left, and the cards and the inventory are as discovery found them. -/
theorem NodeSetup.Reaches.allocated_on_record {s : NodeSetup} {host : Host} {n : Node}
    (hreach : s.Reaches host n) (hmode : s.claims.persistence = .compensating) :
    (∀ id ∈ n.engine.allocatedIds, ∃ uid, n.Records uid id) ∧
    ∀ c uids, n.host.readCheckpoint = .ok c → n.host.faults.writeCheckpoint = none →
      (∀ uid devices, c.find? uid = some devices → uid ∈ uids) →
      n.FitsThrough (uids.map .unprepare) →
      let m := (n.unprepareAll uids).2
      m.preparedClaims = .ok Dict.empty ∧
      (∀ key card, m.engine.device? key = some card →
        card = Card.new key card.logicalIndex card.model card.capacity s.catalog) ∧
      discover s.provider (.new s.catalog s.eligibility) s.cdi.nodeName =
        .ok (m.inventory, m.engine) := by
  obtain ⟨host', n₀, hstart, hrun⟩ := hreach.run
  obtain ⟨h₀, hfree, hname, hcatalog, hclaims⟩ := hstart.holds
  have hempty : n₀.Accounted := by
    intro id hid
    rw [hfree.allocatedIds_eq] at hid
    cases hid
  refine ⟨hrun.accounted h₀ hempty (hclaims ▸ hmode), fun c uids hread hwrite hall hfit => ?_⟩
  have hrun' := hrun.performAll hfit
  have hkeeps := Keeps.unprepareAll ⟨hread, hwrite⟩ uids
  have hm := hrun'.holds h₀
  have hnone : (n.performAll (uids.map .unprepare)).engine.allocatedIds = [] := by
    refine List.eq_nil_iff_forall_not_mem.2 fun id hid => ?_
    obtain ⟨uid, hrec⟩ := hrun'.accounted h₀ hempty (hclaims ▸ hmode) id hid
    obtain ⟨devices, hfind, _⟩ := (records_of_stored (Host.stored?_of_read hkeeps.read)).1 hrec
    rw [Checkpoint.find?, claims_foldl_erase hall] at hfind
    cases hfind
  have hmfree := hm.sound.allFree hnone
  have hengine := hm.cards.eq_of_allFree hfree hmfree
  have hinventory := h₀.mirrors.eq_of_allFree (hengine ▸ hm.mirrors) h₀.sound hfree hm.nodeName
  intro m
  have hmeq : m = n.performAll (uids.map .unprepare) := unprepareAll_snd uids
  rw [hmeq]
  refine ⟨?_, fun key card hcard => ?_, ?_⟩
  · rw [preparedClaims, hkeeps.read]
    exact congrArg Except.ok (claims_foldl_erase hall)
  · have hkey := (hm.sound key card hcard).1
    have hrestored := hmfree key card hcard
    rw [Card.restored, hkey, hm.cards.catalog, hcatalog] at hrestored
    exact hrestored
  · obtain ⟨inventory, engine, _, hd, hs⟩ := hstart
    obtain ⟨_, _, rfl, rfl⟩ := start_ok hs
    rw [hd, hengine, hinventory]

theorem sampleRecord_find? : sampleRecord.find? "c-1" = some sampleDevices :=
  (Dict.find?_insert ..).trans (if_pos rfl)

theorem sampleCarved_holds : deviceNames sampleDevices = ["npu-0-0"] ∧
    sampleCarved.engine.allocatedIds = ["npu-0-0"] ∧
    sampleCarved.engine.FitsThrough ((Node.releaseOrder sampleDevices).map .release) :=
  ⟨by decide +kernel, by decide +kernel, by decide +kernel⟩

theorem sampleCarved_reached : sampleSetup.Reaches sampleHost sampleCarved :=
  .start sampleStart_starts sampleCarved_run

open Node in
theorem NodeSetup.Reaches.allocated_on_record_carved :
    sampleSetup.Reaches sampleHost sampleCarved ∧ sampleCarved.engine.allocatedIds = ["npu-0-0"] ∧
    (∀ id ∈ sampleCarved.engine.allocatedIds, ∃ uid, sampleCarved.Records uid id) ∧
    (sampleCarved.unprepareAll ["c-1"]).2.preparedClaims = .ok Dict.empty := by
  have hall : ∀ uid devices, sampleRecord.find? uid = some devices → uid ∈ ["c-1"] := by
    intro uid devices hd
    rw [sampleRecord, Checkpoint.find?, Checkpoint.insert, Dict.find?_insert] at hd
    split at hd
    · rename_i huid
      exact List.mem_singleton.2 huid
    · cases hd
  have hfit : sampleCarved.FitsThrough (["c-1"].map .unprepare) := by
    refine ⟨?_, trivial⟩
    rw [Fits, engineCalls_unprepare sampleCarved_read sampleRecord_find?]
    exact sampleCarved_holds.2.2
  have h := NodeSetup.Reaches.allocated_on_record sampleCarved_reached rfl
  exact ⟨sampleCarved_reached, sampleCarved_holds.2.1, h.1,
    (h.2 _ ["c-1"] sampleCarved_read rfl hall hfit).1⟩

end SliceAgent
