import SliceAgent.Proofs.HostEffects

/-!
Lives of a node: it is called, stops or breaks off in the middle of a call, and is started again over the
host that it left. Through all of that a prepared claim stays on record until it is unprepared, so that
to prepare it again reports the same devices and changes nothing (`NodeSetup.Leads.prepare_again`).
-/
namespace SliceAgent

/-- A node in use, or the host of one that is down. -/
inductive System where
  | up (n : Node)
  | down (h : Host)

namespace System

def host : System → Host
  | up n => n.host
  | down h => h

def disturb (a : System) (files : FileTree) (faults : Faults) : System :=
  match a with
  | up n => up { n with host := { n.host with files, faults } }
  | down h => down { h with files, faults }

theorem host_disturb (a : System) (files : FileTree) (faults : Faults) :
    (a.disturb files faults).host = { a.host with files, faults } := by
  cases a <;> rfl

/-- Whether the node, if there is one, has its specifications where it should. -/
def Under (q : CdiRoot → Prop) : System → Prop
  | up n => q n.cdi
  | down _ => True

theorem Under.disturb {q : CdiRoot → Prop} {a : System} (h : a.Under q) (files : FileTree)
    (faults : Faults) : (a.disturb files faults).Under q := by
  cases a <;> exact h

end System

theorem Node.cdi_perform (n : Node) (call : NodeCall) : (n.perform call).cdi = n.cdi := by
  by_cases hcall : call = .reconcile
  · rw [hcall]
    rfl
  · obtain ⟨host, hp⟩ := n.perform_after hcall
    rw [hp]
    rfl

/-- What a system comes to be, by some calls and whatever others do to the files. A node that breaks off
in a call or a start leaves the first of its effects; a start that fails leaves all that it has. -/
inductive NodeSetup.Leads (s : NodeSetup) (calls : NodeCall → Prop)
    (others : FileTree → FileTree → Prop) (a : System) : System → Prop
  | refl : Leads s calls others a a
  | disturb {b : System} (files : FileTree) (faults : Faults) : Leads s calls others a b →
      others b.host.files files → Leads s calls others a (b.disturb files faults)
  | call {n : Node} (call : NodeCall) : Leads s calls others a (.up n) → calls call →
      Leads s calls others a (.up (n.perform call))
  | crash {n : Node} (call : NodeCall) (done : List HostEffect) :
      Leads s calls others a (.up n) → calls call → done <+: n.effects call →
      Leads s calls others a (.down (n.host.applyAll done))
  | stop {n : Node} : Leads s calls others a (.up n) → Leads s calls others a (.down n.host)
  | breakOff {h : Host} (done : List HostEffect) : Leads s calls others a (.down h) →
      done <+: Node.startEffects s.cdi h → Leads s calls others a (.down (h.applyAll done))
  | start {h : Host} {n : Node} : Leads s calls others a (.down h) → s.Starts h n →
      Leads s calls others a (.up n)

namespace NodeSetup

variable {s : NodeSetup} {calls : NodeCall → Prop} {others : FileTree → FileTree → Prop}
  {a b : System} {host : Host} {n m : Node}

theorem Starts.host_eq (h : s.Starts host n) :
    n.cdi = s.cdi ∧ n.host = host.applyAll (Node.startEffects s.cdi host) := by
  obtain ⟨inventory, engine, host', _, hstart⟩ := h
  have hhost := Node.start_host s.cdi s.claims engine inventory host
  rw [hstart] at hhost
  exact ⟨(Node.start_ok hstart).1, (Node.start_ok_host hstart).trans hhost⟩

/-- What holds throughout the effects of each call and start holds of all that a system comes to be. -/
theorem Leads.keeps {q : CdiRoot → Prop} {p : Host → Prop} (hcdi : q s.cdi)
    (hothers : ∀ h files faults, others h.files files → p h → p { h with files, faults })
    (hcalls : ∀ (n : Node) call, q n.cdi → calls call → p n.host →
      Host.Throughout p (n.effects call) n.host)
    (hstarts : ∀ h, p h → Host.Throughout p (Node.startEffects s.cdi h) h)
    (hrun : s.Leads calls others a b) (ha : a.Under q) (hp : p a.host) : b.Under q ∧ p b.host := by
  induction hrun with
  | refl => exact ⟨ha, hp⟩
  | disturb files faults _ hfiles ih =>
    refine ⟨ih.1.disturb files faults, ?_⟩
    rw [System.host_disturb]
    exact hothers _ files faults hfiles ih.2
  | @call n call _ hallowed ih =>
    have hcall := hcalls n call ih.1 hallowed ih.2
    refine ⟨?_, ?_⟩
    · rw [System.Under, Node.cdi_perform]
      exact ih.1
    · rw [System.host, Node.perform_host]
      exact hcall.last
  | @crash n call done _ hallowed hdone ih =>
    exact ⟨trivial, (hcalls n call ih.1 hallowed ih.2).upTo hdone⟩
  | stop _ ih => exact ⟨trivial, ih.2⟩
  | breakOff done _ hdone ih => exact ⟨trivial, (hstarts _ ih.2).upTo hdone⟩
  | start _ hstart ih =>
    obtain ⟨hsame, hhost⟩ := hstart.host_eq
    refine ⟨?_, ?_⟩
    · rw [System.Under, hsame]
      exact hcdi
    · rw [System.host, hhost]
      exact (hstarts _ ih.2).last

end NodeSetup

section Kept

variable {uid : String} {devices : List PreparedDevice} {h : Host} {c : Checkpoint} {n : Node}
  {call : NodeCall} {entry : Option (List PreparedDevice)}

/-- What is on record of a claim, even if the record cannot be read at present. -/
def Host.HasEntry (uid : String) (entry : Option (List PreparedDevice)) (h : Host) : Prop :=
  ∃ c, h.stored? = some c ∧ c.find? uid = entry

def Host.Keeps (uid : String) (devices : List PreparedDevice) (h : Host) : Prop :=
  ∃ c, h.stored? = some c ∧ c.find? uid = some devices

@[simp] theorem Host.stored?_apply_record (h : Host) (c : Checkpoint) :
    (h.apply (.record c)).stored? = some c := by
  rw [Host.stored?, Host.apply, CheckpointStore.get_put]
  rfl

theorem Host.HasEntry.apply {e : HostEffect} (hentry : h.HasEntry uid entry)
    (he : ∀ c, e = .record c → c.find? uid = entry) : (h.apply e).HasEntry uid entry := by
  cases e with
  | record c => exact ⟨c, h.stored?_apply_record c, he c rfl⟩
  | _ => exact hentry

theorem NodeCall.Rewrites.find?_other {old new : Checkpoint} (h : call.Rewrites old new)
    (hcall : call.uid? ≠ some uid) : new.find? uid = old.find? uid := by
  cases h with
  | enter devices _ =>
    refine (Dict.find?_insert ..).trans (if_neg ?_)
    rintro rfl
    exact hcall rfl
  | erase =>
    refine (Dict.find?_erase ..).trans (if_neg ?_)
    rintro rfl
    exact hcall rfl

theorem Node.hasEntry_effects (hentry : n.host.HasEntry uid entry)
    (hrewrites : ∀ old new, n.host.readCheckpoint = .ok old → call.Rewrites old new →
      new.find? uid = entry) :
    Host.Throughout (Host.HasEntry uid entry) (n.effects call) n.host := by
  refine Host.throughout_of_mem hentry fun e he h hk => hk.apply ?_
  refine n.forall_effects (q := fun e => ∀ c, e = .record c → c.find? uid = entry) call ?_ ?_ ?_ e he
  · simp [CdiRoot.writeEffects]
  · exact fun _ _ _ => HostEffect.noConfusion
  · rintro old new hread hnew _ ⟨⟩
    exact hrewrites old new hread hnew

theorem Node.hasEntry_perform (hentry : n.host.HasEntry uid entry) (hcall : call.uid? ≠ some uid) :
    (n.perform call).host.HasEntry uid entry := by
  rw [perform_host]
  refine (hasEntry_effects hentry fun old new hread hnew => ?_).last
  obtain ⟨c, hstored, hfind⟩ := hentry
  cases (Host.stored?_of_read hread).symm.trans hstored
  exact (hnew.find?_other hcall).trans hfind

theorem Node.keeps_effects (hcall : call ≠ .unprepare uid) (hk : n.host.Keeps uid devices) :
    Host.Throughout (Host.Keeps uid devices) (n.effects call) n.host := by
  refine hasEntry_effects hk fun old new hread hnew => ?_
  obtain ⟨c, hstored, hfind⟩ := hk
  cases (Host.stored?_of_read hread).symm.trans hstored
  refine (hnew.find?_other fun huid => ?_).trans hfind
  cases hnew with
  | enter _ hnone =>
    cases huid
    cases hnone.symm.trans hfind
  | erase =>
    cases huid
    exact hcall rfl

theorem Host.names_contains_of_stored (hstored : h.stored? = some c) :
    h.store.names.contains Checkpoint.storedName = true := by
  unfold stored? CheckpointStore.get at hstored
  cases hr : h.store.records.find? Checkpoint.storedName with
  | none =>
    rw [hr] at hstored
    cases hstored
  | some record =>
    have hcontains : h.store.records.contains Checkpoint.storedName = true := by
      rw [Dict.contains, hr]
      rfl
    rw [List.contains_iff_mem]
    exact Dict.contains_iff.1 hcontains

theorem Node.hasEntry_startEffects (cdi : CdiRoot) (hentry : h.HasEntry uid entry) :
    Host.Throughout (Host.HasEntry uid entry) (startEffects cdi h) h := by
  refine Host.throughout_of_mem hentry fun e he h' hk => hk.apply ?_
  obtain ⟨c, hstored, _⟩ := hentry
  refine forall_startEffects (q := fun e => ∀ c, e = .record c → c.find? uid = entry) ?_ ?_ e he
  · simp [CdiRoot.writeEffects]
  · intro hnone
    cases hnone.symm.trans (Host.names_contains_of_stored hstored)

theorem NodeSetup.Leads.keeps_claim {s : NodeSetup} {others : FileTree → FileTree → Prop} {a b : System}
    (hrun : s.Leads (· ≠ .unprepare uid) others a b) (hk : a.host.Keeps uid devices) :
    b.host.Keeps uid devices := by
  refine (hrun.keeps (q := fun _ => True) trivial ?_ ?_ ?_ ?_ hk).2
  · intro h files faults _ hk
    exact hk
  · intro n call _ hcall hk
    exact Node.keeps_effects hcall hk
  · intro h hk
    exact Node.hasEntry_startEffects s.cdi hk
  · cases a <;> trivial

theorem Node.keeps_of_prepare {claim : ResourceClaim} (hok : (n.prepare claim).1 = .ok devices) :
    (n.prepare claim).2.host.Keeps claim.uid devices := by
  rcases n.prepare_cases claim with ⟨e, hr, hp⟩ | ⟨c, ds, hr, hf, hp⟩ | ⟨c, hr, hf, hp⟩
  · rw [hp] at hok
    cases hok
  · rw [hp] at hok ⊢
    cases hok
    exact ⟨c, Host.stored?_of_read hr, hf⟩
  · rcases n.prepareNew_cases claim c with ⟨e, files, hnew⟩ | ⟨ds, files, _, hnew⟩
    · rw [hp, hnew] at hok
      cases hok
    · rw [hp, hnew] at hok ⊢
      cases hok
      exact ⟨_, stored?_storing _, (Dict.find?_insert ..).trans (if_pos rfl)⟩

/-- A claim that was prepared, and not unprepared since, is prepared again with the same devices and
without any effect, whatever it asks for by then: after any calls for other claims, failures, restarts
and crashes, as long as the record can be read. -/
theorem NodeSetup.Leads.prepare_again {s : NodeSetup} {others : FileTree → FileTree → Prop} {m : Node}
    {claim : ResourceClaim} (hok : (n.prepare claim).1 = .ok devices)
    (hrun : s.Leads (· ≠ .unprepare claim.uid) others (.up (n.perform (.prepare claim))) (.up m))
    (again : ResourceClaim) (huid : again.uid = claim.uid) (hread : m.host.readCheckpoint = .ok c) :
    m.prepare again = (.ok devices, m) := by
  obtain ⟨kept, hstored, hfind⟩ := hrun.keeps_claim (Node.keeps_of_prepare hok)
  cases (Host.stored?_of_read hread).symm.trans hstored
  simp only [Node.prepare, hread, huid, hfind]

end Kept

section Sample

theorem Node.start_of_kept (cdi : CdiRoot) (claims : ClaimSettings) (engine : Engine)
    (inventory : Inventory) (host : Host) (hspec : (host.writeCommonSpec cdi).1 = .ok ())
    (hfaults : host.faults = .none)
    (hkept : host.store.names.contains Checkpoint.storedName = true) :
    ∃ host', start cdi claims engine inventory host = (.ok ⟨cdi, claims, engine, inventory, false,
      { host with files := (host.writeCommonSpec cdi).2.files }⟩, host') := by
  have hwrite : host.writeCommonSpec cdi =
      (.ok (), { host with files := (host.writeCommonSpec cdi).2.files }) :=
    Prod.ext hspec (host.changeFiles_snd ..)
  unfold start
  rw [hwrite]
  simp only [Host.hasCheckpoint, hfaults, Faults.none, hkept]
  exact ⟨_, rfl⟩

def sampleRestarted : Node :=
  ⟨sampleSetup.cdi, sampleSetup.claims, sampleCards.2, sampleCards.1, false, { sampleCarved.host with
    files := (sampleCarved.host.writeCommonSpec sampleSetup.cdi).2.files }⟩

theorem sampleRestarted_starts : sampleSetup.Starts sampleCarved.host sampleRestarted := by
  obtain ⟨host', hstart⟩ := Node.start_of_kept sampleSetup.cdi sampleSetup.claims
    sampleCards.2 sampleCards.1 sampleCarved.host (ok_of_toOption (by decide +kernel)) rfl
    (by decide +kernel)
  exact ⟨sampleCards.1, sampleCards.2, host', rfl, hstart⟩

theorem sampleRestarted_read : sampleRestarted.host.readCheckpoint = .ok sampleRecord :=
  (Host.readCheckpoint_of_no_faults rfl).trans (CheckpointStore.get_put ..)

theorem sampleRestarted_leads (others : FileTree → FileTree → Prop) :
    sampleSetup.Leads (· ≠ .unprepare "c-1") others
      (.up (sampleStart.perform (.prepare (sampleClaim "c-1" "npu-0-0")))) (.up sampleRestarted) := by
  refine .start (.stop ?_) sampleRestarted_starts
  rw [Node.perform, sampleStart_prepare]
  exact .refl

theorem NodeSetup.Leads.prepare_again_restarted :
    (sampleStart.prepare (sampleClaim "c-1" "npu-0-0")).1 = .ok sampleDevices ∧
      sampleSetup.Leads (· ≠ .unprepare "c-1") (fun _ _ => True)
        (.up (sampleStart.perform (.prepare (sampleClaim "c-1" "npu-0-0")))) (.up sampleRestarted) ∧
      sampleRestarted.prepare (sampleClaim "c-1" "npu-0-1") = (.ok sampleDevices, sampleRestarted) :=
  have hok := congrArg Prod.fst sampleStart_prepare
  have hrun := sampleRestarted_leads fun _ _ => True
  ⟨hok, hrun, NodeSetup.Leads.prepare_again hok hrun _ rfl sampleRestarted_read⟩

end Sample

end SliceAgent
